import ServiceSim.Proofs.Interpreter.Queues

/-!
# The ledger of a resource

What has happened to the demands on one resource, as an observer of the run writes it down.  Every
valid demand gets a ticket when it is issued.  The ticket is moved when the process appears among
those that have a server, and again when the process completes its demand.

`Kernel.Booked` relates this ledger to the line of the resource: tickets are moved in the order in
which they were given out, and at every moment those that wait and those in service are the tickets
of the processes in the line.
-/

namespace ServiceSim

open Activity

/-! ## What steps do to a resource -/

/-- What a step does to a resource. -/
inductive Deed where
  | issues
  | releases
  | nothing
deriving DecidableEq

namespace Deed

/-- The line of a resource after a process has done something to it. -/
def line (deed : Deed) (id : ProcessId) (s : Servers) : Servers :=
  match deed with
  | issues => (s.acquire id).2
  | releases => (s.release id).2
  | nothing => s

/-- The number of those served after something has been done to a resource. -/
def served (deed : Deed) (n : Nat) : Nat :=
  match deed with
  | releases => n + 1
  | _ => n

end Deed

/-- What the next step of an activity does to a resource: it issues a valid demand, or completes
one, or neither. -/
def Activity.deed (key : ResourceKey) (env : Environment) (a : Activity) : Deed :=
  match a.tasks with
  | .release load _ :: _ => if load.key = key then .releases else .nothing
  | _ =>
    match a.demanded env with
    | some (container, resource, amount) =>
      if (container, resource) = key ∧ IsValidAmount amount then .issues else .nothing
    | none => .nothing

namespace Activity

variable {a b : Activity} {env env' : Environment} {key : ResourceKey} {now : SimTime}
  {id : ProcessId}

lemma Awake.deed (awake : a.Awake) (key : ResourceKey) (env : Environment) :
    a.deed key env = match a.demanded env with
      | some (container, resource, amount) =>
        if (container, resource) = key ∧ IsValidAmount amount then .issues else .nothing
      | none => .nothing := by
  cases htasks : a.tasks with
  | nil => rw [Activity.deed, htasks]
  | cons task rest =>
    have htask := awake task (htasks ▸ List.mem_cons_self)
    rw [Activity.deed, htasks]
    cases task <;> first | rfl | cases htask

lemma deed_of_demanded (awake : a.Awake) (h : a.demanded env = none) :
    a.deed key env = .nothing := by
  rw [awake.deed, h]

/-- Nothing is done to a resource that is there by a demand that is refused. -/
lemma deed_of_refused (awake : a.Awake) (refused : a.Refused now id env) {s : Servers}
    (line : env.resources.line key = some s) : a.deed key env = .nothing := by
  rw [awake.deed]
  cases hdemanded : a.demanded env with
  | none => rfl
  | some demand =>
    obtain ⟨container, resource, amount⟩ := demand
    dsimp only
    split_ifs with hissues
    · obtain ⟨rfl, hvalid⟩ := hissues
      obtain ⟨e, he⟩ := refused container resource amount hdemanded
      cases hfind : env.resources.find container resource with
      | error e' =>
        simp only [Resources.line, hfind] at line
        cases line
      | ok r => exact absurd he (Resources.issue_valid hvalid hfind e)
    · rfl

/-- What a demand that is accepted does. -/
lemma deed_of_issue (awake : a.Awake) {container : ContainerId} {resource : String} {amount : Float}
    (hdemanded : a.demanded env = some (container, resource, amount)) {load : Load} {granted : Bool}
    {rs' : Resources}
    (hissue : env.resources.issue now id container resource amount = .ok (load, granted, rs')) :
    a.deed key env = if key = load.key then .issues else .nothing := by
  have hvalid := (Resources.issue_ok hissue).1
  have hkey := Resources.issue_key hissue
  rw [awake.deed, hdemanded, hkey]
  dsimp only
  by_cases h : key = (container, resource)
  · rw [if_pos ⟨h.symm, hvalid⟩, if_pos h]
  · rw [if_neg fun hand => h hand.1.symm, if_neg h]

lemma Serves.deed {load : Load} (serves : a.Serves load) : a.deed key env = .nothing := by
  obtain ⟨rest, htasks⟩ := serves
  simp only [Activity.deed, demanded, htasks]

lemma Joins.deed (joins : a.Joins) : a.deed key env = .nothing := by
  obtain ⟨rest, htasks⟩ := joins
  simp only [Activity.deed, demanded, htasks]

lemma deed_of_release {load : Load} {started : SimTime} {rest : List Task}
    (htasks : a.tasks = .release load started :: rest) :
    a.deed key env = if key = load.key then .releases else .nothing := by
  rw [deed, htasks]
  by_cases h : key = load.key
  · simp only [h, if_true]
  · simp only [h, Ne.symm h, if_false]

end Activity

/-! ## Ledgers -/

/-- An issued demand: its place in the order of issuing, and the process. -/
structure Ticket where
  number : Nat
  process : ProcessId
deriving DecidableEq

/-- The tickets of a resource. -/
structure Ledger where
  /-- All tickets, in the order in which the demands were issued. -/
  issued : List Ticket
  /-- Those to which a server has been granted, in the order of granting. -/
  granted : List Ticket
  /-- Those that wait. -/
  waiting : List Ticket
  /-- Those in service. -/
  inService : List Ticket
  /-- Those that have been served. -/
  served : List Ticket

namespace Ledger

/-- The ledger before any demand. -/
def empty : Ledger := ⟨[], [], [], [], []⟩

/-- Gives out a ticket. -/
def issue (id : ProcessId) (l : Ledger) : Ledger :=
  { l with
    issued := l.issued ++ [⟨l.issued.length, id⟩]
    waiting := l.waiting ++ [⟨l.issued.length, id⟩] }

/-- Notes that a process that waits has been granted a server. -/
def grant (l : Ledger) (id : ProcessId) : Ledger :=
  match l.waiting.find? (·.process == id) with
  | none => l
  | some t =>
    { l with
      waiting := l.waiting.erase t
      granted := l.granted ++ [t]
      inService := l.inService ++ [t] }

/-- Notes that a process in service has been served. -/
def serve (id : ProcessId) (l : Ledger) : Ledger :=
  match l.inService.find? (·.process == id) with
  | none => l
  | some t =>
    { l with
      inService := l.inService.erase t
      served := l.served ++ [t] }

/-- A ledger in which tickets are granted in the order in which they were issued, and every ticket
is in one place. -/
structure Sound (l : Ledger) : Prop where
  numbered : l.issued.map Ticket.number = List.range l.issued.length
  order : l.issued = l.granted ++ l.waiting
  split : l.granted.Perm (l.inService ++ l.served)

variable {l : Ledger} {id : ProcessId}

lemma empty_sound : empty.Sound := ⟨rfl, rfl, List.Perm.refl _⟩

lemma issue_sound (h : l.Sound) (id : ProcessId) : (l.issue id).Sound := by
  refine ⟨?_, ?_, h.split⟩
  · simp only [issue, List.map_append, h.numbered, List.length_append, List.length_singleton,
      List.range_succ, List.map_singleton]
  · simp only [issue, ← List.append_assoc, ← h.order]

/-- A grant to the first that waits. -/
lemma grant_first (h : l.Sound) {t : Ticket} {rest : List Ticket} (waiting : l.waiting = t :: rest) :
    l.grant t.process = { l with
      waiting := rest
      granted := l.granted ++ [t]
      inService := l.inService ++ [t] } ∧ (l.grant t.process).Sound := by
  have heq : l.grant t.process = { l with
      waiting := rest
      granted := l.granted ++ [t]
      inService := l.inService ++ [t] } := by
    simp only [grant, waiting, List.find?_cons_of_pos, beq_self_eq_true, List.erase_cons_head]
  refine ⟨heq, heq ▸ ⟨h.numbered, ?_, ?_⟩⟩
  · rw [List.append_assoc, List.singleton_append, ← waiting]
    exact h.order
  · have hsplit := h.split.append_right [t]
    refine hsplit.trans ?_
    rw [List.append_assoc, List.append_assoc]
    exact List.Perm.append_left _ List.perm_append_comm

/-- The end of a service. -/
lemma serve_spec (h : l.Sound) (holds : id ∈ l.inService.map Ticket.process) :
    ∃ t, t.process = id ∧ l.inService.Perm (t :: l.inService.erase t) ∧
      l.serve id = { l with inService := l.inService.erase t, served := l.served ++ [t] } ∧
      (l.serve id).Sound := by
  obtain ⟨t', ht', hid'⟩ := List.mem_map.mp holds
  cases hfind : l.inService.find? (·.process == id) with
  | none =>
    rw [List.find?_eq_none] at hfind
    exact absurd hid' (by simpa using hfind t' ht')
  | some t =>
    have hid : t.process = id := by simpa using List.find?_some hfind
    have hperm := List.perm_cons_erase (List.mem_of_find?_eq_some hfind)
    have heq : l.serve id =
        { l with inService := l.inService.erase t, served := l.served ++ [t] } := by
      rw [serve, hfind]
    refine ⟨t, hid, hperm, heq, heq ▸ ⟨h.numbered, h.order, ?_⟩⟩
    refine h.split.trans ((hperm.append_right l.served).trans ?_)
    exact List.perm_middle.symm.trans
      (List.Perm.append_left _ (List.perm_append_singleton t l.served).symm)

/-- No two tickets are the same. -/
lemma Sound.nodup (h : l.Sound) : l.issued.Nodup :=
  List.Nodup.of_map Ticket.number (h.numbered ▸ List.nodup_range)

/-- Every ticket waits, is in service or has been served. -/
lemma Sound.partition (h : l.Sound) : l.issued.Perm (l.waiting ++ l.inService ++ l.served) := by
  rw [h.order, List.append_assoc]
  exact (h.split.append_right _).trans List.perm_append_comm

end Ledger

namespace Kernel

/-- The processes that have a server of a resource. -/
def serving (key : ResourceKey) (k : Kernel Environment Activity) : List ProcessId :=
  match k.world.resources.line key with
  | some s => s.serving
  | none => []

/-- What is written down about a step. -/
def record (key : ResourceKey) (k k' : Kernel Environment Activity) (l : Ledger) : Ledger :=
  let noted :=
    match k.running with
    | none => l
    | some (id, a) =>
      match a.deed key k.world with
      | .issues => l.issue id
      | .releases => l.serve id
      | .nothing => l
  ((k'.serving key).filter (· ∉ k.serving key)).foldl Ledger.grant noted

variable {d : Deployment} {k k' : Kernel Environment Activity} {id : ProcessId} {a : Activity}
  {key : ResourceKey} {s : Servers}

/-- A resource has a given line, and a given number of demands has been served there. -/
def Account (rs : Resources) (key : ResourceKey) (line : Servers) (served : Nat) : Prop :=
  rs.line key = some line ∧ rs.served key = served

section Accounts

variable {rs : Resources} (line : k.world.resources.line key = some s)

include line

/-- Nothing has been done, and the resources are the same. -/
lemma account_nothing (resources : rs = k.world.resources) (deed : a.deed key k.world = .nothing) :
    Account rs key ((a.deed key k.world).line id s)
      ((a.deed key k.world).served (k.world.resources.served key)) := by
  rw [deed, resources]
  exact ⟨line, rfl⟩

lemma account_issue (awake : a.Awake) {container : ContainerId} {resource : String}
    {amount : Float} (demanded : a.demanded k.world = some (container, resource, amount))
    {now : SimTime} {load : Load} {granted : Bool}
    (issued : k.world.resources.issue now id container resource amount = .ok (load, granted, rs)) :
    Account rs key ((a.deed key k.world).line id s)
      ((a.deed key k.world).served (k.world.resources.served key)) := by
  have hserved := (Resources.issue_served issued key).1
  rw [deed_of_issue awake demanded issued]
  rcases Resources.issue_line issued with ⟨hnone, -, rfl⟩ | ⟨t, ht, -, lines⟩
  · rw [if_neg fun hkey => by rw [hkey, hnone] at line; cases line]
    exact ⟨line, hserved⟩
  · rw [Account, lines]
    split_ifs with hkey
    · rw [hkey, ht] at line
      injection line with line
      exact ⟨line ▸ rfl, hserved⟩
    · exact ⟨line, hserved⟩

lemma account_release {load : Load} {started : SimTime} {rest : List Task}
    (htasks : a.tasks = .release load started :: rest) {woken : Option ProcessId}
    (completed : k.world.resources.complete id load started = (woken, rs)) :
    Account rs key ((a.deed key k.world).line id s)
      ((a.deed key k.world).served (k.world.resources.served key)) := by
  have hserved := Resources.complete_served completed line
  rw [deed_of_release htasks]
  rcases Resources.complete_line completed with ⟨hnone, -, lines⟩ | ⟨t, ht, -, lines⟩
  · have hkey : key ≠ load.key := by
      rintro rfl
      rw [hnone] at line
      cases line
    rw [if_neg hkey] at hserved ⊢
    exact ⟨(lines key).trans line, hserved⟩
  · rw [Account, lines, hserved]
    split_ifs with hkey
    · rw [hkey, ht] at line
      injection line with line
      exact ⟨line ▸ rfl, rfl⟩
    · exact ⟨line, rfl⟩

end Accounts

/-- **A turn and a line.**  The line and the count of a resource change as the deed says. -/
lemma Turned.line (h : k.Queued) (runs : k.running = some (id, a))
    (turned : Turned k k' id (a.turn d k.now id k.world))
    (line : k.world.resources.line key = some s) :
    Account k'.world.resources key ((a.deed key k.world).line id s)
      ((a.deed key k.world).served (k.world.resources.served key)) := by
  have heffect := advance_effect d k.now id k.world (h.joined.settled _ (running_mem runs))
  rw [turned.world]
  unfold turn
  generalize a.advance d k.now id k.world = progress at heffect
  cases heffect with
  | proceeds ha refused steady _ _ =>
    exact account_nothing line steady.resources (deed_of_refused ha refused line)
  | arrives ha hnone _ _ => exact account_nothing line rfl (deed_of_demanded ha hnone)
  | granted ha hdemanded hissue _ _ _ _ => exact account_issue line ha hdemanded hissue
  | queued ha hdemanded hissue _ _ _ _ => exact account_issue line ha hdemanded hissue
  | serves htasks steady _ _ =>
    exact account_nothing line steady.resources (Serves.deed ⟨_, htasks⟩)
  | completes htasks hcomplete _ _ _ _ => exact account_release line htasks hcomplete
  | forks ha hnone _ steady _ _ =>
    exact account_nothing line steady.resources (deed_of_demanded ha hnone)
  | joins htasks _ _ _ _ => exact account_nothing line rfl (Joins.deed ⟨_, htasks⟩)
  | awaits ha _ => exact account_nothing line rfl (Joins.deed ha)
  | ends ha refused steady _ =>
    exact account_nothing line (report_resources.trans steady.resources)
      (deed_of_refused ha refused line)
  | fails ha _ _ _ _ => exact account_nothing line report_resources (Joins.deed ha)

/-! ## Ledgers and lines -/

/-- **A ledger and the line that it describes.** -/
structure Booked (key : ResourceKey) (count : Nat) (k : Kernel Environment Activity) (l : Ledger) :
    Prop where
  queued : k.Queued
  sound : l.Sound
  line : ∃ s, k.world.resources.line key = some s ∧ s.count = count ∧
    s.waiting = l.waiting.map Ticket.process ∧ s.serving.Perm (l.inService.map Ticket.process)
  served : k.world.resources.served key = l.served.length

variable {count : Nat} {l : Ledger}

lemma serving_of_line (line : k.world.resources.line key = some s) :
    k.serving key = s.serving := by
  rw [serving, line]

/-- Nobody has a server of a resource on which it is not engaged. -/
lemma Queued.not_serving (h : k.Queued) (runs : k.running = some (id, a))
    (free : a.engaged ≠ some key) (line : k.world.resources.line key = some s) :
    id ∉ s.serving := by
  intro hmem
  rw [(h.serving _ _ line).mem_iff] at hmem
  obtain ⟨c, hc, hengaged⟩ := mem_engagedOn.mp hmem
  have hsame := h.joined.order.unique (List.mem_append_left _ hc) (running_mem runs) rfl
  injection hsame with _ hca
  exact free (hca ▸ hengaged)

/-- Nobody both has a server and waits for one. -/
lemma Queued.disjoint (h : k.Queued) (line : k.world.resources.line key = some s) {w : ProcessId}
    (waits : w ∈ s.waiting) : w ∉ s.serving := by
  intro hmem
  rw [(h.serving _ _ line).mem_iff] at hmem
  rw [h.waiting _ _ line] at waits
  obtain ⟨b, hb, -⟩ := mem_engagedOn.mp hmem
  obtain ⟨c, hc, -⟩ := mem_engagedOn.mp waits
  have hdistinct := h.joined.order.distinct
  rw [processes, List.map_append, List.nodup_append] at hdistinct
  exact hdistinct.2.2 w (List.mem_map_of_mem (f := Prod.fst) hb) w
    (List.mem_map_of_mem (f := Prod.fst) hc) rfl

lemma engaged_of_issues {env : Environment} (h : a.deed key env = .issues) : a.engaged = none := by
  cases htasks : a.tasks with
  | nil => rw [engaged, htasks]
  | cons task rest =>
    cases task with
    | serve load =>
      simp only [deed, demanded, htasks] at h
      cases h
    | release load started =>
      simp only [deed, htasks] at h
      split_ifs at h
    | _ => rw [engaged, htasks]

lemma engaged_of_releases {env : Environment} (h : a.deed key env = .releases) :
    a.engaged = some key := by
  simp only [deed] at h
  split at h
  next load started rest htasks =>
    split_ifs at h with hkey
    rw [engaged_of_tasks_release htasks, hkey]
  next =>
    split at h
    · split_ifs at h
    · cases h

/-! ## What turns write down -/

lemma Booked.described (h : k.Booked key count l) (line : k.world.resources.line key = some s) :
    s.count = count ∧ s.waiting = l.waiting.map Ticket.process ∧
      s.serving.Perm (l.inService.map Ticket.process) := by
  obtain ⟨t, ht, hdescribed⟩ := h.line
  rw [line] at ht
  injection ht with ht
  exact ht ▸ hdescribed

/-- Nobody is new among those that have been there. -/
lemma filter_new {old new : List ProcessId} (h : new ⊆ old) : new.filter (· ∉ old) = [] := by
  rw [List.filter_eq_nil_iff]
  intro w hw
  simpa using h hw

lemma filter_new_last {old new : List ProcessId} (h : new ⊆ old) {w : ProcessId} (fresh : w ∉ old) :
    (new ++ [w]).filter (· ∉ old) = [w] := by
  rw [List.filter_append, filter_new h, List.filter_cons_of_pos (by simpa using fresh)]
  rfl

section Deeds

variable (h : k.Booked key count l) (runs : k.running = some (id, a)) (queued : k'.Queued)
  (line : k.world.resources.line key = some s)

include runs line in
/-- The deed is written down first, and then the grants to those that are new in service. -/
lemma record_running {s' : Servers} (line' : k'.world.resources.line key = some s') :
    k.record key k' l = (s'.serving.filter (· ∉ s.serving)).foldl Ledger.grant
      (match a.deed key k.world with
        | .issues => l.issue id
        | .releases => l.serve id
        | .nothing => l) := by
  rw [record, runs, serving_of_line line, serving_of_line line']

include h runs queued line

lemma booked_nothing (deed : a.deed key k.world = .nothing)
    (line' : k'.world.resources.line key = some s)
    (served : k'.world.resources.served key = k.world.resources.served key) :
    k'.Booked key count (k.record key k' l) := by
  rw [record_running runs line line', deed, filter_new (List.Subset.refl _)]
  exact ⟨queued, h.sound, ⟨s, line', h.described line⟩, served.trans h.served⟩

/-- A demand that gets a server has its ticket moved at once. -/
lemma booked_granted (deed : a.deed key k.world = .issues) (granted : (s.acquire id).1 = true)
    (line' : k'.world.resources.line key = some (s.acquire id).2)
    (served : k'.world.resources.served key = k.world.resources.served key) :
    k'.Booked key count (k.record key k' l) := by
  obtain ⟨hcount, hwaiting, hserving⟩ := h.described line
  obtain ⟨hempty, hacquire, -⟩ := Servers.acquire_granted (h.queued.sound _ _ line) granted
  have hfresh : id ∉ s.serving :=
    h.queued.not_serving runs (by rw [engaged_of_issues deed]; simp) line
  have hfirst : (l.issue id).waiting = [⟨l.issued.length, id⟩] := by
    rw [hwaiting, List.map_eq_nil_iff] at hempty
    rw [Ledger.issue, hempty]
    rfl
  obtain ⟨hgrant, hsound⟩ := Ledger.grant_first (Ledger.issue_sound h.sound id) hfirst
  rw [hacquire] at line'
  rw [record_running runs line line', deed, filter_new_last (List.Subset.refl _) hfresh]
  change k'.Booked key count ((l.issue id).grant id)
  refine ⟨queued, hsound, ⟨_, line', hcount, ?_, ?_⟩, ?_⟩
  · rw [hgrant]
    exact hempty
  · rw [hgrant, List.map_append]
    exact hserving.append_right [id]
  · rw [hgrant]
    exact served.trans h.served

/-- The ticket of a demand that has to wait is the last of those that wait. -/
lemma booked_queued (deed : a.deed key k.world = .issues) (waits : (s.acquire id).1 = false)
    (line' : k'.world.resources.line key = some (s.acquire id).2)
    (served : k'.world.resources.served key = k.world.resources.served key) :
    k'.Booked key count (k.record key k' l) := by
  obtain ⟨hcount, hwaiting, hserving⟩ := h.described line
  obtain ⟨hacquire, -⟩ := Servers.acquire_queued (h.queued.sound _ _ line) waits
  rw [hacquire] at line'
  rw [record_running runs line line', deed, filter_new (List.Subset.refl _)]
  change k'.Booked key count (l.issue id)
  refine ⟨queued, Ledger.issue_sound h.sound id, ⟨_, line', hcount, ?_, hserving⟩,
    served.trans h.served⟩
  rw [Ledger.issue, List.map_append, ← hwaiting]
  rfl

/-- The ticket of a demand that is completed is moved, and then that of whoever receives the
server. -/
lemma booked_released (deed : a.deed key k.world = .releases)
    (line' : k'.world.resources.line key = some (s.release id).2)
    (served : k'.world.resources.served key = k.world.resources.served key + 1) :
    k'.Booked key count (k.record key k' l) := by
  obtain ⟨hcount, hwaiting, hserving⟩ := h.described line
  have holds := h.queued.holds runs (engaged_of_releases deed) line
  obtain ⟨-, hsame, hserving', hwaiting'⟩ := Servers.release_spec (h.queued.sound _ _ line) holds
  obtain ⟨t, hid, hperm, hserve, hsound⟩ := Ledger.serve_spec h.sound (hserving.mem_iff.mp holds)
  have hrest : (s.serving.erase id).Perm ((l.serve id).inService.map Ticket.process) := by
    have hmap := hserving.trans (hperm.map Ticket.process)
    rw [List.map_cons, hid] at hmap
    have herase := hmap.erase id
    rw [List.erase_cons_head] at herase
    rw [hserve]
    exact herase
  have hcounted : k'.world.resources.served key = (l.serve id).served.length := by
    rw [hserve, List.length_append, List.length_singleton, ← h.served]
    exact served
  rw [record_running runs line line', deed, hserving']
  cases hwoken : (s.release id).1 with
  | none =>
    rw [hwoken] at hserving' hwaiting'
    rw [Option.toList, List.append_nil, filter_new List.erase_subset]
    change k'.Booked key count (l.serve id)
    refine ⟨queued, hsound, ⟨_, line', hsame.trans hcount, ?_, ?_⟩, hcounted⟩
    · rw [hserve, ← hwaiting, hwaiting']
      rfl
    · rw [hserving', Option.toList, List.append_nil]
      exact hrest
  | some w =>
    rw [hwoken] at hserving' hwaiting'
    have hfresh : w ∉ s.serving := h.queued.disjoint line (hwaiting' ▸ List.mem_cons_self)
    obtain ⟨t', rest, hfirst, hw, hrest'⟩ :=
      List.map_eq_cons_iff.mp (hwaiting.symm.trans hwaiting')
    have hfirst' : (l.serve id).waiting = t' :: rest := by
      rw [hserve]
      exact hfirst
    obtain ⟨hgrant, hgranted⟩ := Ledger.grant_first hsound hfirst'
    rw [hw] at hgrant hgranted
    rw [Option.toList, filter_new_last List.erase_subset hfresh]
    change k'.Booked key count ((l.serve id).grant w)
    refine ⟨queued, hgranted, ⟨_, line', hsame.trans hcount, ?_, ?_⟩, ?_⟩
    · rw [hgrant]
      exact hrest'.symm
    · rw [hgrant, hserving', List.map_append, List.map_singleton, hw]
      exact hrest.append_right _
    · rw [hgrant]
      exact hcounted

end Deeds

/-- A turn keeps the ledger up to date. -/
lemma Turned.booked (h : k.Booked key count l) (runs : k.running = some (id, a))
    (turned : Turned k k' id (a.turn d k.now id k.world)) :
    k'.Booked key count (k.record key k' l) := by
  have hqueued := turned.queued h.queued runs
  obtain ⟨s, line, -⟩ := h.line
  have hline := turned.line h.queued runs line
  cases hdeed : a.deed key k.world with
  | nothing =>
    rw [hdeed] at hline
    exact booked_nothing h runs hqueued line hdeed hline.1 hline.2
  | issues =>
    rw [hdeed] at hline
    cases hacquire : (s.acquire id).1 with
    | true => exact booked_granted h runs hqueued line hdeed hacquire hline.1 hline.2
    | false => exact booked_queued h runs hqueued line hdeed hacquire hline.1 hline.2
  | releases =>
    rw [hdeed] at hline
    exact booked_released h runs hqueued line hdeed hline.1 hline.2

/-- Nothing is written down about other events. -/
lemma Booked.of_resources (h : k.Booked key count l) (queued : k'.Queued)
    (resources : k'.world.resources = k.world.resources) : k'.Booked key count l :=
  ⟨queued, h.sound, resources ▸ h.line, resources ▸ h.served⟩

/-- Every step keeps the ledger up to date. -/
theorem step_booked {stop : Option SimTime} (h : k.Booked key count l)
    (hstep : k.step (program d) stop = .goes k') : k'.Booked key count (k.record key k' l) := by
  rcases step_cases h.queued.joined.order hstep with quiet | ⟨id, a, runs, turned⟩
  · have hrecord : k.record key k' l = l := by
      have hserving : k'.serving key = k.serving key := by
        rw [serving, quiet.resources]
        rfl
      rw [record, quiet.idle, hserving, filter_new (List.Subset.refl _), List.foldl_nil]
    rw [hrecord]
    exact h.of_resources (quiet.queued h.queued) quiet.resources
  · exact turned.booked h runs

end Kernel

end ServiceSim
