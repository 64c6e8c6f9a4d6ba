import ServiceSim.Proofs.Interpreter.Joins
import ServiceSim.Proofs.Resources

/-!
# Queues

A process that has issued a demand is engaged on a resource until its demand is completed.  What it
does next says so: it is going to be served, or to be released.

`Kernel.Queued` relates the lines of resources to the processes.  Those that have a server are the
engaged processes that are not blocked, whether they know of their server already or not, and those
that wait are the engaged processes that are blocked, in the same order.  A server is given back
only by a process that has one, and whoever receives it waits for a server and not at a barrier, so
the invariant carries the one about joins along.
-/

namespace ServiceSim

open Activity

/-! ## Servers -/

namespace Servers

/-- Servers of which none is free while a process waits. -/
structure Sound (s : Servers) : Prop where
  positive : 0 < s.count
  bounded : s.serving.length ≤ s.count
  busy : s.waiting ≠ [] → s.serving.length = s.count

variable {s : Servers} {id : ProcessId}

lemma acquire_count (s : Servers) (id : ProcessId) : (s.acquire id).2.count = s.count := by
  rw [acquire]
  split_ifs <;> rfl

lemma release_count (s : Servers) (id : ProcessId) : (s.release id).2.count = s.count := by
  rw [release]
  split <;> rfl

/-- A server is given at once only if nobody waits. -/
lemma acquire_granted (sound : s.Sound) (h : (s.acquire id).1 = true) :
    s.waiting = [] ∧ (s.acquire id).2 = { s with serving := s.serving ++ [id] } ∧
      (s.acquire id).2.Sound := by
  by_cases hfree : s.serving.length < s.count
  · have hwaiting : s.waiting = [] := by
      by_contra hne
      have := sound.busy hne
      omega
    have heq : (s.acquire id).2 = { s with serving := s.serving ++ [id] } := by
      rw [acquire, if_pos hfree]
    refine ⟨hwaiting, heq, heq ▸ ⟨sound.positive, ?_, fun hne => absurd hwaiting hne⟩⟩
    simp only [List.length_append, List.length_singleton]
    omega
  · rw [acquire, if_neg hfree] at h
    cases h

/-- Whoever gets no server waits behind all others. -/
lemma acquire_queued (sound : s.Sound) (h : (s.acquire id).1 = false) :
    (s.acquire id).2 = { s with waiting := s.waiting ++ [id] } ∧ (s.acquire id).2.Sound := by
  by_cases hfree : s.serving.length < s.count
  · rw [acquire, if_pos hfree] at h
    cases h
  · have heq : (s.acquire id).2 = { s with waiting := s.waiting ++ [id] } := by
      rw [acquire, if_neg hfree]
    have hfull : s.serving.length = s.count := Nat.le_antisymm sound.bounded (Nat.not_lt.mp hfree)
    exact ⟨heq, heq ▸ ⟨sound.positive, sound.bounded, fun _ => hfull⟩⟩

/-- A server that is given back goes to the first that waits. -/
lemma release_spec (sound : s.Sound) (holds : id ∈ s.serving) :
    (s.release id).2.Sound ∧ (s.release id).2.count = s.count ∧
      (s.release id).2.serving = s.serving.erase id ++ (s.release id).1.toList ∧
      s.waiting = (s.release id).1.toList ++ (s.release id).2.waiting := by
  have hlength : (s.serving.erase id).length + 1 = s.serving.length := by
    have hpos : 0 < s.serving.length := List.length_pos_of_mem holds
    rw [List.length_erase_of_mem holds]
    omega
  have hbounded := sound.bounded
  cases hwaiting : s.waiting with
  | nil =>
    have heq : s.release id = (none, { s with serving := s.serving.erase id }) := by
      rw [release, hwaiting]
    rw [heq]
    refine ⟨⟨sound.positive, ?_, fun hne => absurd hwaiting hne⟩, rfl, ?_, hwaiting.symm⟩
    · dsimp only
      omega
    · exact (List.append_nil _).symm
  | cons first rest =>
    have heq : s.release id =
        (some first, { s with serving := s.serving.erase id ++ [first], waiting := rest }) := by
      rw [release, hwaiting]
    have hfull : s.serving.length = s.count := sound.busy (by rw [hwaiting]; exact List.cons_ne_nil _ _)
    have hsame : (s.serving.erase id ++ [first]).length = s.count := by
      rw [List.length_append, List.length_singleton]
      omega
    rw [heq]
    exact ⟨⟨sound.positive, le_of_eq hsame, fun _ => hsame⟩, rfl, rfl, rfl⟩

end Servers

/-! ## Engaged processes -/

namespace Activity

/-- The resource from which a demand of the activity is not completed. -/
def engaged (a : Activity) : Option ResourceKey :=
  match a.tasks with
  | .serve load :: _ => some load.key
  | .release load _ :: _ => some load.key
  | _ => none

variable {a b : Activity} {load : Load}

lemma Awake.not_engaged (awake : a.Awake) : a.engaged = none := by
  cases htasks : a.tasks with
  | nil => rw [engaged, htasks]
  | cons task rest =>
    have htask := awake task (htasks ▸ List.mem_cons_self)
    rw [engaged, htasks]
    cases task <;> first | rfl | cases htask

lemma Joins.not_engaged (joins : a.Joins) : a.engaged = none := by
  obtain ⟨rest, htasks⟩ := joins
  rw [engaged, htasks]

lemma Serves.engaged (serves : a.Serves load) : a.engaged = some load.key := by
  obtain ⟨rest, htasks⟩ := serves
  rw [Activity.engaged, htasks]

lemma engaged_of_tasks_release {rest : List Task} {started : SimTime}
    (htasks : a.tasks = .release load started :: rest) : a.engaged = some load.key := by
  rw [engaged, htasks]

end Activity

namespace Kernel

/-- The processes that are engaged on a resource. -/
def engagedOn (key : ResourceKey) (l : List (ProcessId × Activity)) : List ProcessId :=
  (l.filter (·.2.engaged = some key)).map Prod.fst

/-- The processes that have a server of a resource, or have been given one. -/
def holders (key : ResourceKey) (k : Kernel Environment Activity) : List ProcessId :=
  engagedOn key (k.agenda.map fun x => (x.process, x.task))

/-- The processes that wait for a server of a resource. -/
def waiters (key : ResourceKey) (k : Kernel Environment Activity) : List ProcessId :=
  engagedOn key k.blocked

/-- **Lines and processes agree.** -/
structure Queued (k : Kernel Environment Activity) : Prop where
  joined : k.Joined
  sound : ∀ key s, k.world.resources.line key = some s → s.Sound
  serving : ∀ key s, k.world.resources.line key = some s → s.serving.Perm (k.holders key)
  waiting : ∀ key s, k.world.resources.line key = some s → s.waiting = k.waiters key
  lined : ∀ q ∈ k.blocked, ∀ load, q.2.Serves load → k.world.resources.line load.key ≠ none

variable {d : Deployment} {k k' : Kernel Environment Activity} {id : ProcessId} {a b : Activity}
  {turn : Turn Environment Activity} {key : ResourceKey} {s : Servers}

lemma engagedOn_append (key : ResourceKey) (l l' : List (ProcessId × Activity)) :
    engagedOn key (l ++ l') = engagedOn key l ++ engagedOn key l' := by
  simp only [engagedOn, List.filter_append, List.map_append]

lemma engagedOn_perm (key : ResourceKey) {l l' : List (ProcessId × Activity)} (h : l.Perm l') :
    (engagedOn key l).Perm (engagedOn key l') :=
  (h.filter _).map _

lemma engagedOn_eq_nil {l : List (ProcessId × Activity)} (h : ∀ p ∈ l, p.2.engaged ≠ some key) :
    engagedOn key l = [] := by
  rw [engagedOn, List.map_eq_nil_iff, List.filter_eq_nil_iff]
  intro p hp
  simpa using h p hp

lemma engagedOn_idle (h : a.engaged = none) (key : ResourceKey) : engagedOn key [(id, a)] = [] := by
  refine engagedOn_eq_nil fun p hp => ?_
  rw [List.mem_singleton.mp hp, h]
  simp

lemma engagedOn_other {key' : ResourceKey} (h : a.engaged = some key') (hkey : key ≠ key') :
    engagedOn key [(id, a)] = [] := by
  refine engagedOn_eq_nil fun p hp => ?_
  rw [List.mem_singleton.mp hp, h]
  simpa using fun heq => hkey heq.symm

lemma engagedOn_singleton (h : a.engaged = some key) : engagedOn key [(id, a)] = [id] := by
  rw [engagedOn, List.filter_cons_of_pos (by simpa using h)]
  rfl

lemma engagedOn_congr (h : a.engaged = b.engaged) (key : ResourceKey) :
    engagedOn key [(id, a)] = engagedOn key [(id, b)] := by
  simp only [engagedOn, List.filter_singleton, h]
  cases decide (b.engaged = some key) <;> rfl

lemma mem_engagedOn {l : List (ProcessId × Activity)} :
    id ∈ engagedOn key l ↔ ∃ a, (id, a) ∈ l ∧ a.engaged = some key := by
  simp [engagedOn]

/-! ## Turns -/

lemma holders_running (runs : k.running = some (id, a)) (key : ResourceKey) :
    k.holders key =
      engagedOn key [(id, a)] ++ engagedOn key (k.others.map fun x => (x.process, x.task)) := by
  rw [holders, agenda_running runs, ← engagedOn_append]
  rfl

/-- Who is engaged after a turn and not blocked. -/
lemma Turned.holders (turned : Turned k k' id turn) (key : ResourceKey)
    (spawned : ∀ b ∈ turn.spawned, b.engaged = none) :
    (k'.holders key).Perm
      (engagedOn key ((turn.next.appointments id k.now).map fun x => (x.process, x.task)) ++
        engagedOn key (k.blocked.filter (·.1 ∈ turn.woken)) ++
        engagedOn key (k.others.map fun x => (x.process, x.task))) := by
  have hpast : ∀ l : List (ProcessId × Activity),
      (appointed k.now l).map (fun x => (x.process, x.task)) = l := by
    intro l
    rw [appointed, List.map_map]
    exact List.map_id l
  have hborn : engagedOn key (newborn k.spawned turn.spawned) = [] := by
    refine engagedOn_eq_nil fun p hp => ?_
    rw [spawned p.2 (mem_newborn hp).2.2]
    simp
  refine (engagedOn_perm key (turned.agenda.map fun x => (x.process, x.task))).trans ?_
  simp only [List.map_append, engagedOn_append, hpast, hborn, List.append_nil]
  exact List.Perm.refl _

/-- Who is engaged after a turn and blocked. -/
lemma Turned.waiters (turned : Turned k k' id turn) (key : ResourceKey) :
    k'.waiters key = engagedOn key (k.blocked.filter (·.1 ∉ turn.woken)) ++
      engagedOn key (turn.next.waiting id) := by
  rw [Kernel.waiters, turned.blocked, engagedOn_append]

/-- A turn that leaves the lines as they are. -/
lemma Turned.queued_steady (h : k.Queued) (runs : k.running = some (id, a))
    (turned : Turned k k' id turn) (joined : k'.Joined)
    (lines : ∀ key, turn.world.resources.line key = k.world.resources.line key)
    (spawned : ∀ b ∈ turn.spawned, b.engaged = none)
    (woken : ∀ q ∈ k.blocked, q.1 ∈ turn.woken → q.2.engaged = none)
    (waiting : ∀ p ∈ turn.next.waiting id, p.2.engaged = none)
    (runner : ∀ key s, k.world.resources.line key = some s →
      engagedOn key ((turn.next.appointments id k.now).map fun x => (x.process, x.task)) =
        engagedOn key [(id, a)]) : k'.Queued := by
  have hwoken : ∀ key, engagedOn key (k.blocked.filter (·.1 ∈ turn.woken)) = [] := by
    intro key
    refine engagedOn_eq_nil fun q hq => ?_
    obtain ⟨hq, hmem⟩ := List.mem_filter.mp hq
    rw [woken q hq (of_decide_eq_true hmem)]
    simp
  have hstays : ∀ key, k'.waiters key = k.waiters key := by
    intro key
    have hnext : engagedOn key (turn.next.waiting id) = [] := by
      refine engagedOn_eq_nil fun p hp => ?_
      rw [waiting p hp]
      simp
    rw [turned.waiters, hnext, List.append_nil, Kernel.waiters, engagedOn, engagedOn,
      List.filter_filter]
    congr 1
    refine List.filter_congr fun q hq => ?_
    by_cases hengaged : q.2.engaged = some key
    · have hnot : q.1 ∉ turn.woken := by
        intro hmem
        rw [woken q hq hmem] at hengaged
        cases hengaged
      simp [hengaged, hnot]
    · simp [hengaged]
  refine ⟨joined, ?_, ?_, ?_, ?_⟩
  · intro key s hs
    rw [turned.world, lines] at hs
    exact h.sound key s hs
  · intro key s hs
    rw [turned.world, lines] at hs
    refine (h.serving key s hs).trans (List.Perm.symm ?_)
    refine (turned.holders key spawned).trans ?_
    rw [runner key s hs, hwoken, List.append_nil, holders_running runs]
  · intro key s hs
    rw [turned.world, lines] at hs
    rw [hstays]
    exact h.waiting key s hs
  · intro q hq load hserves
    rw [turned.world, lines]
    rw [turned.blocked, List.mem_append, List.mem_filter] at hq
    rcases hq with ⟨hq, -⟩ | hq
    · exact h.lined q hq load hserves
    · have := waiting q hq
      rw [hserves.engaged] at this
      cases this

/-- A turn that neither wakes nor spawns. -/
lemma Turned.holders_alone {world : Environment} {next : Next Activity}
    (turned : Turned k k' id ⟨world, [], [], next⟩) (runs : k.running = some (id, a))
    (free : a.engaged = none) (key : ResourceKey) :
    (k'.holders key).Perm
      (engagedOn key ((next.appointments id k.now).map fun x => (x.process, x.task)) ++
        k.holders key) := by
  have hfree : engagedOn key [(id, a)] = [] := engagedOn_idle free key
  refine (turned.holders key (by simp)).trans ?_
  rw [holders_running runs, hfree, filter_woken_nil]
  simp [engagedOn]

lemma Turned.waiters_alone {world : Environment} {next : Next Activity}
    (turned : Turned k k' id ⟨world, [], [], next⟩) (key : ResourceKey) :
    k'.waiters key = k.waiters key ++ engagedOn key (next.waiting id) := by
  rw [turned.waiters, filter_asleep_nil, Kernel.waiters]

/-- A demand that gets a server. -/
lemma Turned.queued_granted (h : k.Queued) (runs : k.running = some (id, a)) (free : a.engaged = none)
    {world : Environment} {delay : Float} {load : Load} (hb : b.engaged = some load.key)
    (turned : Turned k k' id ⟨world, [], [], .hold delay b⟩) (joined : k'.Joined)
    (line : k.world.resources.line load.key = some s) (granted : (s.acquire id).1 = true)
    (lines : ∀ key, world.resources.line key =
      if key = load.key then some (s.acquire id).2 else k.world.resources.line key) :
    k'.Queued := by
  obtain ⟨-, hacquire, hsound⟩ := Servers.acquire_granted (h.sound _ _ line) granted
  have hwaiters : ∀ key, k'.waiters key = k.waiters key := fun key =>
    (turned.waiters_alone key).trans (List.append_nil _)
  have hlined : ∀ key, k.world.resources.line key ≠ none → k'.world.resources.line key ≠ none := by
    intro key hkey
    rw [turned.world, lines]
    split_ifs
    · simp
    · exact hkey
  refine ⟨joined, ?_, ?_, ?_, ?_⟩
  · intro key t ht
    rw [turned.world, lines] at ht
    split_ifs at ht with hkey
    · injection ht with ht
      exact ht ▸ hsound
    · exact h.sound key t ht
  · intro key t ht
    have hholders := turned.holders_alone runs free key
    rw [turned.world, lines] at ht
    split_ifs at ht with hkey
    · injection ht with ht
      rw [← ht, hacquire]
      subst hkey
      have hnext : engagedOn load.key [(id, b)] = [id] := engagedOn_singleton hb
      rw [Next.appointments, List.map_singleton, hnext] at hholders
      refine List.Perm.trans ?_ hholders.symm
      refine List.perm_append_comm.trans ?_
      exact (h.serving _ _ line).append_left [id]
    · have hnext : engagedOn key [(id, b)] = [] := engagedOn_other hb hkey
      rw [Next.appointments, List.map_singleton, hnext] at hholders
      exact (h.serving key t ht).trans hholders.symm
  · intro key t ht
    rw [hwaiters]
    rw [turned.world, lines] at ht
    split_ifs at ht with hkey
    · injection ht with ht
      rw [← ht, hacquire, hkey]
      exact h.waiting load.key s line
    · exact h.waiting key t ht
  · intro q hq load' hserves
    have hblocked : k'.blocked = k.blocked := by
      rw [turned.blocked]
      simp [Next.waiting]
    exact hlined _ (h.lined q (hblocked ▸ hq) load' hserves)

/-- A demand that has to wait. -/
lemma Turned.queued_queued (h : k.Queued) (runs : k.running = some (id, a)) (free : a.engaged = none)
    {world : Environment} {load : Load} (hb : b.engaged = some load.key)
    (turned : Turned k k' id ⟨world, [], [], .block b⟩) (joined : k'.Joined)
    (line : k.world.resources.line load.key = some s) (queued : (s.acquire id).1 = false)
    (lines : ∀ key, world.resources.line key =
      if key = load.key then some (s.acquire id).2 else k.world.resources.line key) :
    k'.Queued := by
  obtain ⟨hacquire, hsound⟩ := Servers.acquire_queued (h.sound _ _ line) queued
  have hholders : ∀ key, (k'.holders key).Perm (k.holders key) := fun key =>
    turned.holders_alone runs free key
  have hwaiters : ∀ key, k'.waiters key = k.waiters key ++ engagedOn key [(id, b)] := fun key =>
    turned.waiters_alone key
  refine ⟨joined, ?_, ?_, ?_, ?_⟩
  · intro key t ht
    rw [turned.world, lines] at ht
    split_ifs at ht with hkey
    · injection ht with ht
      exact ht ▸ hsound
    · exact h.sound key t ht
  · intro key t ht
    refine List.Perm.trans ?_ (hholders key).symm
    rw [turned.world, lines] at ht
    split_ifs at ht with hkey
    · injection ht with ht
      rw [← ht, hacquire, hkey]
      exact h.serving load.key s line
    · exact h.serving key t ht
  · intro key t ht
    rw [hwaiters]
    rw [turned.world, lines] at ht
    split_ifs at ht with hkey
    · injection ht with ht
      rw [← ht, hacquire, hkey, engagedOn_singleton hb, ← h.waiting _ _ line]
    · have hnext : engagedOn key [(id, b)] = [] := engagedOn_other hb hkey
      rw [hnext, List.append_nil]
      exact h.waiting key t ht
  · intro q hq load' hserves
    rw [turned.world, lines]
    split_ifs with hkey
    · simp
    · rw [turned.blocked, List.mem_append, List.mem_filter] at hq
      rcases hq with ⟨hq, -⟩ | hq
      · exact h.lined q hq load' hserves
      · rw [List.mem_singleton.mp hq] at hserves
        rw [hserves.engaged] at hb
        injection hb with hb
        exact absurd hb hkey

lemma engagedOn_filter (key : ResourceKey) (p : ProcessId → Bool)
    (l : List (ProcessId × Activity)) :
    engagedOn key (l.filter fun q => p q.1) = (engagedOn key l).filter p := by
  simp only [engagedOn, List.filter_map, List.filter_filter, Function.comp_def, Bool.and_comm]

lemma waiters_nodup (order : k.Orderly) (key : ResourceKey) : (k.waiters key).Nodup :=
  order.blocked_distinct.sublist (List.filter_sublist.map Prod.fst)

/-- No process waits for two resources. -/
lemma waiters_unique (order : k.Orderly) {key' : ResourceKey} {w : ProcessId}
    (hw : w ∈ k.waiters key) (hw' : w ∈ k.waiters key') : key = key' := by
  obtain ⟨b, hb, hkey⟩ := mem_engagedOn.mp hw
  obtain ⟨c, hc, hkey'⟩ := mem_engagedOn.mp hw'
  have hbc := order.unique (List.mem_append_right _ hb) (List.mem_append_right _ hc) rfl
  injection hbc with _ hbc
  rw [hbc, hkey'] at hkey
  injection hkey with hkey
  exact hkey.symm

/-- A process that is served has a server. -/
lemma Queued.holds (h : k.Queued) (runs : k.running = some (id, a)) (ha : a.engaged = some key)
    (line : k.world.resources.line key = some s) : id ∈ s.serving := by
  rw [(h.serving _ _ line).mem_iff, holders_running runs, engagedOn_singleton ha]
  exact List.mem_append_left _ List.mem_cons_self

/-! ### Completions -/

section Completions

variable (h : k.Queued) (runs : k.running = some (id, a)) (ha : a.engaged = some key)
  (line : k.world.resources.line key = some s)
  {woken : Option ProcessId} (hwoken : woken = (s.release id).1)

include h runs ha line hwoken

/-- Whoever receives the server is the first that waits for it. -/
lemma Queued.waiters_released :
    k.waiters key = woken.toList ++ (s.release id).2.waiting := by
  obtain ⟨-, -, -, hwaiting⟩ := Servers.release_spec (h.sound _ _ line) (h.holds runs ha line)
  rw [← h.waiting _ _ line, hwoken]
  exact hwaiting

/-- Whoever receives the server waits in no other queue. -/
lemma Queued.woken_elsewhere {key' : ResourceKey} (hkey : key' ≠ key) :
    ∀ w ∈ k.waiters key', w ∉ woken.toList := by
  intro w hw hmem
  have hwload : w ∈ k.waiters key := by
    rw [h.waiters_released runs ha line hwoken]
    exact List.mem_append_left _ hmem
  exact hkey (waiters_unique h.joined.order hw hwload)

/-- Whoever receives the server leaves the queue. -/
lemma Queued.woken_leaves : ∀ w ∈ (s.release id).2.waiting, w ∉ woken.toList := by
  have hnodup := waiters_nodup h.joined.order key
  rw [h.waiters_released runs ha line hwoken, List.nodup_append] at hnodup
  exact fun w hw hmem => hnodup.2.2 w hmem w hw rfl

/-- The servers are held by the processes that have gone on and by the one that is woken. -/
lemma Queued.serving_released : (s.release id).2.serving.Perm (woken.toList ++
    engagedOn key (k.others.map fun x => (x.process, x.task))) := by
  obtain ⟨-, -, hserving, -⟩ := Servers.release_spec (h.sound _ _ line) (h.holds runs ha line)
  have hserves := (h.serving _ _ line).erase id
  rw [holders_running runs, engagedOn_singleton ha, List.singleton_append,
    List.erase_cons_head] at hserves
  rw [hserving, ← hwoken]
  exact List.perm_append_comm.trans (hserves.append_left _)

variable (hb : b.engaged = none) {world : Environment}
  (turned : Turned k k' id ⟨world, woken.toList, [], .proceed b⟩)

omit h ha line hwoken runs in
include turned in
lemma Turned.waiters_completes (key' : ResourceKey) :
    k'.waiters key' = (k.waiters key').filter (· ∉ woken.toList) := by
  rw [turned.waiters]
  exact (List.append_nil _).trans (engagedOn_filter key' (· ∉ woken.toList) k.blocked)

omit h ha line hwoken runs in
include turned hb in
lemma Turned.holders_completes (key' : ResourceKey) :
    (k'.holders key').Perm ((k.waiters key').filter (· ∈ woken.toList) ++
      engagedOn key' (k.others.map fun x => (x.process, x.task))) := by
  refine (turned.holders key' (by simp)).trans ?_
  rw [Next.appointments, List.map_singleton, engagedOn_idle hb, List.nil_append,
    engagedOn_filter key' (· ∈ woken.toList) k.blocked]
  exact List.Perm.refl _

include turned hb in
/-- A demand that is completed. -/
lemma Turned.queued_completes (joined : k'.Joined)
    (lines : ∀ key', world.resources.line key' =
      if key' = key then some (s.release id).2 else k.world.resources.line key') :
    k'.Queued := by
  have hqueue := h.waiters_released runs ha line hwoken
  have hleaves := h.woken_leaves runs ha line hwoken
  refine ⟨joined, ?_, ?_, ?_, ?_⟩
  · intro key' t ht
    rw [turned.world, lines] at ht
    split_ifs at ht with hkey
    · injection ht with ht
      exact ht ▸ (Servers.release_spec (h.sound _ _ line) (h.holds runs ha line)).1
    · exact h.sound key' t ht
  · intro key' t ht
    refine List.Perm.trans ?_ (turned.holders_completes hb key').symm
    rw [turned.world, lines] at ht
    split_ifs at ht with hkey
    · injection ht with ht
      have hall : (k.waiters key).filter (· ∈ woken.toList) = woken.toList := by
        rw [hqueue, List.filter_append, List.filter_eq_self.mpr (by simp),
          List.filter_eq_nil_iff.mpr (by simpa using hleaves), List.append_nil]
      rw [← ht, hkey, hall]
      exact h.serving_released runs ha line hwoken
    · have hnone : (k.waiters key').filter (· ∈ woken.toList) = [] :=
        List.filter_eq_nil_iff.mpr (by simpa using h.woken_elsewhere runs ha line hwoken hkey)
      have hserves := h.serving key' t ht
      rw [holders_running runs, engagedOn_other ha hkey] at hserves
      rw [hnone]
      exact hserves
  · intro key' t ht
    rw [turned.waiters_completes]
    rw [turned.world, lines] at ht
    split_ifs at ht with hkey
    · injection ht with ht
      rw [← ht, hkey, hqueue, List.filter_append, List.filter_eq_nil_iff.mpr (by simp),
        List.filter_eq_self.mpr (by simpa using hleaves), List.nil_append]
    · rw [List.filter_eq_self.mpr (by simpa using h.woken_elsewhere runs ha line hwoken hkey)]
      exact h.waiting key' t ht
  · intro q hq load' hserves
    rw [turned.world, lines]
    split_ifs with hkey
    · simp
    · rw [turned.blocked, List.mem_append, List.mem_filter] at hq
      rcases hq with ⟨hq, -⟩ | hq
      · exact h.lined q hq load' hserves
      · cases hq

end Completions

/-- Whoever receives a server waits for one. -/
lemma Queued.releasesServer (h : k.Queued) (runs : k.running = some (id, a)) :
    ReleasesServer k id a := by
  intro load started rest htasks w hw q hq hqw joins
  cases hcomplete : k.world.resources.complete id load started with
  | mk woken rs' =>
    rw [hcomplete] at hw
    rcases Resources.complete_line hcomplete with ⟨-, hnone, -⟩ | ⟨s, line, hwoken, -⟩
    · rw [hnone] at hw
      cases hw
    · have holds := h.holds runs (engaged_of_tasks_release htasks) line
      obtain ⟨-, -, -, hwaiting⟩ := Servers.release_spec (h.sound _ _ line) holds
      have hww : woken = some w := hw
      rw [← hwoken, hww] at hwaiting
      have hmem : w ∈ k.waiters load.key := by
        rw [← h.waiting _ _ line, hwaiting]
        exact List.mem_cons_self
      obtain ⟨c, hc, hengaged⟩ := mem_engagedOn.mp hmem
      have hqc := h.joined.order.unique (List.mem_append_right _ hq) (List.mem_append_right _ hc) hqw
      rw [hqc] at joins
      rw [joins.not_engaged] at hengaged
      cases hengaged

/-- Reporting an end loads no resource. -/
lemma report_resources {env : Environment} {c : Completion} :
    (a.report env c).world.resources = env.resources := by
  simp only [report]
  cases a.role with
  | asynchronous => cases c.result <;> rfl
  | _ => rfl

/-- Reporting an end wakes only those that wait at a barrier. -/
lemma report_woken {env : Environment} {c : Completion} {w : ProcessId}
    (h : w ∈ (a.report env c).woken) : ∃ o, w ∈ (env.barrier o).waiters := by
  rcases report_spec a env c with ⟨-, -, hwoken⟩ | ⟨o, failure, -, -, hwoken, -⟩
  · rw [hwoken] at h
    cases h
  · rw [hwoken] at h
    rcases (arrive_spec failure (env.barrier o)).2.2 with ⟨-, -, hwakes⟩ | ⟨-, -, hwakes⟩
    · exact ⟨o, hwakes ▸ h⟩
    · rw [hwakes] at h
      cases h

/-- A process that ends, and that is engaged on no resource. -/
lemma Turned.queued_ends (h : k.Queued) (runs : k.running = some (id, a)) {env : Environment}
    {c : Completion} (turned : Turned k k' id (a.report env c)) (joined : k'.Joined)
    (ha : a.engaged = none) (resources : env.resources = k.world.resources)
    (waiters : ∀ o, (env.barrier o).waiters ⊆ (k.world.barrier o).waiters) : k'.Queued := by
  refine turned.queued_steady h runs joined ?_ ?_ ?_ ?_ ?_
  · intro key
    rw [report_resources, resources]
  · simp [report_ends.1]
  · intro q hq hwoken
    obtain ⟨o, ho⟩ := report_woken hwoken
    obtain ⟨hqo, q', hq', hqo', hjoins⟩ := h.joined.waiter o q.1 (waiters o ho)
    have hsame := h.joined.order.unique (List.mem_append_right _ hq)
      (List.mem_append_right _ hq') (hqo.trans hqo'.symm)
    rw [hsame]
    exact hjoins.not_engaged
  · simp [report_ends.2, Next.waiting]
  · intro key s _
    rw [report_ends.2, engagedOn_idle ha]
    rfl

lemma children_not_engaged (owner : ProcessId) (asynchronous synchronous : List Behavior) :
    ∀ c ∈ b.children owner asynchronous synchronous, c.engaged = none := by
  intro c hc
  obtain ⟨behavior, htasks⟩ := (children_spec owner asynchronous synchronous c hc).1
  rw [engaged, htasks]

/-- **Every turn keeps lines and processes in agreement.** -/
theorem Turned.queued (h : k.Queued) (runs : k.running = some (id, a))
    (turned : Turned k k' id (a.turn d k.now id k.world)) : k'.Queued := by
  have joined := turned.joined_turn h.joined runs (h.releasesServer runs)
  have heffect := advance_effect d k.now id k.world (h.joined.settled _ (running_mem runs))
  unfold turn at turned
  generalize a.advance d k.now id k.world = progress at heffect turned
  cases heffect with
  | proceeds ha _ steady hb role =>
    refine turned.queued_steady h runs joined (fun key => by rw [steady.resources]) (by simp)
      (by simp) (by simp [Next.waiting]) fun key s _ => ?_
    exact (engagedOn_idle hb.not_engaged key).trans (engagedOn_idle ha.not_engaged key).symm
  | arrives ha _ hb role =>
    refine turned.queued_steady h runs joined (fun key => rfl) (by simp)
      (by simp) (by simp [Next.waiting]) fun key s _ => ?_
    exact (engagedOn_idle hb.not_engaged key).trans (engagedOn_idle ha.not_engaged key).symm
  | granted ha _ hissue _ _ hb role =>
    rcases Resources.issue_line hissue with ⟨line, -, hrs⟩ | ⟨s, line, hgranted, lines⟩
    · refine turned.queued_steady h runs joined (fun key => by rw [hrs]) (by simp)
        (by simp) (by simp [Next.waiting]) fun key s hs => ?_
      rw [engagedOn_idle ha.not_engaged key]
      refine engagedOn_other rfl ?_
      rintro rfl
      rw [line] at hs
      cases hs
    · exact turned.queued_granted h runs ha.not_engaged rfl joined line hgranted.symm lines
  | queued ha _ hissue _ _ hb role =>
    rcases Resources.issue_line hissue with ⟨-, hgranted, -⟩ | ⟨s, line, hgranted, lines⟩
    · cases hgranted
    · exact turned.queued_queued h runs ha.not_engaged rfl joined line hgranted.symm lines
  | @serves env' b load htasks steady hb role =>
    refine turned.queued_steady h runs joined (fun key => by rw [steady.resources]) (by simp)
      (by simp) (by simp [Next.waiting]) fun key s _ => ?_
    have hsame : (b.before (.release load k.now)).engaged = a.engaged :=
      (Serves.engaged ⟨_, htasks⟩).symm
    exact engagedOn_congr hsame key
  | completes htasks hcomplete _ _ hb role =>
    have ha := engaged_of_tasks_release htasks
    rcases Resources.complete_line hcomplete with ⟨line, hwoken, lines⟩ | ⟨s, line, hwoken, lines⟩
    · subst hwoken
      refine turned.queued_steady h runs joined lines (by simp) (by simp) (by simp [Next.waiting])
        fun key s hs => ?_
      refine (engagedOn_idle hb.not_engaged key).trans (engagedOn_other ha ?_).symm
      rintro rfl
      rw [line] at hs
      cases hs
    · exact turned.queued_completes h runs ha line hwoken hb.not_engaged joined lines
  | forks ha _ _ steady hb role =>
    refine turned.queued_steady h runs joined (fun key => ?_)
      (children_not_engaged id _ _)
      (by simp) (by simp [Next.waiting]) fun key s _ => ?_
    · rw [← steady.resources]
      rfl
    · exact (engagedOn_idle rfl key).trans (engagedOn_idle ha.not_engaged key).symm
  | joins htasks _ _ hb role =>
    refine turned.queued_steady h runs joined (fun key => rfl) (by simp)
      (by simp) (by simp [Next.waiting]) fun key s _ => ?_
    have ha : a.engaged = none := Joins.not_engaged ⟨_, htasks⟩
    exact (engagedOn_idle hb.not_engaged key).trans (engagedOn_idle ha key).symm
  | awaits ha _ =>
    refine turned.queued_steady h runs joined (fun key => rfl) (by simp)
      (by simp) ?_ fun key s _ => ?_
    · intro p hp
      rw [List.mem_singleton.mp hp]
      exact ha.not_engaged
    · exact (engagedOn_idle ha.not_engaged key).symm
  | ends ha _ steady _ =>
    refine turned.queued_ends h runs joined ha.not_engaged steady.resources fun o => ?_
    rw [steady.barrier]
    exact List.Subset.refl _
  | fails ha _ _ _ _ =>
    refine turned.queued_ends h runs joined ha.not_engaged rfl fun o => ?_
    rw [Environment.barrier_dropBarrier]
    split_ifs
    · simp [Barrier.new]
    · simp

/-! ## Other events -/

/-- Nothing changes but what neither processes nor resources depend on. -/
lemma Queued.of_world (h : k.Queued) (joined : k'.Joined) (agenda : k'.agenda = k.agenda)
    (blocked : k'.blocked = k.blocked) (resources : k'.world.resources = k.world.resources) :
    k'.Queued := by
  refine ⟨joined, ?_, ?_, ?_, ?_⟩
  · rw [resources]
    exact h.sound
  · rw [resources]
    simp only [holders, agenda]
    exact h.serving
  · rw [resources]
    simp only [waiters, blocked]
    exact h.waiting
  · rw [resources, blocked]
    exact h.lined

lemma Quiet.resources (quiet : Quiet (program d) k k') :
    k'.world.resources = k.world.resources := by
  rcases quiet.world with hworld | ⟨time, wakeups, hworld⟩
  · rw [hworld]
  · rw [hworld]
    rfl

lemma Quiet.queued (h : k.Queued) (quiet : Quiet (program d) k k') : k'.Queued :=
  h.of_world (quiet.joined h.joined) quiet.agenda quiet.blocked quiet.resources

lemma initial_queued (env : Environment) (barriers : env.barriers = [])
    (lines : ∀ key s, env.resources.line key = some s →
      0 < s.count ∧ s.serving = [] ∧ s.waiting = []) :
    (initial env : Kernel Environment Activity).Queued := by
  refine ⟨initial_joined env barriers, ?_, ?_, ?_, by simp [initial]⟩
  · intro key s hs
    obtain ⟨hcount, hserving, hwaiting⟩ := lines key s hs
    refine ⟨hcount, ?_, fun hne => absurd hwaiting hne⟩
    rw [hserving]
    exact Nat.zero_le _
  · intro key s hs
    rw [(lines key s hs).2.1]
    exact List.Perm.refl _
  · intro key s hs
    rw [(lines key s hs).2.2]
    rfl

/-- A request that enters is engaged nowhere. -/
lemma spawn_queued (h : k.Queued) (awake : a.Awake) {number : Nat}
    (role : a.role = .request number) : (k.spawn a).Queued := by
  refine ⟨spawn_joined h.joined awake role, h.sound, ?_, h.waiting, h.lined⟩
  intro key s hs
  refine (h.serving key s hs).trans (List.Perm.symm ?_)
  refine (engagedOn_perm key
    ((spawn_agenda a k).map fun x : Appointment Activity => (x.process, x.task))).trans ?_
  have hnew : engagedOn key [(k.spawned, a)] = [] := by
    refine engagedOn_eq_nil fun p hp => ?_
    rw [List.mem_singleton.mp hp, awake.not_engaged]
    simp
  rw [List.map_cons, ← List.singleton_append, engagedOn_append, hnew]
  exact List.Perm.refl _

lemma mapWorld_queued (h : k.Queued) {f : Environment → Environment}
    (steady : k.world.Steady (f k.world)) : (k.mapWorld f).Queued :=
  h.of_world (mapWorld_joined h.joined steady.barriers) rfl rfl steady.resources

/-- Every step keeps lines and processes in agreement. -/
theorem step_queued {stop : Option SimTime} (h : k.Queued)
    (hstep : k.step (program d) stop = .goes k') : k'.Queued := by
  rcases step_cases h.joined.order hstep with quiet | ⟨id, a, runs, turned⟩
  · exact quiet.queued h
  · exact turned.queued h runs

/-- **Nobody waits in vain.**  When no process can run any more, none is left. -/
theorem Queued.all_finished (h : k.Queued) (agenda : k.agenda = []) : k.processes = [] := by
  refine h.joined.all_finished agenda fun q hq load hserves => ?_
  cases hline : k.world.resources.line load.key with
  | none => exact h.lined q hq load hserves hline
  | some s =>
    have hserving : s.serving = [] := by
      have hperm := h.serving _ s hline
      rw [holders, agenda] at hperm
      exact hperm.eq_nil
    have hwaiting : s.waiting ≠ [] := by
      have hmem : q.1 ∈ k.waiters load.key := mem_engagedOn.mpr ⟨q.2, hq, hserves.engaged⟩
      rw [h.waiting _ s hline]
      exact List.ne_nil_of_mem hmem
    have hsound := h.sound _ s hline
    have hfull := hsound.busy hwaiting
    rw [hserving] at hfull
    exact Nat.ne_of_lt hsound.positive hfull

end Kernel

end ServiceSim
