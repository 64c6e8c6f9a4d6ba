import ServiceSim.Resource.Basic
import Mathlib.Data.List.Basic
import Mathlib.Tactic.Common

/-!
# Demands and the lines of resources

A resource that serves in order has a line: its servers with the processes that hold and await them.
Issuing a demand and completing it change the line of one resource and leave all others alone, and
neither changes at what rate a resource works.

The resources that a model describes begin with idle servers, and with none if they are pure delays.
-/

namespace ServiceSim

/-- Where a demand goes: the container and the type of the resource. -/
abbrev ResourceKey := ContainerId × String

/-- Where an accepted demand goes. -/
def Load.key (load : Load) : ResourceKey := (load.container, load.resource)

/-- Whether an amount of work can be asked for. -/
def IsValidAmount (amount : Float) : Prop := (0 ≤ amount && Binary64.isFinite amount) = true

instance (amount : Float) : Decidable (IsValidAmount amount) :=
  inferInstanceAs (Decidable (_ = true))

namespace Resources

/-- The servers of a resource, if it is there and has servers. -/
def line (rs : Resources) (key : ResourceKey) : Option Servers :=
  match rs.find key.1 key.2 with
  | .ok r => r.servers
  | .error _ => none

variable {rs rs' : Resources} {now : SimTime} {id : ProcessId} {container : ContainerId}
  {resource : String} {amount : Float} {load : Load} {granted : Bool} {started : SimTime}
  {woken : Option ProcessId} {r : ActiveResource}

/-- The number of demands that a resource has completed. -/
def served (rs : Resources) (key : ResourceKey) : Nat :=
  match rs.find key.1 key.2 with
  | .ok r => r.stats.served
  | .error _ => 0

/-- The rate of a resource, if it is there. -/
def rate? (rs : Resources) (key : ResourceKey) : Option Float :=
  match rs.find key.1 key.2 with
  | .ok r => some r.rate
  | .error _ => none

/-! ## One resource at a time -/

lemma find_update (found : rs.find container resource = .ok r) (changed : ActiveResource)
    (key : ResourceKey) : (rs.update container resource changed).find key.1 key.2 =
      if key = (container, resource) then .ok changed else rs.find key.1 key.2 := by
  obtain ⟨c, t⟩ := key
  simp only [find] at found
  split at found
  · cases found
  next resources hresources =>
    simp only [update, hresources, find, Prod.mk.injEq]
    by_cases hc : c = container
    · subst hc
      by_cases ht : t = resource
      · subst ht
        simp
      · simp [NameMap.lookup_insert_of_ne ht, ht, hresources]
    · simp [NameMap.lookup_insert_of_ne hc, hc]

lemma line_update (found : rs.find container resource = .ok r) (changed : ActiveResource)
    (key : ResourceKey) : (rs.update container resource changed).line key =
      if key = (container, resource) then changed.servers else rs.line key := by
  simp only [line, find_update found]
  split_ifs <;> rfl

lemma served_update (found : rs.find container resource = .ok r) (changed : ActiveResource)
    (key : ResourceKey) : (rs.update container resource changed).served key =
      if key = (container, resource) then changed.stats.served else rs.served key := by
  simp only [served, find_update found]
  split_ifs <;> rfl

lemma rate?_update (found : rs.find container resource = .ok r) (changed : ActiveResource)
    (same : changed.rate = r.rate) (key : ResourceKey) :
    (rs.update container resource changed).rate? key = rs.rate? key := by
  simp only [rate?, find_update found]
  split_ifs with hkey
  · simp only [hkey, found, same]
  · rfl

/-! ## Issuing and completing -/

/-- **An accepted demand.**  It is for a resource that is there, and takes as long as its amount
divided by the rate. -/
lemma issue_ok (h : rs.issue now id container resource amount = .ok (load, granted, rs')) :
    IsValidAmount amount ∧ ∃ r, rs.find container resource = .ok r ∧
      load = ⟨container, resource, amount, amount / r.rate, now⟩ ∧
      (r.servers = none ∧ granted = true ∧ rs' = rs ∨
        ∃ s, r.servers = some s ∧ granted = (s.acquire id).1 ∧
          rs' = rs.update container resource { r with servers := some (s.acquire id).2 }) := by
  simp only [issue] at h
  split_ifs at h with hvalid
  have hvalid' : IsValidAmount amount := by
    simpa [IsValidAmount] using hvalid
  refine ⟨hvalid', ?_⟩
  cases hfind : rs.find container resource with
  | error e =>
    rw [hfind] at h
    cases h
  | ok r =>
    rw [hfind] at h
    refine ⟨r, rfl, ?_⟩
    cases hservers : r.servers with
    | none =>
      simp only [bind, Except.bind, hservers, pure, Except.pure, Except.ok.injEq,
        Prod.mk.injEq] at h
      obtain ⟨hload, hgranted, hrs⟩ := h
      exact ⟨hload.symm, .inl ⟨rfl, hgranted.symm, hrs.symm⟩⟩
    | some s =>
      simp only [bind, Except.bind, hservers, pure, Except.pure, Except.ok.injEq,
        Prod.mk.injEq] at h
      obtain ⟨hload, hgranted, hrs⟩ := h
      exact ⟨hload.symm, .inr ⟨s, rfl, hgranted.symm, hrs.symm⟩⟩

/-- A valid demand for a resource that is there is not refused. -/
lemma issue_valid (valid : IsValidAmount amount) (found : rs.find container resource = .ok r)
    (e : ResourceError) : rs.issue now id container resource amount ≠ .error e := by
  intro h
  simp only [IsValidAmount] at valid
  simp only [issue, valid, found, bind, Except.bind] at h
  cases hservers : r.servers <;> simp [hservers, pure, Except.pure] at h

/-- What is refused when it is issued: an invalid amount, and a demand for what is not there. -/
lemma issue_error (now : SimTime) (id : ProcessId)
    (h : ¬ IsValidAmount amount ∨ ∃ e, rs.find container resource = .error e) :
    ∃ e, rs.issue now id container resource amount = .error e := by
  by_cases hvalid : IsValidAmount amount
  · obtain ⟨e, he⟩ := h.resolve_left (not_not_intro hvalid)
    simp only [IsValidAmount] at hvalid
    refine ⟨e, ?_⟩
    simp only [issue, hvalid, he, bind, Except.bind]
    rfl
  · refine ⟨.invalidDemand resource amount, ?_⟩
    rw [issue, if_pos]
    rw [Bool.not_eq_true']
    exact (Bool.not_eq_true _).mp hvalid

/-- A completed demand is recorded, and its server goes to the next in line. -/
lemma complete_spec (h : rs.complete id load started = (woken, rs')) :
    ((∃ e, rs.find load.container load.resource = .error e) ∧ woken = none ∧ rs' = rs) ∨
    ∃ r, rs.find load.container load.resource = .ok r ∧ ∃ recorded : ActiveResource,
      recorded.rate = r.rate ∧ recorded.stats.container = r.stats.container ∧
      recorded.stats.resource = r.stats.resource ∧
      recorded.stats.served = r.stats.served + 1 ∧
      rs' = rs.update load.container load.resource recorded ∧
      (r.servers = none ∧ recorded.servers = none ∧ woken = none ∨
        ∃ s, r.servers = some s ∧ recorded.servers = some (s.release id).2 ∧
          woken = (s.release id).1) := by
  simp only [complete] at h
  cases hfind : rs.find load.container load.resource with
  | error e =>
    simp only [hfind, Prod.mk.injEq] at h
    exact .inl ⟨⟨e, rfl⟩, h.1.symm, h.2.symm⟩
  | ok r =>
    right
    refine ⟨r, rfl, ?_⟩
    let recorded := r.record load.amount load.service (started.since load.arrived)
    cases hservers : r.servers with
    | none =>
      simp only [hfind, ActiveResource.record, hservers, Prod.mk.injEq] at h
      exact ⟨{ recorded with servers := none }, rfl, rfl, rfl, rfl, h.2.symm,
        .inl ⟨rfl, rfl, h.1.symm⟩⟩
    | some s =>
      simp only [hfind, ActiveResource.record, hservers, Prod.mk.injEq] at h
      exact ⟨{ recorded with servers := some (s.release id).2 }, rfl, rfl, rfl, rfl, h.2.symm,
        .inr ⟨s, rfl, rfl, h.1.symm⟩⟩

/-! ## Lines -/

lemma issue_key (h : rs.issue now id container resource amount = .ok (load, granted, rs')) :
    load.key = (container, resource) := by
  obtain ⟨-, r, -, rfl, -⟩ := issue_ok h
  rfl

/-- Issuing a demand changes the line in which it stands, if there is one, and nothing else. -/
lemma issue_line (h : rs.issue now id container resource amount = .ok (load, granted, rs')) :
    rs.line load.key = none ∧ granted = true ∧ rs' = rs ∨
      ∃ s, rs.line load.key = some s ∧ granted = (s.acquire id).1 ∧
        ∀ key, rs'.line key = if key = load.key then some (s.acquire id).2 else rs.line key := by
  obtain ⟨-, r, found, rfl, hcases⟩ := issue_ok h
  have hline : rs.line (container, resource) = r.servers := by
    simp only [line, found]
  rcases hcases with ⟨hservers, hgranted, hrs⟩ | ⟨s, hservers, hgranted, hrs⟩
  · exact .inl ⟨hline.trans hservers, hgranted, hrs⟩
  · refine .inr ⟨s, hline.trans hservers, hgranted, fun key => ?_⟩
    rw [hrs, line_update found]
    rfl

/-- Issuing a demand completes none and changes no rate. -/
lemma issue_served (h : rs.issue now id container resource amount = .ok (load, granted, rs'))
    (key : ResourceKey) : rs'.served key = rs.served key ∧ rs'.rate? key = rs.rate? key := by
  obtain ⟨-, r, found, rfl, hcases⟩ := issue_ok h
  rcases hcases with ⟨-, -, rfl⟩ | ⟨s, -, -, rfl⟩
  · exact ⟨rfl, rfl⟩
  · refine ⟨?_, rate?_update found { r with servers := some (s.acquire id).2 } rfl key⟩
    rw [served_update found]
    split_ifs with hkey
    · rw [hkey]
      simp only [served, found]
    · rfl

/-- Completing a demand gives the server back, if it has taken one. -/
lemma complete_line (h : rs.complete id load started = (woken, rs')) :
    rs.line load.key = none ∧ woken = none ∧ (∀ key, rs'.line key = rs.line key) ∨
      ∃ s, rs.line load.key = some s ∧ woken = (s.release id).1 ∧
        ∀ key, rs'.line key = if key = load.key then some (s.release id).2 else rs.line key := by
  rcases complete_spec h with ⟨⟨e, hfind⟩, hwoken, rfl⟩ |
    ⟨r, found, recorded, -, -, -, -, rfl, hcases⟩
  · refine .inl ⟨?_, hwoken, fun _ => rfl⟩
    simp only [line, Load.key, hfind]
  · have hline : rs.line load.key = r.servers := by
      simp only [line, Load.key, found]
    rcases hcases with ⟨hservers, hrecorded, hwoken⟩ | ⟨s, hservers, hrecorded, hwoken⟩
    · refine .inl ⟨hline.trans hservers, hwoken, fun key => ?_⟩
      rw [line_update found]
      split_ifs with hkey
      · rw [hrecorded, hkey]
        exact (hline.trans hservers).symm
      · rfl
    · refine .inr ⟨s, hline.trans hservers, hwoken, fun key => ?_⟩
      rw [line_update found, hrecorded]
      rfl

/-- A completed demand is counted for its resource, and no rate changes. -/
lemma complete_served (h : rs.complete id load started = (woken, rs')) {key : ResourceKey}
    {servers : Servers} (hline : rs.line key = some servers) :
    rs'.served key = rs.served key + if key = load.key then 1 else 0 := by
  rcases complete_spec h with ⟨⟨e, hfind⟩, -, rfl⟩ | ⟨r, found, recorded, -, -, -, hserved, rfl, -⟩
  · rw [if_neg]
    · rfl
    · rintro rfl
      simp only [line, Load.key, hfind] at hline
      cases hline
  · rw [served_update found, hserved]
    change (if key = load.key then _ else _) = _
    split_ifs with hkey
    · rw [hkey]
      simp only [served, Load.key, found]
    · rfl

lemma complete_rate? (h : rs.complete id load started = (woken, rs')) (key : ResourceKey) :
    rs'.rate? key = rs.rate? key := by
  rcases complete_spec h with ⟨-, -, rfl⟩ | ⟨r, found, recorded, hrate, -, -, -, rfl, -⟩
  · rfl
  · exact rate?_update found recorded hrate key

/-! ## What a model describes -/

/-- The resource that is described last for a key, which is the one that counts. -/
def described (containers : List ResourceContainer) (key : ResourceKey) :
    Option ProcessingResource :=
  (containers.reverse.find? (·.id == key.1)).bind fun c =>
    c.resources.reverse.find? (·.resource == key.2)

/-- Of values that are entered one after the other under names, the last of a name is found. -/
lemma lookup_entered {ε α β : Type} (name : β → String) (f : β → Except ε α) (l : List β)
    (m m' : NameMap α)
    (h : l.foldlM (fun m x => do return NameMap.insert (name x) (← f x) m) m = .ok m')
    (key : String) :
    match l.reverse.find? (name · == key) with
    | some x => ∃ a, f x = .ok a ∧ m'.lookup key = some a
    | none => m'.lookup key = m.lookup key := by
  induction l generalizing m with
  | nil =>
    cases h
    rfl
  | cons x l ih =>
    rw [List.foldlM_cons] at h
    cases hx : f x with
    | error e =>
      rw [hx] at h
      cases h
    | ok a =>
      rw [hx] at h
      have hlater := ih _ h
      rw [List.reverse_cons, List.find?_append]
      cases hfind : l.reverse.find? (name · == key) with
      | some y =>
        rw [hfind] at hlater
        exact hlater
      | none =>
        rw [hfind] at hlater
        by_cases hkey : name x = key
        · subst hkey
          simp only [List.find?_singleton, beq_self_eq_true, Option.none_or, if_true]
          exact ⟨a, hx, hlater.trans (NameMap.lookup_insert_self _ _ _)⟩
        · have hbeq : (name x == key) = false := by simpa using hkey
          simp only [List.find?_singleton, hbeq, Option.none_or, Bool.false_eq_true, if_false]
          exact hlater.trans (NameMap.lookup_insert_of_ne (Ne.symm hkey) _ _)

/-- The resources of containers are entered one container after the other. -/
lemma ofContainers_ok {containers : List ResourceContainer} (h : ofContainers containers = .ok rs) :
    containers.foldlM (fun m c => do return NameMap.insert c.id (← ofContainer c) m)
      ([] : NameMap (NameMap ActiveResource)) = .ok rs.containers := by
  simp only [ofContainers] at h
  cases hfold : containers.foldlM (fun m c => do
      return NameMap.insert c.id (← ofContainer c) m) ([] : NameMap (NameMap ActiveResource)) with
  | error e =>
    rw [hfold] at h
    cases h
  | ok m =>
    rw [hfold] at h
    cases h
    rfl

/-- **The resources of a model** are those that it describes, and they have done nothing. -/
lemma ofContainers_find {containers : List ResourceContainer}
    (h : ofContainers containers = .ok rs) (key : ResourceKey) :
    match described containers key with
    | some spec => ∃ r, ActiveResource.ofSpec key.1 spec = .ok r ∧ rs.find key.1 key.2 = .ok r
    | none => ∃ e, rs.find key.1 key.2 = .error e := by
  have houter := lookup_entered _ _ _ _ _ (ofContainers_ok h) key.1
  simp only [described, find]
  cases hc : containers.reverse.find? (·.id == key.1) with
  | none =>
    rw [hc] at houter
    simp only [List.lookup_nil] at houter
    simp only [houter, Option.bind_none]
    exact ⟨_, rfl⟩
  | some c =>
    rw [hc] at houter
    obtain ⟨resources, hresources, hlookup⟩ := houter
    have hid : c.id = key.1 := by simpa using List.find?_some hc
    have hinner := lookup_entered _ _ _ _ _ hresources key.2
    simp only [hlookup, Option.bind_some]
    cases hspec : c.resources.reverse.find? (·.resource == key.2) with
    | none =>
      rw [hspec] at hinner
      simp only [List.lookup_nil] at hinner
      simp only [hinner]
      exact ⟨_, rfl⟩
    | some spec =>
      rw [hspec] at hinner
      obtain ⟨r, hr, hlookup'⟩ := hinner
      simp only [hlookup']
      exact ⟨r, hid ▸ hr, rfl⟩

/-- A described resource has its servers, all of which are free, and has done nothing. -/
lemma ofSpec_ok {spec : ProcessingResource} (h : ActiveResource.ofSpec container spec = .ok r) :
    r.rate = spec.processingRate ∧ r.stats = ⟨container, spec.resource, 0, 0, 0, 0⟩ ∧
      (spec.scheduling = .fcfs ∧ spec.servers ≠ 0 ∧ r.servers = some (Servers.idle spec.servers) ∨
        spec.scheduling = .delay ∧ r.servers = none) := by
  simp only [ActiveResource.ofSpec] at h
  cases hscheduling : spec.scheduling with
  | fcfs =>
    simp only [hscheduling] at h
    split_ifs at h with hrate hservers
    cases h
    exact ⟨rfl, rfl, .inl ⟨rfl, hservers, rfl⟩⟩
  | delay =>
    simp only [hscheduling] at h
    split_ifs at h
    cases h
    exact ⟨rfl, rfl, .inr ⟨rfl, rfl⟩⟩

/-- The lines of a model are those of the resources that it describes as serving in order. -/
lemma ofContainers_line {containers : List ResourceContainer} (h : ofContainers containers = .ok rs)
    {key : ResourceKey} {s : Servers} (hline : rs.line key = some s) :
    s.serving = [] ∧ s.waiting = [] ∧ 0 < s.count ∧ rs.served key = 0 ∧
      ∃ spec, described containers key = some spec ∧ spec.scheduling = .fcfs ∧
        s.count = spec.servers := by
  have hfind := ofContainers_find h key
  cases hspec : described containers key with
  | none =>
    rw [hspec] at hfind
    obtain ⟨e, he⟩ := hfind
    simp only [line, he] at hline
    cases hline
  | some spec =>
    rw [hspec] at hfind
    obtain ⟨r, hr, hfound⟩ := hfind
    obtain ⟨-, hstats, ⟨hfcfs, hpos, hidle⟩ | ⟨-, hnone⟩⟩ := ofSpec_ok hr
    · simp only [line, hfound, hidle] at hline
      injection hline with hline
      subst hline
      refine ⟨rfl, rfl, Nat.pos_of_ne_zero hpos, ?_, spec, rfl, hfcfs, rfl⟩
      simp only [served, hfound, hstats]
    · simp only [line, hfound, hnone] at hline
      cases hline

end Resources

end ServiceSim
