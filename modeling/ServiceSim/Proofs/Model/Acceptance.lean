import Mathlib.Data.List.Chain
import Mathlib.Data.List.Nodup
import Mathlib.Logic.Function.Iterate
import ServiceSim.Proofs.Model.Chains

/-!
# Which lists of actions are accepted

A list of actions is a behavior if it satisfies five conditions (`WellFormed`).  They are stated
here for walks along successors of any length, and without the order in which they are checked.  A
list that is refused has a `Fault`: the first condition that it violates, with the first place that
violates it, in declaration order or in the order of the walk.

The check follows successors for one step more than there are actions.  That is enough: as
identifiers are different, walks differ in their length only (`isWalk_iff`), and one that revisits
no action has ended by then.
-/

namespace ServiceSim.Behavior

/-! ## Conditions and faults -/

/-- One action follows another one if it is the one that the other names as its successor. -/
def Follows (actions : List Action) (a c : Action) : Prop :=
  c ∈ actions ∧ a.successor = some c.id

/-- A walk from a start action along successors. -/
def IsWalk (actions walk : List Action) : Prop :=
  walk.IsChain (Follows actions) ∧ ∀ a ∈ walk.head?, a ∈ actions ∧ a.isStart = true

/-- The successor of an action, if it names one, is in the list. -/
def Resolves (actions : List Action) (a : Action) : Prop :=
  ∀ s, a.successor = some s → ∃ c ∈ actions, c.id = s

/-- No walk meets an action twice. -/
def NeverRevisits (actions : List Action) : Prop :=
  ∀ walk, IsWalk actions walk → (walk.map Action.id).Nodup

/-- The conditions for a list of actions to be a chain. -/
structure WellFormed (actions : List Action) : Prop where
  /-- Different actions have different identifiers. -/
  distinct : (actions.map Action.id).Nodup
  /-- There is one start action. -/
  oneStart : actions.countP Action.isStart = 1
  /-- Every successor is an action of the list. -/
  resolved : ∀ a ∈ actions, Resolves actions a
  /-- Following successors from the start action never comes back to an action. -/
  acyclic : NeverRevisits actions
  /-- No two actions have the same successor. -/
  unshared : (actions.filterMap Action.successor).Nodup

/-- The first identifier of a list that has been in it before. -/
def IsFirstRepeated (ids : List String) (id : String) : Prop :=
  ∃ before after, ids = before ++ id :: after ∧ before.Nodup ∧ id ∈ before

/-- The fault of a list of actions: the first condition that it violates, and where. -/
inductive Fault (name : String) (actions : List Action) : ModelError → Prop
  | duplicateAction {id : ActionId} (repeated : IsFirstRepeated (actions.map Action.id) id) :
      Fault name actions (.duplicateAction name id)
  | startAction (distinct : (actions.map Action.id).Nodup)
      (notOne : actions.countP Action.isStart ≠ 1) :
      Fault name actions (.startAction name (actions.countP Action.isStart))
  | missingSuccessor (distinct : (actions.map Action.id).Nodup)
      (oneStart : actions.countP Action.isStart = 1) {before after : List Action} {a : Action}
      {s : ActionId} (split : actions = before ++ a :: after)
      (first : ∀ c ∈ before, Resolves actions c) (names : a.successor = some s)
      (missing : ∀ c ∈ actions, c.id ≠ s) :
      Fault name actions (.missingSuccessor name a.id s)
  | successorCycle (distinct : (actions.map Action.id).Nodup)
      (oneStart : actions.countP Action.isStart = 1)
      (resolved : ∀ a ∈ actions, Resolves actions a) {walk : List Action} {id : ActionId}
      (walks : IsWalk actions walk) (repeated : IsFirstRepeated (walk.map Action.id) id) :
      Fault name actions (.successorCycle name id)
  | sharedSuccessor (distinct : (actions.map Action.id).Nodup)
      (oneStart : actions.countP Action.isStart = 1)
      (resolved : ∀ a ∈ actions, Resolves actions a) (acyclic : NeverRevisits actions)
      {id : ActionId}
      (repeated : IsFirstRepeated (actions.filterMap Action.successor) id) :
      Fault name actions (.sharedSuccessor name id)

/-- The action that following successors from the start reaches after some steps. -/
def visited (b : Behavior) (steps : Nat) : Option Action := (·.bind b.successor?)^[steps] b.start?

variable {b : Behavior} {bound : Nat} {next : Option Action}

/-! ## Repetitions -/

/-- What is found has been in the list before, or has been seen already, and nothing before it
has. -/
lemma exists_split_of_firstRepeated {seen ids : List String} {id : String}
    (h : firstRepeated seen ids = some id) :
    ∃ before after, ids = before ++ id :: after ∧ before.Nodup ∧ (∀ x ∈ before, x ∉ seen) ∧
      (id ∈ before ∨ id ∈ seen) := by
  induction ids generalizing seen with
  | nil => cases h
  | cons x rest ih =>
    rw [firstRepeated] at h
    split_ifs at h with hseen
    · obtain rfl := Option.some.inj h
      exact ⟨[], rest, rfl, List.nodup_nil, List.forall_mem_nil _,
        .inr (List.contains_iff_mem.mp hseen)⟩
    · obtain ⟨before, after, rfl, hnodup, hfresh, hid⟩ := ih h
      have hx : x ∉ before := fun hmem => hfresh x hmem List.mem_cons_self
      refine ⟨x :: before, after, rfl, List.nodup_cons.mpr ⟨hx, hnodup⟩, ?_, ?_⟩
      · exact List.forall_mem_cons.mpr ⟨by simpa using hseen,
          fun y hy hmem => hfresh y hy (List.mem_cons_of_mem x hmem)⟩
      · rw [List.mem_cons] at hid ⊢
        tauto

lemma firstRepeated_append {seen before after : List String} {id : String} (hnodup : before.Nodup)
    (hfresh : ∀ x ∈ before, x ∉ seen) (hid : id ∈ before ∨ id ∈ seen) :
    firstRepeated seen (before ++ id :: after) = some id := by
  induction before generalizing seen with
  | nil => simp [firstRepeated, hid.resolve_left List.not_mem_nil]
  | cons x before ih =>
    obtain ⟨hx, hnodup⟩ := List.nodup_cons.mp hnodup
    obtain ⟨hxseen, hfresh⟩ := List.forall_mem_cons.mp hfresh
    rw [List.cons_append, firstRepeated, if_neg (by simpa using hxseen)]
    refine ih hnodup (fun y hy => ?_) ?_
    · rw [List.mem_cons, not_or]
      exact ⟨fun h => hx (h ▸ hy), hfresh y hy⟩
    · rw [List.mem_cons] at hid ⊢
      tauto

lemma firstRepeated_eq_some_iff {ids : List String} {id : String} :
    firstRepeated [] ids = some id ↔ IsFirstRepeated ids id := by
  constructor
  · intro h
    obtain ⟨before, after, hsplit, hnodup, -, hid⟩ := exists_split_of_firstRepeated h
    exact ⟨before, after, hsplit, hnodup, hid.resolve_right List.not_mem_nil⟩
  · rintro ⟨before, after, rfl, hnodup, hid⟩
    exact firstRepeated_append hnodup (fun _ _ => List.not_mem_nil) (.inl hid)

lemma firstRepeated_eq_none {ids : List String} : firstRepeated [] ids = none ↔ ids.Nodup := by
  simp [firstRepeated_eq_none_iff]

/-- What is repeated first in a list is so in every longer one. -/
lemma IsFirstRepeated.longer {ids more : List String} {id : String}
    (h : IsFirstRepeated ids id) (hbegins : ids <+: more) : IsFirstRepeated more id := by
  obtain ⟨before, after, rfl, hnodup, hid⟩ := h
  obtain ⟨rest, rfl⟩ := hbegins
  exact ⟨before, after ++ rest, by simp, hnodup, hid⟩

/-! ## Successors -/

lemma action?_isSome {s : ActionId} : (b.action? s).isSome = true ↔ ∃ c ∈ b.actions, c.id = s := by
  simp [action?]

lemma danglingSuccessor_of_resolves {a : Action} (h : Resolves b.actions a) (rest : List Action) :
    b.danglingSuccessor (a :: rest) = b.danglingSuccessor rest := by
  rw [danglingSuccessor]
  cases hs : a.successor with
  | none => rfl
  | some s => exact if_pos (action?_isSome.mpr (h s hs))

lemma danglingSuccessor_of_missing {a : Action} {s : ActionId} (names : a.successor = some s)
    (missing : ∀ c ∈ b.actions, c.id ≠ s) (rest : List Action) :
    b.danglingSuccessor (a :: rest) = some (a.id, s) := by
  rw [danglingSuccessor, names]
  refine if_neg fun hfound => ?_
  obtain ⟨c, hc, hid⟩ := action?_isSome.mp hfound
  exact missing c hc hid

/-- Without a dangling successor all actions resolve, and the first that is found is the first. -/
lemma danglingSuccessor_spec (actions : List Action) :
    match b.danglingSuccessor actions with
    | none => ∀ a ∈ actions, Resolves b.actions a
    | some (id, s) => ∃ before a after, actions = before ++ a :: after ∧
        (∀ c ∈ before, Resolves b.actions c) ∧ a.id = id ∧ a.successor = some s ∧
        ∀ c ∈ b.actions, c.id ≠ s := by
  induction actions with
  | nil => exact List.forall_mem_nil _
  | cons a rest ih =>
    by_cases h : Resolves b.actions a
    · rw [danglingSuccessor_of_resolves h]
      split at ih
      · exact List.forall_mem_cons.mpr ⟨h, ih⟩
      · obtain ⟨before, c, after, rfl, hfirst, hc⟩ := ih
        exact ⟨a :: before, c, after, rfl, List.forall_mem_cons.mpr ⟨h, hfirst⟩, hc⟩
    · unfold Resolves at h
      push Not at h
      obtain ⟨s, names, missing⟩ := h
      rw [danglingSuccessor_of_missing names missing]
      exact ⟨[], a, rest, rfl, List.forall_mem_nil _, rfl, names, missing⟩

lemma danglingSuccessor_append {before : List Action}
    (h : ∀ a ∈ before, Resolves b.actions a) (rest : List Action) :
    b.danglingSuccessor (before ++ rest) = b.danglingSuccessor rest := by
  induction before with
  | nil => rfl
  | cons a before ih =>
    obtain ⟨ha, hbefore⟩ := List.forall_mem_cons.mp h
    rw [List.cons_append, danglingSuccessor_of_resolves ha, ih hbefore]

lemma danglingSuccessor_eq_none :
    b.danglingSuccessor b.actions = none ↔ ∀ a ∈ b.actions, Resolves b.actions a := by
  constructor
  · intro h
    have hspec := danglingSuccessor_spec (b := b) b.actions
    rwa [h] at hspec
  · intro h
    have := danglingSuccessor_append h []
    rwa [List.append_nil] at this

lemma danglingSuccessor_eq_some {actions before after : List Action} {a : Action} {s : ActionId}
    (split : actions = before ++ a :: after) (first : ∀ c ∈ before, Resolves b.actions c)
    (names : a.successor = some s) (missing : ∀ c ∈ b.actions, c.id ≠ s) :
    b.danglingSuccessor actions = some (a.id, s) := by
  rw [split, danglingSuccessor_append first, danglingSuccessor_of_missing names missing]

/-! ## Walks -/

lemma successor?_eq_some_iff (distinct : (b.actions.map Action.id).Nodup) {a c : Action} :
    b.successor? a = some c ↔ Follows b.actions a c := by
  rw [successor?, Option.bind_eq_some_iff, Follows]
  constructor
  · rintro ⟨s, names, hfound⟩
    obtain rfl : c.id = s := by simpa using List.find?_some hfound
    exact ⟨List.mem_of_find?_eq_some hfound, names⟩
  · rintro ⟨hc, names⟩
    obtain ⟨d, hfound⟩ := Option.isSome_iff_exists.mp (action?_isSome.mpr ⟨c, hc, rfl⟩)
    have hid : d.id = c.id := by simpa using List.find?_some hfound
    obtain rfl : d = c :=
      List.inj_on_of_nodup_map distinct (List.mem_of_find?_eq_some hfound) hc hid
    exact ⟨d.id, names, hfound⟩

lemma start?_eq_some_iff (oneStart : b.actions.countP Action.isStart = 1) {a : Action} :
    b.start? = some a ↔ a ∈ b.actions ∧ a.isStart = true := by
  constructor
  · exact fun h => ⟨List.mem_of_find?_eq_some h, List.find?_some h⟩
  · rintro ⟨ha, hstart⟩
    rw [List.countP_eq_length_filter, List.length_eq_one_iff] at oneStart
    obtain ⟨only, honly⟩ := oneStart
    have eq_only {c : Action} (hc : c ∈ b.actions) (hstart : c.isStart = true) : c = only :=
      List.mem_singleton.mp (honly ▸ List.mem_filter.mpr ⟨hc, hstart⟩)
    obtain ⟨d, hd⟩ := Option.isSome_iff_exists.mp (List.find?_isSome.mpr ⟨a, ha, hstart⟩)
    rw [start?, hd, eq_only ha hstart,
      eq_only (List.mem_of_find?_eq_some hd) (List.find?_some hd)]

/-- Walks are what is followed in some number of steps. -/
lemma isWalk_iff (distinct : (b.actions.map Action.id).Nodup)
    (oneStart : b.actions.countP Action.isStart = 1) {walk : List Action} :
    IsWalk b.actions walk ↔ ∃ bound, walk = b.chainFrom bound b.start? := by
  have along {next : Option Action} : walk.IsChain (Follows b.actions) ∧
      (∀ a ∈ walk.head?, next = some a) ↔ ∃ bound, walk = b.chainFrom bound next := by
    induction walk generalizing next with
    | nil => exact iff_of_true ⟨.nil, by simp⟩ ⟨0, rfl⟩
    | cons a rest ih =>
      simp only [List.isChain_cons, List.head?_cons, Option.mem_some_iff, forall_eq',
        ← successor?_eq_some_iff distinct]
      constructor
      · rintro ⟨⟨hfollows, hchain⟩, rfl⟩
        obtain ⟨bound, rfl⟩ := ih.mp ⟨hchain, hfollows⟩
        exact ⟨bound + 1, rfl⟩
      · rintro ⟨bound, hwalk⟩
        cases bound with
        | zero => cases hwalk
        | succ bound =>
          cases next with
          | none => cases hwalk
          | some first =>
            obtain ⟨rfl, rfl⟩ := List.cons.inj hwalk
            obtain ⟨hchain, hfollows⟩ := ih.mpr ⟨bound, rfl⟩
            exact ⟨⟨hfollows, hchain⟩, rfl⟩
  rw [← along, IsWalk]
  simp only [start?_eq_some_iff oneStart]

/-- A longer walk begins with a shorter one. -/
lemma chainFrom_begins {m n : Nat} (h : m ≤ n) : b.chainFrom m next <+: b.chainFrom n next := by
  induction m generalizing n next with
  | zero => exact List.nil_prefix
  | succ m ih =>
    obtain ⟨n, rfl⟩ := Nat.exists_eq_add_of_le' h
    cases next with
    | none => exact List.nil_prefix
    | some a => exact (List.prefix_cons_inj a).mpr (ih (Nat.le_of_succ_le_succ h))

section

variable (distinct : (b.actions.map Action.id).Nodup)
  (oneStart : b.actions.countP Action.isStart = 1)

include distinct oneStart

/-- A walk of one step more than there are actions is enough to find out whether any revisits an
action. -/
lemma revisited_eq_none :
    b.revisited (b.actions.length + 1) [] b.start? = none ↔ NeverRevisits b.actions := by
  constructor
  · intro h walk hwalk
    obtain ⟨bound, rfl⟩ := (isWalk_iff distinct oneStart).mp hwalk
    have hbegins : b.chainFrom bound b.start? <+: b.chainFrom (b.actions.length + 1) b.start? := by
      rw [chainFrom_eq_chain_of_revisited h (Nat.le_succ _),
        ← chainFrom_eq_chain_of_revisited h (Nat.le_max_right bound b.actions.length)]
      exact chainFrom_begins (Nat.le_max_left _ _)
    rw [revisited_eq, firstRepeated_eq_none] at h
    exact h.sublist (hbegins.sublist.map _)
  · intro h
    rw [revisited_eq, firstRepeated_eq_none]
    exact h _ ((isWalk_iff distinct oneStart).mpr ⟨_, rfl⟩)

/-- It is also enough to find the first action that any walk revisits. -/
lemma revisited_eq_some {id : ActionId} :
    b.revisited (b.actions.length + 1) [] b.start? = some id ↔
      ∃ walk, IsWalk b.actions walk ∧ IsFirstRepeated (walk.map Action.id) id := by
  constructor
  · intro h
    rw [revisited_eq, firstRepeated_eq_some_iff] at h
    exact ⟨_, (isWalk_iff distinct oneStart).mpr ⟨_, rfl⟩, h⟩
  · rintro ⟨walk, hwalk, hrepeated⟩
    cases hfound : b.revisited (b.actions.length + 1) [] b.start? with
    | none =>
      have hnodup := (revisited_eq_none distinct oneStart).mp hfound walk hwalk
      rw [← firstRepeated_eq_none, firstRepeated_eq_some_iff.mpr hrepeated] at hnodup
      cases hnodup
    | some found =>
      obtain ⟨bound, rfl⟩ := (isWalk_iff distinct oneStart).mp hwalk
      rw [revisited_eq, firstRepeated_eq_some_iff] at hfound
      -- Of the two walks one begins with the other, so they repeat the same action first.
      have unique {m n : Nat} {x y : ActionId} (h : m ≤ n)
          (hx : IsFirstRepeated ((b.chainFrom m b.start?).map Action.id) x)
          (hy : IsFirstRepeated ((b.chainFrom n b.start?).map Action.id) y) : x = y := by
        have hx := hx.longer ((chainFrom_begins h).map Action.id)
        rw [← firstRepeated_eq_some_iff] at hx hy
        exact Option.some.inj (hx.symm.trans hy)
      rcases Nat.le_total bound (b.actions.length + 1) with h | h
      · rw [unique h hrepeated hfound]
      · rw [unique h hfound hrepeated]

end

/-! ## The check -/

/-- What the check finds is a fault, and it misses none. -/
lemma fault?_spec :
    match b.fault? with
    | none => WellFormed b.actions
    | some e => Fault b.name b.actions e := by
  unfold fault?
  cases hids : firstRepeated [] (b.actions.map Action.id) with
  | some id => exact .duplicateAction (firstRepeated_eq_some_iff.mp hids)
  | none =>
    have distinct := firstRepeated_eq_none.mp hids
    rw [← List.countP_eq_length_filter]
    dsimp only
    split_ifs with notOne
    · exact .startAction distinct notOne
    have oneStart := not_not.mp notOne
    have hspec := danglingSuccessor_spec (b := b) b.actions
    cases hdangling : b.danglingSuccessor b.actions with
    | some found =>
      obtain ⟨id, s⟩ := found
      rw [hdangling] at hspec
      obtain ⟨before, a, after, split, first, rfl, names, missing⟩ := hspec
      exact .missingSuccessor distinct oneStart split first names missing
    | none =>
      have resolved := danglingSuccessor_eq_none.mp hdangling
      cases hrevisited : b.revisited (b.actions.length + 1) [] b.start? with
      | some id =>
        obtain ⟨walk, walks, repeated⟩ := (revisited_eq_some distinct oneStart).mp hrevisited
        exact .successorCycle distinct oneStart resolved walks repeated
      | none =>
        have acyclic := (revisited_eq_none distinct oneStart).mp hrevisited
        cases hshared : firstRepeated [] (b.actions.filterMap Action.successor) with
        | some id =>
          exact .sharedSuccessor distinct oneStart resolved acyclic
            (firstRepeated_eq_some_iff.mp hshared)
        | none =>
          exact ⟨distinct, oneStart, resolved, acyclic, firstRepeated_eq_none.mp hshared⟩

lemma WellFormed.fault?_eq (h : WellFormed b.actions) : b.fault? = none := by
  have hstarts := List.countP_eq_length_filter ▸ h.oneStart
  simp [fault?, firstRepeated_eq_none.mpr h.distinct, hstarts,
    danglingSuccessor_eq_none.mpr h.resolved,
    (revisited_eq_none h.distinct h.oneStart).mpr h.acyclic, firstRepeated_eq_none.mpr h.unshared]

lemma Fault.fault?_eq {e : ModelError} (h : Fault b.name b.actions e) : b.fault? = some e := by
  unfold fault?
  rw [← List.countP_eq_length_filter]
  cases h with
  | duplicateAction repeated => rw [firstRepeated_eq_some_iff.mpr repeated]
  | startAction distinct notOne =>
    rw [firstRepeated_eq_none.mpr distinct]
    exact if_pos notOne
  | missingSuccessor distinct oneStart split first names missing =>
    rw [firstRepeated_eq_none.mpr distinct, danglingSuccessor_eq_some split first names missing]
    exact if_neg (not_not.mpr oneStart)
  | successorCycle distinct oneStart resolved walks repeated =>
    rw [firstRepeated_eq_none.mpr distinct, danglingSuccessor_eq_none.mpr resolved,
      (revisited_eq_some distinct oneStart).mpr ⟨_, walks, repeated⟩]
    exact if_neg (not_not.mpr oneStart)
  | sharedSuccessor distinct oneStart resolved acyclic repeated =>
    rw [firstRepeated_eq_none.mpr distinct, danglingSuccessor_eq_none.mpr resolved,
      (revisited_eq_none distinct oneStart).mpr acyclic, firstRepeated_eq_some_iff.mpr repeated]
    exact if_neg (not_not.mpr oneStart)

lemma ofActions_eq_ok_iff {name : String} {actions : List Action} {b : Behavior} :
    ofActions name actions = .ok b ↔ WellFormed actions ∧ b = ⟨name, actions⟩ := by
  have hspec := fault?_spec (b := ⟨name, actions⟩)
  rw [ofActions]
  constructor
  · intro h
    split at h
    · cases h
    · next hnone =>
      rw [hnone] at hspec
      exact ⟨hspec, (Except.ok.inj h).symm⟩
  · rintro ⟨hwell, rfl⟩
    rw [WellFormed.fault?_eq (b := ⟨name, actions⟩) hwell]

lemma ofActions_eq_error_iff {name : String} {actions : List Action} {e : ModelError} :
    ofActions name actions = .error e ↔ Fault name actions e := by
  have hspec := fault?_spec (b := ⟨name, actions⟩)
  rw [ofActions]
  constructor
  · intro h
    split at h
    · next found hsome =>
      rw [hsome] at hspec
      exact Except.error.inj h ▸ hspec
    · cases h
  · intro h
    rw [Fault.fault?_eq (b := ⟨name, actions⟩) h]

/-! ## The chain of an accepted behavior -/

lemma chainFrom_getElem? {n : Nat} (h : n < bound) :
    (b.chainFrom bound next)[n]? = (·.bind b.successor?)^[n] next := by
  induction bound generalizing n next with
  | zero => cases h
  | succ bound ih =>
    cases next with
    | none => exact (Function.iterate_fixed rfl n).symm
    | some a =>
      cases n with
      | zero => rfl
      | succ n => exact ih (Nat.lt_of_succ_lt_succ h)

lemma chain_getElem? (h : WellFormed b.actions) (n : Nat) : b.chain[n]? = b.visited n := by
  rw [← chainFrom_eq_chain h.fault?_eq (Nat.le_max_left b.actions.length (n + 1)),
    chainFrom_getElem? (by omega), visited]

lemma nodup_chain (h : WellFormed b.actions) : (b.chain.map Action.id).Nodup :=
  h.acyclic _ ((isWalk_iff h.distinct h.oneStart).mpr ⟨_, rfl⟩)

lemma chain_pos (h : WellFormed b.actions) : 0 < b.chain.length := by
  obtain ⟨a, ha, hstart⟩ := List.countP_pos_iff.mp (h.oneStart ▸ Nat.one_pos)
  have hfirst : b.chain[0]? = some a := by
    rw [chain_getElem? h]
    exact (start?_eq_some_iff h.oneStart).mpr ⟨ha, hstart⟩
  exact (List.getElem?_eq_some_iff.mp hfirst).1

/-- A chain ends at an action without a successor: after another one it would go on. -/
lemma successor_eq_none_of_getLast? (h : WellFormed b.actions) {a : Action}
    (hlast : b.chain.getLast? = some a) : a.successor = none := by
  have hpos := chain_pos h
  have hvisited : b.visited (b.chain.length - 1) = some a := by
    rw [← chain_getElem? h, ← List.getLast?_eq_getElem?, hlast]
  have hended : b.successor? a = none := by
    have hnext : b.visited (b.chain.length - 1 + 1) = b.successor? a := by
      rw [visited, Function.iterate_succ_apply', ← visited, hvisited]
      rfl
    rw [← hnext, ← chain_getElem? h, Nat.sub_add_cancel hpos, List.getElem?_length]
  cases hs : a.successor with
  | none => rfl
  | some s =>
    obtain ⟨c, hc, hid⟩ := h.resolved a (mem_of_mem_chain (List.mem_of_getLast? hlast)) s hs
    rw [(successor?_eq_some_iff h.distinct).mpr ⟨hc, hid ▸ hs⟩] at hended
    cases hended

/-- **Exactly the chains are accepted.**  A list of actions becomes a behavior if it is well-formed,
and else the error is its fault: the first condition in the order of the check that it violates, at
the first place that violates it.  Following successors from the start of an accepted behavior meets
different actions, at most as many as there are, and ends at one without a successor. -/
theorem ofActions_accepts_chains (name : String) (actions : List Action) :
    (∀ b, ofActions name actions = .ok b ↔ WellFormed actions ∧ b = ⟨name, actions⟩) ∧
    (∀ e, ofActions name actions = .error e ↔ Fault name actions e) ∧
    ∀ b, ofActions name actions = .ok b →
      (∀ n, b.chain[n]? = b.visited n) ∧ 0 < b.chain.length ∧
      b.chain.length ≤ b.actions.length ∧ (b.chain.map Action.id).Nodup ∧
      ∀ a, b.chain.getLast? = some a → a.successor = none := by
  refine ⟨fun _ => ofActions_eq_ok_iff, fun _ => ofActions_eq_error_iff, fun b h => ?_⟩
  obtain ⟨hwell, rfl⟩ := ofActions_eq_ok_iff.mp h
  exact ⟨chain_getElem? hwell, chain_pos hwell, length_chainFrom_le, nodup_chain hwell,
    fun _ => successor_eq_none_of_getLast? hwell⟩

/-- The actions of a chain may be declared in any order, and others beside them. -/
theorem ofActions_accepts_chains_unordered :
    let actions : List Action := [⟨"c", "", none, .stop⟩, ⟨"d", "", some "e", .stop⟩,
      ⟨"a", "", some "b", .start⟩, ⟨"e", "", some "d", .stop⟩, ⟨"b", "", some "c", .stop⟩]
    ∃ b, ofActions "unordered" actions = .ok b ∧ b.chain.map Action.id = ["a", "b", "c"] ∧
      ∀ n, b.chain[n]? = b.visited n := by
  intro actions
  have haccepted : ofActions "unordered" actions = .ok ⟨"unordered", actions⟩ := by rfl
  exact ⟨_, haccepted, by rfl, ((ofActions_accepts_chains _ _).2.2 _ haccepted).1⟩

/-- An action inside a chain that is met again is the successor of two actions as well; that it is
met again comes first. -/
example : ofActions "cyclic" [⟨"a", "", some "b", .start⟩, ⟨"b", "", some "c", .stop⟩,
    ⟨"c", "", some "b", .stop⟩] = .error (.successorCycle "cyclic" "b") := by rfl

end ServiceSim.Behavior
