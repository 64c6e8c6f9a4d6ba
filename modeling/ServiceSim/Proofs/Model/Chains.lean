import Mathlib.Data.List.Perm.Subperm
import ServiceSim.Proofs.Evaluation.Determinism

/-!
# Chains end by themselves

`Behavior.chain` follows successors for as many steps as a behavior has actions.  In a behavior that
is accepted no walk along successors meets an action twice, so it has ended by then: the chain is
the walk to an action without a successor (`Behavior.chainFrom_eq_chain`).
-/

namespace ServiceSim.Behavior

variable {b : Behavior} {bound : Nat} {seen : List ActionId} {next : Option Action}

/-! ## Repetitions -/

lemma firstRepeated_eq_none_iff {ids : List String} :
    firstRepeated seen ids = none ↔ ids.Nodup ∧ ∀ id ∈ ids, id ∉ seen := by
  induction ids generalizing seen with
  | nil => simp [firstRepeated]
  | cons id rest ih =>
    rw [firstRepeated]
    split_ifs with hseen
    · simpa using fun _ _ h => absurd (List.contains_iff_mem.mp hseen) h
    · rw [ih, List.nodup_cons, List.forall_mem_cons]
      simp only [List.contains_iff_mem] at hseen
      simp only [List.mem_cons, not_or]
      constructor
      · rintro ⟨hnodup, hfresh⟩
        exact ⟨⟨fun hmem => (hfresh id hmem).1 rfl, hnodup⟩, hseen, fun x hx => (hfresh x hx).2⟩
      · rintro ⟨⟨hnew, hnodup⟩, -, hfresh⟩
        exact ⟨hnodup, fun x hx => ⟨fun h => hnew (h ▸ hx), hfresh x hx⟩⟩

/-- Looking for an action that a walk meets again is looking for an identifier that is repeated on
it. -/
lemma revisited_eq :
    b.revisited bound seen next = firstRepeated seen ((b.chainFrom bound next).map Action.id) := by
  induction bound generalizing seen next with
  | zero => rfl
  | succ bound ih =>
    cases next with
    | none => rfl
    | some a => rw [revisited, chainFrom, List.map_cons, firstRepeated, ih]

/-! ## Walks -/

lemma length_chainFrom_le : (b.chainFrom bound next).length ≤ bound := by
  induction bound generalizing next with
  | zero => exact Nat.le_refl _
  | succ bound ih =>
    cases next with
    | none => exact Nat.zero_le _
    | some a => exact Nat.succ_le_succ ih

/-- A walk that is shorter than its bound has ended. -/
lemma chainFrom_eq_of_length (h : (b.chainFrom (bound + 1) next).length ≤ bound) {more : Nat}
    (hmore : bound ≤ more) : b.chainFrom more next = b.chainFrom bound next := by
  induction bound generalizing next more with
  | zero =>
    cases next with
    | none => cases more <;> rfl
    | some first => simp [chainFrom] at h
  | succ bound ih =>
    obtain ⟨more, rfl⟩ := Nat.exists_eq_add_of_le' hmore
    cases next with
    | none => rfl
    | some first =>
      rw [chainFrom, List.length_cons] at h
      rw [← Nat.add_assoc, chainFrom, chainFrom]
      exact congrArg _ (ih (Nat.le_of_succ_le_succ h) (Nat.le_add_left _ _))

/-- A walk from the start that revisits no action has ended after as many steps as there are
actions, since more different ones cannot be met. -/
lemma chainFrom_eq_chain_of_revisited
    (h : b.revisited (b.actions.length + 1) [] b.start? = none) {more : Nat}
    (hmore : b.actions.length ≤ more) : b.chainFrom more b.start? = b.chain := by
  rw [revisited_eq, firstRepeated_eq_none_iff] at h
  refine chainFrom_eq_of_length ?_ hmore
  have hsubset : (b.chainFrom (b.actions.length + 1) b.start?).map Action.id ⊆
      b.actions.map Action.id := by
    intro id hid
    obtain ⟨a, ha, rfl⟩ := List.mem_map.mp hid
    exact List.mem_map_of_mem
      (mem_of_mem_chainFrom (fun _ hstart => List.mem_of_find?_eq_some hstart) ha)
  simpa using (List.Nodup.subperm h.1 hsubset).length_le

/-- **The chain of an accepted behavior is all of the walk from its start**: however many steps more
are allowed, none is taken. -/
theorem chainFrom_eq_chain (accepted : b.fault? = none) {more : Nat}
    (hmore : b.actions.length ≤ more) : b.chainFrom more b.start? = b.chain := by
  refine chainFrom_eq_chain_of_revisited ?_ hmore
  unfold fault? at accepted
  split at accepted
  · cases accepted
  · dsimp only at accepted
    split_ifs at accepted
    split at accepted
    · cases accepted
    · split at accepted
      · cases accepted
      · assumption

end ServiceSim.Behavior
