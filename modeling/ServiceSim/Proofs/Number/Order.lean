import ServiceSim.Proofs.Number.Literals

/-!
# Comparing doubles

Two doubles compare unless one of them is a NaN, which is neither less nor greater than anything, nor
equal to it.  So the negation of a comparison is the opposite comparison for numbers only: a condition
that refuses what is out of order lets a NaN pass (`not_le_iff`, `not_lt_iff`).  Nor is a difference
positive that begins with a NaN, or that takes a double from itself.
-/

namespace ServiceSim.Binary64

open Float.Model Float.Model.UnpackedFloat

/-- Unpacked forms compare the other way round when they are exchanged. -/
lemma compare_swap (u v : UnpackedFloat) : v.compare u = (u.compare v).map Ordering.swap := by
  have hfinite : ∀ (e e' : Int) (m m' : Nat), (compare e' e).then (compare m' m) =
      ((compare e e').then (compare m m')).swap := by
    intro e e' m m'
    rw [Ordering.swap_then, ← Std.OrientedOrd.eq_swap (a := e') (b := e),
      ← Std.OrientedOrd.eq_swap (a := m') (b := m)]
  cases u with
  | notANumber => cases v <;> rfl
  | infinity s =>
    cases v with
    | infinity s' => cases s <;> cases s' <;> rfl
    | _ => cases s <;> rfl
  | zero s =>
    cases v with
    | notANumber => rfl
    | infinity s' => cases s' <;> rfl
    | zero s' => rfl
    | finite s' m' e' h' => cases s' <;> rfl
  | finite s m e h =>
    cases v with
    | notANumber => rfl
    | infinity s' => cases s' <;> rfl
    | zero s' => cases s <;> rfl
    | finite s' m' e' h' =>
      cases s <;> cases s'
      · exact congrArg some (congrArg Ordering.swap (hfinite e e' m m'))
      · rfl
      · rfl
      · exact congrArg some (hfinite e e' m m')

/-- Numbers compare. -/
lemma exists_compare {u v : UnpackedFloat} (hu : u ≠ .notANumber) (hv : v ≠ .notANumber) :
    ∃ order, u.compare v = some order := by
  unfold UnpackedFloat.compare
  split
  · exact absurd rfl hu
  · exact absurd rfl hv
  all_goals exact ⟨_, rfl⟩

lemma compare_notANumber (u : UnpackedFloat) :
    u.compare .notANumber = none ∧ UnpackedFloat.compare .notANumber u = none := by
  refine ⟨?_, rfl⟩
  cases u <;> rfl

variable {x y : Float}

lemma lt_iff_compare : x < y ↔ x.toModel.unpack.compare y.toModel.unpack = some .lt := by
  change decide (x.toModel < y.toModel) = true ↔ _
  rw [decide_eq_true_iff]
  exact beq_iff_eq

lemma le_iff_compare :
    x ≤ y ↔ (x.toModel.unpack.compare y.toModel.unpack).any (·.isLE) = true := by
  change decide (x.toModel ≤ y.toModel) = true ↔ _
  rw [decide_eq_true_iff]
  rfl

/-- What compares with a double is a number. -/
lemma defined_of_le (h : x ≤ y) : IsDefined x ∧ IsDefined y := by
  rw [le_iff_compare] at h
  rw [isDefined_iff, isDefined_iff]
  constructor
  · intro hx
    rw [hx, (compare_notANumber _).2] at h
    cases h
  · intro hy
    rw [hy, (compare_notANumber _).1] at h
    cases h

lemma le_of_lt (h : x < y) : x ≤ y := by
  rw [le_iff_compare, lt_iff_compare.mp h]
  rfl

lemma not_le_of_lt (h : x < y) : ¬ y ≤ x := by
  rw [le_iff_compare, compare_swap, lt_iff_compare.mp h]
  exact Bool.false_ne_true

lemma lt_or_le (hx : IsDefined x) (hy : IsDefined y) : x < y ∨ y ≤ x := by
  obtain ⟨order, horder⟩ := exists_compare (isDefined_iff.mp hx) (isDefined_iff.mp hy)
  rw [lt_iff_compare, le_iff_compare, compare_swap x.toModel.unpack, horder]
  cases order
  · exact .inl rfl
  · exact .inr rfl
  · exact .inr rfl

/-- **What is not at most a double** is greater, or there is no order. -/
lemma not_le_iff : ¬ y ≤ x ↔ x < y ∨ ¬ IsDefined x ∨ ¬ IsDefined y := by
  constructor
  · intro h
    by_cases hx : IsDefined x
    · by_cases hy : IsDefined y
      · exact .inl ((lt_or_le hx hy).resolve_right h)
      · exact .inr (.inr hy)
    · exact .inr (.inl hx)
  · rintro (hlt | hx | hy)
    · exact not_le_of_lt hlt
    · exact fun hle => hx (defined_of_le hle).2
    · exact fun hle => hy (defined_of_le hle).1

/-- **What is not less than a double** is at least that, or there is no order. -/
lemma not_lt_iff : ¬ y < x ↔ x ≤ y ∨ ¬ IsDefined x ∨ ¬ IsDefined y := by
  constructor
  · intro h
    by_cases hx : IsDefined x
    · by_cases hy : IsDefined y
      · exact .inl ((lt_or_le hy hx).resolve_left h)
      · exact .inr (.inr hy)
    · exact .inr (.inl hx)
  · rintro (hle | hx | hy)
    · exact fun hlt => not_le_of_lt hlt hle
    · exact fun hlt => hx (defined_of_le (le_of_lt hlt)).2
    · exact fun hlt => hy (defined_of_le (le_of_lt hlt)).1

/-! ## Differences -/

/-- The difference of a double and itself is zero, or it is a NaN. -/
lemma not_pos_sub_self (x : Float) : ¬ 0 < x - x := by
  have hself : ∀ u : UnpackedFloat, UnpackedFloat.sub .binary64 u u = .zero .positive ∨
      UnpackedFloat.sub .binary64 u u = .notANumber := by
    intro u
    cases u with
    | notANumber => exact .inr rfl
    | infinity s => cases s <;> exact .inr rfl
    | zero s => cases s <;> exact .inl rfl
    | finite s m e hm =>
      left
      unfold UnpackedFloat.sub
      dsimp only
      rw [Int.sub_self]
      rfl
  change ¬ 0 < Float.ofModel (.pack (.sub .binary64 x.toModel.unpack x.toModel.unpack))
  rcases hself x.toModel.unpack with h | h
  all_goals
    rw [h]
    decide +kernel

/-- What is taken away from a NaN leaves a NaN. -/
lemma sub_undefined (h : ¬ IsDefined x) (y : Float) : ¬ IsDefined (x - y) := by
  rw [isDefined_iff, Classical.not_not] at h
  have hsub : UnpackedFloat.sub .binary64 .notANumber y.toModel.unpack = .notANumber := rfl
  change ¬ IsDefined (.ofModel (.pack (.sub .binary64 x.toModel.unpack y.toModel.unpack)))
  rw [h, hsub]
  decide +kernel

end ServiceSim.Binary64
