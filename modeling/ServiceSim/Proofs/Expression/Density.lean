import ServiceSim.Proofs.Expression.Selection
import Mathlib.Algebra.Order.Field.Basic
import Mathlib.Data.Rat.Cast.Order
import Mathlib.Tactic.Linarith

/-!
# Values of densities

A density is given by intervals, each from the upper bound of the one before to its own, with a
probability each.  A draw selects an interval by cumulative weight and is then taken to a point of
it.  Intervals without a probability are passed over.

If the draw is below the sum of all probabilities, this is as it should be: the interval has a
positive probability, and in exact arithmetic the point lies between its bounds (`interpolate_inside`).

The sum of all may be less than one, though, and a draw beyond it gives the greatest bound.  That
bound lies in an interval of positive probability only if the last one has a positive probability:
unlike a mass function, a density does not go back to the last interval that can be drawn
(`interpolate_beyond`).  `densities_interpolate` says all of this.
-/

namespace ServiceSim.Sampler

open Binary64

/-! ## Exact values -/

/-- The number that a finite double is. -/
def exact (x : Float) : ℚ :=
  match x.toModel.unpack with
  | .finite s m e _ => s.apply m * (2 : ℚ) ^ e
  | _ => 0

/-- The smallest positive double. -/
def smallest : ℚ := (2 : ℚ) ^ (-1074 : ℤ)

lemma smallest_pos : 0 < smallest := zpow_pos (by decide) _

lemma exact_eq {x : Float} {n : Nat} (h : HasUnits x n) : exact x = n * smallest := by
  unfold HasUnits at h
  rw [exact]
  generalize x.toModel.unpack = u at h
  cases h with
  | zero s => simp
  | finite m j hm canonical =>
    change ((m : ℤ) : ℚ) * (2 : ℚ) ^ ((j : ℤ) - 1074) = _
    rw [smallest, sub_eq_add_neg, zpow_add₀ (by decide), zpow_natCast, ← mul_assoc]
    rw [Nat.cast_mul, Nat.cast_pow]
    rfl

/-- A point as far into an interval as a draw is into its probability lies in the interval. -/
lemma between {lower upper c u p : ℚ} (hbounds : lower < upper) (hc : c ≤ u) (hu : u < c + p) :
    lower ≤ lower + (upper - lower) * ((u - c) / p) ∧
      lower + (upper - lower) * ((u - c) / p) ≤ upper := by
  have hp : 0 < p := by linarith
  have hlow : 0 ≤ (u - c) / p := div_nonneg (by linarith) hp.le
  have hhigh : (u - c) / p ≤ 1 := (div_le_one hp).mpr (by linarith)
  have hwidth : 0 < upper - lower := by linarith
  refine ⟨?_, ?_⟩
  · have := mul_nonneg hwidth.le hlow
    linarith
  · have := mul_le_mul_of_nonneg_left hhigh hwidth.le
    linarith

/-! ## Bounds -/

/-- Where an interval begins: at the upper bound of the one before, or where all begin. -/
def edgeFrom (lower : Float) (intervals : List (Float × Float)) (k : Nat) : Float :=
  ((intervals.take k).map (·.1)).getLastD lower

/-- The lower bound of an interval of a density.  One place further it is the upper bound. -/
def edge (intervals : List (Float × Float)) (k : Nat) : Float := edgeFrom 0 intervals k

/-- The literals of densities that pass, with numbers for bounds. -/
structure IsDensity (intervals : List (Float × Float)) : Prop where
  distribution : IsDistribution (intervals.map (·.2))
  finite : ∀ interval ∈ intervals, isFinite interval.1 = true
  increasing : increasing intervals 0 = .ok ()

/-- A number lies in an interval of positive probability. -/
def IsCovered (intervals : List (Float × Float)) (x : ℚ) : Prop :=
  ∃ k upper p, intervals[k]? = some (upper, p) ∧ 0 < p ∧
    exact (edge intervals k) ≤ x ∧ x ≤ exact upper

section

variable {intervals : List (Float × Float)} {u lower upper p sum : Float} {k : Nat}

lemma edgeFrom_succ (h : intervals[k]? = some (upper, p)) :
    edgeFrom lower intervals (k + 1) = upper := by
  rw [edgeFrom, List.take_add_one, h, List.map_append]
  exact List.getLastD_concat

lemma increasing_bounds (h : increasing intervals lower = .ok ())
    (hk : intervals[k]? = some (upper, p)) : ¬ upper ≤ edgeFrom lower intervals k := by
  induction intervals generalizing lower k with
  | nil => cases hk
  | cons interval rest ih =>
    obtain ⟨bound, q⟩ := interval
    rw [increasing] at h
    split_ifs at h with hbound
    cases k with
    | zero =>
      injection hk with hk
      injection hk with hupper _
      exact hupper ▸ hbound
    | succ k =>
      have hrest := ih h hk
      rwa [edgeFrom, ← List.getLastD_cons] at hrest

namespace IsDensity

/-- Bounds are finite and not negative, and each is above the one before. -/
lemma edges (h : IsDensity intervals) (hk : k ≤ intervals.length) :
    ∃ n, HasUnits (edge intervals k) n := by
  induction k with
  | zero => exact ⟨0, hasUnits_zero⟩
  | succ k ih =>
    obtain ⟨n, hn⟩ := ih (by omega)
    have hget : intervals[k]? = some intervals[k] := List.getElem?_eq_getElem hk
    obtain ⟨b, hb, -⟩ := hn.lt_of_not_le (h.finite _ (List.getElem_mem hk))
      (increasing_bounds h.increasing hget)
    rw [edge, edgeFrom_succ hget]
    exact ⟨b, hb⟩

lemma edge_lt (h : IsDensity intervals) (hk : intervals[k]? = some (upper, p)) :
    ∃ a b, HasUnits (edge intervals k) a ∧ HasUnits upper b ∧ a < b := by
  obtain ⟨hlt, -⟩ := List.getElem?_eq_some_iff.mp hk
  obtain ⟨a, ha⟩ := h.edges hlt.le
  obtain ⟨b, hb, hab⟩ := ha.lt_of_not_le (h.finite _ (List.mem_of_getElem? hk))
    (increasing_bounds h.increasing hk)
  exact ⟨a, b, ha, hb, hab⟩

/-- Bounds increase. -/
lemma edge_lt_edge (h : IsDensity intervals) {j : Nat} (hjk : j < k) (hk : k ≤ intervals.length) :
    ∃ a b, HasUnits (edge intervals j) a ∧ HasUnits (edge intervals k) b ∧ a < b := by
  induction k with
  | zero => exact absurd hjk (Nat.not_lt_zero j)
  | succ k ih =>
    have hget : intervals[k]? = some intervals[k] := List.getElem?_eq_getElem hk
    obtain ⟨a, b, ha, hb, hab⟩ := h.edge_lt hget
    have hsucc : edge intervals (k + 1) = intervals[k].1 := edgeFrom_succ hget
    rw [hsucc]
    rcases (Nat.lt_succ_iff.mp hjk).eq_or_lt with rfl | hlt
    · exact ⟨a, b, ha, hb, hab⟩
    · obtain ⟨c, d, hc, hd, hcd⟩ := ih hlt (by omega)
      obtain rfl := ha.unique hd
      exact ⟨c, b, hc, hb, hcd.trans hab⟩

/-- The greatest bound lies in an interval of positive probability only if the last one is one. -/
lemma covered_last (h : IsDensity intervals) :
    IsCovered intervals (exact (edge intervals intervals.length)) ↔
      ∃ upper p, intervals.getLast? = some (upper, p) ∧ 0 < p := by
  rw [List.getLast?_eq_getElem?]
  constructor
  · rintro ⟨k, upper, p, hget, hpos, -, hbelow⟩
    obtain ⟨hk, -⟩ := List.getElem?_eq_some_iff.mp hget
    have hlast : k = intervals.length - 1 := by
      by_contra hne
      obtain ⟨a, b, ha, hb, hab⟩ := h.edge_lt_edge (j := k + 1) (k := intervals.length)
        (by omega) le_rfl
      have hsucc : edge intervals (k + 1) = upper := edgeFrom_succ hget
      rw [hsucc] at ha
      rw [exact_eq ha, exact_eq hb, mul_le_mul_iff_left₀ smallest_pos, Nat.cast_le] at hbelow
      omega
    exact ⟨upper, p, hlast ▸ hget, hpos⟩
  · rintro ⟨upper, p, hget, hpos⟩
    obtain ⟨hlt, -⟩ := List.getElem?_eq_some_iff.mp hget
    have hedge : edge intervals intervals.length = upper := by
      have hsucc : edge intervals (intervals.length - 1 + 1) = upper := edgeFrom_succ hget
      rwa [Nat.sub_add_cancel (by omega)] at hsucc
    obtain ⟨a, b, ha, hb, hab⟩ := h.edge_lt hget
    refine ⟨intervals.length - 1, upper, p, hget, hpos, ?_, ?_⟩
    · rw [hedge, exact_eq ha, exact_eq hb, mul_le_mul_iff_left₀ smallest_pos, Nat.cast_le]
      exact hab.le
    · rw [hedge]

end IsDensity

/-! ## Selecting an interval -/

/-- What interpolating returns: a point of the first interval that has a probability and up to which
the sums exceed the draw, or the last bound if there is none. -/
lemma interpolate_cases (u : Float) (intervals : List (Float × Float)) (lower sum : Float) :
    (∃ k upper p, intervals[k]? = some (upper, p) ∧ 0 < p ∧ u < sumsFrom sum intervals (k + 1) ∧
        (∀ j interval, j < k → intervals[j]? = some interval →
          ¬ (0 < interval.2 ∧ u < sumsFrom sum intervals (j + 1))) ∧
        interpolate u intervals lower sum = edgeFrom lower intervals k +
          (upper - edgeFrom lower intervals k) * ((u - sumsFrom sum intervals k) / p)) ∨
      (∀ j interval, intervals[j]? = some interval →
          ¬ (0 < interval.2 ∧ u < sumsFrom sum intervals (j + 1))) ∧
        interpolate u intervals lower sum = edgeFrom lower intervals intervals.length := by
  induction intervals generalizing lower sum with
  | nil => exact .inr ⟨fun j interval hj => (nomatch hj), rfl⟩
  | cons interval rest ih =>
    obtain ⟨upper, p⟩ := interval
    have hedge : ∀ k, edgeFrom lower ((upper, p) :: rest) (k + 1) = edgeFrom upper rest k :=
      fun k => List.getLastD_cons
    rw [interpolate]
    split_ifs with hselected
    · exact .inl ⟨0, upper, p, rfl, hselected.1, hselected.2,
        fun j _ hj => absurd hj (Nat.not_lt_zero j), rfl⟩
    · refine (ih upper (sum + p)).imp ?_ ?_
      · rintro ⟨k, bound, q, hget, hpos, hexceeds, hfirst, hvalue⟩
        refine ⟨k + 1, bound, q, hget, hpos, hexceeds, fun j interval hj hinterval => ?_, ?_⟩
        · cases j with
          | zero =>
            injection hinterval with hinterval
            exact hinterval ▸ hselected
          | succ j => exact hfirst j interval (Nat.lt_of_succ_lt_succ hj) hinterval
        · rw [hedge]
          exact hvalue
      · rintro ⟨hnone, hvalue⟩
        refine ⟨fun j interval hinterval => ?_, ?_⟩
        · cases j with
          | zero =>
            injection hinterval with hinterval
            exact hinterval ▸ hselected
          | succ j => exact hnone j interval hinterval
        · rw [List.length_cons, hedge]
          exact hvalue

end

section

variable {intervals : List (Float × Float)} {u : Float}

namespace IsDistribution

variable {ws : List Float} {k : Nat}

/-- The first weight with which the sums exceed a draw is positive.  So if no sum exceeds it with a
positive weight, none does. -/
lemma never_exceeds (h : IsDistribution ws) (hlow : ¬ u < 0) (hhigh : u < 1) (hk : k ≤ ws.length)
    (hnone : ∀ j w, j < k → ws[j]? = some w → ¬ (0 < w ∧ u < cumulative ws (j + 1))) :
    ∀ j < k, ¬ u < cumulative ws (j + 1) := by
  intro j
  induction j using Nat.strong_induction_on with
  | _ j ih =>
    intro hj hexceeds
    have hpositive := h.first_positive hlow hhigh (by omega) hexceeds
      fun i hi => ih i hi (by omega)
    exact hnone j _ hj (List.getElem?_eq_getElem (by omega)) ⟨hpositive, hexceeds⟩

/-- Sums do not decrease. -/
lemma cumulative_le (h : IsDistribution ws) {j : Nat} (hjk : j ≤ k) (hk : k ≤ ws.length)
    (hexceeds : u < cumulative ws j) (hlow : ¬ u < 0) : u < cumulative ws k := by
  obtain ⟨n, hu⟩ := hasUnits_of_lt hlow hexceeds
  induction k, hjk using Nat.le_induction with
  | base => exact hexceeds
  | succ k hjk ih =>
    obtain ⟨a, ha⟩ := h.units k
    obtain ⟨c, hc⟩ := h.units (k + 1)
    obtain ⟨b, hb⟩ := (h.probability _ (List.getElem_mem hk)).elim exists_hasUnits
    have hle : a ≤ c := ha.le_add hb (cumulative_succ hk ▸ hc)
    have hlt := (hu.lt_iff ha).mp (ih (by omega))
    exact (hu.lt_iff hc).mpr (by omega)

end IsDistribution

namespace IsDensity

/-- A draw that an interval is the first to exceed is as far above the sum before it as it is into
the interval, and not farther than its probability. -/
lemma selected_inside (h : IsDensity intervals) (hlow : ¬ u < 0) (hhigh : u < 1) {k : Nat}
    {upper p : Float} (hget : intervals[k]? = some (upper, p))
    (hexceeds : u < cumulative (intervals.map (·.2)) (k + 1))
    (hbefore : ∀ j < k, ¬ u < cumulative (intervals.map (·.2)) (j + 1)) :
    let point := exact (edge intervals k) + (exact upper - exact (edge intervals k)) *
      ((exact u - exact (cumulative (intervals.map (·.2)) k)) / exact p)
    exact (edge intervals k) ≤ point ∧ point ≤ exact upper := by
  have hlength : (intervals.map (·.2)).length = intervals.length := List.length_map _
  obtain ⟨hk, hvalue⟩ := List.getElem?_eq_some_iff.mp hget
  obtain ⟨n, hu⟩ := hasUnits_of_lt hlow hhigh
  obtain ⟨c, hc⟩ := h.distribution.units k
  obtain ⟨b, hb⟩ := (h.distribution.probability p
    (List.mem_map.mpr ⟨_, List.mem_of_getElem? hget, rfl⟩)).elim exists_hasUnits
  obtain ⟨a, d, ha, hd, had⟩ := h.edge_lt hget
  have hsum : n < c + b := by
    rw [cumulative_succ (hlength ▸ hk), List.getElem_map, hvalue] at hexceeds
    by_contra hle
    exact hc.add_le hb hu (by omega) hexceeds
  have hdraw : c ≤ n := by
    by_contra hlt
    have hbelow : u < cumulative (intervals.map (·.2)) k := (hu.lt_iff hc).mpr (by omega)
    cases k with
    | zero => exact hlow hbelow
    | succ j => exact hbefore j (Nat.lt_succ_self j) hbelow
  have hpos := smallest_pos
  rw [exact_eq hu, exact_eq hc, exact_eq hb, exact_eq ha, exact_eq hd]
  have hscaled : ∀ {i j : Nat}, i < j → (i : ℚ) * smallest < j * smallest :=
    fun hij => mul_lt_mul_of_pos_right (Nat.cast_lt.mpr hij) hpos
  refine between (hscaled had) ?_ ?_
  · exact mul_le_mul_of_nonneg_right (Nat.cast_le.mpr hdraw) hpos.le
  · have := hscaled hsum
    rwa [Nat.cast_add, add_mul] at this

/-- Intervals of positive probability are those of positive weights. -/
lemma weights_of_intervals {k : Nat}
    (h : ∀ j interval, j < k → intervals[j]? = some interval →
      ¬ (0 < interval.2 ∧ u < sumsFrom 0 intervals (j + 1))) :
    ∀ j w, j < k → (intervals.map (·.2))[j]? = some w →
      ¬ (0 < w ∧ u < cumulative (intervals.map (·.2)) (j + 1)) := by
  intro j w hj hw
  rw [List.getElem?_map, Option.map_eq_some_iff] at hw
  obtain ⟨interval, hget, rfl⟩ := hw
  exact h j interval hj hget

/-- Below the sum of all, a draw gives a point of an interval of positive probability. -/
lemma interpolate_inside (h : IsDensity intervals) (hlow : ¬ u < 0) (hhigh : u < 1)
    (hbelow : u < cumulative (intervals.map (·.2)) intervals.length) :
    ∃ k upper p, intervals[k]? = some (upper, p) ∧ 0 < p ∧
      interpolate u intervals 0 0 = edge intervals k + (upper - edge intervals k) *
        ((u - cumulative (intervals.map (·.2)) k) / p) ∧
      IsCovered intervals (exact (edge intervals k) + (exact upper - exact (edge intervals k)) *
        ((exact u - exact (cumulative (intervals.map (·.2)) k)) / exact p)) := by
  have hlength : (intervals.map (·.2)).length = intervals.length := List.length_map _
  rcases interpolate_cases u intervals 0 0 with ⟨k, upper, p, hget, hpos, hexceeds, hfirst, hvalue⟩ |
    ⟨hnone, -⟩
  · obtain ⟨hk, -⟩ := List.getElem?_eq_some_iff.mp hget
    have hbefore := h.distribution.never_exceeds hlow hhigh (hlength ▸ hk.le)
      (weights_of_intervals hfirst)
    exact ⟨k, upper, p, hget, hpos, hvalue, k, upper, p, hget, hpos,
      h.selected_inside hlow hhigh hget hexceeds hbefore⟩
  · have hnever := h.distribution.never_exceeds hlow hhigh hlength.ge
      (weights_of_intervals fun j interval _ => hnone j interval)
    cases hn : intervals.length with
    | zero =>
      rw [hn] at hbelow
      exact absurd hbelow hlow
    | succ n =>
      rw [hn] at hbelow
      exact absurd hbelow (hnever n (by omega))

/-- At or above the sum of all, a draw gives the greatest bound. -/
lemma interpolate_beyond (h : IsDensity intervals) (hlow : ¬ u < 0)
    (habove : ¬ u < cumulative (intervals.map (·.2)) intervals.length) :
    interpolate u intervals 0 0 = edge intervals intervals.length := by
  have hlength : (intervals.map (·.2)).length = intervals.length := List.length_map _
  rcases interpolate_cases u intervals 0 0 with ⟨k, upper, p, hget, -, hexceeds, -⟩ | ⟨-, hvalue⟩
  · obtain ⟨hk, -⟩ := List.getElem?_eq_some_iff.mp hget
    exact absurd (h.distribution.cumulative_le hk hlength.ge hexceeds hlow) habove
  · exact hvalue

lemma density_run (h : IsDensity intervals) (s : Source) :
    density intervals s =
      (.ok (.double (interpolate s.unit.1 intervals 0 0)), { s with position := s.position + 1 }) := by
  rw [density, bind_run, (checkProbabilities_run _ s).1 h.distribution]
  dsimp only
  rw [h.increasing]
  rfl

end IsDensity

/-- **Values of densities.**  A density that is accepted draws one number and returns the value that
interpolating gives for it, and the number is from the unit interval.

For any number of the unit interval, if it is below the sum of all probabilities, the value is a
point of an interval with a positive probability: in exact arithmetic it lies between the bounds of
the interval.  If it is not, the value is the greatest bound.  That lies in an interval of positive
probability exactly if the last interval is one. -/
theorem densities_interpolate (h : IsDensity intervals) :
    (∀ s : Source, density intervals s =
        (.ok (.double (interpolate s.unit.1 intervals 0 0)),
          { s with position := s.position + 1 }) ∧ 0 ≤ s.unit.1 ∧ s.unit.1 < 1) ∧
    ∀ u : Float, 0 ≤ u → u < 1 →
      (u < cumulative (intervals.map (·.2)) intervals.length →
        ∃ k upper p, intervals[k]? = some (upper, p) ∧ 0 < p ∧
          interpolate u intervals 0 0 = edge intervals k + (upper - edge intervals k) *
            ((u - cumulative (intervals.map (·.2)) k) / p) ∧
          IsCovered intervals (exact (edge intervals k) +
            (exact upper - exact (edge intervals k)) *
              ((exact u - exact (cumulative (intervals.map (·.2)) k)) / exact p))) ∧
      (¬ u < cumulative (intervals.map (·.2)) intervals.length →
        interpolate u intervals 0 0 = edge intervals intervals.length ∧
          (IsCovered intervals (exact (edge intervals intervals.length)) ↔
            ∃ upper p, intervals.getLast? = some (upper, p) ∧ 0 < p)) := by
  refine ⟨fun s => ?_, fun u hlow hhigh => ?_⟩
  · obtain ⟨hlow, hhigh⟩ := s.unit_range
    obtain ⟨n, hn⟩ := hasUnits_of_lt hlow hhigh
    exact ⟨h.density_run s, hn.zero_le, hhigh⟩
  · have hlow := not_lt_of_zero_le hlow
    exact ⟨h.interpolate_inside hlow hhigh, fun habove => ⟨h.interpolate_beyond hlow habove,
      h.covered_last⟩⟩

/-- A last interval without a probability: the greatest number that a source yields gives its upper
bound, which lies in no interval that has a probability. -/
theorem densities_interpolate_gap :
    let intervals : List (Float × Float) := [(1, 0.9999995), (2, 0)]
    let s : Source := .ofWords [18446744073709551615]
    IsDensity intervals ∧ density intervals s =
        (.ok (.double (edge intervals 2)), { s with position := s.position + 1 }) ∧
      ¬ IsCovered intervals (exact (edge intervals 2)) := by
  intro intervals s
  have hdensity : IsDensity intervals := by
    refine ⟨⟨?_, ?_⟩, ?_, rfl⟩ <;> decide +kernel
  obtain ⟨hruns, hvalues⟩ := densities_interpolate hdensity
  obtain ⟨hrun, hlow, hhigh⟩ := hruns s
  have habove : ¬ s.unit.1 < cumulative (intervals.map (·.2)) intervals.length := by decide +kernel
  obtain ⟨hvalue, hcovered⟩ := (hvalues _ hlow hhigh).2 habove
  refine ⟨hdensity, ?_, fun covered => ?_⟩
  · rw [hrun, hvalue]
    rfl
  · obtain ⟨upper, p, hlast, hpos⟩ := hcovered.mp covered
    injection hlast with hlast
    injection hlast with _ hp
    rw [← hp] at hpos
    exact absurd hpos (by decide +kernel)

end

end ServiceSim.Sampler
