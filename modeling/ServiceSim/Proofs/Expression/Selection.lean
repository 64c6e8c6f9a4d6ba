import ServiceSim.Proofs.Evaluation.Determinism
import ServiceSim.Proofs.Number.Sums
import Mathlib.Data.List.Induction

/-!
# Selecting by cumulative weight

Probability mass functions and branches select an item in the same way, each after a check of its
own.  A draw selects the first item up to which the weights sum up to more than the draw.  The sum
of all may miss one by a little, so there are draws without such an item; these select the last item
of positive weight (`Selects`).

`weights_select` is the result: among weights that pass the check a draw from the unit interval
always selects an item, its weight is positive, and this takes one number from the source; weights
that do not pass are refused before anything is drawn.

Sums are taken as the program takes them, number by number and rounded.  What the proofs need of
them is that they stay finite, since infinite ones would not pass, and that adding a zero, of either
sign, changes no comparison.  This is why a weight of zero is never selected: a draw below a sum
with it is below the sum without it.
-/

namespace ServiceSim

open Binary64

/-! ## Draws -/

namespace Source

open Float.Model Float.Model.UnpackedFloat

lemma unpack_spacing : (1.0 / 9007199254740992.0 : Float).toModel.unpack =
    .finite .positive (2 ^ 52) (-105) (by decide) := rfl

/-- **Words stand for doubles of the unit interval.**  These are multiples of `2 ^ -53`, so none of
them is rounded. -/
lemma toUnit_range (w : UInt64) : ¬ toUnit w < 0 ∧ toUnit w < 1 := by
  have hlt : w.toNat / 2 ^ 11 < 2 ^ 53 := by
    have := w.toNat_lt
    omega
  have hupper : w >>> 11 = (w.toNat / 2 ^ 11).toUInt64 := by
    refine UInt64.toNat_inj.mp ?_
    rw [UInt64.toNat_shiftRight]
    change w.toNat >>> 11 = _ % 2 ^ 64
    rw [Nat.shiftRight_eq_div_pow, Nat.mod_eq_of_lt (by omega)]
  rw [toUnit, hupper]
  generalize w.toNat / 2 ^ 11 = n at hlt
  rcases Nat.eq_zero_or_pos n with rfl | hpos
  · decide +kernel
  · obtain ⟨hm, hunpack, hnormal⟩ := unpack_toFloat hpos hlt
    have hlog : n.log2 < 53 := (Nat.log2_lt hpos.ne').mpr hlt
    generalize n * 2 ^ (52 - n.log2) = m at *
    have hproduct := round_padded hnormal.low hnormal.high 52 (e := n.log2 - 105) (by omega)
      .positive hm
    have hexponent : (n.log2 : Int) - 105 = ((n.log2 + 969 : Nat) : Int) - 1074 := by omega
    have hcanonical : IsCanonical m (n.log2 + 969) := ⟨hnormal.high, by omega, .inl hnormal.low⟩
    rw [hexponent] at hproduct
    have hcounts : Counts (.finite .positive m ((n.log2 + 969 : Nat) - 1074) hm) _ :=
      .finite m (n.log2 + 969) hm hcanonical
    have hunits : HasUnits (n.toUInt64.toFloat * (1.0 / 9007199254740992.0))
        (m * 2 ^ (n.log2 + 969)) := by
      have hmul : (n.toUInt64.toFloat * (1.0 / 9007199254740992.0)).toModel.unpack =
          (Float.Model.pack (.mul .binary64 n.toUInt64.toFloat.toModel.unpack
            (1.0 / 9007199254740992.0 : Float).toModel.unpack)).unpack := rfl
      have hrounded : UnpackedFloat.mul .binary64 (.finite .positive m (n.log2 - 52) hm)
          (.finite .positive (2 ^ 52) (-105) (by decide)) =
            .finite .positive m ((n.log2 + 969 : Nat) - 1074) hm := by
        have hsum : (n.log2 : Int) - 52 + -105 = ((n.log2 + 969 : Nat) : Int) - 1074 - (52 : Nat) := by
          omega
        change roundWithAccuracy .binary64 .positive (m * 2 ^ 52) (n.log2 - 52 + -105) .exact = _
        rw [hsum, hproduct]
      rw [HasUnits, hmul, hunpack, unpack_spacing, hrounded, hcounts.unpack_pack]
      exact hcounts
    refine ⟨hunits.not_neg, (hunits.lt_iff hasUnits_one).mpr ?_⟩
    exact magnitude_lt hcanonical.high (le_refl _) (by omega)

lemma unit_range (s : Source) : ¬ s.unit.1 < 0 ∧ s.unit.1 < 1 := toUnit_range _

end Source

namespace Sampler

/-- The sum of the first weights, in their order. -/
def cumulative (weights : List Float) (k : Nat) : Float := (weights.take k).foldl (· + ·) 0

/-- Weights are probabilities with a total of one, as far as rounding allows. -/
structure IsDistribution (weights : List Float) : Prop where
  probability : ∀ w ∈ weights, isFinite w = true ∧ ¬ w < 0
  total : ¬ tolerance < (cumulative weights weights.length - 1).abs

/-- The place in a list of weights that a draw selects. -/
inductive Selects (weights : List Float) (u : Float) : Nat → Prop
  /-- The sums exceed the draw at this place first. -/
  | reached {k : Nat} (within : k < weights.length) (exceeds : u < cumulative weights (k + 1))
      (first : ∀ j < k, ¬ u < cumulative weights (j + 1)) : Selects weights u k
  /-- The sums never exceed the draw, and this is the last place of positive weight. -/
  | beyond {k : Nat} (never : ∀ j < weights.length, ¬ u < cumulative weights (j + 1))
      (within : k < weights.length)
      (last : ∀ j w, k < j → weights[j]? = some w → ¬ 0 < w) : Selects weights u k

/-- A draw selects an item, whose weight is positive. -/
def IsSelected {α : Type} (items : List (α × Float)) (u : Float) (a : α) : Prop :=
  ∃ k w, items[k]? = some (a, w) ∧ 0 < w ∧ Selects (items.map (·.2)) u k

/-! ## Sums of weights -/

section

variable {ws : List Float} {x u : Float} {a k : Nat}

/-- Once infinite, sums stay so. -/
lemma foldl_infinite (h : ∀ w ∈ ws, isFinite w = true ∧ ¬ w < 0) (hx : IsInfinite x) :
    IsInfinite (ws.foldl (· + ·) x) := by
  induction ws generalizing x with
  | nil => exact hx
  | cons w rest ih =>
    obtain ⟨b, hw⟩ := (h w List.mem_cons_self).elim exists_hasUnits
    exact ih (fun w hw => h w (List.mem_cons_of_mem _ hw)) (hx.add hw)

lemma foldl_units (h : ∀ w ∈ ws, isFinite w = true ∧ ¬ w < 0) (hx : HasUnits x a) :
    (∃ n, HasUnits (ws.foldl (· + ·) x) n) ∨ IsInfinite (ws.foldl (· + ·) x) := by
  induction ws generalizing x a with
  | nil => exact .inl ⟨a, hx⟩
  | cons w rest ih =>
    have hrest := fun w hw => h w (List.mem_cons_of_mem _ hw)
    obtain ⟨b, hw⟩ := (h w List.mem_cons_self).elim exists_hasUnits
    rw [List.foldl_cons]
    rcases hx.add hw with hsum | ⟨hsum, -⟩
    · exact ih hrest hsum
    · exact .inr (foldl_infinite hrest hsum)

lemma foldl_zeros (h : ∀ w ∈ ws, HasUnits w 0) (hx : HasUnits x a) :
    HasUnits (ws.foldl (· + ·) x) a := by
  induction ws generalizing x with
  | nil => exact hx
  | cons w rest ih =>
    exact ih (fun w hw => h w (List.mem_cons_of_mem _ hw)) (hx.add_zero (h w List.mem_cons_self))

lemma cumulative_succ (hk : k < ws.length) :
    cumulative ws (k + 1) = cumulative ws k + ws[k] := by
  rw [cumulative, List.take_add_one, List.foldl_append, List.getElem?_eq_getElem hk]
  rfl

lemma cumulative_length (ws : List Float) : cumulative ws ws.length = ws.foldl (· + ·) 0 := by
  rw [cumulative, List.take_length]

/-- The sums of weights that pass are finite: an infinite total misses one by too much. -/
lemma IsDistribution.units (h : IsDistribution ws) (k : Nat) :
    ∃ n, HasUnits (cumulative ws k) n := by
  have hfirst := fun w (hw : w ∈ ws.take k) => h.probability w (List.mem_of_mem_take hw)
  have hrest := fun w (hw : w ∈ ws.drop k) => h.probability w (List.mem_of_mem_drop hw)
  refine (foldl_units hfirst hasUnits_zero).resolve_right fun infinite => h.total ?_
  have htotal : IsInfinite (cumulative ws ws.length) := by
    rw [cumulative_length, ← List.take_append_drop k ws, List.foldl_append]
    exact foldl_infinite hrest infinite
  rw [htotal.eq]
  decide +kernel

/-- A probability that is not positive is a zero. -/
lemma IsDistribution.zero (h : IsDistribution ws) {w : Float} (hw : w ∈ ws) (hzero : ¬ 0 < w) :
    HasUnits w 0 := by
  obtain ⟨n, hn⟩ := (h.probability w hw).elim exists_hasUnits
  rw [hn.pos_iff, Nat.pos_iff_ne_zero, not_not] at hzero
  exact hzero ▸ hn

/-- Zeros alone miss a total of one. -/
lemma not_total_zero (hx : HasUnits x 0) : tolerance < (x - 1).abs := by
  rcases hx.eq_zero with rfl | rfl <;> decide +kernel

lemma IsDistribution.exists_positive (h : IsDistribution ws) : ∃ w ∈ ws, 0 < w := by
  by_contra hnone
  push Not at hnone
  refine h.total (not_total_zero ?_)
  rw [cumulative_length]
  exact foldl_zeros (fun w hw => h.zero hw (hnone w hw)) hasUnits_zero

end

/-! ## Selecting -/

section

variable {α : Type} {items : List (α × Float)} {u sum : Float} {a : α}

/-- The sums that picking goes through, from any sum on. -/
def sumsFrom (sum : Float) (items : List (α × Float)) (k : Nat) : Float :=
  ((items.map (·.2)).take k).foldl (· + ·) sum

lemma pick_some (h : pick u items sum = some a) :
    ∃ k w, items[k]? = some (a, w) ∧ u < sumsFrom sum items (k + 1) ∧
      ∀ j < k, ¬ u < sumsFrom sum items (j + 1) := by
  induction items generalizing sum with
  | nil => cases h
  | cons item rest ih =>
    obtain ⟨b, w⟩ := item
    rw [pick] at h
    split_ifs at h with hbelow
    · injection h with h
      exact ⟨0, w, by rw [← h]; rfl, hbelow, fun j hj => absurd hj (Nat.not_lt_zero j)⟩
    · obtain ⟨k, w', hitem, hexceeds, hfirst⟩ := ih h
      refine ⟨k + 1, w', hitem, hexceeds, fun j hj => ?_⟩
      cases j with
      | zero => exact hbelow
      | succ j => exact hfirst j (Nat.lt_of_succ_lt_succ hj)

lemma pick_none (h : pick u items sum = none) :
    ∀ j < items.length, ¬ u < sumsFrom sum items (j + 1) := by
  induction items generalizing sum with
  | nil => exact fun j hj => absurd hj (Nat.not_lt_zero j)
  | cons item rest ih =>
    obtain ⟨b, w⟩ := item
    rw [pick] at h
    split_ifs at h with hbelow
    intro j hj
    cases j with
    | zero => exact hbelow
    | succ j => exact ih h j (Nat.lt_of_succ_lt_succ hj)

/-- The fallback takes the last item of positive weight, if there is one. -/
lemma lastPositive_spec (items : List (α × Float)) (h : ∃ item ∈ items, 0 < item.2) :
    ∃ k a w, lastPositive items = some a ∧ items[k]? = some (a, w) ∧ 0 < w ∧
      ∀ (j : Nat) (item : α × Float), k < j → items[j]? = some item → ¬ 0 < item.2 := by
  induction items using List.reverseRecOn with
  | nil =>
    obtain ⟨item, hitem, -⟩ := h
    cases hitem
  | append_singleton rest item ih =>
    obtain ⟨b, w⟩ := item
    have hbeyond : ∀ j, rest.length < j → (rest ++ [(b, w)])[j]? = none := by
      intro j hj
      rw [List.getElem?_eq_none_iff, List.length_append]
      exact hj
    rw [lastPositive, List.reverse_append, List.reverse_singleton, List.singleton_append,
      List.find?_cons]
    by_cases hw : 0 < w
    · refine ⟨rest.length, b, w, ?_, List.getElem?_concat_length, hw, fun j item hj hitem => ?_⟩
      · rw [decide_eq_true hw]
        rfl
      · rw [hbeyond j hj] at hitem
        cases hitem
    · have hrest : ∃ item ∈ rest, 0 < item.2 := by
        obtain ⟨item, hitem, hpos⟩ := h
        rcases List.mem_append.mp hitem with hitem | hitem
        · exact ⟨item, hitem, hpos⟩
        · rw [List.mem_singleton.mp hitem] at hpos
          exact absurd hpos hw
      obtain ⟨k, a, v, hlast, hitem, hpos, hafter⟩ := ih hrest
      have hk : k < rest.length := (List.getElem?_eq_some_iff.mp hitem).1
      refine ⟨k, a, v, ?_, ?_, hpos, fun j item hj hget => ?_⟩
      · rw [decide_eq_false hw]
        exact hlast
      · rw [List.getElem?_append_left hk]
        exact hitem
      · rcases Nat.lt_trichotomy j rest.length with hlt | rfl | hgt
        · rw [List.getElem?_append_left hlt] at hget
          exact hafter j item hj hget
        · rw [List.getElem?_concat_length] at hget
          injection hget with hget
          rw [← hget]
          exact hw
        · rw [hbeyond j hgt] at hget
          cases hget

/-- A weight of zero does not lift the sum above a draw.  At first the sum is zero, and no draw is
below it. -/
lemma IsDistribution.first_positive {ws : List Float} (h : IsDistribution ws) (hlow : ¬ u < 0)
    (hhigh : u < 1) {k : Nat} (hk : k < ws.length) (hexceeds : u < cumulative ws (k + 1))
    (hfirst : ∀ j < k, ¬ u < cumulative ws (j + 1)) : 0 < ws[k] := by
  by_contra hzero
  obtain ⟨n, hu⟩ := hasUnits_of_lt hlow hhigh
  obtain ⟨c, hc⟩ := h.units k
  have hsum := hc.add_zero (h.zero (List.getElem_mem hk) hzero)
  rw [cumulative_succ hk, hu.lt_iff hsum, ← hu.lt_iff hc] at hexceeds
  cases k with
  | zero => exact hlow hexceeds
  | succ j => exact hfirst j (Nat.lt_succ_self j) hexceeds

/-- **What a draw selects.**  Among weights that make up a distribution there always is an item for
a draw, and its weight is positive. -/
theorem weighted_isSelected (h : IsDistribution (items.map (·.2))) (hlow : ¬ u < 0)
    (hhigh : u < 1) : ∃ a, weighted items u = some a ∧ IsSelected items u a := by
  have hlength : (items.map (·.2)).length = items.length := List.length_map _
  rw [weighted]
  cases hpick : pick u items 0 with
  | some a =>
    obtain ⟨k, w, hitem, hexceeds, hfirst⟩ := pick_some hpick
    obtain ⟨hk, hget⟩ := List.getElem?_eq_some_iff.mp hitem
    have hpositive := h.first_positive hlow hhigh (hlength ▸ hk) hexceeds hfirst
    rw [List.getElem_map, hget] at hpositive
    exact ⟨a, rfl, k, w, hitem, hpositive, .reached (hlength ▸ hk) hexceeds hfirst⟩
  | none =>
    obtain ⟨w, hw, hpos⟩ := h.exists_positive
    obtain ⟨item, hitem, rfl⟩ := List.mem_map.mp hw
    obtain ⟨k, a, w, hlast, hget, hpositive, hafter⟩ := lastPositive_spec items ⟨item, hitem, hpos⟩
    have hk := (List.getElem?_eq_some_iff.mp hget).1
    refine ⟨a, hlast, k, w, hget, hpositive, .beyond ?_ (hlength ▸ hk) fun j v hj hv => ?_⟩
    · exact fun j hj => pick_none hpick j (hlength ▸ hj)
    · rw [List.getElem?_map, Option.map_eq_some_iff] at hv
      obtain ⟨item, hitem, rfl⟩ := hv
      exact hafter j item hj hitem

end

/-! ## Checking -/

section

variable {ps : List Float} {x : Float}

lemma total_ok (h : ∀ p ∈ ps, isFinite p = true ∧ ¬ p < 0) (x : Float) :
    total ps x = .ok (ps.foldl (· + ·) x) := by
  induction ps generalizing x with
  | nil => rfl
  | cons p rest ih =>
    obtain ⟨hfinite, hneg⟩ := h p List.mem_cons_self
    rw [total, hfinite, decide_eq_false hneg]
    exact ih (fun q hq => h q (List.mem_cons_of_mem _ hq)) _

lemma total_error (h : ¬ ∀ p ∈ ps, isFinite p = true ∧ ¬ p < 0) (x : Float) :
    ∃ p, total ps x = .error (.probability p) := by
  induction ps generalizing x with
  | nil => exact absurd (fun p hp => absurd hp List.not_mem_nil) h
  | cons p rest ih =>
    rw [total]
    split_ifs with hp
    · exact ⟨p, rfl⟩
    · refine ih (fun hrest => h fun q hq => ?_) _
      rcases List.mem_cons.mp hq with rfl | hq
      · simpa using hp
      · exact hrest q hq

lemma isDistribution_iff (h : ∀ p ∈ ps, isFinite p = true ∧ ¬ p < 0) :
    IsDistribution ps ↔ ¬ tolerance < (ps.foldl (· + ·) 0 - 1).abs := by
  rw [← cumulative_length]
  exact ⟨fun hall => hall.total, fun htotal => ⟨h, htotal⟩⟩

/-- Probabilities are refused unless they make up a distribution, and nothing is drawn. -/
lemma checkProbabilities_run (ps : List Float) (s : Source) :
    (IsDistribution ps → checkProbabilities ps s = (.ok (), s)) ∧
      (¬ IsDistribution ps → ∃ fault,
        checkProbabilities ps s = (.error (.invalidDistribution fault), s)) := by
  by_cases hall : ∀ p ∈ ps, isFinite p = true ∧ ¬ p < 0
  · rw [checkProbabilities, total_ok hall, isDistribution_iff hall, not_not]
    dsimp only
    refine ⟨fun h => ?_, fun h => ?_⟩
    · rw [if_neg h]
      rfl
    · rw [if_pos h]
      exact ⟨_, rfl⟩
  · obtain ⟨p, hp⟩ := total_error hall 0
    rw [checkProbabilities, hp]
    exact ⟨fun h => absurd h.probability hall, fun _ => ⟨_, rfl⟩⟩

end

/-- **Sampling a probability mass function.** -/
lemma mass_run {samples : List (Value × Float)} (h : IsDistribution (samples.map (·.2)))
    (s : Source) : ∃ v, mass samples s = (.ok v, { s with position := s.position + 1 }) ∧
      IsSelected samples s.unit.1 v := by
  obtain ⟨hlow, hhigh⟩ := s.unit_range
  obtain ⟨v, hweighted, hselected⟩ := weighted_isSelected h hlow hhigh
  refine ⟨v, ?_, hselected⟩
  rw [mass, bind_run, (checkProbabilities_run _ s).1 h]
  dsimp only
  have hdraw : draw Source.unit s = (.ok s.unit.1, s.unit.2) := rfl
  rw [bind_run, hdraw]
  dsimp only
  rw [hweighted]
  rfl

end Sampler

/-! ## Branches -/

namespace Transition

open Sampler

variable {α : Type} {targets : List (α × Float)}

/-- Transitions all of which carry probabilities. -/
def drawn (targets : List (α × Float)) : List (TransitionCondition × α) :=
  targets.map fun target => (.probability target.2, target.1)

lemma weights_drawn (h : ∀ p ∈ targets.map (·.2), isFinite p = true ∧ ¬ p < 0) :
    weights (drawn targets) = .ok targets := by
  induction targets with
  | nil => rfl
  | cons target rest ih =>
    obtain ⟨a, p⟩ := target
    obtain ⟨hfinite, hneg⟩ := h p List.mem_cons_self
    obtain ⟨n, hn⟩ := exists_hasUnits hfinite hneg
    have hrest := ih fun q hq => h q (List.mem_cons_of_mem _ hq)
    rw [drawn, List.map_cons, weights, hfinite, decide_eq_true hn.zero_le]
    exact congrArg (·.map ((a, p) :: ·)) hrest

lemma weights_drawn_error (h : ¬ ∀ p ∈ targets.map (·.2), isFinite p = true ∧ ¬ p < 0) :
    ∃ p, weights (drawn targets) = .error (.notProbability p) := by
  induction targets with
  | nil => exact absurd (fun p hp => absurd hp List.not_mem_nil) h
  | cons target rest ih =>
    obtain ⟨a, p⟩ := target
    rw [drawn, List.map_cons, weights]
    split_ifs with hp
    · rw [Bool.and_eq_true, decide_eq_true_iff] at hp
      obtain ⟨q, hq⟩ := ih fun hrest => h fun q hq => by
        rcases List.mem_cons.mp hq with rfl | hq
        · exact ⟨hp.1, not_lt_of_zero_le hp.2⟩
        · exact hrest q hq
      exact ⟨q, congrArg (·.map ((a, p) :: ·)) hq⟩
    · exact ⟨p, rfl⟩

/-- Sums from two zeros on are the same, as long as there is more than zeros. -/
lemma foldl_from_zeros {ws : List Float} (h : ∀ w ∈ ws, isFinite w = true ∧ ¬ w < 0) {x y : Float}
    (hx : HasUnits x 0) (hy : HasUnits y 0) :
    ws.foldl (· + ·) x = ws.foldl (· + ·) y ∨
      HasUnits (ws.foldl (· + ·) x) 0 ∧ HasUnits (ws.foldl (· + ·) y) 0 := by
  induction ws generalizing x y with
  | nil => exact .inr ⟨hx, hy⟩
  | cons w rest ih =>
    obtain ⟨n, hw⟩ := (h w List.mem_cons_self).elim exists_hasUnits
    rw [List.foldl_cons, List.foldl_cons]
    rcases Nat.eq_zero_or_pos n with rfl | hpos
    · exact ih (fun w hw => h w (List.mem_cons_of_mem _ hw)) (hx.add_zero hw) (hy.add_zero hw)
    · rw [hx.zero_add hw hpos, hy.zero_add hw hpos]
      exact .inl rfl

/-- Branches take the total from the negative zero on, which makes no difference to the check. -/
lemma total_drawn (h : ∀ p ∈ targets.map (·.2), isFinite p = true ∧ ¬ p < 0) :
    defaultTolerance <
        (targets.foldl (fun (sum : Float) (target : α × Float) => sum + target.2) (-0.0) - 1).abs ↔
      ¬ IsDistribution (targets.map (·.2)) := by
  have htotal : targets.foldl (fun (sum : Float) (target : α × Float) => sum + target.2) (-0.0) =
      (targets.map (·.2)).foldl (· + ·) (-0.0) := by rw [List.foldl_map]
  have hzero : HasUnits (-0.0) 0 := .zero .negative
  have htolerance : defaultTolerance = tolerance := rfl
  rw [htotal, htolerance, isDistribution_iff h, not_not]
  rcases foldl_from_zeros h hzero hasUnits_zero with hsame | ⟨hleft, hright⟩
  · rw [hsame]
  · exact iff_of_true (not_total_zero hleft) (not_total_zero hright)

lemma draw_run (branch : ActionId) (s : Source) :
    (IsDistribution (targets.map (·.2)) → ∃ a,
        draw defaultTolerance branch (drawn targets) s =
          (.ok (some a), { s with position := s.position + 1 }) ∧ IsSelected targets s.unit.1 a) ∧
      (¬ IsDistribution (targets.map (·.2)) → ∃ fault,
        draw defaultTolerance branch (drawn targets) s =
          (.error (.model (.invalidBranchProbabilities branch fault)), s)) := by
  by_cases hall : ∀ p ∈ targets.map (·.2), isFinite p = true ∧ ¬ p < 0
  · have htotal := total_drawn hall
    rw [draw, weights_drawn hall]
    dsimp only
    refine ⟨fun h => ?_, fun h => ?_⟩
    · obtain ⟨hlow, hhigh⟩ := s.unit_range
      obtain ⟨a, hweighted, hselected⟩ := weighted_isSelected h hlow hhigh
      refine ⟨a, ?_, hselected⟩
      rw [if_neg (fun hfar => htotal.mp hfar h), ← hweighted]
      rfl
    · rw [if_pos (htotal.mpr h)]
      exact ⟨_, rfl⟩
  · obtain ⟨p, hp⟩ := weights_drawn_error hall
    rw [draw, hp]
    exact ⟨fun h => absurd h.probability hall, fun _ => ⟨_, rfl⟩⟩

/-- Where there are transitions, and all of them carry probabilities, one is drawn. -/
lemma choose_drawn (tolerance : Float) (branch : ActionId) (hsome : targets ≠ []) (scope : Scope) :
    choose tolerance branch (drawn targets) scope = draw tolerance branch (drawn targets) := by
  cases targets with
  | nil => exact absurd rfl hsome
  | cons target rest =>
    have hall : ((drawn (target :: rest)).any fun t =>
        t.1.isGuard != (TransitionCondition.probability target.2).isGuard) = false := by
      rw [drawn, List.any_map, List.any_eq_false]
      exact fun t _ => Bool.false_ne_true
    rw [drawn, List.map_cons] at hall ⊢
    rw [choose, hall]
    rfl

/-- **Choosing among transitions that are drawn.** -/
lemma choose_run (branch : ActionId) (hsome : targets ≠ []) (scope : Scope) (s : Source) :
    (IsDistribution (targets.map (·.2)) → ∃ a,
        choose defaultTolerance branch (drawn targets) scope s =
          (.ok (some a), { s with position := s.position + 1 }) ∧ IsSelected targets s.unit.1 a) ∧
      (¬ IsDistribution (targets.map (·.2)) → ∃ fault,
        choose defaultTolerance branch (drawn targets) scope s =
          (.error (.model (.invalidBranchProbabilities branch fault)), s)) := by
  rw [choose_drawn defaultTolerance branch hsome]
  exact draw_run branch s

end Transition

open Sampler Transition

/-- **Weighted selection.**  A mass function draws a sample, and a branch a transition, exactly if
the weights make up a distribution.  It takes one number from the source, and what it selects is the
first item at which the sums of the weights exceed that number, or else the last one of positive
weight.  Either way there is such an item, and its weight is positive.  Other weights are refused,
and then nothing is drawn.

So it is for every number of the unit interval, whether a source yields it or not. -/
theorem weights_select :
    (∀ (samples : List (Value × Float)) (s : Source),
      (IsDistribution (samples.map (·.2)) →
        checkProbabilities (samples.map (·.2)) s = (.ok (), s) ∧
        ∃ v, mass samples s = (.ok v, { s with position := s.position + 1 }) ∧
          IsSelected samples s.unit.1 v) ∧
      (¬ IsDistribution (samples.map (·.2)) → ∃ fault,
        checkProbabilities (samples.map (·.2)) s = (.error (.invalidDistribution fault), s) ∧
        mass samples s = (.error (.invalidDistribution fault), s))) ∧
    (∀ {α : Type} (targets : List (α × Float)) (branch : ActionId) (scope : Scope) (s : Source),
      targets ≠ [] →
      (IsDistribution (targets.map (·.2)) → ∃ a,
        choose defaultTolerance branch (drawn targets) scope s =
          (.ok (some a), { s with position := s.position + 1 }) ∧
          IsSelected targets s.unit.1 a) ∧
      (¬ IsDistribution (targets.map (·.2)) → ∃ fault,
        choose defaultTolerance branch (drawn targets) scope s =
          (.error (.model (.invalidBranchProbabilities branch fault)), s))) ∧
    ∀ {α : Type} (items : List (α × Float)) (u : Float), IsDistribution (items.map (·.2)) →
      0 ≤ u → u < 1 → ∃ a, weighted items u = some a ∧ IsSelected items u a := by
  refine ⟨fun samples s => ⟨fun h => ?_, fun h => ?_⟩,
    fun targets branch scope s hsome => choose_run branch hsome scope s,
    fun items u h hlow hhigh => weighted_isSelected h (not_lt_of_zero_le hlow) hhigh⟩
  · exact ⟨(checkProbabilities_run _ s).1 h, mass_run h s⟩
  · obtain ⟨fault, hfault⟩ := (checkProbabilities_run (samples.map (·.2)) s).2 h
    refine ⟨fault, hfault, ?_⟩
    rw [mass, bind_run, hfault]

/-- The greatest number that a source yields is above weights that sum up to less than one.  It
selects the first of them, since the second one is a zero. -/
theorem weights_select_gap :
    let items : List (Value × Float) := [(.int 1, 0.9999995), (.int 2, -0.0)]
    let s : Source := .ofWords [18446744073709551615]
    IsDistribution (items.map (·.2)) ∧
      (∃ v, mass items s = (.ok v, { s with position := s.position + 1 }) ∧
        IsSelected items s.unit.1 v) ∧
      (∃ a, choose defaultTolerance "branch" (drawn items) .empty s =
          (.ok (some a), { s with position := s.position + 1 }) ∧
        IsSelected items s.unit.1 a) ∧
      (weighted items s.unit.1).map Value.toInteger? = some (some 1) := by
  intro items s
  have hitems : IsDistribution (items.map (·.2)) := by
    refine ⟨?_, ?_⟩ <;> decide +kernel
  obtain ⟨hmass, hbranch, -⟩ := weights_select
  refine ⟨hitems, ((hmass items s).1 hitems).2, ?_, ?_⟩
  · exact (hbranch items "branch" .empty s (List.cons_ne_nil _ _)).1 hitems
  · decide +kernel

end ServiceSim
