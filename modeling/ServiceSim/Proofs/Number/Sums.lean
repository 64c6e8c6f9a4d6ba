import ServiceSim.Proofs.Number.Widening

/-!
# Sums of doubles that are not negative

Every finite double is a whole multiple of the smallest positive one, its *unit*.  `Counts` says how
many units a double is that is not negative, in the unpacked form that the logical model of `Float`
computes with.  In units,

* doubles compare as natural numbers do (`lt_iff`), and
* a sum is the exact one, rounded to the nearest number of 53 bits, unless it is beyond all finite
  doubles (`counts_add`): aligning two significands loses nothing, since no exponent is below that
  of the unit.

Rounding keeps doubles and never turns an order round.  So a double that the exact sum does not
exceed is not exceeded by the rounded one either, and conversely (`add_le`, `le_add`).
-/

namespace ServiceSim.Binary64

open Float.Model Float.Model.UnpackedFloat

/-- Unpacking undoes packing for subnormal numbers, too. -/
lemma unpack_pack_subnormal {m : Nat} (h : 0 < m) (hm : m < 2 ^ 52) (s : Sign) :
    (Float.Model.pack (.finite s m (-1074) h)).unpack = .finite s m (-1074) h := by
  have hfraction : (BitVec.ofNat 52 m).toNat = m := by
    rw [BitVec.toNat_ofNat, Nat.mod_eq_of_lt (by omega)]
  have hpack : UnpackedFloat.pack .binary64 (.finite s m (-1074) h) =
      packComponents .binary64 s 0#11 (BitVec.ofNat 52 m) := by
    refine Eq.trans ?_ (pack_subnormal s (BitVec.ofNat 52 m) (by omega) (-1074) rfl)
    congr 2
    exact hfraction.symm
  have hsign : Sign.ofBitVec s.toBitVec = s := by cases s <;> rfl
  have hnonzero : BitVec.ofNat 52 m ≠ 0#52 := by
    intro hzero
    rw [hzero] at hfraction
    exact h.ne hfraction
  have hcases := unpack_cases (packComponents .binary64 s 0#11 (BitVec.ofNat 52 m))
  rw [unpackExponent_packComponents, unpackMantissa_packComponents, unpackSign_packComponents,
    hsign] at hcases
  change UnpackedFloat.unpack .binary64 (UnpackedFloat.pack .binary64 (.finite s m (-1074) h)) = _
  rw [hpack]
  rcases hcases with ⟨heq, -⟩ | ⟨heq, -⟩ | ⟨-, heq, -⟩ | ⟨-, x, _, hx, hu⟩ | ⟨-, hne, -⟩
  · exact absurd heq (by decide)
  · exact absurd heq (by decide)
  · exact absurd heq hnonzero
  · refine hu.trans ?_
    rw [UnpackedFloat.finite.injEq]
    exact ⟨rfl, hfraction, hx⟩
  · exact absurd rfl hne

/-! ## Counting units -/

/-- The significands of finite doubles, and how far their last bits are above the unit.  There are
53 bits, or fewer if the last one is the unit itself. -/
structure IsCanonical (m j : Nat) : Prop where
  high : m < 2 ^ 53
  greatest : j ≤ 2045
  full : 2 ^ 52 ≤ m ∨ j = 0

/-- A finite double that is not negative is a number of units. -/
inductive Counts : UnpackedFloat → Nat → Prop
  | zero (s : Sign) : Counts (.zero s) 0
  | finite (m j : Nat) (h : 0 < m) (canonical : IsCanonical m j) :
      Counts (.finite .positive m (j - 1074) h) (m * 2 ^ j)

namespace Counts

variable {u v : UnpackedFloat} {a b : Nat}

lemma unpack_pack (h : Counts u a) : (Float.Model.pack u).unpack = u := by
  cases h with
  | zero s => cases s <;> rfl
  | finite m j hm canonical =>
    obtain ⟨high, greatest, full⟩ := canonical
    rcases Nat.lt_or_ge m (2 ^ 52) with hlt | hge
    · obtain rfl : j = 0 := by omega
      exact unpack_pack_subnormal hm hlt .positive
    · exact unpack_pack_of_isNormal ⟨hge, high, by omega, by omega⟩

/-- A count has at most 53 bits, up to a power of two. -/
lemma nearestNat_eq (h : Counts u a) : nearestNat a = a := by
  cases h with
  | zero s => rfl
  | finite m j hm canonical =>
    have hclosest := nearestNat_closest (m * 2 ^ j) m j canonical.high.le
    omega

/-- Doubles compare as their counts do. -/
lemma compare_eq (hu : Counts u a) (hv : Counts v b) : u.compare v = some (compare a b) := by
  cases hu with
  | zero s =>
    cases hv with
    | zero s' => cases s <;> cases s' <;> rfl
    | finite m j hm canonical =>
      have hpos := Nat.mul_pos hm (Nat.two_pow_pos j)
      rw [Nat.compare_eq_lt.mpr hpos]
      cases s <;> rfl
  | finite m j hm canonical =>
    have hpos := Nat.mul_pos hm (Nat.two_pow_pos j)
    cases hv with
    | zero s =>
      rw [Nat.compare_eq_gt.mpr hpos]
      rfl
    | finite m' j' hm' canonical' =>
      change some ((compare ((j : Int) - 1074) (j' - 1074)).then (compare m m')) = _
      rcases lt_trichotomy j j' with h | rfl | h
      · have hlow := canonical'.full.resolve_right (by omega)
        rw [Int.compare_eq_lt.mpr (by omega),
          Nat.compare_eq_lt.mpr (magnitude_lt canonical.high hlow h)]
        rfl
      · rw [Int.compare_eq_eq.mpr rfl, Ordering.eq_then]
        rcases lt_trichotomy m m' with h | rfl | h
        · rw [Nat.compare_eq_lt.mpr h,
            Nat.compare_eq_lt.mpr (Nat.mul_lt_mul_of_pos_right h (Nat.two_pow_pos j))]
        · rw [Nat.compare_eq_eq.mpr rfl, Nat.compare_eq_eq.mpr rfl]
        · rw [Nat.compare_eq_gt.mpr h,
            Nat.compare_eq_gt.mpr (Nat.mul_lt_mul_of_pos_right h (Nat.two_pow_pos j))]
      · have hlow := canonical.full.resolve_right (by omega)
        rw [Int.compare_eq_gt.mpr (by omega),
          Nat.compare_eq_gt.mpr (magnitude_lt canonical'.high hlow h)]
        rfl

end Counts

/-! ## Rounding sums -/

lemma shiftToTargetExponent_units {m k t : Nat} (ht : m.log2 + k - 52 = t) (hk : k ≤ t) :
    shiftToTargetExponent .binary64 m ((k : Int) - 1074) .exact =
      (ExtendedMantissa.ofMantissaAndAccuracy m .exact >>> (t - k), (t : Int) - 1074) := by
  have htarget : Format.binary64.targetExponent (totalExponent m ((k : Int) - 1074)) - (k - 1074) =
      (t - k : Nat) := by
    rw [targetExponent_eq]
    omega
  have hexponent : (k : Int) - 1074 + (t - k : Nat) = t - 1074 := by omega
  unfold shiftToTargetExponent shiftToExponent
  dsimp only
  rw [htarget, Int.toNat_natCast, hexponent]

/-- A short significand keeps its bits, a long one 53 of them; none is left out by a carry. -/
lemma halfEven_excess {n : Nat} (h : 0 < n) :
    0 < halfEven n (excess n) ∧ halfEven n (excess n) ≤ 2 ^ 53 ∧
      (2 ^ 52 ≤ halfEven n (excess n) ∨ excess n = 0) := by
  rcases Nat.lt_or_ge n (2 ^ 53) with hlt | hge
  · rw [excess_eq_zero hlt, halfEven_zero]
    exact ⟨h, hlt.le, .inr rfl⟩
  · have := halfEven_bounds (n := n) (by omega)
    omega

/-- A rounded significand may have one bit too many, a zero.  It is shifted out once more. -/
lemma carry_back {r t : Nat} (hpos : 0 < r) (hhigh : r ≤ 2 ^ 53) (hlow : 2 ^ 52 ≤ r ∨ t = 0) :
    r.log2 + t - 52 = t + excess r ∧ r / 2 ^ excess r * 2 ^ excess r = r ∧
      r / 2 ^ excess r < 2 ^ 53 ∧ (2 ^ 52 ≤ r / 2 ^ excess r ∨ t + excess r = 0) := by
  rcases Nat.lt_or_ge r (2 ^ 52) with hlt | hge
  · obtain rfl : t = 0 := by omega
    refine ⟨by rw [Nat.add_zero, Nat.zero_add, excess], ?_⟩
    rw [excess_eq_zero (by omega)]
    omega
  · obtain ⟨hquotient, hbelow, heq, -⟩ := excess_of_le hge hhigh
    have := (Nat.le_log2 hpos.ne').mpr hge
    refine ⟨?_, heq, hbelow, .inl hquotient⟩
    unfold excess
    omega

/-- Rounding a number of units gives the nearest number of 53 bits.  No bit of the significand may
stand for less than a unit, nor for more than the last bit that is kept. -/
lemma roundWithAccuracy_units {m k : Nat} (hm : 0 < m) (hk : k ≤ excess (m * 2 ^ k)) (s : Sign) :
    ∃ (c j : Nat) (h : 0 < c),
      roundWithAccuracy .binary64 s m ((k : Int) - 1074) .exact = .finite s c (j - 1074) h ∧
      c * 2 ^ j = nearestNat (m * 2 ^ k) ∧ c < 2 ^ 53 ∧ (2 ^ 52 ≤ c ∨ j = 0) := by
  have hfirst : m.log2 + k - 52 = excess (m * 2 ^ k) := by rw [excess, log2_mul_two_pow hm]
  have hround : halfEven m (excess (m * 2 ^ k) - k) = halfEven (m * 2 ^ k) (excess (m * 2 ^ k)) := by
    have hscaled := halfEven_mul_two_pow m (excess (m * 2 ^ k) - k) k
    rw [Nat.sub_add_cancel hk] at hscaled
    exact hscaled.symm
  obtain ⟨hrpos, hrhigh, hrlow⟩ := halfEven_excess (Nat.mul_pos hm (Nat.two_pow_pos k))
  unfold nearestNat
  generalize halfEven (m * 2 ^ k) (excess (m * 2 ^ k)) = r at *
  generalize excess (m * 2 ^ k) = t at *
  obtain ⟨hsecond, hvalue, hhigh, hfull⟩ := carry_back hrpos hrhigh hrlow
  have hquotient := (shift_spec r (excess r)).1
  have hshift : t + excess r - t = excess r := Nat.add_sub_cancel_left t _
  have hleft : 0 < r / 2 ^ excess r := by
    refine Nat.pos_of_ne_zero fun hzero => ?_
    rw [hzero, Nat.zero_mul] at hvalue
    omega
  refine ⟨r / 2 ^ excess r, t + excess r, hleft, ?_, ?_, hhigh, hfull⟩
  · unfold roundWithAccuracy
    rw [shiftToTargetExponent_units hfirst hk]
    dsimp only
    rw [roundedMantissa_shift, hround, shiftToTargetExponent_units hsecond (Nat.le_add_right t _)]
    dsimp only
    rw [hshift, dif_neg (by rw [hquotient]; exact hleft.ne'), UnpackedFloat.finite.injEq]
    exact ⟨rfl, hquotient, rfl⟩
  · rw [Nat.pow_add, Nat.mul_comm (2 ^ t), ← Nat.mul_assoc, hvalue]

/-- A significand with bits that stand for too much is padded first. -/
lemma round_units {m k : Nat} (hm : 0 < m) (s : Sign) :
    ∃ (c j : Nat) (h : 0 < c),
      UnpackedFloat.round .binary64 s m ((k : Int) - 1074) = .finite s c (j - 1074) h ∧
      c * 2 ^ j = nearestNat (m * 2 ^ k) ∧ c < 2 ^ 53 ∧ (2 ^ 52 ≤ c ∨ j = 0) := by
  obtain ⟨padding, hpadding⟩ : ∃ padding, padding = k - excess (m * 2 ^ k) := ⟨_, rfl⟩
  have htarget : Format.binary64.targetExponent (totalExponent m ((k : Int) - 1074)) =
      (excess (m * 2 ^ k) : Int) - 1074 := by
    rw [targetExponent_eq, excess, log2_mul_two_pow hm]
    omega
  have hamount : ((k : Int) - 1074 - ((excess (m * 2 ^ k) : Int) - 1074)).toNat = padding := by omega
  have hexponent : (k : Int) - 1074 - padding = (k - padding : Nat) - 1074 := by omega
  have hvalue : m * 2 ^ padding * 2 ^ (k - padding) = m * 2 ^ k := by
    rw [Nat.mul_assoc, ← Nat.pow_add, Nat.add_sub_cancel' (by omega)]
  have hrounded := roundWithAccuracy_units (m := m * 2 ^ padding) (k := k - padding)
    (Nat.mul_pos hm (Nat.two_pow_pos _)) (by rw [hvalue]; omega) s
  rw [hvalue] at hrounded
  unfold UnpackedFloat.round decreaseExponent
  dsimp only
  rw [htarget, hamount, Nat.shiftLeft_eq, hexponent]
  exact hrounded

/-- The packed result is the rounded one, or infinite if that is beyond all finite doubles. -/
lemma unpack_pack_rounded {c j : Nat} (h : 0 < c) (high : c < 2 ^ 53) (full : 2 ^ 52 ≤ c ∨ j = 0) :
    Counts (Float.Model.pack (.finite .positive c (j - 1074) h)).unpack (c * 2 ^ j) ∨
      (Float.Model.pack (.finite .positive c (j - 1074) h)).unpack = .infinity .positive ∧
        2046 ≤ j ∧ 2 ^ 52 * 2 ^ j ≤ c * 2 ^ j := by
  rcases Nat.lt_or_ge 2045 j with hlarge | hsmall
  · have hbias : ((j : Int) - 1074 + Format.binary64.exponentBias +
        Format.binary64.mantissaBitsWithoutImplicit).toNat = j + 1 := by
      have hbias : Format.binary64.exponentBias = 1023 := rfl
      have hmantissa : Format.binary64.mantissaBitsWithoutImplicit = 52 := rfl
      rw [hbias, hmantissa]
      omega
    have hexponents : 2 ^ Format.binary64.exponentBits = 2048 := rfl
    have hpack : UnpackedFloat.pack .binary64 (.finite .positive c (j - 1074) h) =
        packedInfinity .binary64 .positive := by
      unfold UnpackedFloat.pack
      dsimp only
      rw [hbias, if_pos (by omega)]
    refine .inr ⟨?_, hlarge, Nat.mul_le_mul_right _ (full.resolve_right (by omega))⟩
    change UnpackedFloat.unpack .binary64 (UnpackedFloat.pack .binary64 _) = _
    rw [hpack]
    rfl
  · have hcounts : Counts (.finite .positive c (j - 1074) h) (c * 2 ^ j) :=
      .finite c j h ⟨high, hsmall, full⟩
    rw [hcounts.unpack_pack]
    exact .inl hcounts

/-- Aligned significands are added exactly, then rounded. -/
lemma counts_add_finite {m m' : Nat} (j j' : Nat) (h : 0 < m) (h' : 0 < m') :
    ∃ (c k : Nat) (hc : 0 < c),
      UnpackedFloat.add .binary64 (.finite .positive m (j - 1074) h)
        (.finite .positive m' (j' - 1074) h') = .finite .positive c (k - 1074) hc ∧
      c * 2 ^ k = nearestNat (m * 2 ^ j + m' * 2 ^ j') ∧ c < 2 ^ 53 ∧ (2 ^ 52 ≤ c ∨ k = 0) := by
  obtain ⟨least, hleast⟩ : ∃ least, least = min j j' := ⟨_, rfl⟩
  have hmin : min ((j : Int) - 1074) (j' - 1074) = (least : Int) - 1074 := by omega
  have hj : ((j : Int) - 1074 - (least - 1074)).toNat = j - least := by omega
  have hj' : ((j' : Int) - 1074 - (least - 1074)).toNat = j' - least := by omega
  have hvalue : (m * 2 ^ (j - least) + m' * 2 ^ (j' - least)) * 2 ^ least =
      m * 2 ^ j + m' * 2 ^ j' := by
    rw [Nat.add_mul, Nat.mul_assoc, Nat.mul_assoc, ← Nat.pow_add, ← Nat.pow_add,
      Nat.sub_add_cancel (by omega), Nat.sub_add_cancel (by omega)]
  have hpos : 0 < m * 2 ^ (j - least) + m' * 2 ^ (j' - least) :=
    Nat.add_pos_left (Nat.mul_pos h (Nat.two_pow_pos _)) _
  have hsum : Sign.positive.apply (m * 2 ^ (j - least) : Nat) +
      Sign.positive.apply (m' * 2 ^ (j' - least) : Nat) =
        ((m * 2 ^ (j - least) + m' * 2 ^ (j' - least) : Nat) : Int) := by
    simp only [Sign.apply, Nat.cast_add]
  have hrounded := round_units (k := least) hpos .positive
  rw [hvalue] at hrounded
  unfold UnpackedFloat.add decreaseExponent
  dsimp only
  rw [hmin, hj, hj', Nat.shiftLeft_eq, Nat.shiftLeft_eq, hsum, UnpackedFloat.normalize,
    Int.compare_eq_gt.mpr (by omega)]
  dsimp only
  rw [Int.toNat_natCast]
  exact hrounded

/-- All finite doubles are below the numbers that become infinite. -/
lemma Counts.lt_infinite {u : UnpackedFloat} {a j : Nat} (h : Counts u a) (hj : 2046 ≤ j) :
    a < 2 ^ 52 * 2 ^ j := by
  cases h with
  | zero s => exact Nat.mul_pos (Nat.two_pow_pos 52) (Nat.two_pow_pos j)
  | finite m k hm canonical =>
    have hk := canonical.greatest
    calc m * 2 ^ k
      _ < 2 ^ 53 * 2 ^ k := Nat.mul_lt_mul_of_pos_right canonical.high (Nat.two_pow_pos k)
      _ ≤ 2 ^ 52 * 2 ^ j := by
        rw [← Nat.pow_add, ← Nat.pow_add]
        exact Nat.pow_le_pow_right (by decide) (by omega)

/-! ## Doubles that are not negative -/

/-- A double is finite, not negative, and so many units. -/
def HasUnits (x : Float) (n : Nat) : Prop := Counts x.toModel.unpack n

/-- A double is the positive infinity. -/
def IsInfinite (x : Float) : Prop := x.toModel.unpack = .infinity .positive

lemma hasUnits_zero : HasUnits 0 0 := .zero .positive

lemma isCanonical_one : IsCanonical (2 ^ 52) 1022 := ⟨by decide, by decide, .inl le_rfl⟩

lemma hasUnits_one : HasUnits 1 (2 ^ 52 * 2 ^ 1022) := by
  have hunpack : (1 : Float).toModel.unpack =
      .finite .positive (2 ^ 52) ((1022 : Nat) - 1074) (by decide) := rfl
  rw [HasUnits, hunpack]
  exact .finite (2 ^ 52) 1022 (by decide) isCanonical_one

lemma lt_zero_of_negative {x : Float} {m : Nat} {e : Int} {h : 0 < m}
    (hx : x.toModel.unpack = .finite .negative m e h) : x < 0 := by
  refine decide_eq_true (p := x.toModel < (0 : Float).toModel) ?_
  change UnpackedFloat.lt x.toModel.unpack (0 : Float).toModel.unpack = true
  rw [hx, unpack_zero]
  rfl

/-- A double that is neither negative nor infinite nor a NaN is a number of units. -/
lemma hasUnits_of_unpack {x : Float} (infinite : ∀ s, x.toModel.unpack ≠ .infinity s)
    (number : x.toModel.unpack ≠ .notANumber) (h : ¬ x < 0) : ∃ n, HasUnits x n := by
  have hpositive : ∀ {s : Sign} {m : Nat} {e : Int} {hm : 0 < m},
      x.toModel.unpack = .finite s m e hm → s = .positive := by
    intro s m e hm hx
    cases s with
    | positive => rfl
    | negative => exact absurd (lt_zero_of_negative hx) h
  have hfraction : (@unpackMantissa .binary64 x.toModel.toBits.toBitVec).toNat < 2 ^ 52 :=
    BitVec.isLt _
  have hlargest : (@unpackExponent .binary64 x.toModel.toBits.toBitVec).toNat < 2 ^ 11 :=
    BitVec.isLt _
  have hunits : ∀ {m : Nat} {e : Int} {hm : 0 < m} (j : Nat), e = (j : Int) - 1074 →
      IsCanonical m j → x.toModel.unpack = .finite .positive m e hm → HasUnits x (m * 2 ^ j) := by
    rintro m e hm j rfl canonical hu
    rw [HasUnits, hu]
    exact .finite m j hm canonical
  rcases unpack_cases x.toModel.toBits.toBitVec with ⟨-, -, hu⟩ | ⟨-, -, hu⟩ | ⟨-, -, hu⟩ |
    ⟨-, e, hm, he, hu⟩ | ⟨hexponent, hnormal, m, e, hm, hvalue, he, hu⟩
  · exact absurd hu (infinite _)
  · exact absurd hu number
  · refine ⟨0, ?_⟩
    rw [HasUnits, Float.Model.unpack, hu]
    exact .zero _
  · have hu : x.toModel.unpack = _ := hu
    rw [hpositive hu] at hu
    exact ⟨_, hunits 0 (by omega) ⟨by omega, by omega, .inr rfl⟩ hu⟩
  · have hu : x.toModel.unpack = _ := hu
    rw [hpositive hu] at hu
    have hzero : (@unpackExponent .binary64 x.toModel.toBits.toBitVec).toNat ≠ 0 :=
      fun heq => hnormal (BitVec.eq_of_toNat_eq heq)
    have hgreatest : (@unpackExponent .binary64 x.toModel.toBits.toBitVec).toNat ≠ 2047 :=
      fun heq => hexponent (BitVec.eq_of_toNat_eq heq)
    refine ⟨_, hunits ((@unpackExponent .binary64 x.toModel.toBits.toBitVec).toNat - 1) (by omega)
      ⟨by omega, by omega, .inl (by omega)⟩ hu⟩

/-- Finite doubles have encodings without the greatest exponent. -/
lemma unpackExponent_of_isFinite {x : Float} (h : isFinite x = true) :
    @unpackExponent .binary64 x.toModel.toBits.toBitVec ≠ -1#11 := by
  intro infinite
  rw [isFinite, exponentField_eq, bne_iff_ne] at h
  refine h ?_
  have hexponent := congrArg BitVec.toNat infinite
  change (x.toBits.toNat >>> 52) % 2 ^ 11 = 2047 at hexponent
  rwa [Nat.shiftRight_eq_div_pow] at hexponent

/-- A finite double that is not negative is a number of units. -/
lemma exists_hasUnits {x : Float} (finite : isFinite x = true) (h : ¬ x < 0) :
    ∃ n, HasUnits x n := by
  have hexponent := unpackExponent_of_isFinite finite
  rcases unpack_cases x.toModel.toBits.toBitVec with ⟨heq, -⟩ | ⟨heq, -⟩ | ⟨-, -, hu⟩ |
    ⟨-, e, hm, -, hu⟩ | ⟨-, -, m, e, hm, -, -, hu⟩
  · exact absurd heq hexponent
  · exact absurd heq hexponent
  all_goals
    have hu : x.toModel.unpack = _ := hu
    exact hasUnits_of_unpack (fun s infinite => nomatch hu.symm.trans infinite)
      (fun nan => nomatch hu.symm.trans nan) h

/-- So is a double that is not negative, but less than another one. -/
lemma hasUnits_of_lt {x y : Float} (h : ¬ x < 0) (hlt : x < y) : ∃ n, HasUnits x n := by
  have hless := unpack_lt hlt
  refine hasUnits_of_unpack (fun s infinite => ?_) (fun nan => ?_) h
  · cases s with
    | negative =>
      refine h (decide_eq_true (p := x.toModel < (0 : Float).toModel) ?_)
      change UnpackedFloat.lt x.toModel.unpack (0 : Float).toModel.unpack = true
      rw [infinite, unpack_zero]
      rfl
    | positive =>
      rw [infinite] at hless
      cases hy : y.toModel.unpack with
      | infinity s =>
        rw [hy] at hless
        cases s <;> cases hless
      | notANumber | zero _ | finite _ _ _ _ =>
        rw [hy] at hless
        cases hless
  · rw [nan] at hless
    cases hless

/-- A zero of either sign is not below zero. -/
lemma zero_not_negative (s : Sign) : ¬ (zero s).lt (zero .positive) = true := by
  cases s <;> decide

/-- What is not below zero is not negative. -/
lemma not_lt_of_zero_le {x : Float} (h : 0 ≤ x) : ¬ x < 0 := by
  have hle : ((0 : Float).toModel.unpack.compare x.toModel.unpack).any (·.isLE) = true :=
    of_decide_eq_true (p := (0 : Float).toModel ≤ x.toModel) h
  intro hlt
  have hlt := unpack_lt hlt
  rw [unpack_zero] at hle hlt
  generalize x.toModel.unpack = u at hle hlt
  cases u with
  | notANumber => cases hlt
  | zero s => exact zero_not_negative s hlt
  | infinity s | finite s _ _ _ =>
    cases s
    · cases hle
    · cases hlt

namespace HasUnits

variable {x y z : Float} {a b c : Nat}

lemma lt_iff (hx : HasUnits x a) (hy : HasUnits y b) : x < y ↔ a < b := by
  change decide (x.toModel < y.toModel) = true ↔ _
  rw [decide_eq_true_iff]
  change (x.toModel.unpack.compare y.toModel.unpack == some .lt) = true ↔ _
  rw [Counts.compare_eq hx hy, beq_iff_eq, Option.some_inj, Nat.compare_eq_lt]

lemma unique (hx : HasUnits x a) (hx' : HasUnits x b) : a = b := by
  have hcompare := (Counts.compare_eq hx hx').symm.trans (Counts.compare_eq hx hx)
  rw [Option.some_inj, Nat.compare_eq_eq.mpr (rfl : a = a), Nat.compare_eq_eq] at hcompare
  exact hcompare

lemma pos_iff (hx : HasUnits x a) : 0 < x ↔ 0 < a := hasUnits_zero.lt_iff hx

lemma not_neg (hx : HasUnits x a) : ¬ x < 0 := by
  rw [hx.lt_iff hasUnits_zero]
  exact Nat.not_lt_zero a

lemma zero_le (hx : HasUnits x a) : 0 ≤ x := by
  refine decide_eq_true (p := (0 : Float).toModel ≤ x.toModel) ?_
  change ((0 : Float).toModel.unpack.compare x.toModel.unpack).any (·.isLE) = true
  rw [Counts.compare_eq hasUnits_zero hx, Option.any_some]
  exact Nat.isLE_compare.mpr (Nat.zero_le a)

/-- A sum is the exact one, rounded, or infinite if that is beyond all finite doubles. -/
lemma add (hx : HasUnits x a) (hy : HasUnits y b) :
    HasUnits (x + y) (nearestNat (a + b)) ∨
      IsInfinite (x + y) ∧ ∃ j, 2046 ≤ j ∧ 2 ^ 52 * 2 ^ j ≤ nearestNat (a + b) := by
  have hsum : (x + y).toModel.unpack =
      (Float.Model.pack (.add .binary64 x.toModel.unpack y.toModel.unpack)).unpack := rfl
  have hkept : ∀ {u : UnpackedFloat} {n : Nat}, Counts u n →
      Counts (Float.Model.pack u).unpack (nearestNat n) := by
    intro u n hu
    rw [hu.unpack_pack, hu.nearestNat_eq]
    exact hu
  rw [HasUnits, IsInfinite, hsum]
  unfold HasUnits at hx hy
  generalize x.toModel.unpack = u at hx
  generalize y.toModel.unpack = v at hy
  cases hx with
  | zero s =>
    rw [Nat.zero_add]
    cases hy with
    | zero s' => cases s <;> cases s' <;> exact .inl (hkept (.zero _))
    | finite m j hm canonical => exact .inl (hkept (.finite m j hm canonical))
  | finite m j hm canonical =>
    cases hy with
    | zero s => exact .inl (hkept (.finite m j hm canonical))
    | finite m' j' hm' canonical' =>
      obtain ⟨c, k, hc, hadd, hvalue, high, full⟩ := counts_add_finite j j' hm hm'
      rw [hadd, ← hvalue]
      exact (unpack_pack_rounded hc high full).imp_right fun ⟨infinite, hk, hlarge⟩ =>
        ⟨infinite, k, hk, hlarge⟩

/-- Of no unit there are the two zeros. -/
lemma eq_zero (hx : HasUnits x 0) : x = 0 ∨ x = -0.0 := by
  have hpack : x = .ofModel (.pack x.toModel.unpack) := by rw [pack_unpack_model]
  have hcases : ∀ {u : UnpackedFloat} {n : Nat}, Counts u n → n = 0 → ∃ s, u = .zero s := by
    intro u n hu hn
    cases hu with
    | zero s => exact ⟨s, rfl⟩
    | finite m j hm canonical =>
      have := Nat.mul_pos hm (Nat.two_pow_pos j)
      omega
  obtain ⟨s, hs⟩ := hcases hx rfl
  rw [hs] at hpack
  cases s with
  | positive => exact .inl hpack
  | negative => exact .inr hpack

/-- A double that the exact sum does not exceed is not exceeded by the rounded sum either. -/
lemma add_le (hx : HasUnits x a) (hy : HasUnits y b) (hz : HasUnits z c) (h : a + b ≤ c) :
    ¬ z < x + y := by
  have hle : nearestNat (a + b) ≤ c := by
    obtain ⟨m, j, hm, hshort⟩ := nearestNat_short c
    have hclosest := nearestNat_closest (a + b) m j hm
    rw [← hshort, Counts.nearestNat_eq hz] at hclosest
    omega
  rcases hx.add hy with hsum | ⟨-, j, hj, hlarge⟩
  · rw [hz.lt_iff hsum]
    omega
  · have := Counts.lt_infinite hz hj
    omega

/-- Adding does not make a number less. -/
lemma le_add (hx : HasUnits x a) (hy : HasUnits y b) (hsum : HasUnits (x + y) c) : a ≤ c := by
  obtain ⟨m, j, hm, hshort⟩ := nearestNat_short a
  have hclosest := nearestNat_closest (a + b) m j hm
  rw [← hshort, Counts.nearestNat_eq hx] at hclosest
  rcases hx.add hy with hrounded | ⟨infinite, -⟩
  · obtain rfl := hsum.unique hrounded
    omega
  · unfold HasUnits at hsum
    rw [infinite] at hsum
    exact nomatch hsum

/-- A finite number that is not at most another one is greater. -/
lemma lt_of_not_le (hx : HasUnits x a) (finite : isFinite y = true) (h : ¬ y ≤ x) :
    ∃ b, HasUnits y b ∧ a < b := by
  have hle : y ≤ x ↔ (y.toModel.unpack.compare x.toModel.unpack).any (·.isLE) = true := by
    change decide (y.toModel ≤ x.toModel) = true ↔ _
    rw [decide_eq_true_iff]
    rfl
  have hneg : ¬ y < 0 := by
    intro hneg
    have hlt := unpack_lt hneg
    refine h (hle.mpr ?_)
    rw [unpack_zero] at hlt
    unfold HasUnits at hx
    generalize x.toModel.unpack = u at hx
    generalize y.toModel.unpack = v at hlt
    cases v with
    | notANumber => cases hlt
    | zero s => exact absurd hlt (zero_not_negative s)
    | infinity s | finite s _ _ _ =>
      cases s
      · cases hx <;> rfl
      · cases hlt
  obtain ⟨b, hy⟩ := exists_hasUnits finite hneg
  rw [hle, Counts.compare_eq hy hx, Option.any_some, Nat.isLE_compare] at h
  exact ⟨b, hy, Nat.lt_of_not_le h⟩

/-- A number that is added to zero is kept, whatever the sign of the zero. -/
lemma zero_add (hx : HasUnits x 0) (hy : HasUnits y b) (hb : 0 < b) : x + y = y := by
  have hkept : UnpackedFloat.add .binary64 x.toModel.unpack y.toModel.unpack =
      y.toModel.unpack := by
    unfold HasUnits at hy
    cases hv : y.toModel.unpack with
    | infinity s => exact nomatch hv ▸ hy
    | notANumber => exact nomatch hv ▸ hy
    | zero s =>
      rw [hv] at hy
      cases hy
      exact absurd hb (Nat.lt_irrefl 0)
    | finite s m e hm => rcases hx.eq_zero with rfl | rfl <;> rfl
  calc x + y
    _ = .ofModel (.pack (.add .binary64 x.toModel.unpack y.toModel.unpack)) := rfl
    _ = .ofModel (.pack y.toModel.unpack) := by rw [hkept]
    _ = y := by rw [pack_unpack_model]

/-- Adding zero keeps a number. -/
lemma add_zero (hx : HasUnits x a) (hy : HasUnits y 0) : HasUnits (x + y) a := by
  rcases hx.add hy with hsum | ⟨-, j, hj, hlarge⟩
  · rwa [Nat.add_zero, Counts.nearestNat_eq hx] at hsum
  · rw [Nat.add_zero, Counts.nearestNat_eq hx] at hlarge
    have := Counts.lt_infinite hx hj
    omega

end HasUnits

namespace IsInfinite

variable {x y : Float} {b : Nat}

/-- An infinity stays infinite, whatever is added. -/
lemma add (hx : IsInfinite x) (hy : HasUnits y b) : IsInfinite (x + y) := by
  have hsum : (x + y).toModel.unpack =
      (Float.Model.pack (.add .binary64 x.toModel.unpack y.toModel.unpack)).unpack := rfl
  have hkept : (Float.Model.pack (.infinity .positive)).unpack = .infinity .positive := by
    change UnpackedFloat.unpack .binary64 (packedInfinity .binary64 .positive) = _
    rfl
  unfold IsInfinite at hx
  rw [IsInfinite, hsum, hx]
  unfold HasUnits at hy
  generalize y.toModel.unpack = v at hy
  cases hy with
  | zero s => exact hkept
  | finite m j hm canonical => exact hkept

lemma eq (hx : IsInfinite x) : x = .ofModel (.pack (.infinity .positive)) := by
  unfold IsInfinite at hx
  calc x
    _ = .ofModel (.pack x.toModel.unpack) := by rw [pack_unpack_model]
    _ = .ofModel (.pack (.infinity .positive)) := by rw [hx]

end IsInfinite

end ServiceSim.Binary64
