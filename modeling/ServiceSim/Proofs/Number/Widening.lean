import ServiceSim.Expression.Value
import ServiceSim.Proofs.Number
import ServiceSim.Proofs.Number.Nearest

/-!
# Integers as doubles

`doubleOfInt` widens a 64-bit integer to a double.  The double is the nearest short integer
(`widened`), so doubles of integers compare as the nearest short integers do, and rounding one to an
integer again, in either way, gives the nearest short integer and not the integer itself.

The proofs follow the logical model of `Float`.  Its rounding shifts the bits beyond the first 53
out of a significand and looks at the last of them and at whether another one is set, which is a
division by a power of two that rounds a half to even.  What it makes of an integer is a normal
double, and for these packing and unpacking lose nothing.
-/

namespace ServiceSim.Binary64

open Float.Model Float.Model.UnpackedFloat

/-! ## Rounding significands -/

/-- What shifting bits out of a significand leaves: the quotient, whether the last bit shifted out
is set, and whether one before it is. -/
lemma shift_spec (m k : Nat) :
    let shifted := ExtendedMantissa.ofMantissaAndAccuracy m .exact >>> k
    shifted.mantissa = m / 2 ^ k ∧ (shifted.roundBit = true ↔ 2 ^ k ≤ 2 * (m % 2 ^ k)) ∧
      (shifted.stickyBit = true ↔ 2 * (m % 2 ^ k) ≠ 0 ∧ 2 * (m % 2 ^ k) ≠ 2 ^ k) := by
  have first : ExtendedMantissa.ofMantissaAndAccuracy m .exact >>> 0 = ⟨m, false, false⟩ := rfl
  have next (k : Nat) : ExtendedMantissa.ofMantissaAndAccuracy m .exact >>> (k + 1) =
      (ExtendedMantissa.ofMantissaAndAccuracy m .exact >>> k).shiftRightOne := rfl
  induction k with
  | zero => simp [first, Nat.mod_one]
  | succ k ih =>
    obtain ⟨hm, hround, hsticky⟩ := ih
    have hrest : m % 2 ^ k < 2 ^ k := Nat.mod_lt _ (Nat.two_pow_pos k)
    have hmod : m % 2 ^ (k + 1) = m % 2 ^ k + 2 ^ k * (m / 2 ^ k % 2) := Nat.mod_pow_succ
    have hdiv : m / 2 ^ (k + 1) = m / 2 ^ k / 2 := by rw [Nat.pow_succ, Nat.div_div_eq_div_mul]
    simp only [next, ExtendedMantissa.shiftRightOne, bne_iff_ne, Bool.or_eq_true]
    rw [hround, hsticky, hm, hmod, hdiv, Nat.pow_succ]
    refine ⟨rfl, ?_, ?_⟩
    · rcases Nat.mod_two_eq_zero_or_one (m / 2 ^ k) with h | h <;> rw [h] <;> omega
    · rcases Nat.mod_two_eq_zero_or_one (m / 2 ^ k) with h | h <;> rw [h] <;> omega

/-- Rounding by what has been shifted out is rounding the quotient. -/
lemma roundedMantissa_shift (m k : Nat) :
    (ExtendedMantissa.ofMantissaAndAccuracy m .exact >>> k).roundedMantissa = halfEven m k := by
  obtain ⟨hm, hround, hsticky⟩ := shift_spec m k
  generalize ExtendedMantissa.ofMantissaAndAccuracy m .exact >>> k = shifted at *
  obtain ⟨quotient, round, sticky⟩ := shifted
  dsimp only at hm hround hsticky
  have hpos := Nat.two_pow_pos k
  unfold ExtendedMantissa.roundedMantissa halfEven
  rw [← hm]
  cases round <;> cases sticky <;>
    simp only [true_iff, false_iff, Bool.false_eq_true] at hround hsticky
  · rw [if_pos (by omega)]
    rfl
  · rw [if_pos (by omega)]
    rfl
  · rw [if_neg (by omega), if_neg (by omega)]
    rfl
  · rw [if_neg (by omega), if_pos (by omega)]
    rfl

lemma targetExponent_eq (m : Nat) (e : Int) :
    Format.binary64.targetExponent (totalExponent m e) = max (m.log2 + e - 52) (-1074) := by
  have hmantissa : Format.binary64.mantissaBits = 53 := rfl
  have hleast : Format.binary64.minExponent = -1074 := rfl
  unfold Format.targetExponent totalExponent
  rw [hmantissa, hleast]
  omega

lemma shiftToTargetExponent_exact {m : Nat} {e : Int} (hm : 2 ^ 52 ≤ m) (he : -1074 ≤ e) :
    shiftToTargetExponent .binary64 m e .exact =
      (ExtendedMantissa.ofMantissaAndAccuracy m .exact >>> excess m, e + excess m) := by
  have hlog : 52 ≤ m.log2 := (Nat.le_log2 (by omega)).mpr hm
  have htarget : Format.binary64.targetExponent (totalExponent m e) - e = excess m := by
    rw [targetExponent_eq, excess]
    omega
  unfold shiftToTargetExponent shiftToExponent
  dsimp only
  rw [htarget, Int.toNat_natCast]

/-- A significand of 53 bits or more is rounded to exactly 53.  If that carries into a 54th bit, one
more shift takes the carry back. -/
lemma round_long {m r : Nat} {e : Int} (hm : 2 ^ 52 ≤ m) (he : -1074 ≤ e)
    (hr : halfEven m (excess m) = r) (s : Sign) :
    ∃ h, roundWithAccuracy .binary64 s m e .exact =
      .finite s (r / 2 ^ excess r) (e + excess m + excess r) h := by
  subst hr
  obtain ⟨hlow, hhigh⟩ := halfEven_bounds hm
  have hcarry := excess_of_le hlow hhigh
  have hquotient := (shift_spec (halfEven m (excess m)) (excess (halfEven m (excess m)))).1
  refine ⟨by omega, ?_⟩
  unfold roundWithAccuracy
  rw [shiftToTargetExponent_exact hm he]
  dsimp only
  rw [roundedMantissa_shift, shiftToTargetExponent_exact hlow (by omega)]
  dsimp only
  rw [dif_neg (by omega)]
  congr 1

/-- A significand of exactly 53 bits with zeros behind it loses the zeros. -/
lemma round_padded {m : Nat} {e : Int} (hlow : 2 ^ 52 ≤ m) (hhigh : m < 2 ^ 53) (j : Nat)
    (he : -1074 + j ≤ e) (s : Sign) (h : 0 < m) :
    roundWithAccuracy .binary64 s (m * 2 ^ j) (e - j) .exact = .finite s m e h := by
  have hexcess : excess (m * 2 ^ j) = j := by
    rw [excess_mul_two_pow hlow, excess_eq_zero hhigh, Nat.zero_add]
  have hr : halfEven (m * 2 ^ j) (excess (m * 2 ^ j)) = m := by
    have hscaled := halfEven_mul_two_pow m 0 j
    rw [Nat.zero_add, halfEven_zero] at hscaled
    rw [hexcess, hscaled]
  have hlong : 2 ^ 52 ≤ m * 2 ^ j := hlow.trans (Nat.le_mul_of_pos_right m (Nat.two_pow_pos j))
  obtain ⟨_, hround⟩ := round_long hlong (e := e - j) (by omega) hr s
  have hsignificand : m / 2 ^ excess m = m := by
    rw [excess_eq_zero hhigh, Nat.pow_zero, Nat.div_one]
  have hexponent : e - j + excess (m * 2 ^ j) + excess m = e := by
    rw [hexcess, excess_eq_zero hhigh]
    omega
  rw [hround, UnpackedFloat.finite.injEq]
  exact ⟨rfl, hsignificand, hexponent⟩

/-! ## Normal doubles -/

/-- The significands and exponents of normal doubles. -/
structure IsNormal (m : Nat) (e : Int) : Prop where
  low : 2 ^ 52 ≤ m
  high : m < 2 ^ 53
  least : -1074 ≤ e
  greatest : e ≤ 971

lemma packComponents_toNat (s : Sign) (e : BitVec 11) (m : BitVec 52) :
    (packComponents .binary64 s e m).toNat =
      s.toBitVec.toNat * 2 ^ 63 + e.toNat * 2 ^ 52 + m.toNat := by
  unfold packComponents
  rw [BitVec.toNat_append, BitVec.toNat_append, ← Nat.shiftLeft_add_eq_or_of_lt e.isLt,
    ← Nat.shiftLeft_add_eq_or_of_lt m.isLt, Nat.shiftLeft_eq, Nat.shiftLeft_eq]
  ring

lemma unpackSign_packComponents (s : Sign) (e : BitVec 11) (m : BitVec 52) :
    unpackSign (packComponents .binary64 s e m) = s.toBitVec := by
  apply BitVec.eq_of_toNat_eq
  change ((packComponents .binary64 s e m).toNat >>> 63) % 2 ^ 1 = _
  have hs := s.toBitVec.isLt
  have he := e.isLt
  have hm := m.isLt
  rw [packComponents_toNat, Nat.shiftRight_eq_div_pow]
  omega

section

variable {s : Sign} {m : Nat} {e : Int} {h : 0 < m}

/-- The three fields of a normal double. -/
lemma pack_of_isNormal (hn : IsNormal m e) :
    ∃ (exponent : BitVec 11) (fraction : BitVec 52), exponent.toNat = (e + 1075).toNat ∧
      fraction.toNat = m - 2 ^ 52 ∧
      UnpackedFloat.pack .binary64 (.finite s m e h) =
        packComponents .binary64 s exponent fraction := by
  obtain ⟨hlow, hhigh, hleast, hgreatest⟩ := hn
  have hexponent : (BitVec.ofNat 11 (e + 1075).toNat).toNat = (e + 1075).toNat := by
    rw [BitVec.toNat_ofNat, Nat.mod_eq_of_lt (by omega)]
  have hfraction : (BitVec.ofNat 52 (m - 2 ^ 52)).toNat = m - 2 ^ 52 := by
    rw [BitVec.toNat_ofNat, Nat.mod_eq_of_lt (by omega)]
  exact ⟨_, _, hexponent, hfraction, pack_normal s _ _ m e h (by omega) (by omega) (by omega)⟩

/-- Unpacking undoes packing. -/
lemma unpack_pack_of_isNormal (hn : IsNormal m e) :
    (Float.Model.pack (.finite s m e h)).unpack = .finite s m e h := by
  obtain ⟨exponent, fraction, hexponent, hfraction, hpack⟩ := pack_of_isNormal (s := s) (h := h) hn
  obtain ⟨hlow, hhigh, hleast, hgreatest⟩ := hn
  change UnpackedFloat.unpack .binary64 (UnpackedFloat.pack .binary64 (.finite s m e h)) = _
  have hsign : Sign.ofBitVec s.toBitVec = s := by cases s <;> rfl
  have hfinite : exponent ≠ -1#11 := by
    rintro rfl
    change 2047 = _ at hexponent
    omega
  have hnormal : exponent ≠ 0#11 := by
    rintro rfl
    change 0 = _ at hexponent
    omega
  have hcases := unpack_cases (packComponents .binary64 s exponent fraction)
  rw [unpackExponent_packComponents, unpackMantissa_packComponents, unpackSign_packComponents,
    hsign] at hcases
  rw [hpack]
  rcases hcases with ⟨heq, -⟩ | ⟨heq, -⟩ | ⟨heq, -⟩ | ⟨heq, -⟩ | ⟨-, -, n, x, _, hn, hx, hu⟩
  · exact absurd heq hfinite
  · exact absurd heq hfinite
  · exact absurd heq hnormal
  · exact absurd heq hnormal
  · obtain rfl : n = m := by omega
    obtain rfl : x = e := by omega
    exact hu

end

/-! ## Short integers as doubles -/

/-- The unpacked form of a short integer. -/
inductive Expresses : UnpackedFloat → Int → Prop
  | zero : Expresses (.zero .positive) 0
  | finite (s : Sign) (m j n : Nat) (h : 0 < m) (normal : IsNormal m (j - 52))
      (value : n * 2 ^ 52 = m * 2 ^ j) : Expresses (.finite s m (j - 52) h) (s.apply n)

namespace Expresses

variable {u v : UnpackedFloat} {a b : Int}

lemma unpack_pack (h : Expresses u a) : (Float.Model.pack u).unpack = u := by
  cases h with
  | zero => rfl
  | finite s m j n hm normal value => exact unpack_pack_of_isNormal normal

lemma neg (h : Expresses u a) (ha : a ≠ 0) : Expresses u.neg (-a) := by
  cases h with
  | zero => contradiction
  | finite s m j n hm normal value =>
    have hneg : -s.apply n = (-s).apply n := by
      cases s with
      | negative => exact Int.neg_neg _
      | positive => rfl
    rw [hneg]
    exact .finite (-s) m j n hm normal value

end Expresses

lemma unpack_one :
    Float.exactlyRepresentablePowersOfTen[0].toModel.unpack =
      .finite .positive (2 ^ 52) (-52) (by decide) := rfl

/-- A positive number of at most 53 bits is scaled to exactly 53, and not rounded. -/
lemma unpack_toFloat {n : Nat} (hpos : 0 < n) (h : n < 2 ^ 53) :
    ∃ hm, n.toUInt64.toFloat.toModel.unpack =
        .finite .positive (n * 2 ^ (52 - n.log2)) (n.log2 - 52) hm ∧
      IsNormal (n * 2 ^ (52 - n.log2)) (n.log2 - 52) := by
  have hlog : n.log2 < 53 := (Nat.log2_lt hpos.ne').mpr h
  have hlow : 2 ^ 52 ≤ n * 2 ^ (52 - n.log2) := by
    calc 2 ^ 52
      _ = 2 ^ n.log2 * 2 ^ (52 - n.log2) := by
        rw [← Nat.pow_add]
        congr 1
        omega
      _ ≤ n * 2 ^ (52 - n.log2) := Nat.mul_le_mul_right _ (Nat.log2_self_le hpos.ne')
  have hhigh : n * 2 ^ (52 - n.log2) < 2 ^ 53 := by
    calc n * 2 ^ (52 - n.log2)
      _ < 2 ^ (n.log2 + 1) * 2 ^ (52 - n.log2) :=
        Nat.mul_lt_mul_of_pos_right Nat.lt_log2_self (Nat.two_pow_pos _)
      _ = 2 ^ 53 := by
        rw [← Nat.pow_add]
        congr 1
        omega
  have hnormal : IsNormal (n * 2 ^ (52 - n.log2)) (n.log2 - 52) := ⟨hlow, hhigh, by omega, by omega⟩
  have hn : n.toUInt64.toNat = n := Nat.mod_eq_of_lt (by omega)
  have htarget : Format.binary64.targetExponent (totalExponent n 0) = n.log2 - 52 := by
    rw [targetExponent_eq]
    omega
  have hamount : ((0 : Int) - (n.log2 - 52)).toNat = 52 - n.log2 := by omega
  have hexponent : (0 : Int) - (52 - n.log2 : Nat) = n.log2 - 52 - (0 : Nat) := by omega
  have hround := round_padded hlow hhigh 0 (e := n.log2 - 52) (by omega) .positive (by omega)
  rw [Nat.pow_zero, Nat.mul_one] at hround
  refine ⟨by omega, ?_, hnormal⟩
  change (Float.Model.pack
    (UnpackedFloat.normalize .binary64 (n.toUInt64.toNat : Int) 0 .positive)).unpack = _
  rw [hn, UnpackedFloat.normalize, Int.compare_eq_gt.mpr (by omega)]
  dsimp only
  rw [Int.toNat_natCast, UnpackedFloat.round]
  dsimp only
  rw [htarget, decreaseExponent]
  dsimp only
  rw [hamount, Nat.shiftLeft_eq, hexponent, hround]
  exact unpack_pack_of_isNormal hnormal

/-- A number of at most 53 bits is multiplied by one, which again rounds nothing. -/
lemma ofNat_short {n : Nat} (hpos : 0 < n) (h : n < 2 ^ 53) :
    ∃ u, Float.ofNat n = .ofModel (.pack u) ∧ Expresses u (nearestNat n) := by
  obtain ⟨hm, hunpack, hnormal⟩ := unpack_toFloat hpos h
  have hlog : n.log2 < 53 := (Nat.log2_lt hpos.ne').mpr h
  have hproduct := round_padded hnormal.low hnormal.high 52 (e := n.log2 - 52) (by omega)
    .positive hm
  have hvalue : nearestNat n * 2 ^ 52 = n * 2 ^ (52 - n.log2) * 2 ^ n.log2 := by
    rw [nearestNat_of_lt h, Nat.mul_assoc, ← Nat.pow_add, Nat.sub_add_cancel (by omega)]
  refine ⟨_, ?_, .finite .positive _ _ _ hm hnormal hvalue⟩
  calc Float.ofNat n
    _ = n.toUInt64.toFloat * Float.exactlyRepresentablePowersOfTen[0] :=
      dif_pos (c := n < 2 ^ 53 ∧ 0 ≤ 22) ⟨h, by decide⟩
    _ = .ofModel (.pack (.mul .binary64 n.toUInt64.toFloat.toModel.unpack
        Float.exactlyRepresentablePowersOfTen[0].toModel.unpack)) := rfl
    _ = .ofModel (.pack (.finite .positive (n * 2 ^ (52 - n.log2)) (n.log2 - 52) hm)) := by
      rw [hunpack, unpack_one]
      exact congrArg (fun u => Float.ofModel (.pack u)) hproduct

/-- A longer number is multiplied by the zeroth power of ten, and rounded. -/
lemma ofNat_long {n : Nat} (hlong : 2 ^ 53 ≤ n) (hn : n < 2 ^ 64) :
    ∃ u, Float.ofNat n = .ofModel (.pack u) ∧ Expresses u (nearestNat n) := by
  have hlog : n.log2 < 64 := (Nat.log2_lt (by omega)).mpr hn
  have hexcess : excess (n * 2 ^ 53) = excess n + 53 := excess_mul_two_pow (by omega) 53
  have hr : halfEven (n * 2 ^ 53) (excess (n * 2 ^ 53)) = halfEven n (excess n) := by
    rw [hexcess, halfEven_mul_two_pow]
  obtain ⟨hm, hround⟩ :=
    round_long (m := n * 2 ^ 53) (e := -53) (by omega) (by omega) hr .positive
  obtain ⟨hleast, hgreatest⟩ := halfEven_bounds (n := n) (by omega)
  obtain ⟨hlow, hhigh, hback, hcarry⟩ := excess_of_le hleast hgreatest
  have hsmall : excess n ≤ 11 := by
    unfold excess
    omega
  have hexponent : (-53 : Int) + excess (n * 2 ^ 53) + excess (halfEven n (excess n)) =
      (excess n + excess (halfEven n (excess n)) + 52 : Nat) - 52 := by omega
  have hproduct : UnpackedFloat.ofScientific .binary64 n 0 =
      roundWithAccuracy .binary64 .positive (n * 2 ^ 53) (-53) .exact := by
    unfold UnpackedFloat.ofScientific
    rw [dif_neg (by omega), if_neg (by decide), if_neg (by simp), if_pos (by decide)]
    change roundWithAccuracy .binary64 .positive (n <<< 53 * 1) (-53) .exact = _
    rw [Nat.shiftLeft_eq, Nat.mul_one]
  have hvalue : nearestNat n * 2 ^ 52 = halfEven n (excess n) / 2 ^ excess (halfEven n (excess n)) *
      2 ^ (excess n + excess (halfEven n (excess n)) + 52) := by
    calc nearestNat n * 2 ^ 52
      _ = halfEven n (excess n) / 2 ^ excess (halfEven n (excess n)) *
          2 ^ excess (halfEven n (excess n)) * 2 ^ excess n * 2 ^ 52 := by rw [hback, nearestNat]
      _ = _ := by ring
  refine ⟨_, ?_, .finite .positive _ _ _ hm ⟨hlow, hhigh, by omega, by omega⟩ hvalue⟩
  calc Float.ofNat n
    _ = .ofModel (.pack (UnpackedFloat.ofScientific .binary64 n 0)) :=
      dif_neg (c := n < 2 ^ 53 ∧ 0 ≤ 22) (by omega)
    _ = _ := by rw [hproduct, hround, hexponent]

/-- **The double of an integer is that of the nearest short integer.** -/
theorem widened (n : Int64) :
    ∃ u, doubleOfInt n = .ofModel (.pack u) ∧ Expresses u (nearest n.toInt) := by
  have hnat {k : Nat} (hpos : 0 < k) (hk : k < 2 ^ 64) :
      ∃ u, Float.ofNat k = .ofModel (.pack u) ∧ Expresses u (nearestNat k) := by
    rcases Nat.lt_or_ge k (2 ^ 53) with h | h
    · exact ofNat_short hpos h
    · exact ofNat_long h hk
  have hlow := n.le_toInt
  have hhigh := n.toInt_lt
  unfold doubleOfInt
  cases hn : n.toInt with
  | ofNat k =>
    rw [hn, Int.ofNat_eq_natCast] at hhigh
    rcases Nat.eq_zero_or_pos k with rfl | hpos
    · exact ⟨.zero .positive, rfl, .zero⟩
    · have hnearest : nearest (Int.ofNat k) = nearestNat k := by
        rw [nearest, Int.ofNat_eq_natCast, Int.sign_eq_one_of_pos (by omega), Int.one_mul,
          Int.natAbs_natCast]
      rw [hnearest]
      exact hnat hpos (by omega)
  | negSucc k =>
    rw [hn] at hlow
    obtain ⟨u, hu, hexpresses⟩ := hnat (k := k + 1) (by omega) (by omega)
    have hnearest : nearest (Int.negSucc k) = -nearestNat (k + 1) := by
      rw [nearest, Int.sign_negSucc, Int.natAbs_negSucc, Int.neg_one_mul]
    have hne : (nearestNat (k + 1) : Int) ≠ 0 := by
      exact_mod_cast (nearestNat_pos (Nat.succ_pos k)).ne'
    refine ⟨u.neg, ?_, hnearest ▸ hexpresses.neg hne⟩
    calc Float.ofInt (Int.negSucc k)
      _ = .ofModel (.pack (.neg (Float.ofNat (k + 1)).toModel.unpack)) := rfl
      _ = .ofModel (.pack u.neg) := by rw [hu, hexpresses.unpack_pack]

/-! ## Comparing -/

/-- A lower exponent means a smaller number, whatever the significands. -/
lemma magnitude_lt {m m' j j' : Nat} (high : m < 2 ^ 53) (low : 2 ^ 52 ≤ m') (h : j < j') :
    m * 2 ^ j < m' * 2 ^ j' := by
  calc m * 2 ^ j
    _ < 2 ^ 53 * 2 ^ j := Nat.mul_lt_mul_of_pos_right high (Nat.two_pow_pos j)
    _ ≤ 2 ^ 52 * 2 ^ j' := by
      rw [← Nat.pow_add, ← Nat.pow_add]
      exact Nat.pow_le_pow_right (by decide) (by omega)
    _ ≤ m' * 2 ^ j' := Nat.mul_le_mul_right _ low

namespace Expresses

variable {u v : UnpackedFloat} {a b : Int}

lemma pos_of_significand {m j n : Nat} (hm : 0 < m) (value : n * 2 ^ 52 = m * 2 ^ j) : 0 < n := by
  have := Nat.mul_pos hm (Nat.two_pow_pos j)
  omega

/-- Magnitudes are ordered by their exponents, then by their significands. -/
lemma compare_magnitudes {m m' j j' n n' : Nat} (hm : IsNormal m (j - 52))
    (hm' : IsNormal m' (j' - 52)) (hn : n * 2 ^ 52 = m * 2 ^ j) (hn' : n' * 2 ^ 52 = m' * 2 ^ j') :
    (compare ((j : Int) - 52) (j' - 52)).then (compare m m') = compare (n : Int) n' := by
  rcases lt_trichotomy j j' with h | rfl | h
  · have := magnitude_lt hm.high hm'.low h
    rw [Int.compare_eq_lt.mpr (by omega), Int.compare_eq_lt.mpr (by omega)]
    rfl
  · have hpos := Nat.two_pow_pos j
    rw [Int.compare_eq_eq.mpr rfl, Ordering.eq_then]
    rcases lt_trichotomy m m' with h | rfl | h
    · have := Nat.mul_lt_mul_of_pos_right h hpos
      rw [Nat.compare_eq_lt.mpr h, Int.compare_eq_lt.mpr (by omega)]
    · rw [Nat.compare_eq_eq.mpr rfl, Int.compare_eq_eq.mpr (by omega)]
    · have := Nat.mul_lt_mul_of_pos_right h hpos
      rw [Nat.compare_eq_gt.mpr h, Int.compare_eq_gt.mpr (by omega)]
  · have := magnitude_lt hm'.high hm.low h
    rw [Int.compare_eq_gt.mpr (by omega), Int.compare_eq_gt.mpr (by omega)]
    rfl

lemma swap_compare (a b : Int) : (compare a b).swap = compare (-a) (-b) := by
  rcases lt_trichotomy a b with h | rfl | h
  · rw [Int.compare_eq_lt.mpr h, Int.compare_eq_gt.mpr (by omega)]
    rfl
  · rw [Int.compare_eq_eq.mpr rfl, Int.compare_eq_eq.mpr rfl]
    rfl
  · rw [Int.compare_eq_gt.mpr h, Int.compare_eq_lt.mpr (by omega)]
    rfl

/-- Unpacked forms compare as the integers that they express. -/
lemma compare_eq (hu : Expresses u a) (hv : Expresses v b) : u.compare v = some (compare a b) := by
  cases hu with
  | zero =>
    cases hv with
    | zero => rfl
    | finite s' m' j' n' hm' normal' value' =>
      have := pos_of_significand hm' value'
      cases s' <;> dsimp only [Sign.apply]
      · rw [Int.compare_eq_gt.mpr (by omega)]
        rfl
      · rw [Int.compare_eq_lt.mpr (by omega)]
        rfl
  | finite s m j n hm normal value =>
    have := pos_of_significand hm value
    cases hv with
    | zero =>
      cases s <;> dsimp only [Sign.apply]
      · rw [Int.compare_eq_lt.mpr (by omega)]
        rfl
      · rw [Int.compare_eq_gt.mpr (by omega)]
        rfl
    | finite s' m' j' n' hm' normal' value' =>
      have := pos_of_significand hm' value'
      have hmagnitudes := compare_magnitudes normal normal' value value'
      cases s <;> cases s' <;> dsimp only [Sign.apply]
      · rw [← swap_compare, ← hmagnitudes]
        rfl
      · rw [Int.compare_eq_lt.mpr (by omega)]
        rfl
      · rw [Int.compare_eq_gt.mpr (by omega)]
        rfl
      · exact congrArg some hmagnitudes

end Expresses

section

variable (a b : Int64)

lemma compare_doubleOfInt :
    (doubleOfInt a).toModel.unpack.compare (doubleOfInt b).toModel.unpack =
      some (compare (nearest a.toInt) (nearest b.toInt)) := by
  obtain ⟨u, hu, ha⟩ := widened a
  obtain ⟨v, hv, hb⟩ := widened b
  rw [hu, hv, ha.unpack_pack, hb.unpack_pack]
  exact ha.compare_eq hb

lemma doubleOfInt_lt : doubleOfInt a < doubleOfInt b ↔ nearest a.toInt < nearest b.toInt := by
  change decide ((doubleOfInt a).toModel < (doubleOfInt b).toModel) = true ↔ _
  rw [decide_eq_true_iff]
  change ((doubleOfInt a).toModel.unpack.compare (doubleOfInt b).toModel.unpack == some .lt) = true
    ↔ _
  rw [compare_doubleOfInt, beq_iff_eq, Option.some_inj, Int.compare_eq_lt]

lemma doubleOfInt_le : doubleOfInt a ≤ doubleOfInt b ↔ nearest a.toInt ≤ nearest b.toInt := by
  change decide ((doubleOfInt a).toModel ≤ (doubleOfInt b).toModel) = true ↔ _
  rw [decide_eq_true_iff]
  change ((doubleOfInt a).toModel.unpack.compare (doubleOfInt b).toModel.unpack).any (·.isLE) = true
    ↔ _
  rw [compare_doubleOfInt, Option.any_some, Int.isLE_compare]

lemma doubleOfInt_beq :
    (doubleOfInt a == doubleOfInt b) = true ↔ nearest a.toInt = nearest b.toInt := by
  change ((doubleOfInt a).toModel.unpack.compare (doubleOfInt b).toModel.unpack == some .eq) = true
    ↔ _
  rw [compare_doubleOfInt, beq_iff_eq, Option.some_inj, Int.compare_eq_eq]

end

/-! ## Rounding to an integer again -/

lemma exponentField_eq (x : Float) : exponentField x = x.toBits.toNat / 2 ^ 52 % 2 ^ 11 := by
  rw [exponentField, UInt64.toNat_and, UInt64.toNat_shiftRight]
  change x.toBits.toNat >>> 52 &&& (2 ^ 11 - 1) = _
  rw [Nat.and_two_pow_sub_one_eq_mod, Nat.shiftRight_eq_div_pow]

lemma fractionField_eq (x : Float) : fractionField x = x.toBits.toNat % 2 ^ 52 := by
  rw [fractionField, UInt64.toNat_and]
  exact Nat.and_two_pow_sub_one_eq_mod _ 52

/-- What is read off the encoding of a normal double. -/
lemma fields_of_isNormal {s : Sign} {m : Nat} {e : Int} {h : 0 < m} (hn : IsNormal m e) :
    let x := Float.ofModel (.pack (.finite s m e h))
    isFinite x = true ∧ magnitude x = ⟨m, e⟩ ∧ ∀ k : Nat, signed x k = s.apply k := by
  intro x
  obtain ⟨exponent, fraction, hexp, hfrac, hpack⟩ := pack_of_isNormal (s := s) (h := h) hn
  obtain ⟨hlow, hhigh, hleast, hgreatest⟩ := hn
  have hsign : s.toBitVec.toNat < 2 := s.toBitVec.isLt
  have hbits : x.toBits.toNat =
      s.toBitVec.toNat * 2 ^ 63 + (e + 1075).toNat * 2 ^ 52 + (m - 2 ^ 52) := by
    change (UnpackedFloat.pack .binary64 (.finite s m e h)).toNat = _
    rw [hpack, packComponents_toNat, hexp, hfrac]
  have hexponent : exponentField x = (e + 1075).toNat := by
    rw [exponentField_eq]
    omega
  have hfraction : fractionField x = m - 2 ^ 52 := by
    rw [fractionField_eq]
    omega
  refine ⟨?_, ?_, fun k => ?_⟩
  · rw [isFinite, hexponent, bne_iff_ne]
    omega
  · rw [magnitude, hexponent, if_neg (by omega), hfraction, Magnitude.mk.injEq]
    exact ⟨Nat.add_sub_cancel' hlow, by omega⟩
  · rw [signed, isNegative, sign_bit_eq]
    cases s with
    | negative =>
      change x.toBits.toNat = 1 * _ + _ + _ at hbits
      rw [if_pos (decide_eq_true (by omega))]
      rfl
    | positive =>
      change x.toBits.toNat = 0 * _ + _ + _ at hbits
      rw [if_neg (by rw [decide_eq_true_iff]; omega)]
      rfl

/-- Scaled back by its exponent, a significand gives the number that it stands for, whichever way
fractions are rounded: there is none. -/
lemma scaled_back {m j n : Nat} (value : n * 2 ^ 52 = m * 2 ^ j) :
    (0 ≤ (j : Int) - 52 → m * Nat.pow 2 ((j : Int) - 52).toNat = n) ∧
      (¬ 0 ≤ (j : Int) - 52 → m / Nat.pow 2 (-((j : Int) - 52)).toNat = n ∧
        (m + Nat.pow 2 ((-((j : Int) - 52)).toNat - 1)) /
          Nat.pow 2 (-((j : Int) - 52)).toNat = n) := by
  refine ⟨fun hj => ?_, fun hj => ?_⟩
  · have hshift : ((j : Int) - 52).toNat = j - 52 := by omega
    rw [hshift]
    refine Nat.eq_of_mul_eq_mul_right (Nat.two_pow_pos 52) ?_
    calc m * 2 ^ (j - 52) * 2 ^ 52
      _ = m * 2 ^ j := by rw [Nat.mul_assoc, ← Nat.pow_add, Nat.sub_add_cancel (by omega)]
      _ = n * 2 ^ 52 := value.symm
  · have hshift : (-((j : Int) - 52)).toNat = 52 - j := by omega
    have hm : m = n * 2 ^ (52 - j) := by
      refine Nat.eq_of_mul_eq_mul_right (Nat.two_pow_pos j) ?_
      rw [← value, Nat.mul_assoc, ← Nat.pow_add, Nat.sub_add_cancel (by omega)]
    have hpos := Nat.two_pow_pos (52 - j)
    have hhalf : 2 ^ (52 - j - 1) < 2 ^ (52 - j) := Nat.pow_lt_pow_right (by decide) (by omega)
    rw [hshift, hm]
    refine ⟨Nat.mul_div_cancel n hpos, ?_⟩
    calc (n * 2 ^ (52 - j) + 2 ^ (52 - j - 1)) / 2 ^ (52 - j)
      _ = 2 ^ (52 - j - 1) / 2 ^ (52 - j) + n := by
        rw [Nat.add_comm, Nat.add_mul_div_right _ _ hpos]
      _ = n := by rw [Nat.div_eq_of_lt hhalf, Nat.zero_add]

lemma Expresses.rounds {u : UnpackedFloat} {n : Int} (hu : Expresses u n) :
    isFinite (.ofModel (.pack u)) = true ∧ truncate (.ofModel (.pack u)) = n ∧
      round (.ofModel (.pack u)) = n := by
  cases hu with
  | zero => decide +kernel
  | finite s m j n hm normal value =>
    obtain ⟨hfinite, hmagnitude, hsigned⟩ := fields_of_isNormal (s := s) (h := hm) normal
    obtain ⟨hleft, hright⟩ := scaled_back value
    refine ⟨hfinite, ?_⟩
    unfold truncate round
    dsimp only
    rw [hmagnitude, hsigned, hsigned]
    dsimp only
    by_cases hj : 0 ≤ (j : Int) - 52
    · rw [if_pos hj, hleft hj, if_pos hj]
      exact ⟨rfl, rfl⟩
    · rw [if_neg hj, (hright hj).1, if_neg hj, (hright hj).2]
      exact ⟨rfl, rfl⟩

/-- **Rounding the double of an integer gives the nearest short integer**, toward zero as well as to
the nearest integer. -/
theorem rounded_doubleOfInt (n : Int64) :
    isFinite (doubleOfInt n) = true ∧ truncate (doubleOfInt n) = nearest n.toInt ∧
      round (doubleOfInt n) = nearest n.toInt := by
  obtain ⟨u, hu, hexpresses⟩ := widened n
  rw [hu]
  exact hexpresses.rounds

end ServiceSim.Binary64
