import ServiceSim.Number.Binary64
import Mathlib.Algebra.Group.Int.Defs
import Mathlib.Algebra.Group.Nat.Defs
import Mathlib.Tactic.Lemma
import Mathlib.Tactic.SplitIfs

/-!
# Arithmetic with zero

What the clock needs to know about doubles: taking zero away changes nothing, and neither does
adding a number to zero, unless it is the negative zero.  Both are read off the logical model of
`Float`, in which an operation unpacks its operands and packs its result, so the heart of the matter
is that packing undoes unpacking.
-/

namespace ServiceSim.Binary64

open Float.Model

/-! ## Packing what has been unpacked -/

/-- An encoding is put together from its three fields. -/
lemma packComponents_fields (b : BitVec Format.binary64.numBits) :
    UnpackedFloat.packComponents .binary64 (.ofBitVec (UnpackedFloat.unpackSign b))
      (UnpackedFloat.unpackExponent b) (UnpackedFloat.unpackMantissa b) = b := by
  have sign : ∀ s : BitVec 1, (UnpackedFloat.Sign.ofBitVec s).toBitVec = s := by decide
  unfold UnpackedFloat.packComponents
  rw [sign]
  change BitVec.extractLsb' 63 1 b ++ BitVec.extractLsb' 52 11 b ++ BitVec.extractLsb' 0 52 b = b
  have upper : BitVec.extractLsb' 63 1 b ++ BitVec.extractLsb' 52 11 b = BitVec.extractLsb' 52 12 b :=
    BitVec.extractLsb'_append_extractLsb'_eq_extractLsb' rfl
  have whole : BitVec.extractLsb' 52 12 b ++ BitVec.extractLsb' 0 52 b = BitVec.extractLsb' 0 64 b :=
    BitVec.extractLsb'_append_extractLsb'_eq_extractLsb' rfl
  rw [upper, whole]
  exact BitVec.extractLsb'_eq_self

lemma pack_subnormal (s : UnpackedFloat.Sign) (m : BitVec 52) (hm : 0 < m.toNat) (e : Int)
    (he : e = -1074) :
    UnpackedFloat.pack .binary64 (.finite s m.toNat e hm) =
      UnpackedFloat.packComponents .binary64 s 0 m := by
  have hlog : m.toNat.log2 < 52 := (Nat.log2_lt (by omega)).mpr m.isLt
  have hbits : ¬ m.toNat.log2 + 1 = Format.binary64.mantissaBits := by
    have : Format.binary64.mantissaBits = 53 := rfl
    omega
  subst he
  unfold UnpackedFloat.pack
  dsimp only
  rw [if_neg (by decide), if_neg hbits, BitVec.ofNat_toNat, BitVec.setWidth_eq]
  rfl

lemma pack_normal (s : UnpackedFloat.Sign) (m : BitVec 52) (e : BitVec 11) (n : Nat) (x : Int)
    (hn : 0 < n) (hnm : n = 2 ^ 52 + m.toNat) (hx : x = (e.toNat : Int) - 1075)
    (he : e.toNat + 1 < 2 ^ 11) :
    UnpackedFloat.pack .binary64 (.finite s n x hn) =
      UnpackedFloat.packComponents .binary64 s e m := by
  have hm := m.isLt
  have hlow : 52 ≤ n.log2 := (Nat.le_log2 (by omega)).mpr (by omega)
  have hhigh : n.log2 < 53 := (Nat.log2_lt (by omega)).mpr (by omega)
  have hbits : n.log2 + 1 = Format.binary64.mantissaBits := by
    have : Format.binary64.mantissaBits = 53 := rfl
    omega
  have hbias : (x + Format.binary64.exponentBias + Format.binary64.mantissaBitsWithoutImplicit).toNat
      = e.toNat := by
    have hbias : Format.binary64.exponentBias = 1023 := rfl
    have hmantissa : Format.binary64.mantissaBitsWithoutImplicit = 52 := rfl
    rw [hbias, hmantissa]
    omega
  unfold UnpackedFloat.pack
  dsimp only
  rw [hbias, if_neg (by omega), if_pos hbits, BitVec.ofNat_toNat,
    BitVec.setWidth_eq]
  congr 1
  apply BitVec.eq_of_toNat_eq
  rw [BitVec.toNat_ofNat, hnm]
  omega

/-- What an encoding unpacks to, by its fields. -/
lemma unpack_cases (b : BitVec Format.binary64.numBits) :
    let sign := UnpackedFloat.Sign.ofBitVec (UnpackedFloat.unpackSign b)
    let exponent := UnpackedFloat.unpackExponent b
    let mantissa := UnpackedFloat.unpackMantissa b
    let unpacked := UnpackedFloat.unpack .binary64 b
    (exponent = -1#11 ∧ mantissa = 0#52 ∧ unpacked = .infinity sign) ∨
      (exponent = -1#11 ∧ mantissa ≠ 0#52 ∧ unpacked = .notANumber) ∨
      (exponent = 0#11 ∧ mantissa = 0#52 ∧ unpacked = .zero sign) ∨
      (exponent = 0#11 ∧ ∃ x hm, x = -1074 ∧ unpacked = .finite sign mantissa.toNat x hm) ∨
      (exponent ≠ -1#11 ∧ exponent ≠ 0#11 ∧ ∃ n x hn, n = 2 ^ 52 + mantissa.toNat ∧
        x = (exponent.toNat : Int) - 1075 ∧ unpacked = .finite sign n x hn) := by
  intro sign exponent mantissa unpacked
  have hbias : Format.binary64.exponentBias = 1023 := rfl
  by_cases infinite : exponent = -1#11
  · by_cases hm : mantissa = 0#52
    · exact .inl ⟨infinite, hm, (if_pos infinite).trans (if_pos hm)⟩
    · exact .inr (.inl ⟨infinite, hm, (if_pos infinite).trans (if_neg hm)⟩)
  by_cases zero : exponent = 0#11
  · by_cases hm : mantissa = 0#52
    · exact .inr (.inr (.inl ⟨zero, hm, ((if_neg infinite).trans (if_pos zero)).trans (dif_pos hm)⟩))
    · refine .inr (.inr (.inr (.inl ⟨zero, _, _, ?_,
        ((if_neg infinite).trans (if_pos zero)).trans (dif_neg hm)⟩)))
      rw [hbias]
      change ((exponent.toNat : Int) - (1023 + 52) + 1) = -1074
      rw [zero]
      rfl
  · refine .inr (.inr (.inr (.inr ⟨infinite, zero, _, _, _, ?_, rfl,
      (if_neg infinite).trans (if_neg zero)⟩)))
    change 2 ^ 52 ||| mantissa.toNat = _
    rw [Nat.or_comm, Nat.or_two_pow_eq_add_of_lt mantissa.isLt, Nat.add_comm]

/-- Packing undoes unpacking, except that it forgets which NaN it was. -/
lemma pack_unpack (b : BitVec Format.binary64.numBits)
    (h : UnpackedFloat.unpack .binary64 b ≠ .notANumber) :
    UnpackedFloat.pack .binary64 (UnpackedFloat.unpack .binary64 b) = b := by
  have hb := packComponents_fields b
  rcases unpack_cases b with ⟨infinite, hm, hu⟩ | ⟨-, -, hu⟩ | ⟨zero, hm, hu⟩ | ⟨zero, x, hm, hx, hu⟩ |
    ⟨finite, -, n, x, hn, hnm, hx, hu⟩
  · rw [infinite, hm] at hb
    rw [hu]
    exact hb
  · exact absurd hu h
  · rw [zero, hm] at hb
    rw [hu]
    exact hb
  · rw [zero] at hb
    rw [hu, pack_subnormal _ _ hm x hx]
    exact hb
  · have hlt := (UnpackedFloat.unpackExponent b).isLt
    have hne : (UnpackedFloat.unpackExponent b).toNat ≠ 2047 := fun hh =>
      finite (BitVec.eq_of_toNat_eq hh)
    simp only [Format.binary64] at hlt hne
    rw [hu, pack_normal _ _ _ n x hn hnm hx (by omega)]
    exact hb

/-- A double is what its unpacked form packs to. -/
lemma pack_unpack_model (x : Float.Model) : Float.Model.pack x.unpack = x := by
  have injective : ∀ x y : Float.Model, x.toBits = y.toBits → x = y := by
    rintro ⟨_, _⟩ ⟨_, _⟩ rfl
    rfl
  obtain ⟨bits, valid⟩ := x
  have h : UnpackedFloat.pack .binary64 (UnpackedFloat.unpack .binary64 bits.toBitVec)
      = bits.toBitVec := by
    by_cases hnan : UnpackedFloat.unpack .binary64 bits.toBitVec = .notANumber
    · rcases unpack_cases bits.toBitVec with ⟨-, -, hu⟩ | ⟨exponent, mantissa, hu⟩ | ⟨-, -, hu⟩ |
        ⟨-, _, _, -, hu⟩ | ⟨-, -, _, _, _, -, -, hu⟩
      · cases hu.symm.trans hnan
      · rw [hu]
        exact (valid.eq_packedNaN exponent mantissa).symm
      · cases hu.symm.trans hnan
      · cases hu.symm.trans hnan
      · cases hu.symm.trans hnan
    · exact pack_unpack _ hnan
  exact injective _ _ (congrArg UInt64.ofBitVec h)

/-! ## Sums and differences -/

lemma unpack_lt {x y : Float} (h : x < y) : x.toModel.unpack.lt y.toModel.unpack = true :=
  of_decide_eq_true (p := x.toModel < y.toModel) h

lemma unpack_zero : (0 : Float).toModel.unpack = .zero .positive := rfl

/-- Taking zero away changes nothing. -/
lemma sub_zero (x : Float) : x - 0 = x := by
  have h : UnpackedFloat.sub .binary64 x.toModel.unpack (.zero .positive) = x.toModel.unpack := by
    cases x.toModel.unpack with
    | infinity s => rfl
    | notANumber => rfl
    | zero s => cases s <;> rfl
    | finite s m e hm => rfl
  calc x - 0
    _ = .ofModel (.pack (.sub .binary64 x.toModel.unpack (0 : Float).toModel.unpack)) := rfl
    _ = .ofModel (.pack x.toModel.unpack) := by rw [unpack_zero, h]
    _ = x := by rw [pack_unpack_model]

/-- Adding a positive number to zero gives that number. -/
lemma zero_add_of_pos (x : Float) (hx : 0 < x) : 0 + x = x := by
  have h : UnpackedFloat.add .binary64 (.zero .positive) x.toModel.unpack = x.toModel.unpack := by
    replace hx := unpack_lt hx
    rw [unpack_zero] at hx
    cases hu : x.toModel.unpack with
    | infinity s => rfl
    | notANumber => rfl
    | zero s =>
      rw [hu] at hx
      cases s <;> contradiction
    | finite s m e hm => rfl
  calc 0 + x
    _ = .ofModel (.pack (.add .binary64 (0 : Float).toModel.unpack x.toModel.unpack)) := rfl
    _ = .ofModel (.pack x.toModel.unpack) := by rw [unpack_zero, h]
    _ = x := by rw [pack_unpack_model]

/-! ## Encodings -/

/-- Decoding forgets nothing but which NaN it was. -/
lemma unpack_ofBits (e : UInt64) (h : (Float.ofBits e).isNaN = false) :
    UnpackedFloat.unpack .binary64 e.toBitVec ≠ .notANumber := by
  intro hnan
  have : Float.ofBits e = .ofModel (.pack .notANumber) := by
    simp only [Float.ofBits, Float.Model.ofBits, hnan]
  rw [this] at h
  contradiction

lemma toBits_ofBits (e : UInt64) (h : (Float.ofBits e).isNaN = false) :
    (Float.ofBits e).toBits = e := by
  change UInt64.ofBitVec (UnpackedFloat.pack .binary64 (UnpackedFloat.unpack .binary64 e.toBitVec))
    = e
  rw [pack_unpack _ (unpack_ofBits e h)]

/-- The first bit of an encoding, in numbers. -/
lemma sign_bit_eq (e : UInt64) : (e >>> 63 != 0) = decide (2 ^ 63 ≤ e.toNat) := by
  have hlt := e.toNat_lt
  have hshift : (e >>> 63).toNat = e.toNat / 2 ^ 63 := by
    rw [UInt64.toNat_shiftRight]
    exact Nat.shiftRight_eq_div_pow e.toNat 63
  rw [Bool.eq_iff_iff, bne_iff_ne, decide_eq_true_iff, ne_eq, ← UInt64.toNat_inj, hshift]
  change ¬ e.toNat / 2 ^ 63 = 0 ↔ _
  omega

/-- The order of encodings, in numbers. -/
lemma rank_eq (e : UInt64) :
    rank e = if e.toNat < 2 ^ 63 then (e.toNat : Int) else 2 ^ 63 - e.toNat - 1 := by
  have hlt := e.toNat_lt
  have hmag : (e &&& 0x7fffffffffffffff).toNat = e.toNat % 2 ^ 63 := by
    rw [UInt64.toNat_and]
    exact Nat.and_two_pow_sub_one_eq_mod e.toNat 63
  unfold rank
  simp only [hmag, sign_bit_eq, decide_eq_true_eq]
  split_ifs <;> omega

/-- No two encodings have the same place. -/
lemma rank_injective : Function.Injective rank := by
  intro e f h
  have he := e.toNat_lt
  have hf := f.toNat_lt
  rw [rank_eq, rank_eq] at h
  apply UInt64.toNat_inj.mp
  split_ifs at h <;> omega

/-- An encoding above that of zero has no sign. -/
lemma rank_pos_iff (e : UInt64) : 0 < rank e ↔ 0 < e.toNat ∧ e.toNat < 2 ^ 63 := by
  rw [rank_eq]
  split_ifs <;> omega

/-- A double whose encoding is above that of zero in the order of encodings is positive, unless it
is a NaN. -/
lemma ofBits_pos (e : UInt64) (h : (Float.ofBits e).isNaN = false) (pos : 0 < rank e) :
    0 < Float.ofBits e := by
  have hu := unpack_ofBits e h
  have hbits : (Float.ofBits e).toModel.toBits = e := toBits_ofBits e h
  have hfields := packComponents_fields e.toBitVec
  obtain ⟨hpos, hlt⟩ := (rank_pos_iff e).mp pos
  have hsign : @UnpackedFloat.unpackSign .binary64 e.toBitVec = 0 := by
    apply BitVec.eq_of_toNat_eq
    change (e.toNat >>> 63) % 2 ^ 1 = 0
    rw [Nat.shiftRight_eq_div_pow]
    omega
  refine decide_eq_true (p := (0 : Float).toModel < (Float.ofBits e).toModel) ?_
  change UnpackedFloat.lt (0 : Float).toModel.unpack (Float.ofBits e).toModel.unpack = true
  rw [unpack_zero, Float.Model.unpack, hbits]
  rcases unpack_cases e.toBitVec with ⟨-, -, hcase⟩ | ⟨-, -, hcase⟩ | ⟨zero, mantissa, hcase⟩ |
    ⟨-, _, _, -, hcase⟩ | ⟨-, -, _, _, _, -, -, hcase⟩
  · rw [hcase, hsign]
    rfl
  · exact absurd hcase hu
  · rw [hsign, zero, mantissa] at hfields
    have hzero : e.toNat = 0 := by
      rw [← UInt64.toNat_toBitVec, ← hfields]
      rfl
    omega
  · rw [hcase, hsign]
    rfl
  · rw [hcase, hsign]
    rfl

end ServiceSim.Binary64
