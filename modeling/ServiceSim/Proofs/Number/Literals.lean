import ServiceSim.Expression.Distribution
import ServiceSim.Proofs.Number

/-!
# Numbers that are no NaN

A NaN comes of an invalid operation: zero or an infinity divided by its like, or zero times an
infinity.  Reading a decimal divides by a power of ten or multiplies with one, and the powers of ten
are finite and not zero.  So no decimal is read as a NaN (`ofDecimal_defined`), however long it is and
however large its exponent, no integer is widened to one, and a change of sign makes none.

In the logical model of `Float` an operation packs its result, and packing makes a NaN of a NaN only.
-/

namespace ServiceSim.Binary64

open Float.Model Float.Model.UnpackedFloat

/-- The double is a number, be it an infinite one. -/
def IsDefined (x : Float) : Prop := x.isNaN = false

instance (x : Float) : Decidable (IsDefined x) := inferInstanceAs (Decidable (_ = false))

/-! ## Packing -/

lemma isDefined_iff {x : Float} : IsDefined x ↔ x.toModel.unpack ≠ .notANumber := by
  change x.toModel.unpack.isNaN = false ↔ _
  cases x.toModel.unpack with
  | notANumber => exact iff_of_false (by rintro ⟨⟩) fun h => h rfl
  | _ => exact iff_of_true rfl (by rintro ⟨⟩)

/-- An encoding whose exponent is not the greatest is no NaN. -/
lemma unpack_packComponents_defined (s : Sign) {e : BitVec 11} (m : BitVec 52) (h : e ≠ -1#11) :
    UnpackedFloat.unpack .binary64 (packComponents .binary64 s e m) ≠ .notANumber := by
  have hcases := unpack_cases (packComponents .binary64 s e m)
  rw [unpackExponent_packComponents, unpackMantissa_packComponents] at hcases
  rcases hcases with ⟨he, -⟩ | ⟨he, -⟩ | ⟨-, -, hu⟩ | ⟨-, _, _, -, hu⟩ | ⟨-, -, _, _, _, -, -, hu⟩
  · exact absurd he h
  · exact absurd he h
  all_goals
    rw [hu]
    rintro ⟨⟩

/-- Packing makes a NaN of a NaN only. -/
lemma isDefined_pack {u : UnpackedFloat} (h : u ≠ .notANumber) :
    IsDefined (.ofModel (.pack u)) := by
  rw [isDefined_iff]
  change UnpackedFloat.unpack .binary64 (UnpackedFloat.pack .binary64 u) ≠ .notANumber
  cases u with
  | notANumber => exact absurd rfl h
  | infinity s =>
    cases s
    all_goals rintro ⟨⟩
  | zero s =>
    cases s
    all_goals rintro ⟨⟩
  | finite s m e hm =>
    unfold UnpackedFloat.pack
    dsimp only
    split_ifs with hoverflow hfull
    · cases s
      all_goals rintro ⟨⟩
    · refine unpack_packComponents_defined s _ fun heq => hoverflow ?_
      -- an exponent that is not too large keeps clear of the one that NaNs have
      have hsmall := congrArg BitVec.toNat heq
      have hlimit : 2 ^ Format.binary64.exponentBits = 2048 := rfl
      have hgreatest : (-1#11).toNat = 2047 := rfl
      rw [BitVec.toNat_ofNat, hgreatest] at hsmall
      have hmod := Nat.mod_le
        (e + Format.binary64.exponentBias + Format.binary64.mantissaBitsWithoutImplicit).toNat
        (2 ^ Format.binary64.exponentBits)
      rw [hlimit] at hmod hsmall ⊢
      omega
    · exact unpack_packComponents_defined s _ (by decide)

/-! ## Operations -/

lemma dite_defined {c : Prop} [Decidable c] {u : c → UnpackedFloat} {v : ¬ c → UnpackedFloat}
    (hu : ∀ h, u h ≠ .notANumber) (hv : ∀ h, v h ≠ .notANumber) : dite c u v ≠ .notANumber := by
  by_cases h : c
  · rw [dif_pos h]
    exact hu h
  · rw [dif_neg h]
    exact hv h

lemma ite_defined {c : Prop} [Decidable c] {u v : UnpackedFloat} (hu : u ≠ .notANumber)
    (hv : v ≠ .notANumber) : (if c then u else v) ≠ .notANumber :=
  dite_defined (fun _ => hu) fun _ => hv

lemma roundWithAccuracy_defined (s : Sign) (m : Nat) (e : Int) (accuracy : Accuracy) :
    roundWithAccuracy .binary64 s m e accuracy ≠ .notANumber := by
  unfold roundWithAccuracy
  dsimp only
  exact dite_defined (fun _ => by rintro ⟨⟩) fun _ => by rintro ⟨⟩

lemma mul_defined {u : UnpackedFloat} (h : u ≠ .notANumber) (s : Sign) {m : Nat} (e : Int)
    (hm : 0 < m) : UnpackedFloat.mul .binary64 u (.finite s m e hm) ≠ .notANumber := by
  cases u with
  | notANumber => exact absurd rfl h
  | finite => exact roundWithAccuracy_defined _ _ _ _
  | _ => rintro ⟨⟩

lemma div_defined {u : UnpackedFloat} (h : u ≠ .notANumber) (s : Sign) {m : Nat} (e : Int)
    (hm : 0 < m) : UnpackedFloat.div .binary64 u (.finite s m e hm) ≠ .notANumber := by
  cases u with
  | notANumber => exact absurd rfl h
  | finite => exact roundWithAccuracy_defined _ _ _ _
  | _ => rintro ⟨⟩

lemma isDefined_neg {x : Float} (h : IsDefined x) : IsDefined (-x) := by
  rw [isDefined_iff] at h
  change IsDefined (.ofModel (.pack x.toModel.unpack.neg))
  refine isDefined_pack ?_
  cases hu : x.toModel.unpack with
  | notANumber => exact absurd hu h
  | _ => rintro ⟨⟩

/-! ## Decimals and integers -/

/-- The powers of ten that are kept as doubles are finite and not zero. -/
lemma unpack_power (i : Fin 23) :
    ∃ s m e hm, Float.exactlyRepresentablePowersOfTen[i].toModel.unpack = .finite s m e hm := by
  have hall : ∀ j : Fin 23, (match Float.exactlyRepresentablePowersOfTen[j].toModel.unpack with
      | .finite _ _ _ _ => true
      | _ => false) = true := by decide +kernel
  have hi := hall i
  cases hu : Float.exactlyRepresentablePowersOfTen[i].toModel.unpack with
  | finite s m e hm => exact ⟨s, m, e, hm, rfl⟩
  | _ =>
    rw [hu] at hi
    cases hi

lemma isDefined_toFloat (n : UInt64) : IsDefined n.toFloat := by
  change IsDefined (.ofModel (.pack (UnpackedFloat.normalize .binary64 n.toNat 0 .positive)))
  refine isDefined_pack ?_
  rw [UnpackedFloat.normalize]
  split
  · exact roundWithAccuracy_defined _ _ _ _
  · rintro ⟨⟩
  · exact roundWithAccuracy_defined _ _ _ _

lemma unpackedScientific_defined (m : Nat) (e : Int) :
    UnpackedFloat.ofScientific .binary64 m e ≠ .notANumber := by
  have hfinite : ∀ s m e hm, finite s m e hm ≠ notANumber := by
    rintro _ _ _ _ ⟨⟩
  unfold UnpackedFloat.ofScientific
  refine dite_defined (fun _ => by rintro ⟨⟩) fun hm => ?_
  refine ite_defined (by rintro ⟨⟩) (ite_defined (by rintro ⟨⟩) (ite_defined ?_ ?_))
  · exact mul_defined (hfinite _ _ _ _) _ _ _
  · exact div_defined (hfinite _ _ _ _) _ _ _

lemma ofScientific_defined (m : Nat) (s : Bool) (e : Nat) : IsDefined (Float.ofScientific m s e) := by
  rw [Float.ofScientific]
  split
  next h =>
    have hm := isDefined_iff.mp (isDefined_toFloat m.toUInt64)
    obtain ⟨sign, m', e', hm', hpower⟩ := unpack_power ⟨e, Nat.lt_succ_of_le h.2⟩
    dsimp only
    split_ifs
    · exact isDefined_pack (hpower ▸ div_defined hm sign e' hm')
    · exact isDefined_pack (hpower ▸ mul_defined hm sign e' hm')
  · exact isDefined_pack (unpackedScientific_defined _ _)

lemma isDefined_ofNat (n : Nat) : IsDefined (Float.ofNat n) := ofScientific_defined n false 0

/-- No integer is widened to a NaN. -/
lemma isDefined_doubleOfInt (n : Int64) : IsDefined (doubleOfInt n) := by
  rw [doubleOfInt]
  cases n.toInt with
  | ofNat k => exact isDefined_ofNat k
  | negSucc k => exact isDefined_neg (isDefined_ofNat k.succ)

/-- **No decimal is read as a NaN.** -/
theorem ofDecimal_defined (d : Decimal) : IsDefined (Number.ofDecimal d) := by
  rw [Number.ofDecimal]
  split_ifs
  · decide +kernel
  · decide +kernel
  · decide +kernel
  · exact ofScientific_defined _ _ _

end ServiceSim.Binary64
