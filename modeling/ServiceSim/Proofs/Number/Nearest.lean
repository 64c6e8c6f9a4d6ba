import Mathlib.Algebra.Group.Int.Defs
import Mathlib.Algebra.Group.Nat.Defs
import Mathlib.Order.Basic
import Mathlib.Tactic.Lemma
import Mathlib.Tactic.Ring
import Mathlib.Tactic.SplitIfs

/-!
# The nearest integer of 53 bits

A double has 53 significant bits, so among the integers it has those that are a number of at most
53 bits times a power of two (`IsShort`).  `nearest` takes an integer to the nearest of these, and a
half to the even neighbour.  It is stated here without doubles; that it is what becomes of an
integer as a double is shown in `Proofs/Number/Widening`.

That no short integer is nearer (`nearest_closest`) is all that the rest needs: short integers stay
as they are, and the order of two integers is never turned round.
-/

namespace ServiceSim.Binary64

/-- The integers of at most 53 significant bits. -/
def IsShort (n : Int) : Prop := ∃ (m : Int) (k : Nat), m.natAbs ≤ 2 ^ 53 ∧ n = m * 2 ^ k

/-- A natural number divided by a power of two and rounded, a half to the even neighbour. -/
def halfEven (n k : Nat) : Nat :=
  if 2 * (n % 2 ^ k) < 2 ^ k then n / 2 ^ k
  else if 2 ^ k < 2 * (n % 2 ^ k) then n / 2 ^ k + 1
  else n / 2 ^ k + n / 2 ^ k % 2

/-- How many bits a natural number has beyond its first 53. -/
def excess (n : Nat) : Nat := n.log2 - 52

/-- The short number nearest to a natural number. -/
def nearestNat (n : Nat) : Nat := halfEven n (excess n) * 2 ^ excess n

/-- The short integer nearest to an integer; of two, the one with the even significand. -/
def nearest (n : Int) : Int := n.sign * nearestNat n.natAbs

/-! ## Rounded quotients -/

lemma halfEven_zero (n : Nat) : halfEven n 0 = n := by simp [halfEven, Nat.mod_one]

/-- Rounding goes to the quotient or beyond it, whichever is not farther. -/
lemma halfEven_cases (n k : Nat) :
    (halfEven n k = n / 2 ^ k ∧ 2 * (n % 2 ^ k) ≤ 2 ^ k) ∨
      (halfEven n k = n / 2 ^ k + 1 ∧ 2 ^ k ≤ 2 * (n % 2 ^ k)) := by
  unfold halfEven
  split_ifs <;> omega

/-- Dividend and divisor may be scaled. -/
lemma halfEven_mul_two_pow (n k j : Nat) : halfEven (n * 2 ^ j) (k + j) = halfEven n k := by
  have hj := Nat.two_pow_pos j
  unfold halfEven
  rw [Nat.pow_add, Nat.mul_mod_mul_right, Nat.mul_div_mul_right _ _ hj, ← Nat.mul_assoc]
  simp only [Nat.mul_lt_mul_right hj]

/-- No multiple of the power of two is nearer. -/
lemma halfEven_closest (n k c : Nat) :
    ((n : Int) - ↑(halfEven n k * 2 ^ k)).natAbs ≤ ((n : Int) - ↑(c * 2 ^ k)).natAbs := by
  have hsplit : n = n / 2 ^ k * 2 ^ k + n % 2 ^ k := (Nat.div_add_mod' n (2 ^ k)).symm
  have hrest : n % 2 ^ k < 2 ^ k := Nat.mod_lt _ (Nat.two_pow_pos k)
  have hup : (n / 2 ^ k + 1) * 2 ^ k = n / 2 ^ k * 2 ^ k + 2 ^ k := by
    rw [Nat.add_mul, Nat.one_mul]
  -- The number lies between two neighbouring multiples, and the candidate beyond one of them.
  have hc : c * 2 ^ k ≤ n / 2 ^ k * 2 ^ k ∨ n / 2 ^ k * 2 ^ k + 2 ^ k ≤ c * 2 ^ k := by
    rcases Nat.lt_or_ge (n / 2 ^ k) c with h | h
    · exact .inr (hup ▸ Nat.mul_le_mul_right _ h)
    · exact .inl (Nat.mul_le_mul_right _ h)
  generalize c * 2 ^ k = candidate at hc ⊢
  rcases halfEven_cases n k with ⟨h, hhalf⟩ | ⟨h, hhalf⟩
  · rw [h]
    generalize n / 2 ^ k * 2 ^ k = below at *
    omega
  · rw [h, hup]
    generalize n / 2 ^ k * 2 ^ k = below at *
    omega

/-! ## The bits beyond the first 53 -/

lemma excess_eq_zero {n : Nat} (h : n < 2 ^ 53) : excess n = 0 := by
  rcases Nat.eq_zero_or_pos n with rfl | hpos
  · rfl
  · have := (Nat.log2_lt hpos.ne').mpr h
    unfold excess
    omega

/-- Without the bits beyond, a long number has exactly 53. -/
lemma excess_spec {n : Nat} (h : 2 ^ 52 ≤ n) :
    2 ^ 52 * 2 ^ excess n ≤ n ∧ n < 2 ^ 53 * 2 ^ excess n := by
  have hlog : 52 ≤ n.log2 := (Nat.le_log2 (by omega)).mpr h
  have hlow : 52 + excess n = n.log2 := by
    unfold excess
    omega
  have hhigh : 53 + excess n = n.log2 + 1 := by omega
  rw [← Nat.pow_add, ← Nat.pow_add, hlow, hhigh]
  exact ⟨Nat.log2_self_le (by omega), Nat.lt_log2_self⟩

lemma log2_mul_two_pow {n : Nat} (h : 0 < n) (j : Nat) : (n * 2 ^ j).log2 = n.log2 + j := by
  have hj := Nat.two_pow_pos j
  rw [Nat.log2_eq_iff (Nat.mul_pos h hj).ne', Nat.pow_add, Nat.add_right_comm, Nat.pow_add]
  exact ⟨Nat.mul_le_mul_right _ (Nat.log2_self_le h.ne'),
    Nat.mul_lt_mul_of_pos_right Nat.lt_log2_self hj⟩

lemma excess_mul_two_pow {n : Nat} (h : 2 ^ 52 ≤ n) (j : Nat) :
    excess (n * 2 ^ j) = excess n + j := by
  have hlog : 52 ≤ n.log2 := (Nat.le_log2 (by omega)).mpr h
  rw [excess, log2_mul_two_pow (by omega), excess]
  omega

/-- The significand of a long number has 53 bits, or is the power of two above them. -/
lemma halfEven_bounds {n : Nat} (h : 2 ^ 52 ≤ n) :
    2 ^ 52 ≤ halfEven n (excess n) ∧ halfEven n (excess n) ≤ 2 ^ 53 := by
  obtain ⟨hlow, hhigh⟩ := excess_spec h
  have hpos := Nat.two_pow_pos (excess n)
  have hquotient : 2 ^ 52 ≤ n / 2 ^ excess n := (Nat.le_div_iff_mul_le hpos).mpr hlow
  have hbelow : n / 2 ^ excess n < 2 ^ 53 := (Nat.div_lt_iff_lt_mul hpos).mpr hhigh
  rcases halfEven_cases n (excess n) with ⟨hr, -⟩ | ⟨hr, -⟩ <;> omega

/-- A rounded significand has at most one bit too many, a zero, without which 53 are left. -/
lemma excess_of_le {r : Nat} (hlow : 2 ^ 52 ≤ r) (hhigh : r ≤ 2 ^ 53) :
    2 ^ 52 ≤ r / 2 ^ excess r ∧ r / 2 ^ excess r < 2 ^ 53 ∧
      r / 2 ^ excess r * 2 ^ excess r = r ∧ excess r ≤ 1 := by
  rcases hhigh.eq_or_lt with rfl | hlt
  · decide
  · rw [excess_eq_zero hlt]
    omega

/-! ## Natural numbers -/

lemma nearestNat_of_lt {n : Nat} (h : n < 2 ^ 53) : nearestNat n = n := by
  rw [nearestNat, excess_eq_zero h, halfEven_zero, Nat.pow_zero, Nat.mul_one]

lemma nearestNat_pos {n : Nat} (h : 0 < n) : 0 < nearestNat n := by
  rcases Nat.lt_or_ge n (2 ^ 53) with hlt | hge
  · rwa [nearestNat_of_lt hlt]
  · have := (halfEven_bounds (n := n) (by omega)).1
    exact Nat.mul_pos (by omega) (Nat.two_pow_pos _)

/-- No short natural number is nearer.  A candidate on a finer grid than that of the result lies
below all numbers of that many bits, where the coarser grid begins. -/
lemma nearestNat_closest (n m e : Nat) (hm : m ≤ 2 ^ 53) :
    ((n : Int) - ↑(nearestNat n)).natAbs ≤ ((n : Int) - ↑(m * 2 ^ e)).natAbs := by
  rcases Nat.lt_or_ge n (2 ^ 53) with h | h
  · rw [nearestNat_of_lt h]
    omega
  rcases Nat.lt_or_ge e (excess n) with he | he
  · have hle : m * 2 ^ e ≤ 2 ^ 52 * 2 ^ excess n := by
      calc m * 2 ^ e
        _ ≤ 2 ^ 53 * 2 ^ (excess n - 1) :=
          Nat.mul_le_mul hm (Nat.pow_le_pow_right (by decide) (by omega))
        _ = 2 ^ 52 * 2 ^ excess n := by
          rw [← Nat.pow_add, ← Nat.pow_add]
          congr 1
          omega
    have hlow := (excess_spec (n := n) (by omega)).1
    have hclosest := halfEven_closest n (excess n) (2 ^ 52)
    unfold nearestNat
    generalize 2 ^ 52 * 2 ^ excess n = floor at *
    omega
  · have hgrid : m * 2 ^ e = m * 2 ^ (e - excess n) * 2 ^ excess n := by
      rw [Nat.mul_assoc, ← Nat.pow_add, Nat.sub_add_cancel he]
    rw [hgrid]
    exact halfEven_closest n (excess n) _

lemma nearestNat_short (n : Nat) : ∃ m k, m ≤ 2 ^ 53 ∧ nearestNat n = m * 2 ^ k := by
  rcases Nat.lt_or_ge n (2 ^ 53) with h | h
  · exact ⟨n, 0, h.le, by rw [nearestNat_of_lt h, Nat.pow_zero, Nat.mul_one]⟩
  · exact ⟨_, _, (halfEven_bounds (by omega)).2, rfl⟩

/-! ## Integers -/

lemma isShort_of_natAbs_le {n : Int} (h : n.natAbs ≤ 2 ^ 53) : IsShort n :=
  ⟨n, 0, h, by rw [Int.pow_zero, Int.mul_one]⟩

lemma isShort_nearest (n : Int) : IsShort (nearest n) := by
  obtain ⟨m, k, hm, hn⟩ := nearestNat_short n.natAbs
  refine ⟨n.sign * m, k, ?_, ?_⟩
  · have hsign : n.sign.natAbs ≤ 1 := by
      rcases Int.sign_trichotomy n with h | h | h <;> rw [h] <;> decide
    rw [Int.natAbs_mul, Int.natAbs_natCast]
    exact (Nat.mul_le_mul_right m hsign).trans (by rwa [Nat.one_mul])
  · rw [nearest, hn]
    push_cast
    ring

/-- **No short integer is nearer to an integer than the nearest one.** -/
theorem nearest_closest {n m : Int} (hm : IsShort m) : (n - nearest n).natAbs ≤ (n - m).natAbs := by
  obtain ⟨s, e, hs, rfl⟩ := hm
  have hmagnitude := nearestNat_closest n.natAbs s.natAbs e hs
  have hzero := nearestNat_closest n.natAbs 0 0 (by omega)
  have habs : (s * 2 ^ e).natAbs = s.natAbs * 2 ^ e := by
    rw [Int.natAbs_mul, Int.natAbs_pow]
    rfl
  rw [← habs] at hmagnitude
  unfold nearest
  generalize s * 2 ^ e = m at *
  -- A candidate of the other sign is farther than zero.
  rcases lt_trichotomy n 0 with h | rfl | h
  · rw [Int.sign_eq_neg_one_of_neg h]
    omega
  · simp
  · rw [Int.sign_eq_one_of_pos h]
    omega

/-- Short integers stay, and only these. -/
lemma isShort_iff {n : Int} : IsShort n ↔ nearest n = n := by
  constructor
  · intro h
    have := nearest_closest (n := n) h
    omega
  · exact fun h => h ▸ isShort_nearest n

/-- The order of two integers is not turned round. -/
lemma nearest_mono {a b : Int} (h : a ≤ b) : nearest a ≤ nearest b := by
  have ha := nearest_closest (n := a) (isShort_nearest b)
  have hb := nearest_closest (n := b) (isShort_nearest a)
  rcases h.eq_or_lt with rfl | h
  · exact le_rfl
  · omega

/-- A 64-bit integer is taken to a 64-bit integer, unless it is one of the last 512. -/
lemma nearest_bounds {n : Int} (hlow : -2 ^ 63 ≤ n) (hhigh : n < 2 ^ 63) :
    -2 ^ 63 ≤ nearest n ∧ (nearest n < 2 ^ 63 ↔ n < 2 ^ 63 - 512) := by
  have hleast : nearest (-2 ^ 63) = -2 ^ 63 := by decide +kernel
  have hlast : nearest (2 ^ 63 - 513) = 2 ^ 63 - 1024 := by decide +kernel
  have hfirst : nearest (2 ^ 63 - 512) = 2 ^ 63 := by decide +kernel
  refine ⟨hleast ▸ nearest_mono hlow, fun h => ?_, fun h => ?_⟩
  · by_contra hge
    have := nearest_mono (a := 2 ^ 63 - 512) (b := n) (by omega)
    omega
  · have := nearest_mono (a := n) (b := 2 ^ 63 - 513) (by omega)
    omega

end ServiceSim.Binary64
