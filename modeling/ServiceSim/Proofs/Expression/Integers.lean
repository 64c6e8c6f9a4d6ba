import Mathlib.Algebra.Order.Group.Unbundled.Int
import ServiceSim.Proofs.Evaluation.Determinism
import ServiceSim.Proofs.Number.Widening

/-!
# Integers in expressions

What the operators and functions do with integers.  Arithmetic is exact: a result of 64 bits is
returned, any other is an overflow (`IsExact`).  There are two exceptions, in which a result of 64
bits counts as an overflow too (`OverflowsEarly`).

Comparisons, `Trunc` and `Round` widen integers to doubles first.  They are exact for short
integers, those of at most 53 significant bits, and others take part as the nearest of these.  So
different integers may compare as equal, although their order is never turned round, and rounding
may change an integer, or fail for one of the last 512 of the range.
-/

namespace ServiceSim

open Binary64

/-! ## Integers of 64 bits -/

lemma int64?_eq_some {n : Int} (h : -2 ^ 63 ≤ n ∧ n < 2 ^ 63) :
    ∃ m : Int64, m.toInt = n ∧ int64? n = some m := by
  have hleast : Int64.minValue.toInt = -2 ^ 63 := rfl
  have hgreatest : Int64.maxValue.toInt = 2 ^ 63 - 1 := rfl
  have hrange : Int64.minValue.toInt ≤ n ∧ n ≤ Int64.maxValue.toInt := by omega
  exact ⟨Int64.ofInt n, Int64.toInt_ofInt_of_le (by omega) (by omega), if_pos hrange⟩

lemma int64?_eq_none {n : Int} (h : ¬ (-2 ^ 63 ≤ n ∧ n < 2 ^ 63)) : int64? n = none := by
  have hleast : Int64.minValue.toInt = -2 ^ 63 := rfl
  have hgreatest : Int64.maxValue.toInt = 2 ^ 63 - 1 := rfl
  exact if_neg (by omega)

lemma int64?_toInt (n : Int64) : int64? n.toInt = some n := by
  rw [int64?, if_pos ⟨n.minValue_le_toInt, n.toInt_le⟩, Int64.ofInt_toInt]

/-! ## Evaluating operands -/

section

variable {scope : Scope} {source source' source'' : Source} {left right : Tree} {a b : Value}

lemma evaluate_literal (scope : Scope) (value : Value) (source : Source) :
    (Tree.literal value).evaluate scope source = (.ok value, source) := by
  rw [Tree.evaluate]
  rfl

lemma evaluate_unary (op : UnaryOp) (hleft : left.evaluate scope source = (.ok a, source')) :
    (Tree.unary op left).evaluate scope source = (Operation.unary op a, source') := by
  rw [Tree.evaluate, bind_run, hleft]
  rfl

lemma evaluate_binary {op : BinaryOp} (strict : op ≠ .and ∧ op ≠ .or)
    (hleft : left.evaluate scope source = (.ok a, source'))
    (hright : right.evaluate scope source' = (.ok b, source'')) :
    (Tree.binary op left right).evaluate scope source = (Operation.binary op a b, source'') := by
  rw [Tree.evaluate]
  · rw [bind_run, hleft]
    dsimp only
    rw [bind_run, hright]
    rfl
  · exact strict.1
  · exact strict.2

lemma evaluate_call_one (function : String)
    (hleft : left.evaluate scope source = (.ok a, source')) :
    (Tree.call function [left]).evaluate scope source = Function.call function [a] source' := by
  rw [Tree.evaluate, bind_run, Tree.evaluateAll, bind_run, hleft]
  dsimp only
  rw [bind_run, Tree.evaluateAll]
  rfl

lemma evaluate_call_two (function : String)
    (hleft : left.evaluate scope source = (.ok a, source'))
    (hright : right.evaluate scope source' = (.ok b, source'')) :
    (Tree.call function [left, right]).evaluate scope source =
      Function.call function [a, b] source'' := by
  rw [Tree.evaluate, bind_run, Tree.evaluateAll, bind_run, hleft]
  dsimp only
  rw [bind_run, Tree.evaluateAll, bind_run, hright]
  dsimp only
  rw [bind_run, Tree.evaluateAll]
  rfl

end

namespace Operation

/-! ## Arithmetic -/

/-- The outcome of an exact operation: its result, if that has 64 bits, and else an overflow. -/
def IsExact (operator : String) (n : Int) (outcome : Except EvalError Value) : Prop :=
  (∃ m : Int64, m.toInt = n ∧ outcome = .ok (.int m)) ∨
    (¬ (-2 ^ 63 ≤ n ∧ n < 2 ^ 63) ∧ outcome = .error (.invalidOperands operator .overflow))

/-- The integer that an arithmetic operator stands for. -/
def result : BinaryOp → Int → Int → Int
  | .add, a, b => a + b
  | .sub, a, b => a - b
  | .mul, a, b => a * b
  | .mod, a, b => a.tmod b
  | _, a, b => a ^ b.toNat

/-- The second operands with which an arithmetic operator has an integer for its result. -/
def Takes : BinaryOp → Int → Prop
  | .add, _ | .sub, _ | .mul, _ => True
  | .mod, b => b ≠ 0
  | .pow, b => 0 ≤ b
  | _, _ => False

/-- Operands that count as an overflow although the result has 64 bits: the least integer divided by
minus one, of which the quotient would not fit, and powers of zero and of both units beyond 32 bits
of the exponent. -/
def OverflowsEarly : BinaryOp → Int → Int → Prop
  | .mod, a, b => a = -2 ^ 63 ∧ b = -1
  | .pow, a, b => a.natAbs ≤ 1 ∧ 2 ^ 32 ≤ b
  | _, _, _ => False

lemma OverflowsEarly.takes {op : BinaryOp} {a b : Int} (h : OverflowsEarly op a b) :
    Takes op b := by
  cases op with
  | mod => exact fun hzero => absurd (h.2.symm.trans hzero) (by decide)
  | pow => exact (by decide : (0 : Int) ≤ 2 ^ 32).trans h.2
  | _ => exact h.elim

lemma Takes.strict {op : BinaryOp} {b : Int} (h : Takes op b) : op ≠ .and ∧ op ≠ .or :=
  ⟨by rintro rfl; exact h, by rintro rfl; exact h⟩

lemma exactly_isExact (operator : String) (n : Int) : IsExact operator n (exactly operator n) := by
  unfold exactly
  by_cases h : -2 ^ 63 ≤ n ∧ n < 2 ^ 63
  · obtain ⟨m, hm, hint⟩ := int64?_eq_some h
    exact .inl ⟨m, hm, by rw [hint]⟩
  · exact .inr ⟨h, by rw [int64?_eq_none h]⟩

/-- From the 64th power on, every integer but zero and the units has left the range. -/
lemma pow_out_of_range {a : Int} {k : Nat} (ha : 2 ≤ a.natAbs) (hk : 64 ≤ k) :
    ¬ (-2 ^ 63 ≤ a ^ k ∧ a ^ k < 2 ^ 63) := by
  have hpow : 2 ^ 64 ≤ (a ^ k).natAbs := by
    calc 2 ^ 64
      _ ≤ 2 ^ k := Nat.pow_le_pow_right (by decide) hk
      _ ≤ a.natAbs ^ k := Nat.pow_le_pow_left ha k
      _ = (a ^ k).natAbs := (Int.natAbs_pow a k).symm
  omega

/-- A power that is not computed lies beyond the range. -/
lemma power?_spec (a : Int) (k : Nat) :
    power? a k = some (a ^ k) ∨ power? a k = none ∧ 2 ≤ a.natAbs ∧ 64 ≤ k := by
  unfold power?
  by_cases hzero : a = 0
  · rw [if_pos hzero, hzero, zero_pow_eq]
    exact .inl rfl
  by_cases hone : a = 1
  · rw [if_neg hzero, if_pos hone, hone, one_pow]
    exact .inl rfl
  by_cases hminus : a = -1
  · rw [if_neg hzero, if_neg hone, if_pos hminus, hminus, neg_one_pow_eq_ite]
    simp only [Nat.even_iff, true_or]
  rw [if_neg hzero, if_neg hone, if_neg hminus]
  by_cases hshort : k < 64
  · exact .inl (if_pos hshort)
  · exact .inr ⟨if_neg hshort, by omega, by omega⟩

lemma remainder_isExact {a b : Int64} (hb : b.toInt ≠ 0)
    (hlate : ¬ OverflowsEarly .mod a.toInt b.toInt) :
    IsExact "%" (a.toInt.tmod b.toInt) (integers .mod a b) := by
  have hzero : ¬ b = 0 := fun h => hb (h ▸ rfl)
  have hearly : ¬ (a = Int64.minValue ∧ b = -1) := by
    rintro ⟨rfl, rfl⟩
    exact hlate ⟨rfl, rfl⟩
  unfold integers
  dsimp only
  rw [if_neg hzero, if_neg hearly]
  exact exactly_isExact _ _

lemma power_isExact {a b : Int64} (hb : 0 ≤ b.toInt)
    (hlate : ¬ OverflowsEarly .pow a.toInt b.toInt) :
    IsExact "^" (a.toInt ^ b.toInt.toNat) (integers .pow a b) := by
  have hnegative : ¬ b < 0 := fun h => absurd (Int64.lt_iff_toInt_lt.mp h) (not_lt.mpr hb)
  have hsize : (UInt32.size : Int) = 2 ^ 32 := rfl
  unfold integers
  dsimp only
  rw [if_neg hnegative]
  split_ifs with hlong
  · have ha : 2 ≤ a.toInt.natAbs := by
      by_contra hunit
      exact hlate ⟨by omega, by omega⟩
    exact .inr ⟨pow_out_of_range ha (by omega), rfl⟩
  · rcases power?_spec a.toInt b.toInt.toNat with h | ⟨h, ha, hk⟩
    · rw [h]
      exact exactly_isExact _ _
    · rw [h]
      exact .inr ⟨pow_out_of_range ha hk, rfl⟩

/-- Arithmetic operators are exact, apart from the early overflows. -/
lemma binary_isExact {op : BinaryOp} {a b : Int64} (htakes : Takes op b.toInt)
    (hlate : ¬ OverflowsEarly op a.toInt b.toInt) :
    IsExact op.symbol (result op a.toInt b.toInt) (binary op (.int a) (.int b)) := by
  cases op with
  | add => exact exactly_isExact _ _
  | sub => exact exactly_isExact _ _
  | mul => exact exactly_isExact _ _
  | mod => exact remainder_isExact htakes hlate
  | pow => exact power_isExact htakes hlate
  | _ => exact htakes.elim

/-- An early overflow is one, although the result has 64 bits. -/
lemma binary_overflowsEarly {op : BinaryOp} {a b : Int64}
    (hearly : OverflowsEarly op a.toInt b.toInt) :
    -2 ^ 63 ≤ result op a.toInt b.toInt ∧ result op a.toInt b.toInt < 2 ^ 63 ∧
      binary op (.int a) (.int b) = .error (.invalidOperands op.symbol .overflow) := by
  cases op with
  | mod =>
    obtain ⟨ha, hb⟩ := hearly
    obtain rfl : a = Int64.minValue := Int64.toInt_inj.mp ha
    obtain rfl : b = -1 := Int64.toInt_inj.mp hb
    exact ⟨by decide, by decide, rfl⟩
  | pow =>
    obtain ⟨ha, hb⟩ := hearly
    have hnegative : ¬ b < 0 := fun h => absurd (Int64.lt_iff_toInt_lt.mp h) (not_lt.mpr (by
      change (0 : Int) ≤ _
      omega))
    have hunit : (a.toInt ^ b.toInt.toNat).natAbs ≤ 1 := by
      rw [Int.natAbs_pow]
      exact pow_le_one₀ (Nat.zero_le _) ha
    refine ⟨?_, ?_, ?_⟩
    · change _ ≤ a.toInt ^ b.toInt.toNat
      omega
    · change a.toInt ^ b.toInt.toNat < _
      omega
    · change integers .pow a b = _
      unfold integers
      dsimp only
      exact (if_neg hnegative).trans (if_pos hb)
  | _ => exact hearly.elim

/-- **Integer arithmetic is exact or an error.**  With integers for its operands, an arithmetic
operator gives its exact result if that has 64 bits, and an overflow if it has more.  A result of 64
bits counts as an overflow for the early overflows and for no other operands. -/
theorem integers_stay_exact (scope : Scope) {source source' source'' : Source} {left right : Tree}
    {a b : Int64} (hleft : left.evaluate scope source = (.ok (.int a), source'))
    (hright : right.evaluate scope source' = (.ok (.int b), source'')) :
    (∀ op, Takes op b.toInt → ¬ OverflowsEarly op a.toInt b.toInt →
      ∃ outcome, (Tree.binary op left right).evaluate scope source = (outcome, source'') ∧
        IsExact op.symbol (result op a.toInt b.toInt) outcome) ∧
    (∀ op, OverflowsEarly op a.toInt b.toInt →
      (-2 ^ 63 ≤ result op a.toInt b.toInt ∧ result op a.toInt b.toInt < 2 ^ 63) ∧
        (Tree.binary op left right).evaluate scope source =
          (.error (.invalidOperands op.symbol .overflow), source'')) ∧
    (b.toInt = 0 →
      (Tree.binary .mod left right).evaluate scope source = (.error .divisionByZero, source'')) ∧
    (∃ outcome, (Tree.unary .neg left).evaluate scope source = (outcome, source') ∧
      IsExact UnaryOp.neg.symbol (-a.toInt) outcome) ∧
    ∃ outcome, (Tree.call "Abs" [left]).evaluate scope source = (outcome, source') ∧
      IsExact "Abs" |a.toInt| outcome := by
  refine ⟨fun op htakes hlate => ?_, fun op hearly => ?_, fun hzero => ?_, ?_, ?_⟩
  · exact ⟨_, evaluate_binary htakes.strict hleft hright, binary_isExact htakes hlate⟩
  · obtain ⟨hlow, hhigh, hoverflow⟩ := binary_overflowsEarly hearly
    refine ⟨⟨hlow, hhigh⟩, ?_⟩
    rw [evaluate_binary hearly.takes.strict hleft hright, hoverflow]
  · obtain rfl : b = 0 := Int64.toInt_inj.mp hzero
    have strict : BinaryOp.mod ≠ .and ∧ BinaryOp.mod ≠ .or := by decide
    exact evaluate_binary strict hleft hright
  · exact ⟨_, evaluate_unary .neg hleft, exactly_isExact _ _⟩
  · refine ⟨_, evaluate_call_one "Abs" hleft, ?_⟩
    rw [Int.abs_eq_natAbs]
    exact exactly_isExact _ _

/-- A sum beyond the range, and the two kinds of early overflows. -/
theorem integers_stay_exact_least :
    let least : Tree := .literal (.int Int64.minValue)
    let minus : Tree := .literal (.int (-1))
    let many : Tree := .literal (.int 4294967296)
    (∃ outcome, (Tree.binary .add least minus).evaluate .empty silent = (outcome, silent) ∧
      IsExact "+" (-2 ^ 63 - 1) outcome) ∧
    (Tree.binary .mod least minus).evaluate .empty silent =
      (.error (.invalidOperands "%" .overflow), silent) ∧
    (Tree.binary .pow minus many).evaluate .empty silent =
      (.error (.invalidOperands "^" .overflow), silent) := by
  intro least minus many
  have hleast := evaluate_literal .empty (.int Int64.minValue) silent
  have hminus := evaluate_literal .empty (.int (-1)) silent
  have hmany := evaluate_literal .empty (.int 4294967296) silent
  obtain ⟨hexact, hearly, -⟩ := integers_stay_exact .empty hleast hminus
  obtain ⟨-, hearly', -⟩ := integers_stay_exact .empty hminus hmany
  exact ⟨hexact .add trivial id, (hearly .mod ⟨rfl, rfl⟩).2,
    (hearly' .pow ⟨by decide, by decide⟩).2⟩

/-! ## Comparisons -/

/-- The comparison of integers that an operator stands for. -/
def holds : BinaryOp → Int → Int → Bool
  | .eq, a, b => a = b
  | .ne, a, b => a ≠ b
  | .lt, a, b => a < b
  | .le, a, b => a ≤ b
  | .gt, a, b => b < a
  | .ge, a, b => b ≤ a
  | _, _, _ => false

/-- The operators that compare. -/
def comparisons : List BinaryOp := [.eq, .ne, .lt, .le, .gt, .ge]

/-- Integers are compared as the nearest short ones. -/
lemma binary_compares {op : BinaryOp} (hop : op ∈ comparisons) (a b : Int64) :
    binary op (.int a) (.int b) = .ok (.bool (holds op (nearest a.toInt) (nearest b.toInt))) := by
  have heq : (doubleOfInt a == doubleOfInt b) = decide (nearest a.toInt = nearest b.toInt) :=
    Bool.eq_iff_iff.mpr ((doubleOfInt_beq a b).trans decide_eq_true_iff.symm)
  have hlt (a b : Int64) :
      decide (doubleOfInt a < doubleOfInt b) = decide (nearest a.toInt < nearest b.toInt) :=
    decide_eq_decide.mpr (doubleOfInt_lt a b)
  have hle (a b : Int64) :
      decide (doubleOfInt a ≤ doubleOfInt b) = decide (nearest a.toInt ≤ nearest b.toInt) :=
    decide_eq_decide.mpr (doubleOfInt_le a b)
  have answered {p q : Bool} (h : p = q) :
      (.ok (.bool p) : Except EvalError Value) = .ok (.bool q) := by rw [h]
  simp only [comparisons, List.mem_cons, List.not_mem_nil, or_false] at hop
  rcases hop with rfl | rfl | rfl | rfl | rfl | rfl
  · exact answered heq
  · exact answered ((congrArg not heq).trans decide_not.symm)
  · exact answered (hlt a b)
  · exact answered (hle a b)
  · exact answered (hlt b a)
  · exact answered (hle b a)

/-- Integers are told apart rightly if the nearest short ones are different. -/
lemma holds_nearest (op : BinaryOp) {a b : Int} (h : nearest a ≠ nearest b) :
    holds op (nearest a) (nearest b) = holds op a b := by
  rcases lt_trichotomy a b with hab | rfl | hab
  · have := lt_of_le_of_ne (nearest_mono hab.le) h
    cases op <;> simp only [holds, decide_eq_decide] <;> omega
  · exact absurd rfl h
  · have := lt_of_le_of_ne (nearest_mono hab.le) h.symm
    cases op <;> simp only [holds, decide_eq_decide] <;> omega

/-- If the nearest short ones are the same, integers compare as equal ones do. -/
lemma holds_nearest_iff (op : BinaryOp) (a b : Int) :
    holds op (nearest a) (nearest b) = holds op a b ↔
      nearest a ≠ nearest b ∨ holds op a b = holds op a a := by
  by_cases h : nearest a = nearest b
  · have hself : holds op (nearest a) (nearest b) = holds op a a := by
      rw [h]
      cases op <;> simp [holds]
    rw [hself, eq_comm, or_iff_right (not_not.mpr h)]
  · exact iff_of_true (holds_nearest op h) (.inl h)

/-- **Integers compare as the nearest short integers.**  Short integers thus compare as integers.
Others do if the nearest short ones are different; if these are the same, the answer is the one for
equal integers, which is the right one for some comparisons and wrong for others. -/
theorem integers_compare_as_nearest (scope : Scope) {source source' source'' : Source}
    {left right : Tree} {a b : Int64} (hleft : left.evaluate scope source = (.ok (.int a), source'))
    (hright : right.evaluate scope source' = (.ok (.int b), source'')) {op : BinaryOp}
    (hop : op ∈ comparisons) :
    ∃ answer, (Tree.binary op left right).evaluate scope source = (.ok (.bool answer), source'') ∧
      answer = holds op (nearest a.toInt) (nearest b.toInt) ∧
      (answer = holds op a.toInt b.toInt ↔ nearest a.toInt ≠ nearest b.toInt ∨
        holds op a.toInt b.toInt = holds op a.toInt a.toInt) ∧
      (IsShort a.toInt → IsShort b.toInt → answer = holds op a.toInt b.toInt) := by
  have strict : op ≠ .and ∧ op ≠ .or :=
    ⟨by rintro rfl; exact absurd hop (by decide), by rintro rfl; exact absurd hop (by decide)⟩
  refine ⟨_, ?_, rfl, holds_nearest_iff op _ _, fun ha hb => ?_⟩
  · rw [evaluate_binary strict hleft hright, binary_compares hop]
  · rw [isShort_iff.mp ha, isShort_iff.mp hb]

/-- The first integer that is not short counts as equal to the one before it. -/
theorem integers_compare_as_nearest_long :
    (Tree.binary .eq (.literal (.int 9007199254740993))
      (.literal (.int 9007199254740992))).evaluate .empty silent = (.ok (.bool true), silent) := by
  have hlong := evaluate_literal .empty (.int 9007199254740993) silent
  have hshort := evaluate_literal .empty (.int 9007199254740992) silent
  have hop : BinaryOp.eq ∈ comparisons := by decide
  obtain ⟨answer, heval, hanswer, -⟩ := integers_compare_as_nearest .empty hlong hshort hop
  have hnearest : holds .eq (nearest 9007199254740993) (nearest 9007199254740992) = true := by
    decide +kernel
  obtain rfl : answer = true := hanswer.trans hnearest
  exact heval

end Operation

namespace Function

/-! ## Functions -/

/-- Rounding takes an integer to the nearest short one, if that has 64 bits. -/
lemma whole_int (function : String) {rounding : Float → Int} {n : Int64}
    (h : rounding (doubleOfInt n) = nearest n.toInt) :
    (n.toInt < 2 ^ 63 - 512 →
      ∃ m : Int64, m.toInt = nearest n.toInt ∧ whole function rounding (.int n) = .ok (.int m)) ∧
    (2 ^ 63 - 512 ≤ n.toInt → whole function rounding (.int n) =
      .error (.invalidOperands function (.outOfRange (doubleOfInt n)))) := by
  have hrange := nearest_bounds n.le_toInt n.toInt_lt
  have hrounded : (if isFinite (doubleOfInt n) then int64? (rounding (doubleOfInt n)) else none) =
      int64? (nearest n.toInt) := by
    rw [if_pos (rounded_doubleOfInt n).1, h]
  refine ⟨fun hlt => ?_, fun hge => ?_⟩
  · obtain ⟨m, hm, hint⟩ := int64?_eq_some ⟨hrange.1, hrange.2.mpr hlt⟩
    refine ⟨m, hm, ?_⟩
    simp only [whole, numeric, Value.toDouble?, bind, Except.bind, hrounded, hint]
    rfl
  · have hint : int64? (nearest n.toInt) = none := int64?_eq_none (by omega)
    simp only [whole, numeric, Value.toDouble?, bind, Except.bind, hrounded, hint]

/-- Rounding keeps the short integers and no others. -/
lemma whole_eq_self_iff (function : String) {rounding : Float → Int} {n : Int64}
    (h : rounding (doubleOfInt n) = nearest n.toInt) :
    whole function rounding (.int n) = .ok (.int n) ↔ IsShort n.toInt := by
  obtain ⟨hinside, hbeyond⟩ := whole_int function h
  rw [isShort_iff]
  constructor
  · intro hself
    rcases lt_or_ge n.toInt (2 ^ 63 - 512) with hlt | hge
    · obtain ⟨m, hm, hwhole⟩ := hinside hlt
      cases hself.symm.trans hwhole
      exact hm.symm
    · cases hself.symm.trans (hbeyond hge)
  · intro hnearest
    have hlt := (nearest_bounds n.le_toInt n.toInt_lt).2.mp (hnearest.trans_lt n.toInt_lt)
    obtain ⟨m, hm, hwhole⟩ := hinside hlt
    obtain rfl : m = n := Int64.toInt_inj.mp (hm.trans hnearest)
    exact hwhole

/-- `Trunc` and `Round` round in different ways, but the double of an integer to the same one. -/
lemma call_rounding {function : String} (hfunction : function ∈ ["Trunc", "Round"]) (n : Int64) :
    ∃ rounding, rounding (doubleOfInt n) = nearest n.toInt ∧
      call function [.int n] = Sampler.ofExcept (whole function rounding (.int n)) := by
  obtain ⟨-, htruncate, hround⟩ := rounded_doubleOfInt n
  simp only [List.mem_cons, List.not_mem_nil, or_false] at hfunction
  rcases hfunction with rfl | rfl
  · exact ⟨Binary64.truncate, htruncate, rfl⟩
  · exact ⟨Binary64.round, hround, rfl⟩

lemma toInt_lesser (a b : Int64) : (lesser a b).toInt = min a.toInt b.toInt := by
  unfold lesser
  split_ifs with h <;> rw [Int64.lt_iff_toInt_lt] at h <;> omega

lemma toInt_greater (a b : Int64) : (greater a b).toInt = max a.toInt b.toInt := by
  unfold greater
  split_ifs with h <;> rw [Int64.lt_iff_toInt_lt] at h <;> omega

/-- **Rounding an integer gives the nearest short integer**, which is the integer itself if that is
short, and an error for the last 512 integers.  `Abs`, `Min` and `Max` return integers unchanged. -/
theorem integers_round_to_nearest (scope : Scope) {source source' source'' : Source}
    {left right : Tree} {a b : Int64} (hleft : left.evaluate scope source = (.ok (.int a), source'))
    (hright : right.evaluate scope source' = (.ok (.int b), source'')) :
    (∀ function ∈ ["Trunc", "Round"],
      (a.toInt < 2 ^ 63 - 512 → ∃ m : Int64, m.toInt = nearest a.toInt ∧
        (Tree.call function [left]).evaluate scope source = (.ok (.int m), source')) ∧
      (2 ^ 63 - 512 ≤ a.toInt → (Tree.call function [left]).evaluate scope source =
        (.error (.invalidOperands function (.outOfRange (doubleOfInt a))), source')) ∧
      ((Tree.call function [left]).evaluate scope source = (.ok (.int a), source') ↔
        IsShort a.toInt)) ∧
    (0 ≤ a.toInt → (Tree.call "Abs" [left]).evaluate scope source = (.ok (.int a), source')) ∧
    (∃ m : Int64, m.toInt = min a.toInt b.toInt ∧
      (Tree.call "Min" [left, right]).evaluate scope source = (.ok (.int m), source'')) ∧
    ∃ m : Int64, m.toInt = max a.toInt b.toInt ∧
      (Tree.call "Max" [left, right]).evaluate scope source = (.ok (.int m), source'') := by
  refine ⟨fun function hfunction => ?_, fun hsign => ?_, ?_, ?_⟩
  · obtain ⟨rounding, hrounding, hcall⟩ := call_rounding hfunction a
    have heval : (Tree.call function [left]).evaluate scope source =
        (whole function rounding (.int a), source') := by
      rw [evaluate_call_one function hleft, hcall]
      rfl
    obtain ⟨hinside, hbeyond⟩ := whole_int function hrounding
    refine ⟨fun hlt => ?_, fun hge => by rw [heval, hbeyond hge], ?_⟩
    · obtain ⟨m, hm, hwhole⟩ := hinside hlt
      exact ⟨m, hm, by rw [heval, hwhole]⟩
    · rw [heval, Prod.mk.injEq, and_iff_left rfl]
      exact whole_eq_self_iff function hrounding
  · have habs : (a.toInt.natAbs : Int) = a.toInt := Int.natAbs_of_nonneg hsign
    rw [evaluate_call_one "Abs" hleft]
    change (absolute (.int a), source') = _
    rw [absolute, Operation.exactly, habs, int64?_toInt]
  · exact ⟨_, toInt_lesser a b, evaluate_call_two "Min" hleft hright⟩
  · exact ⟨_, toInt_greater a b, evaluate_call_two "Max" hleft hright⟩

/-- A short integer stays, the first one that is not short is rounded to the one before it, and the
greatest one not at all. -/
theorem integers_round_to_nearest_long :
    (Tree.call "Round" [.literal (.int (-7))]).evaluate .empty silent = (.ok (.int (-7)), silent) ∧
    (Tree.call "Round" [.literal (.int 9007199254740993)]).evaluate .empty silent =
      (.ok (.int 9007199254740992), silent) ∧
    (Tree.call "Trunc" [.literal (.int Int64.maxValue)]).evaluate .empty silent =
      (.error (.invalidOperands "Trunc" (.outOfRange (doubleOfInt Int64.maxValue))), silent) := by
  refine ⟨?_, ?_, ?_⟩
  · have hshort := evaluate_literal .empty (.int (-7)) silent
    exact ((integers_round_to_nearest .empty hshort hshort).1 "Round" (by decide)).2.2.mpr
      (isShort_of_natAbs_le (by decide))
  · have hlong := evaluate_literal .empty (.int 9007199254740993) silent
    obtain ⟨m, hm, heval⟩ :=
      ((integers_round_to_nearest .empty hlong hlong).1 "Round" (by decide)).1 (by decide)
    have hnearest : nearest 9007199254740993 = 9007199254740992 := by decide +kernel
    obtain rfl : m = 9007199254740992 := Int64.toInt_inj.mp (hm.trans hnearest)
    exact heval
  · have hgreatest := evaluate_literal .empty (.int Int64.maxValue) silent
    exact ((integers_round_to_nearest .empty hgreatest hgreatest).1 "Trunc" (by decide)).2.1
      (by decide)

end Function

end ServiceSim
