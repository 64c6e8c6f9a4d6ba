import ServiceSim.Expression.Grammar
import ServiceSim.Proofs.Expression.Bytes
import ServiceSim.Proofs.Expression.Consumption

/-!
# Reading expressions by index

The readers of expressions once more, over the bytes of a text and an index into them.  What can go
wrong with an index is here to be seen: a slice whose ends are not good for it is cut, loops go on to
the end of the bytes, also through characters of several bytes, and a reader that is called more
often than its bound allows has not finished.

A reader that succeeds has taken at least one byte (`Advances`), wherever it starts and whatever the
bytes are; only what may follow an operand or a name can be nothing (`GoesOn`).
-/

namespace ServiceSim.Expression.Cursor

/-- Why reading by index halts. -/
inductive Halt where
  /-- The text is no expression. -/
  | fault (fault : GrammarFault) (offset : Nat)
  /-- An error for which there is no fault. -/
  | unlisted (message : String) (offset : Nat)
  /-- A slice from an index was to be taken that is not good for it. -/
  | cut (index : Nat)
  /-- More calls were needed than allowed. -/
  | unfinished
deriving DecidableEq, Repr

/-! ## Slices -/

section

variable (src : List UInt8)

/-- The bytes from an index on. -/
def suffix (i : Nat) : Except Halt (List UInt8) :=
  if isBoundary src i = true then .ok (src.drop i) else .error (.cut i)

/-- The text between two indices. -/
def slice (i j : Nat) : Except Halt String :=
  if i ≤ j ∧ isBoundary src i = true ∧ isBoundary src j = true then
    match String.fromUTF8? ((src.take j).drop i).toByteArray with
    | some text => .ok text
    | none => .error (.cut i)
  else .error (.cut i)

/-! ## Symbols and keywords -/

/-- Skips white space. -/
def skip (i : Nat) : Nat := scan src (has src isBlank) i

/-- Takes a word after white space, if the index after it is accepted. -/
def eatIf (accept : Nat → Bool) (word : String) (i : Nat) : Except Halt (Bool × Nat) := do
  let i := skip src i
  let rest ← suffix src i
  let j := i + (bytes word).length
  if (bytes word).isPrefixOf rest && accept j then return (true, j) else return (false, i)

/-- Takes a symbol. -/
def eat (symbol : String) (i : Nat) : Except Halt (Bool × Nat) := eatIf src (fun _ => true) symbol i

/-- Takes a keyword, which must not go on as a name. -/
def eatKeyword (keyword : String) (i : Nat) : Except Halt (Bool × Nat) :=
  eatIf src (fun j => !has src isNameChar j) keyword i

/-- Requires a symbol. -/
def expect (symbol : String) (i : Nat) : Except Halt Nat := do
  let (found, i) ← eat src symbol i
  if found then return i else .error (.fault (.expected symbol) i)

/-- The first of several operators that is taken. -/
def firstOf (take : String → Nat → Except Halt (Bool × Nat)) (i : Nat) :
    List (String × BinaryOp) → Except Halt (Option BinaryOp × Nat)
  | [] => .ok (none, i)
  | (word, op) :: more => do
    let (found, i) ← take word i
    if found then return (some op, i) else firstOf take i more

/-- The operator of a level, if it is next. -/
def operator (level : Level) (i : Nat) : Except Halt (Option BinaryOp × Nat) :=
  match level with
  | .disjunction => firstOf (eatKeyword src) i [("OR", .or), ("XOR", .xor)]
  | .conjunction => firstOf (eatKeyword src) i [("AND", .and)]
  | .comparison =>
    firstOf (eat src) i
      [("==", .eq), ("<>", .ne), ("!=", .ne), ("<=", .le), (">=", .ge), ("<", .lt), (">", .gt)]
  | .sum => firstOf (eat src) i [("+", .add), ("-", .sub)]
  | .product => firstOf (eat src) i [("*", .mul), ("/", .div), ("%", .mod)]
  | .power => firstOf (eat src) i [("^", .pow)]
  | _ => .ok (none, i)

/-! ## Numbers, names and strings -/

/-- Skips digits. -/
def digits (i : Nat) : Nat := scan src (has src Char.isDigit) i

/-- The end of a fraction, if there is one. -/
def fractionEnd (i : Nat) : Bool × Nat :=
  if has src (· == '.') i && has src Char.isDigit (i + 1) then (true, digits src (i + 1))
  else (false, i)

/-- The end of an exponent, if there is one.  A mark without digits is given back. -/
def exponentEnd (i : Nat) : Bool × Nat :=
  if has src (fun c => c == 'e' || c == 'E') i then
    let j := if has src (fun c => c == '+' || c == '-') (i + 1) then i + 2 else i + 1
    if has src Char.isDigit j then (true, digits src j) else (false, i)
  else (false, i)

/-- The value of a number of which both ends have been found. -/
def valueBetween (i j : Nat) (real : Bool) : Except Halt (Value × Nat) :=
  if i = j then .error (.fault .noNumber j)
  else do
    let text ← slice src i j
    if real then
      match Number.float? text with
      | some x => return (.double x, j)
      | none => .error (.fault .doubleLiteral j)
    else
      match (Number.int? text).bind int64? with
      | some n => return (.int n, j)
      | none => .error (.fault .integerLiteral j)

/-- A number without sign. -/
def number (i : Nat) : Except Halt (Value × Nat) :=
  let (fraction, j) := fractionEnd src (digits src i)
  let (exponent, j) := exponentEnd src j
  valueBetween src i j (fraction || exponent)

/-- A number after at most one minus sign. -/
def signedNumber (i : Nat) : Except Halt (Value × Nat) := do
  let (negative, i) ← eat src "-" i
  let (value, i) ← number src (skip src i)
  return (if negative then negateNumber value else value, i)

/-- A number after at most one minus sign, as a double. -/
def signedDouble (message : String) (i : Nat) : Except Halt (Float × Nat) := do
  let (value, i) ← signedNumber src i
  match value.toDouble? with
  | some x => return (x, i)
  | none => .error (.unlisted message i)

/-- A string literal: everything up to the next quote. -/
def stringLiteral (i : Nat) : Except Halt (String × Nat) :=
  let i := skip src i
  if has src (· == '"') i then
    let j := scan src (has src (· != '"')) (i + 1)
    if j < src.length then do
      let text ← slice src (i + 1) j
      return (text, j + 1)
    else .error (.fault .openString j)
  else .error (.fault .noString i)

/-- Whether a name goes on at an index. -/
def inName (i : Nat) : Bool :=
  has src isNameChar i || (has src (· == '.') i && has src isNameStart (i + 1))

/-- A dotted name. -/
def identifier (i : Nat) : Except Halt (String × Nat) :=
  let j := scan src (inName src) i
  if i = j then .error (.unlisted "expected identifier" j)
  else do
    let name ← slice src i j
    return (name, j)

/-! ## Distributions -/

/-- A sample of a kind. -/
def sample (kind : PmfKind) (i : Nat) : Except Halt (Value × Nat) :=
  let i := skip src i
  match kind with
  | .int => do
    let (value, i) ← signedNumber src i
    match value with
    | .int n => return (.int n, i)
    | _ => .error (.fault .integerSample i)
  | .double => do
    let (value, i) ← signedNumber src i
    match value with
    | .int n => return (.double (doubleOfInt n), i)
    | other => return (other, i)
  | .bool => do
    let (yes, i) ← eatKeyword src "true" i
    if yes then return (.bool true, i)
    else
      let (no, i) ← eatKeyword src "false" i
      if no then return (.bool false, i) else .error (.fault .booleanSample i)
  | .enum => do
    let (text, i) ← stringLiteral src i
    return (.enum text, i)

/-- The bound of an interval. -/
def interval (i : Nat) : Except Halt (Float × Nat) :=
  signedDouble src "density bound must be numeric" i

variable {α : Type}

/-- An entry: something and its probability, in parentheses. -/
def entry (item : Nat → Except Halt (α × Nat)) (i : Nat) : Except Halt ((α × Float) × Nat) := do
  let i ← expect src "(" i
  let (a, i) ← item i
  let i ← expect src ";" i
  let (p, i) ← signedDouble src "probability must be numeric" i
  let i ← expect src ")" i
  return ((a, p), i)

/-- Entries up to the closing bracket, at most `bound` of them. -/
def entries (item : Nat → Except Halt (α × Nat)) :
    (bound : Nat) → Nat → Except Halt (List (α × Float) × Nat)
  | 0, _ => .error .unfinished
  | bound + 1, i => do
    let (closed, i) ← eat src "]" i
    if closed then return ([], i)
    else
      let (first, i) ← entry src item i
      let (others, i) ← entries item bound i
      return (first :: others, i)

/-- At least one entry between brackets. -/
def bracketed (item : Nat → Except Halt (α × Nat)) (none : GrammarFault) (i : Nat) :
    Except Halt (List (α × Float) × Nat) := do
  let i ← expect src "[" i
  let (found, i) ← entries src item (src.length + 1) i
  if found.isEmpty then .error (.fault none i) else return (found, i)

/-! ## Expressions -/

mutual

/-- An expression of a level. -/
def expression : (fuel : Nat) → Level → Nat → Except Halt (Tree × Nat)
  | 0, _, _ => .error .unfinished
  | fuel + 1, .choice, i => do
    let (condition, i) ← expression fuel .disjunction i
    let (asked, i) ← eat src "?" i
    if asked then
      let (yes, i) ← expression fuel .choice i
      let i ← expect src ":" i
      let (no, i) ← expression fuel .choice i
      return (.conditional condition yes no, i)
    else return (condition, i)
  | fuel + 1, .disjunction, i => do
    let (left, i) ← expression fuel .conjunction i
    chain fuel .disjunction .conjunction left i
  | fuel + 1, .conjunction, i => do
    let (left, i) ← expression fuel .negation i
    chain fuel .conjunction .negation left i
  | fuel + 1, .negation, i => do
    let (negated, i) ← eatKeyword src "NOT" i
    if negated then
      let (operand, i) ← expression fuel .negation i
      return (.unary .not operand, i)
    else expression fuel .comparison i
  | fuel + 1, .comparison, i => do
    let (left, i) ← expression fuel .sum i
    let (op, i) ← operator src .comparison i
    match op with
    | none => return (left, i)
    | some op =>
      let (right, i) ← expression fuel .sum i
      return (.binary op left right, i)
  | fuel + 1, .sum, i => do
    let (left, i) ← expression fuel .product i
    chain fuel .sum .product left i
  | fuel + 1, .product, i => do
    let (left, i) ← expression fuel .power i
    chain fuel .product .power left i
  | fuel + 1, .power, i => do
    let (base, i) ← expression fuel .sign i
    let (op, i) ← operator src .power i
    match op with
    | none => return (base, i)
    | some op =>
      let (exponent, i) ← expression fuel .power i
      return (.binary op base exponent, i)
  | fuel + 1, .sign, i => do
    let (negative, i) ← eat src "-" i
    if negative then
      let (operand, i) ← expression fuel .sign i
      return (Expression.negated operand, i)
    else expression fuel .atom i
  | fuel + 1, .atom, i => atom fuel (skip src i)

/-- Goes on after the first operand of a level whose operators group to the left. -/
def chain : (fuel : Nat) → (level operand : Level) → Tree → Nat → Except Halt (Tree × Nat)
  | 0, _, _, _, _ => .error .unfinished
  | fuel + 1, level, operand, left, i => do
    let (op, i) ← operator src level i
    match op with
    | none => return (left, i)
    | some op =>
      let (right, i) ← expression fuel operand i
      chain fuel level operand (.binary op left right) i

/-- An atom, with the white space before it skipped. -/
def atom : (fuel : Nat) → Nat → Except Halt (Tree × Nat)
  | 0, _ => .error .unfinished
  | fuel + 1, i =>
    if src.length ≤ i then .error (.fault .endOfInput i)
    else if has src (· == '(') i then do
      let (inner, i) ← expression fuel .choice (i + 1)
      let i ← expect src ")" i
      return (inner, i)
    else if has src (· == '"') i then do
      let (text, i) ← stringLiteral src i
      return (.literal (.enum text), i)
    else if has src Char.isDigit i then do
      let (value, i) ← number src i
      return (.literal value, i)
    else if has src isNameStart i then do
      let (name, i) ← identifier src i
      named fuel name i
    else .error (.fault .unexpectedCharacter i)

/-- What a name begins: a truth value, a distribution, a call or a variable. -/
def named : (fuel : Nat) → String → Nat → Except Halt (Tree × Nat)
  | 0, _, _ => .error .unfinished
  | fuel + 1, name, i =>
    if name = "true" then .ok (.literal (.bool true), i)
    else if name = "false" then .ok (.literal (.bool false), i)
    else if isKeyword name then .error (.fault (.unexpectedKeyword name) i)
    else match pmfKind? name with
      | some kind => do
        let (samples, i) ← bracketed src (sample src kind) .noSample i
        return (.pmf kind samples, i)
      | none =>
        if name = "DoublePDF" then do
          let (intervals, i) ← bracketed src (interval src) .noInterval i
          return (.pdf intervals, i)
        else
          let i := skip src i
          if has src (· == '(') i then do
            let (closed, i) ← eat src ")" (i + 1)
            if closed then return (.call name [], i)
            else
              let (arguments, i) ← arguments fuel i
              return (.call name arguments, i)
          else .ok (.variable name, i)

/-- The arguments of a call, up to its closing parenthesis. -/
def arguments : (fuel : Nat) → Nat → Except Halt (List Tree × Nat)
  | 0, _ => .error .unfinished
  | fuel + 1, i => do
    let (first, i) ← expression fuel .choice i
    let (closed, i) ← eat src ")" i
    if closed then return ([first], i)
    else
      let i ← expect src "," i
      let (others, i) ← arguments fuel i
      return (first :: others, i)

end

/-- A whole text as an expression, with at most `fuel` calls in one another. -/
def whole (fuel : Nat) : Except Halt Tree :=
  let i := skip src 0
  if src.length ≤ i then .error (.fault .emptyExpression i)
  else do
    let (tree, i) ← expression src fuel .choice i
    let i := skip src i
    if src.length ≤ i then return tree else .error (.fault .trailingInput i)

end

/-! ## Progress -/

variable {α β : Type} {src : List UInt8} {i : Nat}

/-- What is returned has a property. -/
def Ensures (P : α → Prop) (x : Except Halt α) : Prop := ∀ a, x = .ok a → P a

namespace Ensures

variable {P : α → Prop} {Q : β → Prop} {x : Except Halt α} {f : α → Except Halt β}

lemma ok {a : α} (h : P a) : Ensures P (.ok a) := by
  rintro a' ⟨⟩
  exact h

lemma error (halt : Halt) : Ensures P (.error halt) := by
  rintro a' ⟨⟩

lemma bind (h : Ensures P x) (hf : ∀ a, P a → Ensures Q (f a)) : Ensures Q (x >>= f) := by
  intro b hb
  obtain ⟨a, ha, hb⟩ := bind_eq_ok hb
  exact hf a (h a ha) b hb

lemma ite {c : Prop} [Decidable c] {y : Except Halt α} (h : c → Ensures P x)
    (hnot : ¬ c → Ensures P y) : Ensures P (if c then x else y) := by
  split_ifs with hc
  · exact h hc
  · exact hnot hc

lemma mono {P' : α → Prop} (h : Ensures P x) (himp : ∀ a, P a → P' a) : Ensures P' x :=
  fun a ha => himp a (h a ha)

/-- What is returned does not matter to what follows. -/
lemma after (hf : ∀ a, Ensures Q (f a)) : Ensures Q (x >>= f) :=
  bind (P := fun _ => True) (fun _ _ => trivial) fun a _ => hf a

end Ensures

/-- A reader that succeeds has taken at least one byte. -/
def Advances (read : Nat → Except Halt (α × Nat)) : Prop := ∀ i, Ensures (i < ·.2) (read i)

lemma le_scan (src : List UInt8) (go : Nat → Bool) (i : Nat) : i ≤ scan src go i := by
  fun_induction scan src go i with
  | case1 i hgo ih => omega
  | case2 i hgo => exact le_refl i

lemma le_skip (src : List UInt8) (i : Nat) : i ≤ skip src i := le_scan src _ i

lemma eatIf_le (accept : Nat → Bool) (word : String) (i : Nat) :
    Ensures (i ≤ ·.2) (eatIf src accept word i) := by
  have hskip := le_skip src i
  refine Ensures.after fun rest => Ensures.ite (fun _ => Ensures.ok ?_) fun _ => Ensures.ok hskip
  exact le_trans hskip (Nat.le_add_right _ _)

/-- A word that is taken has at least one byte. -/
lemma eatIf_moves {accept : Nat → Bool} {word : String} (nonempty : word ≠ "") (i : Nat) :
    Ensures (fun p => i ≤ p.2 ∧ (p.1 = true → i < p.2)) (eatIf src accept word i) := by
  have hskip := le_skip src i
  have hlength : (bytes word).length ≠ 0 := by
    rw [length_bytes, ne_eq, String.utf8ByteSize_eq_zero_iff]
    exact nonempty
  refine Ensures.after fun rest => Ensures.ite (fun _ => Ensures.ok ?_) fun _ => Ensures.ok ?_
  · exact ⟨by dsimp only; omega, fun _ => by dsimp only; omega⟩
  · exact ⟨hskip, fun h => by cases h⟩

lemma eat_moves {symbol : String} (nonempty : symbol ≠ "") (i : Nat) :
    Ensures (fun p => i ≤ p.2 ∧ (p.1 = true → i < p.2)) (eat src symbol i) :=
  eatIf_moves nonempty i

lemma expect_advances {symbol : String} (nonempty : symbol ≠ "") (i : Nat) :
    Ensures (i < ·) (expect src symbol i) := by
  refine (eat_moves nonempty i).bind ?_
  rintro ⟨found, j⟩ hj
  exact Ensures.ite (fun hfound => Ensures.ok (hj.2 hfound)) fun _ => Ensures.error _

lemma firstOf_moves {take : String → Nat → Except Halt (Bool × Nat)}
    (h : ∀ word i, Ensures (i ≤ ·.2) (take word i)) (operators : List (String × BinaryOp))
    (i : Nat) : Ensures (i ≤ ·.2) (firstOf take i operators) := by
  induction operators generalizing i with
  | nil => exact Ensures.ok (le_refl i)
  | cons p operators ih =>
    refine (h p.1 i).bind ?_
    rintro ⟨found, j⟩ hj
    refine Ensures.ite (fun _ => Ensures.ok hj) fun _ => ?_
    exact (ih j).mono fun a ha => le_trans hj ha

lemma operator_moves (level : Level) (i : Nat) : Ensures (i ≤ ·.2) (operator src level i) := by
  have hsymbol : ∀ word i, Ensures (i ≤ ·.2) (eat src word i) := eatIf_le _
  have hkeyword : ∀ word i, Ensures (i ≤ ·.2) (eatKeyword src word i) := eatIf_le _
  cases level
  case disjunction => exact firstOf_moves hkeyword _ i
  case conjunction => exact firstOf_moves hkeyword _ i
  case comparison => exact firstOf_moves hsymbol _ i
  case sum => exact firstOf_moves hsymbol _ i
  case product => exact firstOf_moves hsymbol _ i
  case power => exact firstOf_moves hsymbol _ i
  all_goals exact Ensures.ok (le_refl i)

lemma le_fractionEnd (src : List UInt8) (i : Nat) : i ≤ (fractionEnd src i).2 := by
  rw [fractionEnd]
  split_ifs
  · exact le_trans (Nat.le_succ i) (le_scan src _ _)
  · exact le_refl i

lemma le_exponentEnd (src : List UInt8) (i : Nat) : i ≤ (exponentEnd src i).2 := by
  rw [exponentEnd]
  dsimp only
  generalize hj : (if has src (fun c => c == '+' || c == '-') (i + 1) then i + 2 else i + 1) = j
  have hij : i ≤ j := by
    split_ifs at hj
    all_goals omega
  split_ifs
  · exact le_trans hij (le_scan src _ _)
  · exact le_refl i
  · exact le_refl i

lemma valueBetween_advances {j : Nat} (hij : i ≤ j) (real : Bool) :
    Ensures (i < ·.2) (valueBetween src i j real) := by
  rw [valueBetween]
  refine Ensures.ite (fun _ => Ensures.error _) fun hne => Ensures.after fun text => ?_
  have hlt : i < j := lt_of_le_of_ne hij hne
  refine Ensures.ite (fun _ => ?_) fun _ => ?_
  · cases Number.float? text with
    | none => exact Ensures.error _
    | some x => exact Ensures.ok hlt
  · cases (Number.int? text).bind int64? with
    | none => exact Ensures.error _
    | some n => exact Ensures.ok hlt

lemma number_advances : Advances (number src) := by
  intro i
  have hdigits : i ≤ digits src i := le_scan src _ i
  have hfraction := le_fractionEnd src (digits src i)
  have hexponent := le_exponentEnd src (fractionEnd src (digits src i)).2
  exact valueBetween_advances (le_trans hdigits (le_trans hfraction hexponent)) _

lemma signedNumber_advances : Advances (signedNumber src) := by
  intro i
  refine (eat_moves (by decide) i).bind ?_
  rintro ⟨negative, j⟩ hj
  refine (number_advances (skip src j)).bind ?_
  rintro ⟨value, k⟩ hk
  refine Ensures.ok ?_
  have hskip := le_skip src j
  exact lt_of_le_of_lt (le_trans hj.1 hskip) hk

lemma signedDouble_advances (message : String) : Advances (signedDouble src message) := by
  intro i
  refine (signedNumber_advances i).bind ?_
  rintro ⟨value, j⟩ hj
  dsimp only
  cases value.toDouble? with
  | none => exact Ensures.error _
  | some x => exact Ensures.ok hj

lemma stringLiteral_advances : Advances (stringLiteral src) := by
  intro i
  have hskip := le_skip src i
  rw [stringLiteral]
  refine Ensures.ite (fun _ => Ensures.ite (fun _ => ?_) fun _ => Ensures.error _)
    fun _ => Ensures.error _
  refine Ensures.after fun text => Ensures.ok ?_
  have hscan := le_scan src (has src (· != '"')) (skip src i + 1)
  dsimp only
  omega

lemma identifier_advances : Advances (identifier src) := by
  intro i
  have hscan := le_scan src (inName src) i
  rw [identifier]
  refine Ensures.ite (fun _ => Ensures.error _) fun hne => Ensures.after fun name => Ensures.ok ?_
  dsimp only
  omega

lemma sample_advances (kind : PmfKind) : Advances (sample src kind) := by
  intro i
  have hskip := le_skip src i
  cases kind with
  | int =>
    refine (signedNumber_advances (skip src i)).bind ?_
    rintro ⟨value, j⟩ hj
    cases value with
    | int n => exact Ensures.ok (lt_of_le_of_lt hskip hj)
    | _ => exact Ensures.error _
  | double =>
    refine (signedNumber_advances (skip src i)).bind ?_
    rintro ⟨value, j⟩ hj
    cases value with
    | _ => exact Ensures.ok (lt_of_le_of_lt hskip hj)
  | bool =>
    refine (eatIf_moves (by decide) (skip src i)).bind ?_
    rintro ⟨yes, j⟩ hj
    refine Ensures.ite (fun hyes => Ensures.ok (lt_of_le_of_lt hskip (hj.2 hyes))) fun _ => ?_
    refine (eatIf_moves (by decide) j).bind ?_
    rintro ⟨no, k⟩ hk
    refine Ensures.ite (fun hno => Ensures.ok ?_) fun _ => Ensures.error _
    exact lt_of_le_of_lt (le_trans hskip hj.1) (hk.2 hno)
  | enum =>
    refine (stringLiteral_advances (skip src i)).bind ?_
    rintro ⟨text, j⟩ hj
    exact Ensures.ok (lt_of_le_of_lt hskip hj)

variable {item : Nat → Except Halt (α × Nat)}

lemma entry_advances (h : Advances item) : Advances (entry src item) := by
  intro i
  refine (expect_advances (by decide) i).bind fun i₁ h₁ => ?_
  refine (h i₁).bind ?_
  rintro ⟨a, i₂⟩ h₂
  refine (expect_advances (by decide) i₂).bind fun i₃ h₃ => ?_
  refine (signedDouble_advances _ i₃).bind ?_
  rintro ⟨x, i₄⟩ h₄
  refine (expect_advances (by decide) i₄).bind fun i₅ h₅ => Ensures.ok ?_
  dsimp only at h₂ h₄ ⊢
  omega

lemma entries_advance (h : Advances item) (bound : Nat) : Advances (entries src item bound) := by
  induction bound with
  | zero => exact fun i => Ensures.error _
  | succ bound ih =>
    intro i
    refine (eat_moves (by decide) i).bind ?_
    rintro ⟨closed, j⟩ hj
    refine Ensures.ite (fun hclosed => Ensures.ok (hj.2 hclosed)) fun _ => ?_
    refine (entry_advances h j).bind ?_
    rintro ⟨first, k⟩ hk
    refine (ih k).bind ?_
    rintro ⟨others, l⟩ hl
    exact Ensures.ok (lt_of_le_of_lt hj.1 (lt_trans hk hl))

lemma bracketed_advances (h : Advances item) (none : GrammarFault) :
    Advances (bracketed src item none) := by
  intro i
  refine (expect_advances (by decide) i).bind fun j hj => ?_
  refine (entries_advance h _ j).bind ?_
  rintro ⟨found, k⟩ hk
  exact Ensures.ite (fun _ => Ensures.error _) fun _ => Ensures.ok (lt_trans hj hk)

/-- The readers of expressions do not go back, with a bound on their calls. -/
structure GoesOn (src : List UInt8) (fuel : Nat) : Prop where
  expression : ∀ level, Advances (expression src fuel level)
  chain : ∀ level operand left i, Ensures (i ≤ ·.2) (chain src fuel level operand left i)
  atom : Advances (atom src fuel)
  named : ∀ name i, Ensures (i ≤ ·.2) (named src fuel name i)
  arguments : Advances (arguments src fuel)

namespace GoesOn

variable {fuel : Nat} {level : Level}

/-- A level whose operators group to the left. -/
lemma expression_chain (hlevel : level.isChain = true) (fuel : Nat) (i : Nat) :
    Cursor.expression src (fuel + 1) level i = (do
      let (left, i) ← Cursor.expression src fuel level.tighter i
      Cursor.chain src fuel level level.tighter left i) := by
  cases level <;> first | (rw [Cursor.expression]; rfl) | cases hlevel

lemma chained (h : GoesOn src fuel) (hlevel : level.isChain = true) :
    Advances (Cursor.expression src (fuel + 1) level) := by
  intro i
  rw [expression_chain hlevel]
  refine (h.expression _ i).bind ?_
  rintro ⟨left, j⟩ hj
  exact (h.chain _ _ _ j).mono fun a ha => lt_of_lt_of_le hj ha

/-- Levels with at most one operator between two operands. -/
lemma single (h : GoesOn src fuel) (level left right : Level) :
    Advances fun i => (do
      let (left, i) ← Cursor.expression src fuel left i
      let (op, i) ← operator src level i
      match op with
      | none => return (left, i)
      | some op =>
        let (right, i) ← Cursor.expression src fuel right i
        return (Tree.binary op left right, i)) := by
  intro i
  refine (h.expression _ i).bind ?_
  rintro ⟨tree, j⟩ hj
  refine (operator_moves level j).bind ?_
  rintro ⟨op, k⟩ hk
  have hik : i < k := lt_of_lt_of_le hj hk
  cases op with
  | none => exact Ensures.ok hik
  | some op =>
    refine (h.expression _ k).bind ?_
    rintro ⟨operand, l⟩ hl
    exact Ensures.ok (lt_trans hik hl)

/-- Levels with at most one operator in front of an operand of the level. -/
lemma marked (h : GoesOn src fuel) (level tighter : Level) (build : Tree → Tree)
    {take : Nat → Except Halt (Bool × Nat)} (htake : ∀ i, Ensures (i ≤ ·.2) (take i)) :
    Advances fun i => (do
      let (found, i) ← take i
      if found then
        let (operand, i) ← Cursor.expression src fuel level i
        return (build operand, i)
      else Cursor.expression src fuel tighter i) := by
  intro i
  refine (htake i).bind ?_
  rintro ⟨found, j⟩ hj
  refine Ensures.ite (fun _ => ?_) fun _ => ?_
  · refine (h.expression _ j).bind ?_
    rintro ⟨operand, k⟩ hk
    exact Ensures.ok (lt_of_le_of_lt hj hk)
  · exact (h.expression _ j).mono fun a ha => lt_of_le_of_lt hj ha

lemma choice (h : GoesOn src fuel) : Advances (Cursor.expression src (fuel + 1) .choice) := by
  intro i
  rw [Cursor.expression]
  refine (h.expression _ i).bind ?_
  rintro ⟨condition, i₁⟩ h₁
  refine (eat_moves (by decide) i₁).bind ?_
  rintro ⟨asked, i₂⟩ h₂
  have hlt : i < i₂ := lt_of_lt_of_le h₁ h₂.1
  refine Ensures.ite (fun _ => ?_) fun _ => Ensures.ok hlt
  refine (h.expression _ i₂).bind ?_
  rintro ⟨yes, i₃⟩ h₃
  refine (expect_advances (by decide) i₃).bind fun i₄ h₄ => ?_
  refine (h.expression _ i₄).bind ?_
  rintro ⟨no, i₅⟩ h₅
  exact Ensures.ok (lt_trans (lt_trans (lt_trans hlt h₃) h₄) h₅)

lemma succ_expression (h : GoesOn src fuel) (level : Level) :
    Advances (Cursor.expression src (fuel + 1) level) := by
  cases level with
  | choice => exact h.choice
  | disjunction => exact h.chained rfl
  | conjunction => exact h.chained rfl
  | sum => exact h.chained rfl
  | product => exact h.chained rfl
  | comparison =>
    intro i
    rw [Cursor.expression]
    exact h.single .comparison .sum .sum i
  | power =>
    intro i
    rw [Cursor.expression]
    exact h.single .power .sign .power i
  | negation =>
    intro i
    rw [Cursor.expression]
    exact h.marked .negation .comparison (.unary .not) (eatIf_le _ _) i
  | sign =>
    intro i
    rw [Cursor.expression]
    exact h.marked .sign .atom Expression.negated (eatIf_le _ _) i
  | atom =>
    intro i
    rw [Cursor.expression]
    exact (h.atom _).mono fun a ha => lt_of_le_of_lt (le_skip src i) ha

lemma succ_chain (h : GoesOn src fuel) (level operand : Level) (left : Tree) (i : Nat) :
    Ensures (i ≤ ·.2) (Cursor.chain src (fuel + 1) level operand left i) := by
  rw [Cursor.chain]
  refine (operator_moves level i).bind ?_
  rintro ⟨op, j⟩ hj
  cases op with
  | none => exact Ensures.ok hj
  | some op =>
    refine (h.expression operand j).bind ?_
    rintro ⟨right, k⟩ hk
    exact (h.chain _ _ _ k).mono fun a ha => le_trans hj (le_trans (le_of_lt hk) ha)

lemma succ_atom (h : GoesOn src fuel) : Advances (Cursor.atom src (fuel + 1)) := by
  intro i
  rw [Cursor.atom]
  refine Ensures.ite (fun _ => Ensures.error _) fun _ => ?_
  refine Ensures.ite (fun _ => ?_) fun _ => ?_
  · refine (h.expression _ (i + 1)).bind ?_
    rintro ⟨inner, j⟩ hj
    refine (expect_advances (by decide) j).bind fun k hk => Ensures.ok ?_
    exact lt_trans (lt_trans (Nat.lt_succ_self i) hj) hk
  refine Ensures.ite (fun _ => ?_) fun _ => ?_
  · refine (stringLiteral_advances i).bind ?_
    rintro ⟨text, j⟩ hj
    exact Ensures.ok hj
  refine Ensures.ite (fun _ => ?_) fun _ => ?_
  · refine (number_advances i).bind ?_
    rintro ⟨value, j⟩ hj
    exact Ensures.ok hj
  refine Ensures.ite (fun _ => ?_) fun _ => Ensures.error _
  refine (identifier_advances i).bind ?_
  rintro ⟨name, j⟩ hj
  exact (h.named name j).mono fun a ha => lt_of_lt_of_le hj ha

lemma succ_named (h : GoesOn src fuel) (name : String) (i : Nat) :
    Ensures (i ≤ ·.2) (Cursor.named src (fuel + 1) name i) := by
  rw [Cursor.named]
  refine Ensures.ite (fun _ => Ensures.ok (le_refl i)) fun _ => ?_
  refine Ensures.ite (fun _ => Ensures.ok (le_refl i)) fun _ => ?_
  refine Ensures.ite (fun _ => Ensures.error _) fun _ => ?_
  cases pmfKind? name with
  | some kind =>
    refine (bracketed_advances (sample_advances kind) _ i).bind ?_
    rintro ⟨samples, j⟩ hj
    exact Ensures.ok (le_of_lt hj)
  | none =>
    refine Ensures.ite (fun _ => ?_) fun _ => ?_
    · refine (bracketed_advances (signedDouble_advances _) _ i).bind ?_
      rintro ⟨intervals, j⟩ hj
      exact Ensures.ok (le_of_lt hj)
    have hskip := le_skip src i
    refine Ensures.ite (fun _ => ?_) fun _ => Ensures.ok hskip
    refine (eat_moves (by decide) (skip src i + 1)).bind ?_
    rintro ⟨closed, j⟩ hj
    have hij : i ≤ j := le_trans hskip (le_trans (Nat.le_succ _) hj.1)
    refine Ensures.ite (fun _ => Ensures.ok hij) fun _ => ?_
    refine (h.arguments j).bind ?_
    rintro ⟨arguments, k⟩ hk
    exact Ensures.ok (le_trans hij (le_of_lt hk))

lemma succ_arguments (h : GoesOn src fuel) : Advances (Cursor.arguments src (fuel + 1)) := by
  intro i
  rw [Cursor.arguments]
  refine (h.expression _ i).bind ?_
  rintro ⟨first, i₁⟩ h₁
  refine (eat_moves (by decide) i₁).bind ?_
  rintro ⟨closed, i₂⟩ h₂
  have hlt : i < i₂ := lt_of_lt_of_le h₁ h₂.1
  refine Ensures.ite (fun _ => Ensures.ok hlt) fun _ => ?_
  refine (expect_advances (by decide) i₂).bind fun i₃ h₃ => ?_
  refine (h.arguments i₃).bind ?_
  rintro ⟨others, i₄⟩ h₄
  exact Ensures.ok (lt_trans (lt_trans hlt h₃) h₄)

end GoesOn

/-- **Every bound lets the readers go on.** -/
theorem goesOn (src : List UInt8) (fuel : Nat) : GoesOn src fuel := by
  induction fuel with
  | zero =>
    constructor
    case expression =>
      intro level i
      rw [expression]
      exact Ensures.error _
    case chain =>
      intro level operand left i
      rw [chain]
      exact Ensures.error _
    case atom =>
      intro i
      rw [atom]
      exact Ensures.error _
    case named =>
      intro name i
      rw [named]
      exact Ensures.error _
    case arguments =>
      intro i
      rw [arguments]
      exact Ensures.error _
  | succ fuel ih =>
    exact ⟨ih.succ_expression, ih.succ_chain, ih.succ_atom, ih.succ_named, ih.succ_arguments⟩

end ServiceSim.Expression.Cursor
