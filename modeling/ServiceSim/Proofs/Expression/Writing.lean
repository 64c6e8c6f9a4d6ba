import ServiceSim.Expression.Grammar
import Mathlib.Tactic.Lemma
import Mathlib.Tactic.SplitIfs

/-!
# Writing expressions

The other direction of the grammar: which words an expression is written with.  `Written` says this
for every kind of expression, with the level of precedence at which the words stand together.  An
operand whose level is too low for its place is put in parentheses, and no other is (`enclosed`).

Numbers are written as the grammar of numbers has it, an integer with any digits that denote it and a
double with any decimal that does.  Words are set apart by white space of any kind and length
(`Spread`), so an expression has many texts.  `Expressible` collects the expressions that have one.
-/

namespace ServiceSim

namespace Expression

/-! ## Precedence -/

namespace Level

/-- The place of a level, from the one that binds least. -/
def rank : Level → Nat
  | choice => 0
  | disjunction => 1
  | conjunction => 2
  | negation => 3
  | comparison => 4
  | sum => 5
  | product => 6
  | power => 7
  | sign => 8
  | atom => 9

/-- The next level. -/
def tighter : Level → Level
  | choice => disjunction
  | disjunction => conjunction
  | conjunction => negation
  | negation => comparison
  | comparison => sum
  | sum => product
  | product => power
  | power => sign
  | sign => atom
  | atom => atom

/-- Whether the operators of a level group to the left. -/
def isChain : Level → Bool
  | disjunction => true
  | conjunction => true
  | sum => true
  | product => true
  | _ => false

end Level

end Expression

open Expression

/-- The level of an operator. -/
def BinaryOp.level : BinaryOp → Level
  | or | xor => .disjunction
  | and => .conjunction
  | eq | ne | lt | le | gt | ge => .comparison
  | add | sub => .sum
  | mul | div | mod => .product
  | pow => .power

/-- The level of the left operand: that of the operator if operators group to the left. -/
def BinaryOp.leftLevel (op : BinaryOp) : Level :=
  if op.level.isChain then op.level else op.level.tighter

/-- The level of the right operand: that of the operator if operators group to the right. -/
def BinaryOp.rightLevel (op : BinaryOp) : Level :=
  if op = .pow then op.level else op.level.tighter

namespace Expression

/-! ## Words -/

/-- A word of a text. -/
abbrev Word := List Char

/-- The word of a symbol or keyword. -/
abbrev word (symbol : String) : Word := symbol.toList

/-- An exponent: a mark, a sign or none, and digits. -/
structure Exponent where
  mark : Char
  sign : List Char
  digits : List Char
  mark_spec : mark = 'e' ∨ mark = 'E'
  sign_spec : sign = [] ∨ sign = ['+'] ∨ sign = ['-']
  digits_spec : digits ≠ [] ∧ ∀ c ∈ digits, c.isDigit = true

/-- A number without sign: digits, with a fraction or without, and with an exponent or without. -/
structure Numeral where
  whole : List Char
  fraction : List Char
  exponent : Option Exponent
  whole_spec : ∀ c ∈ whole, c.isDigit = true
  fraction_spec : ∀ c ∈ fraction, c.isDigit = true
  nonempty : whole ≠ [] ∨ fraction ≠ []

namespace Numeral

/-- The characters of an exponent. -/
def exponentText : Option Exponent → List Char
  | none => []
  | some e => e.mark :: (e.sign ++ e.digits)

/-- The characters of a fraction. -/
def fractionText : List Char → List Char
  | [] => []
  | digits => '.' :: digits

/-- The word of a number. -/
def text (n : Numeral) : Word := n.whole ++ (fractionText n.fraction ++ exponentText n.exponent)

/-- Whether a number is written as an integer. -/
def IsInteger (n : Numeral) : Prop := n.fraction = [] ∧ n.exponent = none

/-- What a number denotes: an integer, if it is written as one and has 64 bits, and else the double
that its text denotes. -/
inductive Denotes (n : Numeral) : Value → Prop where
  | int {k : Int64} : n.IsInteger → int64? (Number.ofDigits n.whole) = some k → Denotes n (.int k)
  | double {x : Float} : ¬ n.IsInteger → Number.unsigned? n.text = some x → Denotes n (.double x)

end Numeral

/-- A number after a minus sign or none. -/
inductive Signed : Value → List Word → Prop where
  | plain {n : Numeral} {v : Value} : n.Denotes v → Signed v [n.text]
  | minus {n : Numeral} {v : Value} : n.Denotes v → Signed (negateNumber v) [word "-", n.text]

/-- A part of a name. -/
def IsSegment (cs : List Char) : Prop :=
  ∃ c rest, cs = c :: rest ∧ isNameStart c = true ∧ ∀ x ∈ rest, isNameChar x = true

/-- The words that are no names, with the two truth values. -/
def keywords : List String := ["AND", "OR", "XOR", "NOT", "true", "false"]

/-- The names of distributions. -/
def distributions : List String := ["IntPMF", "DoublePMF", "BoolPMF", "EnumPMF", "DoublePDF"]

/-- A name of a variable or a function: parts with points between, of which the first is no keyword,
and not the name of a distribution. -/
def IsName (name : String) : Prop :=
  name ∉ distributions ∧ ∃ (first : List Char) (others : List (List Char)), IsSegment first ∧
    (∀ s ∈ others, IsSegment s) ∧
    name.toList = first ++ others.flatMap ('.' :: ·) ∧ String.ofList first ∉ keywords

/-- The word of a string. -/
def quotation (text : String) : Word := '"' :: (text.toList ++ ['"'])

/-- The word of a truth value. -/
def truth (b : Bool) : Word := word (if b then "true" else "false")

/-- A sample of a kind. -/
inductive Sampled : PmfKind → Value → List Word → Prop where
  | int {k : Int64} {words : List Word} : Signed (.int k) words → Sampled .int (.int k) words
  | double {v : Value} {words : List Word} : Signed v words →
      Sampled .double (.double (doubleOf v)) words
  | bool (b : Bool) : Sampled .bool (.bool b) [truth b]
  | enum {text : String} : '"' ∉ text.toList → Sampled .enum (.enum text) [quotation text]

/-- An interval of a density, by its upper bound. -/
inductive Bounded : Float → List Word → Prop where
  | bound {v : Value} {words : List Word} : Signed v words → Bounded (doubleOf v) words

/-- The entries of a distribution: each in parentheses, with its probability. -/
inductive Entries {α : Type} (item : α → List Word → Prop) : List (α × Float) → List Word → Prop where
  | nil : Entries item [] []
  | cons {a : α} {v : Value} {others : List (α × Float)} {itemWords probability words : List Word} :
      item a itemWords → Signed v probability → Entries item others words →
      Entries item ((a, doubleOf v) :: others)
        (word "(" :: (itemWords ++ word ";" :: (probability ++ word ")" :: words)))

/-! ## Expressions -/

/-- The words of an operand of which a level is required and which has another one. -/
def enclosed (required level : Level) (words : List Word) : List Word :=
  if required.rank ≤ level.rank then words else word "(" :: (words ++ [word ")"])

/-- Whether an expression is a number. -/
def isNumber : Tree → Bool
  | .literal (.int _) => true
  | .literal (.double _) => true
  | _ => false

/-- **The words of an expression**, and the level at which they stand together. -/
inductive Written : Level → Tree → List Word → Prop where
  | number {n : Numeral} {v : Value} : n.whole ≠ [] → n.Denotes v →
      Written .atom (.literal v) [n.text]
  | negative {n : Numeral} {v : Value} : n.whole ≠ [] → n.Denotes v →
      Written .sign (.literal (negateNumber v)) [word "-", n.text]
  | truth (b : Bool) : Written .atom (.literal (.bool b)) [truth b]
  | enum {text : String} : '"' ∉ text.toList → Written .atom (.literal (.enum text)) [quotation text]
  | variable {name : String} : IsName name → Written .atom (.variable name) [word name]
  | call {name : String} (arguments : List (Level × Tree × List Word)) : IsName name →
      (∀ x ∈ arguments, Written x.1 x.2.1 x.2.2) →
      Written .atom (.call name (arguments.map (·.2.1)))
        (word name :: word "(" :: ([word ","].intercalate (arguments.map (·.2.2)) ++ [word ")"]))
  | pmf {kind : PmfKind} {name : String} {samples : List (Value × Float)} {words : List Word} :
      pmfKind? name = some kind → samples ≠ [] → Entries (Sampled kind) samples words →
      Written .atom (.pmf kind samples) (word name :: word "[" :: (words ++ [word "]"]))
  | pdf {intervals : List (Float × Float)} {words : List Word} : intervals ≠ [] →
      Entries Bounded intervals words →
      Written .atom (.pdf intervals) (word "DoublePDF" :: word "[" :: (words ++ [word "]"]))
  | minus {level : Level} {operand : Tree} {words : List Word} : Written level operand words →
      isNumber operand = false →
      Written .sign (.unary .neg operand) (word "-" :: enclosed .sign level words)
  | not {level : Level} {operand : Tree} {words : List Word} : Written level operand words →
      Written .negation (.unary .not operand) (word "NOT" :: enclosed .negation level words)
  | binary {op : BinaryOp} {level level' : Level} {left right : Tree} {words words' : List Word} :
      Written level left words → Written level' right words' →
      Written op.level (.binary op left right) (enclosed op.leftLevel level words ++
        word op.symbol :: enclosed op.rightLevel level' words')
  | conditional {level₁ level₂ level₃ : Level} {condition yes no : Tree}
      {words₁ words₂ words₃ : List Word} : Written level₁ condition words₁ →
      Written level₂ yes words₂ → Written level₃ no words₃ →
      Written .choice (.conditional condition yes no) (enclosed .disjunction level₁ words₁ ++
        word "?" :: (words₂ ++ word ":" :: words₃))

/-! ## Texts -/

/-- White space, or nothing. -/
def IsGap (cs : List Char) : Prop := ∀ c ∈ cs, isBlank c = true

/-- A text that ends or goes on with white space. -/
def IsApart (cs : List Char) : Prop := ∀ c ∈ cs.head?, isBlank c = true

/-- Words with white space before them, which there is at least between any two. -/
inductive Spread : List Word → List Char → Prop where
  | nil : Spread [] []
  | cons {w : Word} {words : List Word} {gap cs : List Char} : IsGap gap → IsApart cs →
      Spread words cs → Spread (w :: words) (gap ++ (w ++ cs))

/-- A text of words, with white space between them and maybe around them. -/
def IsTextOf (words : List Word) (text : String) : Prop :=
  ∃ cs gap, Spread words cs ∧ IsGap gap ∧ text.toList = cs ++ gap

/-! ## Expressions that have a text -/

/-- A double that is given by the text of a number, with a minus sign or without. -/
def IsDecimal (x : Float) : Prop :=
  ∃ (n : Numeral) (y : Float), n.whole ≠ [] ∧ ¬ n.IsInteger ∧ Number.unsigned? n.text = some y ∧
    (x = y ∨ x = -y)

/-- A number that is given by a text, as a double. -/
def IsNumeric (x : Float) : Prop := ∃ v words, Signed v words ∧ x = doubleOf v

/-- A sample of a kind that has a text. -/
def IsSample : PmfKind → Value → Prop
  | .int, .int k => k ≠ Int64.minValue
  | .double, .double x => IsNumeric x
  | .bool, .bool _ => True
  | .enum, .enum text => '"' ∉ text.toList
  | _, _ => False

/-- **The expressions that have a text.** -/
inductive Expressible : Tree → Prop where
  | int {k : Int64} : k ≠ Int64.minValue → Expressible (.literal (.int k))
  | double {x : Float} : IsDecimal x → Expressible (.literal (.double x))
  | bool (b : Bool) : Expressible (.literal (.bool b))
  | enum {text : String} : '"' ∉ text.toList → Expressible (.literal (.enum text))
  | variable {name : String} : IsName name → Expressible (.variable name)
  | call {name : String} {arguments : List Tree} : IsName name →
      (∀ a ∈ arguments, Expressible a) → Expressible (.call name arguments)
  | pmf {kind : PmfKind} {samples : List (Value × Float)} : samples ≠ [] →
      (∀ s ∈ samples, IsSample kind s.1 ∧ IsNumeric s.2) → Expressible (.pmf kind samples)
  | pdf {intervals : List (Float × Float)} : intervals ≠ [] →
      (∀ s ∈ intervals, IsNumeric s.1 ∧ IsNumeric s.2) → Expressible (.pdf intervals)
  | minus {operand : Tree} : Expressible operand → isNumber operand = false →
      Expressible (.unary .neg operand)
  | not {operand : Tree} : Expressible operand → Expressible (.unary .not operand)
  | binary (op : BinaryOp) {left right : Tree} : Expressible left → Expressible right →
      Expressible (.binary op left right)
  | conditional {condition yes no : Tree} : Expressible condition → Expressible yes →
      Expressible no → Expressible (.conditional condition yes no)

/-! ### Each of them has one -/

/-- Words with white space before each of them. -/
lemma spread_gaps {parts : List (List Char × Word)} (h : ∀ p ∈ parts, IsGap p.1 ∧ p.1 ≠ []) :
    Spread (parts.map (·.2)) (parts.flatMap fun p => p.1 ++ p.2) := by
  induction parts with
  | nil => exact .nil
  | cons p parts ih =>
    rw [List.map_cons, List.flatMap_cons, List.append_assoc]
    refine .cons (h p List.mem_cons_self).1 ?_ (ih fun q hq => h q (List.mem_cons_of_mem _ hq))
    cases parts with
    | nil => simp [IsApart]
    | cons q parts =>
      have hq := h q (List.mem_cons_of_mem _ List.mem_cons_self)
      obtain ⟨c, gap, hgap⟩ := List.exists_cons_of_ne_nil hq.2
      intro d hd
      rw [List.flatMap_cons, hgap] at hd
      injection hd with hd
      exact hq.1 d (by rw [hgap, hd]; exact List.mem_cons_self)

lemma exists_text (words : List Word) : ∃ text, IsTextOf words text := by
  have hblank : ∀ p ∈ words.map fun w => ([' '], w), IsGap p.1 ∧ p.1 ≠ [] := by
    intro p hp
    obtain ⟨w, -, rfl⟩ := List.mem_map.mp hp
    simp [IsGap, isBlank]
  have hspread := spread_gaps hblank
  rw [List.map_map] at hspread
  exact ⟨_, _, [], by simpa [Function.comp_def] using hspread, by simp [IsGap],
    by rw [String.toList_ofList, List.append_nil]⟩

namespace Numeral

/-- The digits of a natural number. -/
def ofNat (n : Nat) : Numeral where
  whole := Nat.toDigits 10 n
  fraction := []
  exponent := none
  whole_spec := fun _ hc => Nat.isDigit_of_mem_toDigits (by decide) (by decide) hc
  fraction_spec := by simp
  nonempty := .inl Nat.toDigits_ne_nil

lemma ofNat_ne_nil (n : Nat) : (ofNat n).whole ≠ [] := Nat.toDigits_ne_nil

lemma ofNat_denotes {k : Int64} (h : 0 ≤ k.toInt) : (ofNat k.toInt.toNat).Denotes (.int k) := by
  refine .int ⟨rfl, rfl⟩ ?_
  have hdigits : Number.ofDigits (ofNat k.toInt.toNat).whole = k.toInt.toNat :=
    Nat.ofDigitChars_toDigits (by decide) (by decide)
  rw [hdigits, Int.toNat_of_nonneg h, int64?, if_pos ⟨k.minValue_le_toInt, k.toInt_le⟩,
    Int64.ofInt_toInt]

end Numeral

/-- An integer is written with its digits, after a minus sign if it is negative. -/
lemma written_int {k : Int64} (h : k ≠ Int64.minValue) : ∃ n : Numeral, n.whole ≠ [] ∧
    (n.Denotes (.int k) ∨ ∃ v, n.Denotes v ∧ negateNumber v = .int k) := by
  by_cases hk : 0 ≤ k.toInt
  · exact ⟨_, Numeral.ofNat_ne_nil _, .inl (Numeral.ofNat_denotes hk)⟩
  · have hmin : k.toInt ≠ -2 ^ 63 := fun hmin => h (Int64.toInt_inj.mp hmin)
    have hneg : 0 ≤ (-k).toInt := by
      rw [Int64.toInt_neg, Int.bmod_def]
      have hle := k.le_toInt
      split_ifs <;> omega
    refine ⟨_, Numeral.ofNat_ne_nil _, .inr ⟨.int (-k), Numeral.ofNat_denotes hneg, ?_⟩⟩
    rw [negateNumber, Int64.neg_neg]

lemma signed_int {k : Int64} (h : k ≠ Int64.minValue) : ∃ words, Signed (.int k) words := by
  obtain ⟨n, -, hdenotes | ⟨v, hdenotes, hv⟩⟩ := written_int h
  · exact ⟨_, .plain hdenotes⟩
  · exact ⟨_, hv ▸ Signed.minus hdenotes⟩

lemma exists_sampled {kind : PmfKind} {v : Value} (h : IsSample kind v) :
    ∃ words, Sampled kind v words := by
  cases kind <;> cases v <;> try exact h.elim
  · obtain ⟨words, hwords⟩ := signed_int h
    exact ⟨words, .int hwords⟩
  · obtain ⟨v, words, hwords, rfl⟩ := h
    exact ⟨words, .double hwords⟩
  · exact ⟨_, .bool _⟩
  · exact ⟨_, .enum h⟩

lemma exists_bounded {x : Float} (h : IsNumeric x) : ∃ words, Bounded x words := by
  obtain ⟨v, words, hsigned, rfl⟩ := h
  exact ⟨words, .bound hsigned⟩

/-- Every kind of distribution has a name. -/
lemma exists_pmfKind (kind : PmfKind) : ∃ name, pmfKind? name = some kind := by
  cases kind with
  | int => exact ⟨"IntPMF", rfl⟩
  | double => exact ⟨"DoublePMF", rfl⟩
  | bool => exact ⟨"BoolPMF", rfl⟩
  | enum => exact ⟨"EnumPMF", rfl⟩

lemma exists_entries {α : Type} {item : α → List Word → Prop} {found : List (α × Float)}
    (h : ∀ s ∈ found, (∃ words, item s.1 words) ∧ IsNumeric s.2) :
    ∃ words, Entries item found words := by
  induction found with
  | nil => exact ⟨_, .nil⟩
  | cons s found ih =>
    obtain ⟨⟨itemWords, hitem⟩, v, probability, hsigned, hv⟩ := h s List.mem_cons_self
    obtain ⟨words, hwords⟩ := ih fun s hs => h s (List.mem_cons_of_mem _ hs)
    obtain ⟨a, x⟩ := s
    cases hv
    exact ⟨_, .cons hitem hsigned hwords⟩

lemma exists_arguments {arguments : List Tree}
    (h : ∀ a ∈ arguments, ∃ level words, Written level a words) :
    ∃ written : List (Level × Tree × List Word), written.map (·.2.1) = arguments ∧
      ∀ x ∈ written, Written x.1 x.2.1 x.2.2 := by
  induction arguments with
  | nil => exact ⟨[], rfl, by simp⟩
  | cons a arguments ih =>
    obtain ⟨level, words, ha⟩ := h a List.mem_cons_self
    obtain ⟨written, hmap, hwritten⟩ := ih fun a ha => h a (List.mem_cons_of_mem _ ha)
    exact ⟨(level, a, words) :: written, by rw [List.map_cons, hmap],
      List.forall_mem_cons.mpr ⟨ha, hwritten⟩⟩

/-- An expression that has a text can be written. -/
theorem Expressible.exists_written {tree : Tree} (h : Expressible tree) :
    ∃ level words, Written level tree words := by
  induction h with
  | int hk =>
    obtain ⟨n, hwhole, hdenotes | ⟨v, hdenotes, hv⟩⟩ := written_int hk
    · exact ⟨_, _, .number hwhole hdenotes⟩
    · exact ⟨_, _, hv ▸ Written.negative hwhole hdenotes⟩
  | double hx =>
    obtain ⟨n, y, hwhole, hbroken, hread, rfl | rfl⟩ := hx
    · exact ⟨_, _, .number hwhole (.double hbroken hread)⟩
    · exact ⟨_, _, .negative hwhole (.double hbroken hread)⟩
  | bool b => exact ⟨_, _, .truth b⟩
  | enum hquote => exact ⟨_, _, .enum hquote⟩
  | «variable» hname => exact ⟨_, _, .variable hname⟩
  | call hname _ ih =>
    obtain ⟨written, rfl, hwritten⟩ := exists_arguments ih
    exact ⟨_, _, .call written hname hwritten⟩
  | @pmf kind samples nonempty hsamples =>
    obtain ⟨words, hwords⟩ := exists_entries fun s hs =>
      ⟨exists_sampled (hsamples s hs).1, (hsamples s hs).2⟩
    obtain ⟨name, hname⟩ := exists_pmfKind kind
    exact ⟨_, _, .pmf hname nonempty hwords⟩
  | pdf nonempty hintervals =>
    obtain ⟨words, hwords⟩ := exists_entries fun s hs =>
      ⟨exists_bounded (hintervals s hs).1, (hintervals s hs).2⟩
    exact ⟨_, _, .pdf nonempty hwords⟩
  | minus _ hnumber ih =>
    obtain ⟨_, _, hoperand⟩ := ih
    exact ⟨_, _, .minus hoperand hnumber⟩
  | not _ ih =>
    obtain ⟨_, _, hoperand⟩ := ih
    exact ⟨_, _, .not hoperand⟩
  | binary op _ _ ih ih' =>
    obtain ⟨_, _, hleft⟩ := ih
    obtain ⟨_, _, hright⟩ := ih'
    exact ⟨_, _, .binary hleft hright⟩
  | conditional _ _ _ ih₁ ih₂ ih₃ =>
    obtain ⟨_, _, hcondition⟩ := ih₁
    obtain ⟨_, _, hyes⟩ := ih₂
    obtain ⟨_, _, hno⟩ := ih₃
    exact ⟨_, _, .conditional hcondition hyes hno⟩

end Expression

end ServiceSim
