import ServiceSim.Proofs.Expression.Cursor
import ServiceSim.Proofs.Expression.Shape
import ServiceSim.Proofs.Expression.Trimming

/-!
# Reading by index and by characters

Over the bytes of a text the readers by index read what the readers by characters read.  An index
that stands between characters is moved to one that does: by words of the language, which have one
byte for each character, and by loops over classes of characters.  So no slice is cut, and where both
readers fail they fail with the same fault at the same place (`Agrees`).

A reader by index may have skipped white space that a reader by characters leaves to the next one;
the index is then only near the characters that are left (`IsNear`).
-/

namespace ServiceSim.Expression.Cursor

variable {α β γ δ : Type} {text cs rest w : List Char} {i j : Nat}

/-! ## Places -/

/-- The index stands before the characters, or before what is left when white space in front of them
is added or taken away. -/
def IsNear (text : List Char) (i : Nat) (cs : List Char) : Prop :=
  ∃ cs', IsAt text i cs' ∧ Expression.skip cs' = Expression.skip cs

end ServiceSim.Expression.Cursor

namespace ServiceSim.Expression

variable {text cs : List Char} {i : Nat}

lemma IsAt.near (h : IsAt text i cs) : Cursor.IsNear text i cs := ⟨cs, h, rfl⟩

lemma IsAt.near_skip (h : IsAt text i (skip cs)) : Cursor.IsNear text i cs :=
  ⟨skip cs, h, skip_skip cs⟩

end ServiceSim.Expression

namespace ServiceSim.Expression.Cursor

variable {α β γ δ : Type} {text cs rest w : List Char} {i j : Nat}

lemma IsNear.skip (h : IsNear text i cs) :
    IsAt text (skip (encode text) i) (Expression.skip cs) := by
  obtain ⟨cs', hat, hskip⟩ := h
  have hscan := (hat.scan isUniform_blank).2
  rwa [← hskip]

/-! ## Results -/

/-- Two readers that read the same: either both succeed with results in a relation, or both fail with
one fault at one place. -/
inductive Agrees (text : List Char) (R : α → β → Prop) : Except Halt α → Except Stop β → Prop where
  | ok {a : α} {b : β} : R a b → Agrees text R (.ok a) (.ok b)
  | error {fault : GrammarFault} {i : Nat} {rest : List Char} : IsAt text i rest →
      Agrees text R (.error (.fault fault i)) (.error ⟨fault, rest⟩)

/-- What has been read is the same, and so is the place. -/
def Paired (place : Nat → List Char → Prop) (p : α × Nat) (q : α × List Char) : Prop :=
  p.1 = q.1 ∧ place p.2 q.2

namespace Agrees

variable {R : α → β → Prop} {S : γ → δ → Prop} {x : Except Halt α} {y : Except Stop β}

lemma bind {f : α → Except Halt γ} {g : β → Except Stop δ} (h : Agrees text R x y)
    (hfg : ∀ a b, y = .ok b → R a b → Agrees text S (f a) (g b)) :
    Agrees text S (x >>= f) (y >>= g) := by
  cases h with
  | ok hab => exact hfg _ _ rfl hab
  | error hat => exact .error hat

/-- The reader by characters has nothing to add. -/
lemma bind_left {R' : γ → β → Prop} {f : α → Except Halt γ} (h : Agrees text R x y)
    (hf : ∀ a b, R a b → Agrees text R' (f a) (.ok b)) : Agrees text R' (x >>= f) y := by
  cases h with
  | ok hab => exact hf _ _ hab
  | error hat => exact .error hat

end Agrees

/-- A reader by index that reads what a reader by characters reads. -/
def Follows (text : List Char) (read : Nat → Except Halt (α × Nat))
    (read' : List Char → Except Stop (α × List Char)) : Prop :=
  ∀ i cs, IsNear text i cs → Agrees text (Paired (IsAt text)) (read i) (read' cs)

/-! ## Slices -/

lemma suffix_eq (h : IsAt text i cs) : suffix (encode text) i = .ok (encode cs) := by
  rw [suffix, if_pos h.isBoundary, h.drop]

lemma slice_eq (h : IsAt text i (w ++ cs)) :
    slice (encode text) i (i + (encode w).length) = .ok (String.ofList w) := by
  rw [slice, if_pos ⟨Nat.le_add_right _ _, h.isBoundary, h.pass.isBoundary⟩, h.extract,
    fromUTF8?_encode]

/-! ## Symbols and keywords -/

/-- Words that are taken by index if they are read by characters. -/
def Tells (text : List Char) (take : Nat → Except Halt (Bool × Nat))
    (read : List Char → Option (List Char)) : Prop :=
  ∀ i cs, IsNear text i cs →
    (∃ j rest, read cs = some rest ∧ take i = .ok (true, j) ∧ IsAt text j rest) ∨
    (∃ j, read cs = none ∧ take i = .ok (false, j) ∧ IsAt text j (Expression.skip cs))

/-- A word of characters with one byte each. -/
def IsAscii (word : String) : Prop := ∀ c ∈ word.toList, c.toNat < 128

instance (word : String) : Decidable (IsAscii word) := List.decidableBAll _ _

lemma eatIf_tells {accept : Nat → Bool} {accept' : List Char → Bool} {word : String}
    (ascii : IsAscii word) (haccept : ∀ {j rest}, IsAt text j rest → accept j = accept' rest) :
    Tells text (eatIf (encode text) accept word) fun cs =>
      (after? word.toList (Expression.skip cs)).filter accept' := by
  intro i cs h
  have hskip := h.skip
  rw [eatIf]
  dsimp only
  rw [suffix_eq hskip, ok_bind, bytes_eq, isPrefixOf_encode ascii]
  cases hafter : after? word.toList (Expression.skip cs) with
  | none => exact .inr ⟨_, rfl, rfl, hskip⟩
  | some rest =>
    have hat : IsAt text (skip (encode text) i + (encode word.toList).length) rest := by
      rw [after?_eq_some hafter] at hskip
      exact hskip.pass
    rw [haccept hat]
    cases hrest : accept' rest with
    | true => exact .inl ⟨_, rest, by simp [Option.filter, hrest], rfl, hat⟩
    | false => exact .inr ⟨_, by simp [Option.filter, hrest], rfl, hskip⟩

lemma eat_tells {symbol : String} (ascii : IsAscii symbol) :
    Tells text (eat (encode text) symbol) (symbol? symbol) := by
  intro i cs h
  have hread : (after? symbol.toList (Expression.skip cs)).filter (fun _ => true) =
      symbol? symbol cs := by
    rw [symbol?]
    cases after? symbol.toList (Expression.skip cs) <;> rfl
  rw [← hread]
  exact eatIf_tells ascii (fun _ => rfl) i cs h

lemma eatKeyword_tells {keyword : String} (ascii : IsAscii keyword) :
    Tells text (eatKeyword (encode text) keyword) (keyword? keyword) :=
  eatIf_tells ascii fun hat => by rw [hat.has_eq isUniform_nameChar]

/-- What is done after a word that may be there. -/
lemma Tells.bind {take : Nat → Except Halt (Bool × Nat)} {read : List Char → Option (List Char)}
    {R : α → β → Prop} {f : Bool × Nat → Except Halt α} {y : Except Stop β}
    (h : Tells text take read) (hnear : IsNear text i cs)
    (hsome : ∀ j rest, read cs = some rest → IsAt text j rest → Agrees text R (f (true, j)) y)
    (hnone : ∀ j, read cs = none → IsAt text j (Expression.skip cs) →
      Agrees text R (f (false, j)) y) :
    Agrees text R (take i >>= f) y := by
  rcases h i cs hnear with ⟨j, rest, hread, htake, hat⟩ | ⟨j, hread, htake, hat⟩
  · rw [htake, ok_bind]
    exact hsome j rest hread hat
  · rw [htake, ok_bind]
    exact hnone j hread hat

lemma expect_agrees {symbol : String} (ascii : IsAscii symbol) (h : IsNear text i cs) :
    Agrees text (IsAt text) (expect (encode text) symbol i) (Expression.expect symbol cs) := by
  rw [expect, Expression.expect]
  refine (eat_tells ascii).bind h (fun j rest hread hat => ?_) fun j hread hat => ?_
  · rw [hread]
    exact .ok hat
  · rw [hread]
    exact .error hat

/-- The operator of a level is taken by index if it is read by characters. -/
inductive Found (text : List Char) : Except Halt (Option BinaryOp × Nat) →
    Option (BinaryOp × List Char) → List Char → Prop where
  | some {op : BinaryOp} {j : Nat} {rest cs : List Char} : IsAt text j rest →
      Found text (.ok (some op, j)) (some (op, rest)) cs
  | none {j : Nat} {cs : List Char} : IsNear text j cs → Found text (.ok (none, j)) none cs

lemma firstOf_found {take : String → Nat → Except Halt (Bool × Nat)}
    {read : String → List Char → Option (List Char)} {operators : List (String × BinaryOp)}
    (h : ∀ p ∈ operators, Tells text (take p.1) (read p.1)) (hnear : IsNear text i cs) :
    Found text (firstOf take i operators) (Expression.firstOf read cs operators) cs := by
  induction operators generalizing i with
  | nil => exact .none hnear
  | cons p operators ih =>
    rw [firstOf, Expression.firstOf]
    rcases h p List.mem_cons_self i cs hnear with ⟨j, rest, hread, htake, hat⟩ | ⟨j, hread, htake, hat⟩
    · rw [htake, hread]
      exact .some hat
    · rw [htake, hread]
      exact ih (fun q hq => h q (List.mem_cons_of_mem _ hq)) hat.near_skip

lemma operator_found (level : Level) (h : IsNear text i cs) :
    Found text (operator (encode text) level i) (operator? level cs) cs := by
  have hsymbols : ∀ {operators : List (String × BinaryOp)}, (∀ p ∈ operators, IsAscii p.1) →
      Found text (firstOf (eat (encode text)) i operators)
        (Expression.firstOf symbol? cs operators) cs :=
    fun ascii => firstOf_found (fun p hp => eat_tells (ascii p hp)) h
  have hkeywords : ∀ {operators : List (String × BinaryOp)}, (∀ p ∈ operators, IsAscii p.1) →
      Found text (firstOf (eatKeyword (encode text)) i operators)
        (Expression.firstOf keyword? cs operators) cs :=
    fun ascii => firstOf_found (fun p hp => eatKeyword_tells (ascii p hp)) h
  cases level
  case disjunction => exact hkeywords (by decide)
  case conjunction => exact hkeywords (by decide)
  case comparison => exact hsymbols (by decide)
  case sum => exact hsymbols (by decide)
  case product => exact hsymbols (by decide)
  case power => exact hsymbols (by decide)
  all_goals exact .none h

/-- What is done after an operator of a level that may be there. -/
lemma operator_bind {level : Level} {R : α → β → Prop}
    {f : Option BinaryOp × Nat → Except Halt α} {y : Except Stop β} (hnear : IsNear text i cs)
    (hsome : ∀ op j rest, operator? level cs = some (op, rest) → IsAt text j rest →
      Agrees text R (f (some op, j)) y)
    (hnone : ∀ j, operator? level cs = none → IsNear text j cs → Agrees text R (f (none, j)) y) :
    Agrees text R (operator (encode text) level i >>= f) y := by
  have hfound := operator_found level hnear
  generalize hread : operator? level cs = found at hfound hsome hnone
  generalize operator (encode text) level i = taken at hfound
  cases hfound with
  | some hat => exact hsome _ _ _ rfl hat
  | none hnear => exact hnone _ rfl hnear

/-! ## Numbers -/

lemma digits_at (h : IsAt text i cs) :
    digits (encode text) i = i + (encode (cs.takeWhile Char.isDigit)).length ∧
      IsAt text (digits (encode text) i) (cs.dropWhile Char.isDigit) :=
  h.scan isUniform_digit

/-- A digit at an index is the first of those that are taken from there. -/
lemma has_digit (h : IsAt text i cs) :
    has (encode text) Char.isDigit i = !(cs.takeWhile Char.isDigit).isEmpty := by
  rw [h.has_eq isUniform_digit]
  cases cs with
  | nil => rfl
  | cons c cs =>
    cases hc : c.isDigit with
    | true => simp [hc]
    | false => simp [hc]

lemma fractionText_eq {fraction : List Char} (h : fraction.isEmpty = false) :
    Numeral.fractionText fraction = '.' :: fraction := by
  cases fraction with
  | nil => cases h
  | cons d ds => rfl

/-- A fraction at an index, or none, and what follows it. -/
structure FractionAt (text : List Char) (i : Nat) (cs fraction rest : List Char) : Prop where
  read : fractionOf cs = (fraction, rest)
  digits : ∀ c ∈ fraction, c.isDigit = true
  split : cs = Numeral.fractionText fraction ++ rest
  taken : fractionEnd (encode text) i =
    (!fraction.isEmpty, i + (encode (Numeral.fractionText fraction)).length)

/-- A fraction ends where it does by characters. -/
lemma exists_fraction (h : IsAt text i cs) : ∃ fraction rest, FractionAt text i cs fraction rest := by
  have hpoint := h.has_eq (isUniform_beq (d := '.') (by decide))
  -- Without a point or without digits behind it nothing is taken.
  have hnothing : fractionPart cs = none →
      (has (encode text) (· == '.') i && has (encode text) Char.isDigit (i + 1)) = false →
      FractionAt text i cs [] cs := by
    intro hpart hhas
    refine ⟨by rw [fractionOf, hpart]; rfl, by simp, rfl, ?_⟩
    rw [fractionEnd, hhas]
    rfl
  by_cases hhead : ∃ more, cs = '.' :: more
  · obtain ⟨more, rfl⟩ := hhead
    have hnext := h.next (by decide)
    have hdigit := has_digit hnext
    obtain ⟨hend, -⟩ := digits_at hnext
    have hpart : fractionPart ('.' :: more) =
        if (more.takeWhile Char.isDigit).isEmpty then none
        else some (more.takeWhile Char.isDigit, more.dropWhile Char.isDigit) := rfl
    cases hempty : (more.takeWhile Char.isDigit).isEmpty with
    | true =>
      rw [hempty] at hdigit hpart
      exact ⟨[], _, hnothing hpart (by rw [hdigit, Bool.not_true, Bool.and_false])⟩
    | false =>
      rw [hempty] at hdigit hpart
      refine ⟨more.takeWhile Char.isDigit, more.dropWhile Char.isDigit, ?_,
        fun c hc => List.mem_takeWhile_imp hc, ?_, ?_⟩
      · rw [fractionOf, hpart]
        rfl
      · rw [fractionText_eq hempty, List.cons_append, List.takeWhile_append_dropWhile]
      · rw [fractionEnd, hpoint, hdigit, hend, fractionText_eq hempty, hempty, encode_cons,
          List.length_append]
        exact congrArg (Prod.mk true) (Nat.add_assoc _ _ _)
  · have hne : ∀ c ∈ cs.head?, c ≠ '.' := by
      rintro c hc rfl
      obtain ⟨more, rfl⟩ := List.head?_eq_some_iff.mp hc
      exact hhead ⟨more, rfl⟩
    refine ⟨[], cs, hnothing (fractionPart_other hne) ?_⟩
    rw [hpoint, Bool.and_eq_false_iff]
    cases cs with
    | nil => exact .inl rfl
    | cons c cs => exact .inl (by simpa using hne c rfl)

/-- A sign or none, and the place after it. -/
lemma exists_sign (h : IsAt text i cs) : ∃ sign, (sign = [] ∨ sign = ['+'] ∨ sign = ['-']) ∧
    cs = sign ++ (Number.afterSign cs).2 ∧ (Number.afterSign cs).1 = decide (sign = ['-']) ∧
    (if has (encode text) (fun c => c == '+' || c == '-') i then i + 1 else i) =
      i + (encode sign).length := by
  have hsign := h.has_eq ((isUniform_beq (d := '+') (by decide)).or
    (isUniform_beq (d := '-') (by decide)))
  rw [hsign]
  unfold Number.afterSign
  split
  · exact ⟨['+'], .inr (.inl rfl), rfl, rfl, rfl⟩
  · exact ⟨['-'], .inr (.inr rfl), rfl, rfl, rfl⟩
  next hplus hminus =>
    refine ⟨[], .inl rfl, rfl, rfl, ?_⟩
    cases cs with
    | nil => rfl
    | cons c cs =>
      have hc : c ≠ '+' ∧ c ≠ '-' := by
        refine ⟨?_, ?_⟩
        · rintro rfl
          exact hplus cs rfl
        · rintro rfl
          exact hminus cs rfl
      simp [hc]

/-- An exponent at an index, or none, and what follows it. -/
structure ExponentAt (text : List Char) (i : Nat) (cs : List Char) (exponent : Option Exponent)
    (rest : List Char) : Prop where
  read : exponentOf cs = (Numeral.scale exponent, rest)
  split : cs = Numeral.exponentText exponent ++ rest
  taken : exponentEnd (encode text) i =
    (exponent.isSome, i + (encode (Numeral.exponentText exponent)).length)

/-- An exponent ends where it does by characters. -/
lemma exists_exponent (h : IsAt text i cs) : ∃ exponent rest, ExponentAt text i cs exponent rest := by
  have hmark := h.has_eq ((isUniform_beq (d := 'e') (by decide)).or
    (isUniform_beq (d := 'E') (by decide)))
  -- Without a mark or without digits behind it nothing is taken.
  have hnothing : Number.exponentPart cs = none → exponentEnd (encode text) i = (false, i) →
      ExponentAt text i cs none cs :=
    fun hpart hend => ⟨by rw [exponentOf, hpart]; rfl, rfl, hend⟩
  cases cs with
  | nil => exact ⟨none, [], hnothing rfl (by rw [exponentEnd, hmark]; rfl)⟩
  | cons c cs =>
    have hpart := Number.exponentPart_cons c cs
    by_cases hc : c = 'e' ∨ c = 'E'
    · have hascii : c.toNat < 128 := by rcases hc with rfl | rfl <;> decide
      have hfound : has (encode text) (fun c => c == 'e' || c == 'E') i = true := by
        rw [hmark]
        simpa using hc
      have hnext := h.next hascii
      obtain ⟨sign, hsign, hcs, hminus, hplace⟩ := exists_sign hnext
      have hafter : IsAt text (i + 1 + (encode sign).length) (Number.afterSign cs).2 := by
        rw [hcs] at hnext
        exact hnext.pass
      have hindex : exponentEnd (encode text) i =
          if has (encode text) Char.isDigit (i + 1 + (encode sign).length) then
            (true, digits (encode text) (i + 1 + (encode sign).length))
          else (false, i) := by
        rw [exponentEnd, if_pos hfound, ← hplace]
      rw [if_pos hc] at hpart
      dsimp only at hpart
      rw [has_digit hafter, (digits_at hafter).1] at hindex
      cases hempty : ((Number.afterSign cs).2.takeWhile Char.isDigit).isEmpty with
      | true =>
        rw [hempty] at hpart hindex
        exact ⟨none, _, hnothing hpart hindex⟩
      | false =>
        rw [hempty, hminus] at hpart
        rw [hempty] at hindex
        refine ⟨some ⟨c, sign, (Number.afterSign cs).2.takeWhile Char.isDigit, hc, hsign,
          List.isEmpty_eq_false_iff.mp hempty, fun c hc => List.mem_takeWhile_imp hc⟩,
          (Number.afterSign cs).2.dropWhile Char.isDigit, ?_, ?_, ?_⟩
        · rw [exponentOf, hpart]
          simp [Numeral.scale]
        · rw [Numeral.exponentText, List.cons_append, List.append_assoc,
            List.takeWhile_append_dropWhile, ← hcs]
        · rw [hindex, Numeral.exponentText, encode_cons, encode_append, utf8EncodeChar_ascii hascii,
            List.length_append, List.length_append]
          refine congrArg (Prod.mk true) ?_
          dsimp only [List.length_singleton]
          omega
    · rw [if_neg hc] at hpart
      refine ⟨none, _, hnothing hpart ?_⟩
      rw [exponentEnd, if_neg]
      rw [hmark]
      simpa using hc

/-- The first character of a decimal: a digit, a point or the mark of an exponent. -/
def isDecimalStart (c : Char) : Bool := c.isDigit || c == '.' || c == 'e' || c == 'E'

lemma isDecimalStart_spec {c : Char} (h : isDecimalStart c = true) :
    c.toLower ≠ 'i' ∧ c.toLower ≠ 'n' ∧ c ≠ '-' ∧ c ≠ '+' := by
  have hall : ∀ n < 128, isDecimalStart (Char.ofNat n) = true → (Char.ofNat n).toLower ≠ 'i' ∧
      (Char.ofNat n).toLower ≠ 'n' ∧ Char.ofNat n ≠ '-' ∧ Char.ofNat n ≠ '+' := by decide
  have hlt : c.toNat < 128 := by
    simp only [isDecimalStart, Bool.or_eq_true, beq_iff_eq] at h
    rcases h with ((h | rfl) | rfl) | rfl
    · refine toNat_lt_of_nameChar ?_
      rw [isNameChar, Char.isAlphanum, h, Bool.or_true, Bool.true_or]
    · decide
    · decide
    · decide
  have hc := hall c.toNat hlt
  rw [Char.ofNat_toNat] at hc
  exact hc h

/-- A text that begins as a decimal has no sign and is no name of a special value. -/
lemma float?_decimal {c : Char} {more : List Char} (h : isDecimalStart c = true) :
    Number.float? (String.ofList (c :: more)) = Number.unsigned? (c :: more) := by
  obtain ⟨hi, hn, hminus, hplus⟩ := isDecimalStart_spec h
  have hspecial : ∀ {d : Char} (name : List Char), c.toLower ≠ d →
      String.ofList ((c :: more).map Char.toLower) ≠ String.ofList (d :: name) := by
    intro d name hd heq
    have hlist := congrArg String.toList heq
    rw [String.toList_ofList, String.toList_ofList, List.map_cons] at hlist
    exact hd (List.cons.inj hlist).1
  rw [Number.float?, String.toList_ofList]
  split
  next negative body heq =>
  have hbody : (false, c :: more) = (negative, body) := by
    rw [← heq]
    split
    next heq => exact absurd (List.cons.inj heq).1 hminus
    next heq => exact absurd (List.cons.inj heq).1 hplus
    next => rfl
  injection hbody with hnegative hbody
  subst hnegative hbody
  dsimp only
  simp only [Bool.false_eq_true, if_false, Option.map_id']
  split
  next heq => exact absurd heq (hspecial ['n', 'f'] hi)
  next heq => exact absurd heq (hspecial ['n', 'f', 'i', 'n', 'i', 't', 'y'] hi)
  next heq => exact absurd heq (hspecial ['a', 'n'] hn)
  next => rfl

/-- Digits denote an integer. -/
lemma int?_ofList (digits : ∀ c ∈ w, c.isDigit = true) (nonempty : w ≠ []) :
    Number.int? (String.ofList w) = some (Number.ofDigits w : Int) := by
  obtain ⟨c, more, rfl⟩ := List.exists_cons_of_ne_nil nonempty
  have hc : c.isDigit = true := digits c List.mem_cons_self
  have hminus : c ≠ '-' := ne_of_class hc rfl
  have hplus : c ≠ '+' := ne_of_class hc rfl
  have hnat : Number.nat? (String.ofList (c :: more)) = some (Number.ofDigits (c :: more)) := by
    rw [Number.nat?, String.toList_ofList]
    split
    next r heq => exact absurd (List.cons.inj heq).1 hplus
    next => exact if_pos ⟨nonempty, List.all_eq_true.mpr digits⟩
  rw [Number.int?, String.toList_ofList]
  split
  next r heq => exact absurd (List.cons.inj heq).1 hminus
  next => rw [hnat]; rfl

/-- The characters of a number, of which there is one, begin as a decimal. -/
lemma decimal_head {whole fraction : List Char} {exponent : Option Exponent}
    (hwhole : ∀ c ∈ whole, c.isDigit = true)
    (hw : w = whole ++ (Numeral.fractionText fraction ++ Numeral.exponentText exponent))
    (nonempty : w ≠ []) : ∃ c more, w = c :: more ∧ isDecimalStart c = true := by
  subst hw
  cases whole with
  | cons d whole =>
    refine ⟨d, _, rfl, ?_⟩
    rw [isDecimalStart, hwhole d List.mem_cons_self]
    rfl
  | nil =>
    cases fraction with
    | cons d fraction => exact ⟨'.', _, rfl, rfl⟩
    | nil =>
      cases exponent with
      | none => exact absurd rfl nonempty
      | some e =>
        refine ⟨e.mark, _, rfl, ?_⟩
        rcases e.mark_spec with hmark | hmark <;> rw [hmark] <;> rfl

/-- An exponent by itself is no decimal. -/
lemma unsigned?_exponent (e : Exponent) :
    Number.unsigned? (Numeral.exponentText (some e)) = none := by
  have hmark : e.mark.isDigit = false ∧ e.mark ≠ '.' := by
    rcases e.mark_spec with hmark | hmark <;> rw [hmark] <;> decide
  rw [Numeral.exponentText, Number.unsigned?, List.takeWhile_cons_of_neg (by simp [hmark.1]),
    List.dropWhile_cons_of_neg (by simp [hmark.1])]
  split
  next fraction rest heq =>
  have hfraction : fraction = [] := by
    split at heq
    next hpoint => exact absurd (List.cons.inj hpoint).1 hmark.2
    next => exact (Prod.mk.inj heq).1.symm
  rw [hfraction]
  rfl

/-- Characters between the ends of a number. -/
lemma valueBetween_decimal {c : Char} {more : List Char} (h : IsAt text i (c :: more ++ rest))
    (hstart : isDecimalStart c = true) (real : Bool) :
    valueBetween (encode text) i (i + (encode (c :: more)).length) real =
      if real then
        match Number.unsigned? (c :: more) with
        | some x => .ok (.double x, i + (encode (c :: more)).length)
        | none => .error (.fault .doubleLiteral (i + (encode (c :: more)).length))
      else
        match (Number.int? (String.ofList (c :: more))).bind int64? with
        | some n => .ok (.int n, i + (encode (c :: more)).length)
        | none => .error (.fault .integerLiteral (i + (encode (c :: more)).length)) := by
  have hlength := length_le_encode (c :: more)
  rw [List.length_cons] at hlength
  rw [valueBetween, if_neg (by omega), slice_eq h, ok_bind, float?_decimal hstart]
  rfl

/-- The value of a number whose parts have been found. -/
lemma valueBetween_agrees {whole fraction : List Char} {exponent : Option Exponent}
    (hwhole : ∀ c ∈ whole, c.isDigit = true) (hfraction : ∀ c ∈ fraction, c.isDigit = true)
    (hw : w = whole ++ (Numeral.fractionText fraction ++ Numeral.exponentText exponent))
    (h : IsAt text i (w ++ rest)) :
    Agrees text (Paired (IsAt text))
      (valueBetween (encode text) i (i + (encode w).length) (!fraction.isEmpty || exponent.isSome))
      (numberOf whole fraction (Numeral.scale exponent) rest) := by
  have hafter := h.pass
  by_cases hnone : w = []
  · -- No part was found.
    subst hnone
    obtain ⟨rfl, hparts⟩ := List.append_eq_nil_iff.mp hw.symm
    obtain ⟨hpoint, hmark⟩ := List.append_eq_nil_iff.mp hparts
    cases fraction with
    | cons d fraction => cases hpoint
    | nil =>
      cases exponent with
      | some e => cases hmark
      | none =>
        rw [valueBetween, if_pos (by rfl)]
        exact .error hafter
  obtain ⟨c, more, hhead, hstart⟩ := decimal_head hwhole hw hnone
  rw [hhead] at h hafter ⊢
  rw [valueBetween_decimal h hstart, ← hhead, numberOf]
  rw [← hhead] at hafter
  by_cases hempty : whole.isEmpty = true ∧ fraction.isEmpty = true
  · -- Only an exponent was found.
    rw [if_pos hempty]
    rw [List.isEmpty_iff, List.isEmpty_iff] at hempty
    obtain ⟨rfl, rfl⟩ := hempty
    cases exponent with
    | none => exact absurd hw hnone
    | some e =>
      have hnot : Number.unsigned? w = none := by
        rw [hw]
        exact unsigned?_exponent e
      have hreal : (!([] : List Char).isEmpty || (some e).isSome) = true := rfl
      rw [if_pos hreal, hnot]
      exact .error hafter
  rw [if_neg hempty]
  by_cases hinteger : fraction.isEmpty = true ∧ Numeral.scale exponent = none
  · rw [if_pos hinteger]
    rw [List.isEmpty_iff] at hinteger
    obtain ⟨rfl, hscale⟩ := hinteger
    cases exponent with
    | some e => cases hscale
    | none =>
      have hdigits : w = whole := by
        rw [hw]
        exact List.append_nil whole
      have hint : Number.int? (String.ofList w) = some (Number.ofDigits whole : Int) := by
        rw [hdigits] at hnone ⊢
        exact int?_ofList hwhole hnone
      rw [if_neg (by simp), hint, Option.bind_some]
      cases int64? (Number.ofDigits whole) with
      | none => exact .error hafter
      | some n => exact .ok ⟨rfl, hafter⟩
  · rw [if_neg hinteger]
    have hreal : (!fraction.isEmpty || exponent.isSome) = true := by
      cases exponent with
      | some e => exact Bool.or_true _
      | none => simpa using fun hnil => hinteger ⟨by simpa using hnil, rfl⟩
    have hnonempty : whole ≠ [] ∨ fraction ≠ [] := by
      rw [List.isEmpty_iff, List.isEmpty_iff] at hempty
      exact not_and_or.mp hempty
    have hvalue := Numeral.unsigned?_text ⟨whole, fraction, exponent, hwhole, hfraction, hnonempty⟩
    rw [Numeral.text, ← hw] at hvalue
    rw [if_pos hreal, hvalue]
    exact .ok ⟨rfl, hafter⟩

lemma number_agrees (h : IsAt text i cs) :
    Agrees text (Paired (IsAt text)) (number (encode text) i) (Expression.number cs) := by
  obtain ⟨hwhole, hafter⟩ := digits_at h
  obtain ⟨fraction, rest₁, hfraction⟩ := exists_fraction hafter
  have hat₁ : IsAt text _ rest₁ := IsAt.pass (hfraction.split ▸ hafter)
  obtain ⟨exponent, rest, hexponent⟩ := exists_exponent hat₁
  have hcs : cs = cs.takeWhile Char.isDigit ++
      (Numeral.fractionText fraction ++ Numeral.exponentText exponent) ++ rest := by
    rw [List.append_assoc, List.append_assoc, ← hexponent.split, ← hfraction.split,
      List.takeWhile_append_dropWhile]
  have hend : digits (encode text) i + (encode (Numeral.fractionText fraction)).length +
      (encode (Numeral.exponentText exponent)).length =
      i + (encode (cs.takeWhile Char.isDigit ++
        (Numeral.fractionText fraction ++ Numeral.exponentText exponent))).length := by
    rw [hwhole, encode_append, encode_append, List.length_append, List.length_append]
    omega
  have hindex : number (encode text) i = valueBetween (encode text) i
      (i + (encode (cs.takeWhile Char.isDigit ++
        (Numeral.fractionText fraction ++ Numeral.exponentText exponent))).length)
      (!fraction.isEmpty || exponent.isSome) := by
    rw [number, hfraction.taken]
    dsimp only
    rw [hexponent.taken, hend]
  rw [hindex, number_eq, hfraction.read]
  dsimp only
  rw [hexponent.read]
  exact valueBetween_agrees (fun c hc => List.mem_takeWhile_imp hc) hfraction.digits rfl (hcs ▸ h)

lemma signedNumber_follows :
    Follows text (signedNumber (encode text)) Expression.signedNumber := by
  intro i cs h
  rw [signedNumber, Expression.signedNumber]
  refine (eat_tells (by decide)).bind h (fun j rest hread hat => ?_) fun j hread hat => ?_
  · rw [hread]
    refine (number_agrees hat.near.skip).bind ?_
    rintro ⟨value, k⟩ ⟨value', rest'⟩ _ ⟨hvalue, hat'⟩
    exact .ok ⟨congrArg negateNumber hvalue, hat'⟩
  · rw [hread]
    exact (number_agrees hat.near_skip.skip).bind_left fun _ _ hpq => .ok hpq

/-- What is read as a number is one. -/
lemma toDouble?_signed {v : Value} (h : IsSigned v) : v.toDouble? = some (doubleOf v) := by
  cases v with
  | int n => rfl
  | double x => rfl
  | bool b => cases h
  | enum text => cases h

lemma signedDouble_follows (message : String) :
    Follows text (signedDouble (encode text) message) Expression.signedDouble := by
  intro i cs h
  refine (signedNumber_follows i cs h).bind ?_
  rintro ⟨value, j⟩ ⟨value', rest⟩ hread hpair
  obtain ⟨hvalue, hat⟩ := hpair
  dsimp only at hvalue hat ⊢
  rw [hvalue, toDouble?_signed (signedNumber_yields _ _ _ hread)]
  exact .ok ⟨rfl, hat⟩

/-! ## Strings and names -/

lemma stringLiteral_follows :
    Follows text (stringLiteral (encode text)) Expression.stringLiteral := by
  intro i cs h
  have hskip := h.skip
  have hquote : IsUniform (· == '"') := isUniform_beq (by decide)
  rw [stringLiteral]
  by_cases hopen : ∃ inner, Expression.skip cs = '"' :: inner
  · obtain ⟨inner, hinner⟩ := hopen
    rw [hinner] at hskip
    have hother : IsUniform (· != '"') := hquote.not
    have hnext := hskip.next (by decide)
    obtain ⟨hend, hat⟩ := hnext.scan hother
    have hfound : has (encode text) (· == '"') (skip (encode text) i) = true :=
      hskip.has_cons hquote
    rw [if_pos hfound, stringLiteral_quote hinner]
    cases hclosing : inner.dropWhile (· != '"') with
    | nil =>
      rw [hclosing] at hat
      rw [if_neg (by simpa using hat.lt_iff)]
      exact .error hat
    | cons d after =>
      have hd : d = '"' := by simpa using (span_closed hclosing []).1
      rw [hclosing, hd] at hat
      have hinside : IsAt text (skip (encode text) i + 1)
          (inner.takeWhile (· != '"') ++ inner.dropWhile (· != '"')) := by
        rwa [List.takeWhile_append_dropWhile]
      rw [if_pos (hat.lt_iff.mpr (by simp)), hend, slice_eq hinside, ok_bind]
      rw [hend] at hat
      exact .ok ⟨rfl, hat.next (by decide)⟩
  · have hne : has (encode text) (· == '"') (skip (encode text) i) = false := by
      cases hcs : Expression.skip cs with
      | nil => exact IsAt.has_nil (hcs ▸ hskip) hquote
      | cons c inner =>
        rw [IsAt.has_cons (hcs ▸ hskip) hquote]
        refine beq_false_of_ne ?_
        rintro rfl
        exact hopen ⟨inner, hcs⟩
    rw [if_neg (by simp [hne]), Expression.stringLiteral]
    split
    next inner hinner => exact absurd ⟨inner, hinner⟩ hopen
    next => exact .error hskip

/-- Whether a name goes on at a character. -/
lemma inName_cons {c : Char} (h : IsAt text i (c :: cs)) : inName (encode text) i =
    (isNameChar c || (c == '.' && (cs.head?.map isNameStart).getD false)) := by
  rw [inName, h.has_cons isUniform_nameChar, h.has_cons (isUniform_beq (by decide))]
  by_cases hc : c = '.'
  · subst hc
    rw [(h.next (by decide)).has_eq isUniform_nameStart]
  · rw [beq_false_of_ne hc, Bool.false_and, Bool.false_and]

/-- A name ends where it does by characters. -/
lemma scan_name (h : IsAt text i cs) : cs = (nameRest cs).1 ++ (nameRest cs).2 ∧
    scan (encode text) (inName (encode text)) i = i + (encode (nameRest cs).1).length := by
  induction cs generalizing i with
  | nil =>
    have hend := h.length
    rw [encode_nil, List.length_nil, Nat.add_zero] at hend
    rw [scan_end (by omega)]
    exact ⟨rfl, rfl⟩
  | cons c cs ih =>
    have hin := inName_cons h
    cases hc : isNameChar c || (c == '.' && (cs.head?.map isNameStart).getD false) with
    | false =>
      have hname : nameRest (c :: cs) = ([], c :: cs) := by rw [nameRest, if_neg (by simp [hc])]
      rw [scan_stop (hin.trans hc), hname]
      exact ⟨rfl, rfl⟩
    | true =>
      have hname : nameRest (c :: cs) = (c :: (nameRest cs).1, (nameRest cs).2) := by
        rw [nameRest, if_pos hc]
      have hascii : c.toNat < 128 := by
        rw [Bool.or_eq_true, Bool.and_eq_true, beq_iff_eq] at hc
        rcases hc with hc | ⟨rfl, -⟩
        · exact toNat_lt_of_nameChar hc
        · decide
      have hstep : scan (encode text) (inName (encode text)) i =
          scan (encode text) (inName (encode text)) (i + 1) := by
        rw [scan, if_pos ⟨h.lt_iff.mpr (by simp), hin.trans hc⟩]
      obtain ⟨hsplit, hscan⟩ := ih (h.next hascii)
      rw [hname, hstep, hscan]
      refine ⟨congrArg (c :: ·) hsplit, ?_⟩
      rw [encode_cons, utf8EncodeChar_ascii hascii, List.length_append, List.length_singleton]
      omega

/-- A name that begins is read by index. -/
lemma identifier_eq {c : Char} (h : IsAt text i (c :: cs)) (hc : isNameStart c = true) : ∃ j,
    identifier (encode text) i = .ok (String.ofList (nameRest (c :: cs)).1, j) ∧
      IsAt text j (nameRest (c :: cs)).2 := by
  obtain ⟨hsplit, hscan⟩ := scan_name h
  have htakes := (nameRest_takes hc cs).length
  have hnonempty := length_le_encode (nameRest (c :: cs)).1
  have hlength := congrArg List.length hsplit
  rw [List.length_append] at hlength
  have hname : IsAt text i ((nameRest (c :: cs)).1 ++ (nameRest (c :: cs)).2) := hsplit ▸ h
  refine ⟨_, ?_, hname.pass⟩
  rw [identifier, hscan, if_neg (by omega), slice_eq hname]
  rfl

/-! ## Distributions -/

lemma sample_follows (kind : PmfKind) :
    Follows text (sample (encode text) kind) (Expression.sample kind) := by
  intro i cs h
  have hskip : IsNear text (skip (encode text) i) cs := h.skip.near_skip
  cases kind with
  | int =>
    refine (signedNumber_follows _ cs hskip).bind ?_
    rintro ⟨v, j⟩ ⟨v', rest⟩ _ ⟨hv, hat⟩
    dsimp only at hv hat ⊢
    subst hv
    cases v with
    | int n => exact .ok ⟨rfl, hat⟩
    | _ => exact .error hat
  | double =>
    have hread : Expression.sample .double cs =
        Expression.signedNumber cs >>= fun p => .ok (.double (doubleOf p.1), p.2) := by
      rw [Expression.sample, Expression.signedDouble]
      cases Expression.signedNumber cs <;> rfl
    rw [hread]
    refine (signedNumber_follows _ cs hskip).bind ?_
    rintro ⟨v, j⟩ ⟨v', rest⟩ hv' ⟨hv, hat⟩
    have hsigned := signedNumber_yields _ _ _ hv'
    dsimp only at hv hat ⊢
    subst hv
    cases v with
    | int n => exact .ok ⟨rfl, hat⟩
    | double x => exact .ok ⟨rfl, hat⟩
    | _ => cases hsigned
  | bool =>
    rw [Expression.sample]
    refine (eatKeyword_tells (by decide)).bind hskip (fun j rest hread hat => ?_)
      fun j hread hat => ?_
    · rw [hread]
      exact .ok ⟨rfl, hat⟩
    rw [hread]
    refine (eatKeyword_tells (by decide)).bind hat.near_skip (fun k rest hread' hat' => ?_)
      fun k hread' hat' => ?_
    · rw [hread']
      exact .ok ⟨rfl, hat'⟩
    · rw [hread']
      exact .error hat'
  | enum =>
    refine (stringLiteral_follows _ cs hskip).bind ?_
    rintro ⟨s, j⟩ ⟨s', rest⟩ _ ⟨hs, hat⟩
    exact .ok ⟨congrArg Value.enum hs, hat⟩

/-- What is left is shorter. -/
lemma length_of_stopsEarly {read : List Char → Except Stop (α × List Char)} {a : α}
    (h : StopsEarly read) (hread : read cs = .ok (a, rest)) : rest.length < cs.length := by
  have hgap : IsGap [] := by simp [IsGap]
  have hread : read (cs ++ []) = .ok (a, rest) := by rwa [List.append_nil]
  obtain ⟨rest', hrest, htakes, -⟩ := h hgap hread
  rw [List.append_nil] at hrest
  rw [hrest]
  exact htakes.length

variable {item : Nat → Except Halt (α × Nat)} {item' : List Char → Except Stop (α × List Char)}

lemma entry_follows (h : Follows text item item') :
    Follows text (entry (encode text) item) (Expression.entry item') := by
  intro i cs hnear
  refine (expect_agrees (by decide) hnear).bind fun i₁ cs₁ _ hat₁ => ?_
  refine (h i₁ cs₁ hat₁.near).bind ?_
  rintro ⟨a, i₂⟩ ⟨a', cs₂⟩ _ ⟨ha, hat₂⟩
  refine (expect_agrees (by decide) hat₂.near).bind fun i₃ cs₃ _ hat₃ => ?_
  refine (signedDouble_follows _ i₃ cs₃ hat₃.near).bind ?_
  rintro ⟨x, i₄⟩ ⟨x', cs₄⟩ _ ⟨hx, hat₄⟩
  refine (expect_agrees (by decide) hat₄.near).bind fun i₅ cs₅ _ hat₅ => ?_
  exact .ok ⟨congrArg₂ Prod.mk ha hx, hat₅⟩

/-- Bounds on the number of entries that are larger than what is left are not reached. -/
lemma entries_agree (h : Follows text item item') (early : StopsEarly item') {bound bound' : Nat}
    (hnear : IsNear text i cs) (hbound : cs.length < bound) (hbound' : cs.length < bound') :
    Agrees text (Paired (IsAt text)) (entries (encode text) item bound i)
      (Expression.entries item' bound' cs) := by
  induction bound generalizing i cs bound' with
  | zero => exact absurd hbound (Nat.not_lt_zero _)
  | succ bound ih =>
    obtain ⟨bound', rfl⟩ := Nat.exists_eq_succ_of_ne_zero (Nat.ne_zero_of_lt hbound')
    rw [entries, Expression.entries]
    refine (eat_tells (by decide)).bind hnear (fun j rest hread hat => ?_) fun j hread hat => ?_
    · rw [hread]
      exact .ok ⟨rfl, hat⟩
    rw [hread]
    refine (entry_follows h j cs hat.near_skip).bind ?_
    rintro ⟨p, k⟩ ⟨p', cs₁⟩ hentry ⟨hp, hat₁⟩
    have hlength := length_of_stopsEarly (entry_early early) hentry
    have hnear₁ : IsNear text k cs₁ := hat₁.near
    refine (ih hnear₁ (by omega) (by omega)).bind ?_
    rintro ⟨l, k'⟩ ⟨l', cs₂⟩ _ ⟨hl, hat₂⟩
    exact .ok ⟨congrArg₂ List.cons hp hl, hat₂⟩

lemma bracketed_follows (h : Follows text item item') (early : StopsEarly item')
    (fault : GrammarFault) :
    Follows text (bracketed (encode text) item fault) (Expression.bracketed item' fault) := by
  intro i cs hnear
  refine (expect_agrees (by decide) hnear).bind fun i₁ cs₁ _ hat₁ => ?_
  have hlength := hat₁.length
  have hbytes := length_le_encode cs₁
  refine (entries_agree h early hat₁.near (by omega) (by omega)).bind ?_
  rintro ⟨l, j⟩ ⟨l', rest⟩ _ ⟨hl, hat⟩
  dsimp only at hl hat ⊢
  rw [hl]
  split_ifs
  · exact .error hat
  · exact .ok ⟨rfl, hat⟩

end ServiceSim.Expression.Cursor
