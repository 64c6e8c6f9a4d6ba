import ServiceSim.Proofs.Expression.Levels

/-!
# What readers take

A reader that succeeds has taken some characters, the last of which is no white space, and has not
looked beyond them but for white space and for what tells that a word ends.  So it reads the same
from a text without the white space at its end (`StopsEarly`).  This holds of symbols, keywords,
operators, numbers, names and strings, and of distribution literals, whose readers are made of
these.
-/

namespace ServiceSim.Expression

open Number (afterSign afterSign_append exponentPart_cons span_append)

variable {cs rest rest' gap : List Char} {c : Char} {α : Type}

/-! ## What is taken -/

/-- The characters from `cs` to `rest` have been taken, the last of which is no white space. -/
def Takes (cs rest : List Char) : Prop :=
  ∃ used c, cs = used ++ c :: rest ∧ Text.isSpace c = false

/-- Nothing has been taken, or something that does not end with white space. -/
def MayTake (cs rest : List Char) : Prop := rest = cs ∨ Takes cs rest

lemma Takes.trans (h : Takes cs rest) {later : List Char} (hlater : Takes rest later) :
    Takes cs later := by
  obtain ⟨used, c, rfl, -⟩ := h
  obtain ⟨used', c', rfl, hsolid⟩ := hlater
  exact ⟨used ++ c :: used', c', by simp, hsolid⟩

lemma Takes.may (h : Takes cs rest) {later : List Char} (hlater : MayTake rest later) :
    Takes cs later := by
  rcases hlater with rfl | hlater
  · exact h
  · exact h.trans hlater

lemma MayTake.takes (h : MayTake cs rest) {later : List Char} (hlater : Takes rest later) :
    Takes cs later := by
  rcases h with rfl | h
  · exact hlater
  · exact h.trans hlater

lemma MayTake.trans (h : MayTake cs rest) {later : List Char} (hlater : MayTake rest later) :
    MayTake cs later := by
  rcases h with rfl | h
  · exact hlater
  · exact .inr (h.may hlater)

/-- More text in front changes nothing. -/
lemma Takes.prepend (h : Takes cs rest) (front : List Char) : Takes (front ++ cs) rest := by
  obtain ⟨used, c, rfl, hsolid⟩ := h
  exact ⟨front ++ used, c, by simp, hsolid⟩

lemma Takes.length (h : Takes cs rest) : rest.length < cs.length := by
  obtain ⟨used, c, rfl, -⟩ := h
  simp only [List.length_append, List.length_cons]
  omega

lemma MayTake.length (h : MayTake cs rest) : rest.length ≤ cs.length := by
  rcases h with rfl | h
  · exact le_refl _
  · exact le_of_lt h.length

/-- One solid character. -/
lemma takes_cons (h : Text.isSpace c = false) (cs : List Char) : Takes (c :: cs) cs :=
  ⟨[], c, rfl, h⟩

/-- Characters of a class without white space. -/
lemma takes_append (used : List Char) (nonempty : used ≠ [])
    (h : ∀ c ∈ used, Text.isSpace c = false) (rest : List Char) : Takes (used ++ rest) rest := by
  rcases List.eq_nil_or_concat used with hnil | ⟨front, c, hused⟩
  · exact absurd hnil nonempty
  · rw [List.concat_eq_append] at hused
    subst hused
    exact ⟨front, c, by simp, h c (by simp)⟩

lemma mayTake_append (used : List Char) (h : ∀ c ∈ used, Text.isSpace c = false)
    (rest : List Char) : MayTake (used ++ rest) rest := by
  by_cases hnil : used = []
  · exact .inl (by rw [hnil, List.nil_append])
  · exact .inr (takes_append used hnil h rest)

/-! ## Characters -/

lemma isSpace_of_blank (h : isBlank c = true) : Text.isSpace c = true := by
  simp only [isBlank, Bool.or_eq_true, beq_iff_eq] at h
  rcases h with (((rfl | rfl) | rfl) | rfl) | rfl <;> decide

lemma blank_of_not_space (h : Text.isSpace c = false) : isBlank c = false := by
  by_contra hblank
  rw [isSpace_of_blank (by simpa using hblank)] at h
  cases h

/-- The characters of names are no white space. -/
lemma not_space_of_nameChar (h : isNameChar c = true) : Text.isSpace c = false := by
  have hrange := nameChar_range h
  simp only [Text.isSpace, Bool.or_eq_false_iff, Bool.and_eq_false_iff, decide_eq_false_iff_not,
    beq_eq_false_iff_ne]
  omega

lemma not_space_of_digit (h : c.isDigit = true) : Text.isSpace c = false := by
  refine not_space_of_nameChar ?_
  rw [isNameChar, Char.isAlphanum, h, Bool.or_true, Bool.true_or]

lemma IsGap.not_digit (h : IsGap gap) : ∀ c ∈ gap.head?, c.isDigit = false :=
  fun c hc => (isBlank_spec (h c (List.mem_of_mem_head? hc))).2.1

lemma skip_append_solid (hcs : skip cs ≠ []) (gap : List Char) : skip (cs ++ gap) = skip cs ++ gap := by
  rw [skip, List.dropWhile_append, if_neg (by simpa [skip] using hcs)]
  rfl

lemma skip_append_gap (h : IsGap gap) (hcs : skip cs = []) : skip (cs ++ gap) = [] := by
  rw [skip, List.dropWhile_append, if_pos (by simpa [skip] using hcs)]
  exact skip_eq_nil h

/-- White space that is skipped may be there or not. -/
lemma Takes.skipped (h : Takes (skip cs) rest) : Takes cs rest := by
  have hcs := h.prepend (cs.takeWhile isBlank)
  rwa [skip, List.takeWhile_append_dropWhile] at hcs

lemma skip_length_le (cs : List Char) : (skip cs).length ≤ cs.length :=
  (List.dropWhile_sublist _).length_le

/-! ## Readers that stop before white space -/

/-- A reader reads the same without the white space at the end. -/
def StopsEarly (read : List Char → Except Stop (α × List Char)) : Prop :=
  ∀ {cs gap a rest}, IsGap gap → read (cs ++ gap) = .ok (a, rest) →
    ∃ rest', rest = rest' ++ gap ∧ Takes cs rest' ∧ read cs = .ok (a, rest')

/-- A word without white space. -/
def IsSolid (symbol : String) : Prop :=
  symbol.toList ≠ [] ∧ ∀ c ∈ symbol.toList, Text.isSpace c = false

instance (symbol : String) : Decidable (IsSolid symbol) :=
  @instDecidableAnd (symbol.toList ≠ []) _ inferInstance (List.decidableBAll _ _)

lemma after?_gap {w : Word} (hw : w ≠ []) (solid : ∀ c ∈ w, Text.isSpace c = false)
    (hgap : IsGap gap) (cs : List Char) : after? w (cs ++ gap) = (after? w cs).map (· ++ gap) := by
  induction w generalizing cs with
  | nil => exact absurd rfl hw
  | cons x w ih =>
    have hx : isBlank x = false := blank_of_not_space (solid x List.mem_cons_self)
    cases cs with
    | nil =>
      cases gap with
      | nil => rfl
      | cons c gap =>
        have hne : x ≠ c := by
          rintro rfl
          rw [hgap x List.mem_cons_self] at hx
          cases hx
        change after? (x :: w) (c :: gap) = none
        rw [after?, if_neg hne]
    | cons c cs =>
      rw [List.cons_append, after?, after?]
      split_ifs with hc
      · by_cases hnil : w = []
        · subst hnil
          rfl
        · exact ih hnil (fun y hy => solid y (List.mem_cons_of_mem _ hy)) cs
      · rfl

lemma symbol?_trailing {symbol : String} (solid : IsSolid symbol) (hgap : IsGap gap)
    (cs : List Char) : symbol? symbol (cs ++ gap) = (symbol? symbol cs).map (· ++ gap) := by
  rw [symbol?, symbol?]
  by_cases hcs : skip cs = []
  · rw [skip_append_gap hgap hcs, hcs]
    cases hw : symbol.toList with
    | nil => exact absurd hw solid.1
    | cons x w => rfl
  · rw [skip_append_solid hcs, after?_gap solid.1 solid.2 hgap]

lemma symbol?_takes {symbol : String} (solid : IsSolid symbol) (h : symbol? symbol cs = some rest) :
    Takes cs rest := by
  refine Takes.skipped ?_
  rw [after?_eq_some h]
  exact takes_append _ solid.1 solid.2 rest

lemma keyword?_trailing {keyword : String} (solid : IsSolid keyword) (hgap : IsGap gap)
    (cs : List Char) : keyword? keyword (cs ++ gap) = (keyword? keyword cs).map (· ++ gap) := by
  have hsymbol := symbol?_trailing solid hgap cs
  rw [symbol?, symbol?] at hsymbol
  rw [keyword?, keyword?, hsymbol]
  cases after? keyword.toList (skip cs) with
  | none => rfl
  | some rest =>
    have hhead : ((rest ++ gap).head?.map isNameChar).getD false =
        (rest.head?.map isNameChar).getD false := by
      cases rest with
      | nil => exact hgap.apart.not_nameChar
      | cons c rest => rfl
    simp only [Option.map_some, Option.filter, hhead]
    split_ifs
    · rfl
    · rfl

lemma keyword?_takes {keyword : String} (solid : IsSolid keyword)
    (h : keyword? keyword cs = some rest) : Takes cs rest := by
  rw [keyword?, Option.filter_eq_some_iff] at h
  exact symbol?_takes solid h.1

/-- A symbol that is found is found without the white space at the end. -/
lemma symbol?_early {symbol : String} (solid : IsSolid symbol) (hgap : IsGap gap)
    (h : symbol? symbol (cs ++ gap) = some rest) :
    ∃ rest', rest = rest' ++ gap ∧ Takes cs rest' ∧ symbol? symbol cs = some rest' := by
  rw [symbol?_trailing solid hgap, Option.map_eq_some_iff] at h
  obtain ⟨rest', hsome, rfl⟩ := h
  exact ⟨rest', rfl, symbol?_takes solid hsome, hsome⟩

/-- A symbol that is missing is missing without the white space at the end. -/
lemma symbol?_missing {symbol : String} (solid : IsSolid symbol) (hgap : IsGap gap)
    (h : symbol? symbol (cs ++ gap) = none) : symbol? symbol cs = none := by
  rwa [symbol?_trailing solid hgap, Option.map_eq_none_iff] at h

lemma keyword?_early {keyword : String} (solid : IsSolid keyword) (hgap : IsGap gap)
    (h : keyword? keyword (cs ++ gap) = some rest) :
    ∃ rest', rest = rest' ++ gap ∧ Takes cs rest' ∧ keyword? keyword cs = some rest' := by
  rw [keyword?_trailing solid hgap, Option.map_eq_some_iff] at h
  obtain ⟨rest', hsome, rfl⟩ := h
  exact ⟨rest', rfl, keyword?_takes solid hsome, hsome⟩

lemma keyword?_missing {keyword : String} (solid : IsSolid keyword) (hgap : IsGap gap)
    (h : keyword? keyword (cs ++ gap) = none) : keyword? keyword cs = none := by
  rwa [keyword?_trailing solid hgap, Option.map_eq_none_iff] at h

lemma expect_early {symbol : String} (solid : IsSolid symbol) (hgap : IsGap gap)
    (h : expect symbol (cs ++ gap) = .ok rest) :
    ∃ rest', rest = rest' ++ gap ∧ Takes cs rest' ∧ expect symbol cs = .ok rest' := by
  rw [expect] at h
  split at h
  next rest₁ hsome =>
    injection h with h
    subst h
    obtain ⟨rest', hrest, htakes, hcs⟩ := symbol?_early solid hgap hsome
    exact ⟨rest', hrest, htakes, by rw [expect, hcs]⟩
  · cases h

lemma firstOf_trailing {read : String → List Char → Option (List Char)}
    {operators : List (String × BinaryOp)}
    (h : ∀ p ∈ operators, read p.1 (cs ++ gap) = (read p.1 cs).map (· ++ gap)) :
    firstOf read (cs ++ gap) operators =
      (firstOf read cs operators).map fun p => (p.1, p.2 ++ gap) := by
  induction operators with
  | nil => rfl
  | cons p operators ih =>
    rw [firstOf, firstOf, h p List.mem_cons_self]
    cases read p.1 cs with
    | none => exact ih fun q hq => h q (List.mem_cons_of_mem _ hq)
    | some rest => rfl

lemma firstOf_takes {read : String → List Char → Option (List Char)}
    {operators : List (String × BinaryOp)} {op : BinaryOp}
    (h : ∀ p ∈ operators, ∀ rest, read p.1 cs = some rest → Takes cs rest)
    (hfirst : firstOf read cs operators = some (op, rest)) : Takes cs rest := by
  induction operators with
  | nil => cases hfirst
  | cons p operators ih =>
    rw [firstOf] at hfirst
    split at hfirst
    next rest₁ hsome =>
      injection hfirst with hfirst
      injection hfirst with _ hrest
      subst hrest
      exact h p List.mem_cons_self _ hsome
    · exact ih (fun q hq => h q (List.mem_cons_of_mem _ hq)) hfirst

lemma operator?_trailing (hgap : IsGap gap) (level : Level) (cs : List Char) :
    operator? level (cs ++ gap) = (operator? level cs).map fun p => (p.1, p.2 ++ gap) := by
  cases level
  case disjunction =>
    exact firstOf_trailing fun p hp => keyword?_trailing (by revert p; decide) hgap cs
  case conjunction =>
    exact firstOf_trailing fun p hp => keyword?_trailing (by revert p; decide) hgap cs
  case comparison =>
    exact firstOf_trailing fun p hp => symbol?_trailing (by revert p; decide) hgap cs
  case sum => exact firstOf_trailing fun p hp => symbol?_trailing (by revert p; decide) hgap cs
  case product => exact firstOf_trailing fun p hp => symbol?_trailing (by revert p; decide) hgap cs
  case power => exact firstOf_trailing fun p hp => symbol?_trailing (by revert p; decide) hgap cs
  all_goals rfl

lemma operator?_takes {level : Level} {op : BinaryOp} (h : operator? level cs = some (op, rest)) :
    Takes cs rest := by
  cases level
  case disjunction => exact firstOf_takes (fun p hp _ => keyword?_takes (by revert p; decide)) h
  case conjunction => exact firstOf_takes (fun p hp _ => keyword?_takes (by revert p; decide)) h
  case comparison => exact firstOf_takes (fun p hp _ => symbol?_takes (by revert p; decide)) h
  case sum => exact firstOf_takes (fun p hp _ => symbol?_takes (by revert p; decide)) h
  case product => exact firstOf_takes (fun p hp _ => symbol?_takes (by revert p; decide)) h
  case power => exact firstOf_takes (fun p hp _ => symbol?_takes (by revert p; decide)) h
  all_goals cases h

/-! ## Numbers -/

/-- A reader that succeeds goes on with what it has read. -/
lemma bind_eq_ok {ε β : Type} {x : Except ε α} {f : α → Except ε β} {b : β}
    (h : (x >>= f) = .ok b) : ∃ a, x = .ok a ∧ f a = .ok b := by
  cases x with
  | error e => cases h
  | ok a => exact ⟨a, rfl, h⟩

lemma mayTake_digits (cs : List Char) : MayTake cs (cs.dropWhile Char.isDigit) := by
  have hspan := mayTake_append (cs.takeWhile Char.isDigit)
    (fun c hc => not_space_of_digit (List.mem_takeWhile_imp hc)) (cs.dropWhile Char.isDigit)
  rwa [List.takeWhile_append_dropWhile] at hspan

lemma takes_digits (h : (cs.takeWhile Char.isDigit).isEmpty = false) :
    Takes cs (cs.dropWhile Char.isDigit) := by
  have hspan := takes_append (cs.takeWhile Char.isDigit) (List.isEmpty_eq_false_iff.mp h)
    (fun c hc => not_space_of_digit (List.mem_takeWhile_imp hc)) (cs.dropWhile Char.isDigit)
  rwa [List.takeWhile_append_dropWhile] at hspan

lemma fractionPart_other (h : ∀ c ∈ cs.head?, c ≠ '.') : fractionPart cs = none := by
  rw [fractionPart]
  rintro rest rfl
  exact h '.' rfl rfl

lemma fractionPart_trailing (hgap : IsGap gap) (cs : List Char) :
    fractionPart (cs ++ gap) = (fractionPart cs).map fun p => (p.1, p.2 ++ gap) := by
  cases cs with
  | nil =>
    have hnone : fractionPart gap = none := by
      refine fractionPart_other fun c hc hpoint => ?_
      rw [hpoint] at hc
      exact absurd (hgap _ (List.mem_of_mem_head? hc)) (by decide)
    exact hnone
  | cons c cs =>
    by_cases hpoint : c = '.'
    · subst hpoint
      have hspan := span_append hgap.not_digit cs
      simp only [fractionPart, List.cons_append, hspan.1, hspan.2]
      split_ifs
      · rfl
      · rfl
    · have hother : ∀ more : List Char, fractionPart (c :: more) = none := fun more =>
        fractionPart_other fun d hd => by
          injection hd with hd
          exact hd ▸ hpoint
      rw [List.cons_append, hother, hother]
      rfl

lemma fractionPart_takes {digits : List Char} (h : fractionPart cs = some (digits, rest)) :
    Takes cs rest := by
  unfold fractionPart at h
  split at h
  next more =>
    dsimp only at h
    split_ifs at h with hempty
    injection h with h
    injection h with _ hrest
    subst hrest
    exact (takes_digits (by simpa using hempty)).prepend ['.']
  next => cases h

lemma IsGap.not_sign (h : IsGap gap) : ∀ c ∈ gap.head?, c ≠ '+' ∧ c ≠ '-' := by
  intro c hc
  have hblank := h c (List.mem_of_mem_head? hc)
  refine ⟨?_, ?_⟩
  · rintro rfl
    exact absurd hblank (by decide)
  · rintro rfl
    exact absurd hblank (by decide)

lemma afterSign_mayTake (cs : List Char) : MayTake cs (afterSign cs).2 := by
  unfold afterSign
  split
  · exact .inr (takes_cons (by decide) _)
  · exact .inr (takes_cons (by decide) _)
  · exact .inl rfl

lemma exponentPart_trailing (hgap : IsGap gap) (cs : List Char) :
    Number.exponentPart (cs ++ gap) =
      (Number.exponentPart cs).map fun p => (p.1, p.2 ++ gap) := by
  cases cs with
  | nil =>
    cases gap with
    | nil => rfl
    | cons c gap =>
      have hc := (isBlank_spec (hgap c List.mem_cons_self)).1
      have hmark : ¬ (c = 'e' ∨ c = 'E') := by
        rintro (rfl | rfl)
        · exact absurd hc (by decide)
        · exact absurd hc (by decide)
      rw [List.nil_append, exponentPart_cons, if_neg hmark]
      rfl
  | cons mark cs =>
    have hspan := span_append hgap.not_digit (afterSign cs).2
    rw [List.cons_append, exponentPart_cons, exponentPart_cons, afterSign_append hgap.not_sign]
    dsimp only
    rw [hspan.1, hspan.2]
    split_ifs
    all_goals rfl

lemma exponentPart_takes {e : Int} (h : Number.exponentPart cs = some (e, rest)) :
    Takes cs rest := by
  cases cs with
  | nil => cases h
  | cons mark cs =>
    rw [exponentPart_cons] at h
    dsimp only at h
    split_ifs at h with hmark hempty
    all_goals
      injection h with h
      injection h with _ hrest
      subst hrest
      have hdigits := takes_digits (by simpa using hempty)
      exact ((afterSign_mayTake cs).takes hdigits).prepend [mark]

/-- The fraction in front, or nothing, with what follows. -/
def fractionOf (cs : List Char) : List Char × List Char := (fractionPart cs).getD ([], cs)

/-- The exponent in front, if there is one, with what follows. -/
def exponentOf (cs : List Char) : Option Int × List Char :=
  match Number.exponentPart cs with
  | some (e, rest) => (some e, rest)
  | none => (none, cs)

lemma fractionOf_trailing (hgap : IsGap gap) (cs : List Char) :
    fractionOf (cs ++ gap) = ((fractionOf cs).1, (fractionOf cs).2 ++ gap) := by
  rw [fractionOf, fractionOf, fractionPart_trailing hgap]
  cases fractionPart cs <;> rfl

lemma exponentOf_trailing (hgap : IsGap gap) (cs : List Char) :
    exponentOf (cs ++ gap) = ((exponentOf cs).1, (exponentOf cs).2 ++ gap) := by
  rw [exponentOf, exponentOf, exponentPart_trailing hgap]
  cases Number.exponentPart cs <;> rfl

lemma fractionOf_mayTake (cs : List Char) : MayTake cs (fractionOf cs).2 := by
  rw [fractionOf]
  cases h : fractionPart cs with
  | none => exact .inl rfl
  | some p => exact .inr (fractionPart_takes h)

lemma fractionOf_takes (h : (fractionOf cs).1.isEmpty = false) : Takes cs (fractionOf cs).2 := by
  rw [fractionOf] at h ⊢
  cases hpart : fractionPart cs with
  | none =>
    rw [hpart] at h
    cases h
  | some p => exact fractionPart_takes hpart

lemma exponentOf_mayTake (cs : List Char) : MayTake cs (exponentOf cs).2 := by
  rw [exponentOf]
  cases h : Number.exponentPart cs with
  | none => exact .inl rfl
  | some p => exact .inr (exponentPart_takes h)

/-- The value of a number of which the parts have been read. -/
def numberOf (whole fraction : List Char) (exponent : Option Int) (rest : List Char) :
    Except Stop (Value × List Char) :=
  if whole.isEmpty ∧ fraction.isEmpty then
    stop (if exponent = none then .noNumber else .doubleLiteral) rest
  else if fraction.isEmpty ∧ exponent = none then
    match int64? (Number.ofDigits whole) with
    | some n => .ok (.int n, rest)
    | none => stop .integerLiteral rest
  else .ok (.double (Number.ofDecimal (Number.assemble whole fraction (exponent.getD 0))), rest)

lemma number_eq (cs : List Char) :
    number cs =
      let fraction := fractionOf (cs.dropWhile Char.isDigit)
      let exponent := exponentOf fraction.2
      numberOf (cs.takeWhile Char.isDigit) fraction.1 exponent.1 exponent.2 := by
  have hfraction : (fractionPart (cs.dropWhile Char.isDigit)).getD
      ([], cs.dropWhile Char.isDigit) = fractionOf (cs.dropWhile Char.isDigit) := rfl
  rw [number]
  dsimp only
  rw [hfraction]
  generalize fractionOf (cs.dropWhile Char.isDigit) = fraction
  obtain ⟨fraction, rest⟩ := fraction
  rw [exponentOf]
  dsimp only
  cases Number.exponentPart rest <;> rfl

/-- Whether a number has a value does not depend on what follows it. -/
lemma numberOf_rest {whole fraction : List Char} {exponent : Option Int} {v : Value}
    (h : numberOf whole fraction exponent rest = .ok (v, rest')) :
    rest' = rest ∧ (whole.isEmpty = false ∨ fraction.isEmpty = false) ∧
      ∀ later, numberOf whole fraction exponent later = .ok (v, later) := by
  unfold numberOf at h ⊢
  by_cases hempty : whole.isEmpty ∧ fraction.isEmpty
  · rw [if_pos hempty] at h
    cases h
  · have hdigits : whole.isEmpty = false ∨ fraction.isEmpty = false := by
      by_cases hwhole : whole.isEmpty
      · exact .inr (by simpa using fun hf => hempty ⟨hwhole, by simpa using hf⟩)
      · exact .inl (by simpa using hwhole)
    simp only [if_neg hempty] at h ⊢
    by_cases hinteger : fraction.isEmpty ∧ exponent = none
    · simp only [if_pos hinteger] at h ⊢
      cases hn : int64? (Number.ofDigits whole) with
      | none =>
        rw [hn] at h
        cases h
      | some n =>
        rw [hn] at h
        injection h with h
        injection h with hv hrest
        exact ⟨hrest.symm, hdigits, fun later => by rw [← hv]⟩
    · simp only [if_neg hinteger] at h ⊢
      injection h with h
      injection h with hv hrest
      exact ⟨hrest.symm, hdigits, fun later => by rw [hv]⟩

lemma number_early : StopsEarly number := by
  intro cs gap v rest hgap h
  have hspan := span_append hgap.not_digit cs
  rw [number_eq] at h ⊢
  dsimp only at h ⊢
  rw [hspan.1, hspan.2, fractionOf_trailing hgap] at h
  dsimp only at h
  rw [exponentOf_trailing hgap] at h
  obtain ⟨hrest, hdigits, hlater⟩ := numberOf_rest h
  refine ⟨_, hrest, ?_, hlater _⟩
  have hexponent := exponentOf_mayTake (fractionOf (cs.dropWhile Char.isDigit)).2
  rcases hdigits with hwhole | hfraction
  · exact (takes_digits hwhole).may ((fractionOf_mayTake _).trans hexponent)
  · exact ((mayTake_digits cs).takes (fractionOf_takes hfraction)).may hexponent

/-- White space that a reader skips. -/
lemma StopsEarly.skip {read : List Char → Except Stop (α × List Char)} (h : StopsEarly read)
    (nothing : ∀ a rest, read [] ≠ .ok (a, rest)) : StopsEarly fun cs => read (skip cs) := by
  intro cs gap a rest hgap hread
  dsimp only at hread ⊢
  by_cases hcs : Expression.skip cs = []
  · rw [skip_append_gap hgap hcs] at hread
    exact absurd hread (nothing a rest)
  · rw [skip_append_solid hcs] at hread
    obtain ⟨rest', hrest, htakes, hread'⟩ := h hgap hread
    exact ⟨rest', hrest, htakes.skipped, hread'⟩

lemma signedNumber_early : StopsEarly signedNumber := by
  have hskip : StopsEarly fun cs => number (skip cs) :=
    number_early.skip fun a rest h => by cases h
  intro cs gap v rest hgap h
  rw [signedNumber] at h ⊢
  cases hminus : symbol? "-" (cs ++ gap) with
  | none =>
    rw [hminus] at h
    rw [symbol?_missing (by decide) hgap hminus]
    exact hskip hgap h
  | some rest₁ =>
    obtain ⟨rest₁', rfl, htakes, hsymbol⟩ := symbol?_early (by decide) hgap hminus
    rw [hminus] at h
    obtain ⟨⟨w, rest₂⟩, hnumber, hv⟩ := bind_eq_ok h
    injection hv with hv
    injection hv with hv hrest
    obtain ⟨rest', hrest', htakes', hnumber'⟩ := hskip hgap hnumber
    refine ⟨rest', hrest.symm.trans hrest', htakes.trans htakes', ?_⟩
    rw [hsymbol]
    dsimp only at hnumber' ⊢
    rw [hnumber', ok_bind, ← hv]
    rfl

lemma signedDouble_early : StopsEarly signedDouble := by
  intro cs gap x rest hgap h
  obtain ⟨⟨v, rest₁⟩, hnumber, hx⟩ := bind_eq_ok h
  injection hx with hx
  injection hx with hx hrest
  obtain ⟨rest', hrest', htakes, hnumber'⟩ := signedNumber_early hgap hnumber
  refine ⟨rest', hrest.symm.trans hrest', htakes, ?_⟩
  rw [signedDouble, hnumber', ok_bind, ← hx]
  rfl

/-! ## Names and strings -/

lemma nameRest_trailing (hgap : IsGap gap) (cs : List Char) :
    nameRest (cs ++ gap) = ((nameRest cs).1, (nameRest cs).2 ++ gap) := by
  induction cs with
  | nil => exact nameRest_apart hgap.apart
  | cons c cs ih =>
    have hhead : ((cs ++ gap).head?.map isNameStart).getD false =
        (cs.head?.map isNameStart).getD false := by
      cases cs with
      | nil =>
        cases gap with
        | nil => rfl
        | cons d gap =>
          have hd := (isBlank_spec (hgap d List.mem_cons_self)).1
          cases hstart : isNameStart d with
          | false => simp [hstart]
          | true =>
            rw [isNameChar_of_start hstart] at hd
            cases hd
      | cons d cs => rfl
    rw [List.cons_append, nameRest, nameRest, hhead, ih]
    split_ifs
    · rfl
    · rfl

lemma nameRest_mayTake (cs : List Char) : MayTake cs (nameRest cs).2 := by
  induction cs with
  | nil => exact .inl rfl
  | cons c cs ih =>
    rw [nameRest]
    split_ifs with hc
    · have hsolid : Text.isSpace c = false := by
        rw [Bool.or_eq_true, Bool.and_eq_true, beq_iff_eq] at hc
        rcases hc with hc | ⟨rfl, -⟩
        · exact not_space_of_nameChar hc
        · decide
      exact .inr ((takes_cons hsolid cs).may ih)
    · exact .inl rfl

/-- A name that starts is read without the white space at the end. -/
lemma nameRest_takes (h : isNameStart c = true) (cs : List Char) :
    Takes (c :: cs) (nameRest (c :: cs)).2 := by
  have hc := isNameChar_of_start h
  rw [nameRest, hc, Bool.true_or, if_pos rfl]
  exact (takes_cons (not_space_of_nameChar hc) cs).may (nameRest_mayTake cs)

/-- Where the characters of a class end before the text does, more text does not change them. -/
lemma span_closed {p : Char → Bool} {after : List Char} (h : cs.dropWhile p = c :: after)
    (more : List Char) : p c = false ∧ (cs ++ more).takeWhile p = cs.takeWhile p ∧
      (cs ++ more).dropWhile p = c :: (after ++ more) := by
  induction cs with
  | nil => cases h
  | cons d cs ih =>
    cases hd : p d with
    | true =>
      rw [List.dropWhile_cons_of_pos hd] at h
      obtain ⟨hc, htake, hdrop⟩ := ih h
      exact ⟨hc, by simp [hd, htake], by simp [hd, hdrop]⟩
    | false =>
      rw [List.dropWhile_cons_of_neg (by simp [hd])] at h
      injection h with hdc hafter
      subst hdc hafter
      exact ⟨hd, by simp [hd], by simp [hd]⟩

lemma stringLiteral_quote {inner : List Char} (h : skip cs = '"' :: inner) :
    stringLiteral cs = match inner.dropWhile (· != '"') with
      | _ :: after => .ok (String.ofList (inner.takeWhile (· != '"')), after)
      | [] => stop .openString [] := by
  rw [stringLiteral, h]
  rfl

lemma stringLiteral_early : StopsEarly stringLiteral := by
  intro cs gap text rest hgap h
  have hquote : ∃ inner, skip cs = '"' :: inner := by
    unfold stringLiteral at h
    split at h
    next more hskip =>
      by_cases hcs : skip cs = []
      · rw [skip_append_gap hgap hcs] at hskip
        cases hskip
      · rw [skip_append_solid hcs] at hskip
        cases hinner : skip cs with
        | nil => exact absurd hinner hcs
        | cons c inner =>
          rw [hinner] at hskip
          injection hskip with hc
          exact ⟨inner, by rw [hc]⟩
    next => cases h
  obtain ⟨inner, hinner⟩ := hquote
  have hskip : skip (cs ++ gap) = '"' :: (inner ++ gap) := by
    rw [skip_append_solid (by rw [hinner]; simp), hinner]
    rfl
  rw [stringLiteral_quote hskip] at h
  cases hclosing : inner.dropWhile (· != '"') with
  | nil =>
    -- The closing quote is not in the white space.
    have hnone : (inner ++ gap).dropWhile (· != '"') = [] := by
      rw [List.dropWhile_append, hclosing, List.isEmpty_nil, if_pos rfl]
      refine List.dropWhile_eq_nil_iff.mpr fun c hc => ?_
      rw [bne_iff_ne]
      rintro rfl
      exact absurd (hgap _ hc) (by decide)
    rw [hnone] at h
    cases h
  | cons d after =>
    obtain ⟨hd, hfirst, hafter⟩ := span_closed hclosing gap
    rw [hafter, hfirst] at h
    injection h with h
    injection h with htext hrest
    refine ⟨after, hrest.symm, Takes.skipped ?_, ?_⟩
    · have hspan := List.takeWhile_append_dropWhile (p := (· != '"')) (l := inner)
      rw [hclosing] at hspan
      rw [hinner, ← hspan]
      have hd' : d = '"' := by simpa using hd
      exact ((takes_cons (by rw [hd']; decide) after).prepend _).prepend ['"']
    · rw [stringLiteral_quote hinner, hclosing, htext]

/-! ## Distributions -/

lemma sample_early (kind : PmfKind) : StopsEarly (sample kind) := by
  intro cs gap v rest hgap h
  cases kind with
  | int =>
    obtain ⟨⟨w, rest₁⟩, hnumber, hv⟩ := bind_eq_ok h
    obtain ⟨rest', hrest', htakes, hnumber'⟩ := signedNumber_early hgap hnumber
    cases w with
    | int n =>
      injection hv with hv
      injection hv with hv hrest
      refine ⟨rest', hrest.symm.trans hrest', htakes, ?_⟩
      rw [sample, hnumber', ok_bind, ← hv]
      rfl
    | _ => cases hv
  | double =>
    obtain ⟨⟨x, rest₁⟩, hdouble, hv⟩ := bind_eq_ok h
    injection hv with hv
    injection hv with hv hrest
    obtain ⟨rest', hrest', htakes, hdouble'⟩ := signedDouble_early hgap hdouble
    refine ⟨rest', hrest.symm.trans hrest', htakes, ?_⟩
    rw [sample, hdouble', ok_bind, ← hv]
    rfl
  | bool =>
    rw [sample] at h ⊢
    cases htrue : keyword? "true" (cs ++ gap) with
    | some rest₁ =>
      rw [htrue] at h
      injection h with h
      injection h with hv hrest
      subst hrest
      obtain ⟨rest', hrest', htakes, htrue'⟩ := keyword?_early (by decide) hgap htrue
      exact ⟨rest', hrest', htakes, by rw [htrue', ← hv]⟩
    | none =>
      rw [keyword?_missing (by decide) hgap htrue]
      rw [htrue] at h
      cases hfalse : keyword? "false" (cs ++ gap) with
      | none =>
        rw [hfalse] at h
        cases h
      | some rest₁ =>
        rw [hfalse] at h
        injection h with h
        injection h with hv hrest
        subst hrest
        obtain ⟨rest', hrest', htakes, hfalse'⟩ := keyword?_early (by decide) hgap hfalse
        exact ⟨rest', hrest', htakes, by rw [hfalse', ← hv]⟩
  | enum =>
    obtain ⟨⟨text, rest₁⟩, hstring, hv⟩ := bind_eq_ok h
    injection hv with hv
    injection hv with hv hrest
    obtain ⟨rest', hrest', htakes, hstring'⟩ := stringLiteral_early hgap hstring
    refine ⟨rest', hrest.symm.trans hrest', htakes, ?_⟩
    rw [sample, hstring', ok_bind, ← hv]
    rfl

lemma entry_early {item : List Char → Except Stop (α × List Char)} (hitem : StopsEarly item) :
    StopsEarly (entry item) := by
  intro cs gap p rest hgap h
  obtain ⟨rest₁, hopen, h⟩ := bind_eq_ok h
  obtain ⟨cs₁, rfl, htakes₁, hopen'⟩ := expect_early (by decide) hgap hopen
  obtain ⟨⟨a, rest₂⟩, hread, h⟩ := bind_eq_ok h
  obtain ⟨cs₂, rfl, htakes₂, hread'⟩ := hitem hgap hread
  obtain ⟨rest₃, hsemicolon, h⟩ := bind_eq_ok h
  obtain ⟨cs₃, rfl, htakes₃, hsemicolon'⟩ := expect_early (by decide) hgap hsemicolon
  obtain ⟨⟨x, rest₄⟩, hdouble, h⟩ := bind_eq_ok h
  obtain ⟨cs₄, rfl, htakes₄, hdouble'⟩ := signedDouble_early hgap hdouble
  obtain ⟨rest₅, hclose, h⟩ := bind_eq_ok h
  obtain ⟨cs₅, rfl, htakes₅, hclose'⟩ := expect_early (by decide) hgap hclose
  injection h with h
  injection h with hp hrest
  refine ⟨cs₅, hrest.symm,
    (((htakes₁.trans htakes₂).trans htakes₃).trans htakes₄).trans htakes₅, ?_⟩
  rw [entry, hopen', ok_bind, hread', ok_bind]
  dsimp only
  rw [hsemicolon', ok_bind, hdouble', ok_bind]
  dsimp only
  rw [hclose', ok_bind, ← hp]
  rfl

lemma entries_early {item : List Char → Except Stop (α × List Char)} (hitem : StopsEarly item)
    {bound : Nat} {found : List (α × Float)} (hgap : IsGap gap)
    (h : entries item bound (cs ++ gap) = .ok (found, rest)) :
    ∃ rest', rest = rest' ++ gap ∧ Takes cs rest' ∧
      ∀ bound', cs.length ≤ bound' + rest'.length → entries item bound' cs = .ok (found, rest') := by
  induction bound generalizing cs found rest with
  | zero => cases h
  | succ bound ih =>
    rw [entries] at h
    cases hclose : symbol? "]" (cs ++ gap) with
    | some rest₁ =>
      rw [hclose] at h
      injection h with h
      injection h with hfound hrest
      subst hrest
      obtain ⟨rest', hrest', htakes, hclose'⟩ := symbol?_early (by decide) hgap hclose
      refine ⟨rest', hrest', htakes, fun bound' hbound => ?_⟩
      have hlength := htakes.length
      obtain ⟨bound', rfl⟩ : ∃ b, bound' = b + 1 := ⟨bound' - 1, by omega⟩
      rw [entries, hclose', ← hfound]
    | none =>
      rw [hclose] at h
      obtain ⟨⟨first, rest₁⟩, hfirst, h⟩ := bind_eq_ok h
      obtain ⟨cs₁, rfl, htakes₁, hfirst'⟩ := entry_early hitem hgap hfirst
      obtain ⟨⟨others, rest₂⟩, hothers, h⟩ := bind_eq_ok h
      obtain ⟨rest', hrest', htakes₂, hothers'⟩ := ih hothers
      injection h with h
      injection h with hfound hrest
      refine ⟨rest', hrest.symm.trans hrest', htakes₁.trans htakes₂, fun bound' hbound => ?_⟩
      have hlength₁ := htakes₁.length
      have hlength₂ := htakes₂.length
      obtain ⟨bound', rfl⟩ : ∃ b, bound' = b + 1 := ⟨bound' - 1, by omega⟩
      rw [entries, symbol?_missing (by decide) hgap hclose]
      dsimp only
      rw [hfirst', ok_bind]
      dsimp only
      rw [hothers' bound' (by omega), ok_bind, ← hfound]
      rfl

lemma bracketed_early {item : List Char → Except Stop (α × List Char)} (hitem : StopsEarly item)
    (fault : GrammarFault) : StopsEarly (bracketed item fault) := by
  intro cs gap found rest hgap h
  obtain ⟨rest₁, hopen, h⟩ := bind_eq_ok h
  obtain ⟨cs₁, rfl, htakes₁, hopen'⟩ := expect_early (by decide) hgap hopen
  obtain ⟨⟨all, rest₂⟩, hentries, h⟩ := bind_eq_ok h
  obtain ⟨rest', rfl, htakes₂, hentries'⟩ := entries_early hitem hgap hentries
  dsimp only at h
  split_ifs at h with hempty
  · cases h
  injection h with h
  injection h with hfound hrest
  refine ⟨rest', hrest.symm, htakes₁.trans htakes₂, ?_⟩
  rw [bracketed, hopen', ok_bind, hentries' _ (by omega), ok_bind]
  dsimp only
  rw [if_neg hempty, hfound]
  rfl

end ServiceSim.Expression
