import ServiceSim.Json.Reader
import ServiceSim.Json.Writer
import ServiceSim.Proofs.Number.Digits
import Mathlib.Data.List.Basic
import Mathlib.Tactic.Lemma
import Mathlib.Tactic.SplitIfs

/-!
# Strings and numbers in JSON

A string is read as it was written: of every character the text holds itself, a short escape, or its
number, and the reader makes the character of each of them (`stringRest_quote`).

A number is read up to the first character that does not go on with it, so what is read of its text
alone is also read in front of a bracket, a comma or white space (`numeral_append`).  Integers of at
most sixty-four bits are read as they were written (`readsNumber_integer`).
-/

namespace ServiceSim.Json

open Number (afterSign afterSign_cons_append exponentPart_cons span_append)

variable {cs rest : List Char} {c : Char}

/-! ## Strings -/

lemma joinParts_char (c : Char) (parts : List StringPart) :
    joinParts (.char c :: parts) = (joinParts parts).map (c :: ·) := rfl

/-- A unit that is no surrogate stands for a character of its own. -/
lemma joinParts_unit {n : Nat} (h : n < 0xd800) (parts : List StringPart) :
    joinParts (.unit n :: parts) = (joinParts parts).map (Char.ofNat n :: ·) := by
  have hhigh : ¬ (0xd800 ≤ n ∧ n < 0xe000) := by omega
  rcases parts with _ | ⟨c | m, parts⟩
  · simp only [joinParts, if_neg hhigh, Option.map_some]
  · simp only [joinParts, if_neg hhigh, Option.map_map]
    rfl
  · rw [joinParts, if_neg (by omega), if_neg (by omega)]

lemma stringParts_escape {d : Char} (h : escape? c = some d) (rest : List Char) :
    stringParts ('\\' :: c :: rest) =
      (stringParts rest).map fun found => (.char d :: found.1, found.2) := by
  have hu : c ≠ 'u' := by
    rintro rfl
    cases h
  rw [stringParts.eq_def]
  split
  next heq => cases heq
  next heq => exact absurd (List.cons.inj (List.cons.inj heq).2).1 hu
  next heq =>
    cases heq
    rw [h]
    cases stringParts rest <;> rfl
  next hescape heq =>
    exact (hescape c rest (List.cons.inj heq).1.symm (List.cons.inj heq).2.symm).elim
  next heq => cases heq

lemma stringParts_plain (hquote : c ≠ '"') (hslash : c ≠ '\\') (hcontrol : ¬ c.toNat < 0x20)
    (rest : List Char) : stringParts (c :: rest) =
      (stringParts rest).map fun found => (.char c :: found.1, found.2) := by
  rw [stringParts.eq_def]
  split
  next heq => exact absurd (List.cons.inj heq).1 hquote
  next heq => exact absurd (List.cons.inj heq).1 hslash
  next heq => exact absurd (List.cons.inj heq).1 hslash
  next heq =>
    cases heq
    rw [if_neg hcontrol]
    cases stringParts rest <;> rfl
  next heq => cases heq

/-- A control character is written by its number. -/
lemma stringParts_control (h : c.toNat < 0x20) (rest : List Char) :
    stringParts (("\\u00" ++ hex2 c.toNat).toList ++ rest) =
      (stringParts rest).map fun found => (.unit c.toNat :: found.1, found.2) := by
  have hall : ∀ n < 0x20, (hex2 n).toList.length = 2 ∧
      hex4? '0' '0' ((hex2 n).toList.getD 0 '0') ((hex2 n).toList.getD 1 '0') = some n := by
    decide +kernel
  obtain ⟨hlength, hnumber⟩ := hall c.toNat h
  obtain ⟨a, b, hhex⟩ := List.length_eq_two.mp hlength
  rw [hhex] at hnumber
  change hex4? '0' '0' a b = some c.toNat at hnumber
  have htext : ("\\u00" ++ hex2 c.toNat).toList = ['\\', 'u', '0', '0', a, b] := by
    rw [String.toList_append, hhex]
    rfl
  simp only [htext, List.cons_append, List.nil_append, stringParts, hnumber]
  cases stringParts rest <;> rfl

/-- A character in a string is read as one part, which stands for it. -/
lemma stringParts_escapedChar (c : Char) : ∃ part,
    (part = .char c ∨ part = .unit c.toNat ∧ c.toNat < 0x20) ∧
    ∀ rest, stringParts ((escapedChar c).toList ++ rest) =
      (stringParts rest).map fun found => (part :: found.1, found.2) := by
  unfold escapedChar
  split
  case h_8 hquote hslash _ _ _ _ _ =>
    split_ifs with hcontrol
    · exact ⟨.unit c.toNat, .inr ⟨rfl, hcontrol⟩, stringParts_control hcontrol⟩
    · refine ⟨.char c, .inl rfl, fun rest => ?_⟩
      rw [String.toList_singleton]
      exact stringParts_plain hquote hslash hcontrol rest
  all_goals exact ⟨.char _, .inl rfl, fun rest => stringParts_escape rfl rest⟩

/-- The characters of a string, up to its closing quote. -/
lemma stringParts_escaped (cs rest : List Char) : ∃ parts, joinParts parts = some cs ∧
    stringParts (cs.flatMap (fun c => (escapedChar c).toList) ++ '"' :: rest) =
      some (parts, rest) := by
  induction cs with
  | nil => exact ⟨[], rfl, rfl⟩
  | cons c cs ih =>
    obtain ⟨parts, hjoin, hparts⟩ := ih
    obtain ⟨part, hpart, hread⟩ := stringParts_escapedChar c
    refine ⟨part :: parts, ?_, ?_⟩
    · rcases hpart with rfl | ⟨rfl, hcontrol⟩
      · rw [joinParts_char, hjoin, Option.map_some]
      · rw [joinParts_unit (by omega), hjoin, Option.map_some, Char.ofNat_toNat]
    · rw [List.flatMap_cons, List.append_assoc, hread, hparts, Option.map_some]

lemma quote_toList (s : String) : (quote s).toList =
    '"' :: (s.toList.flatMap (fun c => (escapedChar c).toList) ++ ['"']) := by
  rw [quote, String.toList_append, String.toList_append, String.toList_join, List.flatMap_map]
  rfl

/-- **A string is read as it was written.** -/
theorem stringRest_quote (s : String) (rest : List Char) :
    stringRest (s.toList.flatMap (fun c => (escapedChar c).toList) ++ '"' :: rest) =
      some (some s, rest) := by
  obtain ⟨parts, hjoin, hparts⟩ := stringParts_escaped s.toList rest
  simp only [stringRest, hparts, Option.map_some, hjoin, String.ofList_toList]

/-! ## Where a number ends -/

/-- What follows does not go on with a number. -/
def EndsNumber (rest : List Char) : Prop :=
  ∀ c ∈ rest.head?, c.isDigit = false ∧ c ≠ '.' ∧ c ≠ 'e' ∧ c ≠ 'E'

lemma endsNumber_cons (h : c.isDigit = false ∧ c ≠ '.' ∧ c ≠ 'e' ∧ c ≠ 'E') (rest : List Char) :
    EndsNumber (c :: rest) := by
  rintro _ ⟨⟩
  exact h

lemma EndsNumber.not_digit (h : EndsNumber rest) : ∀ c ∈ rest.head?, c.isDigit = false :=
  fun c hc => (h c hc).1

/-- Digits that do not start with a zero. -/
lemma wholeDigits_other (h : cs.head? ≠ some '0') : wholeDigits cs =
    if (cs.takeWhile Char.isDigit).isEmpty then none
    else some (cs.takeWhile Char.isDigit, cs.dropWhile Char.isDigit) := by
  unfold wholeDigits
  split
  next => exact absurd rfl h
  · rfl

lemma wholeDigits_append (hrest : EndsNumber rest) {found : List Char × List Char}
    (h : wholeDigits cs = some found) : wholeDigits (cs ++ rest) = some (found.1, found.2 ++ rest) := by
  obtain ⟨htake, hdrop⟩ := span_append hrest.not_digit cs
  by_cases hzero : cs.head? = some '0'
  · obtain ⟨tail, rfl⟩ := List.head?_eq_some_iff.mp hzero
    have hcases : (if (tail.head?.map Char.isDigit).getD false then none else some (['0'], tail)) =
        some found := h
    split_ifs at hcases with hdigit
    cases hcases
    have hhead : ¬ ((tail ++ rest).head?.map Char.isDigit).getD false = true := by
      cases tail with
      | nil =>
        cases rest with
        | nil => simp
        | cons c rest => simpa using hrest.not_digit c rfl
      | cons c tail => exact hdigit
    exact if_neg hhead
  · rw [wholeDigits_other hzero] at h
    split_ifs at h with hempty
    cases h
    have hzero' : (cs ++ rest).head? ≠ some '0' := by
      cases cs with
      | nil => simp at hempty
      | cons c cs => exact hzero
    rw [wholeDigits_other hzero', htake, hdrop, if_neg hempty]

/-- Without a point there are no digits of a fraction. -/
lemma fractionDigits_other (h : cs.head? ≠ some '.') : fractionDigits cs = some (none, cs) := by
  unfold fractionDigits
  split
  next => exact absurd rfl h
  · rfl

lemma fractionDigits_append (hrest : EndsNumber rest) {found : Option (List Char) × List Char}
    (h : fractionDigits cs = some found) :
    fractionDigits (cs ++ rest) = some (found.1, found.2 ++ rest) := by
  by_cases hpoint : cs.head? = some '.'
  · obtain ⟨tail, rfl⟩ := List.head?_eq_some_iff.mp hpoint
    obtain ⟨htake, hdrop⟩ := span_append hrest.not_digit tail
    have hcases : (if (tail.takeWhile Char.isDigit).isEmpty then none
        else some (some (tail.takeWhile Char.isDigit), tail.dropWhile Char.isDigit)) =
          some found := h
    split_ifs at hcases with hempty
    cases hcases
    change (if ((tail ++ rest).takeWhile Char.isDigit).isEmpty then none
      else some (some ((tail ++ rest).takeWhile Char.isDigit),
        (tail ++ rest).dropWhile Char.isDigit)) = _
    rw [htake, hdrop, if_neg hempty]
  · rw [fractionDigits_other hpoint] at h
    cases h
    refine fractionDigits_other fun heq => ?_
    cases cs with
    | nil => exact (hrest '.' heq).2.1 rfl
    | cons c cs => exact hpoint heq

lemma exponentPart_append (hrest : EndsNumber rest) {found : Int × List Char}
    (h : Number.exponentPart cs = some found) :
    Number.exponentPart (cs ++ rest) = some (found.1, found.2 ++ rest) := by
  rcases cs with _ | ⟨mark, _ | ⟨c, tail⟩⟩
  · cases h
  · simp [exponentPart_cons, afterSign] at h
  · obtain ⟨htake, hdrop⟩ := span_append hrest.not_digit (afterSign (c :: tail)).2
    rw [exponentPart_cons] at h
    rw [List.cons_append, exponentPart_cons, afterSign_cons_append]
    dsimp only at h ⊢
    rw [htake, hdrop]
    split_ifs at h ⊢
    all_goals
      cases h
      rfl

lemma exponentDigits_append (hrest : EndsNumber rest) {found : Option Int × List Char}
    (h : exponentDigits cs = some found) :
    exponentDigits (cs ++ rest) = some (found.1, found.2 ++ rest) := by
  unfold exponentDigits at h ⊢
  split_ifs at h with hmark
  · obtain ⟨part, hpart, rfl⟩ := Option.map_eq_some_iff.mp h
    have hmark' : ((cs ++ rest).head? == some 'e' || (cs ++ rest).head? == some 'E') = true := by
      cases cs with
      | nil => cases hmark
      | cons c cs => exact hmark
    rw [if_pos hmark', exponentPart_append hrest hpart]
    rfl
  · cases h
    have hmark' : ¬ ((cs ++ rest).head? == some 'e' || (cs ++ rest).head? == some 'E') = true := by
      cases cs with
      | nil =>
        cases rest with
        | nil => exact hmark
        | cons c rest => simpa using (hrest c rfl).2.2
      | cons c cs => exact hmark
    rw [if_neg hmark']

/-- The number behind the sign that may stand in front. -/
def unsignedNumeral (negative : Bool) (cs : List Char) : Option (Numeral × List Char) :=
  (wholeDigits cs).bind fun whole => (fractionDigits whole.2).bind fun fraction =>
    (exponentDigits fraction.2).bind fun exponent =>
      some (⟨negative, whole.1, fraction.1, exponent.1⟩, exponent.2)

lemma numeral_minus (cs : List Char) : numeral ('-' :: cs) = unsignedNumeral true cs := rfl

lemma numeral_other (h : cs.head? ≠ some '-') : numeral cs = unsignedNumeral false cs := by
  unfold numeral
  split
  next heq =>
    split at heq
    · exact absurd rfl h
    · cases heq
      rfl

lemma unsignedNumeral_append {negative : Bool} {found : Numeral × List Char}
    (h : unsignedNumeral negative cs = some found) (hrest : EndsNumber rest) :
    unsignedNumeral negative (cs ++ rest) = some (found.1, found.2 ++ rest) := by
  simp only [unsignedNumeral, Option.bind_eq_some_iff] at h
  obtain ⟨whole, hwhole, fraction, hfraction, exponent, hexponent, heq⟩ := h
  cases heq
  simp only [unsignedNumeral, wholeDigits_append hrest hwhole, Option.bind_some,
    fractionDigits_append hrest hfraction, exponentDigits_append hrest hexponent]

/-- A number is also read in front of what does not go on with it. -/
lemma numeral_append {found : Numeral × List Char} (h : numeral cs = some found)
    (hrest : EndsNumber rest) : numeral (cs ++ rest) = some (found.1, found.2 ++ rest) := by
  by_cases hminus : cs.head? = some '-'
  · obtain ⟨tail, rfl⟩ := List.head?_eq_some_iff.mp hminus
    rw [numeral_minus] at h
    rw [List.cons_append, numeral_minus]
    exact unsignedNumeral_append h hrest
  · rw [numeral_other hminus] at h
    have hminus' : (cs ++ rest).head? ≠ some '-' := by
      cases cs with
      | nil => cases h
      | cons c cs => exact hminus
    rw [numeral_other hminus']
    exact unsignedNumeral_append h hrest

/-! ## Numbers -/

/-- The value of a number that stands in front of the characters. -/
lemma value_numeral {n : Numeral} (h : numeral cs = some (n, rest)) (fuel level : Nat) :
    value (fuel + 1) level cs = (n.value?.getD (.unusable .null), rest) := by
  rw [value.eq_def]
  dsimp only
  split
  case h_7 => rw [h]
  all_goals cases h

/-- The characters are a number of this value. -/
def ReadsNumber (cs : List Char) (r : Reading) : Prop :=
  ∃ n, numeral cs = some (n, []) ∧ n.value? = some r

/-- A number in front of what does not go on with it. -/
lemma ReadsNumber.value_eq {r : Reading} (h : ReadsNumber cs r) (hrest : EndsNumber rest)
    (fuel level : Nat) : value (fuel + 1) level (cs ++ rest) = (r, rest) := by
  obtain ⟨n, hnumeral, hvalue⟩ := h
  rw [value_numeral (numeral_append hnumeral hrest), hvalue]
  rfl

/-- A number starts with a minus sign or a digit. -/
lemma ReadsNumber.head {r : Reading} (h : ReadsNumber cs r) :
    ∃ c more, cs = c :: more ∧ (c = '-' ∨ c.isDigit = true) := by
  obtain ⟨n, hnumeral, -⟩ := h
  cases cs with
  | nil => cases hnumeral
  | cons c more =>
    refine ⟨c, more, rfl, ?_⟩
    by_cases hminus : c = '-'
    · exact .inl hminus
    · rw [numeral_other (by simpa using hminus), unsignedNumeral, Option.bind_eq_some_iff]
        at hnumeral
      obtain ⟨whole, hwhole, -⟩ := hnumeral
      by_cases hzero : c = '0'
      · exact .inr (hzero ▸ rfl)
      · rw [wholeDigits_other (by simpa using hzero)] at hwhole
        split_ifs at hwhole with hempty
        rw [List.isEmpty_iff, List.takeWhile_eq_nil_iff] at hempty
        exact .inr (by simpa using hempty)

/-! ### Integers -/

lemma toDigits_head {n : Nat} (h : 0 < n) : (Nat.toDigits 10 n).head? ≠ some '0' := by
  induction n using Nat.strong_induction_on with
  | h n ih =>
    by_cases hsmall : n < 10
    · have hdigit : ∀ n < 10, 0 < n → [n.digitChar].head? ≠ some '0' := by decide
      rw [Nat.toDigits_of_lt_base hsmall]
      exact hdigit n hsmall h
    · rw [Nat.toDigits_of_base_le (by decide) (by omega), List.head?_append,
        List.head?_eq_some_head Nat.toDigits_ne_nil, Option.some_or, ← List.head?_eq_some_head]
      exact ih (n / 10) (by omega) (by omega)

/-- The digits of a natural number. -/
lemma wholeDigits_toDigits (n : Nat) :
    wholeDigits (Nat.toDigits 10 n) = some (Nat.toDigits 10 n, []) := by
  rcases Nat.eq_zero_or_pos n with rfl | h
  · rfl
  · have hdigits : ∀ c ∈ Nat.toDigits 10 n, c.isDigit = true := fun c hc =>
      Nat.isDigit_of_mem_toDigits (by decide) (by decide) hc
    rw [wholeDigits_other (toDigits_head h), List.takeWhile_eq_self_iff.mpr hdigits,
      List.dropWhile_eq_nil_iff.mpr hdigits, if_neg (by simp [Nat.toDigits_ne_nil])]

lemma unsignedNumeral_toDigits (negative : Bool) (n : Nat) :
    unsignedNumeral negative (Nat.toDigits 10 n) =
      some (⟨negative, Nat.toDigits 10 n, none, none⟩, []) := by
  rw [unsignedNumeral, wholeDigits_toDigits]
  rfl

lemma ofDigits_toDigits (n : Nat) : Number.ofDigits (Nat.toDigits 10 n) = n :=
  Nat.ofDigitChars_toDigits (by decide) (by decide)

/-- **An integer of sixty-four bits is read as it was written.** -/
theorem readsNumber_integer {n : Int} (hlow : -(Nat.pow 2 63 : Int) ≤ n)
    (hhigh : n < UInt64.size) : ReadsNumber (toString n).toList (.integer n) := by
  cases n with
  | ofNat n =>
    have htext : (toString (Int.ofNat n)).toList = Nat.toDigits 10 n := String.toList_ofList
    have hhead : (Nat.toDigits 10 n).head? ≠ some '-' := by
      intro hminus
      have hdigit := Nat.isDigit_of_mem_toDigits (b := 10) (n := n) (by decide) (by decide)
        (List.mem_of_mem_head? hminus)
      cases hdigit
    refine ⟨⟨false, Nat.toDigits 10 n, none, none⟩, ?_, ?_⟩
    · rw [htext, numeral_other hhead, unsignedNumeral_toDigits]
    · have hsize : n < UInt64.size := Int.ofNat_lt.mp hhigh
      change wholeNumber false (Nat.toDigits 10 n) = _
      simp only [wholeNumber, ofDigits_toDigits, if_pos hsize]
      rfl
  | negSucc n =>
    have htext : (toString (Int.negSucc n)).toList = '-' :: Nat.toDigits 10 (n + 1) := by
      change ("-" ++ String.ofList (Nat.toDigits 10 (n + 1))).toList = _
      rw [String.toList_append, String.toList_ofList (l := Nat.toDigits 10 (n + 1))]
      rfl
    refine ⟨⟨true, Nat.toDigits 10 (n + 1), none, none⟩, ?_, ?_⟩
    · rw [htext, numeral_minus, unsignedNumeral_toDigits]
    · change wholeNumber true (Nat.toDigits 10 (n + 1)) = _
      have hsize : n + 1 ≤ Nat.pow 2 63 := by
        rw [Int.negSucc_eq] at hlow
        omega
      simp only [wholeNumber, ofDigits_toDigits, if_pos hsize]
      rfl

end ServiceSim.Json
