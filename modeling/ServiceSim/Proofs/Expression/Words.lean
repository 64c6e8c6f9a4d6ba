import ServiceSim.Proofs.Expression.Writing
import ServiceSim.Proofs.Number.Digits
import Mathlib.Tactic.Lemma
import Mathlib.Tactic.SplitIfs

/-!
# Reading words

Every reader of a word takes exactly this word when it stands in front, after white space of any
length, and when the text ends behind it or goes on with white space.  White space keeps words apart:
without it a number could take up an exponent, a name another part, and `<` an equals sign.
-/

namespace ServiceSim.Expression

variable {cs rest gap : List Char} {words words' : List Word} {c : Char}

/-! ## White space -/

/-- White space is nothing else. -/
lemma isBlank_spec (h : isBlank c = true) :
    isNameChar c = false ∧ c.isDigit = false ∧ c ∉ ['.', 'e', 'E', '(', '=', '>'] := by
  simp only [isBlank, Bool.or_eq_true, beq_iff_eq] at h
  rcases h with (((rfl | rfl) | rfl) | rfl) | rfl <;> decide

/-- The characters of names are digits, letters and the underscore. -/
lemma nameChar_range (h : isNameChar c = true) : 48 ≤ c.toNat ∧ c.toNat ≤ 122 := by
  unfold isNameChar Char.isAlphanum Char.isAlpha Char.isUpper Char.isLower Char.isDigit at h
  simp only [Bool.or_eq_true, Bool.and_eq_true, decide_eq_true_eq, beq_iff_eq,
    UInt32.le_iff_toNat_le, ge_iff_le] at h
  change ((((65 ≤ c.toNat ∧ c.toNat ≤ 90) ∨ (97 ≤ c.toNat ∧ c.toNat ≤ 122)) ∨
    (48 ≤ c.toNat ∧ c.toNat ≤ 57)) ∨ c = '_') at h
  rcases h with ((h | h) | h) | rfl
  · omega
  · omega
  · omega
  · decide

lemma IsApart.head (h : IsApart (c :: cs)) : isBlank c = true := h c rfl

lemma isApart_nil : IsApart [] := by simp [IsApart]

lemma IsGap.apart (h : IsGap cs) : IsApart cs := by
  intro c hc
  exact h c (List.mem_of_mem_head? hc)

lemma IsApart.append (h : IsApart cs) (hrest : IsApart rest) : IsApart (cs ++ rest) := by
  cases cs with
  | nil => exact hrest
  | cons c cs => exact h

lemma skip_gap (h : IsGap gap) (cs : List Char) : skip (gap ++ cs) = skip cs := by
  rw [skip, List.dropWhile_append_of_pos h]
  rfl

lemma skip_solid (h : isBlank c = false) (cs : List Char) : skip (c :: cs) = c :: cs :=
  List.dropWhile_cons_of_neg (by simp [h])

lemma skip_eq_nil (h : IsGap cs) : skip cs = [] := by
  rw [skip, List.dropWhile_eq_nil_iff]
  exact h

/-- The words that are spread over a text, in two parts. -/
lemma Spread.append (h : Spread (words ++ words') cs) :
    ∃ cs₁ cs₂, cs = cs₁ ++ cs₂ ∧ Spread words cs₁ ∧ Spread words' cs₂ ∧
      (words ≠ [] ∨ IsApart cs → IsApart cs₂) := by
  induction words generalizing cs with
  | nil => exact ⟨[], cs, rfl, .nil, h, by simp⟩
  | cons w words ih =>
    cases h with
    | @cons _ _ gap cs hgap hapart hspread =>
      obtain ⟨cs₁, cs₂, rfl, h₁, h₂, hlater⟩ := ih hspread
      refine ⟨gap ++ (w ++ cs₁), cs₂, by simp, .cons hgap ?_ h₁, h₂, fun _ => hlater (.inr hapart)⟩
      intro c hc
      refine hapart c ?_
      rw [List.head?_append, hc]
      rfl

/-- The first of several words. -/
lemma Spread.uncons {w : Word} (h : Spread (w :: words) cs) :
    ∃ gap cs', cs = gap ++ (w ++ cs') ∧ IsGap gap ∧ Spread words cs' ∧ IsApart cs' := by
  cases h with
  | cons hgap hapart hspread => exact ⟨_, _, rfl, hgap, hspread, hapart⟩

/-- A word by itself. -/
lemma Spread.single {w : Word} (h : Spread [w] cs) : ∃ gap, cs = gap ++ w ∧ IsGap gap := by
  obtain ⟨gap, cs', rfl, hgap, hnil, -⟩ := h.uncons
  cases hnil
  exact ⟨gap, by rw [List.append_nil], hgap⟩

/-! ## Symbols and keywords -/

lemma symbol?_gap (h : IsGap gap) (symbol : String) (cs : List Char) :
    symbol? symbol (gap ++ cs) = symbol? symbol cs := by
  rw [symbol?, symbol?, skip_gap h]

lemma keyword?_gap (h : IsGap gap) (keyword : String) (cs : List Char) :
    keyword? keyword (gap ++ cs) = keyword? keyword cs := by
  rw [keyword?, keyword?, skip_gap h]

lemma after?_eq_some {w : Word} (h : after? w cs = some rest) : cs = w ++ rest := by
  induction w generalizing cs with
  | nil =>
    injection h with h
  | cons x w ih =>
    cases cs with
    | nil => cases h
    | cons c cs =>
      rw [after?] at h
      split_ifs at h with hx
      rw [hx, ih h]
      rfl

lemma after?_append (w rest : List Char) : after? w (w ++ rest) = some rest := by
  induction w with
  | nil => rfl
  | cons x w ih => rw [List.cons_append, after?, if_pos rfl, ih]

/-- A symbol is read in front. -/
lemma symbol?_word {symbol : String} (hgap : IsGap gap)
    (solid : skip (word symbol ++ rest) = word symbol ++ rest) :
    symbol? symbol (gap ++ (word symbol ++ rest)) = some rest := by
  rw [symbol?_gap hgap, symbol?, solid, after?_append]

lemma expect_word {symbol : String} (hgap : IsGap gap)
    (solid : skip (word symbol ++ rest) = word symbol ++ rest) :
    expect symbol (gap ++ (word symbol ++ rest)) = .ok rest := by
  rw [expect, symbol?_word hgap solid]

/-- A reader that has succeeded goes on with its result. -/
lemma ok_bind {ε α β : Type} (a : α) (f : α → Except ε β) : (Except.ok a >>= f) = f a := rfl

/-- What goes on with white space does not go on as a name. -/
lemma IsApart.not_nameChar (h : IsApart rest) : (rest.head?.map isNameChar).getD false = false := by
  cases rest with
  | nil => rfl
  | cons c rest => exact (isBlank_spec h.head).1

/-- A keyword takes all characters of names that stand in front. -/
lemma keyword?_eq_some {keyword : String} (letters : ∀ x ∈ keyword.toList, isNameChar x = true)
    (h : keyword? keyword cs = some rest) : (skip cs).takeWhile isNameChar = keyword.toList := by
  rw [keyword?, Option.filter_eq_some_iff] at h
  obtain ⟨hafter, hrest⟩ := h
  rw [after?_eq_some hafter, List.takeWhile_append_of_pos letters]
  cases rest with
  | nil => simp
  | cons c rest =>
    rw [List.takeWhile_cons_of_neg (by simpa using hrest), List.append_nil]

lemma solid_of_nameChar (h : isNameChar c = true) : isBlank c = false := by
  by_contra hblank
  have hspec := (isBlank_spec (by simpa using hblank)).1
  rw [h] at hspec
  cases hspec

lemma solid_of_digit (h : c.isDigit = true) : isBlank c = false := by
  refine solid_of_nameChar ?_
  rw [isNameChar, Char.isAlphanum, h, Bool.or_true, Bool.true_or]

/-- Two characters of which one is in a class and the other is not. -/
lemma ne_of_class {p : Char → Bool} {d : Char} (h : p c = true) (hd : p d = false) : c ≠ d := by
  rintro rfl
  rw [h] at hd
  cases hd

lemma letters_of_mem_keywords {keyword : String} (h : keyword ∈ keywords) :
    ∀ x ∈ keyword.toList, isNameChar x = true := by
  have hall : ∀ keyword ∈ keywords, keyword.toList.all isNameChar = true := by decide
  exact List.all_eq_true.mp (hall keyword h)

/-- A keyword is read where a text ends or goes on with white space. -/
lemma keyword?_self {keyword : String} (h : keyword ∈ keywords) (hrest : IsApart rest) :
    keyword? keyword (keyword.toList ++ rest) = some rest := by
  have hsolid : skip (keyword.toList ++ rest) = keyword.toList ++ rest := by
    simp only [keywords, List.mem_cons, List.not_mem_nil, or_false] at h
    rcases h with rfl | rfl | rfl | rfl | rfl | rfl <;> rfl
  rw [keyword?, hsolid, after?_append]
  simp [hrest.not_nameChar]

/-! ## Names -/

/-- The characters of names before something else. -/
lemma takeWhile_nameChar (letters : ∀ x ∈ cs, isNameChar x = true)
    (h : (rest.head?.map isNameChar).getD false = false) :
    (cs ++ rest).takeWhile isNameChar = cs := by
  rw [List.takeWhile_append_of_pos letters]
  cases rest with
  | nil => simp
  | cons c rest => rw [List.takeWhile_cons_of_neg (by simpa using h), List.append_nil]

lemma isNameChar_of_start (h : isNameStart c = true) : isNameChar c = true := by
  simp only [isNameStart, isNameChar, Char.isAlphanum, Bool.or_eq_true] at h ⊢
  rcases h with halpha | hline
  · exact .inl (.inl halpha)
  · exact .inr hline

lemma IsSegment.letters (h : IsSegment cs) : ∀ x ∈ cs, isNameChar x = true := by
  obtain ⟨c, rest, rfl, hstart, hrest⟩ := h
  intro x hx
  rcases List.mem_cons.mp hx with rfl | hx
  · exact isNameChar_of_start hstart
  · exact hrest x hx

lemma nameRest_letters (letters : ∀ x ∈ cs, isNameChar x = true) (rest : List Char) :
    nameRest (cs ++ rest) = (cs ++ (nameRest rest).1, (nameRest rest).2) := by
  induction cs with
  | nil => rfl
  | cons c cs ih =>
    have hc : isNameChar c = true := letters c List.mem_cons_self
    rw [List.cons_append, nameRest, hc, ih fun x hx => letters x (List.mem_cons_of_mem _ hx)]
    rfl

lemma nameRest_apart (h : IsApart rest) : nameRest rest = ([], rest) := by
  cases rest with
  | nil => rfl
  | cons c rest =>
    obtain ⟨hname, -, hpoint⟩ := isBlank_spec h.head
    have hc : (c == '.') = false := beq_false_of_ne fun h => hpoint (h ▸ List.mem_cons_self)
    rw [nameRest, hname, hc]
    rfl

lemma nameRest_parts {others : List (List Char)} (segments : ∀ s ∈ others, IsSegment s)
    (h : IsApart rest) :
    nameRest (others.flatMap ('.' :: ·) ++ rest) = (others.flatMap ('.' :: ·), rest) := by
  induction others with
  | nil => exact nameRest_apart h
  | cons s others ih =>
    have hs := segments s List.mem_cons_self
    have hothers := ih fun s hs => segments s (List.mem_cons_of_mem _ hs)
    have hletters := nameRest_letters hs.letters (others.flatMap ('.' :: ·) ++ rest)
    rw [hothers] at hletters
    obtain ⟨c, more, rfl, hstart, -⟩ := hs
    rw [List.flatMap_cons, List.append_assoc, List.cons_append, nameRest, hletters]
    have hpoint : ((c :: more ++ (others.flatMap ('.' :: ·) ++ rest)).head?.map isNameStart).getD
        false = true := hstart
    rw [hpoint]
    rfl

/-- What a name consists of. -/
lemma IsName.spec {name : String} (h : IsName name) (hrest : IsApart rest) :
    nameRest (name.toList ++ rest) = (name.toList, rest) ∧
      String.ofList ((name.toList ++ rest).takeWhile isNameChar) ∉ keywords ∧
      ∃ c more, name.toList = c :: more ∧ isNameStart c = true := by
  obtain ⟨-, first, others, hfirst, hothers, hname, hkeyword⟩ := h
  have hletters := nameRest_letters hfirst.letters (others.flatMap ('.' :: ·) ++ rest)
  rw [nameRest_parts hothers hrest] at hletters
  have hstop : ((others.flatMap ('.' :: ·) ++ rest).head?.map isNameChar).getD false = false := by
    cases others with
    | nil => exact hrest.not_nameChar
    | cons s others => rfl
  rw [hname, List.append_assoc, takeWhile_nameChar hfirst.letters hstop]
  refine ⟨hletters, hkeyword, ?_⟩
  obtain ⟨c, more, rfl, hstart, -⟩ := hfirst
  exact ⟨c, _, rfl, hstart⟩

/-- A name does not begin with a keyword. -/
lemma IsName.keyword?_eq_none {name keyword : String} (h : IsName name) (hrest : IsApart rest)
    (hkeyword : keyword ∈ keywords) : keyword? keyword (name.toList ++ rest) = none := by
  obtain ⟨-, hfirst, c, more, hname, hstart⟩ := h.spec hrest
  have hsolid := solid_of_nameChar (isNameChar_of_start hstart)
  cases hread : keyword? keyword (name.toList ++ rest) with
  | none => rfl
  | some rest' =>
    have htaken := keyword?_eq_some (letters_of_mem_keywords hkeyword) hread
    have hskip : skip (name.toList ++ rest) = name.toList ++ rest := by
      rw [hname]
      exact skip_solid hsolid _
    rw [hskip] at htaken
    rw [htaken, String.ofList_toList] at hfirst
    exact absurd hkeyword hfirst

/-- A name is no keyword. -/
lemma IsName.not_mem_keywords {name : String} (h : IsName name) : name ∉ keywords := by
  intro hmem
  have hfirst := (h.spec isApart_nil).2.1
  rw [takeWhile_nameChar (letters_of_mem_keywords hmem) rfl, String.ofList_toList] at hfirst
  exact hfirst hmem

/-! ## Numbers -/

lemma IsApart.not_digit (h : IsApart rest) : ∀ c ∈ rest.head?, c.isDigit = false := by
  intro c hc
  exact (isBlank_spec (h c hc)).2.1

namespace Numeral

variable {n : Numeral} {v : Value}

/-- The exponent of a number. -/
def scale : Option Exponent → Option Int
  | none => none
  | some e =>
    some (if e.sign = ['-'] then -(Number.ofDigits e.digits : Int) else Number.ofDigits e.digits)

/-- An exponent, if there is one, before something else. -/
lemma exponentPart_text (e : Option Exponent) (h : IsApart rest) :
    Number.exponentPart (exponentText e ++ rest) = (scale e).map (·, rest) := by
  cases e with
  | none =>
    cases rest with
    | nil => rfl
    | cons c rest =>
      obtain ⟨-, -, hmark⟩ := isBlank_spec h.head
      have hc : ¬ (c = 'e' ∨ c = 'E') := by
        rintro (rfl | rfl) <;> exact hmark (by simp)
      simp only [exponentText, List.nil_append, Number.exponentPart, if_neg hc]
      rfl
  | some e =>
    obtain ⟨mark, sign, digits, hmark, hsign, hne, hdigits⟩ := e
    obtain ⟨htake, hdrop⟩ := Number.span_digits hdigits h.not_digit
    have hempty : digits.isEmpty = false := by simpa using hne
    obtain ⟨c, more, rfl⟩ := List.exists_cons_of_ne_nil hne
    have hc : c.isDigit = true := hdigits c List.mem_cons_self
    have hplus : c ≠ '+' := ne_of_class hc rfl
    have hminus : c ≠ '-' := ne_of_class hc rfl
    rcases hsign with rfl | rfl | rfl
    all_goals
      simp only [exponentText, scale, Number.exponentPart, List.cons_append, List.nil_append,
        if_pos hmark] at htake hdrop ⊢
    · split
      next h => exact absurd (List.cons.inj h).1 hplus
      next h => exact absurd (List.cons.inj h).1 hminus
      · simp [htake, hdrop]
    · simp [htake, hdrop]
    · simp [htake, hdrop]

/-- An exponent begins with its mark. -/
lemma exponentText_head (e : Option Exponent) (h : IsApart rest) :
    ∀ c ∈ (exponentText e ++ rest).head?, c.isDigit = false ∧ c ≠ '.' := by
  cases e with
  | none =>
    intro c hc
    obtain ⟨-, hdigit, hpoint⟩ := isBlank_spec (h c hc)
    exact ⟨hdigit, fun hc => hpoint (hc ▸ List.mem_cons_self)⟩
  | some e =>
    intro c hc
    injection hc with hc
    subst hc
    rcases e.mark_spec with h | h <;> rw [h] <;> decide

/-- A fraction, if there is one, before something else. -/
lemma fractionPart_text (n : Numeral) (h : ∀ c ∈ rest.head?, c.isDigit = false ∧ c ≠ '.') :
    (fractionPart (fractionText n.fraction ++ rest)).getD ([], fractionText n.fraction ++ rest) =
      (n.fraction, rest) ∧
      ∀ c ∈ (fractionText n.fraction ++ rest).head?, c.isDigit = false := by
  cases hfraction : n.fraction with
  | nil =>
    refine ⟨?_, fun c hc => (h c hc).1⟩
    cases rest with
    | nil => rfl
    | cons c rest =>
      have hc : c ≠ '.' := (h c rfl).2
      simp only [fractionText, List.nil_append]
      unfold fractionPart
      split
      next heq => exact absurd (List.cons.inj heq).1 hc
      · rfl
  | cons d ds =>
    have hdigits : ∀ x ∈ d :: ds, x.isDigit = true := hfraction ▸ n.fraction_spec
    obtain ⟨htake, hdrop⟩ := Number.span_digits hdigits fun c hc => (h c hc).1
    refine ⟨?_, fun c hc => ?_⟩
    · simp only [fractionText, List.cons_append, fractionPart] at htake hdrop ⊢
      rw [htake, hdrop]
      rfl
    · injection hc with hc
      subst hc
      rfl

/-- The double that the text of a number denotes. -/
lemma unsigned?_text (n : Numeral) : Number.unsigned? n.text =
    some (Number.ofDecimal
      (Number.assemble n.whole n.fraction ((scale n.exponent).getD 0))) := by
  have hexponent := exponentPart_text n.exponent isApart_nil
  have hhead := exponentText_head n.exponent isApart_nil
  rw [List.append_nil] at hexponent hhead
  obtain ⟨-, hpoint⟩ := fractionPart_text n hhead
  obtain ⟨htake, hdrop⟩ := Number.span_digits n.whole_spec hpoint
  unfold Number.unsigned?
  simp only [text, htake, hdrop]
  cases hfraction : n.fraction with
  | nil =>
    have hwhole : n.whole.isEmpty = false := by
      simpa [hfraction] using n.nonempty
    cases hexp : n.exponent with
    | none => simp [fractionText, exponentText, scale, hwhole]
    | some e =>
      rw [hexp] at hexponent
      rcases e.mark_spec with hmark | hmark
      all_goals
        simp only [exponentText, scale, Option.map_some, hmark] at hexponent
        simp [fractionText, exponentText, scale, hwhole, hmark, hexponent]
  | cons d ds =>
    have hdigits : ∀ x ∈ d :: ds, x.isDigit = true := hfraction ▸ n.fraction_spec
    obtain ⟨hfirst, hlater⟩ := Number.span_digits hdigits fun c hc => (hhead c hc).1
    simp only [fractionText, List.cons_append] at hfirst hlater ⊢
    rw [hfirst, hlater]
    cases hexp : n.exponent with
    | none => simp [exponentText, scale]
    | some e =>
      rw [hexp] at hexponent
      simp only [exponentText, scale, Option.map_some] at hexponent
      simp [exponentText, scale, hexponent]

/-- **A number is read as what it denotes.** -/
theorem number_text (h : n.Denotes v) (hrest : IsApart rest) :
    number (n.text ++ rest) = .ok (v, rest) := by
  have hexponent := exponentPart_text n.exponent hrest
  obtain ⟨hfraction, hpoint⟩ := fractionPart_text n (exponentText_head n.exponent hrest)
  obtain ⟨htake, hdrop⟩ := Number.span_digits n.whole_spec hpoint
  have hne : ¬ (n.whole.isEmpty = true ∧ n.fraction.isEmpty = true) := by
    rcases n.nonempty with h | h <;> simp [h]
  have hscale : scale n.exponent = none ↔ n.exponent = none := by
    cases n.exponent <;> simp [scale]
  unfold number
  simp only [text, List.append_assoc, htake, hdrop, hfraction, hexponent, if_neg hne]
  cases h with
  | @int k integer hk =>
    obtain ⟨hf, he⟩ := integer
    simp [he, hf, hk, exponentText, scale]
  | @double x broken hx =>
    rw [unsigned?_text] at hx
    injection hx with hx
    subst hx
    cases hs : scale n.exponent with
    | none =>
      have hf : n.fraction.isEmpty = false := by
        rw [List.isEmpty_eq_false_iff]
        exact fun hf => broken ⟨hf, hscale.mp hs⟩
      simp [hf, hscale.mp hs, exponentText]
    | some e => simp

/-- The first character of a number. -/
lemma text_head (n : Numeral) : ∃ c more, n.text = c :: more ∧ isBlank c = false ∧ c ≠ '-' ∧
    (n.whole ≠ [] → c.isDigit = true) := by
  cases hwhole : n.whole with
  | cons d ds =>
    have hd : d.isDigit = true := n.whole_spec d (hwhole ▸ List.mem_cons_self)
    exact ⟨d, _, by rw [text, hwhole]; rfl, solid_of_digit hd, ne_of_class hd rfl, fun _ => hd⟩
  | nil =>
    have hfraction : n.fraction ≠ [] := n.nonempty.resolve_left (fun h => h hwhole)
    obtain ⟨d, ds, hds⟩ := List.exists_cons_of_ne_nil hfraction
    exact ⟨'.', _, by rw [text, hwhole, hds]; rfl, rfl, by decide, fun h => absurd rfl h⟩

end Numeral

/-- A number after a minus sign or none. -/
lemma signedNumber_words {v : Value} (h : Signed v words) (spread : Spread words cs)
    (hrest : IsApart rest) : signedNumber (cs ++ rest) = .ok (v, rest) := by
  have hfirst : ∀ (n : Numeral) (rest : List Char), skip (n.text ++ rest) = n.text ++ rest ∧
      symbol? "-" (n.text ++ rest) = none := by
    intro n rest
    obtain ⟨c, more, htext, hsolid, hminus, -⟩ := n.text_head
    have hskip : skip (n.text ++ rest) = n.text ++ rest := by
      rw [htext]
      exact skip_solid hsolid _
    refine ⟨hskip, ?_⟩
    rw [symbol?, hskip, htext]
    exact if_neg hminus.symm
  cases h with
  | @plain n v hdenotes =>
    obtain ⟨gap, rfl, hgap⟩ := spread.single
    obtain ⟨hskip, hminus⟩ := hfirst n rest
    rw [signedNumber, List.append_assoc, symbol?_gap hgap, hminus]
    dsimp only
    rw [skip_gap hgap, hskip, Numeral.number_text hdenotes hrest]
  | @minus n v hdenotes =>
    obtain ⟨gap, cs', rfl, hgap, hspread, -⟩ := spread.uncons
    obtain ⟨gap', rfl, hgap'⟩ := hspread.single
    obtain ⟨hskip, -⟩ := hfirst n rest
    rw [signedNumber, List.append_assoc, List.append_assoc, symbol?_word hgap rfl]
    dsimp only
    rw [List.append_assoc, skip_gap hgap', hskip, Numeral.number_text hdenotes hrest]
    rfl

/-! ## Strings -/

/-- A string is read up to its closing quote. -/
lemma stringLiteral_quotation {text : String} (h : '"' ∉ text.toList) (hgap : IsGap gap)
    (rest : List Char) :
    stringLiteral (gap ++ (quotation text ++ rest)) = .ok (text, rest) := by
  have hinside : ∀ x ∈ text.toList, (x != '"') = true := by
    intro x hx
    rw [bne_iff_ne]
    rintro rfl
    exact h hx
  have htake : (text.toList ++ '"' :: rest).takeWhile (· != '"') = text.toList := by
    rw [List.takeWhile_append_of_pos hinside]
    simp
  have hdrop : (text.toList ++ '"' :: rest).dropWhile (· != '"') = '"' :: rest := by
    rw [List.dropWhile_append_of_pos hinside]
    simp
  have hskip : skip (gap ++ (quotation text ++ rest)) = '"' :: (text.toList ++ '"' :: rest) := by
    rw [skip_gap hgap, quotation, List.cons_append, skip_solid rfl, List.append_assoc]
    rfl
  rw [stringLiteral, hskip]
  simp only [htake, hdrop, String.ofList_toList]

/-! ## Distributions -/

/-- A reader that reads something back from its words. -/
def ReadsBack {α : Type} (read : List Char → Except Stop (α × List Char))
    (item : α → List Word → Prop) : Prop :=
  ∀ {a : α} {words : List Word} {cs rest : List Char}, item a words → Spread words cs →
    IsApart rest → read (cs ++ rest) = .ok (a, rest)

lemma signedDouble_words {v : Value} (h : Signed v words) (spread : Spread words cs)
    (hrest : IsApart rest) : signedDouble (cs ++ rest) = .ok (doubleOf v, rest) := by
  rw [signedDouble, signedNumber_words h spread hrest]
  rfl

lemma signedDouble_readsBack : ReadsBack signedDouble Bounded := by
  rintro x words cs rest ⟨h⟩ spread hrest
  exact signedDouble_words h spread hrest

lemma sample_readsBack (kind : PmfKind) : ReadsBack (sample kind) (Sampled kind) := by
  intro v words cs rest h spread hrest
  cases h with
  | int h =>
    rw [sample, signedNumber_words h spread hrest]
    rfl
  | double h =>
    rw [sample, signedDouble_words h spread hrest]
    rfl
  | bool b =>
    obtain ⟨gap, rfl, hgap⟩ := spread.single
    simp only [sample, List.append_assoc, keyword?_gap hgap]
    cases b with
    | true =>
      have hread : keyword? "true" (truth true ++ rest) = some rest :=
        keyword?_self (by decide) hrest
      rw [hread]
    | false =>
      have hread : keyword? "false" (truth false ++ rest) = some rest :=
        keyword?_self (by decide) hrest
      have hother : keyword? "true" (truth false ++ rest) = none := rfl
      rw [hread, hother]
  | enum h =>
    obtain ⟨gap, rfl, hgap⟩ := spread.single
    rw [sample, List.append_assoc, stringLiteral_quotation h hgap]
    rfl

/-- An entry is read back, and what follows it is left. -/
lemma entry_words {α : Type} {read : List Char → Except Stop (α × List Char)}
    {item : α → List Word → Prop} (reads : ReadsBack read item) {a : α} {v : Value}
    {itemWords probability words : List Word} (ha : item a itemWords) (hv : Signed v probability)
    (spread : Spread (word "(" :: (itemWords ++ word ";" :: (probability ++ word ")" :: words))) cs) :
    ∃ cs', cs'.length < cs.length ∧ Spread words cs' ∧
      (∀ rest, symbol? "]" (cs ++ rest) = none) ∧
      ∀ rest, IsApart rest → entry read (cs ++ rest) = .ok ((a, doubleOf v), cs' ++ rest) := by
  obtain ⟨gap, cs₁, rfl, hgap, hspread, hapart⟩ := spread.uncons
  obtain ⟨csItem, cs₂, rfl, hitem, hspread, hafter⟩ := hspread.append
  have hapart := hafter (.inr hapart)
  obtain ⟨gap', cs₃, rfl, hgap', hspread, hapart'⟩ := hspread.uncons
  obtain ⟨csProbability, cs₄, rfl, hprobability, hspread, hafter'⟩ := hspread.append
  have hapart' := hafter' (.inr hapart')
  obtain ⟨gap'', cs', rfl, hgap'', hspread, -⟩ := hspread.uncons
  refine ⟨cs', ?_, hspread, fun rest => ?_, fun rest hrest => ?_⟩
  · have hword : (word "(").length = 1 := rfl
    simp only [List.length_append]
    omega
  · rw [List.append_assoc, symbol?_gap hgap]
    rfl
  · have hread := reads ha hitem (hapart.append hrest)
    have hsigned := signedDouble_words hv hprobability (hapart'.append hrest)
    simp only [List.append_assoc] at hread hsigned ⊢
    rw [entry, expect_word hgap rfl, ok_bind, hread, ok_bind]
    dsimp only
    rw [expect_word hgap' rfl, ok_bind, hsigned, ok_bind]
    dsimp only
    rw [expect_word hgap'' rfl, ok_bind]
    rfl

/-- Entries are read back, up to the closing bracket. -/
lemma entries_words {α : Type} {read : List Char → Except Stop (α × List Char)}
    {item : α → List Word → Prop} (reads : ReadsBack read item) {found : List (α × Float)}
    (h : Entries item found words) (spread : Spread (words ++ [word "]"]) cs)
    (hrest : IsApart rest) {bound : Nat} (enough : cs.length < bound) :
    entries read bound (cs ++ rest) = .ok (found, rest) := by
  induction h generalizing cs bound with
  | nil =>
    obtain ⟨gap, rfl, hgap⟩ := spread.single
    obtain ⟨bound, rfl⟩ := Nat.exists_eq_succ_of_ne_zero (Nat.ne_zero_of_lt enough)
    rw [entries, List.append_assoc, symbol?_word hgap rfl]
  | cons ha hv _ ih =>
    simp only [List.cons_append, List.append_assoc] at spread
    obtain ⟨cs', hshorter, hspread, hclose, hentry⟩ := entry_words reads ha hv spread
    obtain ⟨bound, rfl⟩ := Nat.exists_eq_succ_of_ne_zero (Nat.ne_zero_of_lt enough)
    rw [entries, hclose, hentry rest hrest, ok_bind]
    dsimp only
    rw [ih hspread (by omega), ok_bind]
    rfl

/-- **The entries of a distribution are read back.** -/
theorem bracketed_words {α : Type} {read : List Char → Except Stop (α × List Char)}
    {item : α → List Word → Prop} (reads : ReadsBack read item) {found : List (α × Float)}
    (h : Entries item found words) (nonempty : found ≠ []) (fault : GrammarFault)
    (spread : Spread (word "[" :: (words ++ [word "]"])) cs) (hrest : IsApart rest) :
    bracketed read fault (cs ++ rest) = .ok (found, rest) := by
  obtain ⟨gap, cs, rfl, hgap, hspread, -⟩ := spread.uncons
  have hentries : entries read ((cs ++ rest).length + 1) (cs ++ rest) = .ok (found, rest) :=
    entries_words reads h hspread hrest (by rw [List.length_append]; omega)
  have hfound : found.isEmpty = false := by simpa using nonempty
  simp only [List.append_assoc]
  rw [bracketed, expect_word hgap rfl, ok_bind, hentries, ok_bind]
  dsimp only
  rw [hfound]
  rfl

end ServiceSim.Expression
