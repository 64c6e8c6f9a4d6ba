import ServiceSim.Proofs.Expression.Levels

/-!
# Expressions are read back as they are written

Each kind of expression is read at the level at which it is written, if its operands are read at the
levels that are required of them: first the atoms, then parentheses, calls, signs, operators between
two operands and conditionals.  The induction is on the words of an expression, one case for each
kind (`Written.readsWords`).  `parse_written` is the result for whole texts.
-/

namespace ServiceSim.Expression

open Level

variable {level level' : Level} {cs rest gap : List Char} {words : List Word} {tree : Tree}
  {op : BinaryOp}

/-! ## Atoms -/

/-- An atom is read where it begins. -/
lemma Reads.ofAtom {c : Char} {more : List Char} (hgap : IsGap gap) (solid : isBlank c = false)
    (close : c ≠ ')') (minus : c ≠ '-')
    (positive : ∀ rest, IsApart rest → keyword? "NOT" (c :: (more ++ rest)) = none)
    (read : ∀ fuel rest, 12 * (more.length + 1) ≤ fuel + 10 → Follows .atom rest →
      atom fuel (c :: (more ++ rest)) = .ok (tree, rest)) :
    Reads .atom tree (gap ++ (c :: more)) where
  begins := ⟨gap, c, more, rfl, hgap, solid, close, fun _ => minus⟩
  reads := by
    intro fuel rest hfuel hfollows
    have hrank : Level.atom.rank = 9 := rfl
    rw [List.length_append, List.length_cons, hrank] at hfuel
    obtain ⟨fuel, rfl⟩ : ∃ n, fuel = n + 1 := ⟨fuel - 1, by omega⟩
    rw [expression, List.append_assoc, skip_gap hgap, List.cons_append, skip_solid solid]
    exact read fuel rest (by omega) hfollows
  continues := fun h => absurd h (by decide)
  positive := by
    intro _ rest hrest
    rw [List.append_assoc, keyword?_gap hgap]
    exact positive rest hrest

lemma keyword?_other {c : Char} (solid : isBlank c = false) (h : 'N' ≠ c) (cs : List Char) :
    keyword? "NOT" (c :: cs) = none := by
  rw [keyword?, skip_solid solid]
  exact congrArg (Option.filter _) (if_neg h)

/-- A number is read as what it denotes. -/
lemma reads_number {n : Numeral} {v : Value} (hwhole : n.whole ≠ []) (h : n.Denotes v)
    (hgap : IsGap gap) : Reads .atom (.literal v) (gap ++ n.text) := by
  obtain ⟨c, more, htext, hsolid, hminus, hdigit⟩ := n.text_head
  have hdigit := hdigit hwhole
  have hkeyword : c ≠ 'N' := ne_of_class hdigit rfl
  rw [htext]
  refine .ofAtom hgap hsolid (ne_of_class hdigit rfl) hminus
    (fun rest _ => keyword?_other hsolid hkeyword.symm _) fun fuel rest hfuel hfollows => ?_
  obtain ⟨fuel, rfl⟩ : ∃ n, fuel = n + 1 := ⟨fuel - 1, by omega⟩
  have hread := Numeral.number_text h hfollows.apart
  rw [htext, List.cons_append] at hread
  rw [atom, if_neg (ne_of_class hdigit rfl), if_neg (ne_of_class hdigit rfl), if_pos hdigit, hread]
  rfl

/-- A string is read as its characters. -/
lemma reads_enum {text : String} (h : '"' ∉ text.toList) (hgap : IsGap gap) :
    Reads .atom (.literal (.enum text)) (gap ++ quotation text) := by
  refine .ofAtom hgap rfl (by decide) (by decide) (fun _ _ => rfl) fun fuel rest hfuel _ => ?_
  obtain ⟨fuel, rfl⟩ : ∃ n, fuel = n + 1 := ⟨fuel - 1, by omega⟩
  have hempty : IsGap [] := by simp [IsGap]
  have hread : stringLiteral (quotation text ++ rest) = .ok (text, rest) :=
    stringLiteral_quotation h hempty rest
  rw [quotation, List.cons_append] at hread
  rw [atom, if_neg (by decide), if_pos rfl, hread]
  rfl

/-! ### Names -/

/-- The first character of a name begins neither parentheses nor a literal. -/
lemma atom_name {c : Char} {more : List Char} {name : String} (hstart : isNameStart c = true)
    (hname : nameRest (c :: (more ++ rest)) = (name.toList, rest)) (fuel : Nat) :
    atom (fuel + 1) (c :: (more ++ rest)) = named fuel name rest := by
  have hdigit : ¬ c.isDigit = true := by
    intro hdigit
    unfold isNameStart Char.isAlpha Char.isUpper Char.isLower at hstart
    unfold Char.isDigit at hdigit
    simp only [Bool.or_eq_true, Bool.and_eq_true, decide_eq_true_eq, beq_iff_eq] at hstart hdigit
    rcases hstart with (hcase | hcase) | rfl
    · exact absurd (UInt32.le_trans hcase.1 hdigit.2) (by decide)
    · exact absurd (UInt32.le_trans hcase.1 hdigit.2) (by decide)
    · exact absurd hdigit.2 (by decide)
  rw [atom, if_neg (ne_of_class hstart rfl), if_neg (ne_of_class hstart rfl), if_neg hdigit,
    if_pos hstart, hname]
  dsimp only
  rw [String.ofList_toList]

/-- A word of the letters of names is read as what it begins. -/
lemma Reads.ofWord {c : Char} {more args : List Char} {name : String}
    (hgap : IsGap gap) (hname : name.toList = c :: more) (hstart : isNameStart c = true)
    (positive : ∀ rest, IsApart rest → keyword? "NOT" (name.toList ++ rest) = none)
    (whole : ∀ rest, IsApart rest → nameRest (name.toList ++ rest) = (name.toList, rest))
    (hargs : IsApart args)
    (read : ∀ fuel rest, 12 * args.length ≤ fuel → Follows .atom rest →
      named (fuel + 1) name (args ++ rest) = .ok (tree, rest)) :
    Reads .atom tree (gap ++ (name.toList ++ args)) := by
  rw [hname] at positive whole ⊢
  rw [List.cons_append]
  refine .ofAtom hgap (solid_of_nameChar (isNameChar_of_start hstart)) (ne_of_class hstart rfl)
    (ne_of_class hstart rfl) (fun rest hrest => ?_) fun fuel rest hfuel hfollows => ?_
  · rw [List.append_assoc]
    exact positive _ (hargs.append hrest)
  · rw [List.length_append] at hfuel
    obtain ⟨fuel, rfl⟩ : ∃ n, fuel = n + 2 := ⟨fuel - 2, by omega⟩
    have hwhole : nameRest (c :: (more ++ (args ++ rest))) = (name.toList, args ++ rest) := by
      rw [hname]
      exact whole _ (hargs.append hfollows.apart)
    rw [List.append_assoc, atom_name hstart hwhole]
    exact read fuel rest (by omega) hfollows

/-- The words that name neither a variable nor a function, but begin an atom. -/
lemma Reads.ofReserved {name : String} {args : List Char}
    (reserved : name ∈ "true" :: "false" :: distributions) (hgap : IsGap gap) (hargs : IsApart args)
    (read : ∀ fuel rest, 12 * args.length ≤ fuel → Follows .atom rest →
      named (fuel + 1) name (args ++ rest) = .ok (tree, rest)) :
    Reads .atom tree (gap ++ (name.toList ++ args)) := by
  have hspec : (∀ x ∈ name.toList, isNameChar x = true) ∧
      ∃ c more, name.toList = c :: more ∧ isNameStart c = true ∧ 'N' ≠ c := by
    simp only [distributions, List.mem_cons, List.not_mem_nil, or_false] at reserved
    rcases reserved with rfl | rfl | rfl | rfl | rfl | rfl | rfl
    all_goals exact ⟨List.all_eq_true.mp rfl, _, _, rfl, rfl, by decide⟩
  obtain ⟨letters, c, more, hname, hstart, hother⟩ := hspec
  refine .ofWord hgap hname hstart (fun rest _ => ?_) (fun rest hrest => ?_) hargs read
  · rw [hname]
    exact keyword?_other (solid_of_nameChar (isNameChar_of_start hstart)) hother _
  · rw [nameRest_letters letters, nameRest_apart hrest, List.append_nil]

lemma reads_truth (b : Bool) (hgap : IsGap gap) :
    Reads .atom (.literal (.bool b)) (gap ++ truth b) := by
  rw [← List.append_nil (truth b)]
  cases b with
  | true =>
    have hmem : "true" ∈ "true" :: "false" :: distributions := by decide
    exact .ofReserved hmem hgap isApart_nil fun _ _ _ _ => rfl
  | false =>
    have hmem : "false" ∈ "true" :: "false" :: distributions := by decide
    exact .ofReserved hmem hgap isApart_nil fun _ _ _ _ => rfl

lemma pmfKind?_distribution {name : String} {kind : PmfKind} (h : pmfKind? name = some kind) :
    name ∈ distributions := by
  unfold pmfKind? at h
  split at h <;> first | decide | cases h

/-- What a name begins. -/
lemma named_name {name : String} (h : IsName name) (fuel : Nat) (cs : List Char) :
    named (fuel + 1) name cs = match symbol? "(" cs with
      | none => .ok (.variable name, cs)
      | some rest =>
        match symbol? ")" rest with
        | some rest => .ok (.call name [], rest)
        | none => do
          let (arguments, rest) ← arguments fuel rest
          return (.call name arguments, rest) := by
  have hpmf : pmfKind? name = none := by
    rw [Option.eq_none_iff_forall_ne_some]
    exact fun kind hkind => h.1 (pmfKind?_distribution hkind)
  have hpdf : name ≠ "DoublePDF" := by
    rintro rfl
    exact h.1 (by decide)
  have hkeyword := h.not_mem_keywords
  simp only [keywords, List.mem_cons, List.not_mem_nil, or_false, not_or] at hkeyword
  obtain ⟨hand, hor, hxor, hnot, htrue, hfalse⟩ := hkeyword
  have hfree : isKeyword name = false := by
    simp [isKeyword, hand, hor, hxor, hnot]
  rw [named, if_neg htrue, if_neg hfalse, hfree, hpmf]
  simp only [if_neg hpdf]
  rfl

/-- A name by itself is a variable, and with what follows in parentheses a call. -/
lemma Reads.ofName {name : String} {args : List Char} (h : IsName name) (hgap : IsGap gap)
    (hargs : IsApart args)
    (read : ∀ fuel rest, 12 * args.length ≤ fuel → Follows .atom rest →
      named (fuel + 1) name (args ++ rest) = .ok (tree, rest)) :
    Reads .atom tree (gap ++ (name.toList ++ args)) := by
  obtain ⟨-, -, c, more, hname, hstart⟩ := h.spec isApart_nil
  exact .ofWord hgap hname hstart (fun rest hrest => h.keyword?_eq_none hrest (by decide))
    (fun rest hrest => (h.spec hrest).1) hargs read

lemma reads_variable {name : String} (h : IsName name) (hgap : IsGap gap) :
    Reads .atom (.variable name) (gap ++ word name) := by
  rw [← List.append_nil (word name)]
  refine .ofName h hgap isApart_nil fun fuel rest _ hfollows => ?_
  rw [List.nil_append, named_name h, hfollows.call]

/-! ### Distributions -/

lemma distribution_free {name : String} (h : name ∈ distributions) :
    name ≠ "true" ∧ name ≠ "false" ∧ isKeyword name = false := by
  revert name
  decide

/-- A probability mass function is read as its samples. -/
lemma reads_pmf {kind : PmfKind} {name : String} {samples : List (Value × Float)}
    {args : List Char} (hkind : pmfKind? name = some kind) (nonempty : samples ≠ [])
    (h : Entries (Sampled kind) samples words) (hgap : IsGap gap)
    (spread : Spread (word "[" :: (words ++ [word "]"])) args) (hargs : IsApart args) :
    Reads .atom (.pmf kind samples) (gap ++ (word name ++ args)) := by
  have hmem := pmfKind?_distribution hkind
  refine .ofReserved (by simp [hmem]) hgap hargs fun fuel rest _ hfollows => ?_
  have hread := bracketed_words (sample_readsBack kind) h nonempty .noSample spread hfollows.apart
  obtain ⟨htrue, hfalse, hkeyword⟩ := distribution_free hmem
  rw [named, if_neg htrue, if_neg hfalse, hkeyword, hkind]
  simp only [hread]
  rfl

/-- A density is read as its intervals. -/
lemma reads_pdf {intervals : List (Float × Float)} {args : List Char} (nonempty : intervals ≠ [])
    (h : Entries Bounded intervals words) (hgap : IsGap gap)
    (spread : Spread (word "[" :: (words ++ [word "]"])) args) (hargs : IsApart args) :
    Reads .atom (.pdf intervals) (gap ++ (word "DoublePDF" ++ args)) := by
  have hmem : "DoublePDF" ∈ distributions := by decide
  refine .ofReserved (by simp [hmem]) hgap hargs fun fuel rest _ hfollows => ?_
  have hread := bracketed_words signedDouble_readsBack h nonempty .noInterval spread hfollows.apart
  have hkind : pmfKind? "DoublePDF" = none := rfl
  obtain ⟨htrue, hfalse, hkeyword⟩ := distribution_free hmem
  rw [named, if_neg htrue, if_neg hfalse, hkeyword, hkind]
  simp only [hread]
  rfl

/-! ## Operands -/

/-- Words are read back at a level, however they are spread. -/
def ReadsWords (level : Level) (tree : Tree) (words : List Word) : Prop :=
  ∀ cs, Spread words cs → Reads level tree cs

/-- Words that are read are at least one. -/
lemma Spread.ne_nil (h : Spread words cs) (begins : Begins level cs) : words ≠ [] := by
  rintro rfl
  cases h
  exact absurd begins.length (lt_irrefl _)

/-- An expression is read up to the word that closes it. -/
lemma ReadsWords.closed {symbol : String} {more : List Word} (h : ReadsWords level tree words)
    (closing : symbol ∈ [")", ",", ":"]) (spread : Spread (words ++ word symbol :: more) cs) :
    ∃ gap after, IsGap gap ∧ Spread more after ∧ after.length < cs.length ∧ Begins .choice cs ∧
      ∀ fuel rest, 12 * cs.length ≤ fuel + 12 → IsApart rest → expression fuel .choice (cs ++ rest) =
        .ok (tree, gap ++ (word symbol ++ (after ++ rest))) := by
  obtain ⟨inner, close, rfl, hinner, hclose, hafter⟩ := spread.append
  have hread : Reads .choice tree inner := (h inner hinner).loosen (Nat.zero_le _)
  have hapart := hafter (.inl (hinner.ne_nil hread.begins))
  obtain ⟨gap, after, rfl, hgap, hmore, -⟩ := hclose.uncons
  have hsymbols : ∀ symbol ∈ [")", ",", ":"], 0 < (word symbol).length := by
    decide
  have hsymbol := hsymbols symbol closing
  simp only [List.length_append]
  refine ⟨gap, after, hgap, hmore, by omega, hread.begins.append _, fun fuel rest hfuel hrest => ?_⟩
  have hfollows : Follows .choice (gap ++ (word symbol ++ (after ++ rest))) := by
    refine follows_closing closing hgap ?_ _
    rw [← List.append_assoc (word symbol), ← List.append_assoc]
    exact hapart.append hrest
  rw [List.append_assoc, List.append_assoc, List.append_assoc, hread.reads fuel _ (by omega) hfollows]

/-- An expression in parentheses is an atom. -/
lemma reads_parentheses (h : ReadsWords level tree words) :
    ReadsWords .atom tree (word "(" :: (words ++ [word ")"])) := by
  intro cs spread
  obtain ⟨gap, cs, rfl, hgap, hspread, -⟩ := spread.uncons
  obtain ⟨gap', after, hgap', hnil, -, -, hread⟩ := h.closed (by decide) hspread
  cases hnil
  refine .ofAtom hgap rfl (by decide) (by decide) (fun _ _ => rfl) fun fuel rest hfuel hfollows => ?_
  change 12 * (cs.length + 1) ≤ fuel + 10 at hfuel
  change atom fuel ('(' :: (cs ++ rest)) = _
  obtain ⟨fuel, rfl⟩ : ∃ n, fuel = n + 1 := ⟨fuel - 1, by omega⟩
  rw [atom, if_pos rfl, hread fuel rest (by omega) hfollows.apart, ok_bind]
  dsimp only
  rw [expect_word hgap' rfl, ok_bind]
  rfl

/-- An operand is read at the level that is required of it. -/
lemma ReadsWords.enclosed (h : ReadsWords level' tree words) (level : Level) :
    ReadsWords level tree (enclosed level level' words) := by
  intro cs spread
  unfold Expression.enclosed at spread
  split_ifs at spread with le
  · exact (h cs spread).loosen le
  · exact (reads_parentheses h cs spread).loosen (rank_le level)

/-! ## Calls -/

/-- Arguments are read up to the closing parenthesis. -/
lemma reads_arguments {args : List (Level × Tree × List Word)} (nonempty : args ≠ [])
    (h : ∀ x ∈ args, ReadsWords x.1 x.2.1 x.2.2)
    (spread : Spread ([word ","].intercalate (args.map (·.2.2)) ++ [word ")"]) cs)
    (hrest : IsApart rest) {fuel : Nat} (hfuel : 12 * cs.length ≤ fuel) :
    arguments fuel (cs ++ rest) = .ok (args.map (·.2.1), rest) ∧
      symbol? ")" (cs ++ rest) = none := by
  induction args generalizing cs fuel with
  | nil => exact absurd rfl nonempty
  | cons x others ih =>
    have hfirst := h x List.mem_cons_self
    cases others with
    | nil =>
      rw [List.map_singleton, List.intercalate_singleton] at spread
      obtain ⟨gap, after, hgap, hnil, -, hbegins, hread⟩ := hfirst.closed (by decide) spread
      cases hnil
      have hlength := hbegins.length
      obtain ⟨fuel, rfl⟩ : ∃ n, fuel = n + 1 := ⟨fuel - 1, by omega⟩
      refine ⟨?_, (hbegins.append _).not_close⟩
      rw [arguments, hread fuel rest (by omega) hrest, ok_bind]
      dsimp only
      rw [symbol?_word hgap rfl]
      rfl
    | cons y others =>
      rw [List.map_cons, List.map_cons, List.intercalate_cons_cons, List.append_assoc,
        List.append_assoc] at spread
      obtain ⟨gap, after, hgap, hmore, hlength, hbegins, hread⟩ := hfirst.closed (by decide) spread
      obtain ⟨fuel, rfl⟩ : ∃ n, fuel = n + 1 := ⟨fuel - 1, by omega⟩
      have henough : 12 * after.length ≤ fuel := by omega
      have hothers := ih (by simp) (fun z hz => h z (List.mem_cons_of_mem _ hz)) hmore henough
      have hcomma : symbol? ")" (gap ++ (word "," ++ (after ++ rest))) = none := by
        rw [symbol?_gap hgap]
        rfl
      refine ⟨?_, (hbegins.append _).not_close⟩
      rw [arguments, hread fuel rest (by omega) hrest, ok_bind]
      dsimp only
      rw [hcomma]
      dsimp only
      rw [expect_word hgap rfl, ok_bind, hothers.1, ok_bind]
      rfl

/-- A call is read with its arguments. -/
lemma reads_call {name : String} {args : List (Level × Tree × List Word)} (hname : IsName name)
    (h : ∀ x ∈ args, ReadsWords x.1 x.2.1 x.2.2) :
    ReadsWords .atom (.call name (args.map (·.2.1)))
      (word name :: word "(" :: ([word ","].intercalate (args.map (·.2.2)) ++ [word ")"])) := by
  intro cs spread
  obtain ⟨gap, cs, rfl, hgap, spread, hapart⟩ := spread.uncons
  refine .ofName hname hgap hapart fun fuel rest hfuel hfollows => ?_
  obtain ⟨gap', cs, rfl, hgap', spread, -⟩ := spread.uncons
  simp only [List.length_append] at hfuel
  rw [named_name hname, List.append_assoc, List.append_assoc, symbol?_word hgap' rfl]
  dsimp only
  cases args with
  | nil =>
    obtain ⟨gap'', rfl, hgap''⟩ := spread.single
    rw [List.append_assoc, symbol?_word hgap'' rfl]
    rfl
  | cons x args =>
    have henough : 12 * cs.length ≤ fuel := by omega
    obtain ⟨hread, hopen⟩ := reads_arguments (by simp) h spread hfollows.apart henough
    rw [hopen, hread]
    rfl

/-! ## Operators -/

/-- A minus sign before a numeral belongs to its number. -/
lemma negated_numeral {n : Numeral} {v : Value} (h : n.Denotes v) :
    negated (.literal v) = .literal (negateNumber v) := by
  cases h <;> rfl

/-- A minus sign before anything but a number is an operator. -/
lemma negated_of_not_number (h : isNumber tree = false) : negated tree = .unary .neg tree := by
  unfold negated
  split <;> first | rfl | cases h

/-- A minus sign is read, and changes a number. -/
lemma reads_minus (h : ReadsWords .sign tree words) :
    ReadsWords .sign (negated tree) (word "-" :: words) := by
  intro cs spread
  obtain ⟨gap, cs, rfl, hgap, hspread, -⟩ := spread.uncons
  have hread := h cs hspread
  refine ⟨⟨gap, '-', cs, rfl, hgap, rfl, by decide, fun lt => absurd lt (lt_irrefl _)⟩, ?_,
    fun chain => absurd chain (by decide), fun _ rest _ => ?_⟩
  · intro fuel rest hfuel hfollows
    have hrank : Level.sign.rank = 8 := rfl
    have hword : (word "-").length = 1 := rfl
    simp only [List.length_append, hrank, hword] at hfuel
    obtain ⟨fuel, rfl⟩ : ∃ n, fuel = n + 1 := ⟨fuel - 1, by omega⟩
    rw [List.append_assoc, List.append_assoc, expression, symbol?_word hgap rfl]
    dsimp only
    rw [hread.reads fuel rest (by omega) hfollows, ok_bind]
    rfl
  · rw [List.append_assoc, keyword?_gap hgap]
    rfl

/-- A negation is read. -/
lemma reads_not (h : ReadsWords .negation tree words) :
    ReadsWords .negation (.unary .not tree) (word "NOT" :: words) := by
  intro cs spread
  obtain ⟨gap, cs, rfl, hgap, hspread, hapart⟩ := spread.uncons
  have hread := h cs hspread
  refine ⟨⟨gap, 'N', _, rfl, hgap, rfl, by decide, fun _ => by decide⟩, ?_,
    fun chain => absurd chain (by decide), fun lt => absurd lt (lt_irrefl _)⟩
  intro fuel rest hfuel hfollows
  have hrank : Level.negation.rank = 3 := rfl
  have hword : (word "NOT").length = 3 := rfl
  simp only [List.length_append, hrank, hword] at hfuel
  obtain ⟨fuel, rfl⟩ : ∃ n, fuel = n + 1 := ⟨fuel - 1, by omega⟩
  have hkeyword : keyword? "NOT" (word "NOT" ++ (cs ++ rest)) = some (cs ++ rest) :=
    keyword?_self (by decide) (hapart.append hfollows.apart)
  rw [List.append_assoc, List.append_assoc, expression, keyword?_gap hgap, hkeyword]
  dsimp only
  rw [hread.reads fuel rest (by omega) hfollows, ok_bind]
  rfl

/-! ### Operators between two operands -/

/-- Two operands that are read, with an operator between them. -/
structure Joined (op : BinaryOp) (left right : Tree) (before gap after : List Char) : Prop where
  first : Reads op.leftLevel left before
  second : Reads op.rightLevel right after
  gap_spec : IsGap gap
  apart : IsApart (gap ++ (word op.symbol ++ after))
  later : IsApart after

namespace Joined

variable {left right : Tree} {before after : List Char}

/-- Behind the left operand stands an operator that binds less. -/
lemma follows (h : Joined op left right before gap after) (hrest : IsApart rest)
    (lt : op.level.rank < level.rank) :
    Follows level (gap ++ (word op.symbol ++ (after ++ rest))) := by
  refine follows_operator op h.gap_spec ?_ lt
  rw [← List.append_assoc (word op.symbol), ← List.append_assoc]
  exact h.apart.append hrest

/-- The operator is found behind the left operand. -/
lemma operator (h : Joined op left right before gap after) (hrest : IsApart rest) :
    operator? op.level (gap ++ (word op.symbol ++ (after ++ rest))) = some (op, after ++ rest) := by
  rw [operator?_gap h.gap_spec, operator?_symbol op (h.later.append hrest)]

lemma length (h : Joined op left right before gap after) :
    0 < before.length ∧
      before.length + after.length < (before ++ (gap ++ (word op.symbol ++ after))).length := by
  have hsymbol : 0 < (word op.symbol).length := by
    cases op <;> decide
  simp only [List.length_append]
  exact ⟨h.first.begins.length, by omega⟩

/-- Operators that group to the left are read one after the other. -/
lemma continues (h : Joined op left right before gap after) (chained : op.level.isChain = true) :
    Continues op.level (.binary op left right) (before ++ (gap ++ (word op.symbol ++ after))) := by
  intro fuel rest hfuel hfollows
  obtain ⟨hfirst, hlength⟩ := h.length
  have htighter := rank_tighter (ne_atom_of_isChain chained)
  have hrank := rank_le op.level
  have hleft := h.first
  have hright := h.second
  rw [BinaryOp.leftLevel, if_pos chained] at hleft
  rw [BinaryOp.rightLevel, if_neg (by rintro rfl; cases chained)] at hright
  obtain ⟨spare, hspare, hread⟩ := hleft.continues chained fuel
    (gap ++ (word op.symbol ++ (after ++ rest))) (by omega) (h.follows hfollows.apart (by omega))
  obtain ⟨spare, rfl⟩ : ∃ n, spare = n + 1 := ⟨spare - 1, by omega⟩
  refine ⟨spare, by omega, ?_⟩
  simp only [List.append_assoc]
  rw [hread, chain, h.operator hfollows.apart]
  dsimp only
  rw [hright.reads spare rest (by omega) hfollows, ok_bind]

/-- A level whose operators do not group to the left reads at most one of them. -/
lemma expression_single (single : op.level.isChain = false) (fuel : Nat) (cs : List Char) :
    expression (fuel + 1) op.level cs = (do
      let (left, rest) ← expression fuel op.leftLevel cs
      match operator? op.level rest with
      | none => return (left, rest)
      | some (op', rest) =>
        let (right, rest) ← expression fuel op.rightLevel rest
        return (.binary op' left right, rest)) := by
  cases op <;> first | (rw [BinaryOp.level, expression]; rfl) | cases single

lemma reads_single (h : Joined op left right before gap after) (single : op.level.isChain = false) :
    ReadsAt op.level (.binary op left right) (before ++ (gap ++ (word op.symbol ++ after))) := by
  intro fuel rest hfuel hfollows
  obtain ⟨hfirst, hlength⟩ := h.length
  have hlevels : op.leftLevel.rank = op.level.rank + 1 ∧ op.level.rank ≤ op.rightLevel.rank := by
    revert single
    cases op <;> decide
  have hrank := rank_le op.leftLevel
  obtain ⟨fuel, rfl⟩ : ∃ n, fuel = n + 1 := ⟨fuel - 1, by omega⟩
  simp only [List.append_assoc]
  rw [expression_single single, h.first.reads fuel _ (by omega) (h.follows hfollows.apart (by omega)),
    ok_bind]
  dsimp only
  rw [h.operator hfollows.apart]
  dsimp only
  rw [h.second.reads fuel rest (by omega) (hfollows.mono hlevels.2), ok_bind]
  rfl

/-- An operator is read with its operands. -/
lemma reads (h : Joined op left right before gap after) :
    Reads op.level (.binary op left right) (before ++ (gap ++ (word op.symbol ++ after))) := by
  have hlevel : op.level ≠ .atom ∧ op.level.rank ≤ op.leftLevel.rank := by
    cases op <;> decide
  obtain ⟨hfirst, hlength⟩ := h.length
  refine ⟨(h.first.begins.mono hlevel.2).append _, ?_, h.continues, fun lt rest hrest => ?_⟩
  · cases hchain : op.level.isChain with
    | true => exact (h.continues hchain).reads hlevel.1 (by omega)
    | false => exact h.reads_single hchain
  · rw [List.append_assoc]
    exact h.first.positive (lt.trans_le hlevel.2) _ (h.apart.append hrest)

end Joined

/-- An operator is read with its operands, however they are spread. -/
lemma reads_binary {left right : Tree} {words' : List Word} (h : ReadsWords op.leftLevel left words)
    (h' : ReadsWords op.rightLevel right words') :
    ReadsWords op.level (.binary op left right) (words ++ word op.symbol :: words') := by
  intro cs spread
  obtain ⟨before, more, rfl, hbefore, hmore, hapart⟩ := spread.append
  have hfirst := h before hbefore
  have hapart := hapart (.inl (hbefore.ne_nil hfirst.begins))
  obtain ⟨gap, after, rfl, hgap, hafter, hlater⟩ := hmore.uncons
  exact Joined.reads ⟨hfirst, h' after hafter, hgap, hapart, hlater⟩

/-- A conditional is read with its branches. -/
lemma reads_conditional {condition yes no : Tree} {level₂ level₃ : Level}
    {words₁ words₂ words₃ : List Word} (h₁ : ReadsWords .disjunction condition words₁)
    (h₂ : ReadsWords level₂ yes words₂) (h₃ : ReadsWords level₃ no words₃) :
    ReadsWords .choice (.conditional condition yes no)
      (words₁ ++ word "?" :: (words₂ ++ word ":" :: words₃)) := by
  intro cs spread
  obtain ⟨before, more, rfl, hbefore, hmore, hapart⟩ := spread.append
  have hcondition := h₁ before hbefore
  have hapart := hapart (.inl (hbefore.ne_nil hcondition.begins))
  obtain ⟨gap, branches, rfl, hgap, hbranches, -⟩ := hmore.uncons
  obtain ⟨gap', after, hgap', hafter, hlength, -, hyes⟩ := h₂.closed (by decide) hbranches
  have hno : Reads .choice no after := (h₃ after hafter).loosen (Nat.zero_le _)
  refine ⟨(hcondition.begins.mono (Nat.zero_le _)).append _, ?_,
    fun chain => absurd chain (by decide), fun lt => absurd lt (by decide)⟩
  intro fuel rest hfuel hfollows
  have hfirst := hcondition.begins.length
  have hword : (word "?").length = 1 := rfl
  have hchoice : Level.choice.rank = 0 := rfl
  have hdisjunction : Level.disjunction.rank = 1 := rfl
  simp only [List.length_append, hword, hchoice] at hfuel
  obtain ⟨fuel, rfl⟩ : ∃ n, fuel = n + 1 := ⟨fuel - 1, by omega⟩
  have hquestion : Follows .disjunction (gap ++ (word "?" ++ (branches ++ rest))) := by
    refine follows_question hgap ?_ (by decide)
    rw [← List.append_assoc (word "?"), ← List.append_assoc]
    exact hapart.append hfollows.apart
  simp only [List.append_assoc]
  rw [expression, hcondition.reads fuel _ (by omega) hquestion, ok_bind]
  dsimp only
  rw [symbol?_word hgap rfl]
  dsimp only
  rw [hyes fuel rest (by omega) hfollows.apart, ok_bind]
  dsimp only
  rw [expect_word hgap' rfl, ok_bind, hno.reads fuel rest (by omega) hfollows, ok_bind]
  rfl

/-! ## Whole expressions -/

/-- A number is written at the level of atoms. -/
lemma readsWords_number {n : Numeral} {v : Value} (hwhole : n.whole ≠ []) (h : n.Denotes v) :
    ReadsWords .atom (.literal v) [n.text] := by
  intro cs spread
  obtain ⟨gap, rfl, hgap⟩ := spread.single
  exact reads_number hwhole h hgap

/-- **An expression is read back** at the level at which it is written, however its words are
spread. -/
theorem Written.readsWords (h : Written level tree words) : ReadsWords level tree words := by
  induction h with
  | number hwhole hdenotes => exact readsWords_number hwhole hdenotes
  | @negative n v hwhole hdenotes =>
    rw [← negated_numeral hdenotes]
    exact reads_minus fun cs spread =>
      (readsWords_number hwhole hdenotes cs spread).loosen (rank_le _)
  | truth b =>
    intro cs spread
    obtain ⟨gap, rfl, hgap⟩ := spread.single
    exact reads_truth b hgap
  | enum hquote =>
    intro cs spread
    obtain ⟨gap, rfl, hgap⟩ := spread.single
    exact reads_enum hquote hgap
  | «variable» hname =>
    intro cs spread
    obtain ⟨gap, rfl, hgap⟩ := spread.single
    exact reads_variable hname hgap
  | call arguments hname _ ih => exact reads_call hname ih
  | pmf hkind nonempty hentries =>
    intro cs spread
    obtain ⟨gap, cs, rfl, hgap, hspread, hapart⟩ := spread.uncons
    exact reads_pmf hkind nonempty hentries hgap hspread hapart
  | pdf nonempty hentries =>
    intro cs spread
    obtain ⟨gap, cs, rfl, hgap, hspread, hapart⟩ := spread.uncons
    exact reads_pdf nonempty hentries hgap hspread hapart
  | minus _ hnumber ih =>
    rw [← negated_of_not_number hnumber]
    exact reads_minus (ih.enclosed .sign)
  | not _ ih => exact reads_not (ih.enclosed .negation)
  | binary _ _ ih ih' => exact reads_binary (ih.enclosed _) (ih'.enclosed _)
  | conditional _ _ _ ih₁ ih₂ ih₃ => exact reads_conditional (ih₁.enclosed _) ih₂ ih₃

/-- Text of the words of an expression is read as this expression. -/
theorem Written.parse_text {text : String} (h : Written level tree words)
    (htext : IsTextOf words text) : parse text = .ok tree := by
  obtain ⟨cs, gap, hspread, hgap, htext⟩ := htext
  have hread : Reads .choice tree cs := (h.readsWords cs hspread).loosen (Nat.zero_le _)
  have hrank : Level.choice.rank = 0 := rfl
  have henough : 12 * cs.length ≤ enough (cs ++ gap) + Level.choice.rank := by
    rw [enough, List.length_append]
    omega
  have hwhole : whole text.toList = .ok tree := by
    rw [htext, whole, if_neg (hread.begins.append gap).skip,
      hread.reads _ gap henough (hgap.follows _), ok_bind]
    exact if_pos (skip_eq_nil hgap)
  rw [parse, hwhole]

/-- The words of an expression are those of no other. -/
theorem Written.unambiguous {tree' : Tree} (h : Written level tree words)
    (h' : Written level' tree' words) : tree = tree' := by
  obtain ⟨text, htext⟩ := exists_text words
  have hread := h.parse_text htext
  rw [h'.parse_text htext] at hread
  injection hread with hread
  exact hread.symm

/-- **An expression is read back from every text of it**, and it has one. -/
theorem parse_written (h : Expressible tree) :
    (∃ level words text, Written level tree words ∧ IsTextOf words text) ∧
      ∀ level words text, Written level tree words → IsTextOf words text →
        parse text = .ok tree := by
  refine ⟨?_, fun level words text hwritten htext => hwritten.parse_text htext⟩
  obtain ⟨level, words, hwritten⟩ := h.exists_written
  obtain ⟨text, htext⟩ := exists_text words
  exact ⟨level, words, text, hwritten, htext⟩

/-- Operators of all kinds, with white space of all kinds. -/
theorem parse_written_nested :
    parse " NOT a.x -\t- 3 <\nmax ( b , \"x y\" )\r\n? BoolPMF [ ( true ; 1 ) ] : - ( b - ( b - b ) ) ^ b" =
      .ok (.conditional
        (.unary .not (.binary .lt (.binary .sub (.variable "a.x") (.literal (.int (-3))))
          (.call "max" [.variable "b", .literal (.enum "x y")])))
        (.pmf .bool [(.bool true, doubleOf (.int 1))])
        (.binary .pow (.unary .neg (.binary .sub (.variable "b")
          (.binary .sub (.variable "b") (.variable "b")))) (.variable "b"))) := by
  have ha : IsName "a.x" := ⟨by decide, ['a'], [['x']], ⟨'a', [], rfl, rfl, by simp⟩,
    by simpa using ⟨'x', [], rfl, rfl, by simp⟩, rfl, by decide⟩
  have hmax : IsName "max" := ⟨by decide, ['m', 'a', 'x'], [],
    ⟨'m', ['a', 'x'], rfl, rfl, List.all_eq_true.mp rfl⟩, by simp, rfl, by decide⟩
  have hb : IsName "b" :=
    ⟨by decide, ['b'], [], ⟨'b', [], rfl, rfl, by simp⟩, by simp, rfl, by decide⟩
  have hx : '"' ∉ "x y".toList := by decide
  have hone : (Numeral.ofNat 1).Denotes (.int 1) := .int ⟨rfl, rfl⟩ (by decide)
  have hthree : (Numeral.ofNat 3).Denotes (.int 3) := .int ⟨rfl, rfl⟩ (by decide)
  have hgaps : ∀ p ∈ [(" ", "NOT"), (" ", "a.x"), (" ", "-"), ("\t", "-"), (" ", "3"), (" ", "<"),
      ("\n", "max"), (" ", "("), (" ", "b"), (" ", ","), (" ", "\"x y\""), (" ", ")"), ("\r\n", "?"),
      (" ", "BoolPMF"), (" ", "["), (" ", "("), (" ", "true"), (" ", ";"), (" ", "1"), (" ", ")"),
      (" ", "]"), (" ", ":"), (" ", "-"), (" ", "("), (" ", "b"), (" ", "-"), (" ", "("), (" ", "b"),
      (" ", "-"), (" ", "b"), (" ", ")"), (" ", ")"), (" ", "^"), (" ", "b")].map
        fun p : String × String => (p.1.toList, p.2.toList), IsGap p.1 ∧ p.1 ≠ [] := by
    simp [IsGap, isBlank]
  refine (parse_written ?_).2 .choice _ _ (.conditional (.not (.binary
    (.binary (.variable ha) (.negative (Numeral.ofNat_ne_nil 3) hthree))
    (.call [(_, _, _), (_, _, _)] hmax (List.forall_mem_cons.mpr ⟨.variable hb,
      List.forall_mem_singleton.mpr (.enum hx)⟩))))
    (.pmf rfl (List.cons_ne_nil _ _) (.cons (.bool true) (.plain hone) .nil))
    (.binary (.minus (.binary (.variable hb) (.binary (.variable hb) (.variable hb))) rfl)
      (.variable hb))) ⟨_, [], spread_gaps hgaps, by simp [IsGap], rfl⟩
  exact .conditional (.not (.binary .lt (.binary .sub (.variable ha) (.int (by decide)))
      (.call hmax (List.forall_mem_cons.mpr ⟨.variable hb,
        List.forall_mem_singleton.mpr (.enum hx)⟩))))
    (.pmf (List.cons_ne_nil _ _) (List.forall_mem_singleton.mpr ⟨trivial, _, _, .plain hone, rfl⟩))
    (.binary .pow (.minus (.binary .sub (.variable hb) (.binary .sub (.variable hb) (.variable hb)))
      rfl) (.variable hb))

end ServiceSim.Expression
