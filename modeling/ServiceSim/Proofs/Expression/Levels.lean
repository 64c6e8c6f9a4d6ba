import ServiceSim.Proofs.Expression.Words

/-!
# Reading at a level of precedence

The reader of a level takes an expression that is written at this level, or at a tighter one, and
leaves what follows (`Reads`).  It stops there because nothing of what follows goes on at the level:
behind an operand stands the operator that it belongs to, which binds less, or something that closes
(`Follows`).  Operators that group to the left need more, for a reader that has the left operand goes
on with the next operator; `Continues` says that after a whole expression the reader stands where it
would stand after a single operand.

`Reads.loosen` is the descent: what is read at a level is read at every level that binds less.
-/

namespace ServiceSim.Expression

open Level

variable {level level' : Level} {cs rest gap : List Char} {words : List Word} {tree : Tree}
  {op : BinaryOp}

/-! ## Levels -/

lemma Level.rank_injective (h : level.rank = level'.rank) : level = level' := by
  cases level <;> cases level' <;> first | rfl | cases h

lemma Level.rank_tighter (h : level ≠ .atom) : level.tighter.rank = level.rank + 1 := by
  cases level <;> first | rfl | exact absurd rfl h

lemma Level.rank_le (level : Level) : level.rank ≤ 9 := by
  cases level <;> decide

lemma Level.ne_atom_of_isChain (h : level.isChain = true) : level ≠ .atom := by
  rintro rfl
  cases h

/-! ## Operators in front -/

lemma operator?_gap (h : IsGap gap) (level : Level) (cs : List Char) :
    operator? level (gap ++ cs) = operator? level cs := by
  cases level <;> simp only [operator?, firstOf, symbol?_gap h, keyword?_gap h]

/-- The operator that stands in front, when white space follows. -/
lemma operator?_symbol (op : BinaryOp) (h : IsApart rest) :
    operator? op.level (word op.symbol ++ rest) = some (op, rest) := by
  have hword : ∀ keyword ∈ keywords, keyword? keyword (word keyword ++ rest) = some rest :=
    fun keyword hkeyword => keyword?_self hkeyword h
  cases op with
  | and => simp only [BinaryOp.level, BinaryOp.symbol, operator?, firstOf, hword "AND" (by decide)]
  | or => simp only [BinaryOp.level, BinaryOp.symbol, operator?, firstOf, hword "OR" (by decide)]
  | xor =>
    have hother : keyword? "OR" (word "XOR" ++ rest) = none := rfl
    simp only [BinaryOp.level, BinaryOp.symbol, operator?, firstOf, hother, hword "XOR" (by decide)]
  | lt | gt =>
    -- a longer symbol that begins so would go on without white space
    cases rest with
    | nil => rfl
    | cons c rest =>
      have hblank := h.head
      simp only [isBlank, Bool.or_eq_true, beq_iff_eq] at hblank
      rcases hblank with (((rfl | rfl) | rfl) | rfl) | rfl <;> rfl
  | _ => rfl

/-- An operator is none of another level. -/
lemma operator?_other (op : BinaryOp) (h : level ≠ op.level) (rest : List Char) :
    operator? level (word op.symbol ++ rest) = none := by
  cases op <;> cases level <;> first | rfl | exact absurd rfl h

/-! ## What follows an expression -/

/-- What may follow an expression of a level: nothing that goes on at this level or at a tighter
one. -/
structure Follows (level : Level) (rest : List Char) : Prop where
  apart : IsApart rest
  operator : ∀ level', level.rank ≤ level'.rank → operator? level' rest = none
  question : level = .choice → symbol? "?" rest = none
  call : symbol? "(" rest = none

lemma Follows.mono (h : Follows level rest) (le : level.rank ≤ level'.rank) :
    Follows level' rest := by
  refine ⟨h.apart, fun level'' le' => h.operator level'' (le.trans le'), ?_, h.call⟩
  rintro rfl
  exact h.question (rank_injective (Nat.le_zero.mp le))

/-- Nothing goes on in white space. -/
lemma IsGap.follows (h : IsGap gap) (level : Level) : Follows level gap := by
  have hempty : ∀ symbol, symbol? symbol gap = symbol? symbol [] := fun symbol => by
    rw [← symbol?_gap h symbol [], List.append_nil]
  refine ⟨h.apart, fun level' _ => ?_, fun _ => ?_, ?_⟩
  · rw [← List.append_nil gap, operator?_gap h]
    cases level' <;> rfl
  · rw [hempty]
    rfl
  · rw [hempty]
    rfl

lemma follows_word {symbol : String} (hgap : IsGap gap)
    (apart : IsApart (gap ++ (word symbol ++ rest)))
    (operator : ∀ level', level.rank ≤ level'.rank → operator? level' (word symbol ++ rest) = none)
    (question : level = .choice → symbol? "?" (word symbol ++ rest) = none)
    (call : symbol? "(" (word symbol ++ rest) = none) :
    Follows level (gap ++ (word symbol ++ rest)) := by
  refine ⟨apart, fun level' le => ?_, fun choice => ?_, ?_⟩
  · rw [operator?_gap hgap]
    exact operator level' le
  · rw [symbol?_gap hgap]
    exact question choice
  · rw [symbol?_gap hgap]
    exact call

/-- An expression may be followed by what closes it, whatever its level. -/
lemma follows_closing {symbol : String} (closing : symbol ∈ [")", ",", ":"]) (hgap : IsGap gap)
    (apart : IsApart (gap ++ (word symbol ++ rest))) (level : Level) :
    Follows level (gap ++ (word symbol ++ rest)) := by
  simp only [List.mem_cons, List.not_mem_nil, or_false] at closing
  rcases closing with rfl | rfl | rfl
  all_goals
    refine follows_word hgap apart (fun level' _ => ?_) (fun _ => rfl) rfl
    cases level' <;> rfl

/-- An operand may be followed by a question mark, if it is not a conditional itself. -/
lemma follows_question (hgap : IsGap gap) (apart : IsApart (gap ++ (word "?" ++ rest)))
    (h : level ≠ .choice) : Follows level (gap ++ (word "?" ++ rest)) := by
  refine follows_word hgap apart (fun level' _ => ?_) (fun choice => absurd choice h) rfl
  cases level' <;> rfl

/-- An operand may be followed by an operator that binds less. -/
lemma follows_operator (op : BinaryOp) (hgap : IsGap gap)
    (apart : IsApart (gap ++ (word op.symbol ++ rest))) (h : op.level.rank < level.rank) :
    Follows level (gap ++ (word op.symbol ++ rest)) := by
  refine follows_word hgap apart (fun level' le => ?_) (fun choice => ?_) ?_
  · refine operator?_other op ?_ rest
    rintro rfl
    omega
  · rw [choice] at h
    exact absurd h (Nat.not_lt_zero _)
  · cases op <;> rfl

/-! ## Reading at a level -/

/-- The reader of a level takes an expression, with as much fuel as its characters need. -/
def ReadsAt (level : Level) (tree : Tree) (cs : List Char) : Prop :=
  ∀ fuel rest, 12 * cs.length ≤ fuel + level.rank → Follows level rest →
    expression fuel level (cs ++ rest) = .ok (tree, rest)

/-- The reader of a level takes an expression and goes on with operators of the level. -/
def Continues (level : Level) (tree : Tree) (cs : List Char) : Prop :=
  ∀ fuel rest, 12 * cs.length ≤ fuel + level.rank → Follows level.tighter rest →
    ∃ left, fuel ≤ left + cs.length ∧
      expression fuel level (cs ++ rest) = chain left level level.tighter tree rest

/-- How an expression begins: not with what closes, and with a minus sign only at the level of signs
or below. -/
def Begins (level : Level) (cs : List Char) : Prop :=
  ∃ gap c more, cs = gap ++ (c :: more) ∧ IsGap gap ∧ isBlank c = false ∧ c ≠ ')' ∧
    (Level.sign.rank < level.rank → c ≠ '-')

/-- **An expression is read back at a level.** -/
structure Reads (level : Level) (tree : Tree) (cs : List Char) : Prop where
  begins : Begins level cs
  reads : ReadsAt level tree cs
  continues : level.isChain = true → Continues level tree cs
  positive : Level.negation.rank < level.rank → ∀ rest, IsApart rest →
    keyword? "NOT" (cs ++ rest) = none

lemma Begins.append (h : Begins level cs) (more : List Char) : Begins level (cs ++ more) := by
  obtain ⟨gap, c, more', rfl, hspec⟩ := h
  exact ⟨gap, c, more' ++ more, by simp, hspec⟩

lemma Begins.mono (h : Begins level cs) (le : level'.rank ≤ level.rank) : Begins level' cs := by
  obtain ⟨gap, c, more, rfl, hgap, hsolid, hclose, hminus⟩ := h
  exact ⟨gap, c, more, rfl, hgap, hsolid, hclose, fun lt => hminus (lt.trans_le le)⟩

lemma Begins.skip (h : Begins level cs) : skip cs ≠ [] := by
  obtain ⟨gap, c, more, rfl, hgap, hsolid, -, -⟩ := h
  rw [skip_gap hgap, skip_solid hsolid]
  exact List.cons_ne_nil _ _

lemma Begins.length (h : Begins level cs) : 0 < cs.length := by
  obtain ⟨gap, c, more, rfl, -⟩ := h
  rw [List.length_append, List.length_cons]
  omega

lemma symbol?_begins {symbol : String} {c d : Char} {more word' : List Char}
    (hgap : IsGap gap) (solid : isBlank c = false) (hsymbol : symbol.toList = d :: word')
    (h : c ≠ d) : symbol? symbol (gap ++ (c :: more)) = none := by
  rw [symbol?_gap hgap, symbol?, skip_solid solid, hsymbol]
  exact if_neg h.symm

lemma Begins.not_close (h : Begins level cs) : symbol? ")" cs = none := by
  obtain ⟨gap, c, more, rfl, hgap, hsolid, hclose, -⟩ := h
  exact symbol?_begins hgap hsolid rfl hclose

lemma Begins.not_minus (h : Begins level cs) (lt : Level.sign.rank < level.rank) :
    symbol? "-" cs = none := by
  obtain ⟨gap, c, more, rfl, hgap, hsolid, -, hminus⟩ := h
  exact symbol?_begins hgap hsolid rfl (hminus lt)

/-! ### Looser levels -/

lemma expression_chain (h : level.isChain = true) (fuel : Nat) (cs : List Char) :
    expression (fuel + 1) level cs = (do
      let (left, rest) ← expression fuel level.tighter cs
      chain fuel level level.tighter left rest) := by
  cases level <;> first | (rw [expression]; rfl) | cases h

/-- When no operator of the level follows, the chain ends. -/
lemma chain_ends {operand : Level} {fuel : Nat} (hfuel : 0 < fuel)
    (h : operator? level rest = none) :
    chain fuel level operand tree rest = .ok (tree, rest) := by
  obtain ⟨fuel, rfl⟩ := Nat.exists_eq_succ_of_ne_zero (Nat.ne_of_gt hfuel)
  rw [chain, h]

/-- A chain is read to its end. -/
lemma Continues.reads (h : Continues level tree cs) (hlevel : level ≠ .atom)
    (length : 0 < cs.length) : ReadsAt level tree cs := by
  intro fuel rest hfuel hfollows
  have htighter := rank_tighter hlevel
  have hrank := rank_le level
  obtain ⟨left, hleft, hread⟩ := h fuel rest hfuel (hfollows.mono (by omega))
  rw [hread, chain_ends (by omega) (hfollows.operator level (le_refl _))]

/-- What is read at a level is read at the one before. -/
lemma Reads.lower (h : Reads level.tighter tree cs) (hlevel : level ≠ .atom) :
    Reads level tree cs := by
  have htighter := rank_tighter hlevel
  have hrank := rank_le level
  have hlength := h.begins.length
  have hcontinues : level.isChain = true → Continues level tree cs := by
    intro hchain fuel rest hfuel hfollows
    obtain ⟨fuel, rfl⟩ : ∃ n, fuel = n + 1 := ⟨fuel - 1, by omega⟩
    refine ⟨fuel, by omega, ?_⟩
    rw [expression_chain hchain, h.reads fuel rest (by omega) hfollows, ok_bind]
  have hbegins : Begins level cs := h.begins.mono (by omega)
  refine ⟨hbegins, ?_, hcontinues, fun lt => h.positive (by omega)⟩
  by_cases hchain : level.isChain = true
  · exact (hcontinues hchain).reads hlevel hlength
  · intro fuel rest hfuel hfollows
    obtain ⟨fuel, rfl⟩ : ∃ n, fuel = n + 1 := ⟨fuel - 1, by omega⟩
    have hread := h.reads fuel rest (by omega) (hfollows.mono (by omega))
    cases level with
    | choice =>
      rw [Level.tighter] at hread
      rw [expression, hread, ok_bind]
      dsimp only
      rw [hfollows.question rfl]
      rfl
    | negation =>
      rw [expression, h.positive (by decide) rest hfollows.apart]
      exact hread
    | comparison =>
      rw [Level.tighter] at hread
      rw [expression, hread, ok_bind]
      dsimp only
      rw [hfollows.operator _ (le_refl _)]
      rfl
    | power =>
      rw [Level.tighter] at hread
      rw [expression, hread, ok_bind]
      dsimp only
      rw [hfollows.operator _ (le_refl _)]
      rfl
    | sign =>
      rw [expression, (h.begins.append rest).not_minus (by decide)]
      exact hread
    | atom => exact absurd rfl hlevel
    | _ => exact absurd rfl hchain

/-- What is read at a level is read at every looser one. -/
lemma Reads.loosen (h : Reads level' tree cs) (le : level.rank ≤ level'.rank) :
    Reads level tree cs := by
  induction hn : level'.rank - level.rank generalizing level with
  | zero =>
    have heq : level = level' := rank_injective (by omega)
    exact heq ▸ h
  | succ n ih =>
    have hlevel : level ≠ .atom := by
      rintro rfl
      have := rank_le level'
      have hatom : Level.atom.rank = 9 := rfl
      omega
    have htighter := rank_tighter hlevel
    exact (ih (by omega) (by omega)).lower hlevel

end ServiceSim.Expression
