import ServiceSim.Proofs.Expression.Alignment

/-!
# Reading by index is safe

The grammar is read alike by index and by characters (`Aligned`).  Between two bytes that are taken
lie at most twelve calls, so a bound on the calls that grows with the text is not reached: every text
is read to an expression or to a fault.  No slice is cut on the way, since a slice that is cut would
end the reading with no fault at all, and a fault is found between characters or at the end.

`parse_safe` puts this together with the progress of the readers.
-/

namespace ServiceSim.Expression.Cursor

variable {text cs rest : List Char} {i : Nat} {fuel fuel' : Nat} {level : Level}
  {tree left : Tree}

/-! ## What is left -/

lemma length_expression (h : Expression.expression fuel level cs = .ok (tree, rest)) :
    rest.length < cs.length := by
  have hgap : IsGap [] := by simp [IsGap]
  rw [← List.append_nil cs] at h
  obtain ⟨rest', hrest, htakes, -⟩ := (settled fuel).expression hgap h
  rw [hrest, List.append_nil]
  exact htakes.length

lemma length_expect {symbol : String} (solid : IsSolid symbol)
    (h : Expression.expect symbol cs = .ok rest) : rest.length < cs.length := by
  have hgap : IsGap [] := by simp [IsGap]
  rw [← List.append_nil cs] at h
  obtain ⟨rest', hrest, htakes, -⟩ := expect_early solid hgap h
  rw [hrest, List.append_nil]
  exact htakes.length

/-! ## The grammar -/

/-- With a bound on their calls the readers by index agree with those by characters, if both bounds
are large enough for what is left. -/
structure Aligned (text : List Char) (fuel : Nat) : Prop where
  expression : ∀ {fuel' level i cs}, IsNear text i cs →
    12 * cs.length + 11 ≤ fuel + level.rank → 12 * cs.length + 11 ≤ fuel' + level.rank →
    Agrees text (Paired (IsNear text)) (expression (encode text) fuel level i)
      (Expression.expression fuel' level cs)
  chain : ∀ {fuel' level left i cs}, level.isChain = true → IsNear text i cs →
    12 * cs.length + 1 ≤ fuel → 12 * cs.length + 1 ≤ fuel' →
    Agrees text (Paired (IsNear text)) (chain (encode text) fuel level level.tighter left i)
      (Expression.chain fuel' level level.tighter left cs)
  atom : ∀ {fuel' i cs}, IsAt text i cs →
    12 * cs.length + 1 ≤ fuel → 12 * cs.length + 1 ≤ fuel' →
    Agrees text (Paired (IsNear text)) (atom (encode text) fuel i) (Expression.atom fuel' cs)
  named : ∀ {fuel' name i cs}, IsAt text i cs →
    12 * cs.length + 12 ≤ fuel → 12 * cs.length + 12 ≤ fuel' →
    Agrees text (Paired (IsNear text)) (named (encode text) fuel name i)
      (Expression.named fuel' name cs)
  arguments : ∀ {fuel' i cs}, IsNear text i cs →
    12 * cs.length + 12 ≤ fuel → 12 * cs.length + 12 ≤ fuel' →
    Agrees text (Paired (IsNear text)) (arguments (encode text) fuel i)
      (Expression.arguments fuel' cs)

namespace Aligned

lemma choice (h : Aligned text fuel) (hnear : IsNear text i cs)
    (hfuel : 12 * cs.length + 11 ≤ fuel + 1) (hfuel' : 12 * cs.length + 11 ≤ fuel' + 1) :
    Agrees text (Paired (IsNear text)) (Cursor.expression (encode text) (fuel + 1) .choice i)
      (Expression.expression (fuel' + 1) .choice cs) := by
  have hrank : Level.rank .choice = 0 := rfl
  have hrank' : Level.rank .disjunction = 1 := rfl
  rw [Cursor.expression, Expression.expression]
  refine (h.expression hnear (by omega) (by omega)).bind ?_
  rintro ⟨condition, i₁⟩ ⟨condition', cs₁⟩ hcondition ⟨heq, hnear₁⟩
  have hlength₁ := length_expression hcondition
  dsimp only at heq hnear₁ ⊢
  subst heq
  refine (eat_tells (by decide)).bind hnear₁ (fun i₂ cs₂ hread hat₂ => ?_) fun i₂ hread hat₂ => ?_
  · have hlength₂ := (symbol?_takes (by decide) hread).length
    rw [hread]
    refine (h.expression hat₂.near (by omega) (by omega)).bind ?_
    rintro ⟨yes, i₃⟩ ⟨yes', cs₃⟩ hyes ⟨hyes', hnear₃⟩
    have hlength₃ := length_expression hyes
    refine (expect_agrees (by decide) hnear₃).bind fun i₄ cs₄ hcolon hat₄ => ?_
    have hlength₄ := length_expect (by decide) hcolon
    dsimp only at hlength₃ hlength₄
    refine (h.expression hat₄.near (by omega) (by omega)).bind ?_
    rintro ⟨no, i₅⟩ ⟨no', cs₅⟩ _ ⟨hno, hnear₅⟩
    dsimp only at hyes' hno
    exact .ok ⟨by rw [hyes', hno], hnear₅⟩
  · rw [hread]
    exact .ok ⟨rfl, hat₂.near_skip⟩

lemma chained (h : Aligned text fuel) (hlevel : level.isChain = true) (hnear : IsNear text i cs)
    (hfuel : 12 * cs.length + 11 ≤ fuel + 1 + level.rank)
    (hfuel' : 12 * cs.length + 11 ≤ fuel' + 1 + level.rank) :
    Agrees text (Paired (IsNear text)) (Cursor.expression (encode text) (fuel + 1) level i)
      (Expression.expression (fuel' + 1) level cs) := by
  have hrank := level.rank_le
  have htighter := Level.rank_tighter (Level.ne_atom_of_isChain hlevel)
  rw [GoesOn.expression_chain hlevel, Expression.expression_chain hlevel]
  refine (h.expression hnear (by omega) (by omega)).bind ?_
  rintro ⟨left, j⟩ ⟨left', cs₁⟩ hleft ⟨heq, hnear₁⟩
  have hlength := length_expression hleft
  dsimp only at heq hnear₁ ⊢
  subst heq
  exact h.chain hlevel hnear₁ (by omega) (by omega)

/-- Levels with at most one operator between two operands. -/
lemma single (right : Level) (h : Aligned text fuel) (hlevel : level ≠ .atom)
    (hnear : IsNear text i cs) (hfuel : 12 * cs.length + 11 ≤ fuel + 1 + level.rank)
    (hfuel' : 12 * cs.length + 11 ≤ fuel' + 1 + level.rank) :
    Agrees text (Paired (IsNear text))
      (do
        let (left, i) ← Cursor.expression (encode text) fuel level.tighter i
        let (op, i) ← operator (encode text) level i
        match op with
        | none => return (left, i)
        | some op =>
          let (right, i) ← Cursor.expression (encode text) fuel right i
          return (Tree.binary op left right, i))
      (do
        let (left, rest) ← Expression.expression fuel' level.tighter cs
        match operator? level rest with
        | none => return (left, rest)
        | some (op, rest) =>
          let (right, rest) ← Expression.expression fuel' right rest
          return (Tree.binary op left right, rest)) := by
  have hrank := level.rank_le
  have htighter := Level.rank_tighter hlevel
  refine (h.expression hnear (by omega) (by omega)).bind ?_
  rintro ⟨left, i₁⟩ ⟨left', cs₁⟩ hleft ⟨heq, hnear₁⟩
  have hlength₁ := length_expression hleft
  dsimp only at heq hnear₁ ⊢
  subst heq
  refine operator_bind hnear₁ (fun op i₂ cs₂ hread hat₂ => ?_) fun i₂ hread hnear₂ => ?_
  · have hlength₂ := (operator?_takes hread).length
    rw [hread]
    refine (h.expression hat₂.near (by omega) (by omega)).bind ?_
    rintro ⟨operand, i₃⟩ ⟨operand', cs₃⟩ _ ⟨heq, hnear₃⟩
    exact .ok ⟨congrArg (Tree.binary op left) heq, hnear₃⟩
  · rw [hread]
    exact .ok ⟨rfl, hnear₂⟩

lemma succ_chain (h : Aligned text fuel) (hlevel : level.isChain = true) (hnear : IsNear text i cs)
    (hfuel : 12 * cs.length + 1 ≤ fuel + 1) (hfuel' : 12 * cs.length + 1 ≤ fuel') :
    Agrees text (Paired (IsNear text))
      (Cursor.chain (encode text) (fuel + 1) level level.tighter left i)
      (Expression.chain fuel' level level.tighter left cs) := by
  obtain ⟨fuel', rfl⟩ : ∃ n, fuel' = n + 1 := ⟨fuel' - 1, by omega⟩
  rw [Cursor.chain, Expression.chain]
  refine operator_bind hnear (fun op i₁ cs₁ hread hat₁ => ?_) fun i₁ hread hnear₁ => ?_
  · have hlength₁ := (operator?_takes hread).length
    rw [hread]
    refine (h.expression hat₁.near (by omega) (by omega)).bind ?_
    rintro ⟨right, i₂⟩ ⟨right', cs₂⟩ hright ⟨heq, hnear₂⟩
    have hlength₂ := length_expression hright
    dsimp only at heq hnear₂ ⊢
    subst heq
    exact h.chain hlevel hnear₂ (by omega) (by omega)
  · rw [hread]
    exact .ok ⟨rfl, hnear₁⟩

/-- Levels with at most one operator in front of an operand of the level. -/
lemma marked (build : Tree → Tree) {take : Nat → Except Halt (Bool × Nat)}
    {mark? : List Char → Option (List Char)} (h : Aligned text fuel) (hlevel : level ≠ .atom)
    (htells : Tells text take mark?)
    (htakes : ∀ {rest}, mark? cs = some rest → rest.length < cs.length) (hnear : IsNear text i cs)
    (hfuel : 12 * cs.length + 11 ≤ fuel + 1 + level.rank)
    (hfuel' : 12 * cs.length + 11 ≤ fuel' + 1 + level.rank) :
    Agrees text (Paired (IsNear text))
      (do
        let (found, i) ← take i
        if found then
          let (operand, i) ← Cursor.expression (encode text) fuel level i
          return (build operand, i)
        else Cursor.expression (encode text) fuel level.tighter i)
      (match mark? cs with
      | some rest => do
        let (operand, rest) ← Expression.expression fuel' level rest
        return (build operand, rest)
      | none => Expression.expression fuel' level.tighter cs) := by
  have hrank := level.rank_le
  have htighter := Level.rank_tighter hlevel
  refine htells.bind hnear (fun j rest hread hat => ?_) fun j hread hat => ?_
  · have hlength := htakes hread
    rw [hread]
    refine (h.expression hat.near (by omega) (by omega)).bind ?_
    rintro ⟨operand, k⟩ ⟨operand', rest'⟩ _ ⟨heq, hnear'⟩
    exact .ok ⟨congrArg build heq, hnear'⟩
  · rw [hread]
    exact h.expression hat.near_skip (by omega) (by omega)

lemma succ_expression (h : Aligned text fuel) (hnear : IsNear text i cs)
    (hfuel : 12 * cs.length + 11 ≤ fuel + 1 + level.rank)
    (hfuel' : 12 * cs.length + 11 ≤ fuel' + level.rank) :
    Agrees text (Paired (IsNear text)) (Cursor.expression (encode text) (fuel + 1) level i)
      (Expression.expression fuel' level cs) := by
  have hrank := level.rank_le
  obtain ⟨fuel', rfl⟩ : ∃ n, fuel' = n + 1 := ⟨fuel' - 1, by omega⟩
  cases level with
  | choice => exact h.choice hnear hfuel hfuel'
  | disjunction => exact h.chained rfl hnear hfuel hfuel'
  | conjunction => exact h.chained rfl hnear hfuel hfuel'
  | negation =>
    rw [Cursor.expression, Expression.expression]
    exact marked (.unary .not) h (by decide) (eatKeyword_tells (by decide))
      (fun hread => (keyword?_takes (by decide) hread).length) hnear hfuel hfuel'
  | comparison =>
    rw [Cursor.expression, Expression.expression]
    exact single .sum h (by decide) hnear hfuel hfuel'
  | sum => exact h.chained rfl hnear hfuel hfuel'
  | product => exact h.chained rfl hnear hfuel hfuel'
  | power =>
    rw [Cursor.expression, Expression.expression]
    exact single .power h (by decide) hnear hfuel hfuel'
  | sign =>
    rw [Cursor.expression, Expression.expression]
    exact marked Expression.negated h (by decide) (eat_tells (by decide))
      (fun hread => (symbol?_takes (by decide) hread).length) hnear hfuel hfuel'
  | atom =>
    have hskip := skip_length_le cs
    have hatom : Level.rank .atom = 9 := rfl
    rw [Cursor.expression, Expression.expression]
    exact h.atom hnear.skip (by omega) (by omega)

lemma succ_atom (h : Aligned text fuel) (hat : IsAt text i cs)
    (hfuel : 12 * cs.length + 1 ≤ fuel + 1) (hfuel' : 12 * cs.length + 1 ≤ fuel') :
    Agrees text (Paired (IsNear text)) (Cursor.atom (encode text) (fuel + 1) i)
      (Expression.atom fuel' cs) := by
  obtain ⟨fuel', rfl⟩ : ∃ n, fuel' = n + 1 := ⟨fuel' - 1, by omega⟩
  rw [Cursor.atom]
  cases cs with
  | nil =>
    rw [if_pos (by simpa using hat.lt_iff), Expression.atom]
    exact .error hat
  | cons c cs =>
    have hrank : Level.rank .choice = 0 := rfl
    rw [List.length_cons] at hfuel hfuel'
    rw [if_neg (Nat.not_le.mpr (hat.lt_iff.mpr (by simp))), hat.has_cons (isUniform_beq (by decide)),
      hat.has_cons (isUniform_beq (by decide)), hat.has_cons isUniform_digit,
      hat.has_cons isUniform_nameStart, Expression.atom]
    simp only [beq_iff_eq]
    by_cases hparen : c = '('
    · subst hparen
      have hnext := hat.next (by decide)
      rw [if_pos rfl, if_pos rfl]
      refine (h.expression hnext.near (by omega) (by omega)).bind ?_
      rintro ⟨inner, j⟩ ⟨inner', cs₁⟩ _ ⟨heq, hnear₁⟩
      refine (expect_agrees (by decide) hnear₁).bind fun k cs₂ _ hat₂ => ?_
      exact .ok ⟨heq, hat₂.near⟩
    rw [if_neg hparen, if_neg hparen]
    by_cases hquote : c = '"'
    · rw [if_pos hquote, if_pos hquote]
      refine (stringLiteral_follows i _ hat.near).bind ?_
      rintro ⟨s, j⟩ ⟨s', rest⟩ _ ⟨hs, hat₁⟩
      exact .ok ⟨congrArg (fun s => Tree.literal (.enum s)) hs, hat₁.near⟩
    rw [if_neg hquote, if_neg hquote]
    by_cases hdigit : c.isDigit = true
    · rw [if_pos hdigit, if_pos hdigit]
      refine (number_agrees hat).bind ?_
      rintro ⟨v, j⟩ ⟨v', rest⟩ _ ⟨hv, hat₁⟩
      exact .ok ⟨congrArg Tree.literal hv, hat₁.near⟩
    rw [if_neg hdigit, if_neg hdigit]
    by_cases hname : isNameStart c = true
    · rw [if_pos hname, if_pos hname]
      obtain ⟨j, hread, hat₁⟩ := identifier_eq hat hname
      have hlength := (nameRest_takes hname cs).length
      rw [List.length_cons] at hlength
      rw [hread, ok_bind]
      exact h.named hat₁ (by omega) (by omega)
    · rw [if_neg hname, if_neg hname]
      exact .error hat

/-- An opening parenthesis after a name. -/
lemma paren (hat : IsAt text i cs) :
    (∃ rest, symbol? "(" cs = some rest ∧
      has (encode text) (· == '(') (skip (encode text) i) = true ∧
      IsAt text (skip (encode text) i + 1) rest) ∨
    (symbol? "(" cs = none ∧ has (encode text) (· == '(') (skip (encode text) i) = false) := by
  have hskip := hat.near.skip
  have hparen : IsUniform (· == '(') := isUniform_beq (by decide)
  rw [symbol?]
  cases hcs : Expression.skip cs with
  | nil =>
    rw [hcs] at hskip
    exact .inr ⟨rfl, hskip.has_nil hparen⟩
  | cons c rest =>
    rw [hcs] at hskip
    by_cases hc : c = '('
    · subst hc
      exact .inl ⟨rest, rfl, hskip.has_cons hparen, hskip.next (by decide)⟩
    · exact .inr ⟨if_neg (Ne.symm hc), (hskip.has_cons hparen).trans (beq_false_of_ne hc)⟩

lemma succ_named (h : Aligned text fuel) {name : String} (hat : IsAt text i cs)
    (hfuel : 12 * cs.length + 12 ≤ fuel + 1) (hfuel' : 12 * cs.length + 12 ≤ fuel') :
    Agrees text (Paired (IsNear text)) (Cursor.named (encode text) (fuel + 1) name i)
      (Expression.named fuel' name cs) := by
  obtain ⟨fuel', rfl⟩ : ∃ n, fuel' = n + 1 := ⟨fuel' - 1, by omega⟩
  rw [Cursor.named, Expression.named]
  by_cases htrue : name = "true"
  · rw [if_pos htrue, if_pos htrue]
    exact .ok ⟨rfl, hat.near⟩
  rw [if_neg htrue, if_neg htrue]
  by_cases hfalse : name = "false"
  · rw [if_pos hfalse, if_pos hfalse]
    exact .ok ⟨rfl, hat.near⟩
  rw [if_neg hfalse, if_neg hfalse]
  by_cases hkeyword : isKeyword name = true
  · rw [if_pos hkeyword, if_pos hkeyword]
    exact .error hat
  rw [if_neg hkeyword, if_neg hkeyword]
  cases pmfKind? name with
  | some kind =>
    refine (bracketed_follows (sample_follows kind) (sample_early kind) _ i cs hat.near).bind ?_
    rintro ⟨l, j⟩ ⟨l', rest⟩ _ ⟨hl, hat₁⟩
    exact .ok ⟨congrArg (Tree.pmf kind) hl, hat₁.near⟩
  | none =>
    dsimp only
    by_cases hpdf : name = "DoublePDF"
    · rw [if_pos hpdf, if_pos hpdf]
      refine (bracketed_follows (signedDouble_follows _) signedDouble_early _ i cs hat.near).bind ?_
      rintro ⟨l, j⟩ ⟨l', rest⟩ _ ⟨hl, hat₁⟩
      exact .ok ⟨congrArg Tree.pdf hl, hat₁.near⟩
    rw [if_neg hpdf, if_neg hpdf]
    rcases paren hat with ⟨rest, hread, hhas, hat₁⟩ | ⟨hread, hhas⟩
    · have hlength := (symbol?_takes (by decide) hread).length
      rw [hread, if_pos hhas]
      dsimp only
      refine (eat_tells (by decide)).bind hat₁.near (fun j rest' hread' hat' => ?_)
        fun j hread' hat' => ?_
      · rw [hread']
        exact .ok ⟨rfl, hat'.near⟩
      · rw [hread']
        refine (h.arguments hat'.near_skip (by omega) (by omega)).bind ?_
        rintro ⟨args, k⟩ ⟨args', rest'⟩ _ ⟨hargs, hnear'⟩
        exact .ok ⟨congrArg (Tree.call name) hargs, hnear'⟩
    · rw [hread, if_neg (by simp [hhas])]
      exact .ok ⟨rfl, hat.near.skip.near_skip⟩

lemma succ_arguments (h : Aligned text fuel) (hnear : IsNear text i cs)
    (hfuel : 12 * cs.length + 12 ≤ fuel + 1) (hfuel' : 12 * cs.length + 12 ≤ fuel') :
    Agrees text (Paired (IsNear text)) (Cursor.arguments (encode text) (fuel + 1) i)
      (Expression.arguments fuel' cs) := by
  have hrank : Level.rank .choice = 0 := rfl
  obtain ⟨fuel', rfl⟩ : ∃ n, fuel' = n + 1 := ⟨fuel' - 1, by omega⟩
  rw [Cursor.arguments, Expression.arguments]
  refine (h.expression hnear (by omega) (by omega)).bind ?_
  rintro ⟨first, i₁⟩ ⟨first', cs₁⟩ hfirst ⟨heq, hnear₁⟩
  have hlength₁ := length_expression hfirst
  dsimp only at heq hnear₁ ⊢
  subst heq
  refine (eat_tells (by decide)).bind hnear₁ (fun i₂ cs₂ hread hat₂ => ?_) fun i₂ hread hat₂ => ?_
  · rw [hread]
    exact .ok ⟨rfl, hat₂.near⟩
  rw [hread]
  refine (expect_agrees (by decide) hat₂.near_skip).bind fun i₃ cs₃ hcomma hat₃ => ?_
  have hlength₃ := length_expect (by decide) hcomma
  refine (h.arguments hat₃.near (by omega) (by omega)).bind ?_
  rintro ⟨others, i₄⟩ ⟨others', cs₄⟩ _ ⟨hothers, hnear₄⟩
  exact .ok ⟨congrArg (List.cons first) hothers, hnear₄⟩

end Aligned

/-- **Every bound aligns the readers.** -/
theorem aligned (text : List Char) (fuel : Nat) : Aligned text fuel := by
  induction fuel with
  | zero =>
    constructor
    case expression =>
      intro fuel' level i cs _ hfuel
      have hrank := level.rank_le
      omega
    all_goals
      intros
      omega
  | succ fuel ih =>
    exact ⟨ih.succ_expression, ih.succ_chain, ih.succ_atom, ih.succ_named, ih.succ_arguments⟩

/-! ## Whole texts -/

/-- White space only is left. -/
lemma length_le_skip (h : IsNear text i cs) :
    (encode text).length ≤ skip (encode text) i ↔ Expression.skip cs = [] := by
  rw [← not_lt, h.skip.lt_iff, not_not]

/-- Whole texts are read alike, with enough calls. -/
lemma whole_agrees (cs : List Char) (hfuel : 12 * cs.length + 11 ≤ fuel) :
    Agrees cs Eq (whole (encode cs) fuel) (Expression.whole cs) := by
  have hrank : Level.rank .choice = 0 := rfl
  have hstart : IsNear cs 0 cs := (isAt_zero cs).near
  rw [whole, Expression.whole]
  by_cases hempty : Expression.skip cs = []
  · rw [if_pos ((length_le_skip hstart).mpr hempty), if_pos hempty]
    exact .error hstart.skip
  rw [if_neg (by rwa [length_le_skip hstart]), if_neg hempty]
  refine ((aligned cs fuel).expression hstart.skip.near_skip (by omega)
    (by rw [enough]; omega)).bind ?_
  rintro ⟨tree, i⟩ ⟨tree', rest⟩ _ ⟨heq, hnear⟩
  dsimp only at heq hnear ⊢
  subst heq
  by_cases hend : Expression.skip rest = []
  · rw [if_pos ((length_le_skip hnear).mpr hend), if_pos hend]
    exact .ok rfl
  · rw [if_neg (by rwa [length_le_skip hnear]), if_neg hend]
    exact .error hnear.skip

/-- What is reported of a reading: the expression or the fault.  There is nothing to report of a
reading that ended in another way. -/
def reported : Except Halt Tree → Option (Except EvalError Tree)
  | .ok tree => some (.ok tree)
  | .error (.fault fault offset) => some (.error (.malformed fault offset))
  | .error _ => none

/-- The readers that take at least one byte when they succeed, whatever the bytes are, wherever they
start and however many calls they may make. -/
structure Progress (src : List UInt8) : Prop where
  identifier : Advances (identifier src)
  stringLiteral : Advances (stringLiteral src)
  number : Advances (number src)
  signedNumber : Advances (signedNumber src)
  signedDouble : ∀ message, Advances (signedDouble src message)
  distribution : ∀ kind, Advances (bracketed src (sample src kind) .noSample)
  density : Advances (bracketed src (interval src) .noInterval)
  named : ∀ fuel, Advances fun i => do
    let (name, i) ← Cursor.identifier src i
    Cursor.named src fuel name i
  atom : ∀ fuel, Advances (atom src fuel)
  expression : ∀ fuel level, Advances (expression src fuel level)

lemma progress (src : List UInt8) : Progress src where
  identifier := identifier_advances
  stringLiteral := stringLiteral_advances
  number := number_advances
  signedNumber := signedNumber_advances
  signedDouble := signedDouble_advances
  distribution kind := bracketed_advances (sample_advances kind) _
  density := bracketed_advances (signedDouble_advances _) _
  named fuel i := by
    refine (identifier_advances i).bind ?_
    rintro ⟨name, j⟩ hj
    exact ((goesOn src fuel).named name j).mono fun _ ha => lt_of_lt_of_le hj ha
  atom fuel := (goesOn src fuel).atom
  expression fuel := (goesOn src fuel).expression

/-- **Reading is safe.**  With twelve calls in one another for each byte, and eleven more, the bytes
of every text are read to the end: what is reported is what the text denotes or what is wrong with
it.  So no slice was cut, which is every slice with an end that is no position of the text, and the
calls were enough.  All readers go on when they succeed, and an error is reported at an offset that is
a position of the text. -/
theorem parse_safe (text : String) {fuel : Nat} (h : 12 * text.utf8ByteSize + 11 ≤ fuel) :
    reported (whole (bytes text) fuel) = some (parse text) ∧
      (∀ i, whole (bytes text) fuel ≠ .error (.cut i)) ∧
      (∀ i, isBoundary (bytes text) i = true ↔ (String.Pos.Raw.mk i).IsValid text) ∧
      whole (bytes text) fuel ≠ .error .unfinished ∧
      Progress (bytes text) ∧
      ∀ e, parse text = .error e → ∃ fault offset, e = .malformed fault offset ∧
        offset ≤ text.utf8ByteSize ∧ (String.Pos.Raw.mk offset).IsValid text := by
  have hlength := length_le_encode text.toList
  have hsize : (encode text.toList).length = text.utf8ByteSize := by rw [← bytes_eq, length_bytes]
  have hagrees : Agrees text.toList Eq (whole (bytes text) fuel) (Expression.whole text.toList) := by
    rw [bytes_eq]
    exact whole_agrees text.toList (by omega)
  rw [parse]
  generalize whole (bytes text) fuel = x at hagrees
  generalize Expression.whole text.toList = y at hagrees
  cases hagrees with
  | ok heq =>
    refine ⟨by rw [heq]; rfl, by simp, fun i => isBoundary_iff_isValid, by simp, progress _, ?_⟩
    rintro e ⟨⟩
  | @error fault i rest hat =>
    have hend := hat.length
    have hoffset : Stop.offset text.toList ⟨fault, rest⟩ = i := by
      rw [Stop.offset, byteSize_eq, byteSize_eq, ← hend]
      exact Nat.add_sub_cancel i _
    refine ⟨by dsimp only; rw [hoffset]; rfl, by simp, fun i => isBoundary_iff_isValid, by simp,
      progress _, ?_⟩
    rintro e ⟨⟩
    exact ⟨fault, i, by rw [hoffset], by omega, hat.isValid⟩

/-- A string with a character of two bytes, an exponent mark that is given back, and an error behind
both. -/
theorem parse_safe_umlaut : ∃ text fuel, text = "\"grün\" + 1e" ∧
    12 * text.utf8ByteSize + 11 ≤ fuel ∧
    reported (whole (bytes text) fuel) = some (parse text) ∧
    (∀ i, whole (bytes text) fuel ≠ .error (.cut i)) ∧
    (∀ i, isBoundary (bytes text) i = true ↔ (String.Pos.Raw.mk i).IsValid text) ∧
    whole (bytes text) fuel ≠ .error .unfinished ∧
    Progress (bytes text) ∧
    ∃ fault offset, parse text = .error (.malformed fault offset) ∧
      offset ≤ text.utf8ByteSize ∧ (String.Pos.Raw.mk offset).IsValid text := by
  let text := "\"grün\" + 1e"
  have hfuel : 12 * text.utf8ByteSize + 11 ≤ 155 := by decide +kernel
  have hrejected : (parse text).toOption.isNone = true := by decide +kernel
  obtain ⟨hreported, hcut, hposition, hfinished, hprogress, hoffset⟩ := parse_safe text hfuel
  refine ⟨text, 155, rfl, hfuel, hreported, hcut, hposition, hfinished, hprogress, ?_⟩
  cases hparse : parse text with
  | ok tree =>
    rw [hparse] at hrejected
    cases hrejected
  | error e =>
    obtain ⟨fault, offset, rfl, hle, hvalid⟩ := hoffset e hparse
    exact ⟨fault, offset, rfl, hle, hvalid⟩

end ServiceSim.Expression.Cursor
