import ServiceSim.Proofs.Expression.Consumption

/-!
# White space around an expression

The readers of expressions stop before the white space at the end of a text, and a bound on their
calls that covers what they take is enough (`Settled`).  The first character that they take is no
white space either (`expression_skip`).

What `trim` removes from a text that denotes an expression is therefore what the grammar skips, and
the trimmed text denotes the same expression (`parse_trim`).
-/

namespace ServiceSim.Expression

variable {cs rest rest' gap : List Char} {c : Char}

/-! ## Expressions -/

variable {fuel : Nat} {level : Level} {tree left : Tree} {name : String} {args : List Tree}

/-- What a bound on the calls of the readers is good for: they stop before the white space at the
end, and any bound that covers what they take is enough without it. -/
structure Settled (fuel : Nat) : Prop where
  expression : ∀ {level cs gap tree rest}, IsGap gap →
    Expression.expression fuel level (cs ++ gap) = .ok (tree, rest) →
    ∃ rest', rest = rest' ++ gap ∧ Takes cs rest' ∧
      ∀ fuel', 12 * cs.length ≤ fuel' + level.rank + 12 * rest'.length →
        Expression.expression fuel' level cs = .ok (tree, rest')
  chain : ∀ {level left cs gap tree rest}, level.isChain = true → IsGap gap →
    Expression.chain fuel level level.tighter left (cs ++ gap) = .ok (tree, rest) →
    ∃ rest', rest = rest' ++ gap ∧ MayTake cs rest' ∧
      ∀ fuel', 12 * cs.length + 1 ≤ fuel' + 12 * rest'.length →
        Expression.chain fuel' level level.tighter left cs = .ok (tree, rest')
  atom : ∀ {cs gap tree rest}, IsGap gap →
    Expression.atom fuel (cs ++ gap) = .ok (tree, rest) → cs ≠ [] →
    ∃ rest', rest = rest' ++ gap ∧ Takes cs rest' ∧
      ∀ fuel', 12 * cs.length ≤ fuel' + 10 + 12 * rest'.length →
        Expression.atom fuel' cs = .ok (tree, rest')
  named : ∀ {name cs gap tree rest}, IsGap gap →
    Expression.named fuel name (cs ++ gap) = .ok (tree, rest) →
    ∃ rest', rest = rest' ++ gap ∧ MayTake cs rest' ∧
      ∀ fuel', 12 * cs.length + 1 ≤ fuel' + 12 * rest'.length →
        Expression.named fuel' name cs = .ok (tree, rest')
  arguments : ∀ {cs gap args rest}, IsGap gap →
    Expression.arguments fuel (cs ++ gap) = .ok (args, rest) →
    ∃ rest', rest = rest' ++ gap ∧ Takes cs rest' ∧
      ∀ fuel', 12 * cs.length ≤ fuel' + 12 * rest'.length →
        Expression.arguments fuel' cs = .ok (args, rest')

namespace Settled

lemma choice (h : Settled fuel) (hgap : IsGap gap)
    (hread : Expression.expression (fuel + 1) .choice (cs ++ gap) = .ok (tree, rest)) :
    ∃ rest', rest = rest' ++ gap ∧ Takes cs rest' ∧
      ∀ fuel', 12 * cs.length ≤ fuel' + 12 * rest'.length →
        Expression.expression fuel' .choice cs = .ok (tree, rest') := by
  rw [Expression.expression] at hread
  obtain ⟨⟨condition, rest₁⟩, hcondition, hread⟩ := bind_eq_ok hread
  obtain ⟨cs₁, rfl, htakes₁, hcondition'⟩ := h.expression hgap hcondition
  have hlength₁ := htakes₁.length
  dsimp only at hread
  cases hquestion : symbol? "?" (cs₁ ++ gap) with
  | none =>
    rw [hquestion] at hread
    injection hread with hread
    injection hread with htree hrest
    refine ⟨cs₁, hrest.symm, htakes₁, fun fuel' hfuel => ?_⟩
    obtain ⟨fuel', rfl⟩ : ∃ n, fuel' = n + 1 := ⟨fuel' - 1, by omega⟩
    have hrank : Level.rank .disjunction = 1 := rfl
    rw [Expression.expression, hcondition' fuel' (by omega), ok_bind]
    dsimp only
    rw [symbol?_missing (by decide) hgap hquestion, htree]
    rfl
  | some rest₂ =>
    obtain ⟨cs₂, rfl, htakes₂, hquestion'⟩ := symbol?_early (by decide) hgap hquestion
    rw [hquestion] at hread
    obtain ⟨⟨yes, rest₃⟩, hyes, hread⟩ := bind_eq_ok hread
    obtain ⟨cs₃, rfl, htakes₃, hyes'⟩ := h.expression hgap hyes
    obtain ⟨rest₄, hcolon, hread⟩ := bind_eq_ok hread
    obtain ⟨cs₄, rfl, htakes₄, hcolon'⟩ := expect_early (by decide) hgap hcolon
    obtain ⟨⟨no, rest₅⟩, hno, hread⟩ := bind_eq_ok hread
    obtain ⟨cs₅, rfl, htakes₅, hno'⟩ := h.expression hgap hno
    injection hread with hread
    injection hread with htree hrest
    refine ⟨cs₅, hrest.symm, (((htakes₁.trans htakes₂).trans htakes₃).trans htakes₄).trans htakes₅,
      fun fuel' hfuel => ?_⟩
    have hlength₂ := htakes₂.length
    have hlength₃ := htakes₃.length
    have hlength₄ := htakes₄.length
    have hlength₅ := htakes₅.length
    obtain ⟨fuel', rfl⟩ : ∃ n, fuel' = n + 1 := ⟨fuel' - 1, by omega⟩
    rw [Expression.expression, hcondition' fuel' (by omega), ok_bind]
    dsimp only
    rw [hquestion']
    dsimp only
    rw [hyes' fuel' (by omega), ok_bind]
    dsimp only
    rw [hcolon', ok_bind, hno' fuel' (by omega), ok_bind, ← htree]
    rfl

lemma chained (h : Settled fuel) (hgap : IsGap gap) (hlevel : level.isChain = true)
    (hread : Expression.expression (fuel + 1) level (cs ++ gap) = .ok (tree, rest)) :
    ∃ rest', rest = rest' ++ gap ∧ Takes cs rest' ∧
      ∀ fuel', 12 * cs.length ≤ fuel' + level.rank + 12 * rest'.length →
        Expression.expression fuel' level cs = .ok (tree, rest') := by
  rw [expression_chain hlevel] at hread
  obtain ⟨⟨first, rest₁⟩, hfirst, hread⟩ := bind_eq_ok hread
  obtain ⟨cs₁, rfl, htakes₁, hfirst'⟩ := h.expression hgap hfirst
  obtain ⟨rest', hrest, htakes₂, hread'⟩ := h.chain hlevel hgap hread
  refine ⟨rest', hrest, htakes₁.may htakes₂, fun fuel' hfuel => ?_⟩
  have hlength₁ := htakes₁.length
  have hlength₂ := htakes₂.length
  have hrank := level.rank_le
  have htighter := Level.rank_tighter (Level.ne_atom_of_isChain hlevel)
  obtain ⟨fuel', rfl⟩ : ∃ n, fuel' = n + 1 := ⟨fuel' - 1, by omega⟩
  rw [expression_chain hlevel, hfirst' fuel' (by omega), ok_bind]
  exact hread' fuel' (by omega)

/-- Levels with at most one operator between two operands. -/
lemma single (right : Level) (h : Settled fuel) (hgap : IsGap gap) (hlevel : level ≠ .atom)
    (hrank : level.rank ≤ right.rank)
    (heq : ∀ fuel cs, Expression.expression (fuel + 1) level cs = (do
      let (left, rest) ← Expression.expression fuel level.tighter cs
      match operator? level rest with
      | none => return (left, rest)
      | some (op, rest) =>
        let (right, rest) ← Expression.expression fuel right rest
        return (.binary op left right, rest)))
    (hread : Expression.expression (fuel + 1) level (cs ++ gap) = .ok (tree, rest)) :
    ∃ rest', rest = rest' ++ gap ∧ Takes cs rest' ∧
      ∀ fuel', 12 * cs.length ≤ fuel' + level.rank + 12 * rest'.length →
        Expression.expression fuel' level cs = .ok (tree, rest') := by
  rw [heq] at hread
  obtain ⟨⟨left, rest₁⟩, hleft, hread⟩ := bind_eq_ok hread
  obtain ⟨cs₁, rfl, htakes₁, hleft'⟩ := h.expression hgap hleft
  have hlength₁ := htakes₁.length
  have hbound := level.rank_le
  have htighter := Level.rank_tighter hlevel
  dsimp only at hread
  rw [operator?_trailing hgap] at hread
  cases hop : operator? level cs₁ with
  | none =>
    rw [hop] at hread
    injection hread with hread
    injection hread with htree hrest
    refine ⟨cs₁, hrest.symm, htakes₁, fun fuel' hfuel => ?_⟩
    obtain ⟨fuel', rfl⟩ : ∃ n, fuel' = n + 1 := ⟨fuel' - 1, by omega⟩
    rw [heq, hleft' fuel' (by omega), ok_bind]
    dsimp only
    rw [hop, htree]
    rfl
  | some found =>
    obtain ⟨op, cs₂⟩ := found
    have htakes₂ := operator?_takes hop
    rw [hop] at hread
    dsimp only [Option.map_some] at hread
    obtain ⟨⟨operand, rest₃⟩, hright, hread⟩ := bind_eq_ok hread
    obtain ⟨cs₃, rfl, htakes₃, hright'⟩ := h.expression hgap hright
    injection hread with hread
    injection hread with htree hrest
    refine ⟨cs₃, hrest.symm, (htakes₁.trans htakes₂).trans htakes₃, fun fuel' hfuel => ?_⟩
    have hlength₂ := htakes₂.length
    have hlength₃ := htakes₃.length
    obtain ⟨fuel', rfl⟩ : ∃ n, fuel' = n + 1 := ⟨fuel' - 1, by omega⟩
    rw [heq, hleft' fuel' (by omega), ok_bind]
    dsimp only
    rw [hop]
    dsimp only
    rw [hright' fuel' (by omega), ok_bind, ← htree]
    rfl

/-- Levels with at most one operator in front of an operand of the level. -/
lemma marked (build : Tree → Tree) {mark? : List Char → Option (List Char)} (h : Settled fuel)
    (hgap : IsGap gap) (hlevel : level ≠ .atom)
    (heq : ∀ fuel cs, Expression.expression (fuel + 1) level cs =
      match mark? cs with
      | some rest => do
        let (operand, rest) ← Expression.expression fuel level rest
        return (build operand, rest)
      | none => Expression.expression fuel level.tighter cs)
    (hearly : ∀ {rest}, mark? (cs ++ gap) = some rest →
      ∃ rest', rest = rest' ++ gap ∧ Takes cs rest' ∧ mark? cs = some rest')
    (hmissing : mark? (cs ++ gap) = none → mark? cs = none)
    (hread : Expression.expression (fuel + 1) level (cs ++ gap) = .ok (tree, rest)) :
    ∃ rest', rest = rest' ++ gap ∧ Takes cs rest' ∧
      ∀ fuel', 12 * cs.length ≤ fuel' + level.rank + 12 * rest'.length →
        Expression.expression fuel' level cs = .ok (tree, rest') := by
  have hbound := level.rank_le
  have htighter := Level.rank_tighter hlevel
  rw [heq] at hread
  cases hmark : mark? (cs ++ gap) with
  | some rest₁ =>
    obtain ⟨cs₁, rfl, htakes₁, hmark'⟩ := hearly hmark
    rw [hmark] at hread
    obtain ⟨⟨operand, rest₂⟩, hoperand, hread⟩ := bind_eq_ok hread
    obtain ⟨cs₂, rfl, htakes₂, hoperand'⟩ := h.expression hgap hoperand
    injection hread with hread
    injection hread with htree hrest
    refine ⟨cs₂, hrest.symm, htakes₁.trans htakes₂, fun fuel' hfuel => ?_⟩
    have hlength₁ := htakes₁.length
    have hlength₂ := htakes₂.length
    obtain ⟨fuel', rfl⟩ : ∃ n, fuel' = n + 1 := ⟨fuel' - 1, by omega⟩
    rw [heq, hmark']
    dsimp only
    rw [hoperand' fuel' (by omega), ok_bind, ← htree]
    rfl
  | none =>
    rw [hmark] at hread
    obtain ⟨rest', hrest, htakes, hread'⟩ := h.expression hgap hread
    refine ⟨rest', hrest, htakes, fun fuel' hfuel => ?_⟩
    have hlength := htakes.length
    obtain ⟨fuel', rfl⟩ : ∃ n, fuel' = n + 1 := ⟨fuel' - 1, by omega⟩
    rw [heq, hmissing hmark]
    exact hread' fuel' (by omega)

/-- An atom behind white space. -/
lemma skipped (h : Settled fuel) (hgap : IsGap gap)
    (hread : Expression.expression (fuel + 1) .atom (cs ++ gap) = .ok (tree, rest)) :
    ∃ rest', rest = rest' ++ gap ∧ Takes cs rest' ∧
      ∀ fuel', 12 * cs.length ≤ fuel' + Level.atom.rank + 12 * rest'.length →
        Expression.expression fuel' .atom cs = .ok (tree, rest') := by
  have hrank : Level.atom.rank = 9 := rfl
  rw [Expression.expression] at hread
  by_cases hcs : skip cs = []
  · rw [skip_append_gap hgap hcs] at hread
    cases fuel <;> cases hread
  · rw [skip_append_solid hcs] at hread
    obtain ⟨rest', hrest, htakes, hread'⟩ := h.atom hgap hread hcs
    refine ⟨rest', hrest, htakes.skipped, fun fuel' hfuel => ?_⟩
    have hlength := htakes.skipped.length
    have hskip := skip_length_le cs
    obtain ⟨fuel', rfl⟩ : ∃ n, fuel' = n + 1 := ⟨fuel' - 1, by omega⟩
    rw [Expression.expression]
    exact hread' fuel' (by omega)

lemma succ_expression (h : Settled fuel) (hgap : IsGap gap)
    (hread : Expression.expression (fuel + 1) level (cs ++ gap) = .ok (tree, rest)) :
    ∃ rest', rest = rest' ++ gap ∧ Takes cs rest' ∧
      ∀ fuel', 12 * cs.length ≤ fuel' + level.rank + 12 * rest'.length →
        Expression.expression fuel' level cs = .ok (tree, rest') := by
  cases level with
  | choice => exact h.choice hgap hread
  | negation =>
    exact marked (.unary .not) h hgap (by decide)
      (fun fuel cs => by rw [Expression.expression]; rfl)
      (keyword?_early (by decide) hgap) (keyword?_missing (by decide) hgap) hread
  | sign =>
    exact marked negated h hgap (by decide) (fun fuel cs => by rw [Expression.expression]; rfl)
      (symbol?_early (by decide) hgap) (symbol?_missing (by decide) hgap) hread
  | atom => exact h.skipped hgap hread
  | comparison =>
    exact single .sum h hgap (by decide) (by decide)
      (fun fuel cs => by rw [Expression.expression]; rfl) hread
  | power =>
    exact single .power h hgap (by decide) (by decide)
      (fun fuel cs => by rw [Expression.expression]; rfl) hread
  | disjunction => exact h.chained hgap rfl hread
  | conjunction => exact h.chained hgap rfl hread
  | sum => exact h.chained hgap rfl hread
  | product => exact h.chained hgap rfl hread

lemma succ_chain (h : Settled fuel) (hlevel : level.isChain = true) (hgap : IsGap gap)
    (hread : Expression.chain (fuel + 1) level level.tighter left (cs ++ gap) = .ok (tree, rest)) :
    ∃ rest', rest = rest' ++ gap ∧ MayTake cs rest' ∧
      ∀ fuel', 12 * cs.length + 1 ≤ fuel' + 12 * rest'.length →
        Expression.chain fuel' level level.tighter left cs = .ok (tree, rest') := by
  rw [Expression.chain, operator?_trailing hgap] at hread
  cases hop : operator? level cs with
  | none =>
    rw [hop] at hread
    injection hread with hread
    injection hread with htree hrest
    refine ⟨cs, hrest.symm, .inl rfl, fun fuel' hfuel => ?_⟩
    rw [← htree]
    exact chain_ends (by omega) hop
  | some found =>
    obtain ⟨op, cs₁⟩ := found
    have htakes₁ := operator?_takes hop
    rw [hop] at hread
    dsimp only [Option.map_some] at hread
    obtain ⟨⟨right, rest₂⟩, hright, hread⟩ := bind_eq_ok hread
    obtain ⟨cs₂, rfl, htakes₂, hright'⟩ := h.expression hgap hright
    obtain ⟨rest', hrest, htakes₃, hread'⟩ := h.chain hlevel hgap hread
    refine ⟨rest', hrest, .inr ((htakes₁.trans htakes₂).may htakes₃), fun fuel' hfuel => ?_⟩
    have hlength₁ := htakes₁.length
    have hlength₂ := htakes₂.length
    have hlength₃ := htakes₃.length
    obtain ⟨fuel', rfl⟩ : ∃ n, fuel' = n + 1 := ⟨fuel' - 1, by omega⟩
    rw [Expression.chain, hop]
    dsimp only
    rw [hright' fuel' (by omega), ok_bind]
    exact hread' fuel' (by omega)

lemma succ_arguments (h : Settled fuel) (hgap : IsGap gap)
    (hread : Expression.arguments (fuel + 1) (cs ++ gap) = .ok (args, rest)) :
    ∃ rest', rest = rest' ++ gap ∧ Takes cs rest' ∧
      ∀ fuel', 12 * cs.length ≤ fuel' + 12 * rest'.length →
        Expression.arguments fuel' cs = .ok (args, rest') := by
  rw [Expression.arguments] at hread
  obtain ⟨⟨first, rest₁⟩, hfirst, hread⟩ := bind_eq_ok hread
  obtain ⟨cs₁, rfl, htakes₁, hfirst'⟩ := h.expression hgap hfirst
  have hlength₁ := htakes₁.length
  have hrank : Level.choice.rank = 0 := rfl
  dsimp only at hread
  cases hclose : symbol? ")" (cs₁ ++ gap) with
  | some rest₂ =>
    obtain ⟨cs₂, rfl, htakes₂, hclose'⟩ := symbol?_early (by decide) hgap hclose
    rw [hclose] at hread
    injection hread with hread
    injection hread with hargs hrest
    refine ⟨cs₂, hrest.symm, htakes₁.trans htakes₂, fun fuel' hfuel => ?_⟩
    have hlength₂ := htakes₂.length
    obtain ⟨fuel', rfl⟩ : ∃ n, fuel' = n + 1 := ⟨fuel' - 1, by omega⟩
    rw [Expression.arguments, hfirst' fuel' (by omega), ok_bind]
    dsimp only
    rw [hclose', ← hargs]
    rfl
  | none =>
    rw [hclose] at hread
    obtain ⟨rest₂, hcomma, hread⟩ := bind_eq_ok hread
    obtain ⟨cs₂, rfl, htakes₂, hcomma'⟩ := expect_early (by decide) hgap hcomma
    obtain ⟨⟨others, rest₃⟩, hothers, hread⟩ := bind_eq_ok hread
    obtain ⟨rest', rfl, htakes₃, hothers'⟩ := h.arguments hgap hothers
    injection hread with hread
    injection hread with hargs hrest
    refine ⟨rest', hrest.symm, (htakes₁.trans htakes₂).trans htakes₃, fun fuel' hfuel => ?_⟩
    have hlength₂ := htakes₂.length
    have hlength₃ := htakes₃.length
    obtain ⟨fuel', rfl⟩ : ∃ n, fuel' = n + 1 := ⟨fuel' - 1, by omega⟩
    rw [Expression.arguments, hfirst' fuel' (by omega), ok_bind]
    dsimp only
    rw [symbol?_missing (by decide) hgap hclose]
    dsimp only
    rw [hcomma', ok_bind, hothers' fuel' (by omega), ok_bind, ← hargs]
    rfl

/-- What a name begins that is neither a word nor a distribution: a call or a variable. -/
lemma called (h : Settled fuel) (hgap : IsGap gap)
    (heq : ∀ fuel cs, Expression.named (fuel + 1) name cs =
      match symbol? "(" cs with
      | none => .ok (.variable name, cs)
      | some rest =>
        match symbol? ")" rest with
        | some rest => .ok (.call name [], rest)
        | none => do
          let (arguments, rest) ← Expression.arguments fuel rest
          return (.call name arguments, rest))
    (hread : Expression.named (fuel + 1) name (cs ++ gap) = .ok (tree, rest)) :
    ∃ rest', rest = rest' ++ gap ∧ MayTake cs rest' ∧
      ∀ fuel', 12 * cs.length + 1 ≤ fuel' + 12 * rest'.length →
        Expression.named fuel' name cs = .ok (tree, rest') := by
  rw [heq] at hread
  cases hopen : symbol? "(" (cs ++ gap) with
  | none =>
    rw [hopen] at hread
    injection hread with hread
    injection hread with htree hrest
    refine ⟨cs, hrest.symm, .inl rfl, fun fuel' hfuel => ?_⟩
    obtain ⟨fuel', rfl⟩ : ∃ n, fuel' = n + 1 := ⟨fuel' - 1, by omega⟩
    rw [heq, symbol?_missing (by decide) hgap hopen, ← htree]
  | some rest₁ =>
    obtain ⟨cs₁, rfl, htakes₁, hopen'⟩ := symbol?_early (by decide) hgap hopen
    have hlength₁ := htakes₁.length
    rw [hopen] at hread
    dsimp only at hread
    cases hclose : symbol? ")" (cs₁ ++ gap) with
    | some rest₂ =>
      obtain ⟨cs₂, rfl, htakes₂, hclose'⟩ := symbol?_early (by decide) hgap hclose
      rw [hclose] at hread
      injection hread with hread
      injection hread with htree hrest
      refine ⟨cs₂, hrest.symm, .inr (htakes₁.trans htakes₂), fun fuel' hfuel => ?_⟩
      have hlength₂ := htakes₂.length
      obtain ⟨fuel', rfl⟩ : ∃ n, fuel' = n + 1 := ⟨fuel' - 1, by omega⟩
      rw [heq, hopen']
      dsimp only
      rw [hclose', ← htree]
    | none =>
      rw [hclose] at hread
      obtain ⟨⟨args, rest₂⟩, hargs, hread⟩ := bind_eq_ok hread
      obtain ⟨cs₂, rfl, htakes₂, hargs'⟩ := h.arguments hgap hargs
      injection hread with hread
      injection hread with htree hrest
      refine ⟨cs₂, hrest.symm, .inr (htakes₁.trans htakes₂), fun fuel' hfuel => ?_⟩
      have hlength₂ := htakes₂.length
      obtain ⟨fuel', rfl⟩ : ∃ n, fuel' = n + 1 := ⟨fuel' - 1, by omega⟩
      rw [heq, hopen']
      dsimp only
      rw [symbol?_missing (by decide) hgap hclose]
      dsimp only
      rw [hargs' fuel' (by omega), ok_bind, ← htree]
      rfl

/-- A name that takes what follows it in a way that does not depend on the bound. -/
lemma fixed (read : List Char → Except Stop (Tree × List Char))
    (heq : ∀ fuel cs, Expression.named (fuel + 1) name cs = read cs)
    (hearly : ∀ {cs rest}, read (cs ++ gap) = .ok (tree, rest) →
      ∃ rest', rest = rest' ++ gap ∧ MayTake cs rest' ∧ read cs = .ok (tree, rest'))
    (hread : Expression.named (fuel + 1) name (cs ++ gap) = .ok (tree, rest)) :
    ∃ rest', rest = rest' ++ gap ∧ MayTake cs rest' ∧
      ∀ fuel', 12 * cs.length + 1 ≤ fuel' + 12 * rest'.length →
        Expression.named fuel' name cs = .ok (tree, rest') := by
  rw [heq] at hread
  obtain ⟨rest', hrest, htakes, hread'⟩ := hearly hread
  refine ⟨rest', hrest, htakes, fun fuel' hfuel => ?_⟩
  have hlength := htakes.length
  obtain ⟨fuel', rfl⟩ : ∃ n, fuel' = n + 1 := ⟨fuel' - 1, by omega⟩
  rw [heq]
  exact hread'

lemma succ_named (h : Settled fuel) (hgap : IsGap gap)
    (hread : Expression.named (fuel + 1) name (cs ++ gap) = .ok (tree, rest)) :
    ∃ rest', rest = rest' ++ gap ∧ MayTake cs rest' ∧
      ∀ fuel', 12 * cs.length + 1 ≤ fuel' + 12 * rest'.length →
        Expression.named fuel' name cs = .ok (tree, rest') := by
  have hconstant : ∀ (value : Tree) {cs rest : List Char},
      (Except.ok (value, cs ++ gap) : Except Stop (Tree × List Char)) = .ok (tree, rest) →
      ∃ rest', rest = rest' ++ gap ∧ MayTake cs rest' ∧
        (Except.ok (value, cs) : Except Stop (Tree × List Char)) = .ok (tree, rest') := by
    intro value cs rest hread
    injection hread with hread
    injection hread with htree hrest
    exact ⟨cs, hrest.symm, .inl rfl, by rw [htree]⟩
  by_cases htrue : name = "true"
  · exact fixed _ (fun fuel cs => by rw [Expression.named, if_pos htrue]) (hconstant _) hread
  by_cases hfalse : name = "false"
  · exact fixed _ (fun fuel cs => by rw [Expression.named, if_neg htrue, if_pos hfalse])
      (hconstant _) hread
  by_cases hkeyword : isKeyword name = true
  · rw [Expression.named, if_neg htrue, if_neg hfalse, if_pos hkeyword] at hread
    cases hread
  cases hpmf : pmfKind? name with
  | some kind =>
    refine fixed _ (fun fuel cs => by
      rw [Expression.named, if_neg htrue, if_neg hfalse, if_neg hkeyword, hpmf])
      (fun {cs rest} hread => ?_) hread
    obtain ⟨⟨samples, rest₁⟩, hsamples, hread⟩ := bind_eq_ok hread
    obtain ⟨rest', rfl, htakes, hsamples'⟩ :=
      bracketed_early (sample_early kind) .noSample hgap hsamples
    injection hread with hread
    injection hread with htree hrest
    refine ⟨rest', hrest.symm, .inr htakes, ?_⟩
    rw [hsamples', ok_bind, ← htree]
    rfl
  | none =>
    by_cases hpdf : name = "DoublePDF"
    · refine fixed _ (fun fuel cs => by
        rw [Expression.named, if_neg htrue, if_neg hfalse, if_neg hkeyword, hpmf]
        dsimp only
        rw [if_pos hpdf])
        (fun {cs rest} hread => ?_) hread
      obtain ⟨⟨intervals, rest₁⟩, hintervals, hread⟩ := bind_eq_ok hread
      obtain ⟨rest', rfl, htakes, hintervals'⟩ :=
        bracketed_early signedDouble_early .noInterval hgap hintervals
      injection hread with hread
      injection hread with htree hrest
      refine ⟨rest', hrest.symm, .inr htakes, ?_⟩
      rw [hintervals', ok_bind, ← htree]
      rfl
    · refine h.called hgap (fun fuel cs => ?_) hread
      rw [Expression.named, if_neg htrue, if_neg hfalse, if_neg hkeyword, hpmf]
      exact if_neg hpdf

lemma succ_atom (h : Settled fuel) (hgap : IsGap gap)
    (hread : Expression.atom (fuel + 1) (cs ++ gap) = .ok (tree, rest)) (hcs : cs ≠ []) :
    ∃ rest', rest = rest' ++ gap ∧ Takes cs rest' ∧
      ∀ fuel', 12 * cs.length ≤ fuel' + 10 + 12 * rest'.length →
        Expression.atom fuel' cs = .ok (tree, rest') := by
  obtain ⟨c, more, rfl⟩ := List.exists_cons_of_ne_nil hcs
  rw [List.cons_append, Expression.atom] at hread
  by_cases hparen : c = '('
  · subst hparen
    rw [if_pos rfl] at hread
    obtain ⟨⟨inner, rest₁⟩, hinner, hread⟩ := bind_eq_ok hread
    obtain ⟨cs₁, rfl, htakes₁, hinner'⟩ := h.expression hgap hinner
    obtain ⟨rest₂, hclose, hread⟩ := bind_eq_ok hread
    obtain ⟨cs₂, rfl, htakes₂, hclose'⟩ := expect_early (by decide) hgap hclose
    injection hread with hread
    injection hread with htree hrest
    refine ⟨cs₂, hrest.symm, (htakes₁.trans htakes₂).prepend ['('], fun fuel' hfuel => ?_⟩
    have hlength₁ := htakes₁.length
    have hlength₂ := htakes₂.length
    have hrank : Level.choice.rank = 0 := rfl
    rw [List.length_cons] at hfuel
    obtain ⟨fuel', rfl⟩ : ∃ n, fuel' = n + 1 := ⟨fuel' - 1, by omega⟩
    rw [Expression.atom, if_pos rfl, hinner' fuel' (by omega), ok_bind]
    dsimp only
    rw [hclose', ok_bind, ← htree]
    rfl
  rw [if_neg hparen] at hread
  by_cases hquote : c = '"'
  · rw [if_pos hquote] at hread
    obtain ⟨⟨text, rest₁⟩, hstring, hread⟩ := bind_eq_ok hread
    rw [← List.cons_append] at hstring
    obtain ⟨rest', rfl, htakes, hstring'⟩ := stringLiteral_early hgap hstring
    injection hread with hread
    injection hread with htree hrest
    refine ⟨rest', hrest.symm, htakes, fun fuel' hfuel => ?_⟩
    have hlength := htakes.length
    obtain ⟨fuel', rfl⟩ : ∃ n, fuel' = n + 1 := ⟨fuel' - 1, by omega⟩
    rw [Expression.atom, if_neg hparen, if_pos hquote, hstring', ok_bind, ← htree]
    rfl
  rw [if_neg hquote] at hread
  by_cases hdigit : c.isDigit = true
  · rw [if_pos hdigit] at hread
    obtain ⟨⟨value, rest₁⟩, hnumber, hread⟩ := bind_eq_ok hread
    rw [← List.cons_append] at hnumber
    obtain ⟨rest', rfl, htakes, hnumber'⟩ := number_early hgap hnumber
    injection hread with hread
    injection hread with htree hrest
    refine ⟨rest', hrest.symm, htakes, fun fuel' hfuel => ?_⟩
    have hlength := htakes.length
    obtain ⟨fuel', rfl⟩ : ∃ n, fuel' = n + 1 := ⟨fuel' - 1, by omega⟩
    rw [Expression.atom, if_neg hparen, if_neg hquote, if_pos hdigit, hnumber', ok_bind, ← htree]
    rfl
  rw [if_neg hdigit] at hread
  by_cases hname : isNameStart c = true
  · rw [if_pos hname, ← List.cons_append, nameRest_trailing hgap] at hread
    have htakes₁ := nameRest_takes hname more
    obtain ⟨rest', hrest, htakes₂, hread'⟩ := h.named hgap hread
    refine ⟨rest', hrest, htakes₁.may htakes₂, fun fuel' hfuel => ?_⟩
    have hlength₁ := htakes₁.length
    have hlength₂ := htakes₂.length
    obtain ⟨fuel', rfl⟩ : ∃ n, fuel' = n + 1 := ⟨fuel' - 1, by omega⟩
    rw [Expression.atom, if_neg hparen, if_neg hquote, if_neg hdigit, if_pos hname]
    exact hread' fuel' (by omega)
  · rw [if_neg hname] at hread
    cases hread

end Settled

/-- **Every bound settles the readers.** -/
theorem settled (fuel : Nat) : Settled fuel := by
  induction fuel with
  | zero =>
    constructor
    all_goals
      intros
      contradiction
  | succ fuel ih =>
    exact ⟨ih.succ_expression, fun hlevel => ih.succ_chain hlevel, ih.succ_atom, ih.succ_named,
      ih.succ_arguments⟩

/-! ## White space in front -/

lemma skip_skip (cs : List Char) : skip (skip cs) = skip cs := by
  induction cs with
  | nil => rfl
  | cons c cs ih =>
    cases hc : isBlank c with
    | true =>
      have hskip : skip (c :: cs) = skip cs := List.dropWhile_cons_of_pos hc
      rw [hskip, ih]
    | false => rw [skip_solid hc, skip_solid hc]

/-- The first character that an atom takes is no white space. -/
lemma atom_head (h : atom fuel cs = .ok (tree, rest)) : ∃ c more, cs = c :: more ∧
    Text.isSpace c = false := by
  cases fuel with
  | zero => cases h
  | succ fuel =>
    cases cs with
    | nil => cases h
    | cons c more =>
      refine ⟨c, more, rfl, ?_⟩
      rw [atom] at h
      split_ifs at h with hparen hquote hdigit hname
      · rw [hparen]
        decide
      · rw [hquote]
        decide
      · exact not_space_of_digit hdigit
      · exact not_space_of_nameChar (isNameChar_of_start hname)
      · cases h

/-- A symbol begins with its first character. -/
lemma symbol?_head {symbol : String} (solid : IsSolid symbol)
    (h : symbol? symbol cs = some rest) : ∃ c more, skip cs = c :: more ∧
      Text.isSpace c = false := by
  have hcs := after?_eq_some h
  cases hw : symbol.toList with
  | nil => exact absurd hw solid.1
  | cons c w =>
    rw [hw] at hcs
    exact ⟨c, w ++ rest, hcs, solid.2 c (by rw [hw]; exact List.mem_cons_self)⟩

/-- **White space in front of an expression may be skipped**, and what follows it is no white space
of another kind. -/
lemma expression_skip (h : expression fuel level cs = .ok (tree, rest)) :
    (∃ c more, skip cs = c :: more ∧ Text.isSpace c = false) ∧
      expression fuel level (skip cs) = .ok (tree, rest) := by
  induction fuel generalizing level tree rest with
  | zero => cases h
  | succ fuel ih =>
    -- Most levels begin with an operand of the next.
    have hoperand : ∀ {f : Tree × List Char → Except Stop (Tree × List Char)},
        (∀ cs, expression (fuel + 1) level cs = expression fuel level.tighter cs >>= f) →
        (∃ c more, skip cs = c :: more ∧ Text.isSpace c = false) ∧
          expression (fuel + 1) level (skip cs) = .ok (tree, rest) := by
      intro f heq
      rw [heq] at h
      obtain ⟨⟨left, rest₁⟩, hleft, hrest⟩ := bind_eq_ok h
      obtain ⟨hhead, hleft'⟩ := ih hleft
      refine ⟨hhead, ?_⟩
      rw [heq, hleft', ok_bind]
      exact hrest
    cases level with
    | choice => exact hoperand fun cs => by rw [expression]; rfl
    | comparison => exact hoperand fun cs => by rw [expression]; rfl
    | power => exact hoperand fun cs => by rw [expression]; rfl
    | disjunction => exact hoperand (expression_chain rfl fuel)
    | conjunction => exact hoperand (expression_chain rfl fuel)
    | sum => exact hoperand (expression_chain rfl fuel)
    | product => exact hoperand (expression_chain rfl fuel)
    | negation =>
      have hskip : keyword? "NOT" (skip cs) = keyword? "NOT" cs := by
        rw [keyword?, keyword?, skip_skip]
      rw [expression] at h ⊢
      rw [hskip]
      cases hnot : keyword? "NOT" cs with
      | some rest₁ =>
        rw [hnot] at h
        rw [keyword?, Option.filter_eq_some_iff] at hnot
        exact ⟨symbol?_head (by decide) hnot.1, h⟩
      | none =>
        rw [hnot] at h
        exact ih h
    | sign =>
      have hskip : symbol? "-" (skip cs) = symbol? "-" cs := by
        rw [symbol?, symbol?, skip_skip]
      rw [expression] at h ⊢
      rw [hskip]
      cases hminus : symbol? "-" cs with
      | some rest₁ =>
        rw [hminus] at h
        exact ⟨symbol?_head (by decide) hminus, h⟩
      | none =>
        rw [hminus] at h
        exact ih h
    | atom =>
      rw [expression] at h ⊢
      rw [skip_skip]
      exact ⟨atom_head h, h⟩

/-! ## Trimmed texts -/

lemma dropWhile_space (h : ∃ c more, skip cs = c :: more ∧ Text.isSpace c = false) :
    cs.dropWhile Text.isSpace = skip cs := by
  obtain ⟨c, more, hskip, hc⟩ := h
  induction cs with
  | nil => cases hskip
  | cons d cs ih =>
    cases hd : isBlank d with
    | true =>
      have hd' : skip (d :: cs) = skip cs := List.dropWhile_cons_of_pos hd
      rw [hd'] at hskip ⊢
      rw [List.dropWhile_cons_of_pos (isSpace_of_blank hd)]
      exact ih hskip
    | false =>
      rw [skip_solid hd] at hskip ⊢
      injection hskip with hdc
      rw [List.dropWhile_cons_of_neg (by simp [hdc, hc])]

/-- White space after the last character that is taken is trimmed. -/
lemma trimEnd_taken {used : List Char} (hc : Text.isSpace c = false)
    (hrest : ∀ c ∈ rest, Text.isSpace c = true) :
    Text.trimEnd (used ++ c :: rest) = used ++ [c] := by
  rw [Text.trimEnd, List.reverse_append, List.reverse_cons, List.append_assoc,
    List.dropWhile_append_of_pos fun d hd => hrest d (List.mem_reverse.mp hd)]
  change ((c :: used.reverse).dropWhile Text.isSpace).reverse = _
  rw [List.dropWhile_cons_of_neg (by simp [hc]), List.reverse_cons, List.reverse_reverse]

lemma isGap_of_skip (h : skip rest = []) : IsGap rest := by
  rwa [skip, List.dropWhile_eq_nil_iff] at h

/-- A list of characters without white space at its ends. -/
structure IsTrim (cs : List Char) : Prop where
  head : ∃ c more, cs = c :: more ∧ Text.isSpace c = false
  last : ∃ used c, cs = used ++ [c] ∧ Text.isSpace c = false

lemma IsTrim.trimmed (h : IsTrim cs) : Text.trimEnd (cs.dropWhile Text.isSpace) = cs := by
  obtain ⟨c, more, rfl, hc⟩ := h.head
  obtain ⟨used, d, hlast, hd⟩ := h.last
  rw [List.dropWhile_cons_of_neg (by simp [hc]), hlast]
  exact trimEnd_taken hd fun _ hnil => by cases hnil

lemma IsTrim.skip (h : IsTrim cs) : Expression.skip cs = cs := by
  obtain ⟨c, more, rfl, hc⟩ := h.head
  exact skip_solid (blank_of_not_space hc) more

/-- A text that denotes an expression consists of white space that the grammar skips around
characters that denote the expression and have none at their ends. -/
lemma whole_trimmed (h : whole cs = .ok tree) :
    whole (Text.trimEnd (cs.dropWhile Text.isSpace)) = .ok tree ∧
      IsTrim (Text.trimEnd (cs.dropWhile Text.isSpace)) := by
  rw [whole] at h
  split_ifs at h with hnonempty
  obtain ⟨⟨tree', rest⟩, hread, h⟩ := bind_eq_ok h
  dsimp only at h
  split_ifs at h with hgap
  injection h with h
  subst h
  obtain ⟨hhead, hskipped⟩ := expression_skip hread
  -- The characters that are taken, without those before and after them.
  have hall : expression (enough cs) .choice (skip cs ++ []) = .ok (tree', rest) := by
    rwa [List.append_nil]
  obtain ⟨rest', hrest, ⟨used, c, hused, hc⟩, -⟩ :=
    (settled _).expression (fun _ hnil => by cases hnil) hall
  rw [List.append_nil] at hrest
  subst hrest
  have hblank : ∀ c ∈ rest, Text.isSpace c = true := fun c hc =>
    isSpace_of_blank (isGap_of_skip hgap c hc)
  rw [dropWhile_space hhead, hused, trimEnd_taken hc hblank]
  have hsplit : skip cs = (used ++ [c]) ++ rest := by rw [hused]; simp
  rw [hsplit] at hskipped hhead
  obtain ⟨rest', hrest, -, hread'⟩ := (settled _).expression (isGap_of_skip hgap) hskipped
  have hnil : rest' = [] := List.append_left_eq_self.mp hrest.symm
  subst hnil
  have htrim : IsTrim (used ++ [c]) := by
    refine ⟨?_, used, c, rfl, hc⟩
    obtain ⟨d, more, hd, hsolid⟩ := hhead
    cases used with
    | nil => exact ⟨c, [], rfl, hc⟩
    | cons e used =>
      injection hd with hed
      exact ⟨e, used ++ [c], rfl, hed ▸ hsolid⟩
  refine ⟨?_, htrim⟩
  rw [whole, htrim.skip, if_neg (by simp), hread' (enough (used ++ [c])) (by simp [enough]; omega),
    ok_bind]
  rfl

/-- **A trimmed text denotes the same expression.** -/
theorem parse_trim {text : String} (h : parse text = .ok tree) :
    parse (Text.trim text) = .ok tree ∧ Text.trim (Text.trim text) = Text.trim text := by
  rw [parse] at h
  split at h
  next tree' hwhole =>
    injection h with h
    subst h
    obtain ⟨htrimmed, htrim⟩ := whole_trimmed hwhole
    constructor
    · rw [parse, Text.trim, String.toList_ofList, htrimmed]
    · rw [Text.trim, Text.trim, String.toList_ofList, htrim.trimmed]
  next => cases h

end ServiceSim.Expression
