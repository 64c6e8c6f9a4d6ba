import ServiceSim.Proofs.Expression.Consumption
import ServiceSim.Proofs.Expression.RoundTrip
import ServiceSim.Proofs.Number.Literals

/-!
# The shape of parsed expressions

Not every tree is read from a text.  `Shaped` has the trees that can be: integers have a negative that
is an integer again, no number is a NaN, a minus sign stands before no number, names are dotted and
are neither keywords nor names of distributions, and distributions have entries, with samples of the
right type.

Digits denote an integer that is not negative and has 63 bits.  Signs change it, of which any number
may stand before it, with parentheses between them; after each sign the integer is still greater than
the least one of 64 bits.  So no change of a sign overflows, not even while a text is read that turns
out not to be an expression (`parse_shaped`).
-/

namespace ServiceSim.Expression

open Binary64

variable {α : Type} {cs rest : List Char} {fuel : Nat} {level operand : Level} {tree left : Tree}
  {name : String}

/-! ## Shapes -/

/-- An integer that is not the least one of 64 bits. -/
def IsBalanced (n : Int64) : Prop := -(2 ^ 63 - 1) ≤ n.toInt ∧ n.toInt ≤ 2 ^ 63 - 1

instance (n : Int64) : Decidable (IsBalanced n) := inferInstanceAs (Decidable (_ ∧ _))

/-- A dotted name: parts with points between. -/
def IsDotted (name : String) : Prop :=
  ∃ (first : List Char) (others : List (List Char)), IsSegment first ∧
    (∀ s ∈ others, IsSegment s) ∧ name.toList = first ++ others.flatMap ('.' :: ·)

/-- A name that a variable or a function can have. -/
structure IsFree (name : String) : Prop where
  dotted : IsDotted name
  keyword : name ∉ keywords
  distribution : name ∉ distributions

/-- A sample of the type of a kind. -/
inductive HasKind : PmfKind → Value → Prop where
  | int {n : Int64} : IsBalanced n → HasKind .int (.int n)
  | double {x : Float} : IsDefined x → HasKind .double (.double x)
  | bool (b : Bool) : HasKind .bool (.bool b)
  | enum (text : String) : HasKind .enum (.enum text)

/-- **The trees that are read from texts.** -/
inductive Shaped : Tree → Prop where
  | int {n : Int64} : IsBalanced n → Shaped (.literal (.int n))
  | double {x : Float} : IsDefined x → Shaped (.literal (.double x))
  | bool (b : Bool) : Shaped (.literal (.bool b))
  | enum (text : String) : Shaped (.literal (.enum text))
  | variable {name : String} : IsFree name → Shaped (.variable name)
  | neg {tree : Tree} : isNumber tree = false → Shaped tree → Shaped (.unary .neg tree)
  | not {tree : Tree} : Shaped tree → Shaped (.unary .not tree)
  | binary (op : BinaryOp) {left right : Tree} : Shaped left → Shaped right →
      Shaped (.binary op left right)
  | conditional {condition yes no : Tree} : Shaped condition → Shaped yes → Shaped no →
      Shaped (.conditional condition yes no)
  | call {name : String} {arguments : List Tree} : IsFree name → (∀ a ∈ arguments, Shaped a) →
      Shaped (.call name arguments)
  | pmf {kind : PmfKind} {samples : List (Value × Float)} : samples ≠ [] →
      (∀ p ∈ samples, HasKind kind p.1 ∧ IsDefined p.2) → Shaped (.pmf kind samples)
  | pdf {intervals : List (Float × Float)} : intervals ≠ [] →
      (∀ p ∈ intervals, IsDefined p.1 ∧ IsDefined p.2) → Shaped (.pdf intervals)

/-- What a reader returns has a property. -/
def Yields (read : List Char → Except Stop (α × List Char)) (P : α → Prop) : Prop :=
  ∀ cs a rest, read cs = .ok (a, rest) → P a

/-! ## Numbers -/

/-- A number as it is written without a sign. -/
def IsUnsigned : Value → Prop
  | .int n => 0 ≤ n.toInt
  | .double x => IsDefined x
  | _ => False

/-- A number after a sign or none. -/
def IsSigned : Value → Prop
  | .int n => IsBalanced n
  | .double x => IsDefined x
  | _ => False

lemma toInt_neg_of_isBalanced {n : Int64} (h : IsBalanced n) : (-n).toInt = -n.toInt := by
  obtain ⟨hlow, hhigh⟩ := h
  rw [Int64.toInt_neg, Int.bmod_eq_of_le (by omega) (by omega)]

lemma IsBalanced.neg {n : Int64} (h : IsBalanced n) : IsBalanced (-n) := by
  rw [IsBalanced, toInt_neg_of_isBalanced h]
  obtain ⟨hlow, hhigh⟩ := h
  exact ⟨by omega, by omega⟩

lemma isBalanced_of_nonneg {n : Int64} (h : 0 ≤ n.toInt) : IsBalanced n := by
  have hlt := n.toInt_lt
  exact ⟨by omega, by omega⟩

lemma IsUnsigned.signed {v : Value} (h : IsUnsigned v) : IsSigned v := by
  cases v with
  | int n => exact isBalanced_of_nonneg h
  | double x => exact h
  | bool b => exact h
  | enum text => exact h

lemma IsSigned.negate {v : Value} (h : IsSigned v) : IsSigned (negateNumber v) := by
  cases v with
  | int n => exact IsBalanced.neg h
  | double x => exact isDefined_neg h
  | bool b => exact h
  | enum text => exact h

lemma IsSigned.doubleOf {v : Value} (h : IsSigned v) : IsDefined (doubleOf v) := by
  cases v with
  | int n => exact isDefined_doubleOfInt n
  | double x => exact h
  | bool b => exact h.elim
  | enum text => exact h.elim

lemma IsSigned.shaped {v : Value} (h : IsSigned v) : Shaped (.literal v) := by
  cases v with
  | int n => exact .int h
  | double x => exact .double h
  | bool b => exact .bool b
  | enum text => exact .enum text

lemma numberOf_unsigned {whole fraction : List Char} {exponent : Option Int} {v : Value}
    {later : List Char} (h : numberOf whole fraction exponent rest = .ok (v, later)) :
    IsUnsigned v := by
  rw [numberOf] at h
  by_cases hempty : whole.isEmpty ∧ fraction.isEmpty
  · rw [if_pos hempty] at h
    cases h
  rw [if_neg hempty] at h
  by_cases hinteger : fraction.isEmpty ∧ exponent = none
  · rw [if_pos hinteger] at h
    cases hn : int64? (Number.ofDigits whole) with
    | none =>
      rw [hn] at h
      cases h
    | some n =>
      rw [hn] at h
      cases h
      rw [int64?, Option.ite_none_right_eq_some] at hn
      obtain ⟨⟨-, hhigh⟩, hn⟩ := hn
      cases hn
      change (Number.ofDigits whole : Int) ≤ 2 ^ 63 - 1 at hhigh
      change 0 ≤ (Int64.ofInt _).toInt
      rw [Int64.toInt_ofInt_of_le (by omega) (by omega)]
      exact Int.natCast_nonneg _
  · rw [if_neg hinteger] at h
    cases h
    exact ofDecimal_defined _

/-- Digits denote no negative number, and no decimal is a NaN. -/
lemma number_yields : Yields number IsUnsigned := by
  intro cs v rest h
  rw [number_eq] at h
  exact numberOf_unsigned h

lemma signedNumber_yields : Yields signedNumber IsSigned := by
  intro cs v rest h
  rw [signedNumber] at h
  split at h
  · obtain ⟨⟨unsigned, rest₁⟩, hnumber, hreturn⟩ := bind_eq_ok h
    cases hreturn
    exact (number_yields _ _ _ hnumber).signed.negate
  · exact (number_yields _ _ _ h).signed

lemma signedDouble_yields : Yields signedDouble IsDefined := by
  intro cs x rest h
  rw [signedDouble] at h
  obtain ⟨⟨v, rest₁⟩, hnumber, hreturn⟩ := bind_eq_ok h
  cases hreturn
  exact (signedNumber_yields _ _ _ hnumber).doubleOf

/-! ## Distributions -/

lemma sample_yields (kind : PmfKind) : Yields (sample kind) (HasKind kind) := by
  intro cs v rest h
  cases kind with
  | int =>
    obtain ⟨⟨number, rest₁⟩, hnumber, hreturn⟩ := bind_eq_ok h
    have hsigned := signedNumber_yields _ _ _ hnumber
    cases number with
    | int n =>
      cases hreturn
      exact .int hsigned
    | _ => cases hreturn
  | double =>
    obtain ⟨⟨x, rest₁⟩, hnumber, hreturn⟩ := bind_eq_ok h
    cases hreturn
    exact .double (signedDouble_yields _ _ _ hnumber)
  | bool =>
    simp only [sample] at h
    split at h
    · cases h
      exact .bool true
    · cases h
      exact .bool false
    · cases h
  | enum =>
    obtain ⟨⟨text, rest₁⟩, -, hreturn⟩ := bind_eq_ok h
    cases hreturn
    exact .enum text

section

variable {item : List Char → Except Stop (α × List Char)} {P : α → Prop}

lemma entry_yields (h : Yields item P) : Yields (entry item) fun p => P p.1 ∧ IsDefined p.2 := by
  intro cs p rest hentry
  rw [entry] at hentry
  obtain ⟨rest₁, -, hentry⟩ := bind_eq_ok hentry
  obtain ⟨⟨a, rest₂⟩, hitem, hentry⟩ := bind_eq_ok hentry
  obtain ⟨rest₃, -, hentry⟩ := bind_eq_ok hentry
  obtain ⟨⟨q, rest₄⟩, hprobability, hentry⟩ := bind_eq_ok hentry
  obtain ⟨rest₅, -, hentry⟩ := bind_eq_ok hentry
  cases hentry
  exact ⟨h _ _ _ hitem, signedDouble_yields _ _ _ hprobability⟩

lemma entries_yields (h : Yields item P) (bound : Nat) :
    Yields (entries item bound) fun l => ∀ p ∈ l, P p.1 ∧ IsDefined p.2 := by
  induction bound with
  | zero => exact fun cs l rest hentries => nomatch hentries
  | succ bound ih =>
    intro cs l rest hentries
    rw [entries] at hentries
    split at hentries
    · cases hentries
      simp
    · obtain ⟨⟨first, rest₁⟩, hfirst, hentries⟩ := bind_eq_ok hentries
      obtain ⟨⟨others, rest₂⟩, hothers, hentries⟩ := bind_eq_ok hentries
      cases hentries
      exact List.forall_mem_cons.mpr ⟨entry_yields h _ _ _ hfirst, ih _ _ _ hothers⟩

lemma bracketed_yields (h : Yields item P) (none : GrammarFault) :
    Yields (bracketed item none) fun l => l ≠ [] ∧ ∀ p ∈ l, P p.1 ∧ IsDefined p.2 := by
  intro cs l rest hbracketed
  rw [bracketed] at hbracketed
  obtain ⟨rest₁, -, hbracketed⟩ := bind_eq_ok hbracketed
  obtain ⟨⟨found, rest₂⟩, hfound, hbracketed⟩ := bind_eq_ok hbracketed
  dsimp only at hbracketed
  split_ifs at hbracketed with hempty
  · cases hbracketed
  · cases hbracketed
    refine ⟨?_, entries_yields h _ _ _ _ hfound⟩
    rintro rfl
    exact hempty rfl

end

/-! ## Names -/

lemma nameRest_cons (c : Char) (cs : List Char) : (nameRest (c :: cs)).1 =
    if isNameChar c || (c == '.' && (cs.head?.map isNameStart).getD false) then
      c :: (nameRest cs).1
    else [] := by
  rw [nameRest]
  split_ifs <;> rfl

/-- A name is made of letters and, after points, further parts.  The letters are a part themselves if
the name starts as one. -/
lemma nameRest_dotted (cs : List Char) : ∃ (letters : List Char) (others : List (List Char)),
    (nameRest cs).1 = letters ++ others.flatMap ('.' :: ·) ∧
      (∀ x ∈ letters, isNameChar x = true) ∧ (∀ s ∈ others, IsSegment s) ∧
      ((cs.head?.map isNameStart).getD false = true → IsSegment letters) := by
  induction cs with
  | nil => exact ⟨[], [], rfl, by simp, by simp, by simp⟩
  | cons c cs ih =>
    obtain ⟨letters, others, hname, hletters, hothers, hstart⟩ := ih
    rw [nameRest_cons, hname]
    by_cases hc : isNameChar c = true
    · rw [hc, Bool.true_or, if_pos rfl]
      exact ⟨c :: letters, others, rfl, List.forall_mem_cons.mpr ⟨hc, hletters⟩, hothers,
        fun h => ⟨c, letters, rfl, h, hletters⟩⟩
    · have hnot : ((c :: cs).head?.map isNameStart).getD false = true → False :=
        fun h => hc (isNameChar_of_start h)
      rw [Bool.not_eq_true] at hc
      rw [hc, Bool.false_or]
      split_ifs with hpoint
      · -- a point opens a part, which the letters after it are
        obtain ⟨hdot, hpart⟩ := Bool.and_eq_true_iff.mp hpoint
        refine ⟨[], letters :: others, ?_, by simp,
          List.forall_mem_cons.mpr ⟨hstart hpart, hothers⟩, fun h => (hnot h).elim⟩
        rw [beq_iff_eq.mp hdot]
        rfl
      · exact ⟨[], [], rfl, by simp, by simp, fun h => (hnot h).elim⟩

/-- What is read where a name may start is a dotted name. -/
lemma isDotted_nameRest {c : Char} (h : isNameStart c = true) (cs : List Char) :
    IsDotted (String.ofList (nameRest (c :: cs)).1) := by
  obtain ⟨letters, others, hname, -, hothers, hstart⟩ := nameRest_dotted (c :: cs)
  exact ⟨letters, others, hstart h, hothers, String.toList_ofList.trans hname⟩

/-! ## Expressions -/

/-- A minus sign changes numbers and stands before everything else. -/
lemma Shaped.negated (h : Shaped tree) : Shaped (negated tree) := by
  cases hnumber : isNumber tree with
  | false =>
    rw [negated_of_not_number hnumber]
    exact .neg hnumber h
  | true =>
    cases h with
    | int hn => exact .int hn.neg
    | double hx => exact .double (isDefined_neg hx)
    | _ => cases hnumber

/-- **What the readers of expressions return has its shape**, with so many calls. -/
structure Shapes (fuel : Nat) : Prop where
  expression : ∀ {level cs tree rest}, expression fuel level cs = .ok (tree, rest) → Shaped tree
  chain : ∀ {level operand left cs tree rest}, Shaped left →
    chain fuel level operand left cs = .ok (tree, rest) → Shaped tree
  atom : ∀ {cs tree rest}, atom fuel cs = .ok (tree, rest) → Shaped tree
  named : ∀ {name cs tree rest}, IsDotted name → named fuel name cs = .ok (tree, rest) → Shaped tree
  arguments : ∀ {cs trees rest}, arguments fuel cs = .ok (trees, rest) → ∀ t ∈ trees, Shaped t

namespace Shapes

lemma chained (h : Shapes fuel) (hlevel : level.isChain = true)
    (hread : Expression.expression (fuel + 1) level cs = .ok (tree, rest)) : Shaped tree := by
  rw [expression_chain hlevel] at hread
  obtain ⟨⟨left, rest₁⟩, hleft, hrest⟩ := bind_eq_ok hread
  exact h.chain (h.expression hleft) hrest

/-- Levels with at most one operator between two operands. -/
lemma single {left right : Level} (h : Shapes fuel)
    (hread : (do
      let (left, rest) ← Expression.expression fuel left cs
      match operator? level rest with
      | none => return (left, rest)
      | some (op, rest) =>
        let (right, rest) ← Expression.expression fuel right rest
        return (.binary op left right, rest)) = Except.ok (tree, rest)) : Shaped tree := by
  obtain ⟨⟨first, rest₁⟩, hfirst, hread⟩ := bind_eq_ok hread
  dsimp only at hread
  split at hread
  · cases hread
    exact h.expression hfirst
  next op rest₂ _ =>
    obtain ⟨⟨second, rest₃⟩, hsecond, hread⟩ := bind_eq_ok hread
    cases hread
    exact .binary op (h.expression hfirst) (h.expression hsecond)

/-- Levels with at most one operator in front of an operand of the level. -/
lemma marked {tighter : Level} {mark? : Option (List Char)} {build : Tree → Tree} (h : Shapes fuel)
    (hbuild : ∀ {operand}, Shaped operand → Shaped (build operand))
    (hread : (match mark? with
      | some rest => do
        let (operand, rest) ← Expression.expression fuel level rest
        return (build operand, rest)
      | none => Expression.expression fuel tighter cs) = Except.ok (tree, rest)) : Shaped tree := by
  cases mark? with
  | some rest₁ =>
    obtain ⟨⟨operand, rest₂⟩, hoperand, hread⟩ := bind_eq_ok hread
    cases hread
    exact hbuild (h.expression hoperand)
  | none => exact h.expression hread

lemma choice (h : Shapes fuel)
    (hread : Expression.expression (fuel + 1) .choice cs = .ok (tree, rest)) : Shaped tree := by
  rw [Expression.expression] at hread
  obtain ⟨⟨condition, rest₁⟩, hcondition, hread⟩ := bind_eq_ok hread
  dsimp only at hread
  split at hread
  · cases hread
    exact h.expression hcondition
  · obtain ⟨⟨yes, rest₂⟩, hyes, hread⟩ := bind_eq_ok hread
    obtain ⟨rest₃, -, hread⟩ := bind_eq_ok hread
    obtain ⟨⟨no, rest₄⟩, hno, hread⟩ := bind_eq_ok hread
    cases hread
    exact .conditional (h.expression hcondition) (h.expression hyes) (h.expression hno)

lemma succ_expression (h : Shapes fuel)
    (hread : Expression.expression (fuel + 1) level cs = .ok (tree, rest)) : Shaped tree := by
  cases level with
  | choice => exact h.choice hread
  | disjunction => exact h.chained rfl hread
  | conjunction => exact h.chained rfl hread
  | sum => exact h.chained rfl hread
  | product => exact h.chained rfl hread
  | negation =>
    rw [Expression.expression] at hread
    exact h.marked .not hread
  | comparison =>
    rw [Expression.expression] at hread
    exact h.single hread
  | power =>
    rw [Expression.expression] at hread
    exact h.single hread
  | sign =>
    rw [Expression.expression] at hread
    exact h.marked Shaped.negated hread
  | atom => exact h.atom hread

lemma succ_chain (h : Shapes fuel) (hleft : Shaped left)
    (hread : Expression.chain (fuel + 1) level operand left cs = .ok (tree, rest)) :
    Shaped tree := by
  rw [Expression.chain] at hread
  split at hread
  · cases hread
    exact hleft
  next op rest₁ _ =>
    obtain ⟨⟨right, rest₂⟩, hright, hread⟩ := bind_eq_ok hread
    exact h.chain (.binary op hleft (h.expression hright)) hread

lemma succ_atom (h : Shapes fuel) (hread : Expression.atom (fuel + 1) cs = .ok (tree, rest)) :
    Shaped tree := by
  cases cs with
  | nil => cases hread
  | cons c cs =>
    rw [Expression.atom] at hread
    split_ifs at hread with hparenthesis hquote hdigit hstart
    · obtain ⟨⟨inner, rest₁⟩, hinner, hread⟩ := bind_eq_ok hread
      obtain ⟨rest₂, -, hread⟩ := bind_eq_ok hread
      cases hread
      exact h.expression hinner
    · obtain ⟨⟨text, rest₁⟩, -, hread⟩ := bind_eq_ok hread
      cases hread
      exact .enum text
    · obtain ⟨⟨value, rest₁⟩, hnumber, hread⟩ := bind_eq_ok hread
      cases hread
      exact (number_yields _ _ _ hnumber).signed.shaped
    · exact h.named (isDotted_nameRest hstart cs) hread
    · cases hread

/-- A name that announces nothing else is free. -/
lemma isFree_of_not (dotted : IsDotted name) (htrue : name ≠ "true") (hfalse : name ≠ "false")
    (keyword : ¬ isKeyword name = true) (hpmf : pmfKind? name = none) (hpdf : name ≠ "DoublePDF") :
    IsFree name := by
  refine ⟨dotted, fun hmem => ?_, fun hmem => ?_⟩
  · simp only [keywords, List.mem_cons, List.not_mem_nil, or_false] at hmem
    rcases hmem with rfl | rfl | rfl | rfl | rfl | rfl
    · exact keyword rfl
    · exact keyword rfl
    · exact keyword rfl
    · exact keyword rfl
    · exact htrue rfl
    · exact hfalse rfl
  · simp only [distributions, List.mem_cons, List.not_mem_nil, or_false] at hmem
    rcases hmem with rfl | rfl | rfl | rfl | rfl
    · cases hpmf
    · cases hpmf
    · cases hpmf
    · cases hpmf
    · exact hpdf rfl

lemma succ_named (h : Shapes fuel) (dotted : IsDotted name)
    (hread : Expression.named (fuel + 1) name cs = .ok (tree, rest)) : Shaped tree := by
  rw [Expression.named] at hread
  by_cases htrue : name = "true"
  · rw [if_pos htrue] at hread
    cases hread
    exact .bool true
  rw [if_neg htrue] at hread
  by_cases hfalse : name = "false"
  · rw [if_pos hfalse] at hread
    cases hread
    exact .bool false
  rw [if_neg hfalse] at hread
  by_cases hkeyword : isKeyword name = true
  · rw [if_pos hkeyword] at hread
    cases hread
  rw [if_neg hkeyword] at hread
  cases hkind : pmfKind? name with
  | some kind =>
    rw [hkind] at hread
    obtain ⟨⟨samples, rest₁⟩, hsamples, hread⟩ := bind_eq_ok hread
    cases hread
    obtain ⟨hne, hall⟩ := bracketed_yields (sample_yields kind) _ _ _ _ hsamples
    exact .pmf hne hall
  | none =>
    rw [hkind] at hread
    dsimp only at hread
    split_ifs at hread with hpdf
    · obtain ⟨⟨intervals, rest₁⟩, hintervals, hread⟩ := bind_eq_ok hread
      cases hread
      obtain ⟨hne, hall⟩ := bracketed_yields signedDouble_yields _ _ _ _ hintervals
      exact .pdf hne hall
    · have hfree := isFree_of_not dotted htrue hfalse hkeyword hkind hpdf
      split at hread
      · cases hread
        exact .variable hfree
      · split at hread
        · cases hread
          exact .call hfree (by simp)
        · obtain ⟨⟨arguments, rest₁⟩, harguments, hread⟩ := bind_eq_ok hread
          cases hread
          exact .call hfree (h.arguments harguments)

lemma succ_arguments (h : Shapes fuel) {trees : List Tree}
    (hread : Expression.arguments (fuel + 1) cs = .ok (trees, rest)) : ∀ t ∈ trees, Shaped t := by
  rw [Expression.arguments] at hread
  obtain ⟨⟨first, rest₁⟩, hfirst, hread⟩ := bind_eq_ok hread
  dsimp only at hread
  split at hread
  · cases hread
    exact List.forall_mem_singleton.mpr (h.expression hfirst)
  · obtain ⟨rest₂, -, hread⟩ := bind_eq_ok hread
    obtain ⟨⟨others, rest₃⟩, hothers, hread⟩ := bind_eq_ok hread
    cases hread
    exact List.forall_mem_cons.mpr ⟨h.expression hfirst, h.arguments hothers⟩

end Shapes

/-- With any number of calls, what is read has its shape. -/
theorem shapes (fuel : Nat) : Shapes fuel := by
  induction fuel with
  | zero =>
    constructor
    all_goals
      intros
      contradiction
  | succ fuel ih =>
    exact ⟨ih.succ_expression, ih.succ_chain, ih.succ_atom, ih.succ_named, ih.succ_arguments⟩

/-- A number has a negative of its own type, if it is an integer. -/
def IsNegatable : Value → Prop
  | .int n => (-n).toInt = -n.toInt
  | _ => True

lemma IsSigned.negatable {v : Value} (h : IsSigned v) : IsNegatable v := by
  cases v with
  | int n => exact toInt_neg_of_isBalanced h
  | _ => trivial

/-- **The shape of a parsed expression.**  What a text denotes is shaped.  And no minus sign, be it in
this text or in one that is rejected, changes an integer whose negative is out of range: neither the
literal that an operand amounts to, with all its own signs and parentheses, nor the number that a
signed sample, bound or probability has. -/
theorem parse_shaped {text : String} (h : parse text = .ok tree) :
    Shaped tree ∧
      (∀ fuel cs v rest, expression fuel .sign cs = .ok (.literal v, rest) → IsNegatable v) ∧
      (∀ cs v rest, number cs = .ok (v, rest) → IsNegatable v) := by
  refine ⟨?_, ?_, fun cs v rest hnumber => (number_yields _ _ _ hnumber).signed.negatable⟩
  · rw [parse] at h
    split at h
    next read hwhole =>
      cases h
      rw [whole] at hwhole
      split_ifs at hwhole
      obtain ⟨⟨result, rest⟩, hexpression, hwhole⟩ := bind_eq_ok hwhole
      dsimp only at hwhole
      split_ifs at hwhole
      cases hwhole
      exact (shapes _).expression hexpression
    · cases h
  · intro fuel cs v rest hread
    cases (shapes fuel).expression hread with
    | int hn => exact toInt_neg_of_isBalanced hn
    | double => trivial
    | bool => trivial
    | enum => trivial

/-- The least integer that has a text, behind signs and parentheses, with a signed sample and with
names that begin and end like keywords. -/
theorem parse_shaped_signs : ∃ text tree,
    text = "-(-(-9223372036854775807)) < IntPMF[(-3; 1e-9)(2; 1)] ? true.x : -a.AND(--1.5)" ∧
      parse text = .ok tree ∧ Shaped tree ∧
      (∀ fuel cs v rest, expression fuel .sign cs = .ok (.literal v, rest) → IsNegatable v) ∧
      (∀ cs v rest, number cs = .ok (v, rest) → IsNegatable v) := by
  let text := "-(-(-9223372036854775807)) < IntPMF[(-3; 1e-9)(2; 1)] ? true.x : -a.AND(--1.5)"
  have haccepted : (parse text).toOption.isSome = true := by decide +kernel
  cases hparse : parse text with
  | error e =>
    rw [hparse] at haccepted
    cases haccepted
  | ok tree => exact ⟨text, tree, rfl, hparse, parse_shaped hparse⟩

end ServiceSim.Expression
