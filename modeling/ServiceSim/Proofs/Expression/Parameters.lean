import ServiceSim.Proofs.Expression.Integers
import ServiceSim.Proofs.Number.Order

/-!
# Parameters of distributions

`Exp`, `UniDouble` and `UniInt` look at their parameters before they draw.  Parameters that make
sense are never refused, and what is refused costs nothing beyond the draws of the arguments.

The first two refuse what is out of order, though, and a NaN is in no order with anything: it is not
refused, and a number is drawn for it (`Unordered`).  `UniInt` asks for what is in order, and there is
no integer that equals a NaN.

`parameters_checked` is the result.
-/

namespace ServiceSim

open Binary64

variable {scope : Scope} {s s₁ : Source}

lemma evaluate_call_ok (function : String) {arguments : List Tree} {values : List Value}
    (h : Tree.evaluateAll scope arguments s = (.ok values, s₁)) :
    (Tree.call function arguments).evaluate scope s = Function.call function values s₁ := by
  rw [Tree.evaluate, bind_run, h]

lemma evaluate_call_error (function : String) {arguments : List Tree} {e : EvalError}
    (h : Tree.evaluateAll scope arguments s = (.error e, s₁)) :
    (Tree.call function arguments).evaluate scope s = (.error e, s₁) := by
  rw [Tree.evaluate, bind_run, h]

/-- There is a value for each argument. -/
lemma evaluateAll_length {arguments : List Tree} {values : List Value}
    (h : Tree.evaluateAll scope arguments s = (.ok values, s₁)) :
    values.length = arguments.length := by
  induction arguments generalizing values s with
  | nil =>
    rw [Tree.evaluateAll] at h
    cases h
    rfl
  | cons first rest ih =>
    rw [Tree.evaluateAll, bind_run] at h
    split at h
    next value s' _ =>
      rw [bind_run] at h
      split at h
      next others s'' hrest =>
        cases h
        rw [List.length_cons, List.length_cons, ih hrest]
      · cases h
    · cases h

namespace Function

/-- The distributions with parameters to be checked, and how many. -/
inductive IsParametric : String → Nat → Prop where
  | exponential : IsParametric "Exp" 1
  | uniformDouble : IsParametric "UniDouble" 2
  | uniformInteger : IsParametric "UniInt" 2

/-- Parameters that make sense: a positive rate, or ordered bounds. -/
inductive Sensible : String → List Value → Prop where
  | rate {rate : Value} {x : Float} : rate.toDouble? = some x → 0 < x → Sensible "Exp" [rate]
  | doubles {low high : Value} {x y : Float} : low.toDouble? = some x → high.toDouble? = some y →
      x ≤ y → Sensible "UniDouble" [low, high]
  | integers {low high : Value} {a b : Int64} : low.toInteger? = some a →
      high.toInteger? = some b → a ≤ b → Sensible "UniInt" [low, high]

/-- Parameters that are doubles, but one of them is a NaN. -/
inductive Unordered : String → List Value → Prop where
  | rate {rate : Value} {x : Float} : rate.toDouble? = some x → ¬ IsDefined x →
      Unordered "Exp" [rate]
  | doubles {low high : Value} {x y : Float} : low.toDouble? = some x → high.toDouble? = some y →
      (¬ IsDefined x ∨ ¬ IsDefined y) → Unordered "UniDouble" [low, high]

lemma isDefined_zero : IsDefined 0 := isDefined_ofNat 0

/-! ## One distribution after another -/

lemma exponential_refused {x : Float} (h : x ≤ 0) (s : Source) :
    Sampler.exponential x s = (.error (.invalidDistribution (.rate x)), s) := by
  rw [Sampler.exponential, if_pos h]
  rfl

/-- Any rate is accepted that is not known to be too small. -/
lemma exponential_accepted {x : Float} (h : ¬ x ≤ 0) (s : Source) :
    ∃ v, Sampler.exponential x s = (.ok v, s.unit.2) := by
  rw [Sampler.exponential, if_neg h]
  exact ⟨_, rfl⟩

lemma uniformDouble_refused {x y : Float} (h : y < x) (s : Source) :
    Sampler.uniformDouble x y s = (.error (.invalidDistribution (.doubleBounds x y)), s) := by
  rw [Sampler.uniformDouble, if_pos h]
  rfl

/-- Any bounds are accepted that are not known to be out of order. -/
lemma uniformDouble_accepted {x y : Float} (h : ¬ y < x) (s : Source) :
    ∃ v, Sampler.uniformDouble x y s = (.ok v, s.unit.2) := by
  rw [Sampler.uniformDouble, if_neg h]
  exact ⟨_, rfl⟩

lemma uniformInteger_refused {low high : Value}
    (h : ∀ a b, low.toInteger? = some a → high.toInteger? = some b → ¬ a ≤ b) (s : Source) :
    Sampler.uniformInteger low high s = (.error (.invalidDistribution .integerBounds), s) := by
  rw [Sampler.uniformInteger]
  cases hlow : low.toInteger? with
  | none => rfl
  | some a =>
    cases hhigh : high.toInteger? with
    | none => rfl
    | some b =>
      dsimp only
      rw [if_neg (h a b hlow hhigh)]
      rfl

lemma call_exponential {rate : Value} {x : Float} (h : rate.toDouble? = some x) :
    call "Exp" [rate] = Sampler.exponential x := by
  rw [call, numeric, h]
  rfl

lemma call_uniformDouble {low high : Value} {x y : Float} (hlow : low.toDouble? = some x)
    (hhigh : high.toDouble? = some y) :
    call "UniDouble" [low, high] = Sampler.uniformDouble x y := by
  rw [call, numerics, numeric, numeric, hlow, hhigh]
  rfl

/-- Sensible parameters are accepted. -/
lemma Sensible.accepted {function : String} {values : List Value} (h : Sensible function values)
    (s : Source) : ∃ v s', call function values s = (.ok v, s') := by
  cases h with
  | rate hrate hpos =>
    rw [call_exponential hrate]
    obtain ⟨v, hv⟩ := exponential_accepted (not_le_of_lt hpos) s
    exact ⟨v, _, hv⟩
  | doubles hlow hhigh hle =>
    rw [call_uniformDouble hlow hhigh]
    obtain ⟨v, hv⟩ := uniformDouble_accepted (not_lt_iff.mpr (.inl hle)) s
    exact ⟨v, _, hv⟩
  | integers hlow hhigh hle =>
    rw [call, Sampler.uniformInteger, hlow, hhigh]
    dsimp only
    rw [if_pos hle]
    exact ⟨_, _, rfl⟩

/-- So is a NaN, for which one number is drawn. -/
lemma Unordered.accepted {function : String} {values : List Value} (h : Unordered function values)
    (s : Source) : ∃ v, call function values s = (.ok v, s.unit.2) := by
  cases h with
  | rate hrate hnan =>
    rw [call_exponential hrate]
    exact exponential_accepted (not_le_iff.mpr (.inr (.inr hnan))) s
  | doubles hlow hhigh hnan =>
    rw [call_uniformDouble hlow hhigh]
    exact uniformDouble_accepted (not_lt_iff.mpr (.inr hnan)) s

/-- All other parameters are refused before anything is drawn. -/
lemma call_refused {function : String} {values : List Value}
    (hfunction : IsParametric function values.length) (sensible : ¬ Sensible function values)
    (unordered : ¬ Unordered function values) (s : Source) :
    ∃ e, call function values s = (.error e, s) := by
  generalize hn : values.length = n at hfunction
  cases hfunction with
  | exponential =>
    obtain ⟨rate, rfl⟩ := List.length_eq_one_iff.mp hn
    cases hrate : rate.toDouble? with
    | none =>
      rw [call, numeric, hrate]
      exact ⟨_, rfl⟩
    | some x =>
      have hle : x ≤ 0 := by
        by_contra hnot
        rcases not_le_iff.mp hnot with hpos | hzero | hnan
        · exact sensible (.rate hrate hpos)
        · exact hzero isDefined_zero
        · exact unordered (.rate hrate hnan)
      rw [call_exponential hrate, exponential_refused hle]
      exact ⟨_, rfl⟩
  | uniformDouble =>
    obtain ⟨low, high, rfl⟩ := List.length_eq_two.mp hn
    cases hlow : low.toDouble? with
    | none =>
      rw [call, numerics, numeric, hlow]
      exact ⟨_, rfl⟩
    | some x =>
      cases hhigh : high.toDouble? with
      | none =>
        rw [call, numerics, numeric, numeric, hlow, hhigh]
        exact ⟨_, rfl⟩
      | some y =>
        have hlt : y < x := by
          by_contra hnot
          rcases not_lt_iff.mp hnot with hle | hnan
          · exact sensible (.doubles hlow hhigh hle)
          · exact unordered (.doubles hlow hhigh hnan)
        rw [call_uniformDouble hlow hhigh, uniformDouble_refused hlt]
        exact ⟨_, rfl⟩
  | uniformInteger =>
    obtain ⟨low, high, rfl⟩ := List.length_eq_two.mp hn
    refine ⟨_, uniformInteger_refused (fun a b hlow hhigh hle => ?_) s⟩
    exact sensible (.integers hlow hhigh hle)

/-! ## Calls in expressions -/

/-- **Parameters are checked before anything is drawn**, if they compare.  A call fails with its
arguments.  If they have values, it returns a value for parameters that make sense and also, after
drawing a number, for doubles among which there is a NaN.  In every other case it fails, and has drawn
what its arguments have. -/
theorem parameters_checked (scope : Scope) (s : Source) {function : String}
    {arguments : List Tree} (hfunction : IsParametric function arguments.length) :
    ∃ outcome s₁, Tree.evaluateAll scope arguments s = (outcome, s₁) ∧
      (∀ e, outcome = .error e →
        (Tree.call function arguments).evaluate scope s = (.error e, s₁)) ∧
      ∀ values, outcome = .ok values →
        (Sensible function values →
          ∃ v s₂, (Tree.call function arguments).evaluate scope s = (.ok v, s₂)) ∧
        (Unordered function values →
          ∃ v, (Tree.call function arguments).evaluate scope s = (.ok v, s₁.unit.2)) ∧
        (¬ Sensible function values → ¬ Unordered function values →
          ∃ e, (Tree.call function arguments).evaluate scope s = (.error e, s₁)) := by
  obtain ⟨outcome, s₁, harguments⟩ : ∃ outcome s₁, Tree.evaluateAll scope arguments s = (outcome, s₁) :=
    ⟨_, _, rfl⟩
  refine ⟨outcome, s₁, harguments, ?_, ?_⟩
  · rintro e rfl
    exact evaluate_call_error function harguments
  · rintro values rfl
    rw [evaluate_call_ok function harguments]
    have hvalues : IsParametric function values.length := evaluateAll_length harguments ▸ hfunction
    exact ⟨fun h => h.accepted s₁, fun h => h.accepted s₁, fun hsensible hunordered =>
      call_refused hvalues hsensible hunordered s₁⟩

/-- The number `1e999` lies beyond the doubles and is read as an infinite one.  It has a NaN for its
difference with itself, and `Exp` draws a number for this rate. -/
theorem parameters_checked_notANumber :
    ∃ x, Number.unsigned? "1e999".toList = some x ∧ ∃ v,
      (Tree.call "Exp" [.binary .sub (.literal (.double x)) (.literal (.double x))]).evaluate .empty
        silent = (.ok v, silent.unit.2) := by
  obtain ⟨x, hread, hnan⟩ : ∃ x, Number.unsigned? "1e999".toList = some x ∧ (x - x).isNaN = true :=
    (Option.any_eq_true _ _).mp (by decide +kernel)
  have hfunction : IsParametric "Exp"
      [Tree.binary .sub (.literal (.double x)) (.literal (.double x))].length := .exponential
  obtain ⟨outcome, s₁, harguments, -, hvalues⟩ := parameters_checked .empty silent hfunction
  cases harguments
  have hundefined : ¬ IsDefined (x - x) := fun h => Bool.false_ne_true (h.symm.trans hnan)
  exact ⟨x, hread, (hvalues _ rfl).2.1 (.rate rfl hundefined)⟩

end Function

end ServiceSim
