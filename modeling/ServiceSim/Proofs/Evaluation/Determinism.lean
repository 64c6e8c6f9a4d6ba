import ServiceSim.Frame.Usage
import ServiceSim.Proofs.Model.References
import Mathlib.Data.List.Basic
import Mathlib.Tactic.Common

/-!
# Models without chance

An expression is deterministic if it contains no distribution: no literal of one and no call of a
function that draws.  Evaluating it in a frame whose late bindings are deterministic as well leaves
the random source alone, and its result does not depend on the source (`DrawsNothing`).  The same
goes for whatever a behavior evaluates: usages that are bound, elements that are resolved, and
guards.  A branch with probabilities is never deterministic.
-/

namespace ServiceSim

/-- A source of which nothing is asked. -/
def silent : Source := .ofWords []

/-- The computation has one result and leaves the random source alone. -/
def DrawsNothing {ε α : Type} (c : ExceptT ε (StateM Source) α) : Prop :=
  ∀ source, c source = ((c silent).1, source)

section

variable {ε α β : Type} {c : ExceptT ε (StateM Source) α} {f : α → ExceptT ε (StateM Source) β}

lemma bind_run (s : Source) : (c >>= f) s = match c s with
    | (.ok a, s) => f a s
    | (.error e, s) => (.error e, s) := by
  change (ExceptT.bind c f) s = _
  simp only [ExceptT.bind, ExceptT.mk, ExceptT.bindCont, Bind.bind, StateT.bind]
  cases c s with
  | mk r s' => cases r <;> rfl

namespace DrawsNothing

lemma pure (a : α) : DrawsNothing (Pure.pure a : ExceptT ε (StateM Source) α) := fun _ => rfl

lemma mk (r : Except ε α) : DrawsNothing (ExceptT.mk (Pure.pure r) : ExceptT ε (StateM Source) α) :=
  fun _ => rfl

lemma bind (h : DrawsNothing c) (hf : ∀ a, DrawsNothing (f a)) : DrawsNothing (c >>= f) := by
  intro s
  rw [bind_run, bind_run, h s, h silent]
  dsimp only
  cases (c silent).1 with
  | ok a => exact hf a s
  | error e => rfl

end DrawsNothing

end

/-! ## Expressions -/

/-- The functions that draw. -/
def Function.drawing : List String := ["Exp", "Norm", "Lognorm", "UniDouble", "UniInt"]

lemma Function.call_drawsNothing {function : String} (h : function ∉ Function.drawing)
    (arguments : List Value) : DrawsNothing (Function.call function arguments) := by
  simp only [Function.drawing, List.mem_cons, List.not_mem_nil, or_false, not_or] at h
  simp only [Function.call]
  split
  all_goals first | exact fun _ => rfl | simp at h

mutual

/-- Whether an expression contains no distribution. -/
def Tree.isDeterministic : Tree → Bool
  | .literal _ => true
  | .variable _ => true
  | .unary _ operand => operand.isDeterministic
  | .binary _ left right => left.isDeterministic && right.isDeterministic
  | .conditional condition yes no =>
    condition.isDeterministic && yes.isDeterministic && no.isDeterministic
  | .call function arguments =>
    !Function.drawing.contains function && Tree.areDeterministic arguments
  | .pmf _ _ => false
  | .pdf _ => false

/-- Whether none of several expressions contains a distribution. -/
def Tree.areDeterministic : List Tree → Bool
  | [] => true
  | first :: rest => first.isDeterministic && Tree.areDeterministic rest

end

/-- A scope of which no variable draws. -/
def Scope.Deterministic (scope : Scope) : Prop :=
  ∀ name value, scope name = some value → DrawsNothing value

mutual

lemma Tree.evaluate_drawsNothing {scope : Scope} (hscope : scope.Deterministic) :
    ∀ t : Tree, t.isDeterministic = true → DrawsNothing (t.evaluate scope)
  | .literal value, _ => by
    rw [Tree.evaluate]
    exact .pure value
  | .variable name, _ => by
    rw [Tree.evaluate]
    cases hname : scope name with
    | none => exact .mk _
    | some value => exact hscope name value hname
  | .unary op operand, h => by
    rw [Tree.isDeterministic] at h
    rw [Tree.evaluate]
    exact (Tree.evaluate_drawsNothing hscope operand h).bind fun _ => .mk _
  | .binary op left right, h => by
    rw [Tree.isDeterministic, Bool.and_eq_true] at h
    have hleft := Tree.evaluate_drawsNothing hscope left h.1
    have hright := Tree.evaluate_drawsNothing hscope right h.2
    cases op
    case and =>
      simp only [Tree.evaluate]
      refine hleft.bind fun l => DrawsNothing.bind (.mk _) fun holds => ?_
      cases holds with
      | true => exact hright.bind fun r => DrawsNothing.bind (.mk _) fun _ => .pure _
      | false => exact .pure _
    case or =>
      simp only [Tree.evaluate]
      refine hleft.bind fun l => DrawsNothing.bind (.mk _) fun holds => ?_
      cases holds with
      | true => exact .pure _
      | false => exact hright.bind fun r => DrawsNothing.bind (.mk _) fun _ => .pure _
    all_goals
      simp only [Tree.evaluate]
      exact hleft.bind fun l => hright.bind fun r => .mk _
  | .conditional condition yes no, h => by
    rw [Tree.isDeterministic, Bool.and_eq_true, Bool.and_eq_true] at h
    simp only [Tree.evaluate]
    refine (Tree.evaluate_drawsNothing hscope condition h.1.1).bind fun c =>
      DrawsNothing.bind (.mk _) fun holds => ?_
    cases holds with
    | true => exact Tree.evaluate_drawsNothing hscope yes h.1.2
    | false => exact Tree.evaluate_drawsNothing hscope no h.2
  | .call function arguments, h => by
    rw [Tree.isDeterministic, Bool.and_eq_true] at h
    rw [Tree.evaluate]
    refine (Tree.evaluateAll_drawsNothing hscope arguments h.2).bind fun values => ?_
    exact Function.call_drawsNothing (by simpa using h.1) values
  | .pmf _ _, h => by
    rw [Tree.isDeterministic] at h
    cases h
  | .pdf _, h => by
    rw [Tree.isDeterministic] at h
    cases h

lemma Tree.evaluateAll_drawsNothing {scope : Scope} (hscope : scope.Deterministic) :
    ∀ ts : List Tree, Tree.areDeterministic ts = true → DrawsNothing (Tree.evaluateAll scope ts)
  | [], _ => by
    rw [Tree.evaluateAll]
    exact .pure _
  | first :: rest, h => by
    rw [Tree.areDeterministic, Bool.and_eq_true] at h
    rw [Tree.evaluateAll]
    exact (Tree.evaluate_drawsNothing hscope first h.1).bind fun value =>
      (Tree.evaluateAll_drawsNothing hscope rest h.2).bind fun values => .pure _

end

namespace Specification

/-- Whether a specification contains no distribution. -/
def isDeterministic (s : Specification) : Bool := s.tree.isDeterministic

variable {s : Specification} {scope : Scope}

lemma evaluate_drawsNothing (hscope : scope.Deterministic) (h : s.isDeterministic = true)
    (expected : ExpectedType) : DrawsNothing (s.evaluate scope expected) :=
  (Tree.evaluate_drawsNothing hscope s.tree h).bind fun _ => .mk _

lemma evaluateDouble_drawsNothing (hscope : scope.Deterministic) (h : s.isDeterministic = true) :
    DrawsNothing (s.evaluateDouble scope) :=
  (Tree.evaluate_drawsNothing hscope s.tree h).bind fun _ => .mk _

lemma evaluateInteger_drawsNothing (hscope : scope.Deterministic) (h : s.isDeterministic = true) :
    DrawsNothing (s.evaluateInteger scope) :=
  (Tree.evaluate_drawsNothing hscope s.tree h).bind fun _ => .mk _

lemma evaluateBool_drawsNothing (hscope : scope.Deterministic) (h : s.isDeterministic = true) :
    DrawsNothing (s.evaluateBool scope) :=
  (Tree.evaluate_drawsNothing hscope s.tree h).bind fun _ => .mk _

end Specification

/-! ## Transitions -/

/-- Whether a condition is a guard without a distribution. -/
def TransitionCondition.isDeterministic : TransitionCondition → Bool
  | guard specification => specification.isDeterministic
  | probability _ => false

lemma Transition.firstGuard_drawsNothing {α : Type} {scope : Scope}
    (hscope : scope.Deterministic) (transitions : List (TransitionCondition × α))
    (h : ∀ t ∈ transitions, t.1.isDeterministic = true) :
    DrawsNothing (Transition.firstGuard scope transitions) := by
  induction transitions with
  | nil => exact .pure _
  | cons t rest ih =>
    obtain ⟨condition, target⟩ := t
    have ht : condition.isDeterministic = true := h _ List.mem_cons_self
    have hrest := ih fun t ht => h t (List.mem_cons_of_mem _ ht)
    cases condition with
    | probability p => cases ht
    | guard specification =>
      have hguard := Specification.evaluateBool_drawsNothing hscope ht
      rw [Transition.firstGuard]
      refine DrawsNothing.bind ?_ fun holds => ?_
      · intro s
        simp only [ExceptT.mk, ExceptT.run, Bind.bind, StateT.bind]
        rw [hguard s, hguard silent]
        cases (specification.evaluateBool scope silent).1 <;> rfl
      · cases holds with
        | true => exact .pure _
        | false => exact hrest

/-- Choosing among guards draws nothing. -/
lemma Transition.choose_drawsNothing {α : Type} {scope : Scope} (hscope : scope.Deterministic)
    (tolerance : Float) (branch : ActionId) (transitions : List (TransitionCondition × α))
    (h : ∀ t ∈ transitions, t.1.isDeterministic = true) :
    DrawsNothing (Transition.choose tolerance branch transitions scope) := by
  cases transitions with
  | nil => exact .pure _
  | cons t rest =>
    obtain ⟨condition, target⟩ := t
    have ht : condition.isDeterministic = true := h _ List.mem_cons_self
    have hguard : condition.isGuard = true := by
      cases condition with
      | guard specification => rfl
      | probability p => cases ht
    simp only [Transition.choose]
    split_ifs
    · exact .mk _
    · exact Transition.firstGuard_drawsNothing hscope _ h

namespace Transition

variable {α : Type} {scope : Scope} {tolerance : Float} {branch : ActionId}
  {transitions : List (TransitionCondition × α)} {target : α} {s : Source}

lemma firstGuard_mem (h : (firstGuard scope transitions s).1 = .ok (some target)) :
    ∃ t ∈ transitions, t.2 = target := by
  induction transitions generalizing s with
  | nil => cases h
  | cons t rest ih =>
    obtain ⟨condition, found⟩ := t
    cases condition with
    | probability p =>
      obtain ⟨t, ht, htarget⟩ := ih h
      exact ⟨t, List.mem_cons_of_mem _ ht, htarget⟩
    | guard specification =>
      rw [firstGuard, bind_run] at h
      split at h
      next holds s' _ =>
        cases holds with
        | true =>
          injection h with h
          injection h with h
          exact ⟨_, List.mem_cons_self, h⟩
        | false =>
          obtain ⟨t, ht, htarget⟩ := ih h
          exact ⟨t, List.mem_cons_of_mem _ ht, htarget⟩
      · cases h

/-- Weights are given to targets. -/
lemma weights_mem {items : List (α × Float)} (h : weights transitions = .ok items) :
    ∀ item ∈ items, ∃ t ∈ transitions, t.2 = item.1 := by
  induction transitions generalizing items with
  | nil =>
    injection h with h
    simp [← h]
  | cons t rest ih =>
    obtain ⟨condition, found⟩ := t
    cases condition with
    | guard specification =>
      intro item hitem
      obtain ⟨t, ht, htarget⟩ := ih h item hitem
      exact ⟨t, List.mem_cons_of_mem _ ht, htarget⟩
    | probability p =>
      rw [weights] at h
      split_ifs at h
      cases hrest : weights rest with
      | error fault =>
        rw [hrest] at h
        cases h
      | ok others =>
        rw [hrest] at h
        injection h with h
        subst h
        intro item hitem
        rcases List.mem_cons.mp hitem with rfl | hitem
        · exact ⟨_, List.mem_cons_self, rfl⟩
        · obtain ⟨t, ht, htarget⟩ := ih hrest item hitem
          exact ⟨t, List.mem_cons_of_mem _ ht, htarget⟩

lemma pick_mem {items : List (α × Float)} {x sum : Float}
    (h : Sampler.pick x items sum = some target) : ∃ item ∈ items, item.1 = target := by
  induction items generalizing sum with
  | nil => cases h
  | cons item rest ih =>
    rw [Sampler.pick] at h
    split_ifs at h
    · injection h with h
      exact ⟨item, List.mem_cons_self, h⟩
    · obtain ⟨other, hmem, htarget⟩ := ih h
      exact ⟨other, List.mem_cons_of_mem _ hmem, htarget⟩

/-- What a draw selects is one of the items. -/
lemma weighted_mem {items : List (α × Float)} {x : Float}
    (h : Sampler.weighted items x = some target) : ∃ item ∈ items, item.1 = target := by
  rw [Sampler.weighted] at h
  split at h
  next hpick =>
    injection h with h
    exact h ▸ pick_mem hpick
  · rw [Sampler.lastPositive, Option.map_eq_some_iff] at h
    obtain ⟨item, hfind, htarget⟩ := h
    exact ⟨item, List.mem_reverse.mp (List.mem_of_find?_eq_some hfind), htarget⟩

lemma draw_mem (h : (draw tolerance branch transitions s).1 = .ok (some target)) :
    ∃ t ∈ transitions, t.2 = target := by
  rw [draw] at h
  cases hweights : weights transitions with
  | error fault =>
    rw [hweights] at h
    cases h
  | ok items =>
    rw [hweights] at h
    dsimp only at h
    split_ifs at h
    · cases h
    · rw [bind_run] at h
      injection h with h
      obtain ⟨item, hitem, rfl⟩ := weighted_mem h
      exact weights_mem hweights item hitem

/-- What is chosen is the target of one of the transitions. -/
lemma choose_mem (h : (choose tolerance branch transitions scope s).1 = .ok (some target)) :
    ∃ t ∈ transitions, t.2 = target := by
  unfold choose at h
  split at h
  · cases h
  next first rest =>
    split_ifs at h
    · cases h
    · exact firstGuard_mem h
    · exact draw_mem h

end Transition

/-! ## Behaviors -/

/-- Whether the characterisations of a usage contain no distribution. -/
def VariableUsage.isDeterministic (u : VariableUsage) : Bool :=
  u.characterisations.all (·.specification.isDeterministic)

/-- Whether none of several usages contains a distribution. -/
def VariableUsage.areDeterministic (usages : List VariableUsage) : Bool :=
  usages.all VariableUsage.isDeterministic

/-- Whether the specification of a demand contains no distribution. -/
def ResourceDemand.isDeterministic (demand : ResourceDemand) : Bool :=
  demand.specification.isDeterministic

/-- Whether what is passed to a call and returned from it contains no distribution. -/
def ExternalCall.isDeterministic (call : ExternalCall) : Bool :=
  VariableUsage.areDeterministic call.inputs && VariableUsage.areDeterministic call.returns

mutual

/-- Whether an action leaves nothing to chance. -/
def ActionKind.isDeterministic : ActionKind → Bool
  | .start => true
  | .stop => true
  | .internal demands => demands.all ResourceDemand.isDeterministic
  | .externalCall call => call.isDeterministic
  | .branch transitions => BranchTransition.areDeterministic transitions
  | .loop iterations body => iterations.isDeterministic && body.isDeterministic
  | .collectionIterator _ body => body.isDeterministic
  | .setVariable usages => VariableUsage.areDeterministic usages
  | .fork asynchronous synchronous =>
    Behavior.areDeterministic asynchronous && Behavior.areDeterministic synchronous

/-- Whether an action leaves nothing to chance. -/
def Action.isDeterministic : Action → Bool
  | ⟨_, _, _, kind⟩ => kind.isDeterministic

/-- Whether none of several actions leaves anything to chance. -/
def Action.areDeterministic : List Action → Bool
  | [] => true
  | first :: rest => first.isDeterministic && Action.areDeterministic rest

/-- Whether a transition leaves nothing to chance. -/
def BranchTransition.isDeterministic : BranchTransition → Bool
  | ⟨condition, behavior⟩ => condition.isDeterministic && behavior.isDeterministic

/-- Whether none of several transitions leaves anything to chance. -/
def BranchTransition.areDeterministic : List BranchTransition → Bool
  | [] => true
  | first :: rest => first.isDeterministic && BranchTransition.areDeterministic rest

/-- Whether a behavior leaves nothing to chance. -/
def Behavior.isDeterministic : Behavior → Bool
  | ⟨_, actions⟩ => Action.areDeterministic actions

/-- Whether none of several behaviors leaves anything to chance. -/
def Behavior.areDeterministic : List Behavior → Bool
  | [] => true
  | first :: rest => first.isDeterministic && Behavior.areDeterministic rest

end

lemma Action.areDeterministic_iff (actions : List Action) :
    Action.areDeterministic actions = true ↔ ∀ a ∈ actions, a.isDeterministic = true := by
  induction actions with
  | nil => simp [Action.areDeterministic]
  | cons first rest ih => simp [Action.areDeterministic, ih]

lemma BranchTransition.areDeterministic_iff (transitions : List BranchTransition) :
    BranchTransition.areDeterministic transitions = true ↔
      ∀ t ∈ transitions, t.condition.isDeterministic = true ∧ t.behavior.isDeterministic = true := by
  induction transitions with
  | nil => simp [BranchTransition.areDeterministic]
  | cons first rest ih =>
    obtain ⟨condition, behavior⟩ := first
    simp [BranchTransition.areDeterministic, BranchTransition.isDeterministic, ih]

lemma Behavior.areDeterministic_iff (behaviors : List Behavior) :
    Behavior.areDeterministic behaviors = true ↔ ∀ b ∈ behaviors, b.isDeterministic = true := by
  induction behaviors with
  | nil => simp [Behavior.areDeterministic]
  | cons first rest ih => simp [Behavior.areDeterministic, ih]

/-- Following successors meets only actions of the behavior. -/
lemma Behavior.mem_of_mem_chainFrom {b : Behavior} {bound : Nat} {next : Option Action}
    (hnext : ∀ a ∈ next, a ∈ b.actions) {a : Action} (h : a ∈ b.chainFrom bound next) :
    a ∈ b.actions := by
  induction bound generalizing next with
  | zero => simp [Behavior.chainFrom] at h
  | succ bound ih =>
    cases next with
    | none => simp [Behavior.chainFrom] at h
    | some first =>
      rw [Behavior.chainFrom] at h
      rcases List.mem_cons.mp h with rfl | h
      · exact hnext _ rfl
      · refine ih (fun a' ha' => ?_) h
        rw [Behavior.successor?] at ha'
        obtain ⟨id, -, hid⟩ := Option.bind_eq_some_iff.mp ha'
        exact List.mem_of_find?_eq_some hid

/-- Following the chain of a behavior meets only its actions. -/
lemma Behavior.mem_of_mem_chain {b : Behavior} {a : Action} (h : a ∈ b.chain) : a ∈ b.actions :=
  mem_of_mem_chainFrom (fun _ ha => List.mem_of_find?_eq_some ha) h

lemma Behavior.chain_deterministic {b : Behavior} (h : b.isDeterministic = true) :
    ∀ a ∈ b.chain, a.isDeterministic = true := by
  obtain ⟨name, actions⟩ := b
  rw [Behavior.isDeterministic, Action.areDeterministic_iff] at h
  exact fun a ha => h a (Behavior.mem_of_mem_chain ha)

/-- Whether none of the services of a model leaves anything to chance. -/
def SystemModel.isDeterministic (m : SystemModel) : Bool :=
  m.components.all fun component => component.services.all fun service =>
    service.behavior.isDeterministic

/-- What a context provides is a service of a component of the model. -/
lemma Deployment.providedService_mem {d : Deployment} {context : ContextId} {service : String}
    {behavior : Behavior} (hprovided : d.providedService context service = .ok behavior) :
    ∃ component ∈ d.model.components, ∃ effect ∈ component.services,
      effect.service = service ∧ effect.behavior = behavior := by
  obtain ⟨_, component, effect, -, hcomponent, hfind, hbehavior⟩ :=
    providedService_ok_iff.mp hprovided
  exact ⟨component, (component_ok hcomponent).1, effect, List.mem_of_find?_eq_some hfind,
    by simpa using List.find?_some hfind, hbehavior⟩

/-- A service of a model without chance leaves nothing to chance. -/
lemma Deployment.providedService_deterministic {d : Deployment}
    (h : d.model.isDeterministic = true) {context : ContextId} {service : String}
    {behavior : Behavior} (hprovided : d.providedService context service = .ok behavior) :
    behavior.isDeterministic = true := by
  obtain ⟨component, hmem, effect, heffect, -, rfl⟩ := providedService_mem hprovided
  rw [SystemModel.isDeterministic, List.all_eq_true] at h
  exact List.all_eq_true.mp (h component hmem) effect heffect

/-- So does the behavior that a call reaches. -/
lemma Deployment.resolveCall_deterministic {d : Deployment}
    (h : d.model.isDeterministic = true) {caller context : ContextId} {role service : String}
    {behavior : Behavior} (hresolved : d.resolveCall caller role service = .ok (context, behavior)) :
    behavior.isDeterministic = true :=
  providedService_deterministic h (resolveCall_ok hresolved).1

end ServiceSim
