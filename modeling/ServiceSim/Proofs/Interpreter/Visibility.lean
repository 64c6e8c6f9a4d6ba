import ServiceSim.Proofs.Interpreter.Likeness

/-!
# What a behavior sees

Two activities that are alike take steps that are alike (`advance_alike`): each task reads its stack
through the top frame alone, and what it reads there is what the frame shows.  A frame that a step
pushes shows the same in both activities, and so does a result that it writes into a frame.

The kernel never looks at frames either, so two kernels that differ in the frames of one process stay
alike throughout their runs.  `interpretation_sees_top` draws the conclusion: a behavior sees nothing
but what the top frame shows.
-/

namespace ServiceSim.Activity

/-- Two activities do the same in a step: they go on in the same way, or their interpretations end
alike. -/
inductive Progress.Alike : Progress → Progress → Prop
  | goes {t₁ t₂ : Turn Environment Activity} :
      t₁.Related Environment.Alike Activity.Alike t₂ → Alike (.goes t₁) (.goes t₂)
  | ends {env₁ env₂ : Environment} {c₁ c₂ : Completion} :
      env₁.Alike env₂ → c₁.Alike c₂ → Alike (.ends env₁ c₁) (.ends env₂ c₂)

variable {a₁ a₂ : Activity} {env₁ env₂ : Environment} {now : SimTime} {id : ProcessId}
  {d : Deployment}

namespace InStep

lemma before (h : a₁.InStep a₂) {task : Task} (isPlain : task.isPlain = true) :
    (a₁.before task).InStep (a₂.before task) :=
  { h with aligned := .plain isPlain h.aligned }

lemma walking (h : a₁.InStep a₂) (behavior : Behavior) :
    (a₁.walking behavior).InStep (a₂.walking behavior) :=
  { h with aligned := .walk behavior behavior.chain rfl rfl h.aligned }

/-- The current frames show the same. -/
lemma current (h : a₁.InStep a₂) :
    ∃ f g, a₁.stack.current = .ok f ∧ a₂.stack.current = .ok g ∧ f.Twins g := by
  obtain ⟨f, g, fs, gs, hf, hg, twins⟩ := h.aligned.tops
  refine ⟨f, g, ?_, ?_, twins⟩
  · rw [VariableStack.current, hf]
  · rw [VariableStack.current, hg]

lemma topsAgree (h : a₁.InStep a₂) : a₁.stack.TopsAgree a₂.stack := by
  obtain ⟨f, g, fs, gs, hf, hg, twins⟩ := h.aligned.tops
  have hagree : VariableStack.TopsAgree ⟨f :: fs⟩ ⟨g :: gs⟩ := .frames twins.agrees
  rw [← hf, ← hg] at hagree
  exact hagree

lemma context (h : a₁.InStep a₂) : a₁.context = a₂.context := by
  rw [Activity.context, Activity.context, h.contexts]

end InStep

/-! ## Ends and ways to go on -/

/-- Errors end interpretations alike if the calls that are under way are left alike. -/
lemma abort_alike_of (contexts : a₁.contexts = a₂.contexts)
    (unwinds : ∀ contexts e, unwind a₁.tasks contexts e = unwind a₂.tasks contexts e)
    (tops : a₁.stack.TopsAgree a₂.stack) (henv : env₁.Alike env₂) (e : InterpreterError) :
    (a₁.abort now env₁ e).Alike (a₂.abort now env₂ e) := by
  rw [abort, abort, unwinds, contexts]
  exact .ends henv ⟨rfl, .error _, tops, rfl⟩

lemma abort_alike (h : a₁.InStep a₂) (henv : env₁.Alike env₂) (e : InterpreterError) :
    (a₁.abort now env₁ e).Alike (a₂.abort now env₂ e) :=
  abort_alike_of h.contexts h.aligned.unwind h.topsAgree henv e

lemma goOn_alike (h : a₁.InStep a₂) (henv : env₁.Alike env₂) :
    (a₁.goOn env₁).Alike (a₂.goOn env₂) :=
  .goes ⟨henv, rfl, .nil, .proceed (.inl h)⟩

lemma goOnUnless_alike (h : a₁.InStep a₂) (henv : env₁.Alike env₂) (failure : Option EvalError) :
    (a₁.goOnUnless now env₁ failure).Alike (a₂.goOnUnless now env₂ failure) := by
  cases failure with
  | none => exact goOn_alike h henv
  | some e => exact abort_alike h henv _

/-! ## Demands -/

lemma startService_alike (h : a₁.InStep a₂) (henv : env₁.Alike env₂) (load : Load) :
    (a₁.startService now env₁ load).Alike (a₂.startService now env₂ load) := by
  rw [startService, startService, h.name]
  exact .goes ⟨henv.note _, rfl, .nil, .hold _ (.inl (h.before rfl))⟩

lemma demand_alike (h : a₁.InStep a₂) (henv : env₁.Alike env₂) (action : Action)
    (container : ContainerId) (resource : String) (amount : Float) :
    (a₁.demand now id env₁ action container resource amount).Alike
      (a₂.demand now id env₂ action container resource amount) := by
  have hnoted := (henv.note (.demandIssued action amount resource container)).enter
    (.issued a₂.name container resource amount now)
  rw [demand, demand, h.name]
  generalize (env₁.note (.demandIssued action amount resource container)).enter
    (.issued a₂.name container resource amount now) = noted₁ at hnoted ⊢
  generalize (env₂.note (.demandIssued action amount resource container)).enter
    (.issued a₂.name container resource amount now) = noted₂ at hnoted ⊢
  rw [hnoted.resources]
  cases noted₂.resources.issue now id container resource amount with
  | error e => exact goOn_alike h ((hnoted.enter _).note _)
  | ok issued =>
    have hloaded := hnoted.loading issued.2.2
    dsimp only
    split_ifs
    · exact startService_alike h hloaded issued.1
    · exact .goes ⟨hloaded, rfl, .nil, .block (.inl (h.before rfl))⟩

lemma issueNext_alike (h : a₁.InStep a₂) (henv : env₁.Alike env₂) (action : Action)
    (container : ContainerId) (demands : List ResourceDemand) :
    (a₁.issueNext now id env₁ action container demands).Alike
      (a₂.issueNext now id env₂ action container demands) := by
  cases demands with
  | nil => exact goOn_alike h henv
  | cons next rest =>
    obtain ⟨f, g, hf, hg, twins⟩ := h.current
    have hsample := henv.sample (next.specification.evaluateDouble g.scope)
    simp only [issueNext, hf, hg, twins.agrees.scope]
    generalize env₁.sample (next.specification.evaluateDouble g.scope) = drawn₁ at hsample ⊢
    generalize env₂.sample (next.specification.evaluateDouble g.scope) = drawn₂ at hsample ⊢
    obtain ⟨r, env₁'⟩ := drawn₁
    obtain ⟨r', env₂'⟩ := drawn₂
    obtain ⟨rfl, henv'⟩ : r = r' ∧ env₁'.Alike env₂' := hsample
    cases r with
    | error e => exact abort_alike h henv' _
    | ok amount => exact demand_alike (h.before rfl) henv' _ _ _ _

lemma completeDemand_alike (h : a₁.InStep a₂) (henv : env₁.Alike env₂) (load : Load)
    (started : SimTime) :
    (a₁.completeDemand now id env₁ load started).Alike
      (a₂.completeDemand now id env₂ load started) := by
  rw [completeDemand, completeDemand, h.name, henv.resources]
  exact .goes ⟨(henv.loading _).enter _, rfl, .nil, .proceed (.inl h)⟩

lemma beginInternal_alike (h : a₁.InStep a₂) (henv : env₁.Alike env₂) (action : Action)
    (demands : List ResourceDemand) :
    (a₁.beginInternal d now env₁ action demands).Alike
      (a₂.beginInternal d now env₂ action demands) := by
  have hcontainer : a₁.container d = a₂.container d := by
    rw [Activity.container, Activity.container, h.context]
  rw [beginInternal, beginInternal, hcontainer]
  cases a₂.container d with
  | error e => exact abort_alike h henv e
  | ok container => exact goOn_alike (h.before rfl) henv

/-! ## Calls -/

lemma startMeasuring_alike (henv : env₁.Alike env₂) (site : CallSite) :
    (startMeasuring d now id site env₁).Alike (startMeasuring d now id site env₂) := by
  rw [startMeasuring, startMeasuring]
  split_ifs
  · exact (henv.register _ _).measure _ _ _ _
  · exact henv.measure _ _ _ _

lemma stopMeasuring_alike (henv : env₁.Alike env₂) (site : CallSite) :
    (stopMeasuring d now id site env₁).Alike (stopMeasuring d now id site env₂) := by
  have hmeasured := henv.measure site.calculator.stopProbe site.label id now
  rw [stopMeasuring, stopMeasuring]
  split_ifs
  · exact hmeasured.reconfigure _
  · exact hmeasured

lemma enterCallee_alike (h : a₁.InStep a₂) (henv : env₁.Alike env₂) (site : CallSite)
    (context : ContextId) (behavior : Behavior) :
    (a₁.enterCallee now env₁ site context behavior).Alike
      (a₂.enterCallee now env₂ site context behavior) := by
  obtain ⟨f, g, hf, hg, twins⟩ := h.current
  have hbound := henv.newFrame.bind Frame.twins_kept twins.agrees site.call.inputs
    (Frame.Twins.empty env₁.frames env₂.frames)
  rw [enterCallee, enterCallee, hf, hg]
  dsimp only [Environment.newFrame] at hbound ⊢
  generalize Environment.bind _ _ f _ = bound₁ at hbound ⊢
  generalize Environment.bind _ _ g _ = bound₂ at hbound ⊢
  obtain ⟨failure, input₁, env₁'⟩ := bound₁
  obtain ⟨failure', input₂, env₂'⟩ := bound₂
  obtain ⟨rfl, hinput, henv'⟩ := hbound
  cases failure with
  | some e => exact abort_alike h henv' _
  | none =>
    refine goOn_alike { h with contexts := ?_, aligned := ?_ } (henv'.note _)
    · exact congrArg (context :: ·) h.contexts
    · exact .plain rfl (.return_ site rfl rfl hinput h.result h.aligned)

lemma beginCall_alike (h : a₁.InStep a₂) (henv : env₁.Alike env₂) (action : Action)
    (call : ExternalCall) :
    (a₁.beginCall d now id env₁ action call).Alike (a₂.beginCall d now id env₂ action call) := by
  have hcallee : a₁.callee d action call = a₂.callee d action call := by
    rw [callee, callee, h.context]
  rw [beginCall, beginCall, hcallee]
  cases a₂.callee d action call with
  | error e => exact abort_alike h henv e
  | ok reached =>
    exact enterCallee_alike h (startMeasuring_alike henv reached.1) reached.1 reached.2.1 reached.2.2

/-- Results with the same bindings are bound alike in the frames of the callers. -/
lemma bindReturns_alike (henv : env₁.Alike env₂) (returns : List VariableUsage)
    {output₁ output₂ target₁ target₂ : Frame} (houtput : output₁.SameBindings output₂)
    (htarget : target₁.Twins target₂) :
    Environment.BoundAlike Frame.Twins (bindReturns env₁ returns output₁ target₁)
      (bindReturns env₂ returns output₂ target₂) := by
  rw [bindReturns, bindReturns]
  split_ifs
  · refine ⟨rfl, ?_, henv⟩
    have hown := houtput.own
    dsimp only
    generalize output₁.own = own₁ at hown ⊢
    generalize output₂.own = own₂ at hown ⊢
    induction hown generalizing target₁ target₂ with
    | nil => exact htarget
    | @cons p q _ _ hpq _ ih =>
      rw [List.foldl_cons, List.foldl_cons]
      refine ih ?_
      rw [hpq.1]
      exact Frame.twins_kept q.1 htarget hpq.2
  · exact henv.bind Frame.twins_kept houtput.agrees returns htarget

/-- Frames that correspond to each other are both taken off. -/
lemma leaveFrame_alike {f g : Frame} (fs gs : List Frame) (left : a₁.stack.frames = f :: fs)
    (right : a₂.stack.frames = g :: gs) {go₁ go₂ : Activity → Progress}
    (hgo : (go₁ { a₁ with stack := ⟨fs⟩ }).Alike (go₂ { a₂ with stack := ⟨gs⟩ })) :
    (a₁.leaveFrame now env₁ f.identity go₁).Alike (a₂.leaveFrame now env₂ g.identity go₂) := by
  simp only [leaveFrame, VariableStack.popExpecting, left, right, if_true]
  exact hgo

lemma finishCall_alike (h : a₁.SameRole a₂) (site : CallSite) {f g r₁ r₂ : Frame}
    {fs gs : List Frame} (left : a₁.stack.frames = f :: fs) (right : a₂.stack.frames = g :: gs)
    (tops : a₁.stack.TopsAgree a₂.stack) (result : r₁.SameBindings r₂)
    (outer : Aligned a₁.tasks fs a₂.tasks gs) (henv : env₁.Alike env₂) :
    (a₁.finishCall d now id env₁ site f.identity r₁).Alike
      (a₂.finishCall d now id env₂ site g.identity r₂) := by
  rw [finishCall, finishCall]
  cases hcallers : a₂.contexts with
  | nil =>
    rw [h.contexts, hcallers]
    exact abort_alike_of h.contexts outer.unwind tops henv _
  | cons context callers =>
  obtain ⟨f', g', fs', gs', rfl, rfl, twins⟩ := outer.tops
  have hbound := bindReturns_alike henv site.call.returns h.result twins
  rw [h.contexts, hcallers]
  refine leaveFrame_alike (f' :: fs') (g' :: gs') ?_ ?_ ?_
  · exact left
  · exact right
  dsimp only [VariableStack.current, VariableStack.replaceTop] at hbound ⊢
  cases hb₁ : bindReturns env₁ site.call.returns a₁.result f' with
  | mk failure₁ bound₁ =>
    cases hb₂ : bindReturns env₂ site.call.returns a₂.result g' with
    | mk failure₂ bound₂ =>
      rw [hb₁, hb₂] at hbound
      obtain ⟨hfailure, htarget, henv'⟩ := hbound
      have hcaller : InStep
          { a₁ with contexts := callers, result := r₁, stack := ⟨bound₁.1 :: fs'⟩ }
          { a₂ with contexts := callers, result := r₂, stack := ⟨bound₂.1 :: gs'⟩ } :=
        { h with
          contexts := rfl
          result := result
          aligned := outer.replaceTop (bindReturns_identity hb₁) (bindReturns_identity hb₂)
            htarget }
      obtain rfl : failure₁ = failure₂ := hfailure
      cases failure₁ with
      | some e => exact abort_alike hcaller henv' _
      | none => exact goOn_alike hcaller (stopMeasuring_alike henv' site)

/-! ## Branches and iterations -/

lemma branch_alike (h : a₁.InStep a₂) (henv : env₁.Alike env₂) (action : Action)
    (transitions : List BranchTransition) :
    (a₁.branch now env₁ action transitions).Alike (a₂.branch now env₂ action transitions) := by
  obtain ⟨f, g, hf, hg, twins⟩ := h.current
  have hsample := henv.sample (Transition.choose Transition.defaultTolerance action.id
    (transitions.map fun t => (t.condition, t.behavior)) g.scope)
  simp only [branch, hf, hg, twins.agrees.scope]
  generalize Transition.choose Transition.defaultTolerance action.id
    (transitions.map fun t => (t.condition, t.behavior)) g.scope = choice at hsample ⊢
  generalize env₁.sample choice = drawn₁ at hsample ⊢
  generalize env₂.sample choice = drawn₂ at hsample ⊢
  obtain ⟨r, env₁'⟩ := drawn₁
  obtain ⟨r', env₂'⟩ := drawn₂
  obtain ⟨rfl, henv'⟩ : r = r' ∧ env₁'.Alike env₂' := hsample
  cases r with
  | error fault =>
    cases fault with
    | model e => exact abort_alike h henv' _
    | evaluation e => exact abort_alike h henv' _
  | ok chosen =>
    cases chosen with
    | none => exact goOn_alike h (henv'.note _)
    | some behavior => exact goOn_alike (h.walking behavior) henv'

lemma iterationCount_alike (h : a₁.InStep a₂) (henv : env₁.Alike env₂) (action : Action)
    (specification : Specification) :
    (a₁.iterationCount env₁ action specification).1 =
        (a₂.iterationCount env₂ action specification).1 ∧
      (a₁.iterationCount env₁ action specification).2.Alike
        (a₂.iterationCount env₂ action specification).2 := by
  obtain ⟨f, g, hf, hg, twins⟩ := h.current
  have hsample := henv.sample (specification.evaluateInteger g.scope)
  simp only [iterationCount, hf, hg, twins.agrees.scope]
  generalize env₁.sample (specification.evaluateInteger g.scope) = drawn₁ at hsample ⊢
  generalize env₂.sample (specification.evaluateInteger g.scope) = drawn₂ at hsample ⊢
  obtain ⟨r, env₁'⟩ := drawn₁
  obtain ⟨r', env₂'⟩ := drawn₂
  obtain ⟨rfl, henv'⟩ : r = r' ∧ env₁'.Alike env₂' := hsample
  cases r with
  | error e => exact ⟨rfl, henv'⟩
  | ok count =>
    dsimp only
    split_ifs
    · exact ⟨rfl, henv'⟩
    · exact ⟨rfl, henv'⟩

lemma beginLoop_alike (h : a₁.InStep a₂) (henv : env₁.Alike env₂) (action : Action)
    (iterations : Specification) (body : Behavior) :
    (a₁.beginLoop now env₁ action iterations body).Alike
      (a₂.beginLoop now env₂ action iterations body) := by
  have hcount := iterationCount_alike h henv action iterations
  rw [beginLoop, beginLoop]
  generalize a₁.iterationCount env₁ action iterations = counted₁ at hcount ⊢
  generalize a₂.iterationCount env₂ action iterations = counted₂ at hcount ⊢
  obtain ⟨r, env₁'⟩ := counted₁
  obtain ⟨r', env₂'⟩ := counted₂
  obtain ⟨rfl, henv'⟩ : r = r' ∧ env₁'.Alike env₂' := hcount
  cases r with
  | error e => exact abort_alike h henv' e
  | ok count => exact goOn_alike (h.before rfl) (henv'.note _)

lemma nextIteration_alike (h : a₁.InStep a₂) (henv : env₁.Alike env₂) (action : Action)
    (iteration : Nat) (body : Behavior) (remaining : Nat) :
    (a₁.nextIteration env₁ action iteration body remaining).Alike
      (a₂.nextIteration env₂ action iteration body remaining) := by
  cases remaining with
  | zero => exact goOn_alike h henv
  | succ remaining => exact goOn_alike ((h.before rfl).walking body) (henv.note _)

lemma beginIterator_alike (h : a₁.InStep a₂) (henv : env₁.Alike env₂) (action : Action)
    (parameter : String) (body : Behavior) :
    (a₁.beginIterator now env₁ action parameter body).Alike
      (a₂.beginIterator now env₂ action parameter body) := by
  have hcount := iterationCount_alike h henv action (Specification.variable_
    (parameter ++ "." ++ CharacterisationKind.numberOfElements.name))
  rw [beginIterator, beginIterator]
  generalize a₁.iterationCount env₁ action _ = counted₁ at hcount ⊢
  generalize a₂.iterationCount env₂ action _ = counted₂ at hcount ⊢
  obtain ⟨r, env₁'⟩ := counted₁
  obtain ⟨r', env₂'⟩ := counted₂
  obtain ⟨rfl, henv'⟩ : r = r' ∧ env₁'.Alike env₂' := hcount
  cases r with
  | error e => exact abort_alike h henv' e
  | ok count => exact goOn_alike (h.before rfl) (henv'.note _)

lemma nextElement_alike (h : a₁.InStep a₂) (henv : env₁.Alike env₂) (action : Action)
    (parameter : String) (body : Behavior) (remaining : Nat) :
    (a₁.nextElement now env₁ action parameter body remaining).Alike
      (a₂.nextElement now env₂ action parameter body remaining) := by
  cases remaining with
  | zero => exact goOn_alike h henv
  | succ remaining =>
    obtain ⟨f, g, hf, hg, twins⟩ := h.current
    have hresolved := henv.newFrame.resolve twins (parameter ++ ".")
      (twins.inside env₁.frames env₂.frames)
    simp only [nextElement, hf, hg]
    dsimp only [Environment.newFrame, Frame.empty] at hresolved ⊢
    generalize Environment.resolve _ f _ _ = resolved₁ at hresolved ⊢
    generalize Environment.resolve _ g _ _ = resolved₂ at hresolved ⊢
    obtain ⟨failure, element₁, env₁'⟩ := resolved₁
    obtain ⟨failure', element₂, env₂'⟩ := resolved₂
    obtain ⟨rfl, helement, henv'⟩ := hresolved
    cases failure with
    | some e => exact abort_alike h henv' _
    | none =>
      have hvisit : InStep
          { (a₁.before (.visit action parameter remaining body)).before
            (.leave element₁.identity) with stack := a₁.stack.push element₁ }
          { (a₂.before (.visit action parameter remaining body)).before
            (.leave element₂.identity) with stack := a₂.stack.push element₂ } :=
        { h with aligned := .leave rfl rfl helement (.plain rfl h.aligned) }
      exact goOn_alike (hvisit.walking body) henv'

/-! ## Variables and forks -/

lemma setVariable_alike (h : a₁.InStep a₂) (henv : env₁.Alike env₂) (usages : List VariableUsage) :
    (a₁.setVariable now env₁ usages).Alike (a₂.setVariable now env₂ usages) := by
  obtain ⟨f, g, hf, hg, twins⟩ := h.current
  have hbound := henv.bind Frame.sameBindings_kept twins.agrees usages h.result
  simp only [setVariable, hf, hg]
  generalize env₁.bind usages f a₁.result = bound₁ at hbound ⊢
  generalize env₂.bind usages g a₂.result = bound₂ at hbound ⊢
  obtain ⟨failure, result₁, env₁'⟩ := bound₁
  obtain ⟨failure', result₂, env₂'⟩ := bound₂
  obtain ⟨rfl, hresult, henv'⟩ := hbound
  have hwritten : InStep { a₁ with result := result₁ } { a₂ with result := result₂ } :=
    { h with result := hresult }
  exact goOnUnless_alike hwritten henv' failure

/-- Forked processes work on copies of the frames, so they see the same. -/
lemma forked_alike (h : a₁.InStep a₂) (label : String) (role : Role) (behavior : Behavior) :
    (a₁.forked label role behavior).Alike (a₂.forked label role behavior) := by
  obtain ⟨f, g, fs, gs, hf, hg, twins⟩ := h.aligned.tops
  refine .inl ⟨⟨congrArg (· ++ "/" ++ label) h.name, rfl, h.contexts, .refl _⟩, ?_⟩
  have haligned : Aligned [.enterFork behavior] (f :: fs) [.enterFork behavior] (g :: gs) :=
    .plain rfl (.done twins)
  rw [← hf, ← hg] at haligned
  exact haligned

lemma mapIdx_alike {α β : Type} {R : β → β → Prop} (l : List α) {f g : Nat → α → β}
    (h : ∀ i a, R (f i a) (g i a)) : List.Forall₂ R (l.mapIdx f) (l.mapIdx g) := by
  induction l generalizing f g with
  | nil => exact .nil
  | cons a rest ih =>
    rw [List.mapIdx_cons, List.mapIdx_cons]
    exact .cons (h 0 a) (ih fun i a => h (i + 1) a)

lemma children_alike (h : a₁.InStep a₂) (id : ProcessId) (asynchronous synchronous : List Behavior) :
    List.Forall₂ Activity.Alike (a₁.children id asynchronous synchronous)
      (a₂.children id asynchronous synchronous) := by
  refine List.rel_append (mapIdx_alike _ fun i b => ?_) (mapIdx_alike _ fun i b => ?_)
  · exact forked_alike h _ _ _
  · exact forked_alike h _ _ _

lemma fork_alike (h : a₁.InStep a₂) (henv : env₁.Alike env₂) (action : Action)
    (asynchronous synchronous : List Behavior) :
    (a₁.fork id env₁ action asynchronous synchronous).Alike
      (a₂.fork id env₂ action asynchronous synchronous) :=
  .goes ⟨(henv.note _).setBarrier id _, rfl, children_alike h id asynchronous synchronous,
    .proceed (.inl (h.before rfl))⟩

lemma joinForked_alike (h : a₁.InStep a₂) (henv : env₁.Alike env₂) :
    (a₁.joinForked now id env₁).Alike (a₂.joinForked now id env₂) := by
  rw [joinForked, joinForked, henv.barrier id]
  split_ifs
  · cases (env₂.barrier id).collect.1 with
    | some e => exact abort_alike h (henv.dropBarrier id) e
    | none => exact goOn_alike h (henv.dropBarrier id)
  · exact .goes ⟨henv.setBarrier id _, rfl, .nil, .block (.inl (h.before rfl))⟩

/-! ## All steps -/

lemma perform_alike (h : a₁.InStep a₂) (henv : env₁.Alike env₂) (action : Action) :
    (a₁.perform d now id env₁ action).Alike (a₂.perform d now id env₂ action) := by
  rw [perform, perform]
  cases action.kind with
  | start => exact goOn_alike h henv
  | stop => exact goOn_alike h henv
  | internal demands => exact beginInternal_alike h henv action demands
  | externalCall call => exact beginCall_alike h henv action call
  | branch transitions => exact branch_alike h henv action transitions
  | loop iterations body => exact beginLoop_alike h henv action iterations body
  | collectionIterator parameter body => exact beginIterator_alike h henv action parameter body
  | setVariable usages => exact setVariable_alike h henv usages
  | fork asynchronous synchronous => exact fork_alike h henv action asynchronous synchronous

lemma enterBehavior_alike (h : a₁.InStep a₂) (henv : env₁.Alike env₂) (behavior : Behavior) :
    (a₁.enterBehavior env₁ behavior).Alike (a₂.enterBehavior env₂ behavior) := by
  have hentered : InStep { a₁ with result := env₁.newFrame.1 }
      { a₂ with result := env₂.newFrame.1 } :=
    { h with result := .empty env₁.frames env₂.frames }
  exact goOn_alike (hentered.walking behavior) (henv.newFrame.note _)

/-- The roots of requests show the same, whatever else there is. -/
lemma acceptInputs_alike (h : a₁.SameRole a₂) {behavior : Behavior}
    (left : a₁.tasks = [.invoke behavior]) (right : a₂.tasks = [.invoke behavior])
    (henv : env₁.Alike env₂) (inputs : List VariableUsage) :
    (a₁.acceptInputs now env₁ inputs).Alike (a₂.acceptInputs now env₂ inputs) := by
  have hbound := henv.newFrame.newFrame.bind Frame.twins_kept
    (Frame.Agrees.empty env₁.frames env₂.frames) inputs
    (Frame.Twins.empty (env₁.frames + 1) (env₂.frames + 1))
  rw [acceptInputs, acceptInputs]
  dsimp only [Environment.newFrame] at hbound ⊢
  generalize Environment.bind _ inputs (.empty env₁.frames) _ = bound₁ at hbound ⊢
  generalize Environment.bind _ inputs (.empty env₂.frames) _ = bound₂ at hbound ⊢
  obtain ⟨failure, root₁, env₁'⟩ := bound₁
  obtain ⟨failure', root₂, env₂'⟩ := bound₂
  obtain ⟨rfl, hroot, henv'⟩ := hbound
  have hpushed : InStep { a₁ with stack := a₁.stack.push root₁ }
      { a₂ with stack := a₂.stack.push root₂ } := by
    refine { h with aligned := ?_ }
    dsimp only
    rw [left, right]
    exact .plain rfl (.done hroot)
  exact goOnUnless_alike hpushed henv' failure

lemma walkOn_alike {behavior : Behavior} {depth₁ depth₂ : Nat} {actions : List Action}
    (h : a₁.InStep a₂) (left : depth₁ = a₁.stack.depth) (right : depth₂ = a₂.stack.depth)
    (henv : env₁.Alike env₂) :
    (a₁.walkOn d now id env₁ behavior depth₁ actions).Alike
      (a₂.walkOn d now id env₂ behavior depth₂ actions) := by
  cases actions with
  | nil =>
    rw [walkOn, walkOn, if_pos left.symm, if_pos right.symm]
    exact goOn_alike h henv
  | cons action rest =>
    have hwalk : (a₁.before (.walk behavior depth₁ rest)).InStep
        (a₂.before (.walk behavior depth₂ rest)) :=
      { h with aligned := .walk behavior rest left right h.aligned }
    exact perform_alike (hwalk.before rfl) (henv.note _) action

/-- A task that does not depend on the frames is done alike. -/
lemma performTask_alike (h : a₁.InStep a₂) {task : Task} (isPlain : task.isPlain = true)
    (henv : env₁.Alike env₂) :
    (a₁.performTask d now id env₁ task).Alike (a₂.performTask d now id env₂ task) := by
  cases task with
  | arrive _ => cases isPlain
  | accept _ => cases isPlain
  | walk _ _ _ => cases isPlain
  | leave _ => cases isPlain
  | return_ _ _ _ => cases isPlain
  | enterFork behavior =>
    rw [performTask, performTask, h.name]
    exact goOn_alike (h.before rfl) (henv.note _)
  | invoke behavior => exact enterBehavior_alike h henv behavior
  | finish action => exact goOn_alike h (henv.note _)
  | load action container demands => exact issueNext_alike h henv action container demands
  | serve load => exact startService_alike h henv load
  | release load started => exact completeDemand_alike h henv load started
  | iterate action iteration remaining body =>
    exact nextIteration_alike h henv action iteration body remaining
  | visit action parameter remaining body =>
    exact nextElement_alike h henv action parameter body remaining
  | join => exact joinForked_alike h henv

lemma Alike.sameRole (h : a₁.Alike a₂) : a₁.SameRole a₂ := by
  rcases h with h | h
  · exact h.toSameRole
  · exact h.toSameRole

/-- **Activities that are alike take steps that are alike.** -/
theorem advance_alike (d : Deployment) (now : SimTime) (id : ProcessId) (h : a₁.Alike a₂)
    (henv : env₁.Alike env₂) : (a₁.advance d now id env₁).Alike (a₂.advance d now id env₂) := by
  obtain ⟨name₁, role₁, tasks₁, ⟨frames₁⟩, contexts₁, result₁⟩ := a₁
  obtain ⟨name₂, role₂, tasks₂, ⟨frames₂⟩, contexts₂, result₂⟩ := a₂
  have hrest : ∀ {rest₁ rest₂ : List Task} {stack₁ stack₂ : VariableStack}, SameRole
      ⟨name₁, role₁, rest₁, stack₁, contexts₁, result₁⟩
      ⟨name₂, role₂, rest₂, stack₂, contexts₂, result₂⟩ := { h.sameRole with }
  rcases h with ⟨hrole, haligned⟩ | ⟨hrole, htasks, inputs, behavior, harriving⟩
  · rw [advance, advance]
    cases haligned with
    | done twins => exact .ends henv ⟨rfl, .ok hrole.result, .frames twins.agrees, hrole.contexts⟩
    | leave left right _ outer =>
      subst left right
      exact leaveFrame_alike _ _ rfl rfl (goOn_alike ⟨hrest, outer⟩ henv)
    | return_ site left right twins result outer =>
      subst left right
      exact finishCall_alike hrest site rfl rfl (.frames twins.agrees) result outer henv
    | walk behavior actions left right rest =>
      exact walkOn_alike ⟨hrest, rest⟩ left right henv
    | plain isPlain rest => exact performTask_alike ⟨hrest, rest⟩ isPlain henv
  · dsimp only at htasks harriving
    subst htasks
    rcases harriving with rfl | ⟨time, rfl⟩
    · exact acceptInputs_alike hrest rfl rfl henv inputs
    · exact .goes ⟨henv, rfl, .nil, .hold _ (.inr ⟨hrest, rfl, inputs, behavior, .inl rfl⟩)⟩

/-! ## Turns -/

/-- Ends that are alike are reported alike. -/
lemma report_alike (name : a₁.name = a₂.name) (role : a₁.role = a₂.role)
    (henv : env₁.Alike env₂) {c₁ c₂ : Completion} (hc : c₁.Alike c₂) :
    (a₁.report env₁ c₁).Related Environment.Alike Activity.Alike (a₂.report env₂ c₂) := by
  have hresult := hc.result
  rw [report, report, name, role]
  cases a₂.role with
  | request number => exact ⟨henv.complete number hc, rfl, .nil, .finish⟩
  | asynchronous =>
    generalize c₁.result = r₁ at hresult ⊢
    generalize c₂.result = r₂ at hresult ⊢
    cases hresult with
    | error e => exact ⟨henv.note _, rfl, .nil, .finish⟩
    | ok _ => exact ⟨henv, rfl, .nil, .finish⟩
  | synchronous owner =>
    dsimp only
    rw [henv.barrier owner]
    generalize c₁.result = r₁ at hresult ⊢
    generalize c₂.result = r₂ at hresult ⊢
    cases hresult with
    | error e => exact ⟨henv.setBarrier owner _, rfl, .nil, .finish⟩
    | ok _ => exact ⟨henv.setBarrier owner _, rfl, .nil, .finish⟩

/-- The interpreter does not tell apart what is alike. -/
lemma program_respects (d : Deployment) :
    (program d).Respects Environment.Alike Activity.Alike := by
  refine ⟨fun now id env₁ env₂ a₁ a₂ henv h => ?_, fun _ _ _ _ henv => henv.note _⟩
  have hadvance := advance_alike d now id h henv
  change (turn d now id env₁ a₁).Related _ _ (turn d now id env₂ a₂)
  rw [turn, turn]
  generalize a₁.advance d now id env₁ = progress₁ at hadvance ⊢
  generalize a₂.advance d now id env₂ = progress₂ at hadvance ⊢
  cases hadvance with
  | goes hturn => exact hturn
  | ends henv' hc => exact report_alike h.sameRole.name h.sameRole.role henv' hc

/-! ## Interpretations -/

/-- The activity that begins to interpret a behavior with a frame on top of others. -/
def beginning (name : String) (role : Role) (contexts : List ContextId) (behavior : Behavior)
    (top : Frame) (below : List Frame) : Activity :=
  ⟨name, role, [.invoke behavior], ⟨top :: below⟩, contexts, Frame.empty 0⟩

/-- An activity that others may work with: it keeps the stack discipline, and its frames are
ordered. -/
structure IsRegular (a : Activity) : Prop where
  sound : a.IsSound
  ordered : ∀ f ∈ a.stack.frames, f.Ordered

end ServiceSim.Activity

namespace ServiceSim.Kernel

open Activity

/-- The kernel in which a process runs with an activity, when a number of frames has been made. -/
def beginning (k : Kernel Environment Activity) (id : ProcessId) (frames : Nat) (a : Activity) :
    Kernel Environment Activity :=
  { k with running := some (id, a), world := { k.world with frames := frames } }

/-- What is seen of an interpretation: the steps of the process that runs, one after another. -/
def steps (d : Deployment) (stop : Option SimTime) (fuel : Nat)
    (k : Kernel Environment Activity) : List (SimTime × ProcessId × Progress) :=
  k.observations (fun now id env a => a.advance d now id env) (program d) stop fuel

variable {d : Deployment} {k : Kernel Environment Activity} {id : ProcessId}

/-- Processes that are like themselves make lists that are. -/
lemma pairs_alike_self {l : List (ProcessId × Activity)} (h : ∀ p ∈ l, p.2.Alike p.2) :
    List.Forall₂ (PairRelated Activity.Alike) l l :=
  List.forall₂_same.mpr fun p hp => ⟨rfl, h p hp⟩

/-- Kernels that differ in the frames of the process that runs are alike. -/
lemma beginning_related (others : ∀ p ∈ k.bystanders, p.2.IsRegular) {a₁ a₂ : Activity}
    (h : a₁.Alike a₂) (frames₁ frames₂ : Nat) :
    (k.beginning id frames₁ a₁).Related Environment.Alike Activity.Alike
      (k.beginning id frames₂ a₂) := by
  have hself : ∀ p ∈ k.bystanders, p.2.Alike p.2 :=
    fun p hp => alike_self (others p hp).sound (others p hp).ordered
  have hready : ∀ p ∈ k.ready ++ k.incoming, p.2.Alike p.2 := by
    intro p hp
    refine hself p (List.mem_append_left _ (List.mem_map.mpr ⟨⟨p.1, p.2, k.now⟩, ?_, rfl⟩))
    exact List.mem_append_left _ (List.mem_map.mpr ⟨p, hp, rfl⟩)
  have hparked : ∀ w ∈ k.parked, w.task.Alike w.task := by
    intro w hw
    refine hself (w.process, w.task) (List.mem_append_left _ (List.mem_map.mpr ⟨w.appointment, ?_, rfl⟩))
    exact List.mem_append_right _ (List.mem_map.mpr ⟨w, hw, rfl⟩)
  exact {
    now := rfl
    world := k.world.alike_frames frames₁ frames₂
    spawned := rfl
    parkings := rfl
    running := .runs h
    budget := rfl
    ready := pairs_alike_self fun p hp => hready p (List.mem_append_left _ hp)
    incoming := pairs_alike_self fun p hp => hready p (List.mem_append_right _ hp)
    parked := List.forall₂_same.mpr fun w hw => ⟨rfl, rfl, rfl, hparked w hw⟩
    blocked := pairs_alike_self fun p hp => hself p (mem_bystanders_of_blocked hp) }

/-- **A behavior sees only what the top frame shows.**  A process begins to interpret a behavior
twice, in the same contexts and among the same other processes, and with the same things shared.  The
top frames show the same; the frames below, the identities of frames and the layers in which names are
bound may be anything.  Then both runs take the same steps: at the same times the same processes issue
the same demands, take the same samples, draw the same and fork the same behaviors, and every
interpretation ends with the same error, or with result frames that have the same bindings, and leaves
top frames that agree.  Neither run returns before the other. -/
theorem interpretation_sees_top (others : ∀ p ∈ k.bystanders, p.2.IsRegular) {top₁ top₂ : Frame}
    (ordered₁ : top₁.Ordered) (ordered₂ : top₂.Ordered) (agree : top₁.Agrees top₂)
    (name : String) (role : Role) (contexts : List ContextId) (behavior : Behavior)
    (below₁ below₂ : List Frame) (frames₁ frames₂ : Nat) (stop : Option SimTime) (fuel : Nat) :
    let k₁ := k.beginning id frames₁ (.beginning name role contexts behavior top₁ below₁)
    let k₂ := k.beginning id frames₂ (.beginning name role contexts behavior top₂ below₂)
    List.Forall₂ (ObservationRelated Progress.Alike) (k₁.steps d stop fuel) (k₂.steps d stop fuel) ∧
      RunRelated Environment.Alike Activity.Alike (k₁.run (program d) stop fuel)
        (k₂.run (program d) stop fuel) := by
  intro k₁ k₂
  have hbegin : InStep (.beginning name role contexts behavior top₁ below₁)
      (.beginning name role contexts behavior top₂ below₂) :=
    ⟨⟨rfl, rfl, rfl, .refl _⟩, .plain rfl (.done ⟨ordered₁, ordered₂, agree⟩)⟩
  have hrelated : k₁.Related Environment.Alike Activity.Alike k₂ :=
    beginning_related others (.inl hbegin) frames₁ frames₂
  refine ⟨?_, run_related (program_respects d) hrelated stop fuel⟩
  exact observations_related (program_respects d)
    (fun now id _ _ _ _ henv h => advance_alike d now id h henv) hrelated stop fuel

/-- A variable that is set to the value of another one, which one top frame binds itself and the other
one in its parent, while another process waits to run. -/
theorem interpretation_sees_top_inherited :
    ∃ (d : Deployment) (k : Kernel Environment Activity) (top₁ top₂ : Frame) (behavior : Behavior),
      k.bystanders ≠ [] ∧ (∀ p ∈ k.bystanders, p.2.IsRegular) ∧
      top₁.Ordered ∧ top₂.Ordered ∧ top₁.Agrees top₂ ∧ top₁.own ≠ [] ∧ top₂.own = [] ∧
      let k₁ := k.beginning 7 3 (.beginning "p" .asynchronous ["c"] behavior top₁ [])
      let k₂ := k.beginning 7 9 (.beginning "p" .asynchronous ["c"] behavior top₂ [.empty 8])
      (k₁.run (program d) none 40).isSome = true ∧
      List.Forall₂ (ObservationRelated Progress.Alike) (k₁.steps d none 40) (k₂.steps d none 40) ∧
        RunRelated Environment.Alike Activity.Alike (k₁.run (program d) none 40)
          (k₂.run (program d) none 40) := by
  let d : Deployment := ⟨⟨"", [], [], [], [], [], []⟩, rfl⟩
  let env : Environment := .initial (.ofWords []) ⟨[]⟩
  let idle : Behavior := ⟨"idle", [⟨"i0", "", none, .start⟩]⟩
  let k : Kernel Environment Activity :=
    (initial env).spawn (.interpreting "q" 0 "c" (.empty 1) idle)
  let top₁ : Frame := (Frame.empty 2).set "x.VALUE" (.bool true)
  let top₂ : Frame := Frame.inside top₁ 3
  let usage : VariableUsage := ⟨"y", [⟨.value, .variable_ "x.VALUE"⟩]⟩
  let behavior : Behavior :=
    ⟨"b", [⟨"1", "begin", some "2", .start⟩, ⟨"2", "set", none, .setVariable [usage]⟩]⟩
  have others : ∀ p ∈ k.bystanders, p.2.IsRegular := by
    intro p hp
    rw [List.mem_singleton.mp hp]
    refine ⟨(Enters.interpreting "q" 0 "c" (.empty 1) idle).sound, fun f hf => ?_⟩
    rw [List.mem_singleton.mp hf]
    exact Frame.empty_ordered 1
  have ordered : top₁.Ordered := (Frame.empty_ordered 2).bind _ _
  have agree : top₁.Agrees top₂ := top₁.agrees_inside 3
  refine ⟨d, k, top₁, top₂, behavior, List.cons_ne_nil _ _, others, ordered, ordered.inside 3, agree,
    List.cons_ne_nil _ _, rfl, ?_, ?_⟩
  · decide +kernel
  · exact interpretation_sees_top others ordered (ordered.inside 3) agree _ _ _ _ _ _ _ _ _ _

end ServiceSim.Kernel
