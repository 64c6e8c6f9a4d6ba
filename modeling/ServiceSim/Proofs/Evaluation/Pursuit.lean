import ServiceSim.Proofs.Evaluation.Resumption
import ServiceSim.Proofs.Interpreter.StackDiscipline

/-!
# Steps pursue the ending

Every step of an interpretation that neither forks nor joins pursues the ending that the evaluator
foresees (`advance_pursues`): if it goes on, now or after a while, its ending is the same, and if it
ends, it ends so.  A step that forks splits the ending into those of the children and what the
parent does when all of them have ended (`advance_forks`).
-/

namespace ServiceSim.Activity

open Attempt Evaluator

variable {d : Deployment} {rates : ResourceKey → Option Float} {a b : Activity}
  {env env' : Environment} {now : SimTime} {id : ProcessId} {f : Frame} {frames : List Frame}
  {context : ContextId} {contexts : List ContextId} {entry : Entry} {v : Option Ending}

section Actions

variable (ha : a.Deterministic) (hframes : a.stack.frames = f :: frames)
  (hcontexts : a.contexts = context :: contexts)

include hframes in
lemma current_eq : a.stack.current = .ok f := by
  rw [VariableStack.current, hframes]

include ha hframes in
lemma current_deterministic : f.Deterministic :=
  ha.frames f (hframes ▸ List.mem_cons_self)

include ha hframes in
/-- An activity that goes on when an action has been performed. -/
lemma onward_pursues :
    Pursues d rates now (outcome (a.onward d rates (a.moment now f))) (a.goOn env) := by
  rw [onward_moment hframes]
  exact goOn_pursues ha rfl

include hframes hcontexts in
/-- A task in the current frame comes before what is left to do. -/
lemma before_onward (task : Task) (g : ContextId → Moment → Attempt Moment)
    (hg : resumeTask d rates task = onTop g) (m : Moment) :
    (a.before task).onward d rates m = g context m >>= a.onward d rates := by
  have hcons : (a.before task).onward d rates m = resumeTask d rates task
      ⟨m.time, m.frame :: frames.map Frame.anonymous, context :: contexts, m.result⟩ >>=
        resume d rates a.tasks := by
    simp only [onward, before, hframes, hcontexts, List.tail_cons, resume_cons]
  rw [hcons, hg]
  simp only [onTop, bind_assoc, pure_bind]
  congr 1
  funext m
  simp only [onward, hframes, hcontexts, List.tail_cons]

include hframes hcontexts in
/-- The ending of an activity that performs an action by a task in the current frame. -/
lemma before_ending (task : Task) (g : ContextId → Moment → Attempt Moment)
    (hg : resumeTask d rates task = onTop g) (time : SimTime) :
    (a.before task).ending d rates time =
      outcome (g context (a.moment time f) >>= a.onward d rates) := by
  rw [← before_onward hframes hcontexts task g hg]
  exact congrArg outcome (onward_moment (a := a.before task) hframes time).symm

include hframes hcontexts in
/-- When an action has been performed, the rest of the chain is left to do. -/
lemma action_onward (behavior : Behavior) (depth : Nat) (action : Action) (rest : List Action)
    (m : Moment) :
    ((a.before (.walk behavior depth rest)).before (.finish action)).onward d rates m =
      walk d rates context m rest >>= a.onward d rates := by
  rw [← before_onward hframes hcontexts (.walk behavior depth rest)
    (fun context m => walk d rates context m rest) rfl]
  simp only [onward, before, resume_cons, resumeTask, pure_bind]

include ha hframes hcontexts

lemma walking_pursues {behavior : Behavior} (h : behavior.isDeterministic = true) :
    Pursues d rates now
      (outcome (walk d rates context (a.moment now f) behavior.chain >>= a.onward d rates))
      ((a.walking behavior).goOn env) :=
  goOn_pursues (before_deterministic ha (Behavior.chain_deterministic h))
    (before_ending hframes hcontexts (.walk behavior a.stack.depth behavior.chain)
      (fun context m => walk d rates context m behavior.chain) rfl now)

/-! ## Demands -/

lemma beginInternal_pursues (action : Action) {demands : List ResourceDemand}
    (h : ∀ x ∈ demands, x.isDeterministic = true) :
    Pursues d rates now
      (outcome ((do
        let container ← ofResult now (d.containerOf context)
        load rates container (a.moment now f) demands) >>= a.onward d rates))
      (a.beginInternal d now env action demands) := by
  rw [beginInternal, container, Activity.context, hcontexts]
  dsimp only
  cases d.containerOf context with
  | error e => exact abort_pursues _ rfl
  | ok container =>
    rw [ofResult, pure_bind]
    exact goOn_pursues (before_deterministic ha h) (before_ending hframes hcontexts _
      (fun _ m => load rates container m demands) rfl now)

lemma demand_pursues (delays : env.resources.Delays rates) (action : Action)
    (container : ContainerId) (resource : String) (amount : Float) {rest : List ResourceDemand}
    (h : Task.Deterministic (.load action container rest)) :
    Pursues d rates now
      (outcome (load rates container
        (a.moment (servedBy rates now (container, resource) amount) f) rest >>= a.onward d rates))
      ((a.before (.load action container rest)).demand now id env action container resource
        amount) := by
  rw [demand]
  dsimp only
  have hnext : ∀ time, (a.before (.load action container rest)).ending d rates time =
      outcome (load rates container (a.moment time f) rest >>= a.onward d rates) :=
    before_ending hframes hcontexts _ (fun _ m => load rates container m rest) rfl
  split
  next e hissue =>
    rw [delays.servedBy_error hissue]
    exact goOn_pursues (before_deterministic ha h) (hnext now)
  next demand granted resources hissue =>
    obtain ⟨rfl, hserved⟩ := delays.servedBy_ok hissue
    rw [if_pos rfl, hserved]
    refine ⟨before_deterministic (before_deterministic ha h) trivial, ?_⟩
    exact hnext _

lemma issueNext_pursues (delays : env.resources.Delays rates) (action : Action)
    (container : ContainerId) {demands : List ResourceDemand}
    (h : ∀ x ∈ demands, x.isDeterministic = true) :
    Pursues d rates now
      (outcome (load rates container (a.moment now f) demands >>= a.onward d rates))
      (a.issueNext now id env action container demands) := by
  cases demands with
  | nil =>
    rw [load, pure_bind]
    exact onward_pursues ha hframes
  | cons next rest =>
    have hscope := Frame.scope_deterministic f (current_deterministic ha hframes)
    have hdraws := Specification.evaluateDouble_drawsNothing hscope (h _ List.mem_cons_self)
    rw [load, issueNext, current_eq hframes, moment, Frame.scope_anonymous]
    dsimp only
    cases hsample : env.sample (next.specification.evaluateDouble f.scope) with
    | mk r env' =>
      rw [answered_sample hdraws hsample]
      cases r with
      | error e => exact abort_pursues _ rfl
      | ok amount =>
        rw [ofResult, pure_bind]
        have hsteady := Environment.sample_steady hsample
        have htask : Task.Deterministic (.load action container rest) :=
          fun x hx => h x (List.mem_cons_of_mem _ hx)
        exact demand_pursues ha hframes hcontexts (hsteady.resources ▸ delays) action container
          next.resource amount htask

/-! ## Branches and iterations -/

lemma branch_pursues (action : Action) {transitions : List BranchTransition}
    (h : ∀ t ∈ transitions, t.condition.isDeterministic = true ∧
      t.behavior.isDeterministic = true) :
    Pursues d rates now
      (outcome ((do
        let choice ← answered now (Transition.choose Transition.defaultTolerance action.id
          (transitions.map fun t => (t.condition, t.behavior)) (a.moment now f).frame.scope)
        match choice with
        | none => pure (a.moment now f)
        | some behavior => walk d rates context (a.moment now f) behavior.chain) >>=
          a.onward d rates))
      (a.branch now env action transitions) := by
  have hsame : (a.moment now f).frame.scope = f.scope := Frame.scope_anonymous f
  rw [hsame]
  have hscope := Frame.scope_deterministic f (current_deterministic ha hframes)
  have hguards : ∀ t ∈ transitions.map fun t => (t.condition, t.behavior),
      t.1.isDeterministic = true := by
    intro t ht
    obtain ⟨u, hu, rfl⟩ := List.mem_map.mp ht
    exact (h u hu).1
  have hdraws := Transition.choose_drawsNothing hscope Transition.defaultTolerance action.id _
    hguards
  rw [branch, current_eq hframes]
  dsimp only
  cases hsample : env.sample (Transition.choose Transition.defaultTolerance action.id
      (transitions.map fun t => (t.condition, t.behavior)) f.scope) with
  | mk r env' =>
    rw [answered_sample hdraws hsample]
    match r with
    | .error (.model e) => exact abort_pursues _ rfl
    | .error (.evaluation e) => exact abort_pursues _ rfl
    | .ok none => exact onward_pursues ha hframes
    | .ok (some behavior) =>
      obtain ⟨t, ht, hchosen⟩ := Transition.choose_mem (Environment.sample_result hsample)
      obtain ⟨u, hu, rfl⟩ := List.mem_map.mp ht
      exact walking_pursues ha hframes hcontexts (hchosen ▸ (h u hu).2)

omit hcontexts in
lemma count_iterationCount {action : Action} {specification : Specification}
    {r : Except InterpreterError Nat} (h : specification.isDeterministic = true)
    (hcount : a.iterationCount env action specification = (r, env')) :
    count (a.moment now f) specification = ofResult now r := by
  have hscope := Frame.scope_deterministic f (current_deterministic ha hframes)
  have hdraws := Specification.evaluateInteger_drawsNothing hscope h
  rw [iterationCount, current_eq hframes] at hcount
  rw [count, moment, Frame.scope_anonymous]
  dsimp only at hcount ⊢
  cases hsample : env.sample (specification.evaluateInteger f.scope) with
  | mk value env'' =>
    rw [answered_sample hdraws hsample]
    rw [hsample] at hcount
    cases value with
    | error e =>
      injection hcount with hr _
      rw [← hr]
      rfl
    | ok n =>
      rw [ofResult, pure_bind]
      dsimp only at hcount
      split_ifs at hcount with hneg
      · injection hcount with hr _
        rw [← hr, if_pos hneg]
        rfl
      · injection hcount with hr _
        rw [← hr, if_neg hneg]
        rfl

lemma beginLoop_pursues (action : Action) {iterations : Specification} {body : Behavior}
    (hiterations : iterations.isDeterministic = true) (hbody : body.isDeterministic = true) :
    Pursues d rates now
      (outcome ((do
        let n ← count (a.moment now f) iterations
        (walk d rates).iterate context body (a.moment now f) n) >>= a.onward d rates))
      (a.beginLoop now env action iterations body) := by
  rw [beginLoop]
  split
  next e env' hcount =>
    rw [count_iterationCount ha hframes hiterations hcount]
    exact abort_pursues _ rfl
  next n env' hcount =>
    rw [count_iterationCount ha hframes hiterations hcount]
    have htask : Task.Deterministic (.iterate action 1 n body) := hbody
    exact goOn_pursues (before_deterministic ha htask) (before_ending hframes hcontexts _
      (fun context m => (walk d rates).iterate context body m n) rfl now)

lemma beginIterator_pursues (action : Action) (parameter : String) {body : Behavior}
    (hbody : body.isDeterministic = true) :
    Pursues d rates now
      (outcome ((do
        let n ← count (a.moment now f) (.variable_
          (parameter ++ "." ++ CharacterisationKind.numberOfElements.name))
        (walk d rates).visit context parameter body (a.moment now f) n) >>= a.onward d rates))
      (a.beginIterator now env action parameter body) := by
  rw [beginIterator]
  split
  next e env' hcount =>
    rw [count_iterationCount ha hframes rfl hcount]
    exact abort_pursues _ rfl
  next n env' hcount =>
    rw [count_iterationCount ha hframes rfl hcount]
    have htask : Task.Deterministic (.visit action parameter n body) := hbody
    exact goOn_pursues (before_deterministic ha htask) (before_ending hframes hcontexts _
      (fun context m => (walk d rates).visit context parameter body m n) rfl now)

lemma nextIteration_pursues (action : Action) (iteration : Nat) {body : Behavior}
    (hbody : body.isDeterministic = true) (remaining : Nat) :
    Pursues d rates now
      (outcome ((walk d rates).iterate context body (a.moment now f) remaining >>= a.onward d rates))
      (a.nextIteration env action iteration body remaining) := by
  cases remaining with
  | zero =>
    rw [Walk.iterate, pure_bind]
    exact onward_pursues ha hframes
  | succ remaining =>
    let next := a.before (.iterate action (iteration + 1) remaining body)
    have htask : Task.Deterministic (.iterate action (iteration + 1) remaining body) := hbody
    have honward := before_onward hframes hcontexts _
      (fun context m => (walk d rates).iterate context body m remaining)
      (rfl : resumeTask d rates (.iterate action (iteration + 1) remaining body) = _)
    rw [Walk.iterate, bind_assoc, ← funext honward]
    exact walking_pursues (a := next) (before_deterministic ha htask) hframes hcontexts hbody

lemma nextElement_pursues (action : Action) (parameter : String) {body : Behavior}
    (hbody : body.isDeterministic = true) (remaining : Nat) :
    Pursues d rates now
      (outcome ((walk d rates).visit context parameter body (a.moment now f) remaining >>=
        a.onward d rates))
      (a.nextElement now env action parameter body remaining) := by
  cases remaining with
  | zero =>
    rw [Walk.visit, pure_bind]
    exact onward_pursues ha hframes
  | succ remaining =>
    have hf := current_deterministic ha hframes
    rw [Walk.visit, nextElement, current_eq hframes]
    dsimp only
    cases hresolve : env.newFrame.2.resolve f (parameter ++ ".")
        (Frame.inside f env.newFrame.1.identity) with
    | mk failure bound =>
      obtain ⟨inner, env'⟩ := bound
      obtain ⟨hbound, hinner⟩ :=
        bound_resolve hf (Frame.inside_deterministic hf _) hresolve now
      rw [Frame.inside_anonymous] at hbound
      rw [element, moment, hbound]
      dsimp only
      cases failure with
      | some e => exact abort_pursues _ rfl
      | none =>
        let visiting := a.before (.visit action parameter remaining body)
        let inside : Activity :=
          { visiting.before (.leave inner.identity) with stack := a.stack.push inner }
        have hvisit : Task.Deterministic (.visit action parameter remaining body) := hbody
        have hinside : inside.Deterministic := by
          have hleave : Task.Deterministic (.leave inner.identity) := trivial
          refine ⟨(before_deterministic (before_deterministic ha hvisit) hleave).tasks, ?_,
            ha.result⟩
          intro g hg
          rcases List.mem_cons.mp hg with rfl | hg
          · exact hinner
          · exact ha.frames g hg
        -- The frame of the element comes off before the next element is visited.
        have honward : ∀ m, inside.onward d rates m =
            (walk d rates).visit context parameter body { m with frame := f.anonymous } remaining >>=
              a.onward d rates := by
          intro m
          rw [← before_onward hframes hcontexts _
            (fun context m => (walk d rates).visit context parameter body m remaining)
            (rfl : resumeTask d rates (.visit action parameter remaining body) = _)]
          simp only [onward, inside, visiting, before, VariableStack.push, hframes, resume_cons,
            resumeTask, pure_bind, List.tail_cons, List.map_cons]
        rw [Option.elim, pure_bind, bind_assoc, ← funext honward]
        exact walking_pursues (a := inside) hinside (f := inner) rfl hcontexts hbody

/-! ## Variables and calls -/

omit hcontexts in
lemma setVariable_pursues {usages : List VariableUsage}
    (husages : VariableUsage.areDeterministic usages = true) :
    Pursues d rates now
      (outcome ((do
        let result ← bound now
          (bindUsages usages f.anonymous a.result.anonymous silent)
        return { a.moment now f with result := result }) >>= a.onward d rates))
      (a.setVariable now env usages) := by
  have hf := current_deterministic ha hframes
  rw [setVariable, current_eq hframes]
  dsimp only
  cases hbind : env.bind usages f a.result with
  | mk failure bound =>
    obtain ⟨result, env'⟩ := bound
    obtain ⟨hbound, hresult⟩ := bound_bind husages hf ha.result hbind now
    rw [hbound]
    cases failure with
    | some e => exact abort_pursues _ rfl
    | none =>
      have hb : Activity.Deterministic { a with result := result } := ⟨ha.tasks, ha.frames, hresult⟩
      exact onward_pursues (a := { a with result := result }) hb hframes

omit hcontexts in
lemma enterCallee_pursues (site : CallSite) (target : ContextId) {behavior : Behavior}
    (hcall : site.call.isDeterministic = true) (hbehavior : behavior.isDeterministic = true) :
    Pursues d rates now
      (outcome ((do
        let input ← bound now
          (bindUsages site.call.inputs f.anonymous (Frame.empty 0) silent)
        let out ← walk d rates target ⟨now, input, Frame.empty 0⟩ behavior.chain
        let frame ← returned site.call.returns out.time out.result f.anonymous
        return { a.moment now f with time := out.time, frame := frame }) >>= a.onward d rates))
      (a.enterCallee now env site target behavior) := by
  have hf := current_deterministic ha hframes
  rw [ExternalCall.isDeterministic, Bool.and_eq_true] at hcall
  rw [enterCallee, current_eq hframes]
  dsimp only
  cases hbind : env.newFrame.2.bind site.call.inputs f env.newFrame.1 with
  | mk failure bound =>
    obtain ⟨input, env'⟩ := bound
    obtain ⟨hbound, hinput⟩ :=
      bound_bind hcall.1 hf (Frame.empty_deterministic env.frames) hbind now
    rw [Frame.empty_anonymous] at hbound
    rw [hbound]
    cases failure with
    | some e => exact abort_pursues _ rfl
    | none =>
      let callee : Activity := { a.before (.return_ site input.identity a.result) with
        stack := a.stack.push input, contexts := target :: a.contexts }
      have hreturn : Task.Deterministic (.return_ site input.identity a.result) :=
        ⟨by rw [ExternalCall.isDeterministic, hcall.1, hcall.2]; rfl, ha.result⟩
      have hcallee : callee.Deterministic := by
        refine ⟨(before_deterministic ha hreturn).tasks, ?_, ha.result⟩
        intro g hg
        rcases List.mem_cons.mp hg with rfl | hg
        · exact hinput
        · exact ha.frames g hg
      have honward : ∀ m, callee.onward d rates m = (do
          let frame ← returned site.call.returns m.time m.result f.anonymous
          a.onward d rates { a.moment now f with time := m.time, frame := frame }) := by
        intro m
        simp only [onward, callee, before, VariableStack.push, hframes, resume_cons, resumeTask,
          List.tail_cons, List.map_cons, bind_assoc, pure_bind, moment]
      refine goOn_pursues (b := callee.before (.invoke behavior))
        (before_deterministic hcallee hbehavior) ?_
      have hinside : callee.stack.frames = input :: a.stack.frames := rfl
      rw [before_ending hinside rfl (.invoke behavior) (enter d rates behavior) rfl, funext honward]
      simp only [Option.elim, pure_bind, bind_assoc]
      rfl

lemma beginCall_pursues (hmodel : d.model.isDeterministic = true) (action : Action)
    {call : ExternalCall} (hcall : call.isDeterministic = true) :
    Pursues d rates now
      (outcome ((do
        let (target, behavior) ← ofResult now (Evaluator.callee d context call)
        let input ← bound now (bindUsages call.inputs f.anonymous (Frame.empty 0) silent)
        let out ← walk d rates target ⟨now, input, Frame.empty 0⟩ behavior.chain
        let frame ← returned call.returns out.time out.result f.anonymous
        return { a.moment now f with time := out.time, frame := frame }) >>= a.onward d rates))
      (a.beginCall d now id env action call) := by
  simp only [beginCall, Activity.callee, Activity.context, hcontexts, Evaluator.callee]
  cases d.context context with
  | error e => exact abort_pursues _ rfl
  | ok caller =>
    dsimp only
    cases hresolved : d.resolveCall caller.id call.role call.service with
    | error e => exact abort_pursues _ rfl
    | ok found =>
      obtain ⟨target, behavior⟩ := found
      exact enterCallee_pursues ha hframes ⟨action, call, caller⟩ target hcall
        (Deployment.resolveCall_deterministic hmodel hresolved)

/-- An action that does not fork. -/
lemma perform_pursues (hmodel : d.model.isDeterministic = true) {action : Action}
    (haction : action.isDeterministic = true)
    (hfork : ∀ asynchronous synchronous, action.kind ≠ .fork asynchronous synchronous) :
    Pursues d rates now
      (outcome ((walk d rates).perform d rates context (a.moment now f) action >>= a.onward d rates))
      (a.perform d now id env action) := by
  obtain ⟨actionId, name, successor, kind⟩ := action
  rw [Action.isDeterministic] at haction
  rw [Walk.perform]
  cases kind with
  | start => exact onward_pursues ha hframes
  | stop => exact onward_pursues ha hframes
  | internal demands =>
    rw [ActionKind.isDeterministic, List.all_eq_true] at haction
    exact beginInternal_pursues ha hframes hcontexts _ haction
  | externalCall call =>
    rw [ActionKind.isDeterministic] at haction
    exact beginCall_pursues ha hframes hcontexts hmodel _ haction
  | branch transitions =>
    rw [ActionKind.isDeterministic, BranchTransition.areDeterministic_iff] at haction
    exact branch_pursues ha hframes hcontexts _ haction
  | loop iterations body =>
    rw [ActionKind.isDeterministic, Bool.and_eq_true] at haction
    exact beginLoop_pursues ha hframes hcontexts _ haction.1 haction.2
  | collectionIterator parameter body =>
    rw [ActionKind.isDeterministic] at haction
    exact beginIterator_pursues ha hframes hcontexts _ parameter haction
  | setVariable usages =>
    rw [ActionKind.isDeterministic] at haction
    exact setVariable_pursues ha hframes haction
  | fork asynchronous synchronous => exact absurd rfl (hfork asynchronous synchronous)

lemma walkOn_pursues (hmodel : d.model.isDeterministic = true) (behavior : Behavior) (depth : Nat)
    (hdepth : a.stack.depth = depth) {actions : List Action}
    (hactions : ∀ x ∈ actions, x.isDeterministic = true)
    (hfork : ∀ action ∈ actions.head?, ∀ asynchronous synchronous,
      action.kind ≠ .fork asynchronous synchronous) :
    Pursues d rates now
      (outcome (walk d rates context (a.moment now f) actions >>= a.onward d rates))
      (a.walkOn d now id env behavior depth actions) := by
  cases actions with
  | nil =>
    rw [walk_nil, pure_bind, walkOn, if_pos hdepth]
    exact onward_pursues ha hframes
  | cons action rest =>
    let next := a.before (.walk behavior depth rest)
    have hwalk : Task.Deterministic (.walk behavior depth rest) :=
      fun x hx => hactions x (List.mem_cons_of_mem _ hx)
    have hnext : (next.before (.finish action)).Deterministic :=
      before_deterministic (before_deterministic ha hwalk) trivial
    rw [walk_cons, bind_assoc, ← funext (action_onward hframes hcontexts behavior depth action rest)]
    exact perform_pursues hnext hframes hcontexts hmodel (hactions action List.mem_cons_self)
      (hfork action rfl)

end Actions

/-! ## Returning -/

lemma bindReturns_returned {returns : List VariableUsage} {output target frame : Frame}
    {failure : Option EvalError} (hreturns : VariableUsage.areDeterministic returns = true)
    (houtput : output.Deterministic) (htarget : target.Deterministic)
    (hbind : bindReturns env returns output target = (failure, frame, env')) (time : SimTime) :
    returned returns time output.anonymous target.anonymous =
        failure.elim (pure frame.anonymous) (fun _ => throw time) ∧ frame.Deterministic := by
  rw [bindReturns] at hbind
  rw [returned]
  split_ifs at hbind ⊢
  · injection hbind with hfailed hbind
    injection hbind with hframe _
    subst hfailed hframe
    have hown := Frame.own_deterministic houtput
    rw [Frame.own_anonymous, anonymousAll, List.foldl_map]
    generalize output.own = own at hown
    induction own generalizing target with
    | nil => exact ⟨rfl, htarget⟩
    | cons p rest ih =>
      have hnext := ih (Frame.bind_deterministic htarget p.1 (hown p List.mem_cons_self))
        (fun q hq => hown q (List.mem_cons_of_mem _ hq))
      rw [Frame.bind_anonymous] at hnext
      exact hnext
  · exact bound_bind hreturns houtput htarget hbind time

lemma finishCall_pursues (ha : a.Deterministic) {top target : Frame} {below : List Frame}
    (hframes : a.stack.frames = top :: target :: below) {callers : List ContextId}
    (hcontexts : a.contexts = context :: callers) {site : CallSite} {result : Frame}
    (htask : Task.Deterministic (.return_ site top.identity result)) :
    Pursues d rates now
      (outcome (resumeTask d rates (.return_ site top.identity result) (a.position now) >>=
        resume d rates a.tasks))
      (a.finishCall d now id env site top.identity result) := by
  have hcall := htask.1
  rw [ExternalCall.isDeterministic, Bool.and_eq_true] at hcall
  have htarget : target.Deterministic :=
    ha.frames target (hframes ▸ List.mem_cons_of_mem _ List.mem_cons_self)
  simp only [finishCall, hcontexts, leaveFrame, VariableStack.popExpecting, hframes, if_pos,
    VariableStack.current, VariableStack.replaceTop, resumeTask, position, List.map_cons]
  cases hbind : bindReturns env site.call.returns a.result target with
  | mk failure bound =>
    obtain ⟨frame, env'⟩ := bound
    obtain ⟨hreturned, hframe⟩ := bindReturns_returned hcall.2 ha.result htarget hbind now
    rw [hreturned]
    cases failure with
    | some e => exact abort_pursues _ rfl
    | none =>
      refine goOn_pursues ⟨ha.tasks, ?_, htask.2⟩ rfl
      intro g hg
      rcases List.mem_cons.mp hg with rfl | hg
      · exact hframe
      · exact ha.frames g (hframes ▸ List.mem_cons_of_mem _ (List.mem_cons_of_mem _ hg))

/-! ## Other steps -/

lemma completeDemand_pursues (ha : a.Deterministic) (demand : Load) (started : SimTime) :
    Pursues d rates now (a.ending d rates now) (a.completeDemand now id env demand started) := by
  rw [completeDemand]
  cases env.resources.complete id demand started with
  | mk woken resources => exact ⟨ha, rfl⟩

lemma acceptInputs_pursues (ha : a.Deterministic) {inputs : List VariableUsage}
    (hinputs : VariableUsage.areDeterministic inputs = true) :
    Pursues d rates now
      (outcome (resumeTask d rates (.accept inputs) (a.position now) >>= resume d rates a.tasks))
      (a.acceptInputs now env inputs) := by
  rw [acceptInputs]
  dsimp only
  cases hbind : env.newFrame.2.newFrame.2.bind inputs env.newFrame.1 env.newFrame.2.newFrame.1 with
  | mk failure bound =>
    obtain ⟨root, env'⟩ := bound
    obtain ⟨hbound, hroot⟩ := bound_bind hinputs (Frame.empty_deterministic env.frames)
      (Frame.empty_deterministic (env.frames + 1)) hbind now
    rw [Frame.empty_anonymous, Frame.empty_anonymous] at hbound
    rw [resumeTask, position, hbound]
    cases failure with
    | some e => exact abort_pursues _ rfl
    | none =>
      refine goOn_pursues ⟨ha.tasks, ?_, ha.result⟩ rfl
      intro g hg
      rcases List.mem_cons.mp hg with rfl | hg
      · exact hroot
      · exact ha.frames g hg

lemma enterBehavior_pursues (ha : a.Deterministic) (hframes : a.stack.frames = f :: frames)
    (hcontexts : a.contexts = context :: contexts) {behavior : Behavior}
    (hbehavior : behavior.isDeterministic = true) :
    Pursues d rates now
      (outcome (enter d rates behavior context (a.moment now f) >>= a.onward d rates))
      (a.enterBehavior env behavior) := by
  let fresh : Activity := { a with result := env.newFrame.1 }
  have hfresh : fresh.Deterministic := ⟨ha.tasks, ha.frames, Frame.empty_deterministic env.frames⟩
  have hmoment : fresh.moment now f = { a.moment now f with result := Frame.empty 0 } :=
    congrArg (Moment.mk now f.anonymous) (Frame.empty_anonymous env.frames)
  rw [enter, ← hmoment]
  exact walking_pursues (a := fresh) hfresh hframes hcontexts hbehavior

lemma leaveFrame_pursues (ha : a.Deterministic) (hframes : a.stack.frames = f :: frames) :
    Pursues d rates now
      (outcome (resumeTask d rates (.leave f.identity) (a.position now) >>= resume d rates a.tasks))
      (a.leaveFrame now env f.identity fun a => a.goOn env) := by
  simp only [leaveFrame, VariableStack.popExpecting, hframes, if_pos, resumeTask, position,
    List.map_cons, List.tail_cons]
  refine goOn_pursues ⟨ha.tasks, ?_, ha.result⟩ rfl
  intro g hg
  exact ha.frames g (hframes ▸ List.mem_cons_of_mem _ hg)

/-! ## All steps -/

/-- An activity that has begun has a frame and a context. -/
lemma IsSound.stacks (sound : a.IsSound) {task : Task} {rest : List Task}
    (htasks : a.tasks = task :: rest) (harrive : ∀ time, task ≠ .arrive time)
    (haccept : ∀ inputs, task ≠ .accept inputs) :
    ∃ f frames context contexts, a.stack.frames = f :: frames ∧ a.contexts = context :: contexts ∧
      ∃ entry, Balanced entry (task :: rest) a.stack.identities a.contexts := by
  rcases sound with ⟨entry, h⟩ | h
  · obtain ⟨f, frames, hframes, -⟩ := h.current
    have hcontexts := h.contexts_ne_nil
    rw [IsBalanced, htasks] at h
    cases hc : a.contexts with
    | nil => exact absurd hc hcontexts
    | cons context contexts => exact ⟨f, frames, context, contexts, hframes, rfl, entry, hc ▸ h⟩
  · obtain ⟨inputs, behavior, htasks' | ⟨time, htasks'⟩⟩ := h.tasks
    all_goals
      rw [htasks] at htasks'
      injection htasks' with htask _
    · exact absurd htask (haccept inputs)
    · exact absurd htask (harrive time)

/-- Below the frame that a return takes off lies the frame of the caller. -/
lemma Balanced.caller {entry : Entry} {site : CallSite} {pushed : FrameId} {result : Frame}
    {rest : List Task} {stack : VariableStack} {contexts : List ContextId}
    (h : Balanced entry (.return_ site pushed result :: rest) stack.identities contexts) :
    ∃ top target below, stack.frames = top :: target :: below ∧ top.identity = pushed := by
  obtain ⟨outer, callee, callers, hidentities, -, hcaller⟩ := h
  obtain ⟨top, frames, hframes, htop, houter⟩ := List.map_eq_cons_iff.mp hidentities
  cases frames with
  | nil => exact absurd houter.symm hcaller.frames_ne_nil
  | cons target below => exact ⟨top, target, below, hframes, htop⟩

/-- **A step pursues the ending**, unless it forks or joins. -/
theorem advance_pursues (now : SimTime) (id : ProcessId)
    (hmodel : d.model.isDeterministic = true) (sound : a.IsSound)
    (ha : a.Deterministic) (delays : env.resources.Delays rates) (joins : ¬ a.Joins)
    (forking : a.forking = none) :
    Pursues d rates now (a.ending d rates now) (a.advance d now id env) := by
  obtain ⟨name, role, tasks, stack, contexts, result⟩ := a
  cases tasks with
  | nil => rfl
  | cons task rest =>
    let b : Activity := ⟨name, role, rest, stack, contexts, result⟩
    have hb : b.Deterministic :=
      ⟨fun t ht => ha.tasks t (List.mem_cons_of_mem _ ht), ha.frames, ha.result⟩
    have htask := ha.tasks task List.mem_cons_self
    have hending : ending d rates now ⟨name, role, task :: rest, stack, contexts, result⟩ =
        outcome (resumeTask d rates task (b.position now) >>= resume d rates rest) :=
      congrArg outcome (resume_cons _ _ _)
    have htop := sound.stacks rfl
    -- The meaning of a task in the current frame.
    have htask_ending : ∀ {f frames context contexts'}, b.stack.frames = f :: frames →
        b.contexts = context :: contexts' → ∀ g, resumeTask d rates task = onTop g →
        ending d rates now ⟨name, role, task :: rest, stack, contexts, result⟩ =
          outcome (g context (b.moment now f) >>= b.onward d rates) :=
      fun hframes hcontexts g hg => before_ending (a := b) hframes hcontexts task g hg now
    cases task with
    | arrive time =>
      rw [hending]
      exact ⟨hb, rfl⟩
    | accept inputs =>
      rw [hending]
      exact acceptInputs_pursues hb htask
    | enterFork behavior =>
      exact goOn_pursues (b := b.before (.invoke behavior)) (before_deterministic hb htask) rfl
    | invoke behavior =>
      obtain ⟨f, frames, context, contexts', hframes, hcontexts, -⟩ :=
        htop (by simp) (by simp)
      rw [htask_ending hframes hcontexts (enter d rates behavior) rfl]
      exact enterBehavior_pursues hb hframes hcontexts htask
    | walk behavior depth actions =>
      obtain ⟨f, frames, context, contexts', hframes, hcontexts, entry, hbalanced⟩ :=
        htop (by simp) (by simp)
      have hdepth : b.stack.depth = depth := by
        rw [hbalanced.1, VariableStack.length_identities]
      have hfork : ∀ action ∈ actions.head?, ∀ asynchronous synchronous,
          action.kind ≠ .fork asynchronous synchronous := by
        intro action haction asynchronous synchronous hkind
        cases actions with
        | nil => cases haction
        | cons first rest =>
          injection haction with haction
          simp only [Activity.forking, haction, hkind] at forking
          cases forking
      rw [htask_ending hframes hcontexts (fun context m => walk d rates context m actions) rfl]
      exact walkOn_pursues hb hframes hcontexts hmodel behavior depth hdepth htask hfork
    | finish action =>
      rw [hending]
      exact goOn_pursues hb rfl
    | load action container demands =>
      obtain ⟨f, frames, context, contexts', hframes, hcontexts, -⟩ :=
        htop (by simp) (by simp)
      rw [htask_ending hframes hcontexts (fun _ m => Evaluator.load rates container m demands) rfl]
      exact issueNext_pursues hb hframes hcontexts delays action container htask
    | serve demand =>
      rw [hending]
      have hrelease : Task.Deterministic (.release demand now) := trivial
      exact ⟨before_deterministic hb hrelease, rfl⟩
    | release demand started =>
      rw [hending]
      exact completeDemand_pursues hb demand started
    | iterate action iteration remaining body =>
      obtain ⟨f, frames, context, contexts', hframes, hcontexts, -⟩ :=
        htop (by simp) (by simp)
      rw [htask_ending hframes hcontexts
        (fun context m => (walk d rates).iterate context body m remaining) rfl]
      exact nextIteration_pursues hb hframes hcontexts action iteration htask remaining
    | visit action parameter remaining body =>
      obtain ⟨f, frames, context, contexts', hframes, hcontexts, -⟩ :=
        htop (by simp) (by simp)
      rw [htask_ending hframes hcontexts
        (fun context m => (walk d rates).visit context parameter body m remaining) rfl]
      exact nextElement_pursues hb hframes hcontexts action parameter htask remaining
    | leave element =>
      obtain ⟨f, frames, -, -, hframes, -, entry, outer, hidentities, -⟩ := htop (by simp) (by simp)
      dsimp only at hframes hidentities
      rw [VariableStack.identities, hframes, List.map_cons, List.cons_eq_cons] at hidentities
      rw [hending, ← hidentities.1]
      exact leaveFrame_pursues (a := b) hb hframes
    | return_ site pushed result' =>
      obtain ⟨-, -, context, callers, -, hcontexts, entry, hbalanced⟩ := htop (by simp) (by simp)
      obtain ⟨top, target, below, hcalled, rfl⟩ := hbalanced.caller
      rw [hending]
      exact finishCall_pursues (a := b) hb hcalled hcontexts htask
    | join => exact absurd ⟨rest, rfl⟩ joins

/-! ## Forks -/

/-- The ending of a forked activity is that of its behavior in a result frame of its own. -/
lemma forked_ending (hframes : a.stack.frames = f :: frames)
    (hcontexts : a.contexts = context :: contexts) (label : String) (role : Role)
    (behavior : Behavior) : (a.forked label role behavior).ending d rates now =
      (enter d rates behavior context (a.moment now f)).run.map Ending.of := by
  let idle : Activity := ⟨a.name ++ "/" ++ label, role, [], a.stack, a.contexts, Frame.empty 0⟩
  change (idle.before (.enterFork behavior)).ending d rates now = _
  rw [before_ending (a := idle) hframes hcontexts (.enterFork behavior) (enter d rates behavior) rfl]
  exact outcome_of _ _ fun m => ⟨rfl, rfl⟩

lemma children_mapM (m : Moment) (behaviors : List Behavior) :
    (walk d rates).children context m behaviors =
      behaviors.mapM fun behavior => (enter d rates behavior context m).run.map Ending.of := by
  induction behaviors with
  | nil =>
    rw [Walk.children]
    rfl
  | cons first rest ih =>
    rw [Walk.children, ih, List.mapM_cons]
    change (enter d rates first context m).run >>= _ = _
    cases (enter d rates first context m).run <;> rfl

/-- The synchronous children of a fork, as the fork lists them. -/
lemma children_synchronous (owner : ProcessId) (asynchronous synchronous : List Behavior) :
    (a.children owner asynchronous synchronous).filter (·.role = .synchronous owner) =
      synchronous.mapIdx fun i behavior => a.forked
        ("sync-" ++ toString (asynchronous.length + i)) (.synchronous owner) behavior := by
  rw [Activity.children, List.filter_append, List.filter_eq_nil_iff.mpr, List.filter_eq_self.mpr,
    List.nil_append]
  all_goals
    intro c hc
    obtain ⟨i, hi, rfl⟩ := List.mem_mapIdx.mp hc
    simp [forked]

/-- The endings of the children of a fork are those that the evaluator gives them. -/
lemma children_endings (hframes : a.stack.frames = f :: frames)
    (hcontexts : a.contexts = context :: contexts) (owner : ProcessId)
    (asynchronous synchronous : List Behavior) :
    ((a.children owner asynchronous synchronous).filter (·.role = .synchronous owner)).mapM
        (·.ending d rates now) =
      (walk d rates).children context (a.moment now f) synchronous := by
  have hall : ∀ label : Nat → String, (synchronous.mapIdx fun i behavior =>
      a.forked (label i) (.synchronous owner) behavior).mapM (·.ending d rates now) =
        synchronous.mapM fun behavior =>
          (enter d rates behavior context (a.moment now f)).run.map Ending.of := by
    induction synchronous with
    | nil => exact fun _ => rfl
    | cons first rest ih =>
      intro label
      rw [List.mapIdx_cons, List.mapM_cons, List.mapM_cons, ih fun i => label (i + 1),
        forked_ending hframes hcontexts]
  rw [children_synchronous, hall, children_mapM]

lemma forked_deterministic (ha : a.Deterministic) (label : String) (role : Role)
    {behavior : Behavior} (h : behavior.isDeterministic = true) :
    (a.forked label role behavior).Deterministic := by
  refine ⟨?_, ha.frames, Frame.empty_deterministic 0⟩
  intro task htask
  rw [List.mem_singleton.mp htask]
  exact h

/-- **A step that forks** splits the ending: the children end as they do by themselves, and the
parent goes on when all of them have ended. -/
theorem advance_forks (d : Deployment) (rates : ResourceKey → Option Float) (now : SimTime)
    (id : ProcessId) (env : Environment) (sound : a.IsSound) (settled : a.Settled) (ha : a.Deterministic)
    {asynchronous synchronous : List Behavior}
    (forking : a.forking = some (asynchronous, synchronous)) :
    ∃ (env' : Environment) (b : Activity), env.Steady env' ∧ b.role = a.role ∧ b.Awake ∧
      b.Deterministic ∧ (∀ c ∈ b.children id asynchronous synchronous, c.Deterministic) ∧
      a.advance d now id env = .goes ⟨env'.setBarrier id (Barrier.new synchronous.length), [],
        b.children id asynchronous synchronous, .proceed (b.before .join)⟩ ∧
      a.ending d rates now =
        ((b.children id asynchronous synchronous).filter (·.role = .synchronous id)).mapM
          (·.ending d rates now) >>= fun ends => b.rejoined d rates now ends := by
  obtain ⟨name, role, tasks, stack, contexts, result⟩ := a
  obtain ⟨behavior, depth, action, actions, rest, rfl, hkind⟩ := forking_spec forking
  let b₀ : Activity := ⟨name, role, rest, stack, contexts, result⟩
  let b := (b₀.before (.walk behavior depth actions)).before (.finish action)
  have hb₀ : b₀.Deterministic :=
    ⟨fun t ht => ha.tasks t (List.mem_cons_of_mem _ ht), ha.frames, ha.result⟩
  have hactions : ∀ x ∈ action :: actions, x.isDeterministic = true :=
    ha.tasks _ List.mem_cons_self
  have hwalk : Task.Deterministic (.walk behavior depth actions) :=
    fun x hx => hactions x (List.mem_cons_of_mem _ hx)
  have hb : b.Deterministic := before_deterministic (before_deterministic hb₀ hwalk) trivial
  obtain ⟨f, frames, context, contexts', hframes, hcontexts, -⟩ := sound.stacks rfl (by simp) (by simp)
  have hb₀awake : b₀.Awake := settled
  refine ⟨_, b, ((Environment.Steady.refl env).note (.actionEntered action)).note
    (.behaviorsForked action asynchronous.length synchronous.length), rfl,
    before_awake (before_awake hb₀awake rfl) rfl, hb, ?_, ?_, ?_⟩
  · have haction := hactions action List.mem_cons_self
    obtain ⟨actionId, name', successor, kind⟩ := action
    dsimp only at hkind
    rw [Action.isDeterministic, hkind, ActionKind.isDeterministic, Bool.and_eq_true,
      Behavior.areDeterministic_iff, Behavior.areDeterministic_iff] at haction
    intro c hc
    rcases List.mem_append.mp hc with hc | hc
    all_goals obtain ⟨i, hi, rfl⟩ := List.mem_mapIdx.mp hc
    · exact forked_deterministic hb _ _ (haction.1 _ (List.getElem_mem hi))
    · exact forked_deterministic hb _ _ (haction.2 _ (List.getElem_mem hi))
  · simp only [advance, performTask, walkOn, perform, hkind]
    rfl
  · have hending : (b₀.before (.walk behavior depth (action :: actions))).ending d rates now =
        outcome (walk d rates context (b₀.moment now f) (action :: actions) >>= b₀.onward d rates) :=
      before_ending (a := b₀) hframes hcontexts _
        (fun context m => walk d rates context m (action :: actions)) rfl now
    have hperform : (walk d rates).perform d rates context (b₀.moment now f) action = (do
        let ends ← (walk d rates).children context (b₀.moment now f) synchronous
        return (joined now ends).map fun time => { b₀.moment now f with time := time } :
        Option (Except SimTime Moment)) := by
      rw [Walk.perform]
      simp only [hkind]
      rfl
    have honward : ∀ m, b.onward d rates m =
        walk d rates context m actions >>= b₀.onward d rates :=
      action_onward (a := b₀) hframes hcontexts behavior depth action actions
    rw [walk_cons, bind_assoc, hperform, ← funext honward] at hending
    rw [children_endings (a := b) hframes hcontexts]
    refine hending.trans ?_
    change _ = (walk d rates).children context (b₀.moment now f) synchronous >>= _
    cases (walk d rates).children context (b₀.moment now f) synchronous with
    | none => rfl
    | some ends =>
      change outcome (ExceptT.mk (some ((joined now ends).map fun time =>
        { b₀.moment now f with time := time })) >>= b.onward d rates) = b.rejoined d rates now ends
      rw [rejoined]
      cases joined now ends with
      | error time => rfl
      | ok time => exact congrArg outcome (onward_moment (a := b) hframes time)

end ServiceSim.Activity
