import ServiceSim.Proofs.Interpreter.Environment
import ServiceSim.Proofs.Kernel.Processes
import Mathlib.Tactic.Common

/-!
# Frames and contexts stay balanced

An interpretation begins with some frames and assembly contexts, its `Entry`.  Every nested scope
that it enters pushes a frame, and a call pushes a context as well, and what is still to be done
says when each of them comes off again.  `Balanced` reads this off a list of tasks: the stacks hold
what the tasks will take off, on top of what the entry holds.

Every step keeps the balance (`advance_keeps`).  A balanced interpretation never fails to find the
frame or the context it expects, so no step ends with a fault of the stack discipline.  When it ends
by another error, the contexts above those of the entry belong exactly to the calls under way, and
leaving these calls restores the entry.
-/

namespace ServiceSim

/-- Whether an error is a fault of the stack discipline, or comes of one in a forked process. -/
def InterpreterError.isStackFault : InterpreterError → Bool
  | .stackDiscipline _ => true
  | .fork _ e => e.isStackFault
  | .model _ => false
  | .evaluation _ => false

/-- The identities of the frames, the current one first. -/
def VariableStack.identities (s : VariableStack) : List FrameId := s.frames.map Frame.identity

lemma VariableStack.length_identities (s : VariableStack) : s.identities.length = s.depth :=
  List.length_map _

/-! ## Binding keeps the identity of a frame -/

lemma bindEach_identity (bindings : List (String × Sampler Binding)) (target : Frame)
    (source : Source) : (bindEach bindings target source).target.identity = target.identity := by
  induction bindings generalizing target source with
  | nil => rfl
  | cons b rest ih =>
    obtain ⟨name, computation⟩ := b
    unfold bindEach
    split
    · rfl
    · exact ih _ _

/-- No failure that is reported at a barrier is a fault of the stack discipline. -/
def Environment.Faultless (env : Environment) : Prop :=
  ∀ owner, ∀ e ∈ (env.barrier owner).failures, e.isStackFault = false

lemma Environment.Faultless.of_barriers {env env' : Environment} (faultless : env.Faultless)
    (h : env'.barriers = env.barriers) : env'.Faultless := by
  intro owner
  rw [Environment.barrier, h]
  exact faultless owner

lemma Environment.Steady.faultless {env env' : Environment} (steady : env.Steady env')
    (faultless : env.Faultless) : env'.Faultless :=
  faultless.of_barriers steady.barriers

namespace Activity

/-! ## Balance -/

/-- The frames and contexts with which an interpretation begins.  There is one of each. -/
structure Entry where
  frames : List FrameId
  contexts : List ContextId
  hasFrame : frames ≠ []
  hasContext : contexts ≠ []

variable {entry : Entry} {tasks : List Task} {frames : List FrameId} {contexts : List ContextId}

/-- The stacks hold what the tasks will take off, on top of what the entry holds.  A request arrives
and its inputs are accepted before an interpretation begins, so neither is among the tasks. -/
def Balanced (entry : Entry) : List Task → List FrameId → List ContextId → Prop
  | [], frames, contexts => frames = entry.frames ∧ contexts = entry.contexts
  | .arrive _ :: _, _, _ => False
  | .accept _ :: _, _, _ => False
  | .leave element :: rest, frames, contexts =>
    ∃ outer, frames = element :: outer ∧ Balanced entry rest outer contexts
  | .return_ _ pushed _ :: rest, frames, contexts =>
    ∃ outer callee callers, frames = pushed :: outer ∧ contexts = callee :: callers ∧
      Balanced entry rest outer callers
  | .walk _ depth _ :: rest, frames, contexts =>
    depth = frames.length ∧ Balanced entry rest frames contexts
  | _ :: rest, frames, contexts => Balanced entry rest frames contexts

/-- What the entry holds is never taken off. -/
lemma Balanced.suffix (h : Balanced entry tasks frames contexts) :
    entry.frames <:+ frames ∧ entry.contexts <:+ contexts := by
  induction tasks generalizing frames contexts with
  | nil => exact ⟨h.1 ▸ List.suffix_refl _, h.2 ▸ List.suffix_refl _⟩
  | cons task rest ih =>
    cases task with
    | arrive time => exact h.elim
    | accept inputs => exact h.elim
    | leave element =>
      obtain ⟨outer, rfl, h⟩ := h
      exact ⟨(ih h).1.trans (List.suffix_cons _ _), (ih h).2⟩
    | return_ site pushed result =>
      obtain ⟨outer, callee, callers, rfl, rfl, h⟩ := h
      exact ⟨(ih h).1.trans (List.suffix_cons _ _), (ih h).2.trans (List.suffix_cons _ _)⟩
    | walk behavior depth actions => exact ih h.2
    | _ => exact ih h

lemma Balanced.frames_ne_nil (h : Balanced entry tasks frames contexts) : frames ≠ [] := by
  rintro rfl
  exact entry.hasFrame (List.suffix_nil.mp h.suffix.1)

lemma Balanced.contexts_ne_nil (h : Balanced entry tasks frames contexts) : contexts ≠ [] := by
  rintro rfl
  exact entry.hasContext (List.suffix_nil.mp h.suffix.2)

/-- Leaving the calls that are under way restores the contexts of the entry, without a fault. -/
lemma unwind_balanced (h : Balanced entry tasks frames contexts) (e : InterpreterError) :
    unwind tasks contexts e = (entry.contexts, e) := by
  induction tasks generalizing frames contexts with
  | nil =>
    rw [h.2]
    rfl
  | cons task rest ih =>
    cases task with
    | arrive time => exact h.elim
    | accept inputs => exact h.elim
    | leave element =>
      obtain ⟨outer, rfl, h⟩ := h
      exact ih h
    | return_ site pushed result =>
      obtain ⟨outer, callee, callers, rfl, rfl, h⟩ := h
      exact ih h
    | walk behavior depth actions => exact ih h.2
    | _ => exact ih h

/-- The stacks of an activity are balanced. -/
def IsBalanced (entry : Entry) (a : Activity) : Prop :=
  Balanced entry a.tasks a.stack.identities a.contexts

variable {a : Activity} {env env' : Environment} {now : SimTime} {id : ProcessId}
  {d : Deployment}

lemma IsBalanced.current (h : a.IsBalanced entry) :
    ∃ f rest, a.stack.frames = f :: rest ∧ a.stack.current = .ok f := by
  have hne := h.frames_ne_nil
  unfold VariableStack.identities at hne
  cases hf : a.stack.frames with
  | nil =>
    rw [hf] at hne
    exact absurd rfl hne
  | cons f rest =>
    refine ⟨f, rest, rfl, ?_⟩
    rw [VariableStack.current, hf]

lemma IsBalanced.context (h : a.IsBalanced entry) : ∃ c, a.context = .ok c := by
  have hne := h.contexts_ne_nil
  cases hc : a.contexts with
  | nil => exact absurd hc hne
  | cons c rest =>
    refine ⟨c, ?_⟩
    rw [Activity.context, hc]

/-! ## Steps -/

/-- **What an interpretation leaves when it ends.**  The contexts are those of the entry.  The frames
are too if it has run through, and otherwise those of the entry are still at the bottom. -/
structure Restored (entry : Entry) (c : Completion) : Prop where
  contexts : c.contexts = entry.contexts
  completed : ∀ result, c.result = .ok result → c.stack.identities = entry.frames
  failed : ∀ e, c.result = .error e →
    e.isStackFault = false ∧ entry.frames <:+ c.stack.identities

/-- A step keeps the balance, or ends and restores the entry.  What it forks is balanced too. -/
def Keeps (entry : Entry) (id : ProcessId) : Progress → Prop
  | .goes turn => turn.world.Faultless ∧ (∀ p ∈ turn.next.goesOn id, p.2.IsBalanced entry) ∧
      ∀ b ∈ turn.spawned, ∃ entry, b.IsBalanced entry
  | .ends env c => env.Faultless ∧ Restored entry c

lemma abort_keeps (h : a.IsBalanced entry) (faultless : env.Faultless) {e : InterpreterError}
    (he : e.isStackFault = false) : Keeps entry id (a.abort now env e) := by
  unfold abort
  rw [unwind_balanced h e]
  refine ⟨faultless, rfl, ?_, ?_⟩
  · intro result hresult
    cases hresult
  · intro e' he'
    injection he' with he'
    exact ⟨he' ▸ he, h.suffix.1⟩

lemma goOn_keeps (h : a.IsBalanced entry) (faultless : env.Faultless) :
    Keeps entry id (a.goOn env) := by
  refine ⟨faultless, ?_, by simp⟩
  intro p hp
  rw [List.mem_singleton.mp hp]
  exact h

lemma goOnUnless_keeps (h : a.IsBalanced entry) (faultless : env.Faultless)
    (failure : Option EvalError) : Keeps entry id (a.goOnUnless now env failure) := by
  cases failure with
  | none => exact goOn_keeps h faultless
  | some e => exact abort_keeps h faultless rfl

lemma startService_keeps (h : a.IsBalanced entry) (faultless : env.Faultless) (load : Load) :
    Keeps entry id (a.startService now env load) := by
  refine ⟨faultless.of_barriers rfl, ?_, by simp⟩
  intro p hp
  rw [List.mem_singleton.mp hp]
  exact h

lemma demand_keeps (h : a.IsBalanced entry) (faultless : env.Faultless) (action : Action)
    (container : ContainerId) (resource : String) (amount : Float) :
    Keeps entry id (a.demand now id env action container resource amount) := by
  unfold demand
  dsimp only
  split
  · exact goOn_keeps h (faultless.of_barriers rfl)
  · split_ifs
    · exact startService_keeps h (faultless.of_barriers rfl) _
    · refine ⟨faultless.of_barriers rfl, ?_, by simp⟩
      intro p hp
      rw [List.mem_singleton.mp hp]
      exact h

lemma issueNext_keeps (h : a.IsBalanced entry) (faultless : env.Faultless) (action : Action)
    (container : ContainerId) (demands : List ResourceDemand) :
    Keeps entry id (a.issueNext now id env action container demands) := by
  cases demands with
  | nil => exact goOn_keeps h faultless
  | cons next rest =>
    obtain ⟨f, _, _, hcurrent⟩ := h.current
    unfold issueNext
    simp only [hcurrent]
    split
    next e env' hsample =>
      exact abort_keeps h ((Environment.sample_steady hsample).faultless faultless) rfl
    next amount env' hsample =>
      exact demand_keeps (a := a.before (.load action container rest)) h
        ((Environment.sample_steady hsample).faultless faultless) _ _ _ _

lemma completeDemand_keeps (h : a.IsBalanced entry) (faultless : env.Faultless) (load : Load)
    (started : SimTime) : Keeps entry id (a.completeDemand now id env load started) := by
  refine ⟨faultless.of_barriers rfl, ?_, by simp⟩
  intro p hp
  rw [List.mem_singleton.mp hp]
  exact h

lemma beginInternal_keeps (h : a.IsBalanced entry) (faultless : env.Faultless) (action : Action)
    (demands : List ResourceDemand) :
    Keeps entry id (a.beginInternal d now env action demands) := by
  obtain ⟨c, hcontext⟩ := h.context
  unfold beginInternal container
  simp only [hcontext]
  cases d.containerOf c with
  | error e => exact abort_keeps h faultless rfl
  | ok container => exact goOn_keeps h faultless

/-! ### Calls -/

lemma enterCallee_keeps (h : a.IsBalanced entry) (faultless : env.Faultless) (site : CallSite)
    (context : ContextId) (behavior : Behavior) :
    Keeps entry id (a.enterCallee now env site context behavior) := by
  obtain ⟨f, _, _, hcurrent⟩ := h.current
  unfold enterCallee
  simp only [hcurrent]
  have hframe : env.Steady env.newFrame.2 := (Environment.Steady.refl env).newFrame
  split
  next e frame env' hbind =>
    have hsteady := hframe.trans (Environment.bind_steady hbind)
    exact abort_keeps h (hsteady.faultless faultless) rfl
  next input env' hbind =>
    have hsteady := hframe.trans (Environment.bind_steady hbind)
    exact goOn_keeps ⟨_, _, _, rfl, rfl, h⟩ ((hsteady.note _).faultless faultless)

lemma beginCall_keeps (h : a.IsBalanced entry) (faultless : env.Faultless) (action : Action)
    (call : ExternalCall) : Keeps entry id (a.beginCall d now id env action call) := by
  obtain ⟨c, hcontext⟩ := h.context
  unfold beginCall callee
  simp only [hcontext]
  cases d.context c with
  | error e => exact abort_keeps h faultless rfl
  | ok caller =>
    dsimp only
    cases d.resolveCall caller.id call.role call.service with
    | error e => exact abort_keeps h faultless rfl
    | ok callee =>
      exact enterCallee_keeps h ((startMeasuring_steady _ _ _ _ env).faultless faultless) _ _ _

lemma bindReturns_identity {returns : List VariableUsage} {output target frame : Frame}
    {failure : Option EvalError}
    (h : bindReturns env returns output target = (failure, frame, env')) :
    frame.identity = target.identity := by
  unfold bindReturns at h
  split_ifs at h
  · injection h with _ h
    injection h with h _
    rw [← h]
    clear h
    induction output.own generalizing target with
    | nil => rfl
    | cons b rest ih => exact ih
  · injection h with _ h
    injection h with h _
    rw [← h]
    exact bindEach_identity _ _ _

/-- A frame that the tasks take off next is found on top. -/
lemma leaveFrame_keeps {pushed : FrameId} {outer : List FrameId}
    (hframes : a.stack.identities = pushed :: outer) {go : Activity → Progress}
    (hgo : ∀ stack : VariableStack, stack.identities = outer →
      Keeps entry id (go { a with stack := stack })) :
    Keeps entry id (a.leaveFrame now env pushed go) := by
  unfold VariableStack.identities at hframes
  cases hf : a.stack.frames with
  | nil =>
    rw [hf] at hframes
    cases hframes
  | cons f rest =>
    rw [hf, List.map_cons, List.cons_eq_cons] at hframes
    unfold leaveFrame VariableStack.popExpecting
    simp only [hf, if_pos hframes.1]
    exact hgo ⟨rest⟩ hframes.2

lemma finishCall_keeps (site : CallSite) (pushed : FrameId) (result : Frame)
    (h : Balanced entry (.return_ site pushed result :: a.tasks) a.stack.identities a.contexts)
    (faultless : env.Faultless) : Keeps entry id (a.finishCall d now id env site pushed result) := by
  obtain ⟨outer, callee, callers, hframes, hcontexts, hbalanced⟩ := h
  unfold finishCall
  simp only [hcontexts]
  refine leaveFrame_keeps (a := { a with contexts := callers, result := result }) hframes ?_
  intro stack hstack
  have hcaller : IsBalanced entry
      { a with contexts := callers, result := result, stack := stack } := by
    rw [IsBalanced, hstack]
    exact hbalanced
  obtain ⟨f, rest, hrest, hcurrent⟩ := hcaller.current
  dsimp only at hrest hcurrent ⊢
  simp only [hcurrent]
  cases hbind : bindReturns env site.call.returns a.result f with
  | mk failure bound =>
    obtain ⟨frame, env'⟩ := bound
    have hfaultless := (bindReturns_steady hbind).faultless faultless
    have hreplace : IsBalanced entry
        { a with contexts := callers, result := result, stack := ⟨frame :: rest⟩ } := by
      have hids : (⟨frame :: rest⟩ : VariableStack).identities = stack.identities := by
        rw [VariableStack.identities, VariableStack.identities, hrest, List.map_cons,
          List.map_cons, bindReturns_identity hbind]
      rw [IsBalanced, hids]
      exact hcaller
    simp only [VariableStack.replaceTop, hrest]
    cases failure with
    | some e => exact abort_keeps hreplace hfaultless rfl
    | none => exact goOn_keeps hreplace ((stopMeasuring_steady site env').faultless hfaultless)

/-! ### Branches and iterations -/

lemma walking_balanced (h : a.IsBalanced entry) (behavior : Behavior) :
    (a.walking behavior).IsBalanced entry :=
  ⟨(VariableStack.length_identities a.stack).symm, h⟩

lemma branch_keeps (h : a.IsBalanced entry) (faultless : env.Faultless) (action : Action)
    (transitions : List BranchTransition) :
    Keeps entry id (a.branch now env action transitions) := by
  obtain ⟨f, _, _, hcurrent⟩ := h.current
  unfold branch
  simp only [hcurrent]
  split
  all_goals
    rename_i hsample
    have hfaultless := (Environment.sample_steady hsample).faultless faultless
  · exact abort_keeps h hfaultless rfl
  · exact abort_keeps h hfaultless rfl
  · exact goOn_keeps h (hfaultless.of_barriers rfl)
  · exact goOn_keeps (walking_balanced h _) hfaultless

lemma iterationCount_sound (h : a.IsBalanced entry) {action : Action}
    {specification : Specification} {e : InterpreterError}
    (hcount : a.iterationCount env action specification = (.error e, env')) :
    e.isStackFault = false := by
  obtain ⟨f, _, _, hcurrent⟩ := h.current
  unfold iterationCount at hcount
  simp only [hcurrent] at hcount
  split at hcount
  · injection hcount with he _
    injection he with he
    exact he ▸ rfl
  · split_ifs at hcount
    · injection hcount with he _
      injection he with he
      exact he ▸ rfl
    · cases hcount

lemma beginLoop_keeps (h : a.IsBalanced entry) (faultless : env.Faultless) (action : Action)
    (iterations : Specification) (body : Behavior) :
    Keeps entry id (a.beginLoop now env action iterations body) := by
  unfold beginLoop
  split
  all_goals
    rename_i hcount
    have hfaultless := (iterationCount_steady hcount).faultless faultless
  · exact abort_keeps h hfaultless (iterationCount_sound h hcount)
  · exact goOn_keeps h (hfaultless.of_barriers rfl)

lemma nextIteration_keeps (h : a.IsBalanced entry) (faultless : env.Faultless) (action : Action)
    (iteration : Nat) (body : Behavior) (remaining : Nat) :
    Keeps entry id (a.nextIteration env action iteration body remaining) := by
  cases remaining with
  | zero => exact goOn_keeps h faultless
  | succ remaining =>
    exact goOn_keeps (walking_balanced (a := a.before (.iterate action (iteration + 1) remaining
      body)) h body) (faultless.of_barriers rfl)

lemma beginIterator_keeps (h : a.IsBalanced entry) (faultless : env.Faultless) (action : Action)
    (parameter : String) (body : Behavior) :
    Keeps entry id (a.beginIterator now env action parameter body) := by
  unfold beginIterator
  dsimp only
  split
  all_goals
    rename_i hcount
    have hfaultless := (iterationCount_steady hcount).faultless faultless
  · exact abort_keeps h hfaultless (iterationCount_sound h hcount)
  · exact goOn_keeps h (hfaultless.of_barriers rfl)

lemma nextElement_keeps (h : a.IsBalanced entry) (faultless : env.Faultless) (action : Action)
    (parameter : String) (body : Behavior) (remaining : Nat) :
    Keeps entry id (a.nextElement now env action parameter body remaining) := by
  cases remaining with
  | zero => exact goOn_keeps h faultless
  | succ remaining =>
    obtain ⟨f, _, _, hcurrent⟩ := h.current
    unfold nextElement
    simp only [hcurrent]
    have hframe : env.Steady env.newFrame.2 := (Environment.Steady.refl env).newFrame
    split
    all_goals
      rename_i hresolve
      have hfaultless := (hframe.trans (Environment.resolve_steady hresolve)).faultless faultless
    · exact abort_keeps h hfaultless rfl
    next element env' =>
      have hnext : IsBalanced entry { (a.before (.visit action parameter remaining body)).before
          (.leave element.identity) with stack := a.stack.push element } := ⟨_, rfl, h⟩
      exact goOn_keeps (walking_balanced hnext body) hfaultless

/-! ### Variables and forks -/

lemma setVariable_keeps (h : a.IsBalanced entry) (faultless : env.Faultless)
    (usages : List VariableUsage) : Keeps entry id (a.setVariable now env usages) := by
  obtain ⟨f, _, _, hcurrent⟩ := h.current
  unfold setVariable
  simp only [hcurrent]
  cases hbind : env.bind usages f a.result with
  | mk failure bound =>
    exact goOnUnless_keeps (a := { a with result := bound.1 }) h
      ((Environment.bind_steady hbind).faultless faultless) failure

/-- A forked process begins with copies of the frames and contexts, of which there are some. -/
lemma forked_balanced (h : a.IsBalanced entry) (label : String) (role : Role)
    (behavior : Behavior) : ∃ entry, (a.forked label role behavior).IsBalanced entry :=
  ⟨⟨a.stack.identities, a.contexts, h.frames_ne_nil, h.contexts_ne_nil⟩, rfl, rfl⟩

lemma children_balanced (h : a.IsBalanced entry) (asynchronous synchronous : List Behavior) :
    ∀ b ∈ a.children id asynchronous synchronous, ∃ entry, b.IsBalanced entry := by
  intro b hb
  rcases List.mem_append.mp hb with hb | hb
  all_goals
    rw [List.mem_mapIdx] at hb
    obtain ⟨i, _, rfl⟩ := hb
    exact forked_balanced h _ _ _

lemma fork_keeps (h : a.IsBalanced entry) (faultless : env.Faultless) (action : Action)
    (asynchronous synchronous : List Behavior) :
    Keeps entry id (a.fork id env action asynchronous synchronous) := by
  refine ⟨?_, ?_, children_balanced h asynchronous synchronous⟩
  · intro owner
    rw [Environment.barrier_setBarrier]
    split_ifs
    · simp [Barrier.new]
    · exact faultless owner
  · intro p hp
    rw [List.mem_singleton.mp hp]
    exact h

lemma faultless_dropBarrier (faultless : env.Faultless) (owner : ProcessId) :
    (env.dropBarrier owner).Faultless := by
  intro other
  rw [Environment.barrier_dropBarrier]
  split_ifs
  · simp [Barrier.new]
  · exact faultless other

lemma joinForked_keeps (h : a.IsBalanced entry) (faultless : env.Faultless) :
    Keeps entry id (a.joinForked now id env) := by
  unfold joinForked
  dsimp only
  split_ifs
  · cases hfailure : (env.barrier id).collect.1 with
    | some e =>
      refine abort_keeps h (faultless_dropBarrier faultless id) (faultless id e ?_)
      exact List.mem_of_head? hfailure
    | none => exact goOn_keeps h (faultless_dropBarrier faultless id)
  · refine ⟨?_, ?_, by simp⟩
    · intro owner
      dsimp only
      rw [Environment.barrier_setBarrier]
      split_ifs with howner
      · subst howner
        exact faultless owner
      · exact faultless owner
    · intro p hp
      rw [List.mem_singleton.mp hp]
      exact h

/-! ### All steps -/

lemma perform_keeps (h : a.IsBalanced entry) (faultless : env.Faultless) (action : Action) :
    Keeps entry id (a.perform d now id env action) := by
  unfold perform
  cases action.kind with
  | start => exact goOn_keeps h faultless
  | stop => exact goOn_keeps h faultless
  | internal demands => exact beginInternal_keeps h faultless action demands
  | externalCall call => exact beginCall_keeps h faultless action call
  | branch transitions => exact branch_keeps h faultless action transitions
  | loop iterations body => exact beginLoop_keeps h faultless action iterations body
  | collectionIterator parameter body => exact beginIterator_keeps h faultless action parameter body
  | setVariable usages => exact setVariable_keeps h faultless usages
  | fork asynchronous synchronous => exact fork_keeps h faultless action asynchronous synchronous

lemma walkOn_keeps (behavior : Behavior) (depth : Nat) (actions : List Action)
    (h : Balanced entry (.walk behavior depth actions :: a.tasks) a.stack.identities a.contexts)
    (faultless : env.Faultless) :
    Keeps entry id (a.walkOn d now id env behavior depth actions) := by
  obtain ⟨hdepth, h⟩ := h
  cases actions with
  | nil =>
    rw [VariableStack.length_identities] at hdepth
    unfold walkOn
    rw [if_pos hdepth.symm]
    exact goOn_keeps h faultless
  | cons action rest =>
    have hnoted : (env.note (.actionEntered action)).Faultless := faultless.of_barriers rfl
    exact perform_keeps (a := (a.before (.walk behavior depth rest)).before (.finish action))
      ⟨hdepth, h⟩ hnoted action

lemma enterBehavior_keeps (h : a.IsBalanced entry) (faultless : env.Faultless)
    (behavior : Behavior) : Keeps entry id (a.enterBehavior env behavior) :=
  goOn_keeps (walking_balanced (a := { a with result := env.newFrame.1 }) h behavior)
    (faultless.of_barriers rfl)

/-- **Every step keeps the balance.** -/
theorem advance_keeps (d : Deployment) (now : SimTime) (id : ProcessId)
    (h : a.IsBalanced entry) (faultless : env.Faultless) : Keeps entry id (a.advance d now id env) := by
  obtain ⟨name, role, tasks, stack, contexts, result⟩ := a
  unfold advance
  cases tasks with
  | nil =>
    refine ⟨faultless, h.2, fun _ _ => h.1, ?_⟩
    intro e he
    cases he
  | cons task rest =>
    cases task with
    | arrive time => exact h.elim
    | accept inputs => exact h.elim
    | enterFork behavior =>
      exact goOn_keeps (a := before (.invoke behavior) ⟨name, role, rest, stack, contexts, result⟩)
        h (faultless.of_barriers rfl)
    | invoke behavior =>
      exact enterBehavior_keeps (a := ⟨name, role, rest, stack, contexts, result⟩) h faultless
        behavior
    | walk behavior depth actions =>
      exact walkOn_keeps (a := ⟨name, role, rest, stack, contexts, result⟩) behavior depth actions h
        faultless
    | finish action =>
      exact goOn_keeps (a := ⟨name, role, rest, stack, contexts, result⟩) h
        (faultless.of_barriers rfl)
    | load action container demands =>
      exact issueNext_keeps (a := ⟨name, role, rest, stack, contexts, result⟩) h faultless action
        container demands
    | serve load =>
      exact startService_keeps (a := ⟨name, role, rest, stack, contexts, result⟩) h faultless load
    | release load started =>
      exact completeDemand_keeps (a := ⟨name, role, rest, stack, contexts, result⟩) h faultless load
        started
    | iterate action iteration remaining body =>
      exact nextIteration_keeps (a := ⟨name, role, rest, stack, contexts, result⟩) h faultless
        action iteration body remaining
    | visit action parameter remaining body =>
      exact nextElement_keeps (a := ⟨name, role, rest, stack, contexts, result⟩) h faultless action
        parameter body remaining
    | leave element =>
      obtain ⟨outer, hframes, h⟩ := h
      refine leaveFrame_keeps (a := ⟨name, role, rest, stack, contexts, result⟩) hframes ?_
      intro stack hstack
      refine goOn_keeps ?_ faultless
      rw [IsBalanced, hstack]
      exact h
    | return_ site pushed result' =>
      exact finishCall_keeps (a := ⟨name, role, rest, stack, contexts, result⟩) site pushed result'
        h faultless
    | join =>
      exact joinForked_keeps (a := ⟨name, role, rest, stack, contexts, result⟩) h faultless

end Activity

end ServiceSim
