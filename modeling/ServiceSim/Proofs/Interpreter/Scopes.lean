import ServiceSim.Proofs.Interpreter.StackDiscipline

/-!
# Nested scopes

A nested scope, such as a call or an element of a collection, is a stretch of tasks that ends with
the one that takes off the frame of the scope.  A step works at the top: it puts others in place of
the first task and may push frames, or it takes a frame off, and a return also binds what is
returned in the frame below (`Moved`).  `advance_moves` says that there is no other way to go on.

An activity whose frames are balanced therefore leaves alone whatever lies below a scope: as long as
it is inside, what follows is still to be done and the frames below are there (`advance_within`), also
when an error ends it, and it gets outside by the step after which exactly this is left
(`Moved.inside`).

The behaviors that are being walked along have a result frame each, and those that have been left for a
callee are kept for the return.  `restored` says which one comes to light when tasks have been done, and
`collecting` what the next task makes of that of its own behavior; no step changes another one.
-/

namespace ServiceSim

/-- Whether a task takes a frame off. -/
def Task.takesOff : Task → Bool
  | .leave _ => true
  | .return_ _ _ _ => true
  | _ => false

/-- Whether a task returns from a call. -/
def Task.isReturn : Task → Bool
  | .return_ _ _ _ => true
  | _ => false

namespace Activity

/-! ## Result frames -/

/-- The result frame that is current again when tasks have been done which do not set variables: a
return restores that of its caller. -/
def restored : List Task → Frame → Frame
  | [], result => result
  | .return_ _ _ saved :: rest, _ => restored rest saved
  | _ :: rest, result => restored rest result

/-- What usages that are bound next make of a result frame. -/
def setting (a : Activity) (env : Environment) (usages : List VariableUsage) (result : Frame) :
    Frame :=
  match a.stack.current with
  | .error _ => result
  | .ok f => (bindUsages usages f result env.source).target

/-- What the next task makes of the result frame of the behavior that it belongs to: whoever enters a
behavior begins with an empty one, whoever sets variables binds them in it, and nothing else changes
it. -/
def collecting (a : Activity) (env : Environment) (result : Frame) : Frame :=
  match a.tasks with
  | .invoke _ :: _ => Frame.empty env.frames
  | .walk _ _ (action :: _) :: _ =>
    match action.kind with
    | .setVariable usages => a.setting env usages result
    | _ => result
  | _ => result

lemma collecting_setting {a : Activity} {env : Environment} {behavior : Behavior} {depth : Nat}
    {action : Action} {actions : List Action} {rest : List Task}
    (htasks : a.tasks = .walk behavior depth (action :: actions) :: rest) {usages : List VariableUsage}
    (hkind : action.kind = .setVariable usages) (result : Frame) :
    a.collecting env result = a.setting env usages result := by
  rw [collecting, htasks]
  dsimp only
  rw [hkind]

lemma collecting_plain {a : Activity} {env : Environment} {behavior : Behavior} {depth : Nat}
    {actions : List Action} {rest : List Task} (htasks : a.tasks = .walk behavior depth actions :: rest)
    (plain : ∀ action more usages, actions = action :: more → action.kind ≠ .setVariable usages)
    (result : Frame) : a.collecting env result = result := by
  rw [collecting, htasks]
  cases actions with
  | nil => rfl
  | cons action more =>
    dsimp only
    split
    next usages hkind => exact absurd hkind (plain action more usages rfl)
    next => rfl

lemma restored_cons {task : Task} (keeps : task.isReturn = false) (rest : List Task) (result : Frame) :
    restored (task :: rest) result = restored rest result := by
  cases task with
  | return_ site pushed saved => cases keeps
  | _ => rfl

lemma restored_append (first rest : List Task) (result : Frame) :
    restored (first ++ rest) result = restored rest (restored first result) := by
  induction first generalizing result with
  | nil => rfl
  | cons task first ih =>
    cases task with
    | _ => exact ih _

/-- Without a return nothing is restored. -/
lemma restored_of_plain {tasks : List Task} (h : tasks.countP Task.isReturn = 0) (result : Frame) :
    restored tasks result = result := by
  induction tasks with
  | nil => rfl
  | cons task rest ih =>
    rw [List.countP_eq_zero] at h
    rw [restored_cons (Bool.eq_false_iff.mpr (h task List.mem_cons_self))]
    exact ih (List.countP_eq_zero.mpr fun t ht => h t (List.mem_cons_of_mem _ ht))

/-- A return restores what its caller had, whatever comes before. -/
lemma restored_congr {tasks : List Task} (h : tasks.countP Task.isReturn ≠ 0) (first other : Frame) :
    restored tasks first = restored tasks other := by
  induction tasks with
  | nil => exact absurd rfl h
  | cons task rest ih =>
    cases task with
    | return_ site pushed saved => rfl
    | _ => exact ih h

/-! ## Depth -/

variable {entry : Entry} {tasks : List Task} {frames : List FrameId} {contexts : List ContextId}

/-- On top of the frames of the entry lie as many as the tasks take off. -/
lemma Balanced.length_frames (h : Balanced entry tasks frames contexts) :
    frames.length = entry.frames.length + tasks.countP Task.takesOff := by
  induction tasks generalizing frames contexts with
  | nil =>
    rw [h.1]
    rfl
  | cons task rest ih =>
    cases task with
    | arrive time => exact h.elim
    | accept inputs => exact h.elim
    | leave element =>
      obtain ⟨outer, rfl, h⟩ := h
      rw [List.length_cons, ih h, List.countP_cons_of_pos rfl]
      rfl
    | return_ site pushed result =>
      obtain ⟨outer, callee, callers, rfl, rfl, h⟩ := h
      rw [List.length_cons, ih h, List.countP_cons_of_pos rfl]
      rfl
    | walk behavior depth actions => exact ih h.2
    | _ => exact ih h

/-! ## Going on above others -/

/-- An activity has everything to do that another one has, then with its result frame, and everything
on its stack. -/
structure Above (base a : Activity) : Prop where
  tasks : ∃ more, a.tasks = more ++ base.tasks ∧ restored more a.result = base.result
  frames : base.stack.frames <:+ a.stack.frames

/-- A step goes on above what another activity has, or ends by an error above its frames. -/
def StaysAbove (base : Activity) (id : ProcessId) : Progress → Prop
  | .goes turn => ∃ b, turn.next.goesOn id = [(id, b)] ∧ base.Above b
  | .ends _ c => (∃ e, c.result = .error e) ∧ base.stack.frames <:+ c.stack.frames

variable {base a : Activity} {env : Environment} {now : SimTime} {id : ProcessId} {d : Deployment}

namespace Above

lemma refl (a : Activity) : a.Above a := ⟨⟨[], rfl, rfl⟩, List.suffix_refl _⟩

lemma suffix (h : base.Above a) : base.tasks <:+ a.tasks := by
  obtain ⟨more, htasks, -⟩ := h.tasks
  exact ⟨more, htasks.symm⟩

lemma trans {b : Activity} (h : base.Above a) (h' : a.Above b) : base.Above b := by
  obtain ⟨more, htasks, hresult⟩ := h.tasks
  obtain ⟨more', htasks', hresult'⟩ := h'.tasks
  refine ⟨⟨more' ++ more, ?_, ?_⟩, h.frames.trans h'.frames⟩
  · rw [htasks', htasks, List.append_assoc]
  · rw [restored_append, hresult', hresult]

lemma before (h : base.Above a) {task : Task} (keeps : task.isReturn = false) :
    base.Above (a.before task) := by
  obtain ⟨more, htasks, hresult⟩ := h.tasks
  exact ⟨⟨task :: more, congrArg (task :: ·) htasks, (restored_cons keeps more _).trans hresult⟩,
    h.frames⟩

lemma walking (h : base.Above a) (behavior : Behavior) : base.Above (a.walking behavior) :=
  h.before rfl

/-- A callee returns to the result frame of its caller. -/
lemma calling (h : base.Above a) (site : CallSite) (pushed : FrameId) (behavior : Behavior) :
    base.Above ((a.before (.return_ site pushed a.result)).before (.invoke behavior)) := by
  obtain ⟨more, htasks, hresult⟩ := h.tasks
  refine ⟨⟨.invoke behavior :: .return_ site pushed a.result :: more, ?_, hresult⟩, h.frames⟩
  exact congrArg (fun tasks => .invoke behavior :: .return_ site pushed a.result :: tasks) htasks

lemma push (h : base.Above a) (f : Frame) : base.Above { a with stack := a.stack.push f } :=
  ⟨h.tasks, h.frames.trans (List.suffix_cons _ _)⟩

end Above

lemma StaysAbove.trans {lower : Activity} {progress : Progress} (h : StaysAbove base id progress)
    (hbase : lower.Above base) : StaysAbove lower id progress := by
  cases progress with
  | goes turn =>
    obtain ⟨b, hnext, habove⟩ := h
    exact ⟨b, hnext, hbase.trans habove⟩
  | ends env c => exact ⟨h.1, hbase.frames.trans h.2⟩

lemma abort_above (h : base.stack.frames <:+ a.stack.frames) (e : InterpreterError) :
    StaysAbove base id (a.abort now env e) := ⟨⟨_, rfl⟩, h⟩

lemma goOn_above (h : base.Above a) : StaysAbove base id (a.goOn env) := ⟨a, rfl, h⟩

lemma goOnUnless_above (h : base.Above a) (failure : Option EvalError) :
    StaysAbove base id (a.goOnUnless now env failure) := by
  cases failure with
  | none => exact goOn_above h
  | some e => exact abort_above h.frames _

lemma startService_above (h : base.Above a) (load : Load) :
    StaysAbove base id (a.startService now env load) := ⟨_, rfl, h.before rfl⟩

lemma demand_above (h : base.Above a) (action : Action) (container : ContainerId)
    (resource : String) (amount : Float) :
    StaysAbove base id (a.demand now id env action container resource amount) := by
  unfold demand
  dsimp only
  split
  · exact goOn_above h
  · split_ifs
    · exact startService_above h _
    · exact ⟨_, rfl, h.before rfl⟩

lemma issueNext_above (h : base.Above a) (action : Action) (container : ContainerId)
    (demands : List ResourceDemand) :
    StaysAbove base id (a.issueNext now id env action container demands) := by
  cases demands with
  | nil => exact goOn_above h
  | cons next rest =>
    rw [issueNext]
    split
    · exact abort_above h.frames _
    · split
      · exact abort_above h.frames _
      · exact demand_above (h.before rfl) _ _ _ _

lemma beginInternal_above (h : base.Above a) (action : Action) (demands : List ResourceDemand) :
    StaysAbove base id (a.beginInternal d now env action demands) := by
  unfold beginInternal
  split
  · exact abort_above h.frames _
  · exact goOn_above (h.before rfl)

lemma enterCallee_above (h : base.Above a) (site : CallSite) (context : ContextId)
    (behavior : Behavior) : StaysAbove base id (a.enterCallee now env site context behavior) := by
  unfold enterCallee
  split
  · exact abort_above h.frames _
  · dsimp only
    split
    · exact abort_above h.frames _
    next input env' _ =>
      have hcalled := (h.calling site input.identity behavior).push input
      exact goOn_above ⟨hcalled.tasks, hcalled.frames⟩

lemma beginCall_above (h : base.Above a) (action : Action) (call : ExternalCall) :
    StaysAbove base id (a.beginCall d now id env action call) := by
  unfold beginCall
  split
  · exact abort_above h.frames _
  · exact enterCallee_above h _ _ _

lemma branch_above (h : base.Above a) (action : Action) (transitions : List BranchTransition) :
    StaysAbove base id (a.branch now env action transitions) := by
  unfold branch
  split
  · exact abort_above h.frames _
  · dsimp only
    split
    · exact abort_above h.frames _
    · exact abort_above h.frames _
    · exact goOn_above h
    · exact goOn_above (h.walking _)

lemma beginLoop_above (h : base.Above a) (action : Action) (iterations : Specification)
    (body : Behavior) : StaysAbove base id (a.beginLoop now env action iterations body) := by
  unfold beginLoop
  split
  · exact abort_above h.frames _
  · exact goOn_above (h.before rfl)

lemma nextIteration_above (h : base.Above a) (action : Action) (iteration : Nat) (body : Behavior)
    (remaining : Nat) : StaysAbove base id (a.nextIteration env action iteration body remaining) := by
  cases remaining with
  | zero => exact goOn_above h
  | succ remaining => exact goOn_above ((h.before rfl).walking body)

lemma beginIterator_above (h : base.Above a) (action : Action) (parameter : String)
    (body : Behavior) : StaysAbove base id (a.beginIterator now env action parameter body) := by
  unfold beginIterator
  dsimp only
  split
  · exact abort_above h.frames _
  · exact goOn_above (h.before rfl)

lemma nextElement_above (h : base.Above a) (action : Action) (parameter : String) (body : Behavior)
    (remaining : Nat) :
    StaysAbove base id (a.nextElement now env action parameter body remaining) := by
  cases remaining with
  | zero => exact goOn_above h
  | succ remaining =>
    rw [nextElement]
    split
    · exact abort_above h.frames _
    · dsimp only
      split
      · exact abort_above h.frames _
      · exact goOn_above ((((h.before rfl).before rfl).push _).walking body)

lemma setVariable_above {usages : List VariableUsage}
    (h : base.Above { a with result := a.setting env usages a.result }) :
    StaysAbove base id (a.setVariable now env usages) := by
  unfold setVariable
  cases hcurrent : a.stack.current with
  | error fault => exact abort_above h.frames _
  | ok f =>
    rw [setting, hcurrent] at h
    exact goOnUnless_above h _

lemma joinForked_above (h : base.Above a) : StaysAbove base id (a.joinForked now id env) := by
  unfold joinForked
  dsimp only
  split_ifs
  · split
    · exact abort_above h.frames _
    · exact goOn_above h
  · exact ⟨_, rfl, h.before rfl⟩

lemma acceptInputs_above (h : base.Above a) (inputs : List VariableUsage) :
    StaysAbove base id (a.acceptInputs now env inputs) :=
  goOnUnless_above (h.push _) _

lemma perform_above (h : base.Above a) (action : Action)
    (plain : ∀ usages, action.kind ≠ .setVariable usages) :
    StaysAbove base id (a.perform d now id env action) := by
  unfold perform
  cases hkind : action.kind with
  | start => exact goOn_above h
  | stop => exact goOn_above h
  | internal demands => exact beginInternal_above h action demands
  | externalCall call => exact beginCall_above h action call
  | branch transitions => exact branch_above h action transitions
  | loop iterations body => exact beginLoop_above h action iterations body
  | collectionIterator parameter body => exact beginIterator_above h action parameter body
  | setVariable usages => exact absurd hkind (plain usages)
  | fork asynchronous synchronous => exact ⟨_, rfl, h.before rfl⟩

/-- Walking on, unless variables are set next. -/
lemma walkOn_above (h : base.Above a) (behavior : Behavior) (depth : Nat) (actions : List Action)
    (plain : ∀ action rest usages, actions = action :: rest → action.kind ≠ .setVariable usages) :
    StaysAbove base id (a.walkOn d now id env behavior depth actions) := by
  cases actions with
  | nil =>
    unfold walkOn
    split_ifs
    · exact goOn_above h
    · exact abort_above h.frames _
  | cons action rest =>
    exact perform_above ((h.before rfl).before rfl) action fun usages => plain action rest usages rfl

/-! ## All steps -/

/-- **How an activity goes on.** -/
inductive Moved (a b : Activity) : Prop where
  /-- It does the first task, which may lead to others and to frames on top. -/
  | above {task : Task} {rest : List Task} : a.tasks = task :: rest → task.takesOff = false →
      rest <:+ b.tasks → a.stack.frames <:+ b.stack.frames → Moved a b
  /-- It leaves an element, and takes off one frame. -/
  | leaves {element : FrameId} {rest : List Task} : a.tasks = .leave element :: rest →
      b.tasks = rest → b.stack.frames = a.stack.frames.tail → Moved a b
  /-- It returns from a call, takes off one frame and binds in the one below. -/
  | returns {site : CallSite} {pushed : FrameId} {result : Frame} {rest : List Task} :
      a.tasks = .return_ site pushed result :: rest → b.tasks = rest →
      a.stack.frames.drop 2 <:+ b.stack.frames → Moved a b

/-- A step goes on in one of these ways, or it ends; unless everything is done, by an error. -/
def Moves (id : ProcessId) (a : Activity) : Progress → Prop
  | .goes turn => ∃ b, turn.next.goesOn id = [(id, b)] ∧ a.Moved b
  | .ends _ c => a.tasks ≠ [] → ∃ e, c.result = .error e

lemma StaysAbove.moves {task : Task} {rest : List Task} {result : Frame} {progress : Progress}
    (h : StaysAbove { a with tasks := rest, result := result } id progress)
    (htasks : a.tasks = task :: rest) (keeps : task.takesOff = false) : Moves id a progress := by
  cases progress with
  | goes turn =>
    obtain ⟨b, hnext, habove⟩ := h
    exact ⟨b, hnext, .above htasks keeps habove.suffix habove.frames⟩
  | ends env c => exact fun _ => h.1

/-- Leaving a frame goes on without the one on top, or ends with all of them. -/
lemma leaveFrame_cases (now : SimTime) (env : Environment) (a : Activity) (pushed : FrameId)
    (go : Activity → Progress) :
    (∃ env' e, a.leaveFrame now env pushed go = a.abort now env' e) ∨
      ∃ top below, a.stack.frames = top :: below ∧
        a.leaveFrame now env pushed go = go { a with stack := ⟨below⟩ } := by
  unfold leaveFrame VariableStack.popExpecting
  cases hframes : a.stack.frames with
  | nil => exact .inl ⟨_, _, rfl⟩
  | cons top below =>
    dsimp only
    split_ifs
    · exact .inr ⟨top, below, rfl, rfl⟩
    · exact .inl ⟨_, _, rfl⟩

/-- Returning from a call touches only the frame on top and the one below.  It goes on with the result
frame of the caller, or ends. -/
lemma finishCall_cases (d : Deployment) (now : SimTime) (id : ProcessId) (env : Environment)
    (a : Activity) (site : CallSite) (pushed : FrameId) (result : Frame) :
    (∃ (b : Activity) (env' : Environment) (e : InterpreterError),
      a.finishCall d now id env site pushed result = b.abort now env' e ∧
        a.stack.frames.drop 2 <:+ b.stack.frames) ∨
      ∃ (b : Activity) (env' : Environment),
        a.finishCall d now id env site pushed result = b.goOn env' ∧ b.tasks = a.tasks ∧
          b.result = result ∧ a.stack.frames.drop 2 <:+ b.stack.frames := by
  unfold finishCall
  split
  · exact .inl ⟨a, env, _, rfl, List.drop_suffix _ _⟩
  next contexts _ =>
    let b : Activity := { a with contexts := contexts, result := result }
    rcases leaveFrame_cases now env b pushed _ with ⟨env', e, hleaves⟩ | ⟨top, below, hframes, hleaves⟩
    · exact .inl ⟨b, env', e, hleaves, List.drop_suffix _ _⟩
    rw [hleaves]
    change a.stack.frames = top :: below at hframes
    rw [hframes, List.drop_succ_cons]
    cases below with
    | nil => exact .inl ⟨{ b with stack := ⟨[]⟩ }, env, _, rfl, List.drop_suffix _ _⟩
    | cons caller frames =>
      dsimp only [VariableStack.current, VariableStack.replaceTop]
      obtain ⟨failure, g, env'⟩ := bindReturns env site.call.returns a.result caller
      cases failure with
      | some e =>
        exact .inl ⟨{ b with stack := ⟨g :: frames⟩ }, env', _, rfl, List.suffix_cons _ _⟩
      | none =>
        exact .inr ⟨{ b with stack := ⟨g :: frames⟩ }, _, rfl, rfl, rfl, List.suffix_cons _ _⟩

lemma leave_moves {element : FrameId} {rest : List Task} (htasks : a.tasks = .leave element :: rest) :
    Moves id a ({ a with tasks := rest }.leaveFrame now env element fun a => a.goOn env) := by
  rcases leaveFrame_cases now env { a with tasks := rest } element fun a => a.goOn env with
    ⟨env', e, hleaves⟩ | ⟨top, below, hframes, hleaves⟩
  · rw [hleaves]
    exact fun _ => ⟨_, rfl⟩
  · rw [hleaves]
    exact ⟨_, rfl, .leaves htasks rfl (congrArg List.tail hframes).symm⟩

lemma return_moves {site : CallSite} {pushed : FrameId} {result : Frame} {rest : List Task}
    (htasks : a.tasks = .return_ site pushed result :: rest) :
    Moves id a ({ a with tasks := rest }.finishCall d now id env site pushed result) := by
  rcases finishCall_cases d now id env { a with tasks := rest } site pushed result with
    ⟨b, env', e, hends, -⟩ | ⟨b, env', hgoes, hrest, -, hframes⟩
  · rw [hends]
    exact fun _ => ⟨_, rfl⟩
  · rw [hgoes]
    exact ⟨b, rfl, .returns htasks hrest hframes⟩

/-- A task that takes no frame off is done above what follows it. -/
lemma advance_above (d : Deployment) (now : SimTime) (id : ProcessId) (env : Environment)
    {task : Task} {rest : List Task} (htasks : a.tasks = task :: rest) (keeps : task.takesOff = false) :
    StaysAbove { a with tasks := rest, result := a.collecting env a.result } id
      (a.advance d now id env) := by
  obtain ⟨name, role, tasks, stack, contexts, result⟩ := a
  obtain rfl : tasks = task :: rest := htasks
  have hself := Above.refl ⟨name, role, rest, stack, contexts, result⟩
  cases task with
  | arrive time => exact ⟨_, rfl, hself⟩
  | accept inputs => exact acceptInputs_above hself inputs
  | enterFork behavior => exact goOn_above (hself.before rfl)
  | invoke behavior => exact goOn_above ((Above.refl _).walking behavior)
  | walk behavior depth actions =>
    by_cases hsets : ∃ action more usages, actions = action :: more ∧ action.kind = .setVariable usages
    · obtain ⟨action, more, usages, rfl, hkind⟩ := hsets
      rw [collecting_setting rfl hkind]
      change StaysAbove _ id (perform d now id _ _ action)
      rw [perform, hkind]
      exact setVariable_above (((Above.refl _).before rfl).before rfl)
    · have plain : ∀ action more usages, actions = action :: more → action.kind ≠ .setVariable usages :=
        fun action more usages hactions hkind => hsets ⟨action, more, usages, hactions, hkind⟩
      rw [collecting_plain rfl plain]
      exact walkOn_above hself behavior depth actions plain
  | finish action => exact goOn_above hself
  | load action container demands => exact issueNext_above hself action container demands
  | serve load => exact startService_above hself load
  | release load started => exact ⟨_, rfl, hself⟩
  | iterate action iteration remaining body =>
    exact nextIteration_above hself action iteration body remaining
  | visit action parameter remaining body =>
    exact nextElement_above hself action parameter body remaining
  | leave element => cases keeps
  | return_ site pushed result' => cases keeps
  | join => exact joinForked_above hself

/-- A task that takes a frame off touches only this frame and the one below. -/
lemma advance_takesOff (d : Deployment) (now : SimTime) (id : ProcessId) (env : Environment)
    {task : Task} {rest : List Task} (htasks : a.tasks = task :: rest) (takes : task.takesOff = true) :
    StaysAbove { a with
      tasks := rest, stack := ⟨a.stack.frames.drop 2⟩, result := restored [task] a.result } id
      (a.advance d now id env) := by
  rw [advance, htasks]
  cases task with
  | leave element =>
    dsimp only [performTask]
    rcases leaveFrame_cases now env { a with tasks := rest } element fun a => a.goOn env with
      ⟨env', e, hleaves⟩ | ⟨top, below, hframes, hleaves⟩
    · rw [hleaves]
      exact abort_above (List.drop_suffix _ _) e
    · rw [hleaves]
      refine goOn_above ⟨⟨[], rfl, rfl⟩, ?_⟩
      dsimp only at hframes ⊢
      rw [hframes, List.drop_succ_cons]
      exact List.drop_suffix _ _
  | return_ site pushed result =>
    dsimp only [performTask]
    rcases finishCall_cases d now id env { a with tasks := rest } site pushed result with
      ⟨b, env', e, hends, hframes⟩ | ⟨b, env', hgoes, hrest, hresult, hframes⟩
    · rw [hends]
      exact abort_above hframes e
    · rw [hgoes]
      exact goOn_above ⟨⟨[], hrest, hresult⟩, hframes⟩
  | _ => cases takes

/-- **Every step goes on in one of these ways.** -/
theorem advance_moves (d : Deployment) (now : SimTime) (id : ProcessId) (env : Environment)
    (a : Activity) : Moves id a (a.advance d now id env) := by
  cases htasks : a.tasks with
  | nil =>
    rw [advance, htasks]
    exact fun h => absurd htasks h
  | cons task rest =>
    cases hoff : task.takesOff with
    | false => exact (advance_above d now id env htasks hoff).moves htasks hoff
    | true =>
      rw [advance, htasks]
      cases task with
      | leave element => exact leave_moves htasks
      | return_ site pushed result => exact return_moves htasks
      | _ => cases hoff

/-! ## Inside a scope -/

/-- When a scope is closed, its frame alone lies above those below. -/
lemma IsBalanced.frames_of_closing (balanced : a.IsBalanced entry) {closing : Task}
    {following : List Task} {below : List Frame} (tasks : a.tasks = closing :: following)
    (closes : closing.takesOff = true) (frames : below <:+ a.stack.frames)
    (depth : below.length = entry.frames.length + following.countP Task.takesOff) :
    ∃ top, a.stack.frames = top :: below := by
  have hlength := balanced.length_frames
  rw [VariableStack.length_identities, tasks, List.countP_cons_of_pos closes] at hlength
  change a.stack.frames.length = _ at hlength
  obtain ⟨upper, hframes⟩ := frames
  have hupper : upper.length = 1 := by
    rw [← hframes, List.length_append] at hlength
    omega
  obtain ⟨top, rfl⟩ := List.length_eq_one_iff.mp hupper
  exact ⟨top, hframes.symm⟩

/-- The frame that a task inside a scope takes off lies above that of the scope, and this above those
below. -/
lemma IsBalanced.frames_below_dropped (balanced : a.IsBalanced entry) {task closing : Task}
    {inner following : List Task} {below : List Frame} (takes : task.takesOff = true)
    (closes : closing.takesOff = true) (tasks : a.tasks = task :: inner ++ closing :: following)
    (frames : below <:+ a.stack.frames)
    (depth : below.length = entry.frames.length + following.countP Task.takesOff) :
    ∀ n ≤ 2, below <:+ a.stack.frames.drop n := by
  intro n hn
  have hlength := balanced.length_frames
  rw [VariableStack.length_identities, tasks, List.cons_append, List.countP_cons_of_pos takes,
    List.countP_append, List.countP_cons_of_pos closes] at hlength
  change a.stack.frames.length = _ at hlength
  refine List.suffix_of_suffix_length_le frames (List.drop_suffix _ _) ?_
  rw [List.length_drop]
  omega

/-- **Leaving a scope.**  An activity is inside the scope of a frame, with other tasks to follow.
After a step it is still inside, with the same frames below, or it has just left the scope and has
these tasks and frames. -/
lemma Moved.inside {b : Activity} (moved : a.Moved b) (balanced : a.IsBalanced entry)
    {element : FrameId} {following : List Task} {below : List Frame}
    (tasks : (Task.leave element :: following) <:+ a.tasks) (frames : below <:+ a.stack.frames)
    (depth : below.length = entry.frames.length + following.countP Task.takesOff) :
    ((Task.leave element :: following) <:+ b.tasks ∧ below <:+ b.stack.frames) ∨
      (b.tasks = following ∧ b.stack.frames = below) := by
  obtain ⟨inner, htasks⟩ := tasks
  cases inner with
  | nil =>
    -- The scope is left.
    rw [List.nil_append] at htasks
    obtain ⟨top, hframes⟩ := balanced.frames_of_closing htasks.symm rfl frames depth
    cases moved with
    | above ha keeps =>
      rw [← htasks, List.cons.injEq] at ha
      rw [← ha.1] at keeps
      cases keeps
    | leaves ha hb hstack =>
      rw [← htasks, List.cons.injEq] at ha
      refine .inr ⟨hb.trans ha.2.symm, ?_⟩
      rw [hstack, hframes]
      rfl
    | returns ha =>
      rw [← htasks, List.cons.injEq] at ha
      cases ha.1
  | cons task inner =>
    left
    have hdropped := fun takes => balanced.frames_below_dropped takes rfl htasks.symm frames depth
    rw [List.cons_append] at htasks
    cases moved with
    | above ha keeps hrest hstack =>
      rw [← htasks, List.cons.injEq] at ha
      refine ⟨List.IsSuffix.trans ?_ hrest, frames.trans hstack⟩
      rw [← ha.2]
      exact List.suffix_append _ _
    | leaves ha hb hstack =>
      rw [← htasks, List.cons.injEq] at ha
      obtain ⟨rfl, hrest⟩ := ha
      refine ⟨hb ▸ hrest ▸ List.suffix_append _ _, ?_⟩
      rw [hstack, ← List.drop_one]
      exact hdropped rfl 1 (by decide)
    | returns ha hb hstack =>
      rw [← htasks, List.cons.injEq] at ha
      obtain ⟨rfl, hrest⟩ := ha
      exact ⟨hb ▸ hrest ▸ List.suffix_append _ _, (hdropped rfl 2 le_rfl).trans hstack⟩

/-- **Staying in a scope.**  An activity is inside a scope that a task closes, with tasks before and after
it.  A step stays above this task and the frames below, also when it ends.  When the task comes, the
result frame is that of the behavior that the scope belongs to, of which the step has made what it
makes of it. -/
lemma advance_within (d : Deployment) (now : SimTime) (id : ProcessId) (env : Environment)
    (balanced : a.IsBalanced entry) {closing : Task} (closes : closing.takesOff = true)
    {inner following : List Task} {below : List Frame}
    (tasks : a.tasks = inner ++ closing :: following) (unclosed : inner ≠ [])
    (frames : below <:+ a.stack.frames)
    (depth : below.length = entry.frames.length + following.countP Task.takesOff) :
    StaysAbove { a with
      tasks := closing :: following, stack := ⟨below⟩,
      result := restored inner (a.collecting env a.result) } id (a.advance d now id env) := by
  cases inner with
  | nil => exact absurd rfl unclosed
  | cons task inner =>
    cases hoff : task.takesOff with
    | false =>
      refine (advance_above d now id env tasks hoff).trans ⟨⟨inner, rfl, ?_⟩, frames⟩
      cases task with
      | return_ site pushed saved => cases hoff
      | _ => rfl
    | true =>
      have hbelow := balanced.frames_below_dropped hoff closes tasks frames depth 2 le_rfl
      refine (advance_takesOff d now id env tasks hoff).trans ⟨⟨inner, rfl, ?_⟩, hbelow⟩
      have hcollecting : a.collecting env a.result = a.result := by
        rw [collecting, tasks]
        cases task <;> first | rfl | cases hoff
      rw [hcollecting]
      exact (restored_append [task] inner a.result).symm

end Activity

/-- A process that walks along a behavior follows its entry. -/
lemma Kernel.Disciplined.follows_walking {k : Kernel Environment Activity} (h : k.Disciplined)
    {id : ProcessId} {a : Activity} (runs : k.running = some (id, a)) {behavior : Behavior}
    {depth : Nat} {actions : List Action} {tasks : List Task}
    (htasks : a.tasks = .walk behavior depth actions :: tasks) :
    ∃ entry, Follows entry id k ∧
      a.stack.frames.length = entry.frames.length + tasks.countP Task.takesOff := by
  obtain ⟨entry, hentry, hfollows⟩ := h.follows runs fun harriving => by
    obtain ⟨inputs, b, harrives | ⟨time, harrives⟩⟩ := harriving.tasks
    all_goals
      rw [htasks] at harrives
      cases harrives
  have hlength := hentry.length_frames
  rw [VariableStack.length_identities, htasks] at hlength
  exact ⟨entry, hfollows, hlength⟩

end ServiceSim
