import ServiceSim.Proofs.Interpreter.Environment

/-!
# What a step means to others

A step of an activity concerns other processes in few ways: it issues, starts or completes a demand,
forks, joins, lets time pass or ends.  `Effect` lists these ways, with what each does to the
resources, the barriers and the kernel, and `advance_effect` says that there is no other.

A process waits for a server, is served, or waits for those it has forked only in the middle of an
action.  The tasks for these moments are pauses: they stand at the head of the tasks or nowhere.
-/

namespace ServiceSim

/-- Whether a task stands for a wait in the middle of an action. -/
def Task.isPause : Task → Bool
  | .serve _ => true
  | .release _ _ => true
  | .join => true
  | _ => false

namespace Activity

/-- The activity is not in a pause. -/
def Awake (a : Activity) : Prop := ∀ task ∈ a.tasks, task.isPause = false

/-- A request enters without a pause. -/
lemma ofRequest_awake (number : Nat) (entry : ContextId) (arrival : SimTime)
    (inputs : List VariableUsage) (behavior : Behavior) :
    (ofRequest number entry arrival inputs behavior).Awake := by
  simp [Awake, ofRequest, Task.isPause]

/-- The activity is in a pause at most now. -/
def Settled (a : Activity) : Prop := ∀ task ∈ a.tasks.tail, task.isPause = false

/-- The activity waits for those that it has forked. -/
def Joins (a : Activity) : Prop := ∃ rest, a.tasks = .join :: rest

/-- The activity waits for a server, or has been given it and has not gone on yet. -/
def Serves (load : Load) (a : Activity) : Prop := ∃ rest, a.tasks = .serve load :: rest

/-- The demand that the next step issues, if it issues one. -/
def demanded (a : Activity) (env : Environment) : Option (ContainerId × String × Float) :=
  match a.tasks with
  | .load _ container (next :: _) :: _ =>
    match a.stack.current with
    | .error _ => none
    | .ok frame =>
      match (next.specification.evaluateDouble frame.scope env.source).1 with
      | .error _ => none
      | .ok amount => some (container, next.resource, amount)
  | _ => none

/-- The behaviors that the next step forks, asynchronously and synchronously, if it forks. -/
def forking (a : Activity) : Option (List Behavior × List Behavior) :=
  match a.tasks with
  | .walk _ _ (action :: _) :: _ =>
    match action.kind with
    | .fork asynchronous synchronous => some (asynchronous, synchronous)
    | _ => none
  | _ => none

/-- Whoever forks walks along a chain that goes on with the fork. -/
lemma forking_spec {a : Activity} {asynchronous synchronous : List Behavior}
    (h : a.forking = some (asynchronous, synchronous)) : ∃ behavior depth action actions rest,
      a.tasks = .walk behavior depth (action :: actions) :: rest ∧
        action.kind = .fork asynchronous synchronous := by
  rw [forking] at h
  split at h
  next behavior depth action actions rest htasks =>
    split at h
    next hkind =>
      injection h with h
      injection h with has hss
      subst has hss
      exact ⟨_, _, _, _, _, htasks, hkind⟩
    · cases h
  · cases h

/-- What the next step issues is refused, if it issues anything. -/
def Refused (now : SimTime) (id : ProcessId) (env : Environment) (a : Activity) : Prop :=
  ∀ container resource amount, a.demanded env = some (container, resource, amount) →
    ∃ e, env.resources.issue now id container resource amount = .error e

/-- **The effects of a step.** -/
inductive Effect (now : SimTime) (id : ProcessId) (env : Environment) (a : Activity) :
    Progress → Prop where
  /-- It goes on at once. -/
  | proceeds {env' : Environment} {b : Activity} : a.Awake → a.Refused now id env →
      env.Steady env' → b.Awake → b.role = a.role →
      Effect now id env a (.goes ⟨env', [], [], .proceed b⟩)
  /-- It waits until it arrives. -/
  | arrives {delay : Float} {b : Activity} : a.Awake → a.demanded env = none → b.Awake →
      b.role = a.role → Effect now id env a (.goes ⟨env, [], [], .hold delay b⟩)
  /-- It issues a demand and gets a server. -/
  | granted {env' : Environment} {b : Activity} {container : ContainerId} {resource : String}
      {amount : Float} {load : Load} : a.Awake →
      a.demanded env = some (container, resource, amount) →
      env.resources.issue now id container resource amount = .ok (load, true, env'.resources) →
      env'.barriers = env.barriers → env'.completions = env.completions →
      b.Awake → b.role = a.role →
      Effect now id env a (.goes ⟨env', [], [], .hold load.service (b.before (.release load now))⟩)
  /-- It issues a demand and waits for a server. -/
  | queued {env' : Environment} {b : Activity} {container : ContainerId} {resource : String}
      {amount : Float} {load : Load} : a.Awake →
      a.demanded env = some (container, resource, amount) →
      env.resources.issue now id container resource amount = .ok (load, false, env'.resources) →
      env'.barriers = env.barriers → env'.completions = env.completions →
      b.Awake → b.role = a.role →
      Effect now id env a (.goes ⟨env', [], [], .block (b.before (.serve load))⟩)
  /-- Its service starts. -/
  | serves {env' : Environment} {b : Activity} {load : Load} : a.tasks = .serve load :: b.tasks →
      env.Steady env' → b.Awake → b.role = a.role →
      Effect now id env a (.goes ⟨env', [], [], .hold load.service (b.before (.release load now))⟩)
  /-- Its service is over. -/
  | completes {env' : Environment} {b : Activity} {load : Load} {started : SimTime}
      {woken : Option ProcessId} : a.tasks = .release load started :: b.tasks →
      env.resources.complete id load started = (woken, env'.resources) →
      env'.barriers = env.barriers → env'.completions = env.completions →
      b.Awake → b.role = a.role →
      Effect now id env a (.goes ⟨env', woken.toList, [], .proceed b⟩)
  /-- It forks. -/
  | forks {env' : Environment} {b : Activity} {asynchronous synchronous : List Behavior} :
      a.Awake → a.demanded env = none → a.forking = some (asynchronous, synchronous) →
      env.Steady env' → b.Awake → b.role = a.role →
      Effect now id env a (.goes ⟨env'.setBarrier id (Barrier.new synchronous.length), [],
        b.children id asynchronous synchronous, .proceed (b.before .join)⟩)
  /-- Those that it has forked are there. -/
  | joins {b : Activity} : a.tasks = .join :: b.tasks → (env.barrier id).remaining = 0 →
      (env.barrier id).failures = [] → b.Awake → b.role = a.role →
      Effect now id env a (.goes ⟨env.dropBarrier id, [], [], .proceed b⟩)
  /-- It waits for those that it has forked. -/
  | awaits : a.Joins → (env.barrier id).remaining ≠ 0 →
      Effect now id env a (.goes ⟨env.setBarrier id ((env.barrier id).await id), [], [], .block a⟩)
  /-- It ends. -/
  | ends {env' : Environment} {c : Completion} : a.Awake → a.Refused now id env →
      env.Steady env' → c.time = now → Effect now id env a (.ends env' c)
  /-- Those that it has forked are there, and it ends because one of them has failed. -/
  | fails {c : Completion} : a.Joins → (env.barrier id).remaining = 0 →
      (env.barrier id).failures ≠ [] → c.time = now → (∃ e, c.result = .error e) →
      Effect now id env a (.ends (env.dropBarrier id) c)

variable {a b : Activity} {env env' env'' : Environment} {now : SimTime} {id : ProcessId}
  {d : Deployment}

/-- A process that reports its end spawns nobody and has finished. -/
lemma report_ends {c : Completion} :
    (a.report env c).spawned = [] ∧ (a.report env c).next = .finish := by
  unfold report
  cases a.role <;> exact ⟨rfl, rfl⟩

/-! ## Steps that concern nobody else -/

/-- The activity goes on at once or ends, and nothing changes that others depend on. -/
def IsQuiet (now : SimTime) (env : Environment) (a : Activity) : Progress → Prop
  | .goes turn => env.Steady turn.world ∧ turn.woken = [] ∧ turn.spawned = [] ∧
      ∃ b, turn.next = .proceed b ∧ b.Awake ∧ b.role = a.role
  | .ends env' c => env.Steady env' ∧ c.time = now

lemma IsQuiet.effect {progress : Progress} (awake : a.Awake) (refused : a.Refused now id env)
    (quiet : IsQuiet now env a progress) : Effect now id env a progress := by
  cases progress with
  | goes turn =>
    obtain ⟨world, woken, spawned, next⟩ := turn
    obtain ⟨hsteady, hwoken, hspawned, b, hnext, hb, hrole⟩ := quiet
    dsimp only at hwoken hspawned hnext
    subst hwoken hspawned hnext
    exact .proceeds awake refused hsteady hb hrole
  | ends env' c => exact .ends awake refused quiet.1 quiet.2

lemma abort_quiet (steady : env.Steady env') (e : InterpreterError) :
    IsQuiet now env b (a.abort now env' e) :=
  ⟨steady, rfl⟩

lemma goOn_quiet (steady : env.Steady env') (awake : a.Awake) (role : a.role = b.role) :
    IsQuiet now env b (a.goOn env') :=
  ⟨steady, rfl, rfl, a, rfl, awake, role⟩

lemma goOnUnless_quiet (steady : env.Steady env') (awake : a.Awake) (role : a.role = b.role)
    (failure : Option EvalError) : IsQuiet now env b (a.goOnUnless now env' failure) := by
  cases failure with
  | none => exact goOn_quiet steady awake role
  | some e => exact abort_quiet steady _

lemma before_awake (awake : a.Awake) {task : Task} (h : task.isPause = false) :
    (a.before task).Awake := by
  intro t ht
  rcases List.mem_cons.mp ht with rfl | ht
  · exact h
  · exact awake t ht

lemma Awake.settled (awake : a.Awake) : a.Settled :=
  fun task h => awake task (List.mem_of_mem_tail h)

lemma Awake.not_joins (awake : a.Awake) : ¬ a.Joins := by
  rintro ⟨rest, htasks⟩
  have := awake .join (htasks ▸ List.mem_cons_self)
  cases this

lemma before_not_joins {task : Task} (h : task ≠ .join) : ¬ (a.before task).Joins := by
  rintro ⟨rest, htasks⟩
  injection htasks with htask _
  exact h htask

lemma not_joins_of_tasks {task : Task} {rest : List Task} (htasks : a.tasks = task :: rest)
    (h : task ≠ .join) : ¬ a.Joins := by
  rintro ⟨rest', htasks'⟩
  rw [htasks] at htasks'
  injection htasks' with htask _
  exact h htask

lemma before_settled (awake : a.Awake) (task : Task) : (a.before task).Settled := awake

lemma leaveFrame_quiet (steady : env.Steady env') {pushed : FrameId} {go : Activity → Progress}
    (hgo : ∀ stack : VariableStack, IsQuiet now env b (go { a with stack := stack })) :
    IsQuiet now env b (a.leaveFrame now env' pushed go) := by
  unfold leaveFrame
  split
  · exact abort_quiet (steady.note _) _
  · exact hgo _

section Quiet

variable (awake : a.Awake) (role : a.role = b.role) (steady : env.Steady env')
include awake role steady

lemma beginInternal_quiet (action : Action) (demands : List ResourceDemand) :
    IsQuiet now env b (a.beginInternal d now env' action demands) := by
  unfold beginInternal
  split
  · exact abort_quiet steady _
  · exact goOn_quiet steady (before_awake awake rfl) role

lemma beginCall_quiet (action : Action) (call : ExternalCall) :
    IsQuiet now env b (a.beginCall d now id env' action call) := by
  unfold beginCall
  split
  · exact abort_quiet steady _
  next site context behavior _ =>
    have hstart := steady.trans (startMeasuring_steady d now id site env')
    unfold enterCallee
    split
    · exact abort_quiet hstart _
    · dsimp only
      split
      all_goals
        rename_i hbind
        have hsteady := hstart.newFrame.trans (Environment.bind_steady hbind)
      · exact abort_quiet hsteady _
      · exact goOn_quiet (hsteady.note _) (before_awake (before_awake awake rfl) rfl) role

lemma finishCall_quiet (site : CallSite) (pushed : FrameId) (result : Frame) :
    IsQuiet now env b (a.finishCall d now id env' site pushed result) := by
  unfold finishCall
  split
  · exact abort_quiet steady _
  next contexts _ =>
    refine leaveFrame_quiet (a := { a with contexts := contexts, result := result }) steady ?_
    intro stack
    dsimp only
    split
    · exact abort_quiet steady _
    next frame _ =>
      cases hbind : bindReturns env' site.call.returns a.result frame with
      | mk failure bound =>
        have hsteady := steady.trans (bindReturns_steady hbind)
        dsimp only
        split
        · exact abort_quiet hsteady _
        · exact abort_quiet hsteady _
        · exact goOn_quiet (hsteady.trans (stopMeasuring_steady site _)) awake role

lemma branch_quiet (action : Action) (transitions : List BranchTransition) :
    IsQuiet now env b (a.branch now env' action transitions) := by
  unfold branch
  split
  · exact abort_quiet steady _
  · dsimp only
    split
    all_goals
      rename_i hsample
      have hsteady := steady.trans (Environment.sample_steady hsample)
    · exact abort_quiet hsteady _
    · exact abort_quiet hsteady _
    · exact goOn_quiet (hsteady.note _) awake role
    · exact goOn_quiet hsteady (before_awake awake rfl) role

lemma beginLoop_quiet (action : Action) (iterations : Specification) (body : Behavior) :
    IsQuiet now env b (a.beginLoop now env' action iterations body) := by
  unfold beginLoop
  split
  all_goals
    rename_i hcount
    have hsteady := steady.trans (iterationCount_steady hcount)
  · exact abort_quiet hsteady _
  · exact goOn_quiet (hsteady.note _) (before_awake awake rfl) role

lemma nextIteration_quiet (action : Action) (iteration : Nat) (body : Behavior) (remaining : Nat) :
    IsQuiet now env b (a.nextIteration env' action iteration body remaining) := by
  cases remaining with
  | zero => exact goOn_quiet steady awake role
  | succ remaining =>
    exact goOn_quiet (steady.note _) (before_awake (before_awake awake rfl) rfl) role

lemma beginIterator_quiet (action : Action) (parameter : String) (body : Behavior) :
    IsQuiet now env b (a.beginIterator now env' action parameter body) := by
  unfold beginIterator
  dsimp only
  split
  all_goals
    rename_i hcount
    have hsteady := steady.trans (iterationCount_steady hcount)
  · exact abort_quiet hsteady _
  · exact goOn_quiet (hsteady.note _) (before_awake awake rfl) role

lemma nextElement_quiet (action : Action) (parameter : String) (body : Behavior)
    (remaining : Nat) :
    IsQuiet now env b (a.nextElement now env' action parameter body remaining) := by
  cases remaining with
  | zero => exact goOn_quiet steady awake role
  | succ remaining =>
    simp only [nextElement]
    split
    · exact abort_quiet steady _
    · split
      all_goals
        rename_i hresolve
        have hsteady := steady.newFrame.trans (Environment.resolve_steady hresolve)
      · exact abort_quiet hsteady _
      · exact goOn_quiet hsteady
          (before_awake (before_awake (before_awake awake rfl) rfl) rfl) role

lemma setVariable_quiet (usages : List VariableUsage) :
    IsQuiet now env b (a.setVariable now env' usages) := by
  unfold setVariable
  split
  · exact abort_quiet steady _
  next f _ =>
    cases hbind : env'.bind usages f a.result with
    | mk failure bound =>
      exact goOnUnless_quiet (a := { a with result := bound.1 })
        (steady.trans (Environment.bind_steady hbind)) awake role failure

lemma acceptInputs_quiet (inputs : List VariableUsage) :
    IsQuiet now env b (a.acceptInputs now env' inputs) := by
  unfold acceptInputs
  cases hbind : env'.newFrame.2.newFrame.2.bind inputs env'.newFrame.1 env'.newFrame.2.newFrame.1 with
  | mk failure bound =>
    have hsteady := steady.newFrame.newFrame.trans (Environment.bind_steady hbind)
    dsimp only
    rw [hbind]
    exact goOnUnless_quiet (a := { a with stack := a.stack.push bound.1 }) hsteady awake role failure

/-- An action that does not fork concerns nobody else. -/
lemma perform_quiet (action : Action)
    (hfork : ∀ asynchronous synchronous, action.kind ≠ .fork asynchronous synchronous) :
    IsQuiet now env b (a.perform d now id env' action) := by
  unfold perform
  cases hkind : action.kind with
  | start => exact goOn_quiet steady awake role
  | stop => exact goOn_quiet steady awake role
  | internal demands => exact beginInternal_quiet awake role steady action demands
  | externalCall call => exact beginCall_quiet awake role steady action call
  | branch transitions => exact branch_quiet awake role steady action transitions
  | loop iterations body => exact beginLoop_quiet awake role steady action iterations body
  | collectionIterator parameter body =>
    exact beginIterator_quiet awake role steady action parameter body
  | setVariable usages => exact setVariable_quiet awake role steady usages
  | fork asynchronous synchronous => exact absurd hkind (hfork _ _)

end Quiet

/-! ## All steps -/

lemma demanded_eq_none (h : ∀ action container demands rest,
    a.tasks ≠ .load action container demands :: rest) : a.demanded env = none := by
  unfold demanded
  split
  next htasks => exact absurd htasks (h _ _ _ _)
  · rfl

lemma refused_of_none (h : a.demanded env = none) : a.Refused now id env := by
  intro container resource amount hdemanded
  rw [h] at hdemanded
  cases hdemanded

/-- Walking on concerns nobody else, unless the next action forks. -/
lemma walkOn_effect (awake : b.Awake) (none : a.demanded env = none) (ha : a.Awake)
    (role : b.role = a.role) {behavior : Behavior} {depth : Nat} {actions : List Action}
    (htasks : a.tasks = .walk behavior depth actions :: b.tasks) :
    Effect now id env a (b.walkOn d now id env behavior depth actions) := by
  have hrefused : a.Refused now id env := refused_of_none none
  cases actions with
  | nil =>
    unfold walkOn
    split_ifs
    · exact (goOn_quiet (.refl env) awake role).effect ha hrefused
    · exact (abort_quiet (.refl env) _).effect ha hrefused
  | cons action rest =>
    have hsteady : env.Steady (env.note (.actionEntered action)) := (Environment.Steady.refl env).note _
    have hawake : ((b.before (.walk behavior depth rest)).before (.finish action)).Awake :=
      before_awake (before_awake awake rfl) rfl
    by_cases hfork : ∃ asynchronous synchronous, action.kind = .fork asynchronous synchronous
    · obtain ⟨asynchronous, synchronous, hkind⟩ := hfork
      have hforking : a.forking = some (asynchronous, synchronous) := by
        simp only [forking, htasks, hkind]
      simp only [walkOn, perform, hkind]
      exact .forks ha none hforking (hsteady.note _) hawake role
    · push Not at hfork
      exact (perform_quiet hawake role hsteady action hfork).effect ha hrefused

/-- A demand is refused, or its service starts at once, or it waits for a server. -/
lemma demand_effect (ha : a.Awake) (hb : b.Awake) (role : b.role = a.role)
    (steady : env.Steady env') {container : ContainerId} {resource : String} {amount : Float}
    (hdemanded : a.demanded env = some (container, resource, amount)) (action : Action) :
    Effect now id env a (b.demand now id env' action container resource amount) := by
  have hresources : ((env'.note (.demandIssued action amount resource container)).enter
      (.issued b.name container resource amount now)).resources = env.resources := steady.resources
  unfold demand
  dsimp only
  rw [hresources]
  cases hissue : env.resources.issue now id container resource amount with
  | error e =>
    have hrefused : a.Refused now id env := by
      intro c r x hcrx
      rw [hdemanded] at hcrx
      injection hcrx with hcrx
      injection hcrx with hc hrx
      injection hrx with hr hx
      subst hc hr hx
      exact ⟨e, hissue⟩
    exact (goOn_quiet ((((steady.note _).enter _).enter _).note _) hb role).effect ha hrefused
  | ok issued =>
    obtain ⟨load, granted, resources⟩ := issued
    cases granted with
    | true =>
      exact .granted ha hdemanded hissue steady.barriers steady.completions hb role
    | false =>
      exact .queued ha hdemanded hissue steady.barriers steady.completions hb role

/-- The processes that have been forked are there, or are waited for. -/
lemma joinForked_effect (hab : b.before .join = a) (hb : b.Awake) :
    Effect now id env a (b.joinForked now id env) := by
  have htasks : a.tasks = .join :: b.tasks := by rw [← hab, before]
  have role : b.role = a.role := by rw [← hab, before]
  unfold joinForked
  dsimp only
  split_ifs with hopen
  · have hremaining : (env.barrier id).remaining = 0 := by
      simpa [Barrier.isOpen] using hopen
    cases hfailure : (env.barrier id).collect.1 with
    | some e =>
      have hfailures : (env.barrier id).failures ≠ [] := by
        intro h
        rw [Barrier.collect, h] at hfailure
        cases hfailure
      exact .fails ⟨b.tasks, htasks⟩ hremaining hfailures rfl ⟨_, rfl⟩
    | none =>
      exact .joins htasks hremaining (List.head?_eq_none_iff.mp hfailure) hb role
  · have hremaining : (env.barrier id).remaining ≠ 0 := by
      simpa [Barrier.isOpen] using hopen
    rw [hab]
    exact .awaits ⟨b.tasks, htasks⟩ hremaining

/-- The next demand of an action, if there is one. -/
lemma issueNext_effect (ha : a.Awake) (role : b.role = a.role) (action : Action)
    (container : ContainerId) (demands : List ResourceDemand)
    (htasks : a.tasks = .load action container demands :: b.tasks) (hstack : b.stack = a.stack) :
    Effect now id env a (b.issueNext now id env action container demands) := by
  have hb : b.Awake := fun task h => ha task (htasks ▸ List.mem_cons_of_mem _ h)
  cases demands with
  | nil =>
    have hnone : a.demanded env = none := by
      simp only [demanded, htasks]
    exact (goOn_quiet (.refl env) hb role).effect ha (refused_of_none hnone)
  | cons next rest =>
    simp only [issueNext, hstack]
    cases hcurrent : a.stack.current with
    | error fault =>
      have hnone : a.demanded env = none := by
        simp only [demanded, htasks, hcurrent]
      exact (abort_quiet (.refl env) _).effect ha (refused_of_none hnone)
    | ok frame =>
      dsimp only
      cases hsample : env.sample (next.specification.evaluateDouble frame.scope) with
      | mk value env' =>
        have hsteady := Environment.sample_steady hsample
        have hvalue := Environment.sample_result hsample
        cases value with
        | error e =>
          have hnone : a.demanded env = none := by
            simp only [demanded, htasks, hcurrent, hvalue]
          exact (abort_quiet hsteady _).effect ha (refused_of_none hnone)
        | ok amount =>
          have hdemanded : a.demanded env = some (container, next.resource, amount) := by
            simp only [demanded, htasks, hcurrent, hvalue]
          exact demand_effect ha (before_awake hb rfl) role hsteady hdemanded action

/-- **Every step has one of the effects.** -/
theorem advance_effect (d : Deployment) (now : SimTime) (id : ProcessId) (env : Environment)
    (settled : a.Settled) : Effect now id env a (a.advance d now id env) := by
  obtain ⟨name, role, tasks, stack, contexts, result⟩ := a
  cases tasks with
  | nil =>
    have hawake : Awake ⟨name, role, [], stack, contexts, result⟩ := by simp [Awake]
    exact .ends hawake (refused_of_none rfl) (.refl env) rfl
  | cons task rest =>
    have hb : Awake ⟨name, role, rest, stack, contexts, result⟩ := settled
    have ha : ∀ {task : Task}, task.isPause = false →
        Awake ⟨name, role, task :: rest, stack, contexts, result⟩ := by
      intro task h
      exact before_awake hb h
    have hnone : ∀ {task : Task}, (∀ action container demands,
        task ≠ .load action container demands) →
        demanded ⟨name, role, task :: rest, stack, contexts, result⟩ env = none := by
      intro task h
      refine demanded_eq_none fun action container demands rest' htasks => ?_
      injection htasks with htask _
      exact h _ _ _ htask
    cases task with
    | arrive time => exact .arrives (ha rfl) (hnone (by simp)) hb rfl
    | accept inputs =>
      exact (acceptInputs_quiet hb rfl (.refl env) inputs).effect (ha rfl)
        (refused_of_none (hnone (by simp)))
    | enterFork behavior =>
      exact .proceeds (ha rfl) (refused_of_none (hnone (by simp)))
        ((Environment.Steady.refl env).note _) (before_awake hb rfl) rfl
    | invoke behavior =>
      have hsteady : env.Steady (env.newFrame.2.note (.behaviorEntered behavior.name)) :=
        (Environment.Steady.refl env).newFrame.note _
      have hawake : (walking behavior
          ⟨name, role, rest, stack, contexts, env.newFrame.1⟩).Awake := before_awake hb rfl
      exact .proceeds (ha rfl) (refused_of_none (hnone (by simp))) hsteady hawake rfl
    | walk behavior depth actions =>
      exact walkOn_effect (b := ⟨name, role, rest, stack, contexts, result⟩) hb (hnone (by simp))
        (ha rfl) rfl rfl
    | finish action =>
      exact .proceeds (ha rfl) (refused_of_none (hnone (by simp)))
        ((Environment.Steady.refl env).note _) hb rfl
    | load action container demands =>
      exact issueNext_effect (b := ⟨name, role, rest, stack, contexts, result⟩) (ha rfl) rfl action
        container demands rfl rfl
    | serve load =>
      exact .serves (b := ⟨name, role, rest, stack, contexts, result⟩) rfl
        ((Environment.Steady.refl env).note _) hb rfl
    | release load started =>
      exact .completes (b := ⟨name, role, rest, stack, contexts, result⟩) rfl rfl rfl rfl hb rfl
    | iterate action iteration remaining body =>
      exact (nextIteration_quiet hb rfl (.refl env) action iteration body remaining).effect (ha rfl)
        (refused_of_none (hnone (by simp)))
    | visit action parameter remaining body =>
      exact (nextElement_quiet hb rfl (.refl env) action parameter body remaining).effect (ha rfl)
        (refused_of_none (hnone (by simp)))
    | leave element =>
      exact (leaveFrame_quiet (.refl env) fun stack => goOn_quiet (.refl env) hb rfl).effect
        (ha rfl) (refused_of_none (hnone (by simp)))
    | return_ site pushed result' =>
      exact (finishCall_quiet hb rfl (.refl env) site pushed result').effect (ha rfl)
        (refused_of_none (hnone (by simp)))
    | join => exact joinForked_effect (b := ⟨name, role, rest, stack, contexts, result⟩) rfl hb

end Activity

end ServiceSim
