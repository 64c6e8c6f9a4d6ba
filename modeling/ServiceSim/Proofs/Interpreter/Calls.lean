import ServiceSim.Proofs.Interpreter.Balance
import ServiceSim.Proofs.Interpreter.CallSites
import ServiceSim.Proofs.Measurement.Pairing

/-!
# What a step means to calls

The external calls of an activity that are under way are the ones that its tasks return from, the
innermost first (`Activity.calls`).  A step begins one more call, or returns from the innermost one,
or leaves them as they are; a step that ends leaves all of them.  Only the first two touch the
recorder, with the sample that begins or ends the call, and a call that fails to begin has taken its
first sample.  `advance_calls` says that there is no other way.
-/

namespace ServiceSim

/-! ## Samples of calls -/

namespace CallSite

/-- The sample that begins a call. -/
def startSample (s : CallSite) (id : ProcessId) (now : SimTime) : TimeSample ProcessId :=
  ⟨s.calculator.startProbe, s.label, id, now⟩

/-- The sample that ends a call. -/
def stopSample (s : CallSite) (id : ProcessId) (now : SimTime) : TimeSample ProcessId :=
  ⟨s.calculator.stopProbe, s.label, id, now⟩

/-- What a recorder has when the calculator of a monitored call has been registered. -/
def registered (s : CallSite) (d : Deployment) (r : Recorder ProcessId) : Recorder ProcessId :=
  if s.isMonitored d then r.registering s.calculator else r

end CallSite

namespace Environment

variable {env env' env'' : Environment}

lemma measure_recorder (env : Environment) (probe label : String) (id : ProcessId) (now : SimTime) :
    (env.measure probe label id now).recorder = env.recorder.sampling ⟨probe, label, id, now⟩ ∧
      (env.measure probe label id now).frames = env.frames := by
  rw [measure, Recorder.sampling]
  cases env.recorder.sample? ⟨probe, label, id, now⟩ with
  | error e => exact ⟨rfl, rfl⟩
  | ok kept => cases kept <;> exact ⟨rfl, rfl⟩

lemma register_recorder (env : Environment) (action : Action) (c : Calculator) :
    (env.register action c).recorder = env.recorder.registering c ∧
      (env.register action c).frames = env.frames := by
  rw [register, Recorder.registering]
  cases env.recorder.register? c with
  | error e => exact ⟨rfl, rfl⟩
  | ok kept => cases kept <;> exact ⟨rfl, rfl⟩

/-- Nothing has been measured, and frames have only been made. -/
structure Unmeasured (env env' : Environment) : Prop where
  recorder : env'.recorder = env.recorder
  frames : env.frames ≤ env'.frames

namespace Unmeasured

lemma refl (env : Environment) : Unmeasured env env := ⟨rfl, Nat.le_refl _⟩

lemma trans (first : Unmeasured env env') (second : Unmeasured env' env'') : Unmeasured env env'' :=
  ⟨second.recorder.trans first.recorder, Nat.le_trans first.frames second.frames⟩

lemma note (h : Unmeasured env env') (event : LogEvent) : Unmeasured env (env'.note event) :=
  h.trans ⟨rfl, Nat.le_refl _⟩

lemma enter (h : Unmeasured env env') (event : DemandEvent) : Unmeasured env (env'.enter event) :=
  h.trans ⟨rfl, Nat.le_refl _⟩

lemma loading (h : Unmeasured env env') (resources : Resources) :
    Unmeasured env { env' with resources := resources } :=
  h.trans ⟨rfl, Nat.le_refl _⟩

lemma newFrame (h : Unmeasured env env') : Unmeasured env env'.newFrame.2 :=
  h.trans ⟨rfl, Nat.le_succ _⟩

lemma setBarrier (h : Unmeasured env env') (owner : ProcessId) (b : Barrier InterpreterError) :
    Unmeasured env (env'.setBarrier owner b) :=
  h.trans ⟨rfl, Nat.le_refl _⟩

lemma dropBarrier (h : Unmeasured env env') (owner : ProcessId) :
    Unmeasured env (env'.dropBarrier owner) :=
  h.trans ⟨rfl, Nat.le_refl _⟩

end Unmeasured

lemma sample_unmeasured {ε α : Type} {computation : ExceptT ε (StateM Source) α} {r : Except ε α}
    (h : env.sample computation = (r, env')) : Unmeasured env env' := by
  injection h with _ h
  exact h ▸ ⟨rfl, Nat.le_refl _⟩

lemma noteAll_unmeasured (names : List String) (h : Unmeasured env env') :
    Unmeasured env (names.foldl (fun env name => env.note (.nameBound name)) env') := by
  induction names generalizing env' with
  | nil => exact h
  | cons name rest ih => exact ih (h.note _)

lemma bind_unmeasured {usages : List VariableUsage} {context target frame : Frame}
    {failure : Option EvalError} (h : env.bind usages context target = (failure, frame, env')) :
    Unmeasured env env' := by
  injection h with _ h
  injection h with _ h
  exact h ▸ noteAll_unmeasured _ ⟨rfl, Nat.le_refl _⟩

lemma resolve_unmeasured {collection element frame : Frame} {stem : String}
    {failure : Option EvalError}
    (h : env.resolve collection stem element = (failure, frame, env')) : Unmeasured env env' := by
  injection h with _ h
  injection h with _ h
  exact h ▸ ⟨rfl, Nat.le_refl _⟩

end Environment

/-- The call that a task returns from. -/
def Task.call? : Task → Option (CallSite × FrameId)
  | .return_ site pushed _ => some (site, pushed)
  | _ => none

namespace Activity

/-- The external calls that are under way, with the frames pushed for them, the innermost first. -/
def calls (a : Activity) : List (CallSite × FrameId) := a.tasks.filterMap Task.call?

/-- What a step does about external calls. -/
inductive CallDeed where
  /-- It begins one, for which a frame is pushed. -/
  | begins (site : CallSite) (pushed : FrameId)
  /-- It returns from the one for which a frame was pushed. -/
  | returns (pushed : FrameId)

/-- What a step does about external calls, if it does anything.  A step that ends does nothing: the
call that it was to begin or to end has failed. -/
def callDeed (a : Activity) : Progress → Option CallDeed
  | .ends _ _ => none
  | .goes turn =>
    match a.tasks with
    | .return_ _ pushed _ :: _ => some (.returns pushed)
    | .walk _ _ (action :: _) :: _ =>
      match action.kind, turn.next with
      | .externalCall _, .proceed b => b.calls.head?.map fun call => .begins call.1 call.2
      | _, _ => none
    | _ => none

/-- The step leaves the calls as they are, and whatever goes on is placed. -/
def IsCalm (d : Deployment) (id : ProcessId) (env : Environment) (calls : List (CallSite × FrameId)) :
    Progress → Prop
  | .goes turn => env.Unmeasured turn.world ∧
      (∀ p ∈ turn.next.goesOn id, p.2.calls = calls ∧ p.2.IsPlaced d) ∧
      ∀ b ∈ turn.spawned, b.calls = [] ∧ b.IsPlaced d
  | .ends env' _ => env.Unmeasured env'

/-- **What a step does about calls.** -/
inductive CallEffect (d : Deployment) (now : SimTime) (id : ProcessId) (env : Environment)
    (a : Activity) : Progress → Prop
  /-- It leaves them as they are. -/
  | calm {progress : Progress} : a.callDeed progress = none →
      IsCalm d id env a.calls progress → CallEffect d now id env a progress
  /-- It begins one. -/
  | begins {site : CallSite} {env' : Environment} {b : Activity} : d.IsCallSite site →
      env'.recorder = (site.registered d env.recorder).sampling (site.startSample id now) →
      env.frames < env'.frames → b.calls = (site, env.frames) :: a.calls → b.IsPlaced d →
      a.callDeed (.goes ⟨env', [], [], .proceed b⟩) = some (.begins site env.frames) →
      CallEffect d now id env a (.goes ⟨env', [], [], .proceed b⟩)
  /-- It fails to begin one. -/
  | fails {site : CallSite} {env' : Environment} {c : Completion} : d.IsCallSite site →
      env'.recorder = (site.registered d env.recorder).sampling (site.startSample id now) →
      env.frames ≤ env'.frames → CallEffect d now id env a (.ends env' c)
  /-- It returns from the innermost one. -/
  | returns {site : CallSite} {pushed : FrameId} {env' : Environment} {b : Activity} :
      a.calls = (site, pushed) :: b.calls →
      env'.recorder = env.recorder.sampling (site.stopSample id now) →
      env.frames ≤ env'.frames → b.IsPlaced d →
      a.callDeed (.goes ⟨env', [], [], .proceed b⟩) = some (.returns pushed) →
      CallEffect d now id env a (.goes ⟨env', [], [], .proceed b⟩)

variable {a : Activity} {env env' : Environment} {now : SimTime} {id : ProcessId} {d : Deployment}
  {calls : List (CallSite × FrameId)}

/-! ## Measuring -/

lemma startMeasuring_recorder (d : Deployment) (now : SimTime) (id : ProcessId) (site : CallSite)
    (env : Environment) :
    (startMeasuring d now id site env).recorder =
        (site.registered d env.recorder).sampling (site.startSample id now) ∧
      (startMeasuring d now id site env).frames = env.frames := by
  unfold startMeasuring CallSite.registered
  dsimp only
  split_ifs
  · obtain ⟨hrecorder, hframes⟩ := env.register_recorder site.action site.calculator
    obtain ⟨hsampled, hsame⟩ := (env.register site.action site.calculator).measure_recorder
      site.calculator.startProbe site.label id now
    exact ⟨hrecorder ▸ hsampled, hsame.trans hframes⟩
  · exact env.measure_recorder _ _ _ _

lemma stopMeasuring_recorder (d : Deployment) (now : SimTime) (id : ProcessId) (site : CallSite)
    (env : Environment) :
    (stopMeasuring d now id site env).recorder = env.recorder.sampling (site.stopSample id now) ∧
      (stopMeasuring d now id site env).frames = env.frames := by
  have hmeasure := env.measure_recorder site.calculator.stopProbe site.label id now
  unfold stopMeasuring
  dsimp only
  split_ifs
  · exact hmeasure
  · exact hmeasure

lemma bindReturns_unmeasured {returns : List VariableUsage} {output target frame : Frame}
    {failure : Option EvalError}
    (h : bindReturns env returns output target = (failure, frame, env')) : env.Unmeasured env' := by
  unfold bindReturns at h
  split_ifs at h
  · injection h with _ h
    injection h with _ h
    exact h ▸ .refl env
  · exact Environment.bind_unmeasured h

lemma iterationCount_unmeasured {action : Action} {specification : Specification}
    {r : Except InterpreterError Nat}
    (h : a.iterationCount env action specification = (r, env')) : env.Unmeasured env' := by
  unfold iterationCount at h
  split at h
  · injection h with _ h
    exact h ▸ .refl env
  · split at h
    next hsample =>
      injection h with _ h
      exact h ▸ Environment.sample_unmeasured hsample
    next hsample =>
      split_ifs at h
      all_goals
        injection h with _ h
        exact h ▸ Environment.sample_unmeasured hsample

/-! ## Steps that leave calls as they are -/

lemma abort_calm (steady : env.Unmeasured env') (e : InterpreterError) :
    IsCalm d id env calls (a.abort now env' e) := steady

lemma goOn_calm (steady : env.Unmeasured env') (same : a.calls = calls) (placed : a.IsPlaced d) :
    IsCalm d id env calls (a.goOn env') := by
  refine ⟨steady, fun p hp => ?_, by simp⟩
  rw [List.mem_singleton.mp hp]
  exact ⟨same, placed⟩

lemma hold_calm (steady : env.Unmeasured env') (same : a.calls = calls) (placed : a.IsPlaced d)
    (delay : Float) : IsCalm d id env calls (.goes ⟨env', [], [], .hold delay a⟩) := by
  refine ⟨steady, fun p hp => ?_, by simp⟩
  rw [List.mem_singleton.mp hp]
  exact ⟨same, placed⟩

lemma block_calm (steady : env.Unmeasured env') (same : a.calls = calls) (placed : a.IsPlaced d) :
    IsCalm d id env calls (.goes ⟨env', [], [], .block a⟩) := by
  refine ⟨steady, fun p hp => ?_, by simp⟩
  rw [List.mem_singleton.mp hp]
  exact ⟨same, placed⟩

section Calm

variable (same : a.calls = calls) (placed : a.IsPlaced d) (steady : env.Unmeasured env')
include same placed steady

lemma goOnUnless_calm (failure : Option EvalError) :
    IsCalm d id env calls (a.goOnUnless now env' failure) := by
  cases failure with
  | none => exact goOn_calm steady same placed
  | some e => exact abort_calm steady _

lemma startService_calm (demand : Load) :
    IsCalm d id env calls (a.startService now env' demand) :=
  hold_calm (a := a.before (.release demand now)) (steady.note _) same placed _

lemma demand_calm (action : Action) (container : ContainerId) (resource : String) (amount : Float) :
    IsCalm d id env calls (a.demand now id env' action container resource amount) := by
  unfold demand
  dsimp only
  have hissued := (steady.note (.demandIssued action amount resource container)).enter
    (.issued a.name container resource amount now)
  split
  · exact goOn_calm ((hissued.enter _).note _) same placed
  next load granted resources _ =>
    split_ifs
    · exact startService_calm same placed (hissued.loading resources) load
    · exact block_calm (a := a.before (.serve load)) (hissued.loading resources) same placed

lemma issueNext_calm (action : Action) (container : ContainerId) (demands : List ResourceDemand) :
    IsCalm d id env calls (a.issueNext now id env' action container demands) := by
  cases demands with
  | nil => exact goOn_calm steady same placed
  | cons next rest =>
    simp only [issueNext]
    split
    · exact abort_calm steady _
    · split
      all_goals
        rename_i hsample
        have hsteady := steady.trans (Environment.sample_unmeasured hsample)
      · exact abort_calm hsteady _
      · exact demand_calm (a := a.before (.load action container rest)) same placed hsteady _ _ _ _

lemma beginInternal_calm (action : Action) (demands : List ResourceDemand) :
    IsCalm d id env calls (a.beginInternal d now env' action demands) := by
  unfold beginInternal
  split
  · exact abort_calm steady _
  · exact goOn_calm steady same placed

lemma branch_calm {b : Behavior} (hosted : Hosted d a.contexts b) {action : Action}
    (hmem : action ∈ b.actions) {transitions : List BranchTransition}
    (hkind : action.kind = .branch transitions) :
    IsCalm d id env calls (a.branch now env' action transitions) := by
  unfold branch
  split
  · exact abort_calm steady _
  · dsimp only
    split
    all_goals
      rename_i hsample
      have hsteady := steady.trans (Environment.sample_unmeasured hsample)
    · exact abort_calm hsteady _
    · exact abort_calm hsteady _
    · exact goOn_calm (hsteady.note _) same placed
    next chosen _ =>
      obtain ⟨t, ht, hchosen⟩ := Transition.choose_mem (Environment.sample_result hsample)
      obtain ⟨u, hu, rfl⟩ := List.mem_map.mp ht
      have hinner : chosen ∈ action.kind.bodies := by
        rw [hkind, ← hchosen]
        exact List.mem_map_of_mem hu
      exact goOn_calm hsteady same (placed.walking (hosted.body hmem hinner))

lemma beginLoop_calm {b : Behavior} (hosted : Hosted d a.contexts b) {action : Action}
    (hmem : action ∈ b.actions) {iterations : Specification} {body : Behavior}
    (hkind : action.kind = .loop iterations body) :
    IsCalm d id env calls (a.beginLoop now env' action iterations body) := by
  have hinner : body ∈ action.kind.bodies := by
    rw [hkind]
    exact List.mem_singleton_self body
  unfold beginLoop
  split
  all_goals
    rename_i hcount
    have hsteady := steady.trans (iterationCount_unmeasured hcount)
  · exact abort_calm hsteady _
  · exact goOn_calm (hsteady.note _) same ⟨hosted.body hmem hinner, placed⟩

lemma nextIteration_calm {body : Behavior} (hosted : Hosted d a.contexts body) (action : Action)
    (iteration remaining : Nat) :
    IsCalm d id env calls (a.nextIteration env' action iteration body remaining) := by
  cases remaining with
  | zero => exact goOn_calm steady same placed
  | succ remaining =>
    have hplaced : (a.before (.iterate action (iteration + 1) remaining body)).IsPlaced d :=
      ⟨hosted, placed⟩
    exact goOn_calm (steady.note _) same (hplaced.walking hosted)

lemma beginIterator_calm {b : Behavior} (hosted : Hosted d a.contexts b) {action : Action}
    (hmem : action ∈ b.actions) {parameter : String} {body : Behavior}
    (hkind : action.kind = .collectionIterator parameter body) :
    IsCalm d id env calls (a.beginIterator now env' action parameter body) := by
  have hinner : body ∈ action.kind.bodies := by
    rw [hkind]
    exact List.mem_singleton_self body
  unfold beginIterator
  dsimp only
  split
  all_goals
    rename_i hcount
    have hsteady := steady.trans (iterationCount_unmeasured hcount)
  · exact abort_calm hsteady _
  · exact goOn_calm (hsteady.note _) same ⟨hosted.body hmem hinner, placed⟩

lemma nextElement_calm {body : Behavior} (hosted : Hosted d a.contexts body) (action : Action)
    (parameter : String) (remaining : Nat) :
    IsCalm d id env calls (a.nextElement now env' action parameter body remaining) := by
  cases remaining with
  | zero => exact goOn_calm steady same placed
  | succ remaining =>
    simp only [nextElement]
    split
    · exact abort_calm steady _
    · split
      all_goals
        rename_i hresolve
        have hsteady := steady.newFrame.trans (Environment.resolve_unmeasured hresolve)
      · exact abort_calm hsteady _
      next element _ =>
        have hplaced : IsPlaced d { (a.before (.visit action parameter remaining body)).before
            (.leave element.identity) with stack := a.stack.push element } :=
          ⟨hosted, placed⟩
        exact goOn_calm hsteady same (hplaced.walking hosted)

lemma setVariable_calm (usages : List VariableUsage) :
    IsCalm d id env calls (a.setVariable now env' usages) := by
  unfold setVariable
  split
  · exact abort_calm steady _
  next f _ =>
    cases hbind : env'.bind usages f a.result with
    | mk failure bound =>
      exact goOnUnless_calm (a := { a with result := bound.1 }) same placed
        (steady.trans (Environment.bind_unmeasured hbind)) failure

lemma leaveFrame_calm (pushed : FrameId) :
    IsCalm d id env calls (a.leaveFrame now env' pushed fun a => a.goOn env') := by
  unfold leaveFrame
  split
  · exact abort_calm (steady.note _) _
  next stack _ => exact goOn_calm (a := { a with stack := stack }) steady same placed

/-- Forked processes begin with no calls, in the contexts of the process that forks them. -/
lemma fork_calm {b : Behavior} (hosted : Hosted d a.contexts b) {action : Action}
    (hmem : action ∈ b.actions) {asynchronous synchronous : List Behavior}
    (hkind : action.kind = .fork asynchronous synchronous) :
    IsCalm d id env calls (a.fork id env' action asynchronous synchronous) := by
  refine ⟨(steady.note _).setBarrier _ _, fun p hp => ?_, fun child hchild => ?_⟩
  · rw [List.mem_singleton.mp hp]
    exact ⟨same, placed⟩
  · have hinner : ∀ inner, inner ∈ asynchronous ++ synchronous → inner ∈ action.kind.bodies := by
      intro inner hin
      rw [hkind]
      exact hin
    rcases List.mem_append.mp hchild with hchild | hchild
    all_goals
      rw [List.mem_mapIdx] at hchild
      obtain ⟨i, hi, rfl⟩ := hchild
    · have hforked := hinner _ (List.mem_append_left _ (List.getElem_mem hi))
      exact ⟨rfl, hosted.body hmem hforked, trivial⟩
    · have hforked := hinner _ (List.mem_append_right _ (List.getElem_mem hi))
      exact ⟨rfl, hosted.body hmem hforked, trivial⟩

lemma joinForked_calm : IsCalm d id env calls (a.joinForked now id env') := by
  unfold joinForked
  dsimp only
  split_ifs
  · split
    · exact abort_calm (steady.dropBarrier _) _
    · exact goOn_calm (steady.dropBarrier _) same placed
  · exact block_calm (steady.setBarrier _ _) same placed

lemma acceptInputs_calm (inputs : List VariableUsage) :
    IsCalm d id env calls (a.acceptInputs now env' inputs) := by
  unfold acceptInputs
  cases hbind : env'.newFrame.2.newFrame.2.bind inputs env'.newFrame.1 env'.newFrame.2.newFrame.1 with
  | mk failure bound =>
    have hsteady := steady.newFrame.newFrame.trans (Environment.bind_unmeasured hbind)
    dsimp only
    rw [hbind]
    exact goOnUnless_calm (a := { a with stack := a.stack.push bound.1 }) same placed hsteady failure

/-- An action that does not call leaves the calls as they are. -/
lemma perform_calm {b : Behavior} (hosted : Hosted d a.contexts b) {action : Action}
    (hmem : action ∈ b.actions) (hcall : ∀ call, action.kind ≠ .externalCall call) :
    IsCalm d id env calls (a.perform d now id env' action) := by
  unfold perform
  cases hkind : action.kind with
  | start => exact goOn_calm steady same placed
  | stop => exact goOn_calm steady same placed
  | internal demands => exact beginInternal_calm same placed steady action demands
  | externalCall call => exact absurd hkind (hcall call)
  | branch transitions => exact branch_calm same placed steady hosted hmem hkind
  | loop iterations body => exact beginLoop_calm same placed steady hosted hmem hkind
  | collectionIterator parameter body =>
    exact beginIterator_calm same placed steady hosted hmem hkind
  | setVariable usages => exact setVariable_calm same placed steady usages
  | fork asynchronous synchronous => exact fork_calm same placed steady hosted hmem hkind

lemma completeDemand_calm (demand : Load) (started : SimTime) :
    IsCalm d id env calls (a.completeDemand now id env' demand started) := by
  refine ⟨(steady.loading _).enter _, fun p hp => ?_, fun b hb => (by cases hb)⟩
  rw [List.mem_singleton.mp hp]
  exact ⟨same, placed⟩

lemma enterBehavior_calm {b : Behavior} (hosted : Hosted d a.contexts b) :
    IsCalm d id env calls (a.enterBehavior env' b) :=
  goOn_calm (steady.newFrame.note _) same
    (IsPlaced.walking (a := { a with result := env'.newFrame.1 }) placed hosted)

end Calm

/-! ## Beginning a call and returning from it -/

/-- A call that begins puts a new frame, and what enters the behavior called before the return. -/
lemma enterCallee_calls (placed : a.IsPlaced d) {b : Behavior} {context : ContextId}
    (hosts : d.Hosts context b) (now : SimTime) (env : Environment) (site : CallSite) :
    (∃ env' c, a.enterCallee now env site context b = .ends env' c ∧ env.Unmeasured env') ∨
      ∃ env' called, a.enterCallee now env site context b = .goes ⟨env', [], [], .proceed called⟩ ∧
        env'.recorder = env.recorder ∧ env.frames < env'.frames ∧
        called.calls = (site, env.frames) :: a.calls ∧ called.IsPlaced d := by
  unfold enterCallee
  split
  · exact .inl ⟨_, _, rfl, .refl env⟩
  next frame _ =>
    dsimp only
    split
    next hbind => exact .inl ⟨_, _, rfl, (Environment.Unmeasured.refl env).newFrame.trans
      (Environment.bind_unmeasured hbind)⟩
    next input env' hbind =>
      have hbound := Environment.bind_unmeasured hbind
      have hinput : input.identity = env.frames := by
        injection hbind with _ hbind
        injection hbind with hinput _
        exact hinput ▸ bindEach_identity _ _ _
      refine .inr ⟨_, _, rfl, hbound.recorder, hbound.frames, ?_, ?_, placed⟩
      · change (site, input.identity) :: a.calls = _
        rw [hinput]
      · intro current hcurrent
        exact Option.mem_some.mp hcurrent ▸ hosts

/-- A call that has bound what it returns takes its second sample. -/
lemma finishCall_calls (placed : Placed d a.tasks a.contexts.tail) (now : SimTime) (id : ProcessId)
    (env : Environment) (site : CallSite) (pushed : FrameId) (result : Frame) :
    (∃ env' c, a.finishCall d now id env site pushed result = .ends env' c ∧
        env.Unmeasured env') ∨
      ∃ env' caller, a.finishCall d now id env site pushed result =
          .goes ⟨env', [], [], .proceed caller⟩ ∧
        env'.recorder = env.recorder.sampling (site.stopSample id now) ∧
        env.frames ≤ env'.frames ∧ caller.calls = a.calls ∧ caller.IsPlaced d := by
  unfold finishCall
  split
  · exact .inl ⟨_, _, rfl, .refl env⟩
  next context contexts hcontexts =>
    rw [hcontexts] at placed
    unfold leaveFrame
    split
    · exact .inl ⟨_, _, rfl, (Environment.Unmeasured.refl env).note _⟩
    · dsimp only
      split
      · exact .inl ⟨_, _, rfl, .refl env⟩
      next frame _ =>
        cases hbind : bindReturns env site.call.returns a.result frame with
        | mk failure bound =>
          have hbound := bindReturns_unmeasured hbind
          dsimp only
          split
          · exact .inl ⟨_, _, rfl, hbound⟩
          · exact .inl ⟨_, _, rfl, hbound⟩
          · obtain ⟨hrecorder, hframes⟩ := stopMeasuring_recorder d now id site bound.2
            refine .inr ⟨_, _, rfl, ?_, ?_, rfl, placed⟩
            · rw [hrecorder, hbound.recorder]
            · rw [hframes]
              exact hbound.frames

/-! ## Steps -/

/-- A step along a behavior begins a call, or fails to begin one, or leaves the calls alone. -/
lemma walk_calls {b : Behavior} {depth : Nat} {action : Action} {actions : List Action}
    {rest : List Task} (htasks : a.tasks = .walk b depth (action :: actions) :: rest)
    (placed : a.IsPlaced d) : CallEffect d now id env a (a.advance d now id env) := by
  rw [IsPlaced, htasks] at placed
  obtain ⟨hosted, hsub, hrest⟩ := placed
  have hmem : action ∈ b.actions := hsub List.mem_cons_self
  have hcalls : a.calls = calls { a with tasks := rest } := by
    rw [calls, htasks]
    rfl
  let next : Activity :=
    ({ a with tasks := rest }.before (.walk b depth actions)).before (.finish action)
  have hplaced : next.IsPlaced d :=
    ⟨hosted, fun _ h => hsub (List.mem_cons_of_mem _ h), hrest⟩
  have hadvance : a.advance d now id env =
      next.perform d now id (env.note (.actionEntered action)) action := by
    rw [advance, htasks]
    rfl
  have hnoted := (Environment.Unmeasured.refl env).note (.actionEntered action)
  rw [hadvance]
  by_cases hkind : ∃ call, action.kind = .externalCall call
  · obtain ⟨call, hkind⟩ := hkind
    rw [perform, hkind]
    dsimp only
    unfold beginCall
    split
    · exact .calm rfl hnoted
    next site context callee hcallee =>
      obtain ⟨hsite, hhosts⟩ := callee_spec (a := next) hosted hmem hkind hcallee
      obtain ⟨hrecorder, hframes⟩ := startMeasuring_recorder d now id site
        (env.note (.actionEntered action))
      obtain ⟨env', c, heq, hsteady⟩ | ⟨env', called, heq, hsame, hnew, hcalled, hgoes⟩ :=
        enterCallee_calls hplaced hhosts now
          (startMeasuring d now id site (env.note (.actionEntered action))) site
      · rw [heq]
        refine .fails hsite (hsteady.recorder.trans hrecorder) ?_
        exact hframes ▸ hsteady.frames
      · rw [heq]
        rw [hframes] at hcalled hnew
        refine .begins hsite (hsame.trans hrecorder) hnew ?_ hgoes ?_
        · rw [hcalled, hcalls]
          rfl
        · simp only [callDeed, htasks, hkind, hcalled]
          rfl
  · have hsame : next.calls = a.calls := hcalls.symm
    refine .calm ?_ (perform_calm hsame hplaced hnoted hosted hmem fun call h => hkind ⟨call, h⟩)
    cases next.perform d now id (env.note (.actionEntered action)) action with
    | ends env' c => rfl
    | goes turn =>
      simp only [callDeed, htasks]
      split
      next call _ hcall _ => exact absurd ⟨call, hcall⟩ hkind
      · rfl

/-- Any other task leaves the calls alone. -/
lemma performTask_calm {task : Task} (placed : Placed d (task :: a.tasks) a.contexts)
    (hcall : task.call? = none)
    (hwalk : ∀ b depth action actions, task ≠ .walk b depth (action :: actions)) :
    IsCalm d id env a.calls (a.performTask d now id env task) := by
  have hsteady := Environment.Unmeasured.refl env
  cases task with
  | return_ site pushed result => cases hcall
  | arrive time => exact hold_calm hsteady rfl (show a.IsPlaced d from placed) _
  | accept inputs => exact acceptInputs_calm rfl (show a.IsPlaced d from placed) hsteady inputs
  | enterFork b => exact goOn_calm (hsteady.note _) rfl placed
  | invoke b => exact enterBehavior_calm rfl (show a.IsPlaced d from placed.2) hsteady placed.1
  | walk b depth actions =>
    cases actions with
    | cons action actions => exact absurd rfl (hwalk b depth action actions)
    | nil =>
      simp only [performTask, walkOn]
      split_ifs
      · exact goOn_calm hsteady rfl placed.2.2
      · exact abort_calm hsteady _
  | finish action => exact goOn_calm (hsteady.note _) rfl placed
  | load action container demands =>
    exact issueNext_calm rfl (show a.IsPlaced d from placed) hsteady action container demands
  | serve demand => exact startService_calm rfl (show a.IsPlaced d from placed) hsteady demand
  | release demand started =>
    exact completeDemand_calm rfl (show a.IsPlaced d from placed) hsteady demand started
  | iterate action iteration remaining b =>
    exact nextIteration_calm rfl (show a.IsPlaced d from placed.2) hsteady placed.1 _ _ _
  | visit action parameter remaining b =>
    exact nextElement_calm rfl (show a.IsPlaced d from placed.2) hsteady placed.1 _ _ _
  | leave element => exact leaveFrame_calm rfl (show a.IsPlaced d from placed) hsteady element
  | join => exact joinForked_calm rfl (show a.IsPlaced d from placed) hsteady

/-- A return that goes on has ended the innermost call, and one that fails does nothing. -/
lemma return_calls {site : CallSite} {pushed : FrameId} {result : Frame} {rest : List Task}
    (htasks : a.tasks = .return_ site pushed result :: rest) (placed : a.IsPlaced d) :
    CallEffect d now id env a (a.advance d now id env) := by
  rw [IsPlaced, htasks] at placed
  rw [advance, htasks]
  dsimp only [performTask]
  obtain ⟨env', c, heq, hends⟩ | ⟨env', caller, heq, hrecorder, hframes, hcalls, hgoes⟩ :=
    finishCall_calls (a := { a with tasks := rest }) placed now id env site pushed result
  · rw [heq]
    exact .calm rfl hends
  · rw [heq]
    have hinner : a.calls = (site, pushed) :: caller.calls := by
      rw [hcalls, calls, htasks]
      rfl
    refine .returns hinner hrecorder hframes hgoes ?_
    simp only [callDeed, htasks]

/-- Nothing is done about calls in any other task. -/
lemma callDeed_eq_none {task : Task} {rest : List Task} (htasks : a.tasks = task :: rest)
    (hcall : task.call? = none)
    (hwalk : ∀ b depth action actions, task ≠ .walk b depth (action :: actions))
    (progress : Progress) : a.callDeed progress = none := by
  cases progress with
  | ends env' c => rfl
  | goes turn =>
    simp only [callDeed, htasks]
    split
    next h =>
      injection h with h _
      rw [h] at hcall
      cases hcall
    next h =>
      injection h with h _
      exact absurd h (hwalk _ _ _ _)
    · rfl

/-- **What a step does about calls**, in whatever task it is. -/
theorem advance_calls (placed : a.IsPlaced d) :
    CallEffect d now id env a (a.advance d now id env) := by
  cases htasks : a.tasks with
  | nil =>
    rw [advance, htasks]
    exact .calm rfl (Environment.Unmeasured.refl env)
  | cons task rest =>
    by_cases hwalk : ∃ b depth action actions, task = .walk b depth (action :: actions)
    · obtain ⟨b, depth, action, actions, rfl⟩ := hwalk
      exact walk_calls htasks placed
    cases hcall : task.call? with
    | some call =>
      cases task with
      | return_ site pushed result => exact return_calls htasks placed
      | _ => cases hcall
    | none =>
      have hother : ∀ b depth action actions, task ≠ .walk b depth (action :: actions) :=
        fun b depth action actions h => hwalk ⟨b, depth, action, actions, h⟩
      have hsame : calls { a with tasks := rest } = a.calls := by
        rw [calls, calls, htasks, List.filterMap_cons, hcall]
      rw [IsPlaced, htasks] at placed
      rw [advance, htasks]
      exact .calm (callDeed_eq_none htasks hcall hother _)
        (hsame ▸ performTask_calm placed hcall hother)

end Activity

end ServiceSim
