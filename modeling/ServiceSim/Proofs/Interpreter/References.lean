import ServiceSim.Proofs.Evaluation.Determinism
import ServiceSim.Proofs.Interpreter.Joins
import ServiceSim.Proofs.Model.References
import ServiceSim.Proofs.Resources

/-!
# References at run time

A process works in assembly contexts and loads containers.  It is anchored if all of these are
declared (`Activity.IsAnchored`).  A call leads from a declared context to a declared context, a fork
copies contexts, and an internal action loads the declared container to which its context is
allocated, so every step leaves the process, and those that it forks, anchored (`advance_anchors`).

Look-ups from declared contexts never find a dangling reference, and every declared container is
simulated.  So no step ends with an error that tells of a dangling reference, and none is reported:
neither among the completions nor at a barrier nor in the journal (`Environment.IsAnchored`).
-/

namespace ServiceSim

/-- Whether an error tells of a dangling reference, or comes of one in a forked process. -/
def InterpreterError.isDangling : InterpreterError → Bool
  | .model e => e.isDangling
  | .fork _ e => e.isDangling
  | .stackDiscipline _ => false
  | .evaluation _ => false

/-- Whether a demand has been refused because its container is not simulated. -/
def DemandEvent.isDangling : DemandEvent → Bool
  | .refused _ _ _ (.unknownContainer _) => true
  | _ => false

/-- The container that a task loads. -/
def Task.container? : Task → Option ContainerId
  | .load _ container _ => some container
  | _ => none

/-! ## Simulated containers -/

namespace Resources

variable {rs rs' : Resources} {container other : ContainerId} {resource : String} {now : SimTime}
  {id : ProcessId} {amount : Float}

/-- A container is simulated, with or without resources. -/
def Simulates (rs : Resources) (container : ContainerId) : Prop :=
  (rs.containers.lookup container).isSome = true

lemma update_simulates (h : rs.Simulates container) (r : ActiveResource) :
    (rs.update other resource r).Simulates container := by
  rw [update]
  split
  · exact h
  · rw [Simulates]
    dsimp only
    by_cases hother : container = other
    · rw [hother, NameMap.lookup_insert_self]
      rfl
    · rw [NameMap.lookup_insert_of_ne hother]
      exact h

/-- Containers stay simulated when a demand is issued. -/
lemma issue_simulates {load : Load} {granted : Bool} (h : rs.Simulates container)
    (hissue : rs.issue now id other resource amount = .ok (load, granted, rs')) :
    rs'.Simulates container := by
  obtain ⟨-, r, -, -, ⟨-, -, rfl⟩ | ⟨s, -, -, rfl⟩⟩ := issue_ok hissue
  · exact h
  · exact update_simulates h _

/-- Containers stay simulated when a demand is completed. -/
lemma complete_simulates {load : Load} {started : SimTime} {woken : Option ProcessId}
    (h : rs.Simulates container) (hcomplete : rs.complete id load started = (woken, rs')) :
    rs'.Simulates container := by
  rcases complete_spec hcomplete with ⟨-, -, rfl⟩ | ⟨r, -, recorded, -, -, -, -, rfl, -⟩
  · exact h
  · exact update_simulates h _

/-- What a simulated container refuses, it refuses for another reason than not being there. -/
lemma issue_refused {e : ResourceError} (h : rs.Simulates container)
    (hissue : rs.issue now id container resource amount = .error e) (c : ContainerId) :
    e ≠ .unknownContainer c := by
  rintro rfl
  obtain ⟨resources, hlookup⟩ := Option.isSome_iff_exists.mp h
  simp only [issue, find, hlookup] at hissue
  split_ifs at hissue
  · cases hissue
  · cases hresource : resources.lookup resource with
    | none =>
      rw [hresource] at hissue
      cases hissue
    | some r =>
      rw [hresource] at hissue
      cases hservers : r.servers <;> simp [hservers, bind, Except.bind, pure, Except.pure] at hissue

/-- All containers of a model are simulated. -/
lemma ofContainers_simulates {containers : List ResourceContainer}
    (h : ofContainers containers = .ok rs) {c : ResourceContainer} (hc : c ∈ containers) :
    rs.Simulates c.id := by
  have hlast := lookup_entered _ _ _ _ _ (ofContainers_ok h) c.id
  cases hfind : containers.reverse.find? (·.id == c.id) with
  | none =>
    rw [List.find?_eq_none] at hfind
    exact absurd (beq_self_eq_true c.id) (hfind c (List.mem_reverse.mpr hc))
  | some found =>
    rw [hfind] at hlast
    obtain ⟨resources, -, hlookup⟩ := hlast
    rw [Simulates, hlookup]
    rfl

end Resources

/-! ## Choices -/

namespace Transition

variable {α : Type} {tolerance : Float} {branch : ActionId} {scope : Scope} {s : Source}
  {transitions : List (TransitionCondition × α)} {e : ModelError}

lemma firstGuard_error (h : (firstGuard scope transitions s).1 = .error (.model e)) : False := by
  induction transitions generalizing s with
  | nil => cases h
  | cons t rest ih =>
    obtain ⟨condition, a⟩ := t
    cases condition with
    | probability p => exact ih h
    | guard specification =>
      rw [firstGuard, bind_run] at h
      split at h
      next holds s' hguard =>
        split_ifs at h
        · cases h
        · exact ih h
      next failure s' hguard =>
        simp only [ExceptT.mk, bind, StateT.bind] at hguard
        cases hrun : (specification.evaluateBool scope).run s with
        | mk r s'' =>
          rw [hrun] at hguard
          cases r with
          | ok b => cases hguard
          | error e' =>
            cases hguard
            cases h

lemma draw_error (h : (draw tolerance branch transitions s).1 = .error (.model e)) :
    e.isDangling = false := by
  rw [draw] at h
  cases hweights : weights transitions with
  | error fault =>
    rw [hweights] at h
    cases h
    rfl
  | ok items =>
    rw [hweights] at h
    dsimp only at h
    split_ifs at h
    · cases h
      rfl
    · rw [bind_run] at h
      cases h

/-- A choice fails because of the transitions of the branch. -/
lemma choose_error (h : (choose tolerance branch transitions scope s).1 = .error (.model e)) :
    e.isDangling = false := by
  unfold choose at h
  split at h
  · cases h
  · split_ifs at h
    · cases h
      rfl
    · exact (firstGuard_error h).elim
    · exact draw_error h

end Transition

/-! ## Environments -/

namespace Environment

variable {d : Deployment} {env env' : Environment}

/-- **Nothing that processes share tells of a dangling reference**, and every declared container is
simulated. -/
structure IsAnchored (d : Deployment) (env : Environment) : Prop where
  simulated : ∀ container, d.model.hasContainer container = true →
    env.resources.Simulates container
  failures : ∀ owner, ∀ e ∈ (env.barrier owner).failures, e.isDangling = false
  completions : ∀ p ∈ env.completions, ∀ e, p.2.result = .error e → e.isDangling = false
  journal : ∀ event ∈ env.journal, event.isDangling = false

/-- Nothing has changed that other processes depend on, and no demand has been issued or served. -/
structure Calm (env env' : Environment) : Prop extends Steady env env' where
  journal : env'.journal = env.journal

lemma IsAnchored.of_calm (h : env.IsAnchored d) (calm : env.Calm env') : env'.IsAnchored d := by
  refine ⟨?_, ?_, ?_, ?_⟩
  · rw [calm.resources]
    exact h.simulated
  · intro owner
    rw [calm.barrier]
    exact h.failures owner
  · rw [calm.completions]
    exact h.completions
  · rw [calm.journal]
    exact h.journal

lemma IsAnchored.note (h : env.IsAnchored d) (event : LogEvent) : (env.note event).IsAnchored d :=
  h.of_calm ⟨⟨rfl, rfl, rfl⟩, rfl⟩

lemma IsAnchored.newFrame (h : env.IsAnchored d) : env.newFrame.2.IsAnchored d :=
  h.of_calm ⟨⟨rfl, rfl, rfl⟩, rfl⟩

lemma IsAnchored.enter (h : env.IsAnchored d) (event : DemandEvent)
    (hevent : event.isDangling = false) : (env.enter event).IsAnchored d :=
  { h with journal := List.forall_mem_cons.mpr ⟨hevent, h.journal⟩ }

lemma IsAnchored.loading (h : env.IsAnchored d) {resources : Resources}
    (simulated : ∀ container, env.resources.Simulates container → resources.Simulates container) :
    { env with resources := resources }.IsAnchored d :=
  { h with simulated := fun container hc => simulated container (h.simulated container hc) }

lemma IsAnchored.sample {ε α : Type} {computation : ExceptT ε (StateM Source) α} {r : Except ε α}
    (h : env.IsAnchored d) (hsample : env.sample computation = (r, env')) : env'.IsAnchored d := by
  refine h.of_calm ⟨sample_steady hsample, ?_⟩
  injection hsample with _ henv
  rw [← henv]

lemma noteAll_journal (names : List String) (env : Environment) :
    (names.foldl (fun env name => env.note (.nameBound name)) env).journal = env.journal := by
  induction names generalizing env with
  | nil => rfl
  | cons name names ih => exact ih (env.note (.nameBound name))

lemma IsAnchored.bind {usages : List VariableUsage} {context target frame : Frame}
    {failure : Option EvalError} (h : env.IsAnchored d)
    (hbind : env.bind usages context target = (failure, frame, env')) : env'.IsAnchored d := by
  refine h.of_calm ⟨bind_steady hbind, ?_⟩
  injection hbind with _ hbind
  injection hbind with _ henv
  rw [← henv, noteAll_journal]

lemma IsAnchored.resolve {collection element frame : Frame} {stem : String}
    {failure : Option EvalError} (h : env.IsAnchored d)
    (hresolve : env.resolve collection stem element = (failure, frame, env')) :
    env'.IsAnchored d := by
  refine h.of_calm ⟨resolve_steady hresolve, ?_⟩
  injection hresolve with _ hresolve
  injection hresolve with _ henv
  rw [← henv]

lemma IsAnchored.measure (h : env.IsAnchored d) (probe label : String) (process : ProcessId)
    (now : SimTime) : (env.measure probe label process now).IsAnchored d := by
  refine h.of_calm ⟨measure_steady probe label process now (.refl env), ?_⟩
  rw [Environment.measure]
  split <;> rfl

lemma IsAnchored.register (h : env.IsAnchored d) (action : Action) (calculator : Calculator) :
    (env.register action calculator).IsAnchored d := by
  refine h.of_calm ⟨register_steady action calculator (.refl env), ?_⟩
  rw [Environment.register]
  split <;> rfl

lemma IsAnchored.reconfigure (h : env.IsAnchored d) (action : ActionId) :
    (env.reconfigure action).IsAnchored d :=
  h.of_calm ⟨reconfigure_steady action (.refl env), rfl⟩

lemma IsAnchored.setBarrier (h : env.IsAnchored d) {owner : ProcessId}
    {b : Barrier InterpreterError} (hb : ∀ e ∈ b.failures, e.isDangling = false) :
    (env.setBarrier owner b).IsAnchored d := by
  refine ⟨h.simulated, fun other => ?_, h.completions, h.journal⟩
  rw [barrier_setBarrier]
  split_ifs
  · exact hb
  · exact h.failures other

lemma IsAnchored.dropBarrier (h : env.IsAnchored d) (owner : ProcessId) :
    (env.dropBarrier owner).IsAnchored d := by
  refine ⟨h.simulated, fun other => ?_, h.completions, h.journal⟩
  rw [barrier_dropBarrier]
  split_ifs
  · simp [Barrier.new]
  · exact h.failures other

lemma IsAnchored.complete (h : env.IsAnchored d) (number : Nat) {c : Completion}
    (hc : ∀ e, c.result = .error e → e.isDangling = false) :
    (env.complete number c).IsAnchored d :=
  { h with completions := List.forall_mem_cons.mpr ⟨hc, h.completions⟩ }

end Environment

namespace Activity

variable {d : Deployment} {a : Activity} {env env' : Environment} {now : SimTime} {id : ProcessId}

/-- **An activity is anchored**: the contexts that it works in and the containers that it loads are
declared. -/
structure IsAnchored (d : Deployment) (a : Activity) : Prop where
  contexts : ∀ context ∈ a.contexts, d.model.hasContext context = true
  loads : ∀ task ∈ a.tasks, ∀ container ∈ task.container?, d.model.hasContainer container = true

lemma IsAnchored.before (h : a.IsAnchored d) {task : Task} (idle : task.container? = none) :
    (a.before task).IsAnchored d := by
  refine ⟨h.contexts, List.forall_mem_cons.mpr ⟨?_, h.loads⟩⟩
  rw [idle]
  exact nofun

lemma IsAnchored.beforeLoad (h : a.IsAnchored d) {container : ContainerId}
    (declared : d.model.hasContainer container = true) (action : Action)
    (demands : List ResourceDemand) : (a.before (.load action container demands)).IsAnchored d :=
  ⟨h.contexts, List.forall_mem_cons.mpr ⟨fun _ hc => Option.some.inj hc ▸ declared, h.loads⟩⟩

lemma IsAnchored.walking (h : a.IsAnchored d) (behavior : Behavior) :
    (a.walking behavior).IsAnchored d :=
  h.before rfl

lemma IsAnchored.context (h : a.IsAnchored d) {id : ContextId} (hid : a.context = .ok id) :
    d.model.hasContext id = true := by
  rw [Activity.context] at hid
  split at hid
  · cases hid
  next current outer hcontexts =>
    injection hid with hid
    exact hid ▸ h.contexts current (hcontexts ▸ List.mem_cons_self)

/-! ## Steps -/

/-- A step leaves the process and those that it forks anchored, or it ends, and not with an error
that tells of a dangling reference. -/
def Anchors (d : Deployment) (id : ProcessId) : Progress → Prop
  | .goes turn => turn.world.IsAnchored d ∧ (∀ p ∈ turn.next.goesOn id, p.2.IsAnchored d) ∧
      ∀ b ∈ turn.spawned, b.IsAnchored d
  | .ends env c => env.IsAnchored d ∧ ∀ e, c.result = .error e → e.isDangling = false

/-- Leaving the calls that are under way leads to no dangling reference. -/
lemma unwind_dangling (tasks : List Task) (contexts : List ContextId) {e : InterpreterError}
    (he : e.isDangling = false) : (unwind tasks contexts e).2.isDangling = false := by
  induction tasks generalizing contexts e with
  | nil => exact he
  | cons task rest ih =>
    cases task with
    | return_ site pushed result =>
      cases contexts with
      | nil => exact ih [] rfl
      | cons context contexts => exact ih contexts he
    | _ => exact ih contexts he

lemma abort_anchors (anchored : env.IsAnchored d) {e : InterpreterError}
    (he : e.isDangling = false) : Anchors d id (a.abort now env e) := by
  refine ⟨anchored, fun e' he' => ?_⟩
  injection he' with he'
  exact he' ▸ unwind_dangling a.tasks a.contexts he

lemma goOn_anchors (h : a.IsAnchored d) (anchored : env.IsAnchored d) :
    Anchors d id (a.goOn env) := by
  refine ⟨anchored, ?_, by simp⟩
  intro p hp
  rw [List.mem_singleton.mp hp]
  exact h

lemma goOnUnless_anchors (h : a.IsAnchored d) (anchored : env.IsAnchored d)
    (failure : Option EvalError) : Anchors d id (a.goOnUnless now env failure) := by
  cases failure with
  | none => exact goOn_anchors h anchored
  | some e => exact abort_anchors anchored rfl

/-! ### Demands -/

lemma startService_anchors (h : a.IsAnchored d) (anchored : env.IsAnchored d) (load : Load) :
    Anchors d id (a.startService now env load) := by
  refine ⟨anchored.note _, ?_, by simp⟩
  intro p hp
  rw [List.mem_singleton.mp hp]
  exact h.before rfl

lemma demand_anchors (h : a.IsAnchored d) (anchored : env.IsAnchored d) (action : Action)
    {container : ContainerId} (declared : d.model.hasContainer container = true) (resource : String)
    (amount : Float) : Anchors d id (a.demand now id env action container resource amount) := by
  have hissued := (anchored.note (.demandIssued action amount resource container)).enter
    (.issued a.name container resource amount now) rfl
  unfold demand
  dsimp only
  split
  next e hissue =>
    have hrefused : (DemandEvent.refused a.name resource now e).isDangling = false := by
      have hother := Resources.issue_refused (hissued.simulated container declared) hissue
      cases e with
      | unknownContainer c => exact absurd rfl (hother c)
      | _ => rfl
    exact goOn_anchors h ((hissued.enter _ hrefused).note _)
  next load granted resources hissue =>
    have hloaded := hissued.loading fun c hc => Resources.issue_simulates hc hissue
    split_ifs
    · exact startService_anchors h hloaded _
    · refine ⟨hloaded, ?_, by simp⟩
      intro p hp
      rw [List.mem_singleton.mp hp]
      exact h.before rfl

lemma issueNext_anchors (h : a.IsAnchored d) (anchored : env.IsAnchored d) (action : Action)
    {container : ContainerId} (declared : d.model.hasContainer container = true)
    (demands : List ResourceDemand) :
    Anchors d id (a.issueNext now id env action container demands) := by
  cases demands with
  | nil => exact goOn_anchors h anchored
  | cons next rest =>
    simp only [issueNext]
    split
    · exact abort_anchors anchored rfl
    · split
      all_goals rename_i hsample
      · exact abort_anchors (anchored.sample hsample) rfl
      · exact demand_anchors (h.beforeLoad declared action rest) (anchored.sample hsample) action
          declared _ _

lemma completeDemand_anchors (h : a.IsAnchored d) (anchored : env.IsAnchored d) (load : Load)
    (started : SimTime) : Anchors d id (a.completeDemand now id env load started) := by
  have hloaded := anchored.loading fun c hc => Resources.complete_simulates hc
    (Prod.mk.eta.symm : env.resources.complete id load started = (_, _))
  refine ⟨hloaded.enter _ rfl, ?_, by simp⟩
  intro p hp
  rw [List.mem_singleton.mp hp]
  exact h

/-- An internal action works on the declared container of its context. -/
lemma beginInternal_anchors (h : a.IsAnchored d) (anchored : env.IsAnchored d) (action : Action)
    (demands : List ResourceDemand) :
    Anchors d id (a.beginInternal d now env action demands) := by
  unfold beginInternal container
  cases hcontext : a.context with
  | error fault => exact abort_anchors anchored rfl
  | ok context =>
    dsimp only
    cases hcontainer : d.containerOf context with
    | error e => exact abort_anchors anchored (Deployment.containerOf_error hcontainer)
    | ok container =>
      exact goOn_anchors (h.beforeLoad (Deployment.containerOf_declared hcontainer) action demands)
        anchored

/-! ### Calls -/

lemma enterCallee_anchors (h : a.IsAnchored d) (anchored : env.IsAnchored d) (site : CallSite)
    {context : ContextId} (declared : d.model.hasContext context = true) (behavior : Behavior) :
    Anchors d id (a.enterCallee now env site context behavior) := by
  unfold enterCallee
  split
  · exact abort_anchors anchored rfl
  · dsimp only
    split
    all_goals
      rename_i hbind
      have hanchored := anchored.newFrame.bind hbind
    · exact abort_anchors hanchored rfl
    next input _ =>
      have hcalled : ((a.before (.return_ site input.identity a.result)).before
          (.invoke behavior)).IsAnchored d := (h.before rfl).before rfl
      exact goOn_anchors ⟨List.forall_mem_cons.mpr ⟨declared, h.contexts⟩, hcalled.loads⟩
        (hanchored.note _)

/-- A call leads from a declared context to a declared context. -/
lemma beginCall_anchors (h : a.IsAnchored d) (anchored : env.IsAnchored d) (action : Action)
    (call : ExternalCall) : Anchors d id (a.beginCall d now id env action call) := by
  unfold beginCall callee
  cases hcontext : a.context with
  | error fault => exact abort_anchors anchored rfl
  | ok current =>
    obtain ⟨caller, -, hcaller, -⟩ := Deployment.context_found (h.context hcontext)
    simp only [hcaller]
    cases hresolved : d.resolveCall caller.id call.role call.service with
    | error e => exact abort_anchors anchored (Deployment.resolveCall_error hresolved)
    | ok found =>
      have hmeasured : (startMeasuring d now id ⟨action, call, caller⟩ env).IsAnchored d := by
        unfold startMeasuring
        dsimp only
        split_ifs
        · exact (anchored.register _ _).measure _ _ _ _
        · exact anchored.measure _ _ _ _
      exact enterCallee_anchors h hmeasured _ (Deployment.resolveCall_declared hresolved) _

lemma leaveFrame_anchors (anchored : env.IsAnchored d) {pushed : FrameId}
    {go : Activity → Progress}
    (hgo : ∀ stack : VariableStack, Anchors d id (go { a with stack := stack })) :
    Anchors d id (a.leaveFrame now env pushed go) := by
  unfold leaveFrame
  split
  · exact abort_anchors (anchored.note _) rfl
  · exact hgo _

lemma bindReturns_anchored {returns : List VariableUsage} {output target frame : Frame}
    {failure : Option EvalError} (anchored : env.IsAnchored d)
    (h : bindReturns env returns output target = (failure, frame, env')) : env'.IsAnchored d := by
  unfold bindReturns at h
  split_ifs at h
  · injection h with _ h
    injection h with _ h
    exact h ▸ anchored
  · exact anchored.bind h

lemma finishCall_anchors (h : a.IsAnchored d) (anchored : env.IsAnchored d) (site : CallSite)
    (pushed : FrameId) (result : Frame) :
    Anchors d id (a.finishCall d now id env site pushed result) := by
  unfold finishCall
  split
  · exact abort_anchors anchored rfl
  next current contexts hcontexts =>
    refine leaveFrame_anchors (a := { a with contexts := contexts, result := result }) anchored ?_
    intro stack
    dsimp only
    split
    · exact abort_anchors anchored rfl
    next f _ =>
      cases hbind : bindReturns env site.call.returns a.result f with
      | mk failure bound =>
        have hanchored := bindReturns_anchored anchored hbind
        dsimp only
        split
        · exact abort_anchors hanchored rfl
        · exact abort_anchors hanchored rfl
        · refine goOn_anchors ⟨fun c hc => h.contexts c ?_, h.loads⟩ ?_
          · rw [hcontexts]
            exact List.mem_cons_of_mem _ hc
          · unfold stopMeasuring
            dsimp only
            split_ifs
            · exact (hanchored.measure _ _ _ _).reconfigure _
            · exact hanchored.measure _ _ _ _

/-! ### Branches and iterations -/

lemma branch_anchors (h : a.IsAnchored d) (anchored : env.IsAnchored d) (action : Action)
    (transitions : List BranchTransition) :
    Anchors d id (a.branch now env action transitions) := by
  unfold branch
  split
  · exact abort_anchors anchored rfl
  · dsimp only
    split
    all_goals
      rename_i hsample
      have hanchored := anchored.sample hsample
    · exact abort_anchors hanchored (Transition.choose_error (Environment.sample_result hsample))
    · exact abort_anchors hanchored rfl
    · exact goOn_anchors h (hanchored.note _)
    · exact goOn_anchors (h.walking _) hanchored

/-- An iteration count is refused for other reasons than a dangling reference. -/
lemma iterationCount_anchored {action : Action} {specification : Specification}
    {r : Except InterpreterError Nat} (anchored : env.IsAnchored d)
    (h : a.iterationCount env action specification = (r, env')) :
    env'.IsAnchored d ∧ ∀ e, r = .error e → e.isDangling = false := by
  unfold iterationCount at h
  split at h
  · obtain ⟨rfl, rfl⟩ := Prod.mk.inj h
    exact ⟨anchored, fun e he => Except.error.inj he ▸ rfl⟩
  · split at h
    next hsample =>
      obtain ⟨rfl, rfl⟩ := Prod.mk.inj h
      exact ⟨anchored.sample hsample, fun e he => Except.error.inj he ▸ rfl⟩
    next hsample =>
      split_ifs at h
      · obtain ⟨rfl, rfl⟩ := Prod.mk.inj h
        exact ⟨anchored.sample hsample, fun e he => Except.error.inj he ▸ rfl⟩
      · obtain ⟨rfl, rfl⟩ := Prod.mk.inj h
        exact ⟨anchored.sample hsample, nofun⟩

lemma beginLoop_anchors (h : a.IsAnchored d) (anchored : env.IsAnchored d) (action : Action)
    (iterations : Specification) (body : Behavior) :
    Anchors d id (a.beginLoop now env action iterations body) := by
  unfold beginLoop
  split
  all_goals
    rename_i hcount
    obtain ⟨hanchored, herror⟩ := iterationCount_anchored anchored hcount
  · exact abort_anchors hanchored (herror _ rfl)
  · exact goOn_anchors (h.before rfl) (hanchored.note _)

lemma nextIteration_anchors (h : a.IsAnchored d) (anchored : env.IsAnchored d) (action : Action)
    (iteration : Nat) (body : Behavior) (remaining : Nat) :
    Anchors d id (a.nextIteration env action iteration body remaining) := by
  cases remaining with
  | zero => exact goOn_anchors h anchored
  | succ remaining => exact goOn_anchors ((h.before rfl).walking body) (anchored.note _)

lemma beginIterator_anchors (h : a.IsAnchored d) (anchored : env.IsAnchored d) (action : Action)
    (parameter : String) (body : Behavior) :
    Anchors d id (a.beginIterator now env action parameter body) := by
  unfold beginIterator
  dsimp only
  split
  all_goals
    rename_i hcount
    obtain ⟨hanchored, herror⟩ := iterationCount_anchored anchored hcount
  · exact abort_anchors hanchored (herror _ rfl)
  · exact goOn_anchors (h.before rfl) (hanchored.note _)

lemma nextElement_anchors (h : a.IsAnchored d) (anchored : env.IsAnchored d) (action : Action)
    (parameter : String) (body : Behavior) (remaining : Nat) :
    Anchors d id (a.nextElement now env action parameter body remaining) := by
  cases remaining with
  | zero => exact goOn_anchors h anchored
  | succ remaining =>
    simp only [nextElement]
    split
    · exact abort_anchors anchored rfl
    · split
      all_goals
        rename_i hresolve
        have hanchored := anchored.newFrame.resolve hresolve
      · exact abort_anchors hanchored rfl
      next element _ =>
        have hnext : ((a.before (.visit action parameter remaining body)).before
            (.leave element.identity)).IsAnchored d := (h.before rfl).before rfl
        exact goOn_anchors (IsAnchored.walking (a := { (a.before (.visit action parameter remaining
          body)).before (.leave element.identity) with stack := a.stack.push element })
          ⟨hnext.contexts, hnext.loads⟩ body) hanchored

/-! ### Variables and forks -/

lemma setVariable_anchors (h : a.IsAnchored d) (anchored : env.IsAnchored d)
    (usages : List VariableUsage) : Anchors d id (a.setVariable now env usages) := by
  unfold setVariable
  split
  · exact abort_anchors anchored rfl
  next f _ =>
    cases hbind : env.bind usages f a.result with
    | mk failure bound =>
      exact goOnUnless_anchors (a := { a with result := bound.1 }) ⟨h.contexts, h.loads⟩
        (anchored.bind hbind) failure

/-- Forked processes work in the contexts of the process that forks them. -/
lemma children_anchored (h : a.IsAnchored d) (asynchronous synchronous : List Behavior) :
    ∀ b ∈ a.children id asynchronous synchronous, b.IsAnchored d := by
  intro b hb
  rcases List.mem_append.mp hb with hb | hb
  all_goals
    rw [List.mem_mapIdx] at hb
    obtain ⟨i, _, rfl⟩ := hb
    refine ⟨h.contexts, fun task htask => ?_⟩
    rw [List.mem_singleton.mp htask]
    exact nofun

lemma fork_anchors (h : a.IsAnchored d) (anchored : env.IsAnchored d) (action : Action)
    (asynchronous synchronous : List Behavior) :
    Anchors d id (a.fork id env action asynchronous synchronous) := by
  refine ⟨(anchored.note _).setBarrier (by simp [Barrier.new]), ?_,
    children_anchored h asynchronous synchronous⟩
  intro p hp
  rw [List.mem_singleton.mp hp]
  exact h.before rfl

lemma joinForked_anchors (h : a.IsAnchored d) (anchored : env.IsAnchored d) :
    Anchors d id (a.joinForked now id env) := by
  unfold joinForked
  dsimp only
  split_ifs
  · cases hfailure : (env.barrier id).collect.1 with
    | some e =>
      exact abort_anchors (anchored.dropBarrier id)
        (anchored.failures id e (List.mem_of_head? hfailure))
    | none => exact goOn_anchors h (anchored.dropBarrier id)
  · refine ⟨anchored.setBarrier (anchored.failures id), ?_, by simp⟩
    intro p hp
    rw [List.mem_singleton.mp hp]
    exact h.before rfl

/-! ### All steps -/

lemma perform_anchors (h : a.IsAnchored d) (anchored : env.IsAnchored d) (action : Action) :
    Anchors d id (a.perform d now id env action) := by
  unfold perform
  cases action.kind with
  | start => exact goOn_anchors h anchored
  | stop => exact goOn_anchors h anchored
  | internal demands => exact beginInternal_anchors h anchored action demands
  | externalCall call => exact beginCall_anchors h anchored action call
  | branch transitions => exact branch_anchors h anchored action transitions
  | loop iterations body => exact beginLoop_anchors h anchored action iterations body
  | collectionIterator parameter body =>
    exact beginIterator_anchors h anchored action parameter body
  | setVariable usages => exact setVariable_anchors h anchored usages
  | fork asynchronous synchronous => exact fork_anchors h anchored action asynchronous synchronous

lemma walkOn_anchors (h : a.IsAnchored d) (anchored : env.IsAnchored d) (behavior : Behavior)
    (depth : Nat) (actions : List Action) :
    Anchors d id (a.walkOn d now id env behavior depth actions) := by
  cases actions with
  | nil =>
    unfold walkOn
    split_ifs
    · exact goOn_anchors h anchored
    · exact abort_anchors anchored rfl
  | cons action rest =>
    exact perform_anchors ((h.before rfl).before rfl) (anchored.note _) action

lemma acceptInputs_anchors (h : a.IsAnchored d) (anchored : env.IsAnchored d)
    (inputs : List VariableUsage) : Anchors d id (a.acceptInputs now env inputs) := by
  unfold acceptInputs
  dsimp only
  cases hbind : env.newFrame.2.newFrame.2.bind inputs env.newFrame.1 env.newFrame.2.newFrame.1 with
  | mk failure bound =>
    exact goOnUnless_anchors (a := { a with stack := a.stack.push bound.1 })
      ⟨h.contexts, h.loads⟩ (anchored.newFrame.newFrame.bind hbind) failure

lemma enterBehavior_anchors (h : a.IsAnchored d) (anchored : env.IsAnchored d)
    (behavior : Behavior) : Anchors d id (a.enterBehavior env behavior) :=
  goOn_anchors (IsAnchored.walking (a := { a with result := env.newFrame.1 })
    ⟨h.contexts, h.loads⟩ behavior) (anchored.newFrame.note _)

lemma performTask_anchors (h : a.IsAnchored d) (anchored : env.IsAnchored d) {task : Task}
    (loads : ∀ container ∈ task.container?, d.model.hasContainer container = true) :
    Anchors d id (a.performTask d now id env task) := by
  cases task with
  | arrive time =>
    refine ⟨anchored, ?_, by simp⟩
    intro p hp
    rw [List.mem_singleton.mp hp]
    exact h
  | accept inputs => exact acceptInputs_anchors h anchored inputs
  | enterFork behavior => exact goOn_anchors (h.before rfl) (anchored.note _)
  | invoke behavior => exact enterBehavior_anchors h anchored behavior
  | walk behavior depth actions => exact walkOn_anchors h anchored behavior depth actions
  | finish action => exact goOn_anchors h (anchored.note _)
  | load action container demands =>
    exact issueNext_anchors h anchored action (loads container rfl) demands
  | serve load => exact startService_anchors h anchored load
  | release load started => exact completeDemand_anchors h anchored load started
  | iterate action iteration remaining body =>
    exact nextIteration_anchors h anchored action iteration body remaining
  | visit action parameter remaining body =>
    exact nextElement_anchors h anchored action parameter body remaining
  | leave element =>
    exact leaveFrame_anchors anchored fun stack =>
      goOn_anchors ⟨h.contexts, h.loads⟩ anchored
  | return_ site pushed result => exact finishCall_anchors h anchored site pushed result
  | join => exact joinForked_anchors h anchored

/-- **Every step leaves what goes on anchored, and ends with no dangling reference.** -/
theorem advance_anchors (d : Deployment) (now : SimTime) (id : ProcessId) (h : a.IsAnchored d)
    (anchored : env.IsAnchored d) : Anchors d id (a.advance d now id env) := by
  unfold advance
  split
  · exact ⟨anchored, nofun⟩
  next task rest htasks =>
    have hloads := h.loads
    rw [htasks, List.forall_mem_cons] at hloads
    exact performTask_anchors (a := { a with tasks := rest }) ⟨h.contexts, hloads.2⟩ anchored
      hloads.1

/-- A report passes on no dangling reference if there is none. -/
lemma report_anchored (anchored : env.IsAnchored d) {c : Completion}
    (hc : ∀ e, c.result = .error e → e.isDangling = false) :
    (a.report env c).world.IsAnchored d := by
  unfold report
  cases a.role with
  | request number => exact anchored.complete number hc
  | asynchronous =>
    cases c.result with
    | ok result => exact anchored
    | error e => exact anchored.note _
  | synchronous owner =>
    refine anchored.setBarrier fun e he => ?_
    rw [(Kernel.arrive_spec _ (env.barrier owner)).2.1] at he
    rcases List.mem_append.mp he with he | he
    · exact anchored.failures owner e he
    · cases hresult : c.result with
      | ok result =>
        rw [hresult] at he
        cases he
      | error e' =>
        rw [hresult] at he
        rw [List.mem_singleton.mp he]
        exact hc e' hresult

lemma turn_anchored (d : Deployment) (now : SimTime) (id : ProcessId) (h : a.IsAnchored d)
    (anchored : env.IsAnchored d) :
    (a.turn d now id env).world.IsAnchored d ∧
      (∀ p ∈ (a.turn d now id env).next.goesOn id, p.2.IsAnchored d) ∧
      ∀ b ∈ (a.turn d now id env).spawned, b.IsAnchored d := by
  have hanchors := advance_anchors d now id h anchored
  unfold turn
  cases hadvance : a.advance d now id env with
  | goes turn =>
    rw [hadvance] at hanchors
    exact hanchors
  | ends env' c =>
    rw [hadvance] at hanchors
    refine ⟨report_anchored hanchors.1 hanchors.2, ?_, ?_⟩
    · simp [report_ends.2, Next.goesOn]
    · simp [report_ends.1]

end Activity

namespace Kernel

open Activity

/-- **A kernel whose references are declared**: every process is anchored, and so is what they
share. -/
structure Anchored (d : Deployment) (k : Kernel Environment Activity) : Prop where
  order : k.Orderly
  world : k.world.IsAnchored d
  processes : ∀ p ∈ k.processes, p.2.IsAnchored d

variable {d : Deployment} {k k' : Kernel Environment Activity} {id : ProcessId} {a : Activity}
  {stop : Option SimTime}

lemma Quiet.anchored (h : k.Anchored d) (quiet : Quiet (program d) k k') : k'.Anchored d := by
  refine ⟨quiet.orderly h.order, ?_, quiet.processes ▸ h.processes⟩
  rcases quiet.world with hworld | ⟨time, wakeups, hworld⟩
  · exact hworld ▸ h.world
  · exact hworld ▸ h.world.note _

lemma Turned.anchored (h : k.Anchored d) (runs : k.running = some (id, a))
    (turned : Turned k k' id (a.turn d k.now id k.world)) : k'.Anchored d := by
  obtain ⟨hworld, hnext, hspawned⟩ :=
    turn_anchored d k.now id (h.processes _ (running_mem runs)) h.world
  have hids := turned.distinct h.order runs
  refine ⟨⟨turned.lined, hids.1, hids.2⟩, turned.world ▸ hworld, ?_⟩
  intro p hp
  rw [turned.processes.mem_iff, List.mem_append, List.mem_append] at hp
  rcases hp with (hp | hp) | hp
  · exact hnext p hp
  · exact hspawned p.2 (mem_newborn hp).2.2
  · exact h.processes p (mem_processes_of_bystanders runs hp)

/-- Every step leaves the references of a kernel declared. -/
theorem step_anchored (h : k.Anchored d) (hstep : k.step (program d) stop = .goes k') :
    k'.Anchored d := by
  rcases step_cases h.order hstep with quiet | ⟨id, a, runs, turned⟩
  · exact quiet.anchored h
  · exact turned.anchored h runs

lemma initial_anchored {env : Environment} (h : env.IsAnchored d) :
    (initial env : Kernel Environment Activity).Anchored d :=
  ⟨initial_orderly env, h, by simp [initial, Kernel.processes, agenda, others, appointed]⟩

lemma spawn_anchored (h : k.Anchored d) (ha : a.IsAnchored d) : (k.spawn a).Anchored d := by
  refine ⟨spawn_orderly a h.order, h.world, ?_⟩
  intro p hp
  rcases List.mem_cons.mp ((spawn_processes a k).mem_iff.mp hp) with rfl | hp
  · exact ha
  · exact h.processes p hp

lemma mapWorld_anchored (h : k.Anchored d) {f : Environment → Environment}
    (world : (f k.world).IsAnchored d) : (k.mapWorld f).Anchored d :=
  ⟨mapWorld_orderly f h.order, world, h.processes⟩

end Kernel

end ServiceSim
