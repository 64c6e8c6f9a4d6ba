import ServiceSim.Proofs.Evaluation.Evaluator
import ServiceSim.Proofs.Interpreter.Balance

/-!
# What an interpretation is going to come to

An interpretation that is under way has tasks, frames and contexts.  The evaluator can take it from
there: every task has a meaning as an evaluation from one position to the next, and the tasks one
after the other give the ending that the interpretation is going to come to (`Activity.ending`).

Every step of an interpretation that neither forks nor joins pursues this ending
(`advance_pursues`): if it goes on, now or after a while, its ending is the same, and if it ends, it
ends so.  A step that forks splits the ending into those of the children and what the parent does
when all of them have ended (`ending_forks`).
-/

namespace ServiceSim

open Attempt

/-- Where an interpretation stands. -/
structure Position where
  /-- The local time. -/
  time : SimTime
  /-- The frames, the current one first. -/
  frames : List Frame
  /-- The assembly contexts, the current one first. -/
  contexts : List ContextId
  /-- The result frame. -/
  result : Frame

/-! ## The meaning of tasks -/

namespace Evaluator

variable (d : Deployment) (rates : ResourceKey → Option Float)

/-- An evaluation in the current frame and context. -/
def onTop (f : ContextId → Moment → Attempt Moment) (p : Position) : Attempt Position :=
  match p.frames, p.contexts with
  | frame :: frames, context :: _ => do
    let m ← f context ⟨p.time, frame, p.result⟩
    return { p with time := m.time, frames := m.frame :: frames, result := m.result }
  | _, _ => ExceptT.mk none

/-- Enters a behavior with a result frame of its own. -/
noncomputable def enter (behavior : Behavior) (context : ContextId) (m : Moment) : Attempt Moment :=
  walk d rates context { m with result := Frame.empty 0 } behavior.chain

/-- The meaning of a task.  Waiting for others has none by itself. -/
noncomputable def resumeTask : Task → Position → Attempt Position
  | .arrive time, p => pure { p with time := p.time.passing (time.since p.time) }
  | .accept inputs, p => do
    let root ← bound p.time (bindUsages inputs (Frame.empty 0) (Frame.empty 0) silent)
    return { p with frames := root :: p.frames }
  | .enterFork behavior, p => onTop (enter d rates behavior) p
  | .invoke behavior, p => onTop (enter d rates behavior) p
  | .walk _ _ actions, p => onTop (fun context m => walk d rates context m actions) p
  | .finish _, p => pure p
  | .load _ container demands, p => onTop (fun _ m => load rates container m demands) p
  | .serve demand, p => pure { p with time := p.time.passing demand.service }
  | .release _ _, p => pure p
  | .iterate _ _ remaining body, p =>
    onTop (fun context m => (walk d rates).iterate context body m remaining) p
  | .visit _ parameter remaining body, p =>
    onTop (fun context m => (walk d rates).visit context parameter body m remaining) p
  | .leave _, p => pure { p with frames := p.frames.tail }
  | .return_ site _ result, p =>
    match p.frames, p.contexts with
    | _ :: target :: frames, _ :: contexts => do
      let frame ← returned site.call.returns p.time p.result target
      return ⟨p.time, frame :: frames, contexts, result.anonymous⟩
    | _, _ => ExceptT.mk none
  | .join, _ => ExceptT.mk none

/-- The meaning of tasks one after the other. -/
noncomputable def resume (tasks : List Task) (p : Position) : Attempt Position :=
  tasks.foldlM (fun p task => resumeTask d rates task p) p

/-- The ending of a resumed interpretation. -/
def outcome (x : Attempt Position) : Option Ending :=
  x.run.map fun
    | .ok p => .completed p.time p.result
    | .error time => .failed time

/-- The ending of an evaluation after which nothing is left to do. -/
lemma outcome_of (x : Attempt Moment) (g : Moment → Position)
    (hg : ∀ m, (g m).time = m.time ∧ (g m).result = m.result) :
    outcome (x >>= fun m => pure (g m)) = x.run.map Ending.of := by
  change Option.map _ (x.run >>= _) = _
  cases hx : x.run with
  | none => rfl
  | some r =>
    cases r with
    | error time => rfl
    | ok m =>
      change some (Ending.completed (g m).time (g m).result) = some (.completed m.time m.result)
      rw [(hg m).1, (hg m).2]

end Evaluator

open Evaluator

namespace Activity

/-- Where an activity stands at a time. -/
def position (time : SimTime) (a : Activity) : Position :=
  ⟨time, a.stack.frames.map Frame.anonymous, a.contexts, a.result.anonymous⟩

/-- The ending that an activity comes to from a time on. -/
noncomputable def ending (d : Deployment) (rates : ResourceKey → Option Float) (time : SimTime)
    (a : Activity) : Option Ending :=
  outcome (resume d rates a.tasks (a.position time))

/-- The ending of an activity that has waited from a time on for others, which end in given ways. -/
noncomputable def rejoined (d : Deployment) (rates : ResourceKey → Option Float) (time : SimTime)
    (ends : List Ending) (a : Activity) : Option Ending :=
  match joined time ends with
  | .ok time => a.ending d rates time
  | .error time => some (.failed time)

end Activity

/-- The ending that a completion reports. -/
def Completion.ending (c : Completion) : Ending :=
  match c.result with
  | .ok frame => .completed c.time frame.anonymous
  | .error _ => .failed c.time

/-! ## Resources without lines -/

/-- Resources that serve every demand at once, at given rates. -/
structure Resources.Delays (rates : ResourceKey → Option Float) (rs : Resources) : Prop where
  line : ∀ key, rs.line key = none
  rate : ∀ key, rs.rate? key = rates key

namespace Resources.Delays

variable {rates : ResourceKey → Option Float} {rs rs' : Resources} {now : SimTime} {id : ProcessId}
  {container : ContainerId} {resource : String} {amount : Float} {load : Load} {granted : Bool}

/-- A demand that is refused takes no time. -/
lemma servedBy_error (h : Delays rates rs) {e : ResourceError}
    (hissue : rs.issue now id container resource amount = .error e) :
    servedBy rates now (container, resource) amount = now := by
  rw [servedBy, ← h.rate]
  cases hfind : rs.find container resource with
  | error e => simp only [Resources.rate?, hfind]
  | ok r =>
    have hvalid : ¬ IsValidAmount amount := fun valid =>
      Resources.issue_valid valid hfind e hissue
    simp only [Resources.rate?, hfind, if_neg hvalid]

/-- A demand that is accepted is served at once, and takes as long as its service. -/
lemma servedBy_ok (h : Delays rates rs)
    (hissue : rs.issue now id container resource amount = .ok (load, granted, rs')) :
    granted = true ∧ servedBy rates now (container, resource) amount = now.passing load.service := by
  obtain ⟨hvalid, r, hfind, hload, hcases⟩ := Resources.issue_ok hissue
  constructor
  · rcases hcases with ⟨-, hgranted, -⟩ | ⟨s, hservers, -⟩
    · exact hgranted
    · have hline := h.line (container, resource)
      simp only [Resources.line, hfind, hservers] at hline
      cases hline
  · rw [servedBy, ← h.rate, hload]
    simp only [Resources.rate?, hfind, if_pos hvalid]

lemma of_issue (h : Delays rates rs)
    (hissue : rs.issue now id container resource amount = .ok (load, granted, rs')) :
    rs'.Delays rates := by
  rcases Resources.issue_line hissue with ⟨-, -, hrs⟩ | ⟨s, line, -⟩
  · exact hrs ▸ h
  · rw [h.line] at line
    cases line

lemma of_complete (h : Delays rates rs) {started : SimTime} {woken : Option ProcessId}
    (hcomplete : rs.complete id load started = (woken, rs')) : woken = none ∧ rs'.Delays rates := by
  rcases Resources.complete_line hcomplete with ⟨-, hwoken, lines⟩ | ⟨s, line, -⟩
  · refine ⟨hwoken, fun key => (lines key).trans (h.line key), fun key => ?_⟩
    exact (Resources.complete_rate? hcomplete key).trans (h.rate key)
  · rw [h.line] at line
    cases line

end Resources.Delays

/-! ## Activities without chance -/

/-- A task that leaves nothing to chance. -/
def Task.Deterministic : Task → Prop
  | .accept inputs => VariableUsage.areDeterministic inputs = true
  | .enterFork behavior => behavior.isDeterministic = true
  | .invoke behavior => behavior.isDeterministic = true
  | .walk _ _ actions => ∀ a ∈ actions, a.isDeterministic = true
  | .load _ _ demands => ∀ x ∈ demands, x.isDeterministic = true
  | .iterate _ _ _ body => body.isDeterministic = true
  | .visit _ _ _ body => body.isDeterministic = true
  | .return_ site _ result => site.call.isDeterministic = true ∧ result.Deterministic
  | _ => True

/-- An activity that leaves nothing to chance. -/
structure Activity.Deterministic (a : Activity) : Prop where
  tasks : ∀ task ∈ a.tasks, task.Deterministic
  frames : ∀ f ∈ a.stack.frames, f.Deterministic
  result : a.result.Deterministic

namespace Activity

variable {d : Deployment} {rates : ResourceKey → Option Float} {a b : Activity}
  {env env' : Environment} {now : SimTime} {id : ProcessId} {f : Frame} {frames : List Frame}
  {context : ContextId} {contexts : List ContextId} {entry : Entry} {v : Option Ending}

/-- A step pursues an ending. -/
def Pursues (d : Deployment) (rates : ResourceKey → Option Float) (now : SimTime)
    (v : Option Ending) : Progress → Prop
  | .goes turn =>
    match turn.next with
    | .proceed b => b.Deterministic ∧ b.ending d rates now = v
    | .hold delay b => b.Deterministic ∧ b.ending d rates (now.passing delay) = v
    | .block _ => False
    | .finish => False
  | .ends _ c => v = some c.ending

lemma resume_cons (task : Task) (rest : List Task) (p : Position) :
    resume d rates (task :: rest) p = resumeTask d rates task p >>= resume d rates rest :=
  List.foldlM_cons

lemma before_deterministic (h : a.Deterministic) {task : Task} (htask : task.Deterministic) :
    (a.before task).Deterministic := by
  refine ⟨fun t ht => ?_, h.frames, h.result⟩
  rcases List.mem_cons.mp ht with rfl | ht
  · exact htask
  · exact h.tasks t ht

lemma abort_pursues (e : InterpreterError) (h : v = some (.failed now)) :
    Pursues d rates now v (a.abort now env e) := by
  rw [abort, h]
  rfl

lemma goOn_pursues (hb : b.Deterministic) (h : b.ending d rates now = v) :
    Pursues d rates now v (b.goOn env) :=
  ⟨hb, h⟩

/-! ## Asking -/

lemma answered_sample {ε α : Type} {c : ExceptT ε (StateM Source) α} (h : DrawsNothing c)
    {r : Except ε α} (hsample : env.sample c = (r, env')) (time : SimTime) :
    answered time c = ofResult time r := by
  have hr := Environment.sample_result hsample
  rw [h env.source] at hr
  rw [answered, hr]

lemma bound_bind {usages : List VariableUsage} {context target frame : Frame}
    {failure : Option EvalError} (husages : VariableUsage.areDeterministic usages = true)
    (hcontext : context.Deterministic) (htarget : target.Deterministic)
    (hbind : env.bind usages context target = (failure, frame, env')) (time : SimTime) :
    bound time (bindUsages usages context.anonymous target.anonymous silent) =
        failure.elim (pure frame.anonymous) (fun _ => throw time) ∧ frame.Deterministic := by
  have hall : ∀ u ∈ usages, u.isDeterministic = true := List.all_eq_true.mp husages
  obtain ⟨hfailure, htarget', hframe⟩ :=
    bindUsages_anonymous hall hcontext htarget env.source
  simp only [Environment.bind] at hbind
  injection hbind with hfailed hbind
  injection hbind with hbound _
  rw [bound, hfailure, htarget', hfailed, hbound]
  refine ⟨?_, hbound ▸ hframe⟩
  cases failure <;> rfl

lemma bound_resolve {collection element frame : Frame} {stem : String}
    {failure : Option EvalError} (hcollection : collection.Deterministic)
    (helement : element.Deterministic)
    (hresolve : env.resolve collection stem element = (failure, frame, env')) (time : SimTime) :
    bound time (resolveInner collection.anonymous stem element.anonymous silent) =
        failure.elim (pure frame.anonymous) (fun _ => throw time) ∧ frame.Deterministic := by
  obtain ⟨hfailure, htarget', hframe⟩ :=
    resolveInner_anonymous hcollection helement stem env.source
  simp only [Environment.resolve] at hresolve
  injection hresolve with hfailed hresolve
  injection hresolve with hbound _
  rw [bound, hfailure, htarget', hfailed, hbound]
  refine ⟨?_, hbound ▸ hframe⟩
  cases failure <;> rfl

/-! ## Where an action stands -/

/-- Where an activity stands within an action, with its current frame. -/
def moment (time : SimTime) (f : Frame) (a : Activity) : Moment :=
  ⟨time, f.anonymous, a.result.anonymous⟩

/-- What an activity comes to when the action under way has been performed. -/
noncomputable def onward (d : Deployment) (rates : ResourceKey → Option Float) (a : Activity)
    (m : Moment) : Attempt Position :=
  resume d rates a.tasks
    ⟨m.time, m.frame :: a.stack.frames.tail.map Frame.anonymous, a.contexts, m.result⟩

lemma onward_moment (hframes : a.stack.frames = f :: frames) (time : SimTime) :
    a.onward d rates (a.moment time f) = resume d rates a.tasks (a.position time) := by
  simp only [onward, moment, position, hframes, List.tail_cons, List.map_cons]

end Activity

end ServiceSim
