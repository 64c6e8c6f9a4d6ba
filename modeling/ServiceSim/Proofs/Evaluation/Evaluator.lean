import ServiceSim.Proofs.Evaluation.Frames
import ServiceSim.Proofs.Evaluation.Limits
import ServiceSim.Proofs.Resources
import ServiceSim.Proofs.Time
import ServiceSim.Model.System

/-!
# Evaluating behaviors without a scheduler

For a model without chance in which every resource serves every demand at once, what becomes of a
request can be said without processes, timers and barriers.  The evaluator follows a behavior from a
time on and carries this time along with the current frame and the result frame.

A demand that is accepted takes as long as its amount divided by the rate.  A fork evaluates every
synchronous child from the same time and goes on at the latest of their ends, or fails then if one of
them has failed; asynchronous children are ignored.

Behaviors may call each other without end, and then the evaluation does not end either.  What an
action comes to is said in terms of a walk along chains (`Walk.follow`).  The evaluator is the limit
of walks that give up at a depth (`walkWithin`), and follows itself (`walk_follows`).
-/

namespace ServiceSim

/-! ## Endings -/

/-- An evaluation, which may not end, and which may fail at a time. -/
abbrev Attempt := ExceptT SimTime Option

/-- Where an evaluation has come to. -/
structure Moment where
  /-- The local time. -/
  time : SimTime
  /-- The current frame. -/
  frame : Frame
  /-- The result frame. -/
  result : Frame

/-- How an evaluation ends. -/
inductive Ending where
  | completed (time : SimTime) (result : Frame)
  | failed (time : SimTime)

namespace Ending

/-- When it ends. -/
def time : Ending → SimTime
  | completed time _ => time
  | failed time => time

/-- Whether it fails. -/
def isFailed : Ending → Bool
  | completed _ _ => false
  | failed _ => true

/-- The ending of what has been evaluated. -/
def of : Except SimTime Moment → Ending
  | .ok m => completed m.time m.result
  | .error time => failed time

end Ending

/-- The latest of a time and those at which evaluations end. -/
def latest (time : SimTime) (ends : List Ending) : SimTime :=
  ends.foldl (fun time e => time.later e.time) time

/-- When evaluations that begin at a time have all ended, as a failure if one of them has failed. -/
def joined (time : SimTime) (ends : List Ending) : Except SimTime SimTime :=
  if ends.any Ending.isFailed then .error (latest time ends) else .ok (latest time ends)

namespace Attempt

/-- A result that is a failure at a time. -/
def ofResult {ε α : Type} (time : SimTime) : Except ε α → Attempt α
  | .ok a => pure a
  | .error _ => throw time

/-- The answer of a computation that asks nothing of its random source. -/
def answered {ε α : Type} (time : SimTime) (c : ExceptT ε (StateM Source) α) : Attempt α :=
  ofResult time (c silent).1

/-- The frame after binding. -/
def bound (time : SimTime) (outcome : BindOutcome) : Attempt Frame :=
  match outcome.failure with
  | some _ => throw time
  | none => pure outcome.target

end Attempt

/-! ## Actions -/

namespace Evaluator

open Attempt

variable (d : Deployment) (rates : ResourceKey → Option Float)

/-- When a demand issued at a time is over.  One that is refused takes no time. -/
def servedBy (time : SimTime) (key : ResourceKey) (amount : Float) : SimTime :=
  match rates key with
  | some rate => if IsValidAmount amount then time.passing (amount / rate) else time
  | none => time

/-- Issues demands one after the other. -/
def load (container : ContainerId) : Moment → List ResourceDemand → Attempt Moment
  | m, [] => pure m
  | m, next :: rest => do
    let amount ← answered m.time (next.specification.evaluateDouble m.frame.scope)
    load container { m with time := servedBy rates m.time (container, next.resource) amount } rest

/-- The number of iterations that a specification gives. -/
def count (m : Moment) (specification : Specification) : Attempt Nat := do
  let n ← answered m.time (specification.evaluateInteger m.frame.scope)
  if n.toInt < 0 then throw m.time else pure n.toInt.toNat

/-- The context and the behavior that a call reaches. -/
def callee (context : ContextId) (call : ExternalCall) :
    Except ModelError (ContextId × Behavior) :=
  match d.context context with
  | .error e => .error e
  | .ok caller => d.resolveCall caller.id call.role call.service

/-- The frame of the caller after a call has returned. -/
def returned (returns : List VariableUsage) (time : SimTime) (output target : Frame) :
    Attempt Frame :=
  if returns.isEmpty then
    pure (output.own.foldl (fun f (name, binding) => f.bind name binding) target)
  else bound time (bindUsages returns output target silent)

/-- The frame of one element of a collection. -/
def element (m : Moment) (parameter : String) : Attempt Frame :=
  bound m.time (resolveInner m.frame (parameter ++ ".") (Frame.inside m.frame 0) silent)

/-- What chains of actions come to in a context. -/
abbrev Walk := ContextId → Moment → List Action → Attempt Moment

namespace Walk

variable (walk : Walk) (context : ContextId)

/-- Walks along the body of a loop a number of times. -/
def iterate (body : Behavior) (m : Moment) : Nat → Attempt Moment
  | 0 => pure m
  | n + 1 => do
    let m ← walk context m body.chain
    iterate body m n

/-- Walks along the body of a collection iterator for a number of elements. -/
def visit (parameter : String) (body : Behavior) (m : Moment) : Nat → Attempt Moment
  | 0 => pure m
  | n + 1 => do
    let inner ← element m parameter
    let out ← walk context { m with frame := inner } body.chain
    visit parameter body { out with frame := m.frame } n

/-- How the synchronous children of a fork end. -/
def children (m : Moment) : List Behavior → Option (List Ending)
  | [] => some []
  | behavior :: rest => do
    let first ← (walk context { m with result := Frame.empty 0 } behavior.chain).run
    let others ← children m rest
    return .of first :: others

/-- Performs an action. -/
def perform (m : Moment) (action : Action) : Attempt Moment :=
  match action.kind with
  | .start => pure m
  | .stop => pure m
  | .internal demands => do
    let container ← ofResult m.time (d.containerOf context)
    load rates container m demands
  | .externalCall call => do
    let (context, behavior) ← ofResult m.time (callee d context call)
    let input ← bound m.time (bindUsages call.inputs m.frame (Frame.empty 0) silent)
    let out ← walk context ⟨m.time, input, Frame.empty 0⟩ behavior.chain
    let frame ← returned call.returns out.time out.result m.frame
    return { m with time := out.time, frame := frame }
  | .branch transitions => do
    let choice ← answered m.time (Transition.choose Transition.defaultTolerance action.id
      (transitions.map fun t => (t.condition, t.behavior)) m.frame.scope)
    match choice with
    | none => pure m
    | some behavior => walk context m behavior.chain
  | .loop iterations body => do
    let n ← count m iterations
    walk.iterate context body m n
  | .collectionIterator parameter body => do
    let n ← count m (.variable_
      (parameter ++ "." ++ CharacterisationKind.numberOfElements.name))
    walk.visit context parameter body m n
  | .setVariable usages => do
    let result ← bound m.time (bindUsages usages m.frame m.result silent)
    return { m with result := result }
  | .fork _ synchronous =>
    (do
      let ends ← walk.children context m synchronous
      return (joined m.time ends).map fun time => { m with time := time } :
      Option (Except SimTime Moment))

/-- Follows a chain of actions, one by one. -/
def follow : Walk
  | _, m, [] => pure m
  | context, m, action :: rest => do
    let m ← walk.perform d rates context m action
    walk context m rest

end Walk

/-- Follows chains down to a depth, and gives up there. -/
def walkWithin : Nat → Walk
  | 0 => fun _ _ _ => ExceptT.mk none
  | depth + 1 => (walkWithin depth).follow d rates

/-- Follows a chain of actions to its end. -/
noncomputable def walk : Walk := fun context m actions =>
  ExceptT.mk (limit fun depth => (walkWithin d rates depth context m actions).run)

/-- How a request ends that arrives at a time. -/
noncomputable def request (entry : ContextId) (arrival : SimTime) (inputs : List VariableUsage)
    (behavior : Behavior) : Option Ending :=
  let attempt : Attempt Moment := do
    let root ← bound arrival (bindUsages inputs (Frame.empty 0) (Frame.empty 0) silent)
    walk d rates entry ⟨arrival, root, Frame.empty 0⟩ behavior.chain
  attempt.run.map Ending.of

/-! ## The evaluator follows itself -/

namespace Walk

variable {d rates} {walks : Nat → Walk} {walk : Walk} {context : ContextId}

/-- Walks that come to what a walk comes to, along every chain. -/
def Approach (walks : Nat → Walk) (walk : Walk) : Prop :=
  ∀ context m actions,
    Converges (fun n => (walks n context m actions).run) (walk context m actions).run

section

variable (h : Approach walks walk)

include h

lemma iterate_converges (body : Behavior) (m : Moment) (n : Nat) :
    Converges (fun k => ((walks k).iterate context body m n).run)
      (walk.iterate context body m n).run := by
  induction n generalizing m with
  | zero => exact .const _
  | succ n ih => exact .bindExcept (h _ _ _) ih

lemma visit_converges (parameter : String) (body : Behavior) (m : Moment) (n : Nat) :
    Converges (fun k => ((walks k).visit context parameter body m n).run)
      (walk.visit context parameter body m n).run := by
  induction n generalizing m with
  | zero => exact .const _
  | succ n ih =>
    refine .bindExcept (.const _) fun inner => ?_
    exact .bindExcept (h _ _ _) fun out => ih _

lemma children_converges (m : Moment) (behaviors : List Behavior) :
    Converges (fun k => (walks k).children context m behaviors)
      (walk.children context m behaviors) := by
  induction behaviors with
  | nil => exact .const _
  | cons behavior rest ih =>
    refine .bind (h _ _ _) fun first => ?_
    exact .bind ih fun others => .const _

lemma perform_converges (m : Moment) (action : Action) :
    Converges (fun k => ((walks k).perform d rates context m action).run)
      (walk.perform d rates context m action).run := by
  obtain ⟨id, name, successor, kind⟩ := action
  cases kind with
  | start => exact .const _
  | stop => exact .const _
  | internal demands => exact .const _
  | externalCall call =>
    refine .bindExcept (.const _) fun ⟨target, behavior⟩ => ?_
    refine .bindExcept (.const _) fun input => ?_
    exact .bindExcept (h _ _ _) fun out => .const _
  | branch transitions =>
    refine .bindExcept (.const _) fun choice => ?_
    cases choice with
    | none => exact .const _
    | some behavior => exact h _ _ _
  | loop iterations body => exact .bindExcept (.const _) (iterate_converges h body m)
  | collectionIterator parameter body =>
    exact .bindExcept (.const _) (visit_converges h parameter body m)
  | setVariable usages => exact .const _
  | fork asynchronous synchronous =>
    exact .bind (children_converges h m synchronous) fun ends => .const _

/-- **Following is continuous.** -/
theorem follow_approach :
    Approach (fun n => (walks n).follow d rates) (walk.follow d rates) := by
  intro context m actions
  cases actions with
  | nil => exact .const _
  | cons action rest => exact .bindExcept (perform_converges h m action) fun m => h _ _ _

end

end Walk

/-- A deeper walk comes to the same. -/
lemma walkWithin_remains (context : ContextId) (m : Moment) (actions : List Action) :
    Remains fun depth => (walkWithin d rates depth context m actions).run := by
  intro depth
  induction depth generalizing context m actions with
  | zero => nofun
  | succ depth ih =>
    -- Only one step deeper: the two walks are the first members of a sequence that stays.
    let walks : Nat → Walk := fun k => walkWithin d rates (depth + min k 1)
    have hwalks : Walk.Approach walks (walks 1) := by
      intro context m actions
      refine .of_once (ih context m actions) fun n => ?_
      simp only [walks, Nat.min_eq_right (Nat.le_add_left 1 n), Nat.min_self]
    exact (Walk.follow_approach hwalks context m actions).remains 0

lemma walk_approached : Walk.Approach (walkWithin d rates) (walk d rates) :=
  fun context m actions => converges_limit (walkWithin_remains d rates context m actions)

/-- **The evaluator follows itself.** -/
theorem walk_follows : walk d rates = (walk d rates).follow d rates := by
  funext context m actions
  exact ((walk_approached d rates context m actions).tail).unique
    (Walk.follow_approach (walk_approached d rates) context m actions)

variable {d rates} {context : ContextId}

lemma walk_nil (m : Moment) : walk d rates context m [] = pure m := by
  rw [walk_follows, Walk.follow]

lemma walk_cons (m : Moment) (action : Action) (rest : List Action) :
    walk d rates context m (action :: rest) =
      (walk d rates).perform d rates context m action >>= fun m => walk d rates context m rest := by
  conv_lhs => rw [walk_follows, Walk.follow]

end Evaluator

end ServiceSim
