import ServiceSim.Proofs.Interpreter.Effects
import ServiceSim.Proofs.Kernel.Processes
import ServiceSim.Proofs.Resources
import ServiceSim.Simulation.Request

/-!
# Errands

A request runs an errand if its behavior issues one demand and does nothing else.  It is pending
until it has arrived, outbound until it has issued the demand, and homebound when the demand has been
completed.  In between it waits for a server or is served.

`Activity.Stride` lists what it can do in a turn on the way, and `Activity.Stride.lighter` says that
each turn leaves less of the way.
-/

namespace ServiceSim

/-! ## What an errand is -/

/-- An action that does nothing. -/
def Action.IsIdle (action : Action) : Prop := action.kind = .start ∨ action.kind = .stop

namespace ResourceDemand

/-- A chain of actions issues the demand and does nothing else. -/
inductive IsSole (demand : ResourceDemand) : List Action → Prop where
  | idle {action : Action} {rest : List Action} :
      action.IsIdle → demand.IsSole rest → demand.IsSole (action :: rest)
  | issue {action : Action} {rest : List Action} :
      action.kind = .internal [demand] → (∀ x ∈ rest, x.IsIdle) → demand.IsSole (action :: rest)

/-- The demand comes to an amount in a frame, whatever is drawn. -/
def AmountsTo (demand : ResourceDemand) (amount : Float) (f : Frame) : Prop :=
  ∀ source, (demand.specification.evaluateDouble f.scope source).1 = .ok amount

end ResourceDemand

namespace RequestSpec

/-- A request whose behavior issues a valid demand of a resource and does nothing else.  What the
demand amounts to does not depend on what is drawn, nor on the identities of frames. -/
structure Errand (d : Deployment) (key : ResourceKey) (amount : Float) (spec : RequestSpec)
    (behavior : Behavior) (demand : ResourceDemand) : Prop where
  provided : d.providedService spec.entry spec.service = .ok behavior
  sole : demand.IsSole behavior.chain
  container : d.containerOf spec.entry = .ok key.1
  resource : demand.resource = key.2
  valid : IsValidAmount amount
  binds : ∀ context root source, (bindUsages spec.inputs (Frame.empty context) (Frame.empty root)
    source).failure = none
  amounts : ∀ context root source, demand.AmountsTo amount
    (bindUsages spec.inputs (Frame.empty context) (Frame.empty root) source).target

/-- The request runs an errand: it issues one demand of a resource, which has an amount. -/
def IsErrand (d : Deployment) (key : ResourceKey) (amount : Float) (spec : RequestSpec) : Prop :=
  ∃ behavior demand, spec.Errand d key amount behavior demand

end RequestSpec

/-! ## Tasks on the way -/

/-- How many steps an action takes at most, and those that follow its demands. -/
def Action.weight (action : Action) : Nat :=
  match action.kind with
  | .internal demands => 3 * demands.length + 3
  | _ => 2

namespace Task

/-- How many steps a task takes at most. -/
def weight : Task → Nat
  | .arrive _ => 1
  | .accept _ => 1
  | .invoke behavior => (behavior.chain.map Action.weight).sum + 2
  | .walk _ _ actions => (actions.map Action.weight).sum + 1
  | .finish _ => 1
  | .load _ _ demands => 3 * demands.length + 1
  | .serve _ => 2
  | .release _ _ => 1
  | _ => 0

/-- A task that is left when the demand has been completed. -/
def IsClosing : Task → Prop
  | .finish _ => True
  | .load _ _ demands => demands = []
  | .walk _ depth actions => depth = 1 ∧ ∀ x ∈ actions, x.IsIdle
  | _ => False

/-- Tasks that lead to a demand. -/
inductive Leads (container : ContainerId) (demand : ResourceDemand) : List Task → Prop where
  | invoke {behavior : Behavior} :
      demand.IsSole behavior.chain → Leads container demand [.invoke behavior]
  | walk {behavior : Behavior} {actions : List Action} :
      demand.IsSole actions → Leads container demand [.walk behavior 1 actions]
  | finish {action : Action} {tasks : List Task} :
      Leads container demand tasks → Leads container demand (.finish action :: tasks)
  | load {action : Action} {tasks : List Task} : (∀ t ∈ tasks, t.IsClosing) →
      Leads container demand (.load action container [demand] :: tasks)

/-- Whether a demand is still to be issued. -/
def isOutbound : Task → Bool
  | .invoke _ => true
  | .walk _ _ actions => actions.any fun x =>
    match x.kind with
    | .internal _ => true
    | _ => false
  | .load _ _ demands => !demands.isEmpty
  | _ => false

lemma IsClosing.not_isOutbound {t : Task} (h : t.IsClosing) : t.isOutbound = false := by
  cases t with
  | finish action => rfl
  | load action container demands =>
    rw [isOutbound, show demands = [] from h]
    rfl
  | walk behavior depth actions =>
    rw [isOutbound, List.any_eq_false]
    intro x hx
    rcases h.2 x hx with hkind | hkind <;> simp [hkind]
  | _ => cases h

lemma Leads.isOutbound {container : ContainerId} {demand : ResourceDemand} {tasks : List Task}
    (h : Leads container demand tasks) : tasks.any isOutbound = true := by
  induction h with
  | invoke => rfl
  | walk sole =>
    rw [List.any_cons, Bool.or_eq_true, Task.isOutbound]
    left
    induction sole with
    | idle _ _ ih => rw [List.any_cons, ih, Bool.or_true]
    | issue kind => simp [kind]
  | finish _ ih => rw [List.any_cons, ih, Bool.or_true]
  | load => simp [Task.isOutbound]

end Task

/-! ## Stages of an errand -/

namespace Activity

variable {d : Deployment} {key : ResourceKey} {amount : Float} {spec : RequestSpec}
  {demand : ResourceDemand} {a b : Activity} {env : Environment} {now : SimTime} {id : ProcessId}
  {turn : Turn Environment Activity}

/-- How many turns an activity takes at most. -/
def weight (a : Activity) : Nat := (a.tasks.map Task.weight).sum + 1

/-- Whether a demand is still to be issued. -/
def isOutbound (a : Activity) : Bool := a.tasks.any Task.isOutbound

/-- The activity has not arrived yet. -/
structure Pending (d : Deployment) (key : ResourceKey) (amount : Float) (spec : RequestSpec)
    (a : Activity) : Prop where
  tasks : ∃ behavior demand, spec.Errand d key amount behavior demand ∧ a.tasks =
    [.arrive (spec.arrival.later .zero), .accept spec.inputs, .invoke behavior]
  stack : a.stack = .empty
  contexts : a.contexts = [spec.entry]

/-- The activity has arrived. -/
structure Arrived (d : Deployment) (key : ResourceKey) (amount : Float) (spec : RequestSpec)
    (a : Activity) : Prop where
  tasks : ∃ behavior demand, spec.Errand d key amount behavior demand ∧
    a.tasks = [.accept spec.inputs, .invoke behavior]
  stack : a.stack = .empty
  contexts : a.contexts = [spec.entry]

/-- The activity has bound its inputs and is going to issue its demand. -/
structure Approaches (d : Deployment) (key : ResourceKey) (amount : Float)
    (demand : ResourceDemand) (a : Activity) : Prop where
  frame : ∃ f, a.stack.frames = [f] ∧ demand.AmountsTo amount f
  context : ∃ entry, a.contexts = [entry] ∧ d.containerOf entry = .ok key.1
  resource : demand.resource = key.2
  tasks : Task.Leads key.1 demand a.tasks

/-- The activity is on its way to its demand. -/
def Outbound (d : Deployment) (key : ResourceKey) (amount : Float) (spec : RequestSpec)
    (a : Activity) : Prop :=
  a.Arrived d key amount spec ∨ ∃ demand, a.Approaches d key amount demand

/-- The activity has nothing left to do but to walk to the end. -/
structure Homebound (a : Activity) : Prop where
  depth : a.stack.depth = 1
  tasks : ∀ t ∈ a.tasks, t.IsClosing

lemma Pending.isOutbound (h : a.Pending d key amount spec) : a.isOutbound = true := by
  obtain ⟨behavior, demand, -, htasks⟩ := h.tasks
  rw [Activity.isOutbound, htasks]
  rfl

lemma Outbound.isOutbound (h : a.Outbound d key amount spec) : a.isOutbound = true := by
  rcases h with h | ⟨demand, h⟩
  · obtain ⟨behavior, demand, -, htasks⟩ := h.tasks
    rw [Activity.isOutbound, htasks]
    rfl
  · exact h.tasks.isOutbound

lemma Homebound.not_isOutbound (h : a.Homebound) : a.isOutbound = false := by
  rw [Activity.isOutbound, List.any_eq_false]
  intro t ht
  rw [(h.tasks t ht).not_isOutbound]
  exact Bool.false_ne_true

/-- **What an errand can do in a turn.** -/
inductive Stride (d : Deployment) (key : ResourceKey) (amount : Float) (spec : RequestSpec)
    (now : SimTime) (id : ProcessId) (env : Environment) (a : Activity) :
    Turn Environment Activity → Prop where
  /-- It waits until it arrives. -/
  | arrives {b : Activity} : a.Pending d key amount spec → b.Arrived d key amount spec →
      b.role = a.role → b.weight < a.weight → Stride d key amount spec now id env a
        ⟨env, [], [], .hold ((spec.arrival.later .zero).since now) b⟩
  /-- It goes on towards its demand. -/
  | approaches {env' : Environment} {b : Activity} : a.Outbound d key amount spec →
      env.Steady env' → b.Outbound d key amount spec → b.role = a.role → b.weight < a.weight →
      Stride d key amount spec now id env a ⟨env', [], [], .proceed b⟩
  /-- It issues its demand and gets a server. -/
  | granted {env' : Environment} {b : Activity} {load : Load} : a.Outbound d key amount spec →
      env.resources.issue now id key.1 key.2 amount = .ok (load, true, env'.resources) →
      env'.completions = env.completions → b.Homebound → b.role = a.role →
      b.weight + 2 < a.weight → Stride d key amount spec now id env a
        ⟨env', [], [], .hold load.service (b.before (.release load now))⟩
  /-- It issues its demand and waits for a server. -/
  | queued {env' : Environment} {b : Activity} {load : Load} : a.Outbound d key amount spec →
      env.resources.issue now id key.1 key.2 amount = .ok (load, false, env'.resources) →
      env'.completions = env.completions → b.Homebound → b.role = a.role →
      b.weight + 2 < a.weight → Stride d key amount spec now id env a
        ⟨env', [], [], .block (b.before (.serve load))⟩
  /-- Its service starts. -/
  | starts {env' : Environment} {b : Activity} {load : Load} : a.tasks = .serve load :: b.tasks →
      env.Steady env' → b.Homebound → b.role = a.role → Stride d key amount spec now id env a
        ⟨env', [], [], .hold load.service (b.before (.release load now))⟩
  /-- Its service is over. -/
  | completes {env' : Environment} {b : Activity} {load : Load} {started : SimTime}
      {woken : Option ProcessId} : a.tasks = .release load started :: b.tasks →
      env.resources.complete id load started = (woken, env'.resources) →
      env'.completions = env.completions → b.Homebound → b.role = a.role →
      Stride d key amount spec now id env a ⟨env', woken.toList, [], .proceed b⟩
  /-- It goes on towards its end. -/
  | returns {env' : Environment} {b : Activity} : a.Homebound → env.Steady env' → b.Homebound →
      b.role = a.role → b.weight < a.weight →
      Stride d key amount spec now id env a ⟨env', [], [], .proceed b⟩
  /-- It has come to its end. -/
  | reports {number : Nat} {c : Completion} {frame : Frame} : a.Homebound →
      a.role = .request number → c.time = now → c.result = .ok frame →
      Stride d key amount spec now id env a ⟨env.complete number c, [], [], .finish⟩

/-- A turn leaves less of the way. -/
lemma Stride.lighter (h : Stride d key amount spec now id env a turn) :
    ((turn.next.goesOn id).map (·.2.weight)).sum + (turn.spawned.map weight).sum < a.weight := by
  cases h with
  | arrives _ _ _ hweight => simpa [Next.goesOn] using hweight
  | approaches _ _ _ _ hweight => simpa [Next.goesOn] using hweight
  | granted _ _ _ _ _ hweight =>
    simp only [weight, Next.goesOn, before, List.map_cons, List.map_nil, List.sum_cons,
      List.sum_nil, Task.weight] at hweight ⊢
    omega
  | queued _ _ _ _ _ hweight =>
    simp only [weight, Next.goesOn, before, List.map_cons, List.map_nil, List.sum_cons,
      List.sum_nil, Task.weight] at hweight ⊢
    omega
  | starts htasks =>
    simp only [weight, htasks, Next.goesOn, before, List.map_cons, List.map_nil, List.sum_cons,
      List.sum_nil, Task.weight]
    omega
  | completes htasks =>
    simp only [weight, htasks, Next.goesOn, List.map_cons, List.map_nil, List.sum_cons,
      List.sum_nil, Task.weight]
    omega
  | returns _ _ _ _ hweight => simpa [Next.goesOn] using hweight
  | reports =>
    simp only [weight, Next.goesOn, List.map_nil, List.sum_nil]
    omega

/-! ## Turns on the way -/

lemma Pending.stride (h : a.Pending d key amount spec) :
    Stride d key amount spec now id env a (a.turn d now id env) := by
  obtain ⟨⟨behavior, demand, errand, htasks⟩, hstack, hcontexts⟩ := h
  let b : Activity := { a with tasks := [.accept spec.inputs, .invoke behavior] }
  have hb : b.Arrived d key amount spec := ⟨⟨behavior, demand, errand, rfl⟩, hstack, hcontexts⟩
  have hweight : b.weight < a.weight := by
    simp only [weight, b, htasks, List.map_cons, List.sum_cons, Task.weight]
    omega
  rw [turn, advance, htasks]
  exact .arrives ⟨⟨behavior, demand, errand, htasks⟩, hstack, hcontexts⟩ hb rfl hweight

lemma Arrived.stride (h : a.Arrived d key amount spec) :
    Stride d key amount spec now id env a (a.turn d now id env) := by
  obtain ⟨⟨behavior, demand, errand, htasks⟩, hstack, hcontexts⟩ := h
  have ha : a.Outbound d key amount spec :=
    .inl ⟨⟨behavior, demand, errand, htasks⟩, hstack, hcontexts⟩
  simp only [turn, advance, htasks, performTask, acceptInputs]
  cases hbind : env.newFrame.2.newFrame.2.bind spec.inputs env.newFrame.1
      env.newFrame.2.newFrame.1 with
  | mk failure bound =>
    obtain ⟨root, env'⟩ := bound
    have hsteady := (Environment.Steady.refl env).newFrame.newFrame.trans
      (Environment.bind_steady hbind)
    have hamounts := errand.amounts env.frames (env.frames + 1) env.source
    have hbinds := errand.binds env.frames (env.frames + 1) env.source
    rw [Environment.bind] at hbind
    injection hbind with hfailure hbind
    injection hbind with hroot _
    have hnone : failure = none := hfailure.symm.trans hbinds
    rw [hnone]
    let b : Activity := { a with tasks := [.invoke behavior], stack := a.stack.push root }
    have hb : b.Approaches d key amount demand := by
      refine ⟨⟨root, ?_, hroot ▸ hamounts⟩, ⟨_, hcontexts, errand.container⟩, errand.resource,
        .invoke errand.sole⟩
      simp only [b, hstack, VariableStack.push, VariableStack.empty]
    have hweight : b.weight < a.weight := by
      simp only [weight, b, htasks, List.map_cons, List.sum_cons, Task.weight]
      omega
    exact .approaches ha hsteady (.inr ⟨demand, hb⟩) rfl hweight

/-- The demand of an errand is accepted. -/
lemma demand_stride (ha : a.Outbound d key amount spec) (valid : IsValidAmount amount)
    {r : ActiveResource} (found : env.resources.find key.1 key.2 = .ok r) {env' : Environment}
    (steady : env.Steady env') (hb : b.Homebound) (role : b.role = a.role)
    (hweight : b.weight + 2 < a.weight) (action : Action) :
    ∃ turn, b.demand now id env' action key.1 key.2 amount = .goes turn ∧
      Stride d key amount spec now id env a turn := by
  have hresources : ((env'.note (.demandIssued action amount key.2 key.1)).enter
      (.issued b.name key.1 key.2 amount now)).resources = env.resources := steady.resources
  rw [demand]
  dsimp only
  rw [hresources]
  cases hissue : env.resources.issue now id key.1 key.2 amount with
  | error e => exact absurd hissue (Resources.issue_valid valid found e)
  | ok issued =>
    obtain ⟨load, granted, resources⟩ := issued
    cases granted with
    | true => exact ⟨_, rfl, .granted ha hissue steady.completions hb role hweight⟩
    | false => exact ⟨_, rfl, .queued ha hissue steady.completions hb role hweight⟩

lemma idle_weight {action : Action} (idle : action.IsIdle) : action.weight = 2 := by
  rw [Action.weight]
  rcases idle with hkind | hkind <;> rw [hkind]

/-- An action that does nothing is entered, and is finished in the next turn. -/
lemma idle_turn {action : Action} (idle : action.IsIdle) (name : String) (role : Role)
    (behavior : Behavior) (depth : Nat) (rest : List Action) (tasks : List Task)
    (stack : VariableStack) (contexts : List ContextId) (result : Frame) :
    Activity.turn d now id env
        ⟨name, role, .walk behavior depth (action :: rest) :: tasks, stack, contexts, result⟩ =
      ⟨env.note (.actionEntered action), [], [], .proceed
        ⟨name, role, .finish action :: .walk behavior depth rest :: tasks, stack, contexts,
          result⟩⟩ := by
  rcases idle with hkind | hkind <;>
    simp only [Activity.turn, advance, performTask, walkOn, perform, hkind, goOn, before]

/-- An errand that comes to its demand issues it. -/
lemma stride_load (ha : a.Outbound d key amount spec) (valid : IsValidAmount amount)
    {r : ActiveResource} (found : env.resources.find key.1 key.2 = .ok r) {f : Frame}
    (hframes : a.stack.frames = [f]) (hamounts : demand.AmountsTo amount f)
    (hresource : demand.resource = key.2) {action : Action} {tasks : List Task}
    (htasks : a.tasks = .load action key.1 [demand] :: tasks)
    (hclosing : ∀ t ∈ tasks, t.IsClosing) :
    Stride d key amount spec now id env a (a.turn d now id env) := by
  obtain ⟨name, role, tasks', stack, contexts, result⟩ := a
  dsimp only at hframes htasks
  subst htasks
  let b : Activity := ⟨name, role, .load action key.1 [] :: tasks, stack, contexts, result⟩
  have hb : b.Homebound := by
    refine ⟨?_, fun t ht => ?_⟩
    · rw [VariableStack.depth, hframes]
      rfl
    · rcases List.mem_cons.mp ht with rfl | ht
      · exact rfl
      · exact hclosing t ht
  have hweight : b.weight + 2 <
      weight ⟨name, role, .load action key.1 [demand] :: tasks, stack, contexts, result⟩ := by
    simp only [weight, b, List.map_cons, List.sum_cons, Task.weight, List.length_singleton,
      List.length_nil]
    omega
  have hcurrent : stack.current = .ok f := by rw [VariableStack.current, hframes]
  simp only [turn, advance, performTask, issueNext, hcurrent]
  cases hsample : env.sample (demand.specification.evaluateDouble f.scope) with
  | mk value env' =>
    have hvalue : value = .ok amount :=
      (Environment.sample_result hsample).symm.trans (hamounts env.source)
    obtain ⟨turn, hdemand, hstride⟩ := demand_stride ha valid found
      (Environment.sample_steady hsample) hb rfl hweight action
    rw [hvalue, hresource]
    dsimp only
    rw [show before (.load action key.1 []) ⟨name, role, tasks, stack, contexts, result⟩ = b from rfl,
      hdemand]
    exact hstride

lemma Approaches.stride (h : a.Approaches d key amount demand) (valid : IsValidAmount amount)
    {r : ActiveResource} (found : env.resources.find key.1 key.2 = .ok r) :
    Stride d key amount spec now id env a (a.turn d now id env) := by
  have ha : a.Outbound d key amount spec := .inr ⟨demand, h⟩
  obtain ⟨name, role, tasks, stack, contexts, result⟩ := a
  obtain ⟨⟨f, hframes, hamounts⟩, ⟨entry, hcontexts, hcontainer⟩, hresource, htasks⟩ := h
  dsimp only at hframes hcontexts htasks
  -- An activity that differs in its tasks and its result frame alone is on the way as well.
  have hgoes : ∀ tasks' result', Task.Leads key.1 demand tasks' →
      Outbound d key amount spec ⟨name, role, tasks', stack, contexts, result'⟩ :=
    fun tasks' result' htasks' => .inr ⟨demand, ⟨f, hframes, hamounts⟩,
      ⟨entry, hcontexts, hcontainer⟩, hresource, htasks'⟩
  cases htasks with
  | @invoke behavior sole =>
    refine .approaches ha ((Environment.Steady.refl env).newFrame.note _)
      (hgoes [.walk behavior stack.depth behavior.chain] env.newFrame.1 ?_) rfl ?_
    · have hdepth : stack.depth = 1 := by rw [VariableStack.depth, hframes]; rfl
      rw [hdepth]
      exact .walk sole
    · simp only [weight, walking, before, List.map_cons, List.map_nil, List.sum_cons, List.sum_nil,
        Task.weight]
      omega
  | @walk behavior actions sole =>
    cases sole with
    | @idle action rest hidle sole =>
      have hleads : Task.Leads key.1 demand [.finish action, .walk behavior 1 rest] :=
        .finish (.walk sole)
      rw [idle_turn hidle]
      refine .approaches ha ((Environment.Steady.refl env).note _) (hgoes _ _ hleads) rfl ?_
      simp only [weight, List.map_cons, List.map_nil, List.sum_cons, List.sum_nil, Task.weight,
        idle_weight hidle]
      omega
    | @issue action rest hkind hidle =>
      have hleads : Task.Leads key.1 demand
          [.load action key.1 [demand], .finish action, .walk behavior 1 rest] := by
        refine .load fun t ht => ?_
        rcases List.mem_cons.mp ht with rfl | ht
        · exact trivial
        · rw [List.mem_singleton.mp ht]
          exact ⟨rfl, hidle⟩
      have hweight : action.weight = 6 := by rw [Action.weight, hkind]; rfl
      have hturn : turn d now id env
          ⟨name, role, [.walk behavior 1 (action :: rest)], stack, contexts, result⟩ =
            ⟨env.note (.actionEntered action), [], [], .proceed ⟨name, role,
              [.load action key.1 [demand], .finish action, .walk behavior 1 rest], stack,
                contexts, result⟩⟩ := by
        simp only [turn, advance, performTask, walkOn, perform, hkind, beginInternal, container,
          Activity.context, before, hcontexts, hcontainer, Except.mapError, goOn]
      rw [hturn]
      refine .approaches ha ((Environment.Steady.refl env).note _) (hgoes _ _ hleads) rfl ?_
      simp only [weight, List.map_cons, List.map_nil, List.sum_cons, List.sum_nil, Task.weight,
        hweight, List.length_singleton]
      omega
  | @finish action tasks htasks =>
    refine .approaches ha ((Environment.Steady.refl env).note _) (hgoes tasks result htasks) rfl ?_
    simp only [weight, List.map_cons, List.sum_cons, Task.weight]
    omega
  | load hclosing => exact stride_load ha valid found hframes hamounts hresource rfl hclosing

lemma Homebound.stride (h : a.Homebound) {number : Nat} (role : a.role = .request number) :
    Stride d key amount spec now id env a (a.turn d now id env) := by
  have ha := h
  obtain ⟨name, role', tasks, stack, contexts, result⟩ := a
  obtain ⟨hdepth, hclosing⟩ := h
  dsimp only at hdepth hclosing role
  subst role
  cases tasks with
  | nil => exact .reports ha rfl rfl rfl
  | cons task rest =>
    have hrest : ∀ tasks', (∀ t ∈ tasks', t.IsClosing) →
        Homebound ⟨name, .request number, tasks', stack, contexts, result⟩ :=
      fun tasks' htasks' => ⟨hdepth, htasks'⟩
    have htail : ∀ t ∈ rest, t.IsClosing := fun t ht => hclosing t (List.mem_cons_of_mem _ ht)
    have htask := hclosing task List.mem_cons_self
    cases task with
    | finish action =>
      refine .returns ha ((Environment.Steady.refl env).note _) (hrest rest htail) rfl ?_
      simp only [weight, List.map_cons, List.sum_cons, Task.weight]
      omega
    | load action container demands =>
      have hnone : demands = [] := htask
      subst hnone
      refine .returns ha (.refl env) (hrest rest htail) rfl ?_
      simp only [weight, List.map_cons, List.sum_cons, Task.weight]
      omega
    | walk behavior depth actions =>
      obtain ⟨rfl, hidle⟩ := htask
      cases actions with
      | nil =>
        simp only [turn, advance, performTask, walkOn, hdepth, if_true]
        refine .returns ha (.refl env) (hrest rest htail) rfl ?_
        simp only [weight, List.map_cons, List.sum_cons, Task.weight]
        omega
      | cons action actions =>
        have haction := hidle action List.mem_cons_self
        rw [idle_turn haction]
        refine .returns ha ((Environment.Steady.refl env).note _) (hrest _ ?_) rfl ?_
        · intro t ht
          rcases List.mem_cons.mp ht with rfl | ht
          · exact trivial
          rcases List.mem_cons.mp ht with rfl | ht
          · exact ⟨rfl, fun x hx => hidle x (List.mem_cons_of_mem _ hx)⟩
          · exact htail t ht
        · simp only [weight, List.map_cons, List.sum_cons, Task.weight, idle_weight haction]
          omega
    | _ => cases htask

end Activity

end ServiceSim
