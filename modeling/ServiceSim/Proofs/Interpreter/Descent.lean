import Mathlib.Data.Multiset.DershowitzManna
import Mathlib.Data.Prod.Lex
import ServiceSim.Proofs.Interpreter.Calls
import ServiceSim.Proofs.Interpreter.Effects
import ServiceSim.Proofs.Kernel.Runs
import ServiceSim.Proofs.Model.CallGraph

/-!
# Every turn leaves lighter tasks

A task has a burden: how far the behavior that it leads into can lead, in which stage of being
interpreted this behavior is, and what remains of that stage.  Where the call graph has no cycle,
each turn replaces a task by finitely many tasks with smaller burdens, some of them perhaps in
processes that it forks (`turn_lowers`).  A loop may have any number of iterations, which is only
known when the loop begins: it is lighter than the walk along the behavior that holds it, and
heavier than a loop with fewer iterations that remain.

Only a process that waits to join others makes no such progress, but then it is blocked.
-/

namespace ServiceSim

/-! ## Burdens -/

/-- How much can still come of a task. -/
abbrev Burden := Ordinal.{0} ×ₗ ℕ ×ₗ ℕ

/-- The burden of a stage of what can lead so far, with a count of what remains of it. -/
def Burden.of (reach : Ordinal.{0}) (stage count : Nat) : Burden :=
  toLex (reach, toLex (stage, count))

namespace Burden

variable {reach reach' : Ordinal.{0}} {stage stage' count count' : Nat}

lemma of_lt_of_reach (h : reach < reach') : of reach stage count < of reach' stage' count' :=
  Prod.Lex.toLex_lt_toLex.mpr (.inl h)

lemma of_lt_of_stage (h : stage < stage') : of reach stage count < of reach stage' count' :=
  Prod.Lex.toLex_lt_toLex.mpr (.inr ⟨rfl, Prod.Lex.toLex_lt_toLex.mpr (.inl h)⟩)

lemma of_lt_of_count (h : count < count') : of reach stage count < of reach stage count' :=
  Prod.Lex.toLex_lt_toLex.mpr (.inr ⟨rfl, Prod.Lex.toLex_lt_toLex.mpr (.inr ⟨rfl, h⟩)⟩)

/-- The burden of a stage of interpreting a behavior at a place. -/
noncomputable abbrev inside (rank : Place → Ordinal.{0}) (place : Place) (stage count : Nat) :
    Burden :=
  of (Order.succ (rank place)) stage count

variable {rank : Place → Ordinal.{0}} {place place' : Place}

/-- What leads nowhere is lighter than what leads somewhere. -/
lemma of_zero_lt : of 0 stage count < inside rank place stage' count' :=
  of_lt_of_reach (pos_of_gt (Order.lt_succ _))

lemma inside_lt (h : rank place < rank place') :
    inside rank place stage count < inside rank place' stage' count' :=
  of_lt_of_reach (Order.succ_lt_succ h)

end Burden

/-- Finitely many things that are lighter than a burden have been added. -/
def GrowsBelow (κ : Burden) (M N : Multiset Burden) : Prop :=
  ∃ added : Multiset Burden, N = M + added ∧ ∀ x ∈ added, x < κ

namespace GrowsBelow

variable {κ : Burden} {M N P : Multiset Burden}

lemma refl (κ : Burden) (M : Multiset Burden) : GrowsBelow κ M M :=
  ⟨0, (add_zero M).symm, fun _ hx => absurd hx (Multiset.notMem_zero _)⟩

lemma add (h : GrowsBelow κ M N) (lighter : ∀ x ∈ P, x < κ) : GrowsBelow κ M (N + P) := by
  obtain ⟨added, rfl, hadded⟩ := h
  refine ⟨added + P, add_assoc M added P, fun x hx => ?_⟩
  exact (Multiset.mem_add.mp hx).elim (hadded x) (lighter x)

lemma cons {x : Burden} (h : GrowsBelow κ M N) (lighter : x < κ) : GrowsBelow κ M (x ::ₘ N) := by
  rw [← Multiset.singleton_add, add_comm]
  exact h.add fun y hy => Multiset.mem_singleton.mp hy ▸ lighter

/-- Several lots of lighter things may be added. -/
lemma add_sum {α : Type} {l : List α} {f : α → Multiset Burden} (h : GrowsBelow κ M N)
    (lighter : ∀ a ∈ l, ∀ x ∈ f a, x < κ) : GrowsBelow κ M (N + (l.map f).sum) := by
  induction l generalizing N with
  | nil => exact (add_zero N).symm ▸ h
  | cons a l ih =>
    rw [List.forall_mem_cons] at lighter
    rw [List.map_cons, List.sum_cons, ← add_assoc]
    exact ih (h.add lighter.1) lighter.2

/-- What has been replaced by lighter things has become less. -/
lemma lowers (h : GrowsBelow κ M N) : N.IsDershowitzMannaLT (κ ::ₘ M) := by
  obtain ⟨added, rfl, hadded⟩ := h
  refine ⟨M, added, {κ}, Multiset.singleton_ne_zero κ, rfl, ?_, fun x hx => ?_⟩
  · rw [add_comm, Multiset.singleton_add]
  · exact ⟨κ, Multiset.mem_singleton_self κ, hadded x hx⟩

end GrowsBelow

namespace Task

/-- The assembly contexts once a task is done. -/
def leaving (contexts : List ContextId) : Task → List ContextId
  | return_ _ _ _ => contexts.tail
  | _ => contexts

/-- The burden of a task in a context. -/
noncomputable def burden (rank : Place → Ordinal.{0}) (context : Option ContextId) : Task → Burden
  | enterFork b => .inside rank (context, b) 2 0
  | invoke b => .inside rank (context, b) 1 0
  | walk b _ actions => .inside rank (context, b) 0 actions.length
  | iterate _ _ remaining b => .inside rank (context, b) 1 remaining
  | visit _ _ remaining b => .inside rank (context, b) 1 remaining
  | load _ _ demands => .of 0 1 demands.length
  | serve _ => .of 0 0 1
  | _ => .of 0 0 0

end Task

namespace Activity

/-- The burdens of tasks that begin in contexts. -/
noncomputable def burdens (rank : Place → Ordinal.{0}) :
    List Task → List ContextId → Multiset Burden
  | [], _ => 0
  | task :: rest, contexts =>
    task.burden rank contexts.head? ::ₘ burdens rank rest (task.leaving contexts)

/-- The burdens of an activity: those of its tasks, and one for its end. -/
noncomputable def burden (rank : Place → Ordinal.{0}) (a : Activity) : Multiset Burden :=
  Burden.of 0 0 0 ::ₘ burdens rank a.tasks a.contexts

/-- A step is about something with a burden, beside other things: it leaves lighter things for it,
or it ends. -/
def Relieves (rank : Place → Ordinal.{0}) (id : ProcessId) (κ : Burden) (M : Multiset Burden) :
    Progress → Prop
  | .goes turn => GrowsBelow κ M (turn.work (burden rank) id)
  | .ends _ _ => True

variable {d : Deployment} {rank : Place → Ordinal.{0}} {now : SimTime} {id : ProcessId}
  {env : Environment} {a : Activity} {κ : Burden} {M : Multiset Burden}

lemma before_burden {task : Task} (stays : task.leaving a.contexts = a.contexts) :
    (a.before task).burden rank = task.burden rank a.contexts.head? ::ₘ a.burden rank := by
  change Burden.of 0 0 0 ::ₘ _ ::ₘ burdens rank a.tasks (task.leaving a.contexts) = _
  rw [stays, Multiset.cons_swap]
  rfl

/-- What a call adds is the behavior that it reaches, in the context called, and the return. -/
lemma called_burden (site : CallSite) (pushed : FrameId) (result : Frame) (reached : Behavior)
    (stack : VariableStack) (context : ContextId) :
    burden rank { (a.before (.return_ site pushed result)).before (.invoke reached) with
      stack := stack, contexts := context :: a.contexts } =
        .inside rank (some context, reached) 1 0 ::ₘ .of 0 0 0 ::ₘ a.burden rank := by
  rw [burden, Multiset.cons_swap]
  rfl

/-! ## Going on -/

lemma abort_relieves (now : SimTime) (env : Environment) (a : Activity) (e : InterpreterError) :
    Relieves rank id κ M (a.abort now env e) := trivial

section Grows

variable (grows : GrowsBelow κ M (a.burden rank))
include grows

/-- A process that goes on alone leaves what it has to do. -/
lemma goes_relieves {turn : Turn Environment Activity} (goesOn : turn.next.goesOn id = [(id, a)])
    (spawned : turn.spawned = []) : Relieves rank id κ M (.goes turn) := by
  change GrowsBelow κ M (turn.work (burden rank) id)
  rw [Turn.work, goesOn, spawned]
  simpa using grows

lemma goOn_relieves (env : Environment) : Relieves rank id κ M (a.goOn env) :=
  goes_relieves grows rfl rfl

lemma goOnUnless_relieves (now : SimTime) (env : Environment) (failure : Option EvalError) :
    Relieves rank id κ M (a.goOnUnless now env failure) := by
  cases failure with
  | none => exact goOn_relieves grows env
  | some e => exact abort_relieves _ _ _ _

lemma grows_before (task : Task) (stays : task.leaving a.contexts = a.contexts)
    (lighter : task.burden rank a.contexts.head? < κ) :
    GrowsBelow κ M ((a.before task).burden rank) := by
  rw [before_burden stays]
  exact grows.cons lighter

end Grows

/-! ## Demands, iterations and frames -/

section Stages

variable (grows : GrowsBelow κ M (a.burden rank))
include grows

lemma startService_relieves (lighter : Burden.of 0 0 0 < κ) (now : SimTime) (env : Environment)
    (demand : Load) : Relieves rank id κ M (a.startService now env demand) :=
  goes_relieves (a := a.before (.release demand now)) (grows_before grows _ rfl lighter) rfl rfl

lemma demand_relieves (lighter : Burden.of 0 0 1 < κ) (now : SimTime) (env : Environment)
    (action : Action) (container : ContainerId) (resource : String) (amount : Float) :
    Relieves rank id κ M (a.demand now id env action container resource amount) := by
  unfold demand
  dsimp only
  split
  · exact goOn_relieves grows _
  next load granted resources _ =>
    split_ifs
    · have hleast := (Burden.of_lt_of_count Nat.zero_lt_one).trans lighter
      exact startService_relieves grows hleast now _ load
    · exact goes_relieves (a := a.before (.serve load)) (grows_before grows _ rfl lighter) rfl rfl

lemma beginInternal_relieves (lighter : ∀ count, Burden.of 0 1 count < κ) (d : Deployment)
    (now : SimTime) (env : Environment) (action : Action) (demands : List ResourceDemand) :
    Relieves rank id κ M (a.beginInternal d now env action demands) := by
  unfold beginInternal
  split
  · exact abort_relieves _ _ _ _
  · refine goOn_relieves (grows_before grows _ rfl ?_) env
    exact lighter _

lemma setVariable_relieves (now : SimTime) (env : Environment) (usages : List VariableUsage) :
    Relieves rank id κ M (a.setVariable now env usages) := by
  unfold setVariable
  split
  · exact abort_relieves _ _ _ _
  next frame _ =>
    exact goOnUnless_relieves (a := { a with result := (env.bind usages frame a.result).2.1 }) grows
      now _ _

lemma acceptInputs_relieves (now : SimTime) (env : Environment) (inputs : List VariableUsage) :
    Relieves rank id κ M (a.acceptInputs now env inputs) := by
  unfold acceptInputs
  dsimp only
  generalize env.newFrame.2.newFrame.2.bind inputs env.newFrame.1 env.newFrame.2.newFrame.1 = bound
  exact goOnUnless_relieves (a := { a with stack := a.stack.push bound.2.1 }) grows now _ _

lemma leaveFrame_relieves (now : SimTime) (env : Environment) (pushed : FrameId) :
    Relieves rank id κ M (a.leaveFrame now env pushed fun a => a.goOn env) := by
  unfold leaveFrame
  split
  · exact abort_relieves _ _ _ _
  next stack _ => exact goOn_relieves (a := { a with stack := stack }) grows env

end Stages

/-- Fewer demands are left to be issued. -/
lemma issueNext_relieves (now : SimTime) (env : Environment) (action : Action)
    (container : ContainerId) (demands : List ResourceDemand) :
    Relieves rank id (.of 0 1 demands.length) (a.burden rank)
      (a.issueNext now id env action container demands) := by
  cases demands with
  | nil => exact goOn_relieves (.refl _ _) env
  | cons next rest =>
    simp only [issueNext]
    split
    · exact abort_relieves _ _ _ _
    · split
      · exact abort_relieves _ _ _ _
      · refine demand_relieves (a := a.before (.load action container rest)) ?_ ?_ now _ _ _ _ _
        · exact grows_before (.refl _ _) _ rfl (Burden.of_lt_of_count (Nat.lt_succ_self _))
        · exact Burden.of_lt_of_stage Nat.zero_lt_one

/-- The behavior entered is lighter than what has led to the point where it is entered. -/
lemma enterBehavior_relieves (env : Environment) (b : Behavior) :
    Relieves rank id (.inside rank (a.contexts.head?, b) 1 0) (a.burden rank)
      (a.enterBehavior env b) := by
  refine goOn_relieves (a := ({ a with result := _ } : Activity).walking b) ?_ _
  exact grows_before (a := { a with result := _ }) (.refl _ _) _ rfl
    (Burden.of_lt_of_stage Nat.zero_lt_one)

/-- Fewer iterations of a loop remain. -/
lemma nextIteration_relieves (env : Environment) (action : Action) (iteration : Nat)
    (body : Behavior) (remaining : Nat) :
    Relieves rank id (.inside rank (a.contexts.head?, body) 1 remaining) (a.burden rank)
      (a.nextIteration env action iteration body remaining) := by
  cases remaining with
  | zero => exact goOn_relieves (.refl _ _) env
  | succ remaining =>
    refine goOn_relieves (grows_before (grows_before (.refl _ _) _ rfl ?_) _ rfl ?_) _
    · exact Burden.of_lt_of_count (Nat.lt_succ_self remaining)
    · exact Burden.of_lt_of_stage Nat.zero_lt_one

/-- Fewer elements of a collection remain. -/
lemma nextElement_relieves (now : SimTime) (env : Environment) (action : Action)
    (parameter : String) (body : Behavior) (remaining : Nat) :
    Relieves rank id (.inside rank (a.contexts.head?, body) 1 remaining) (a.burden rank)
      (a.nextElement now env action parameter body remaining) := by
  cases remaining with
  | zero => exact goOn_relieves (.refl _ _) env
  | succ remaining =>
    simp only [nextElement]
    split
    · exact abort_relieves _ _ _ _
    · split
      · exact abort_relieves _ _ _ _
      next element _ _ =>
        have hvisit : GrowsBelow
            (.inside rank (a.contexts.head?, body) 1 (remaining + 1)) (a.burden rank)
            ((a.before (.visit action parameter remaining body)).burden rank) :=
          grows_before (.refl _ _) _ rfl (Burden.of_lt_of_count (Nat.lt_succ_self remaining))
        have hleave := grows_before hvisit (.leave element.identity) rfl Burden.of_zero_lt
        refine goOn_relieves (grows_before (a := { (a.before (.visit action parameter remaining
          body)).before (.leave element.identity) with stack := a.stack.push element }) hleave _
          rfl ?_) _
        exact Burden.of_lt_of_stage Nat.zero_lt_one

/-- The contexts are those of the caller again. -/
lemma finishCall_relieves (d : Deployment) (now : SimTime) (env : Environment) (site : CallSite)
    (pushed : FrameId) (result : Frame) :
    Relieves rank id κ (Burden.of 0 0 0 ::ₘ burdens rank a.tasks a.contexts.tail)
      (a.finishCall d now id env site pushed result) := by
  unfold finishCall
  split
  · exact abort_relieves _ _ _ _
  next context contexts hcontexts =>
    rw [hcontexts]
    unfold leaveFrame
    split
    · exact abort_relieves _ _ _ _
    · dsimp only
      split
      · exact abort_relieves _ _ _ _
      next frame _ =>
        split
        · exact abort_relieves _ _ _ _
        · exact abort_relieves _ _ _ _
        · exact goOn_relieves (a := { a with contexts := contexts, result := result, stack := _ })
            (.refl _ _) _

/-! ## Actions -/

section Actions

-- The walk along a behavior does an action of it, and what it leads into ranks lower.
variable (ranked : d.IsRanked rank) {b : Behavior} {action : Action} (hmem : action ∈ b.actions)
  {count : Nat}
  (grows : GrowsBelow (.inside rank (a.contexts.head?, b) 0 count) M (a.burden rank))
include ranked hmem

omit M grows in
/-- Whatever an action holds is lighter than the walk that does it. -/
lemma body_lighter {inner : Behavior} (hinner : inner ∈ action.kind.bodies)
    (context : Option ContextId) (stage stage' n m : Nat) :
    Burden.inside rank (context, inner) stage n < .inside rank (context, b) stage' m :=
  Burden.inside_lt (ranked _ _ (.body hmem hinner))

include grows

lemma branch_relieves {transitions : List BranchTransition}
    (hkind : action.kind = .branch transitions) (now : SimTime) (env : Environment) :
    Relieves rank id (.inside rank (a.contexts.head?, b) 0 count) M
      (a.branch now env action transitions) := by
  unfold branch
  split
  · exact abort_relieves _ _ _ _
  · dsimp only
    split
    · exact abort_relieves _ _ _ _
    · exact abort_relieves _ _ _ _
    · exact goOn_relieves grows _
    next chosen _ hsample =>
      obtain ⟨t, ht, hchosen⟩ := Transition.choose_mem (Environment.sample_result hsample)
      obtain ⟨u, hu, rfl⟩ := List.mem_map.mp ht
      have hinner : chosen ∈ action.kind.bodies := by
        rw [hkind, ← hchosen]
        exact List.mem_map_of_mem hu
      refine goOn_relieves (grows_before grows _ rfl ?_) _
      exact body_lighter ranked hmem hinner _ _ _ _ _

lemma beginLoop_relieves {iterations : Specification} {body : Behavior}
    (hkind : action.kind = .loop iterations body) (now : SimTime) (env : Environment) :
    Relieves rank id (.inside rank (a.contexts.head?, b) 0 count) M
      (a.beginLoop now env action iterations body) := by
  have hinner : body ∈ action.kind.bodies := by
    rw [hkind]
    exact List.mem_singleton_self body
  unfold beginLoop
  split
  · exact abort_relieves _ _ _ _
  · refine goOn_relieves (grows_before grows _ rfl ?_) _
    exact body_lighter ranked hmem hinner _ _ _ _ _

lemma beginIterator_relieves {parameter : String} {body : Behavior}
    (hkind : action.kind = .collectionIterator parameter body) (now : SimTime) (env : Environment) :
    Relieves rank id (.inside rank (a.contexts.head?, b) 0 count) M
      (a.beginIterator now env action parameter body) := by
  have hinner : body ∈ action.kind.bodies := by
    rw [hkind]
    exact List.mem_singleton_self body
  unfold beginIterator
  dsimp only
  split
  · exact abort_relieves _ _ _ _
  · refine goOn_relieves (grows_before grows _ rfl ?_) _
    exact body_lighter ranked hmem hinner _ _ _ _ _

/-- The processes forked, all of them together, are lighter than the walk. -/
lemma fork_relieves {asynchronous synchronous : List Behavior}
    (hkind : action.kind = .fork asynchronous synchronous) (env : Environment) :
    Relieves rank id (.inside rank (a.contexts.head?, b) 0 count) M
      (a.fork id env action asynchronous synchronous) := by
  have hchildren : ∀ child ∈ a.children id asynchronous synchronous, ∀ x ∈ child.burden rank,
      x < .inside rank (a.contexts.head?, b) 0 count := by
    have hforked : ∀ inner ∈ asynchronous ++ synchronous, ∀ label role,
        ∀ x ∈ (a.forked label role inner).burden rank,
          x < .inside rank (a.contexts.head?, b) 0 count := by
      intro inner hin label role x hx
      have hinner : inner ∈ action.kind.bodies := by
        rw [hkind]
        exact hin
      rcases Multiset.mem_cons.mp hx with rfl | hx
      · exact Burden.of_zero_lt
      · rw [Multiset.mem_singleton.mp hx]
        exact body_lighter ranked hmem hinner _ _ _ _ _
    intro child hchild
    rcases List.mem_append.mp hchild with hchild | hchild
    all_goals
      rw [List.mem_mapIdx] at hchild
      obtain ⟨i, hi, rfl⟩ := hchild
    · exact hforked _ (List.mem_append_left _ (List.getElem_mem hi)) _ _
    · exact hforked _ (List.mem_append_right _ (List.getElem_mem hi)) _ _
  have hself : GrowsBelow (.inside rank (a.contexts.head?, b) 0 count) M
      ((a.before .join).burden rank) := grows_before grows _ rfl Burden.of_zero_lt
  change GrowsBelow _ M (Turn.work (burden rank) id _)
  rw [Turn.work]
  simp only [Next.goesOn, List.map_cons, List.map_nil, List.sum_cons, List.sum_nil, add_zero]
  exact hself.add_sum hchildren

/-- What a call reaches is lighter than the walk that calls. -/
lemma beginCall_relieves {call : ExternalCall} (hkind : action.kind = .externalCall call)
    (now : SimTime) (env : Environment) :
    Relieves rank id (.inside rank (a.contexts.head?, b) 0 count) M
      (a.beginCall d now id env action call) := by
  unfold beginCall
  split
  · exact abort_relieves _ _ _ _
  next site context reached hcallee =>
    obtain ⟨caller, outer, hcontexts, -, -, hresolved⟩ := callee_ok hcallee
    have hreached : rank (some context, reached) < rank (a.contexts.head?, b) := by
      rw [hcontexts]
      exact ranked _ _ (.call hmem hkind hresolved)
    unfold enterCallee
    split
    · exact abort_relieves _ _ _ _
    · dsimp only
      split
      · exact abort_relieves _ _ _ _
      next input env' _ =>
        refine goOn_relieves (a := { (a.before (.return_ site input.identity a.result)).before
          (.invoke reached) with
            stack := a.stack.push input, contexts := context :: a.contexts }) ?_ _
        rw [called_burden]
        exact (grows.cons Burden.of_zero_lt).cons (Burden.inside_lt hreached)

/-- **Every action of a behavior leaves lighter tasks** than the walk that does it. -/
lemma perform_relieves (now : SimTime) (env : Environment) :
    Relieves rank id (.inside rank (a.contexts.head?, b) 0 count) M
      (a.perform d now id env action) := by
  unfold perform
  cases hkind : action.kind with
  | start => exact goOn_relieves grows env
  | stop => exact goOn_relieves grows env
  | internal demands =>
    exact beginInternal_relieves grows (fun _ => Burden.of_zero_lt) d now env action demands
  | externalCall call => exact beginCall_relieves ranked hmem grows hkind now env
  | branch transitions => exact branch_relieves ranked hmem grows hkind now env
  | loop iterations body => exact beginLoop_relieves ranked hmem grows hkind now env
  | collectionIterator parameter body =>
    exact beginIterator_relieves ranked hmem grows hkind now env
  | setVariable usages => exact setVariable_relieves grows now env usages
  | fork asynchronous synchronous => exact fork_relieves ranked hmem grows hkind env

end Actions

/-! ## Turns -/

/-- A process joins those that it has forked, or it is blocked and still has to join them. -/
lemma joinForked_relieves (now : SimTime) (id : ProcessId) (env : Environment) :
    Relieves rank id κ (a.burden rank) (a.joinForked now id env) ∨
      ∃ env', a.joinForked now id env = .goes ⟨env', [], [], .block (a.before .join)⟩ := by
  unfold joinForked
  dsimp only
  split_ifs
  · left
    split
    · exact abort_relieves _ _ _ _
    · exact goOn_relieves (.refl _ _) _
  · exact .inr ⟨_, rfl⟩

/-- **Every task but joining others is replaced by lighter tasks.** -/
lemma performTask_relieves (ranked : d.IsRanked rank) {task : Task}
    (placed : Placed d (task :: a.tasks) a.contexts) (join : task ≠ .join) (now : SimTime)
    (env : Environment) :
    Relieves rank id (task.burden rank a.contexts.head?)
      (Burden.of 0 0 0 ::ₘ burdens rank a.tasks (task.leaving a.contexts))
      (a.performTask d now id env task) := by
  have hself : GrowsBelow (task.burden rank a.contexts.head?) (a.burden rank) (a.burden rank) :=
    .refl _ _
  cases task with
  | arrive time => exact goes_relieves hself rfl rfl
  | accept inputs => exact acceptInputs_relieves hself now env inputs
  | enterFork b =>
    refine goOn_relieves (grows_before hself _ rfl ?_) _
    exact Burden.of_lt_of_stage Nat.one_lt_two
  | invoke b => exact enterBehavior_relieves env b
  | walk b depth actions =>
    cases actions with
    | nil =>
      simp only [performTask, walkOn]
      split_ifs
      · exact goOn_relieves hself env
      · exact abort_relieves _ _ _ _
    | cons action rest =>
      have hmem : action ∈ b.actions := placed.2.1 List.mem_cons_self
      have hwalk := grows_before hself (.walk b depth rest) rfl
        (Burden.of_lt_of_count (Nat.lt_succ_self _))
      have hfinish := grows_before hwalk (.finish action) rfl Burden.of_zero_lt
      exact perform_relieves ranked hmem hfinish now _
  | finish action => exact goOn_relieves hself _
  | load action container demands => exact issueNext_relieves now env action container demands
  | serve demand =>
    exact startService_relieves hself (Burden.of_lt_of_count Nat.zero_lt_one) now env demand
  | release demand started => exact goes_relieves hself rfl rfl
  | iterate action iteration remaining body =>
    exact nextIteration_relieves env action iteration body remaining
  | visit action parameter remaining body =>
    exact nextElement_relieves now env action parameter body remaining
  | leave element => exact leaveFrame_relieves hself now env element
  | return_ site pushed result => exact finishCall_relieves d now env site pushed result
  | join => exact absurd rfl join

/-- **Every turn leaves less to do**, unless the process waits to join others and is blocked. -/
theorem turn_lowers (ranked : d.IsRanked rank) (placed : a.IsPlaced d) (now : SimTime)
    (id : ProcessId) (env : Environment) :
    ((a.turn d now id env).work (burden rank) id).IsDershowitzMannaLT (a.burden rank) ∨
      ∃ env', a.turn d now id env = ⟨env', [], [], .block a⟩ := by
  unfold turn
  cases hprogress : a.advance d now id env with
  | ends env' c =>
    have hnothing : (a.report env' c).work (burden rank) id = 0 := by
      rw [Turn.work, report_ends.1, report_ends.2]
      rfl
    left
    rw [hnothing]
    exact ⟨0, 0, a.burden rank, Multiset.cons_ne_zero, rfl, (zero_add _).symm, by simp⟩
  | goes turn =>
    cases htasks : a.tasks with
    | nil =>
      rw [advance, htasks] at hprogress
      cases hprogress
    | cons task rest =>
      have hburden : a.burden rank = task.burden rank a.contexts.head? ::ₘ Burden.of 0 0 0 ::ₘ
          burdens rank rest (task.leaving a.contexts) := by
        rw [burden, htasks]
        exact Multiset.cons_swap _ _ _
      rw [advance, htasks] at hprogress
      change ({ a with tasks := rest } : Activity).performTask d now id env task = _ at hprogress
      rw [IsPlaced, htasks] at placed
      by_cases hjoin : task = .join
      · subst hjoin
        change ({ a with tasks := rest } : Activity).joinForked now id env = _ at hprogress
        obtain hrelieves | ⟨env', h⟩ : Relieves rank id (.of 0 0 0) _ _ ∨ _ :=
          joinForked_relieves (a := { a with tasks := rest }) now id env
        · rw [hprogress] at hrelieves
          exact .inl (hburden ▸ hrelieves.lowers)
        · right
          obtain ⟨name, role, tasks, stack, contexts, result⟩ := a
          subst htasks
          exact ⟨env', (Progress.goes.inj (hprogress.symm.trans h))⟩
      · have hrelieves : Relieves rank id _ _ _ :=
          performTask_relieves (a := { a with tasks := rest }) ranked placed hjoin now env
        rw [hprogress] at hrelieves
        exact .inl (hburden ▸ hrelieves.lowers)

/-! ## Runs -/

/-- Whoever goes on or is forked is placed. -/
lemma turn_placed (placed : a.IsPlaced d) (now : SimTime) (id : ProcessId) (env : Environment) :
    (∀ p ∈ (a.turn d now id env).next.goesOn id, p.2.IsPlaced d) ∧
      ∀ b ∈ (a.turn d now id env).spawned, b.IsPlaced d := by
  have heffect : CallEffect d now id env a (a.advance d now id env) := advance_calls placed
  unfold turn
  generalize a.advance d now id env = progress at heffect
  cases heffect with
  | calm _ calm =>
    cases progress with
    | ends env' c => simp [report_ends.1, report_ends.2, Next.goesOn]
    | goes turn => exact ⟨fun p hp => (calm.2.1 p hp).2, fun b hb => (calm.2.2 b hb).2⟩
  | begins _ _ _ _ hplaced _ => exact ⟨by simpa [Next.goesOn] using hplaced, by simp⟩
  | fails _ _ _ => simp [report_ends.1, report_ends.2, Next.goesOn]
  | returns _ _ _ hplaced _ => exact ⟨by simpa [Next.goesOn] using hplaced, by simp⟩

end Activity

/-- More beside it does not change that something has become less. -/
lemma isDershowitzMannaLT_add_right {M N : Multiset Burden} (h : M.IsDershowitzMannaLT N)
    (P : Multiset Burden) : (M + P).IsDershowitzMannaLT (N + P) := by
  obtain ⟨X, Y, Z, hne, rfl, rfl, hless⟩ := h
  exact ⟨X + P, Y, Z, hne, add_right_comm X Y P, add_right_comm X Z P, hless⟩

namespace Kernel

variable {d : Deployment} {k k' : Kernel Environment Activity} {id : ProcessId} {a : Activity}

/-- A kernel in order, whose processes lead into behaviors of the contexts they work in. -/
structure Situated (d : Deployment) (k : Kernel Environment Activity) : Prop where
  order : k.Orderly
  placed : ∀ p ∈ k.processes, p.2.IsPlaced d

lemma initial_situated (d : Deployment) (env : Environment) : (Kernel.initial env).Situated d :=
  ⟨initial_orderly env, by simp [Kernel.initial, processes, agenda, others, appointed]⟩

lemma spawn_situated (h : k.Situated d) (placed : a.IsPlaced d) : (k.spawn a).Situated d := by
  refine ⟨spawn_orderly a h.order, fun p hp => ?_⟩
  rcases List.mem_cons.mp ((spawn_processes a k).mem_iff.mp hp) with rfl | hp
  · exact placed
  · exact h.placed p hp

lemma mapWorld_situated (h : k.Situated d) (f : Environment → Environment) :
    (k.mapWorld f).Situated d :=
  ⟨mapWorld_orderly f h.order, h.placed⟩

lemma Quiet.situated (h : k.Situated d) (quiet : Quiet (Activity.program d) k k') :
    k'.Situated d := by
  refine ⟨quiet.orderly h.order, ?_⟩
  rw [quiet.processes]
  exact h.placed

lemma step_situated {stop : Option SimTime} (h : k.Situated d)
    (hstep : k.step (Activity.program d) stop = .goes k') : k'.Situated d := by
  rcases step_cases h.order hstep with quiet | ⟨id, a, runs, turned⟩
  · exact quiet.situated h
  · obtain ⟨hgoes, hspawned⟩ :=
      Activity.turn_placed (h.placed _ (running_mem runs)) k.now id k.world
    refine ⟨step_orderly h.order hstep, fun p hp => ?_⟩
    rcases List.mem_append.mp (turned.processes.mem_iff.mp hp) with hp | hp
    · rcases List.mem_append.mp hp with hp | hp
      · exact hgoes p hp
      · exact hspawned p.2 (mem_newborn hp).2.2
    · exact h.placed p (mem_processes_of_bystanders runs hp)

/-- A process that is blocked, and wakes and spawns nobody, leaves the agenda. -/
lemma Turned.agenda_blocked {env : Environment} {b : Activity} (runs : k.running = some (id, a))
    (turned : Turned k k' id ⟨env, [], [], .block b⟩) : k'.agenda.length < k.agenda.length := by
  rw [turned.agenda.length_eq, agenda_running runs, List.length_cons]
  simp [Next.appointments, appointed, newborn]

/-- **Runs return where the call graph has no cycle.** -/
theorem run_returns_of_acyclic (acyclic : d.Acyclic) (h : k.Situated d) (stop : Option SimTime) :
    ∃ fuel k', k.run (Activity.program d) stop fuel = some k' := by
  let burden := Activity.burden acyclic.rank
  have hwf : WellFounded (Prod.Lex (Multiset.IsDershowitzMannaLT : Multiset Burden → _ → Prop)
      (· < · : Nat → Nat → Prop)) :=
    WellFounded.prod_lex Multiset.wellFounded_isDershowitzMannaLT wellFounded_lt
  refine run_returns_of_wellFounded hwf (fun k => (k.work burden, k.agenda.length))
    (P := Situated d) (fun _ h => h.order) (fun _ _ h hstep => step_situated h hstep)
    (fun k k' _ quiet => by rw [quiet.work, quiet.agenda]) ?_ h
  intro k k' id a h runs turned
  change Turned k k' id (a.turn d k.now id k.world) at turned
  have hplaced := h.placed _ (running_mem runs)
  rcases Activity.turn_lowers acyclic.isRanked hplaced k.now id k.world with
    hlowers | ⟨env, hblocks⟩
  · refine .left _ _ ?_
    rw [turned.work, work_eq _ runs]
    exact isDershowitzMannaLT_add_right hlowers _
  · rw [hblocks] at turned
    have hsame : k'.work burden = k.work burden := by
      rw [turned.work, work_eq _ runs]
      simp [Turn.work, Next.goesOn]
    rw [hsame]
    exact .right _ (turned.agenda_blocked runs)

end Kernel

end ServiceSim
