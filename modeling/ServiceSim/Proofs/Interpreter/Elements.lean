import ServiceSim.Proofs.Evaluation.Resolution
import ServiceSim.Interpreter.Step

/-!
# The elements of a collection

A collection iterator asks how many elements there are, and then turns to one element after another:
it makes a frame for the element, in which the late bindings of the collection are sampled, and
walks along its body in this frame.  Here are the steps that do so, and what the name of the size is
read as in the frame of an element.

This name lies below the name of the collection too.  If it is bound late, it is therefore sampled
again for each element (`resolveInner_settles`), and only if reading it draws nothing is the sample
sure to be the size that the iterator has asked for (`Iteration.ShowsSize`).
-/

namespace ServiceSim

open Activity

/-! ## Iterators -/

/-- A collection iterator that an activity is about to perform. -/
structure Iteration where
  /-- The action. -/
  action : Action
  /-- The name of the collection. -/
  parameter : String
  /-- What is walked along for each element. -/
  body : Behavior
  /-- What is to be done after the last element. -/
  following : List Task

namespace Iteration

/-- What the names of the characterisations of the elements begin with. -/
def stem (x : Iteration) : String := x.parameter ++ "."

/-- The name of the number of elements. -/
def sizeName (x : Iteration) : String := x.stem ++ CharacterisationKind.numberOfElements.name

/-- The number of elements. -/
def size (x : Iteration) : Specification := .variable_ x.sizeName

/-- What is to be done when a number of elements remains. -/
def visiting (x : Iteration) (remaining : Nat) : List Task :=
  .visit x.action x.parameter remaining x.body :: x.following

lemma sizeName_startsWith (x : Iteration) : x.sizeName.startsWith x.stem = true := by
  rw [String.startsWith_string_iff, sizeName, String.toList_append]
  exact List.prefix_append _ _

/-- Inside a walk there is more to do than between two. -/
lemma length_inside (x : Iteration) {element : FrameId} {remaining : Nat} {tasks : List Task}
    (h : (Task.leave element :: x.visiting remaining) <:+ tasks) :
    x.following.length + 2 ≤ tasks.length := h.length_le

lemma visiting_ne_following (x : Iteration) (remaining : Nat) : x.visiting remaining ≠ x.following :=
  List.cons_ne_self _ _

end Iteration

/-- The current frame is on top. -/
lemma VariableStack.frames_of_current {s : VariableStack} {f : Frame} (h : s.current = .ok f) :
    ∃ below, s.frames = f :: below := by
  rw [VariableStack.current] at h
  split at h
  next => cases h
  next f' rest hframes =>
    cases h
    exact ⟨rest, hframes⟩

/-- The collection iterator with which an activity begins. -/
def Activity.iteration? (a : Activity) : Option Iteration :=
  match a.tasks with
  | .walk behavior depth (action :: actions) :: tasks =>
    match action.kind with
    | .collectionIterator parameter body =>
      some ⟨action, parameter, body, .finish action :: .walk behavior depth actions :: tasks⟩
    | _ => none
  | _ => none

/-- The walk along the body of an iterator for one element. -/
structure ElementWalk where
  /-- The random source when the element comes. -/
  source : Source
  /-- The process when the walk begins. -/
  start : Activity

/-! ## What an element shows of the size -/

/-- A value of any type is taken as it is. -/
lemma Specification.evaluate_any (specification : Specification) (scope : Scope) (s : Source) :
    specification.evaluate scope .any s = specification.tree.evaluate scope s := by
  rw [Specification.evaluate, bind_run]
  cases specification.tree.evaluate scope s with
  | mk result s' => cases result <;> rfl

namespace Iteration

variable {x : Iteration} {f element : Frame} {s₀ : Source} {count : Int64}
  {samples : List (String × Value)}

/-- What the body reads as the size of the collection, which has been asked for in a frame. -/
structure ShowsSize (x : Iteration) (f : Frame) (count : Int64) (samples : List (String × Value))
    (element : Frame) : Prop where
  /-- It reads one value every time, and draws nothing. -/
  steady : ∃ value, element.Reads x.sizeName value
  /-- It reads the size that was asked for, if reading the binding draws nothing. -/
  same : ∀ binding, f.get? x.sizeName = some binding → DrawsNothing binding.read →
    ∀ s, x.size.evaluateInteger element.scope s = (.ok count, s)
  /-- If the binding is late, it reads the sample that has been drawn for the element. -/
  sampled : ∀ specification origin, f.get? x.sizeName = some (.late specification origin) →
    ∃ value, (x.sizeName, value) ∈ samples ∧ element.Reads x.sizeName value

/-- Asking for the size reads the binding, and converts what has been read. -/
lemma size_run {value : Value} {s s' : Source} (h : x.size.tree.evaluate f.scope s = (.ok value, s')) :
    x.size.evaluateInteger f.scope s = (x.size.convert .integer Value.toInteger? value, s') := by
  rw [Specification.evaluateInteger, bind_run, h]
  rfl

/-- A size that has been asked for has been read from a binding. -/
lemma size_read (h : (x.size.evaluateInteger f.scope s₀).1 = .ok count) :
    ∃ binding value s', f.get? x.sizeName = some binding ∧ binding.read s₀ = (.ok value, s') ∧
      x.size.convert .integer Value.toInteger? value = .ok count := by
  have htree : x.size.tree.evaluate f.scope = match f.get? x.sizeName with
      | some binding => binding.read
      | none => Sampler.ofExcept (.error (.unknownVariable x.sizeName)) := by
    rw [size, Specification.variable_, Tree.evaluate, Frame.scope_eq]
    cases f.get? x.sizeName <;> rfl
  cases hget : f.get? x.sizeName with
  | none =>
    rw [hget] at htree
    rw [Specification.evaluateInteger, bind_run, htree] at h
    cases h
  | some binding =>
    rw [hget] at htree
    dsimp only at htree
    cases hread : binding.read s₀ with
    | mk result s' =>
      cases result with
      | error e =>
        rw [Specification.evaluateInteger, bind_run, htree, hread] at h
        cases h
      | ok value =>
        rw [size_run (by rw [htree, hread])] at h
        exact ⟨binding, value, s', rfl, hread, h⟩

/-- **What an element shows of the size.** -/
lemma showsSize (h : (x.size.evaluateInteger f.scope s₀).1 = .ok count)
    (settles : Settles f x.stem samples element) {s s₁ : Source} (sampled : Sampled f s samples s₁) :
    x.ShowsSize f count samples element := by
  obtain ⟨binding, asked, s', hget, hread, hconvert⟩ := size_read h
  have hcontains : f.contains x.sizeName = true := by
    rw [Frame.contains, hget]
    rfl
  obtain ⟨value, hvalue⟩ := settles.reads x.sizeName x.sizeName_startsWith hcontains
  have hsampled : ∀ specification origin, f.get? x.sizeName = some (.late specification origin) →
      ∃ value, (x.sizeName, value) ∈ samples ∧ element.Reads x.sizeName value := by
    intro specification origin hlate
    obtain ⟨value, hmem⟩ := settles.sampled x.sizeName_startsWith hlate
    exact ⟨value, hmem, settles.reads_sample _ hmem⟩
  refine ⟨⟨value, hvalue⟩, fun binding' hget' quiet s => ?_, hsampled⟩
  rw [hget, Option.some.injEq] at hget'
  subst hget'
  -- However often the binding is read, the same comes out.
  have hquiet : ∀ s, binding.read s = (.ok asked, s) := by
    intro s
    have hasked := quiet s₀
    rw [hread, Prod.mk.injEq] at hasked
    rw [quiet s, ← hasked.1]
  have hreads : element.Reads x.sizeName asked := by
    cases binding with
    | value v =>
      have hv : v = asked := by
        have := congrArg Prod.fst (hquiet s)
        injection this
      have hother : x.sizeName ∉ samples.map (·.1) := by
        intro hmem
        obtain ⟨⟨name, v'⟩, hmem, hname⟩ := List.mem_map.mp hmem
        obtain ⟨specification, origin, -, -, hlate, -⟩ := sampled.drawn hmem
        dsimp only at hname
        rw [hname, hget] at hlate
        cases hlate
      exact Frame.reads_value (by rw [settles.others _ hother, hget, hv])
    | late specification origin =>
      obtain ⟨v, hmem, hv⟩ := hsampled specification origin hget
      obtain ⟨specification', origin', s', s'', hlate, hdrawn⟩ := sampled.drawn hmem
      rw [hget] at hlate
      cases hlate
      have hsame := hquiet s'
      rw [Binding.read, ← Specification.evaluate_any, hdrawn] at hsame
      cases hsame
      exact hv
  have hsize := hreads s
  rw [Specification.evaluate_any] at hsize
  rw [size_run hsize, hconvert]

end Iteration

/-! ## The steps of an iterator -/

/-- **How the walk for an element begins**, above the frames that the iterator has found, with elements
that remain after it. -/
structure Iteration.WalksElement (x : Iteration) (f : Frame) (frames : List Frame) (remaining : Nat)
    (w : ElementWalk) (element : Frame) (samples : List (String × Value)) : Prop where
  /-- The process is at the beginning of the body.  When it has walked along it, it leaves the element
  and visits those that remain. -/
  tasks : w.start.tasks = .walk x.body w.start.stack.depth x.body.chain ::
    .leave element.identity :: x.visiting remaining
  /-- The current frame is that of the element. -/
  frames : w.start.stack.frames = element :: frames
  /-- The late bindings of the collection have been sampled for the element. -/
  sampled : ∃ s, Sampled f w.source samples s
  settles : Settles f x.stem samples element

namespace Activity

variable {x : Iteration} {a b : Activity} {f : Frame} {below : List Frame} {count : Int64}
  {total remaining : Nat}

lemma iteration?_spec (h : a.iteration? = some x) :
    ∃ behavior depth actions tasks, a.tasks = .walk behavior depth (x.action :: actions) :: tasks ∧
      x.action.kind = .collectionIterator x.parameter x.body ∧
      x.following = .finish x.action :: .walk behavior depth actions :: tasks := by
  unfold iteration? at h
  split at h
  next behavior depth action actions tasks htasks =>
    split at h
    next parameter body hkind =>
      cases h
      exact ⟨behavior, depth, actions, tasks, htasks, hkind, rfl⟩
    next => cases h
  next => cases h

/-- Asking for the size. -/
lemma iterationCount_asking (env : Environment) (hcurrent : a.stack.current = .ok f)
    (hcount : (x.size.evaluateInteger f.scope env.source).1 = .ok count)
    (htotal : count.toInt = total) (action : Action) :
    ∃ env', a.iterationCount env action x.size = (.ok total, env') := by
  have hnonneg : ¬ count.toInt < 0 := by omega
  have hnat : count.toInt.toNat = total := by omega
  rw [iterationCount, hcurrent]
  dsimp only [Environment.sample]
  cases hasked : x.size.evaluateInteger f.scope env.source with
  | mk result s =>
    rw [hasked] at hcount
    dsimp only at hcount ⊢
    subst hcount
    dsimp only
    rw [if_neg hnonneg, hnat]
    exact ⟨_, rfl⟩

/-- **The step that asks for the size.** -/
lemma advance_asking (d : Deployment) (now : SimTime) (id : ProcessId) (env : Environment)
    (hx : a.iteration? = some x) (hcurrent : a.stack.current = .ok f)
    (hcount : (x.size.evaluateInteger f.scope env.source).1 = .ok count)
    (htotal : count.toInt = total) :
    ∃ env' b, a.advance d now id env = .goes ⟨env', [], [], .proceed b⟩ ∧
      b.tasks = x.visiting total ∧ b.stack = a.stack := by
  obtain ⟨name, role, tasks, stack, contexts, result⟩ := a
  obtain ⟨behavior, depth, actions, rest, htasks, hkind, hfollowing⟩ := iteration?_spec hx
  dsimp only at htasks hcurrent
  subst htasks
  let b : Activity := ⟨name, role, x.following, stack, contexts, result⟩
  obtain ⟨env', hasked⟩ := iterationCount_asking (a := b) (env.note (.actionEntered x.action))
    hcurrent hcount htotal x.action
  have hbegins : advance d now id env
      ⟨name, role, .walk behavior depth (x.action :: actions) :: rest, stack, contexts, result⟩ =
        b.beginIterator now (env.note (.actionEntered x.action)) x.action x.parameter x.body := by
    simp only [advance, performTask, walkOn, perform, hkind, b, hfollowing]
    rfl
  have hsize : Specification.variable_ (x.parameter ++ "." ++
      CharacterisationKind.numberOfElements.name) = x.size := rfl
  rw [hbegins, beginIterator, hsize, hasked]
  exact ⟨_, _, rfl, rfl, rfl⟩

/-- The step that turns to the next element. -/
lemma advance_visiting (d : Deployment) (now : SimTime) (id : ProcessId) (env : Environment)
    (htasks : b.tasks = x.visiting (remaining + 1)) (hframes : b.stack.frames = f :: below)
    (hf : f.Ordered) :
    (∃ env' c, b.advance d now id env = .ends env' c) ∨
      ∃ env' c element samples, b.advance d now id env = .goes ⟨env', [], [], .proceed c⟩ ∧
        x.WalksElement f (f :: below) remaining ⟨env.source, c⟩ element samples := by
  obtain ⟨name, role, tasks, ⟨frames⟩, contexts, result⟩ := b
  dsimp only at htasks hframes
  subst htasks hframes
  obtain ⟨names, samples, s₁, -, hsampled, htarget, hend⟩ :=
    resolveInner_settles hf x.stem env.frames env.source
  have hadvance : advance d now id env
      ⟨name, role, x.visiting (remaining + 1), ⟨f :: below⟩, contexts, result⟩ =
        nextElement now env ⟨name, role, x.following, ⟨f :: below⟩, contexts, result⟩ x.action
          x.parameter x.body (remaining + 1) := rfl
  have hresolve : env.newFrame.2.resolve f (x.parameter ++ ".") (f.inside env.newFrame.1.identity) =
      ((resolveInner f x.stem (f.inside env.frames) env.source).failure,
        (resolveInner f x.stem (f.inside env.frames) env.source).target, _) := rfl
  rw [hadvance, nextElement]
  dsimp only [VariableStack.current]
  rw [hresolve]
  rcases hend with ⟨hfailure, -, -, hsettles⟩ | ⟨e, -, -, -, -, hfailure, -⟩
  · right
    rw [hfailure]
    exact ⟨_, _, _, samples, rfl, rfl, rfl, ⟨s₁, hsampled⟩, hsettles⟩
  · left
    rw [hfailure]
    exact ⟨_, _, rfl⟩

/-- The step that finds no element left. -/
lemma advance_visited (d : Deployment) (now : SimTime) (id : ProcessId) (env : Environment)
    (htasks : b.tasks = x.visiting 0) :
    b.advance d now id env = .goes ⟨env, [], [], .proceed { b with tasks := x.following }⟩ := by
  rw [advance, htasks]
  rfl

end Activity

end ServiceSim
