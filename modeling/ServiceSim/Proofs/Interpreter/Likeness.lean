import ServiceSim.Proofs.Evaluation.Agreement
import ServiceSim.Proofs.Interpreter.StackDiscipline
import ServiceSim.Proofs.Kernel.Lockstep

/-!
# Interpretations that look alike

Two environments are alike if they differ in nothing but the number of frames made so far, on which
the identities of further frames depend, and in completions that are alike.  Two activities are alike
if they have the same things to do, each with the frames that it works on: every frame that one of
them has pushed corresponds to a frame that the other has pushed, and such frames show the same.
`Aligned` reads this off the two lists of tasks and the two stacks.  What lies below the frames with
which the two began is never compared.

Every activity that keeps the stack discipline is like itself (`alike_self`).
-/

namespace ServiceSim

/-- Two stacks show the same on top. -/
inductive VariableStack.TopsAgree : VariableStack → VariableStack → Prop
  | empty : TopsAgree ⟨[]⟩ ⟨[]⟩
  | frames {f g : Frame} {fs gs : List Frame} : f.Agrees g → TopsAgree ⟨f :: fs⟩ ⟨g :: gs⟩

/-- Two interpretations end at the same time and in the same context, with the same error or with
result frames that have the same bindings, and leave top frames that agree. -/
structure Completion.Alike (c₁ c₂ : Completion) : Prop where
  time : c₁.time = c₂.time
  result : SameResult Frame.SameBindings c₁.result c₂.result
  stack : c₁.stack.TopsAgree c₂.stack
  contexts : c₁.contexts = c₂.contexts

lemma SameResult.refl {ε α : Type} {R : α → α → Prop} (reflexive : ∀ a, R a a) (r : Except ε α) :
    SameResult R r r := by
  cases r with
  | error e => exact .error e
  | ok a => exact .ok (reflexive a)

lemma Completion.alike_self (c : Completion) : c.Alike c := by
  refine ⟨rfl, .refl .refl c.result, ?_, rfl⟩
  obtain ⟨frames⟩ := c.stack
  cases frames with
  | nil => exact .empty
  | cons f fs => exact .frames f.agrees_self

/-! ## Environments -/

namespace Environment

/-- Two environments are alike: they differ in the number of frames, and in completions that are
alike. -/
structure Alike (env₁ env₂ : Environment) : Prop where
  source : env₁.source = env₂.source
  resources : env₁.resources = env₂.resources
  barriers : env₁.barriers = env₂.barriers
  recorder : env₁.recorder = env₂.recorder
  reconfigurator : env₁.reconfigurator = env₂.reconfigurator
  completions : List.Forall₂ (fun p q => p.1 = q.1 ∧ p.2.Alike q.2) env₁.completions
    env₂.completions
  journal : env₁.journal = env₂.journal
  log : env₁.log = env₂.log

/-- How many frames have been made does not matter. -/
lemma alike_frames (env : Environment) (frames₁ frames₂ : Nat) :
    { env with frames := frames₁ }.Alike { env with frames := frames₂ } :=
  ⟨rfl, rfl, rfl, rfl, rfl, List.forall₂_same.mpr fun p _ => ⟨rfl, p.2.alike_self⟩, rfl, rfl⟩

/-- What came of binding in two environments that are alike. -/
structure BoundAlike (R : Frame → Frame → Prop)
    (b₁ b₂ : Option EvalError × Frame × Environment) : Prop where
  failure : b₁.1 = b₂.1
  target : R b₁.2.1 b₂.2.1
  world : b₁.2.2.Alike b₂.2.2

namespace Alike

variable {env₁ env₂ : Environment} (h : env₁.Alike env₂)
include h

lemma note (event : LogEvent) : (env₁.note event).Alike (env₂.note event) :=
  { h with log := congrArg (event :: ·) h.log }

lemma enter (event : DemandEvent) : (env₁.enter event).Alike (env₂.enter event) :=
  { h with journal := congrArg (event :: ·) h.journal }

lemma complete (number : Nat) {c₁ c₂ : Completion} (hc : c₁.Alike c₂) :
    (env₁.complete number c₁).Alike (env₂.complete number c₂) :=
  { h with completions := .cons ⟨rfl, hc⟩ h.completions }

lemma newFrame : env₁.newFrame.2.Alike env₂.newFrame.2 := { h with }

lemma loading (resources : Resources) :
    { env₁ with resources := resources }.Alike { env₂ with resources := resources } :=
  { h with resources := rfl }

lemma drawing (source : Source) :
    { env₁ with source := source }.Alike { env₂ with source := source } :=
  { h with source := rfl }

lemma recording (recorder : Recorder ProcessId) :
    { env₁ with recorder := recorder }.Alike { env₂ with recorder := recorder } :=
  { h with recorder := rfl }

lemma answering (reconfigurator : Reconfigurator) :
    { env₁ with reconfigurator := reconfigurator }.Alike
      { env₂ with reconfigurator := reconfigurator } :=
  { h with reconfigurator := rfl }

lemma barrier (owner : ProcessId) : env₁.barrier owner = env₂.barrier owner :=
  barrier_congr h.barriers owner

lemma dropBarrier (owner : ProcessId) : (env₁.dropBarrier owner).Alike (env₂.dropBarrier owner) :=
  { h with barriers := congrArg (·.filter (·.1 != owner)) h.barriers }

lemma setBarrier (owner : ProcessId) (b : Barrier InterpreterError) :
    (env₁.setBarrier owner b).Alike (env₂.setBarrier owner b) :=
  { h with barriers := congrArg ((owner, b) :: ·) (h.dropBarrier owner).barriers }

lemma sample {ε α : Type} (computation : ExceptT ε (StateM Source) α) :
    (env₁.sample computation).1 = (env₂.sample computation).1 ∧
      (env₁.sample computation).2.Alike (env₂.sample computation).2 := by
  rw [Environment.sample, Environment.sample, h.source]
  exact ⟨rfl, h.drawing _⟩

lemma noteAll (names : List String) :
    (names.foldl (fun env name => env.note (.nameBound name)) env₁).Alike
      (names.foldl (fun env name => env.note (.nameBound name)) env₂) := by
  induction names generalizing env₁ env₂ with
  | nil => exact h
  | cons name rest ih => exact ih (h.note _)

lemma bind {R : Frame → Frame → Prop} (kept : KeptByBinding R) {context₁ context₂ : Frame}
    (hcontext : context₁.Agrees context₂) (usages : List VariableUsage) {target₁ target₂ : Frame}
    (htarget : R target₁ target₂) :
    BoundAlike R (env₁.bind usages context₁ target₁) (env₂.bind usages context₂ target₂) := by
  have hbound := bindUsages_agrees kept hcontext usages htarget env₂.source
  rw [Environment.bind, Environment.bind, h.source]
  refine ⟨hbound.failure, hbound.target, ?_⟩
  rw [hbound.names, hbound.source]
  exact (h.drawing _).noteAll _

lemma resolve {context₁ context₂ : Frame} (hcontext : context₁.Twins context₂) (stem : String)
    {target₁ target₂ : Frame} (htarget : target₁.Twins target₂) :
    BoundAlike Frame.Twins (env₁.resolve context₁ stem target₁)
      (env₂.resolve context₂ stem target₂) := by
  have hbound := resolveInner_twins hcontext stem htarget env₂.source
  rw [Environment.resolve, Environment.resolve, h.source]
  refine ⟨hbound.failure, hbound.target, ?_⟩
  rw [hbound.source]
  exact h.drawing _

lemma measure (probe label : String) (process : ProcessId) (now : SimTime) :
    (env₁.measure probe label process now).Alike (env₂.measure probe label process now) := by
  rw [Environment.measure, Environment.measure, h.recorder]
  split
  · exact h.note _
  · exact h.recording _
  · exact h.note _

lemma register (action : Action) (calculator : Calculator) :
    (env₁.register action calculator).Alike (env₂.register action calculator) := by
  rw [Environment.register, Environment.register, h.recorder]
  split
  · exact h.note _
  · exact (h.recording _).note _
  · exact h

lemma reconfigure (action : ActionId) :
    (env₁.reconfigure action).Alike (env₂.reconfigure action) := by
  rw [Environment.reconfigure, Environment.reconfigure, h.reconfigurator]
  exact (h.answering _).note _

end Alike

end Environment

/-! ## Activities -/

/-- Whether a task means the same whatever the frames are. -/
def Task.isPlain : Task → Bool
  | .arrive _ => false
  | .accept _ => false
  | .walk _ _ _ => false
  | .leave _ => false
  | .return_ _ _ _ => false
  | _ => true

namespace Activity

/-- Two lists of tasks do the same, each with the frames that it works on.  Frames that will be taken
off correspond to each other and show the same. -/
inductive Aligned : List Task → List Frame → List Task → List Frame → Prop
  /-- The frames with which the interpretations began. -/
  | done {f g : Frame} {fs gs : List Frame} : f.Twins g → Aligned [] (f :: fs) [] (g :: gs)
  /-- The frames of an element. -/
  | leave {tasks₁ tasks₂ : List Task} {f g : Frame} {fs gs : List Frame} {e₁ e₂ : FrameId}
      (left : f.identity = e₁) (right : g.identity = e₂) (twins : f.Twins g)
      (outer : Aligned tasks₁ fs tasks₂ gs) :
      Aligned (.leave e₁ :: tasks₁) (f :: fs) (.leave e₂ :: tasks₂) (g :: gs)
  /-- The frames of a call. -/
  | return_ {tasks₁ tasks₂ : List Task} {f g : Frame} {fs gs : List Frame} {p₁ p₂ : FrameId}
      (site : CallSite) {r₁ r₂ : Frame} (left : f.identity = p₁) (right : g.identity = p₂)
      (twins : f.Twins g) (result : r₁.SameBindings r₂) (outer : Aligned tasks₁ fs tasks₂ gs) :
      Aligned (.return_ site p₁ r₁ :: tasks₁) (f :: fs) (.return_ site p₂ r₂ :: tasks₂) (g :: gs)
  /-- A behavior, entered at the depths of the stacks. -/
  | walk {tasks₁ tasks₂ : List Task} {fs gs : List Frame} {d₁ d₂ : Nat} (behavior : Behavior)
      (actions : List Action) (left : d₁ = fs.length) (right : d₂ = gs.length)
      (rest : Aligned tasks₁ fs tasks₂ gs) :
      Aligned (.walk behavior d₁ actions :: tasks₁) fs (.walk behavior d₂ actions :: tasks₂) gs
  /-- Any other task. -/
  | plain {tasks₁ tasks₂ : List Task} {fs gs : List Frame} {task : Task}
      (isPlain : task.isPlain = true) (rest : Aligned tasks₁ fs tasks₂ gs) :
      Aligned (task :: tasks₁) fs (task :: tasks₂) gs

namespace Aligned

variable {tasks₁ tasks₂ : List Task} {fs gs : List Frame}

/-- Both stacks have a top frame, and these show the same. -/
lemma tops (h : Aligned tasks₁ fs tasks₂ gs) :
    ∃ f g fs' gs', fs = f :: fs' ∧ gs = g :: gs' ∧ f.Twins g := by
  induction h with
  | done twins => exact ⟨_, _, _, _, rfl, rfl, twins⟩
  | leave _ _ twins _ _ => exact ⟨_, _, _, _, rfl, rfl, twins⟩
  | return_ _ _ _ twins _ _ _ => exact ⟨_, _, _, _, rfl, rfl, twins⟩
  | walk _ _ _ _ _ ih => exact ih
  | plain _ _ ih => exact ih

/-- The top frames may be replaced by others that show the same, with the same identities. -/
lemma replaceTop {f g f' g' : Frame} (h : Aligned tasks₁ (f :: fs) tasks₂ (g :: gs))
    (left : f'.identity = f.identity) (right : g'.identity = g.identity) (twins : f'.Twins g') :
    Aligned tasks₁ (f' :: fs) tasks₂ (g' :: gs) := by
  generalize hfs : f :: fs = frames₁ at h
  generalize hgs : g :: gs = frames₂ at h
  induction h with
  | done _ =>
    injection hfs with hf hfs
    injection hgs with hg hgs
    exact hfs ▸ hgs ▸ .done twins
  | leave hleft hright _ outer _ =>
    injection hfs with hf hfs
    injection hgs with hg hgs
    subst hf hg hfs hgs
    exact .leave (left.trans hleft) (right.trans hright) twins outer
  | return_ site hleft hright _ result outer _ =>
    injection hfs with hf hfs
    injection hgs with hg hgs
    subst hf hg hfs hgs
    exact .return_ site (left.trans hleft) (right.trans hright) twins result outer
  | walk behavior actions hleft hright _ ih =>
    subst hfs hgs
    exact .walk behavior actions hleft hright (ih rfl rfl)
  | plain isPlain _ ih => exact .plain isPlain (ih hfs hgs)

/-- Leaving the calls that are under way leads to the same contexts and the same error. -/
lemma unwind (h : Aligned tasks₁ fs tasks₂ gs) (contexts : List ContextId) (e : InterpreterError) :
    Activity.unwind tasks₁ contexts e = Activity.unwind tasks₂ contexts e := by
  induction h generalizing contexts e with
  | done _ => rfl
  | leave _ _ _ _ ih => exact ih contexts e
  | return_ site _ _ _ _ _ ih =>
    cases contexts with
    | nil => exact ih [] _
    | cons _ callers => exact ih callers e
  | walk _ _ _ _ _ ih => exact ih contexts e
  | @plain _ _ _ _ task isPlain _ ih =>
    cases task with
    | arrive _ => cases isPlain
    | accept _ => cases isPlain
    | walk _ _ _ => cases isPlain
    | leave _ => cases isPlain
    | return_ _ _ _ => cases isPlain
    | _ => exact ih contexts e

end Aligned

/-- Two activities have the same name and role and the same assembly contexts, and what they have
returned has the same bindings. -/
structure SameRole (a₁ a₂ : Activity) : Prop where
  name : a₁.name = a₂.name
  role : a₁.role = a₂.role
  contexts : a₁.contexts = a₂.contexts
  result : a₁.result.SameBindings a₂.result

/-- Two activities are in the middle of interpretations that are alike. -/
structure InStep (a₁ a₂ : Activity) : Prop extends SameRole a₁ a₂ where
  aligned : Aligned a₁.tasks a₁.stack.frames a₂.tasks a₂.stack.frames

/-- The tasks of a request that has not entered its behavior yet. -/
def Arriving (tasks : List Task) : Prop :=
  ∃ inputs behavior, tasks = [.accept inputs, .invoke behavior] ∨
    ∃ time, tasks = [.arrive time, .accept inputs, .invoke behavior]

/-- Two activities are the same request, which has not entered its behavior yet. -/
structure BothArrive (a₁ a₂ : Activity) : Prop extends SameRole a₁ a₂ where
  tasks : a₁.tasks = a₂.tasks
  arriving : Arriving a₂.tasks

/-- Two activities are alike. -/
def Alike (a₁ a₂ : Activity) : Prop := a₁.InStep a₂ ∨ a₁.BothArrive a₂

/-! ## Activities that are like themselves -/

lemma aligned_self {entry : Entry} {tasks : List Task} {frames : List Frame}
    {contexts : List ContextId} (h : Balanced entry tasks (frames.map Frame.identity) contexts)
    (ordered : ∀ f ∈ frames, f.Ordered) : Aligned tasks frames tasks frames := by
  induction tasks generalizing frames contexts with
  | nil =>
    cases frames with
    | nil => exact absurd h.1.symm entry.hasFrame
    | cons f fs => exact .done (.refl (ordered f List.mem_cons_self))
  | cons task rest ih =>
    have hpushed : ∀ (pushed : FrameId) (outer : List FrameId),
        frames.map Frame.identity = pushed :: outer →
        ∃ f fs, frames = f :: fs ∧ f.identity = pushed ∧ fs.map Frame.identity = outer ∧
          f.Ordered ∧ ∀ g ∈ fs, g.Ordered := by
      intro pushed outer hframes
      obtain ⟨f, fs, rfl, hf, hfs⟩ := List.map_eq_cons_iff.mp hframes
      exact ⟨f, fs, rfl, hf, hfs, ordered f List.mem_cons_self,
        fun g hg => ordered g (List.mem_cons_of_mem f hg)⟩
    cases task with
    | arrive _ => exact h.elim
    | accept _ => exact h.elim
    | leave element =>
      obtain ⟨outer, hframes, h⟩ := h
      obtain ⟨f, fs, rfl, hf, hfs, hordered, hrest⟩ := hpushed _ _ hframes
      exact .leave hf hf (.refl hordered) (ih (hfs ▸ h) hrest)
    | return_ site pushed result =>
      obtain ⟨outer, _, callers, hframes, -, h⟩ := h
      obtain ⟨f, fs, rfl, hf, hfs, hordered, hrest⟩ := hpushed _ _ hframes
      exact .return_ site hf hf (.refl hordered) (.refl result) (ih (hfs ▸ h) hrest)
    | walk behavior depth actions =>
      have hdepth : depth = frames.length := h.1.trans (List.length_map _)
      exact .walk behavior actions hdepth hdepth (ih h.2 ordered)
    | _ => exact .plain rfl (ih h ordered)

/-- **An activity is like itself** if it keeps the stack discipline and its frames are ordered. -/
lemma alike_self {a : Activity} (sound : a.IsSound) (ordered : ∀ f ∈ a.stack.frames, f.Ordered) :
    a.Alike a := by
  have hrole : a.SameRole a := ⟨rfl, rfl, rfl, .refl a.result⟩
  rcases sound with ⟨entry, balanced⟩ | arriving
  · exact .inl ⟨hrole, aligned_self balanced ordered⟩
  · exact .inr ⟨hrole, rfl, arriving.tasks⟩

end Activity

end ServiceSim
