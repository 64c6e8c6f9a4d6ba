import ServiceSim.Proofs.Interpreter.Balance
import ServiceSim.Proofs.Interpreter.Effects
import ServiceSim.Proofs.Model.Built
import Mathlib.Logic.Function.Iterate
import Mathlib.Logic.Relation

/-!
# Interpretations keep the stack discipline

A process interprets a behavior while others run, requests enter, and whoever the interpreter works
with gives whatever answer: the random source, the resources, the recorder and the reconfigurator.
`Kernel.Event` has one case for each of these, and an answer may replace all that processes share but
the barriers, which belong to the interpreter itself.

No event breaks the discipline of any process (`Kernel.Disciplined`), and a process that has begun
an interpretation stays balanced with respect to its entry.  `interpretation_restores` draws the
conclusion: however an interpretation ends, it ends without a fault of the stack discipline and
restores what it found.
-/

namespace ServiceSim

open Activity

/-! ## What happens to a kernel -/

/-- An activity that enters from outside, with a root frame or before its inputs are accepted. -/
inductive Activity.Enters : Activity → Prop where
  | interpreting (name : String) (number : Nat) (context : ContextId) (root : Frame)
      (behavior : Behavior) : Enters (.interpreting name number context root behavior)
  | ofRequest (number : Nat) (context : ContextId) (arrival : SimTime)
      (inputs : List VariableUsage) (behavior : Behavior) :
      Enters (.ofRequest number context arrival inputs behavior)

/-- An event in the life of a kernel. -/
inductive Kernel.Event (d : Deployment) :
    Kernel Environment Activity → Kernel Environment Activity → Prop where
  /-- A run takes a step. -/
  | goes {stop : Option SimTime} {k k' : Kernel Environment Activity} :
      k.step (program d) stop = .goes k' → Event d k k'
  /-- A run ends. -/
  | rests {stop : Option SimTime} {k k' : Kernel Environment Activity} :
      k.step (program d) stop = .ends k' → Event d k k'
  /-- A process enters. -/
  | enters {k : Kernel Environment Activity} {a : Activity} : a.Enters → Event d k (k.spawn a)
  /-- Something gives an answer, which may change anything but the barriers. -/
  | answers {k : Kernel Environment Activity} (env : Environment) :
      env.barriers = k.world.barriers → Event d k (k.mapWorld fun _ => env)

/-- A kernel that has come about from one without processes. -/
def Kernel.Reached (d : Deployment) (k : Kernel Environment Activity) : Prop :=
  ∃ env, env.barriers = [] ∧ Relation.ReflTransGen (Kernel.Event d) (.initial env) k

namespace Activity

/-- The request has not entered its behavior yet. -/
structure IsArriving (a : Activity) : Prop where
  request : ∃ number, a.role = .request number
  context : a.contexts ≠ []
  tasks : ∃ inputs behavior, a.tasks = [.accept inputs, .invoke behavior] ∨
    ∃ time, a.tasks = [.arrive time, .accept inputs, .invoke behavior]

/-- An activity that keeps the discipline. -/
def IsSound (a : Activity) : Prop := (∃ entry, a.IsBalanced entry) ∨ a.IsArriving

variable {entry : Entry} {a : Activity} {env env' : Environment} {now : SimTime} {id : ProcessId}
  {d : Deployment} {c : Completion}

lemma Enters.sound (h : a.Enters) : a.IsSound := by
  cases h with
  | interpreting name number context root behavior =>
    exact .inl ⟨⟨[root.identity], [context], by simp, by simp⟩, rfl, rfl⟩
  | ofRequest number context arrival inputs behavior =>
    exact .inr ⟨⟨number, rfl⟩, List.cons_ne_nil _ _, inputs, behavior, .inr ⟨arrival, rfl⟩⟩

/-- A report passes on no fault if there is none. -/
lemma report_faultless (faultless : env.Faultless)
    (hc : ∀ e, c.result = .error e → e.isStackFault = false) :
    (a.report env c).world.Faultless := by
  unfold report
  cases a.role with
  | request number => exact faultless.of_barriers rfl
  | asynchronous =>
    cases hresult : c.result with
    | ok result => exact faultless
    | error e => exact faultless.of_barriers rfl
  | synchronous owner =>
    have harrive : ∀ failure : Option InterpreterError,
        ((env.barrier owner).arrive failure).1.failures =
          (env.barrier owner).failures ++ failure.toList := by
      intro failure
      unfold Barrier.arrive
      dsimp only
      split_ifs <;> rfl
    intro other
    dsimp only
    rw [Environment.barrier_setBarrier]
    split_ifs with hother
    · rw [harrive]
      intro e he
      rcases List.mem_append.mp he with he | he
      · exact faultless owner e he
      · cases hresult : c.result with
        | ok result =>
          rw [hresult] at he
          cases he
        | error e' =>
          rw [hresult] at he
          rw [List.mem_singleton.mp he]
          exact hc e' hresult
    · exact faultless other

/-- A report of a request passes on nothing to other processes. -/
lemma report_request (faultless : env.Faultless) {number : Nat} (h : a.role = .request number) :
    (a.report env c).world.Faultless := by
  unfold report
  rw [h]
  exact faultless.of_barriers rfl

/-- The steps before a request enters its behavior push its root frame. -/
lemma turn_arriving (h : a.IsArriving) (faultless : env.Faultless) :
    (a.turn d now id env).world.Faultless ∧
      (∀ p ∈ (a.turn d now id env).next.goesOn id, p.2.IsSound) ∧
      ∀ b ∈ (a.turn d now id env).spawned, b.IsSound := by
  obtain ⟨⟨number, hrole⟩, hcontext, inputs, behavior, htasks | ⟨time, htasks⟩⟩ := h
  · unfold turn advance performTask acceptInputs
    simp only [htasks]
    cases hbind : env.newFrame.2.newFrame.2.bind inputs env.newFrame.1 env.newFrame.2.newFrame.1 with
    | mk failure bound =>
      obtain ⟨root, env'⟩ := bound
      have hsteady : env.Steady env' :=
        (Environment.Steady.refl env).newFrame.newFrame.trans (Environment.bind_steady hbind)
      have hfaultless := hsteady.faultless faultless
      cases failure with
      | none =>
        refine ⟨hfaultless, ?_, by simp [goOnUnless, goOn]⟩
        intro p hp
        rw [List.mem_singleton.mp hp]
        exact .inl ⟨⟨root.identity :: a.stack.identities, a.contexts, List.cons_ne_nil _ _, hcontext⟩,
          rfl, rfl⟩
      | some e =>
        refine ⟨report_request hfaultless hrole, ?_, ?_⟩
        · simp [report_ends.2, Next.goesOn, goOnUnless, abort]
        · simp [report_ends.1, goOnUnless, abort]
  · unfold turn advance performTask
    simp only [htasks]
    refine ⟨faultless, ?_, by simp⟩
    intro p hp
    rw [List.mem_singleton.mp hp]
    exact .inr ⟨⟨number, hrole⟩, hcontext, inputs, behavior, .inl rfl⟩

/-- Whoever goes on after a turn has not come to an end in it. -/
lemma turn_goesOn {b c : Activity} (h : (id, c) ∈ (b.turn d now id env).next.goesOn id) :
    ∃ turn, b.advance d now id env = .goes turn ∧ (id, c) ∈ turn.next.goesOn id := by
  unfold turn at h
  cases hadvance : b.advance d now id env with
  | goes turn =>
    rw [hadvance] at h
    exact ⟨turn, rfl, h⟩
  | ends env' completion =>
    rw [hadvance] at h
    simp [report_ends.2, Next.goesOn] at h

/-- A turn leaves what it continues balanced, and so is what it spawns. -/
lemma turn_balanced (d : Deployment) (now : SimTime) (id : ProcessId) (h : a.IsBalanced entry)
    (faultless : env.Faultless) :
    (a.turn d now id env).world.Faultless ∧
      (∀ p ∈ (a.turn d now id env).next.goesOn id, p.2.IsBalanced entry) ∧
      ∀ b ∈ (a.turn d now id env).spawned, ∃ entry, b.IsBalanced entry := by
  have hkeeps := advance_keeps d now id h faultless
  unfold turn
  cases hadvance : a.advance d now id env with
  | goes turn =>
    rw [hadvance] at hkeeps
    exact hkeeps
  | ends env' c =>
    rw [hadvance] at hkeeps
    dsimp only
    refine ⟨report_faultless hkeeps.1 fun e he => (hkeeps.2.failed e he).1, ?_, ?_⟩
    · simp [report_ends.2, Next.goesOn]
    · simp [report_ends.1]

/-- A turn leaves what it continues and what it spawns sound. -/
lemma turn_sound (d : Deployment) (now : SimTime) (id : ProcessId) (h : a.IsSound)
    (faultless : env.Faultless) :
    (a.turn d now id env).world.Faultless ∧
      (∀ p ∈ (a.turn d now id env).next.goesOn id, p.2.IsSound) ∧
      ∀ b ∈ (a.turn d now id env).spawned, b.IsSound := by
  rcases h with ⟨entry, h⟩ | h
  · obtain ⟨hworld, hnext, hspawned⟩ := turn_balanced d now id h faultless
    exact ⟨hworld, fun p hp => .inl ⟨entry, hnext p hp⟩, fun b hb => .inl (hspawned b hb)⟩
  · exact turn_arriving h faultless

end Activity

namespace Kernel

/-- **The stack discipline of a kernel.**  Every process keeps it, and no failure that waits to be
collected at a barrier comes of a breach. -/
structure Disciplined (k : Kernel Environment Activity) : Prop where
  order : k.Orderly
  faultless : k.world.Faultless
  sound : ∀ p ∈ k.processes, p.2.IsSound

variable {d : Deployment} {k k' : Kernel Environment Activity} {entry : Entry} {id : ProcessId}

lemma Quiet.faultless (quiet : Quiet (program d) k k') (faultless : k.world.Faultless) :
    k'.world.Faultless := by
  rcases quiet.world with hworld | ⟨time, wakeups, hworld⟩
  · exact hworld ▸ faultless
  · exact hworld ▸ faultless.of_barriers rfl

lemma Quiet.disciplined (quiet : Quiet (program d) k k') (h : k.Disciplined) : k'.Disciplined :=
  ⟨quiet.orderly h.order, quiet.faultless h.faultless, quiet.processes ▸ h.sound⟩

lemma Turned.disciplined {a : Activity} (h : k.Disciplined) (runs : k.running = some (id, a))
    (turned : Turned k k' id (a.turn d k.now id k.world)) : k'.Disciplined := by
  have hsound := h.sound
  rw [processes_eq runs] at hsound
  have hturn := turn_sound d k.now id
    (hsound (id, a) List.mem_cons_self) h.faultless
  have hids := turned.distinct h.order runs
  refine ⟨⟨turned.lined, hids.1, hids.2⟩, turned.world ▸ hturn.1, ?_⟩
  intro p hp
  rw [turned.processes.mem_iff, List.mem_append, List.mem_append] at hp
  rcases hp with (hp | hp) | hp
  · exact hturn.2.1 p hp
  · exact hturn.2.2 p.2 (mem_newborn hp).2.2
  · exact hsound p (List.mem_cons_of_mem _ hp)

lemma initial_disciplined (env : Environment) (h : env.barriers = []) :
    (initial env : Kernel Environment Activity).Disciplined := by
  refine ⟨initial_orderly env, ?_, ?_⟩
  · intro owner
    change ∀ e ∈ (env.barrier owner).failures, _
    rw [Environment.barrier, h]
    simp [Barrier.new]
  · simp [initial, processes, agenda, others, appointed]

/-- No event breaks the stack discipline. -/
theorem event_disciplined (event : Event d k k') (h : k.Disciplined) : k'.Disciplined := by
  cases event with
  | goes hstep =>
    rcases step_cases h.order hstep with quiet | ⟨id, a, runs, turned⟩
    · exact quiet.disciplined h
    · exact turned.disciplined h runs
  | rests hstep => exact (step_ends h.order hstep).1.disciplined h
  | enters ha =>
    refine ⟨spawn_orderly _ h.order, h.faultless, ?_⟩
    intro p hp
    rcases List.mem_cons.mp ((spawn_processes _ k).mem_iff.mp hp) with rfl | hp
    · exact ha.sound
    · exact h.sound p hp
  | answers env henv =>
    exact ⟨mapWorld_orderly _ h.order, h.faultless.of_barriers henv, h.sound⟩

lemma reached_disciplined (h : k.Reached d) : k.Disciplined := by
  obtain ⟨env, henv, hevents⟩ := h
  induction hevents with
  | refl => exact initial_disciplined env henv
  | tail _ event ih => exact event_disciplined event ih

/-! ## One interpretation -/

/-- A process that has begun an interpretation is balanced with respect to its entry. -/
structure Follows (entry : Entry) (id : ProcessId) (k : Kernel Environment Activity) : Prop where
  disciplined : k.Disciplined
  begun : id < k.spawned
  balanced : ∀ p ∈ k.processes, p.1 = id → p.2.IsBalanced entry

lemma Quiet.follows (quiet : Quiet (program d) k k') (h : Follows entry id k) :
    Follows entry id k' :=
  ⟨quiet.disciplined h.disciplined, quiet.spawned ▸ h.begun, quiet.processes ▸ h.balanced⟩

lemma Turned.follows {other : ProcessId} {a : Activity} (h : Follows entry id k)
    (runs : k.running = some (other, a)) (turned : Turned k k' other (a.turn d k.now other k.world)) :
    Follows entry id k' := by
  refine ⟨turned.disciplined h.disciplined runs, ?_, ?_⟩
  · rw [turned.spawned]
    exact Nat.lt_add_right _ h.begun
  intro p hp hid
  by_cases hother : p.1 = other
  · have hbalanced := h.balanced _ (running_mem runs) (hother.symm.trans hid)
    rw [← Prod.eta p, hother, turned.mem_processes_self h.disciplined.order runs] at hp
    exact (turn_balanced d k.now other hbalanced h.disciplined.faultless).2.1 (other, p.2) hp
  · exact h.balanced p ((turned.mem_processes_other runs hother (hid ▸ h.begun)).mp hp) hid

lemma event_follows (event : Event d k k') (h : Follows entry id k) : Follows entry id k' := by
  cases event with
  | goes hstep =>
    rcases step_cases h.disciplined.order hstep with quiet | ⟨other, a, runs, turned⟩
    · exact quiet.follows h
    · exact turned.follows h runs
  | rests hstep => exact (step_ends h.disciplined.order hstep).1.follows h
  | enters ha =>
    refine ⟨event_disciplined (d := d) (.enters ha) h.disciplined, Nat.lt_succ_of_lt h.begun, ?_⟩
    intro p hp hid
    rcases List.mem_cons.mp ((spawn_processes _ k).mem_iff.mp hp) with rfl | hp
    · exact absurd (hid ▸ h.begun) (Nat.lt_irrefl _)
    · exact h.balanced p hp hid
  | answers env henv =>
    exact ⟨event_disciplined (d := d) (.answers env henv) h.disciplined, h.begun, h.balanced⟩

/-- A process that runs and does not wait for a request follows its entry. -/
lemma Disciplined.follows (h : k.Disciplined) {a : Activity} (runs : k.running = some (id, a))
    (begun : ¬ a.IsArriving) : ∃ entry, a.IsBalanced entry ∧ Follows entry id k := by
  rcases h.sound _ (running_mem runs) with ⟨entry, hentry⟩ | harriving
  · refine ⟨entry, hentry, h, h.order.counted _ (running_mem runs), fun p hp hid => ?_⟩
    rw [h.order.unique hp (running_mem runs) hid]
    exact hentry
  · exact absurd harriving begun

/-- What a process has become by an event: what it was, or what its turn has made of it. -/
lemma event_process (event : Event d k k') (h : k.Disciplined) (begun : id < k.spawned)
    {c : Activity} (hc : (id, c) ∈ k'.processes) :
    (id, c) ∈ k.processes ∨ ∃ b turn, k.running = some (id, b) ∧
      b.advance d k.now id k.world = .goes turn ∧ (id, c) ∈ turn.next.goesOn id := by
  cases event with
  | goes hstep =>
    rcases step_cases h.order hstep with quiet | ⟨other, b, runs, turned⟩
    · exact .inl (quiet.processes ▸ hc)
    · by_cases hother : id = other
      · subst hother
        rw [turned.mem_processes_self h.order runs] at hc
        obtain ⟨turn, hadvance, hc⟩ := turn_goesOn hc
        exact .inr ⟨b, turn, runs, hadvance, hc⟩
      · exact .inl ((turned.mem_processes_other runs hother begun).mp hc)
  | rests hstep => exact .inl ((step_ends h.order hstep).1.processes ▸ hc)
  | enters ha =>
    rcases List.mem_cons.mp ((spawn_processes _ k).mem_iff.mp hc) with heq | hc
    · rw [Prod.mk.injEq] at heq
      exact absurd (heq.1 ▸ begun) (Nat.lt_irrefl _)
    · exact .inl hc
  | answers env henv => exact .inl hc

/-- **However an interpretation ends, the stack discipline has been kept.**  A process begins to
interpret a behavior; in whatever way the kernel goes on, when the interpretation of the process
ends, it ends without a fault of the discipline and restores the frames and contexts that it
found. -/
theorem interpretation_restores {k₀ : Kernel Environment Activity} (reached : k₀.Reached d)
    {a₀ : Activity} (runs₀ : k₀.running = some (id, a₀)) {behavior : Behavior}
    (begins : a₀.tasks = [.invoke behavior])
    (later : Relation.ReflTransGen (Event d) k₀ k) {a : Activity}
    (runs : k.running = some (id, a)) {env : Environment} {c : Completion}
    (ends : a.advance d k.now id k.world = .ends env c) :
    c.contexts = a₀.contexts ∧
      (∀ result, c.result = .ok result → c.stack.identities = a₀.stack.identities) ∧
      ∀ e, c.result = .error e →
        e.isStackFault = false ∧ a₀.stack.identities <:+ c.stack.identities := by
  have hdisciplined := reached_disciplined reached
  have hmem : (id, a₀) ∈ k₀.processes := by
    rw [processes_eq runs₀]
    exact List.mem_cons_self
  obtain ⟨entry, hentry⟩ : ∃ entry, a₀.IsBalanced entry := by
    rcases hdisciplined.sound _ hmem with h | h
    · exact h
    · obtain ⟨inputs, b, htasks | ⟨time, htasks⟩⟩ := h.tasks
      all_goals
        rw [begins] at htasks
        cases htasks
  have hframes : a₀.stack.identities = entry.frames ∧ a₀.contexts = entry.contexts := by
    rw [IsBalanced, begins] at hentry
    exact hentry
  have hfollows : Follows entry id k₀ := by
    refine ⟨hdisciplined, hdisciplined.order.counted _ hmem, ?_⟩
    intro p hp hid
    rw [hdisciplined.order.unique hp hmem hid]
    exact hentry
  have hlater : Follows entry id k := by
    clear runs ends
    induction later with
    | refl => exact hfollows
    | tail _ event ih => exact event_follows event ih
  have hkeeps := advance_keeps d k.now id
    (hlater.balanced (id, a) (by rw [processes_eq runs]; exact List.mem_cons_self) rfl)
    hlater.disciplined.faultless
  rw [ends] at hkeeps
  rw [hframes.1, hframes.2]
  exact ⟨hkeeps.2.contexts, hkeeps.2.completed, hkeeps.2.failed⟩

/-- The kernel after one step of a run without a stop time. -/
def next (d : Deployment) (k : Kernel Environment Activity) : Kernel Environment Activity :=
  match k.step (program d) none with
  | .goes k' => k'
  | .ends k' => k'

lemma event_next (d : Deployment) (k : Kernel Environment Activity) : Event d k (k.next d) := by
  unfold next
  cases h : k.step (program d) none with
  | goes k' => exact .goes h
  | ends k' => exact .rests h

lemma iterate_events (d : Deployment) (n : Nat) (k : Kernel Environment Activity) :
    Relation.ReflTransGen (Event d) k ((next d)^[n] k) := by
  induction n with
  | zero => exact .refl
  | succ n ih =>
    rw [Function.iterate_succ_apply']
    exact ih.tail (event_next d _)

/-- A step of a kernel in which a process runs is its turn. -/
lemma step_next {p : ProcessId × Activity} (runs : k.running = some p) :
    k.step (program d) none = .goes (k.next d) := by
  have hgoes : ∃ k', k.step (program d) none = .goes k' := by
    rw [step, runs]
    exact ⟨_, rfl⟩
  obtain ⟨k', hstep⟩ := hgoes
  rw [next, hstep]

/-- The process whose interpretation ends in the next step, with its completion. -/
def ending? (d : Deployment) (k : Kernel Environment Activity) : Option (ProcessId × Completion) :=
  match k.running with
  | some (id, a) =>
    match a.advance d k.now id k.world with
    | .ends _ c => some (id, c)
    | .goes _ => none
  | none => none

lemma ending?_eq_some {c : Completion} (h : ending? d k = some (id, c)) :
    ∃ a env, k.running = some (id, a) ∧ a.advance d k.now id k.world = .ends env c := by
  unfold ending? at h
  cases runs : k.running with
  | none =>
    rw [runs] at h
    cases h
  | some p =>
    rw [runs] at h
    dsimp only at h
    cases ends : p.2.advance d k.now p.1 k.world with
    | goes turn =>
      rw [ends] at h
      cases h
    | ends env c' =>
      rw [ends] at h
      injection h with h
      injection h with hid hc
      subst hid hc
      exact ⟨p.2, env, rfl, ends⟩

/-- A process begins to interpret a behavior, and its interpretation ends. -/
def Interprets (d : Deployment) (id : ProcessId) (behavior : Behavior)
    (k₀ : Kernel Environment Activity) (a₀ : Activity) (c : Completion) : Prop :=
  k₀.Reached d ∧ k₀.running = some (id, a₀) ∧ a₀.tasks = [.invoke behavior] ∧
    ∃ k a env, Relation.ReflTransGen (Event d) k₀ k ∧ k.running = some (id, a) ∧
      a.advance d k.now id k.world = .ends env c

/-- A loop around a collection iterator that calls a service, which forks.  Where the value passed is
one, all four calls return and the interpretation has a result.  Where it is zero, what the first call
forks divides by it, so the call ends with the error of the fork, and two frames stay behind. -/
theorem interpretation_restores_nested :
    ∃ (d : Deployment) (behavior : Behavior), d.model.IsBuilt ∧ behavior.IsBuilt ∧
      (∃ k₀ a₀ c result, Interprets d 0 behavior k₀ a₀ c ∧ c.result = .ok result ∧
        c.contexts = a₀.contexts ∧ c.stack.identities = a₀.stack.identities) ∧
      ∃ k₀ a₀ c e, Interprets d 0 behavior k₀ a₀ c ∧ c.result = .error e ∧
        c.contexts = a₀.contexts ∧ e.isStackFault = false ∧
        a₀.stack.identities <:+ c.stack.identities ∧
        c.stack.identities.length = a₀.stack.identities.length + 2 := by
  let quotient : Specification := .ofText "1 % x.VALUE"
  let two : Specification := .ofText "2"
  let value : Specification := .ofText "x.VALUE"
  let divide : Behavior := ⟨"divide", [⟨"d0", "", some "d1", .start⟩,
    ⟨"d1", "", none, .setVariable [.single "y" .value quotient]⟩]⟩
  let answer : Behavior := ⟨"answer", [⟨"a0", "", some "a1", .start⟩,
    ⟨"a1", "", none, .fork [divide] [divide]⟩]⟩
  let ask : Behavior := ⟨"ask", [⟨"q0", "", some "q1", .start⟩,
    ⟨"q1", "", none, .externalCall ⟨"peer", "answer", [.single "x" .value value], []⟩⟩]⟩
  let each : Behavior := ⟨"each", [⟨"e0", "", some "e1", .start⟩,
    ⟨"e1", "", none, .collectionIterator "files.INNER" ask⟩]⟩
  let twice : Behavior := ⟨"twice", [⟨"t0", "", some "t1", .start⟩,
    ⟨"t1", "", some "t2", .loop two each⟩, ⟨"t2", "", none, .stop⟩]⟩
  let d : Deployment := ⟨⟨"", [⟨"C", "", [⟨"answer", answer⟩]⟩], [⟨"A", "", "C"⟩, ⟨"B", "", "C"⟩],
    [⟨"A", "peer", "B"⟩], [], [], []⟩, rfl⟩
  have hquotient : quotient.IsParsed := Specification.isParsed_ofText (by decide +kernel)
  have htwo : two.IsParsed := Specification.isParsed_ofText (by decide +kernel)
  have hvalue : value.IsParsed := Specification.isParsed_ofText (by decide +kernel)
  have hsingle : ∀ name {s : Specification}, s.IsParsed →
      ∀ u ∈ [VariableUsage.single name .value s], u.IsParsed := fun name s hs =>
    List.forall_mem_singleton.mpr (List.forall_mem_singleton.mpr hs)
  have hdivide : divide.IsBuilt := ⟨rfl, trivial, hsingle "y" hquotient, trivial⟩
  have hanswer : answer.IsBuilt :=
    ⟨rfl, trivial, ⟨⟨hdivide, trivial⟩, hdivide, trivial⟩, trivial⟩
  have hask : ask.IsBuilt :=
    ⟨rfl, trivial, ⟨hsingle "x" hvalue, List.forall_mem_nil _⟩, trivial⟩
  have htwice : twice.IsBuilt :=
    ⟨rfl, trivial, ⟨htwo, rfl, trivial, hask, trivial⟩, trivial, trivial⟩
  let root (x : Int64) : Frame :=
    ((Frame.empty 7).set "files.INNER.NUMBER_OF_ELEMENTS" (.int 2)).set "x.VALUE" (.int x)
  let env : Environment := .initial (.ofWords []) ⟨[]⟩
  -- A sweep begins and the process is dispatched; then it is about to enter the behavior.
  let k₀ (x : Int64) : Kernel Environment Activity :=
    (next d)^[2] ((initial env).spawn (.interpreting "p" 0 "A" (root x) twice))
  let a₀ (x : Int64) : Activity := .interpreting "p" 0 "A" (root x) twice
  have reached : ∀ x, (k₀ x).Reached d := fun x =>
    ⟨env, rfl, (Relation.ReflTransGen.single (.enters (.interpreting _ _ _ _ _))).trans
      (iterate_events d 2 _)⟩
  have restores : ∀ x n c, ending? d ((next d)^[n] (k₀ x)) = some (0, c) →
      Interprets d 0 twice (k₀ x) (a₀ x) c ∧ c.contexts = (a₀ x).contexts ∧
        (∀ result, c.result = .ok result → c.stack.identities = (a₀ x).stack.identities) ∧
        ∀ e, c.result = .error e →
          e.isStackFault = false ∧ (a₀ x).stack.identities <:+ c.stack.identities := by
    intro x n c h
    obtain ⟨a, env, runs, ends⟩ := ending?_eq_some h
    exact ⟨⟨reached x, rfl, rfl, _, a, env, iterate_events d n _, runs, ends⟩,
      interpretation_restores (reached x) rfl rfl (iterate_events d n _) runs ends⟩
  have hone : (ending? d ((next d)^[175] (k₀ 1))).map (fun p =>
      (p.1, p.2.result.toOption.isSome)) = some (0, true) := by decide +kernel
  have hzero : (ending? d ((next d)^[33] (k₀ 0))).map (fun p =>
      (p.1, p.2.result.toOption.isSome, p.2.stack.identities.length)) = some (0, false, 3) := by
    decide +kernel
  obtain ⟨⟨_, c⟩, hc, hvalues⟩ := Option.map_eq_some_iff.mp hone
  obtain ⟨⟨_, c'⟩, hc', hvalues'⟩ := Option.map_eq_some_iff.mp hzero
  simp only [Prod.mk.injEq] at hvalues hvalues'
  obtain ⟨rfl, hsome⟩ := hvalues
  obtain ⟨rfl, hnone, hlength⟩ := hvalues'
  obtain ⟨hinterprets, hcontexts, hcompleted, -⟩ := restores 1 175 c hc
  obtain ⟨hinterprets', hcontexts', -, hfailed⟩ := restores 0 33 c' hc'
  refine ⟨d, twice, ?_, htwice, ?_, ?_⟩
  · exact List.forall_mem_singleton.mpr (List.forall_mem_singleton.mpr hanswer)
  · cases hresult : c.result with
    | error e => simp [hresult, Except.toOption] at hsome
    | ok result => exact ⟨_, _, c, result, hinterprets, hresult, hcontexts, hcompleted result hresult⟩
  · cases hresult : c'.result with
    | ok result => simp [hresult, Except.toOption] at hnone
    | error e =>
      obtain ⟨hfault, hframes⟩ := hfailed e hresult
      exact ⟨_, _, c', e, hinterprets', hresult, hcontexts', hfault, hframes, hlength⟩

end Kernel

end ServiceSim
