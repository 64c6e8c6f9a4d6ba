import ServiceSim.Proofs.Evaluation.Pursuit
import ServiceSim.Proofs.Interpreter.Queues

/-!
# What is foreseen of processes

While a run goes on, it is already determined how each of its processes will end, as long as no
chance is involved and no resource makes anybody wait.  A `Forecast` says it for all processes that
there have been, and remembers of those that fork which children they wait for and since when.

`Kernel.Foreseen` relates a forecast to the processes of a kernel.  A process that goes on by itself
has the ending that the evaluator gives to what it still has to do.  A process that joins has the
ending to which its children lead it, and a child that is there no more has ended as foreseen.
-/

namespace ServiceSim

open Activity Evaluator

/-! ## The latest of several ends -/

section Latest

variable {time bound : SimTime} {ends : List Ending}

lemma le_latest (time : SimTime) (ends : List Ending) : time ≤ latest time ends := by
  induction ends generalizing time with
  | nil => exact le_refl _
  | cons e rest ih => exact (SimTime.le_later_left _ _).trans (ih _)

lemma le_latest_of_mem {e : Ending} (h : e ∈ ends) : e.time ≤ latest time ends := by
  induction ends generalizing time with
  | nil => cases h
  | cons first rest ih =>
    rcases List.mem_cons.mp h with rfl | h
    · exact (SimTime.le_later_right _ _).trans (le_latest _ rest)
    · exact ih h

lemma latest_le (hstart : time ≤ bound) (hends : ∀ e ∈ ends, e.time ≤ bound) :
    latest time ends ≤ bound := by
  induction ends generalizing time with
  | nil => exact hstart
  | cons first rest ih =>
    refine ih ?_ fun e he => hends e (List.mem_cons_of_mem _ he)
    exact (SimTime.later_eq_max _ _).trans_le (max_le hstart (hends first List.mem_cons_self))

/-- What one gets of all in turn is what one gets of each. -/
lemma mem_mapM {α β : Type} {f : α → Option β} {l : List α} {r : List β} (h : l.mapM f = some r) :
    (∀ a ∈ l, ∃ b ∈ r, f a = some b) ∧ ∀ b ∈ r, ∃ a ∈ l, f a = some b := by
  induction l generalizing r with
  | nil =>
    cases h
    simp
  | cons a rest ih =>
    rw [List.mapM_cons] at h
    obtain ⟨b, hb, h⟩ := Option.bind_eq_some_iff.mp h
    obtain ⟨bs, hbs, h⟩ := Option.bind_eq_some_iff.mp h
    cases h
    obtain ⟨hleft, hright⟩ := ih hbs
    constructor
    · intro c hc
      rcases List.mem_cons.mp hc with rfl | hc
      · exact ⟨b, List.mem_cons_self, hb⟩
      · obtain ⟨e, he, hce⟩ := hleft c hc
        exact ⟨e, List.mem_cons_of_mem _ he, hce⟩
    · intro e he
      rcases List.mem_cons.mp he with rfl | he
      · exact ⟨a, List.mem_cons_self, hb⟩
      · obtain ⟨c, hc, hce⟩ := hright e he
        exact ⟨c, List.mem_cons_of_mem _ hc, hce⟩

lemma exists_mapM {α β : Type} {f : α → Option β} {l : List α}
    (h : ∀ a ∈ l, ∃ b, f a = some b) : ∃ r, l.mapM f = some r := by
  induction l with
  | nil => exact ⟨[], rfl⟩
  | cons a rest ih =>
    obtain ⟨b, hb⟩ := h a List.mem_cons_self
    obtain ⟨bs, hbs⟩ := ih fun c hc => h c (List.mem_cons_of_mem _ hc)
    refine ⟨b :: bs, ?_⟩
    rw [List.mapM_cons, hb, hbs]
    rfl

lemma mapM_congr {α β γ : Type} {f : α → Option γ} {g : β → Option γ} {l : List α} (h : α → β)
    (hfg : ∀ a ∈ l, g (h a) = f a) : (l.map h).mapM g = l.mapM f := by
  induction l with
  | nil => rfl
  | cons a rest ih =>
    rw [List.map_cons, List.mapM_cons, List.mapM_cons, hfg a List.mem_cons_self,
      ih fun b hb => hfg b (List.mem_cons_of_mem _ hb)]

end Latest

/-! ## Forecasts -/

/-- What is foreseen of processes. -/
structure Forecast where
  /-- How a process ends. -/
  ending : ProcessId → Option Ending
  /-- For whom a process waits that has forked. -/
  children : ProcessId → List ProcessId
  /-- When it has forked. -/
  since : ProcessId → SimTime

/-- The activity after a join. -/
def Activity.awoken (a : Activity) : Activity := { a with tasks := a.tasks.tail }

namespace Forecast

/-- Nothing is foreseen. -/
def blank : Forecast := ⟨fun _ => none, fun _ => [], fun _ => .zero⟩

/-- The forecast after a process has entered that is going to end in a given way. -/
def enters (F : Forecast) (id : ProcessId) (v : Option Ending) : Forecast :=
  { F with ending := fun i => if i = id then v else F.ending i }

variable (d : Deployment) (rates : ResourceKey → Option Float) (F : Forecast)

/-- The forecast after a process has forked children, who get identities from a first one on. -/
noncomputable def forks (now : SimTime) (owner first : ProcessId) (children : List Activity) :
    Forecast where
  ending i := if i < first then F.ending i else (children[i - first]?).bind (·.ending d rates now)
  children o := if o = owner then
    ((Kernel.newborn first children).filter (·.2.role = .synchronous owner)).map Prod.fst
    else F.children o
  since o := if o = owner then now else F.since o

/-- A child has ended as foreseen, and its owner learns of it if it has failed. -/
def Ended (k : Kernel Environment Activity) (owner child : ProcessId) : Prop :=
  ∃ e, F.ending child = some e ∧ e.time ≤ k.now ∧
    (e.isFailed = true → (k.world.barrier owner).failures ≠ [])

/-- **A process waits for its children.**  Its ending follows from theirs; each of them is still
there or has ended, and a failure that has been reported is that of one of them. -/
structure Awaits (k : Kernel Environment Activity) (q : ProcessId × Activity) : Prop where
  ending : F.ending q.1 =
    (F.children q.1).mapM F.ending >>= fun ends => q.2.awoken.rejoined d rates (F.since q.1) ends
  since : F.since q.1 ≤ k.now
  known : ∀ i ∈ F.children q.1, i < k.spawned
  ended : ∀ i ∈ F.children q.1,
    (∃ p ∈ k.processes, p.1 = i ∧ p.2.role = .synchronous q.1) ∨ F.Ended k q.1 i
  failed : (k.world.barrier q.1).failures ≠ [] →
    ∃ i ∈ F.children q.1, ∃ e, F.ending i = some e ∧ e.isFailed = true

end Forecast

/-- **A forecast for a kernel** on which a number of requests have been submitted. -/
structure Kernel.Foreseen (d : Deployment) (rates : ResourceKey → Option Float) (total : Nat)
    (F : Forecast) (k : Kernel Environment Activity) : Prop where
  queued : k.Queued
  disciplined : k.Disciplined
  delays : k.world.resources.Delays rates
  deterministic : ∀ p ∈ k.processes, p.2.Deterministic
  appointed : ∀ x ∈ k.agenda, ¬ x.task.Joins → F.ending x.process = x.task.ending d rates x.time
  awaits : ∀ q ∈ k.processes, q.2.Joins → F.Awaits d rates k q
  children : ∀ p ∈ k.processes, ∀ o, p.2.role = .synchronous o → p.1 ∈ F.children o
  prompt : ∀ x ∈ k.agenda, x.task.Joins → x.time ≤ k.now ∧
    ((k.world.barrier x.process).remaining = 0 → ∀ ends,
      (F.children x.process).mapM F.ending = some ends → latest (F.since x.process) ends = x.time)
  numbered : ∀ p ∈ k.processes, ∀ n, p.2.role = .request n → p.1 = n
  completions : ∀ c ∈ k.world.completions, c.1 < k.spawned ∧ F.ending c.1 = some c.2.ending
  reported : ∀ n < total, (∃ p ∈ k.processes, p.2.role = .request n) ∨
    ∃ c, (n, c) ∈ k.world.completions

variable {d : Deployment} {rates : ResourceKey → Option Float} {total : Nat} {F F' : Forecast}
  {k k' : Kernel Environment Activity} {id : ProcessId} {a b : Activity}
  {q : ProcessId × Activity} {x : Appointment Activity}

/-! ## Waiting for children -/

namespace Forecast

variable (d rates) in
/-- Nothing changes for those who have been there. -/
lemma forks_before (F : Forecast) (now : SimTime) (owner : ProcessId) {first : ProcessId}
    (children : List Activity) {i : ProcessId} (hi : i < first) :
    (F.forks d rates now owner first children).ending i = F.ending i :=
  if_pos hi

variable (d rates) in
/-- Nobody else waits for other children, or since another time. -/
lemma forks_other (F : Forecast) (now : SimTime) {owner : ProcessId} (first : ProcessId)
    (children : List Activity) {o : ProcessId} (ho : o ≠ owner) :
    (F.forks d rates now owner first children).children o = F.children o ∧
      (F.forks d rates now owner first children).since o = F.since o :=
  ⟨if_neg ho, if_neg ho⟩

variable (d rates) in
/-- The owner waits from now on, for its synchronous children. -/
lemma forks_owner (F : Forecast) (now : SimTime) (owner first : ProcessId)
    (children : List Activity) :
    (F.forks d rates now owner first children).since owner = now ∧
      (F.forks d rates now owner first children).children owner =
        ((Kernel.newborn first children).filter (·.2.role = .synchronous owner)).map Prod.fst :=
  ⟨if_pos rfl, if_pos rfl⟩

/-- The endings of the children are those that the evaluator gives them. -/
lemma forks_ending (F : Forecast) (now : SimTime) (owner first : ProcessId)
    (children : List Activity) : ∀ p ∈ Kernel.newborn first children,
      (F.forks d rates now owner first children).ending p.1 = p.2.ending d rates now := by
  intro p hp
  rw [Kernel.newborn, List.mem_mapIdx] at hp
  obtain ⟨i, hi, rfl⟩ := hp
  simp only [forks, if_neg (Nat.not_lt.mpr (Nat.le_add_right first i)), Nat.add_sub_cancel_left,
    List.getElem?_eq_getElem hi, Option.bind_some]

/-- The owner waits for the children that it has forked synchronously. -/
lemma forks_children (F : Forecast) (now : SimTime) (owner first : ProcessId)
    (children : List Activity) :
    ((F.forks d rates now owner first children).children owner).mapM
        (F.forks d rates now owner first children).ending =
      (children.filter (·.role = .synchronous owner)).mapM (·.ending d rates now) := by
  have hborn : (Kernel.newborn first children).map Prod.snd = children :=
    Kernel.newborn_tasks first children
  have hsplit : (children.filter (·.role = .synchronous owner)) =
      ((Kernel.newborn first children).filter (·.2.role = .synchronous owner)).map Prod.snd := by
    conv_lhs => rw [← hborn, List.filter_map]
    rfl
  rw [hsplit, List.mapM_map, (F.forks_owner d rates now owner first children).2]
  exact mapM_congr Prod.fst fun p hp =>
    forks_ending F now owner first children p (List.mem_of_mem_filter hp)

/-- Waiting goes on while time passes, processes are added and children end as foreseen. -/
lemma Awaits.mono (h : F.Awaits d rates k q)
    (agree : ∀ i < k.spawned, F'.ending i = F.ending i) (own : F.ending q.1 = F'.ending q.1)
    (children : F'.children q.1 = F.children q.1) (since : F'.since q.1 = F.since q.1)
    (now : k.now ≤ k'.now) (spawned : k.spawned ≤ k'.spawned)
    (stays : ∀ p ∈ k.processes, p.2.role = .synchronous q.1 →
      (∃ p' ∈ k'.processes, p'.1 = p.1 ∧ p'.2.role = .synchronous q.1) ∨ F'.Ended k' q.1 p.1)
    (kept : (k.world.barrier q.1).failures ≠ [] → (k'.world.barrier q.1).failures ≠ [])
    (fresh : (k'.world.barrier q.1).failures ≠ [] → (k.world.barrier q.1).failures ≠ [] ∨
      ∃ i ∈ F'.children q.1, ∃ e, F'.ending i = some e ∧ e.isFailed = true) :
    F'.Awaits d rates k' q := by
  have hending : ∀ i ∈ F.children q.1, F'.ending i = F.ending i := fun i hi =>
    agree i (h.known i hi)
  have hends : (F'.children q.1).mapM F'.ending = (F.children q.1).mapM F.ending := by
    rw [children, ← mapM_congr id hending, List.map_id]
  refine ⟨?_, ?_, ?_, ?_, ?_⟩
  · rw [← own, hends, since]
    exact h.ending
  · rw [since]
    exact h.since.trans now
  · rw [children]
    exact fun i hi => (h.known i hi).trans_le spawned
  · rw [children]
    intro i hi
    rcases h.ended i hi with ⟨p, hp, rfl, hrole⟩ | ⟨e, he, htime, hfailed⟩
    · exact stays p hp hrole
    · exact .inr ⟨e, (hending i hi).trans he, htime.trans now, fun hf => kept (hfailed hf)⟩
  · intro hfailures
    rcases fresh hfailures with hold | hnew
    · obtain ⟨i, hi, e, he, hf⟩ := h.failed hold
      exact ⟨i, children ▸ hi, e, (hending i hi).trans he, hf⟩
    · exact hnew

/-- When no child is left, all endings are known, and none is later than now. -/
lemma Awaits.ends (h : F.Awaits d rates k q)
    (childless : ∀ p ∈ k.processes, p.2.role ≠ .synchronous q.1) :
    ∃ ends, (F.children q.1).mapM F.ending = some ends ∧ (∀ e ∈ ends, e.time ≤ k.now) ∧
      (ends.any Ending.isFailed = true ↔ (k.world.barrier q.1).failures ≠ []) := by
  have hended : ∀ i ∈ F.children q.1, F.Ended k q.1 i := by
    intro i hi
    rcases h.ended i hi with ⟨p, hp, -, hrole⟩ | hended
    · exact absurd hrole (childless p hp)
    · exact hended
  obtain ⟨ends, hends⟩ := exists_mapM fun i hi => (hended i hi).imp fun e he => he.1
  obtain ⟨hforth, hback⟩ := mem_mapM hends
  refine ⟨ends, hends, ?_, ?_, ?_⟩
  · intro e he
    obtain ⟨i, hi, hie⟩ := hback e he
    obtain ⟨e', he', htime, -⟩ := hended i hi
    rw [hie] at he'
    injection he' with he'
    exact he' ▸ htime
  · intro hany
    obtain ⟨e, he, hfailed⟩ := List.any_eq_true.mp hany
    obtain ⟨i, hi, hie⟩ := hback e he
    obtain ⟨e', he', -, hreported⟩ := hended i hi
    rw [hie] at he'
    injection he' with he'
    exact hreported (he' ▸ hfailed)
  · intro hfailures
    obtain ⟨i, hi, e, hie, hfailed⟩ := h.failed hfailures
    obtain ⟨e', he', hie'⟩ := hforth i hi
    rw [hie] at hie'
    injection hie' with hie'
    exact List.any_eq_true.mpr ⟨e', he', hie' ▸ hfailed⟩

/-- The last child that ends ends at the latest time. -/
lemma Awaits.latest_eq (h : F.Awaits d rates k q)
    (childless : ∀ p ∈ k.processes, p.2.role ≠ .synchronous q.1) {i : ProcessId}
    (hi : i ∈ F.children q.1) {e : Ending} (he : F.ending i = some e) (htime : e.time = k.now)
    {ends : List Ending} (hends : (F.children q.1).mapM F.ending = some ends) :
    latest (F.since q.1) ends = k.now := by
  obtain ⟨ends', hends', htimes, -⟩ := h.ends childless
  rw [hends] at hends'
  injection hends' with hends'
  subst hends'
  refine le_antisymm (latest_le h.since htimes) ?_
  obtain ⟨e', he', hie'⟩ := (mem_mapM hends).1 i hi
  rw [he] at hie'
  injection hie' with hie'
  rw [← htime, hie']
  exact le_latest_of_mem he'

end Forecast

/-! ## Appointments -/

namespace Kernel

/-- A process that joins and is not blocked goes on now. -/
lemma Foreseen.now_of_joins (h : k.Foreseen d rates total F) (hx : x ∈ k.agenda)
    (joins : x.task.Joins) : x.time = k.now :=
  le_antisymm (h.prompt x hx joins).1 (h.queued.joined.order.toLined.now_le hx)

/-- Where no resource has a line, whoever is blocked joins. -/
lemma Foreseen.blocked_joins (h : k.Foreseen d rates total F) (hq : q ∈ k.blocked) :
    q.2.Joins := by
  rcases h.queued.joined.blocked q hq with hjoins | ⟨load, hserves⟩
  · exact hjoins
  · exact absurd (h.delays.line load.key) (h.queued.lined q hq load hserves)

/-! ## Steps without a turn -/

lemma Quiet.foreseen (h : k.Foreseen d rates total F) (quiet : Quiet (program d) k k') :
    k'.Foreseen d rates total F := by
  have hsteady : k.world.Steady k'.world := by
    rcases quiet.world with hworld | ⟨time, wakeups, hworld⟩
    · exact hworld ▸ .refl _
    · exact hworld ▸ (Environment.Steady.refl _).note _
  have hprocesses := quiet.processes
  refine ⟨quiet.queued h.queued, quiet.disciplined h.disciplined, hsteady.resources ▸ h.delays, ?_, ?_,
    ?_, ?_, ?_, ?_, ?_, ?_⟩
  · rw [hprocesses]
    exact h.deterministic
  · rw [quiet.agenda]
    exact h.appointed
  · rw [hprocesses]
    intro q hq joins
    refine (h.awaits q hq joins).mono (fun _ _ => rfl) rfl rfl rfl quiet.now
      (le_of_eq quiet.spawned.symm) ?_ ?_ ?_
    · intro p hp hrole
      rw [hprocesses]
      exact .inl ⟨p, hp, rfl, hrole⟩
    · rw [hsteady.barrier]
      exact fun h => h
    · rw [hsteady.barrier]
      exact .inl
  · rw [hprocesses]
    exact h.children
  · rw [quiet.agenda]
    intro x hx joins
    rw [hsteady.barrier]
    exact ⟨(h.prompt x hx joins).1.trans quiet.now, (h.prompt x hx joins).2⟩
  · rw [hprocesses]
    exact h.numbered
  · rw [hsteady.completions, quiet.spawned]
    exact h.completions
  · rw [hsteady.completions, hprocesses]
    exact h.reported

end Kernel

end ServiceSim
