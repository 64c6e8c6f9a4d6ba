import ServiceSim.Proofs.Kernel.Stopping
import Mathlib.Data.List.Forall2

/-!
# Kernels in lockstep

The kernel only moves processes about: it never looks at what they still have to do, nor at what they
share.  So if the turns of two processes that are related leave related worlds and related processes,
two kernels that differ only in this way stay so.  They take their steps together
(`step_related`), and whatever is observed of the processes that run is related step by step
(`observations_related`).
-/

namespace ServiceSim

variable {World Task Observation : Type} {W : World → World → Prop} {T : Task → Task → Prop}

/-- Two processes go on in the same way, with related tasks. -/
inductive Next.Related (T : Task → Task → Prop) : Next Task → Next Task → Prop
  | proceed {a b : Task} : T a b → Related T (.proceed a) (.proceed b)
  | hold (delay : Float) {a b : Task} : T a b → Related T (.hold delay a) (.hold delay b)
  | block {a b : Task} : T a b → Related T (.block a) (.block b)
  | finish : Related T .finish .finish

/-- Two turns wake the same processes and leave everything else related. -/
structure Turn.Related (W : World → World → Prop) (T : Task → Task → Prop)
    (t₁ t₂ : Turn World Task) : Prop where
  world : W t₁.world t₂.world
  woken : t₁.woken = t₂.woken
  spawned : List.Forall₂ T t₁.spawned t₂.spawned
  next : t₁.next.Related T t₂.next

/-- The turns of related processes in related worlds are related. -/
structure Program.Respects (program : Program World Task) (W : World → World → Prop)
    (T : Task → Task → Prop) : Prop where
  turn : ∀ now id {w₁ w₂ a₁ a₂}, W w₁ w₂ → T a₁ a₂ →
    (program.turn now id w₁ a₁).Related W T (program.turn now id w₂ a₂)
  advanced : ∀ now due {w₁ w₂}, W w₁ w₂ →
    W (program.advanced now due w₁) (program.advanced now due w₂)

namespace Kernel

/-- Two processes have the same identity and related tasks. -/
def PairRelated (T : Task → Task → Prop) (p q : ProcessId × Task) : Prop := p.1 = q.1 ∧ T p.2 q.2

/-- Two parked processes are due together, with related tasks. -/
structure WakeupRelated (T : Task → Task → Prop) (v w : Wakeup Task) : Prop where
  due : v.due = w.due
  order : v.order = w.order
  process : v.process = w.process
  task : T v.task w.task

/-- Two processes may be running: the same one with related tasks, or none. -/
inductive RunningRelated (T : Task → Task → Prop) :
    Option (ProcessId × Task) → Option (ProcessId × Task) → Prop
  | idle : RunningRelated T none none
  | runs {id : ProcessId} {a b : Task} : T a b → RunningRelated T (some (id, a)) (some (id, b))

/-- Two kernels have the same processes in the same places, with related tasks and related worlds. -/
structure Related (W : World → World → Prop) (T : Task → Task → Prop) (k₁ k₂ : Kernel World Task) :
    Prop where
  now : k₁.now = k₂.now
  world : W k₁.world k₂.world
  spawned : k₁.spawned = k₂.spawned
  parkings : k₁.parkings = k₂.parkings
  running : RunningRelated T k₁.running k₂.running
  budget : k₁.budget = k₂.budget
  ready : List.Forall₂ (PairRelated T) k₁.ready k₂.ready
  incoming : List.Forall₂ (PairRelated T) k₁.incoming k₂.incoming
  parked : List.Forall₂ (WakeupRelated T) k₁.parked k₂.parked
  blocked : List.Forall₂ (PairRelated T) k₁.blocked k₂.blocked

/-- Two steps lead to related kernels, or both end. -/
inductive Step.Related (W : World → World → Prop) (T : Task → Task → Prop) :
    Step World Task → Step World Task → Prop
  | goes {k₁ k₂ : Kernel World Task} : k₁.Related W T k₂ → Related W T (.goes k₁) (.goes k₂)
  | ends {k₁ k₂ : Kernel World Task} : k₁.Related W T k₂ → Related W T (.ends k₁) (.ends k₂)

variable {program : Program World Task} {stop : Option SimTime} {k₁ k₂ : Kernel World Task}

lemma RunningRelated.cases {running₁ running₂ : Option (ProcessId × Task)}
    (h : RunningRelated T running₁ running₂) : (running₁ = none ∧ running₂ = none) ∨
      ∃ id a b, running₁ = some (id, a) ∧ running₂ = some (id, b) ∧ T a b := by
  cases h with
  | idle => exact .inl ⟨rfl, rfl⟩
  | runs hab => exact .inr ⟨_, _, _, rfl, rfl, hab⟩

lemma nil_or_cons {α : Type} {R : α → α → Prop} {l₁ l₂ : List α} (h : List.Forall₂ R l₁ l₂) :
    (l₁ = [] ∧ l₂ = []) ∨
      ∃ a b rest₁ rest₂, l₁ = a :: rest₁ ∧ l₂ = b :: rest₂ ∧ R a b ∧ List.Forall₂ R rest₁ rest₂ := by
  cases h with
  | nil => exact .inl ⟨rfl, rfl⟩
  | cons hab hrest => exact .inr ⟨_, _, _, _, rfl, rfl, hab, hrest⟩

/-! ## Waking, spawning and parking -/

lemma find_related (id : ProcessId) {l₁ l₂ : List (ProcessId × Task)}
    (h : List.Forall₂ (PairRelated T) l₁ l₂) :
    (l₁.find? (·.1 == id) = none ∧ l₂.find? (·.1 == id) = none) ∨
      ∃ p q, l₁.find? (·.1 == id) = some p ∧ l₂.find? (·.1 == id) = some q ∧ PairRelated T p q := by
  induction h with
  | nil => exact .inl ⟨rfl, rfl⟩
  | @cons p q rest₁ rest₂ hpq _ ih =>
    rw [List.find?_cons, List.find?_cons, ← hpq.1]
    cases p.1 == id with
    | true => exact .inr ⟨p, q, rfl, rfl, hpq⟩
    | false => exact ih

lemma wake_related (h : k₁.Related W T k₂) (id : ProcessId) :
    (k₁.wake id).Related W T (k₂.wake id) := by
  unfold wake
  rcases find_related id h.blocked with ⟨h₁, h₂⟩ | ⟨p, q, h₁, h₂, hpq⟩
  · rw [h₁, h₂]
    exact h
  · rw [h₁, h₂]
    have hready := List.rel_append h.ready (List.Forall₂.cons hpq .nil)
    have hblocked : List.Forall₂ (PairRelated T) (k₁.blocked.filter (·.1 != id))
        (k₂.blocked.filter (·.1 != id)) := by
      refine List.rel_filter (fun p q hpq => ?_) h.blocked
      dsimp only
      rw [hpq.1]
    exact { h with ready := hready, blocked := hblocked }

lemma wakeAll_related (h : k₁.Related W T k₂) (ids : List ProcessId) :
    (k₁.wakeAll ids).Related W T (k₂.wakeAll ids) := by
  induction ids generalizing k₁ k₂ with
  | nil => exact h
  | cons id rest ih => exact ih (wake_related h id)

lemma spawn_related (h : k₁.Related W T k₂) {a b : Task} (hab : T a b) :
    (k₁.spawn a).Related W T (k₂.spawn b) := by
  have hpair : PairRelated T (k₁.spawned, a) (k₂.spawned, b) := ⟨h.spawned, hab⟩
  exact { h with
    spawned := congrArg (· + 1) h.spawned
    incoming := List.rel_append h.incoming (.cons hpair .nil) }

lemma spawnAll_related (h : k₁.Related W T k₂) {tasks₁ tasks₂ : List Task}
    (htasks : List.Forall₂ T tasks₁ tasks₂) :
    (k₁.spawnAll tasks₁).Related W T (k₂.spawnAll tasks₂) := by
  induction htasks generalizing k₁ k₂ with
  | nil => exact h
  | cons hab _ ih => exact ih (spawn_related h hab)

lemma insertWakeup_related {v w : Wakeup Task} (hvw : WakeupRelated T v w)
    {l₁ l₂ : List (Wakeup Task)} (h : List.Forall₂ (WakeupRelated T) l₁ l₂) :
    List.Forall₂ (WakeupRelated T) (insertWakeup v l₁) (insertWakeup w l₂) := by
  induction h with
  | nil => exact .cons hvw .nil
  | @cons x y rest₁ rest₂ hxy hrest ih =>
    rw [insertWakeup, insertWakeup, hvw.due, hxy.due]
    split_ifs
    · exact .cons hxy ih
    · exact .cons hvw (.cons hxy hrest)

lemma park_related (h : k₁.Related W T k₂) (id : ProcessId) (due : SimTime) {a b : Task}
    (hab : T a b) : (k₁.park id due a).Related W T (k₂.park id due b) := by
  have hparked := insertWakeup_related (v := ⟨due, k₁.parkings, id, a⟩)
    (w := ⟨due, k₂.parkings, id, b⟩) ⟨rfl, h.parkings, rfl, hab⟩ h.parked
  exact { h with parkings := congrArg (· + 1) h.parkings, parked := hparked }

/-! ## Steps -/

lemma goOn_related (h : k₁.Related W T k₂) (id : ProcessId) {next₁ next₂ : Next Task}
    (hnext : next₁.Related T next₂) : (k₁.goOn id next₁).Related W T (k₂.goOn id next₂) := by
  cases hnext with
  | proceed hab => exact { h with running := .runs hab }
  | hold delay hab =>
    by_cases hover : k₁.now.after delay ≤ k₁.now
    · have hover₂ : k₂.now.after delay ≤ k₂.now := h.now ▸ hover
      simp only [goOn, if_pos hover, if_pos hover₂]
      exact { h with running := .runs hab }
    · have hover₂ : ¬ k₂.now.after delay ≤ k₂.now := h.now ▸ hover
      simp only [goOn, ← h.now, if_neg hover]
      exact { park_related h id _ hab with now := h.now, running := .idle }
  | @block a b hab =>
    have hpair : PairRelated T (id, a) (id, b) := ⟨rfl, hab⟩
    exact { h with running := .idle, blocked := List.rel_append h.blocked (.cons hpair .nil) }
  | finish => exact { h with running := .idle, budget := rfl }

lemma applyTurn_related (h : k₁.Related W T k₂) (id : ProcessId) {t₁ t₂ : Turn World Task}
    (ht : t₁.Related W T t₂) : (k₁.applyTurn id t₁).Related W T (k₂.applyTurn id t₂) := by
  unfold applyTurn
  have hworld : { k₁ with world := t₁.world }.Related W T { k₂ with world := t₂.world } :=
    { h with world := ht.world }
  rw [ht.woken]
  exact goOn_related (spawnAll_related (wakeAll_related hworld t₂.woken) ht.spawned) id ht.next

lemma beginSweep_related (h : k₁.Related W T k₂) : k₁.beginSweep.Related W T k₂.beginSweep := by
  have hready := List.rel_append h.ready h.incoming
  have halive : (k₁.ready ++ k₁.incoming).length + k₁.parked.length + k₁.blocked.length =
      (k₂.ready ++ k₂.incoming).length + k₂.parked.length + k₂.blocked.length := by
    rw [hready.length_eq, h.parked.length_eq, h.blocked.length_eq]
  exact { h with ready := hready, incoming := .nil, budget := halive }

/-- Parked processes that are related are due alike. -/
lemma due_related {l₁ l₂ : List (Wakeup Task)} (h : List.Forall₂ (WakeupRelated T) l₁ l₂)
    (now : SimTime) :
    List.Forall₂ (WakeupRelated T) (l₁.takeWhile (·.due ≤ now)) (l₂.takeWhile (·.due ≤ now)) ∧
      List.Forall₂ (WakeupRelated T) (l₁.dropWhile (·.due ≤ now)) (l₂.dropWhile (·.due ≤ now)) := by
  induction h with
  | nil => exact ⟨.nil, .nil⟩
  | @cons v w rest₁ rest₂ hvw hrest ih =>
    simp only [List.takeWhile_cons, List.dropWhile_cons, hvw.due]
    split_ifs
    · exact ⟨.cons hvw ih.1, ih.2⟩
    · exact ⟨.nil, .cons hvw hrest⟩

lemma advanceTo_related (respects : program.Respects W T) (h : k₁.Related W T k₂)
    (time : SimTime) :
    (k₁.advanceTo program time).Related W T (k₂.advanceTo program time) := by
  obtain ⟨hdue, hlater⟩ := due_related h.parked (k₁.now.later time)
  unfold advanceTo
  dsimp only
  rw [← h.now, ← hdue.length_eq]
  have hready : List.Forall₂ (PairRelated T)
      ((k₁.parked.takeWhile (·.due ≤ k₁.now.later time)).map fun w => (w.process, w.task))
      ((k₂.parked.takeWhile (·.due ≤ k₁.now.later time)).map fun w => (w.process, w.task)) :=
    List.rel_map (fun _ _ hvw => ⟨hvw.process, hvw.task⟩) hdue
  exact { h with
    now := rfl
    world := respects.advanced _ _ h.world
    ready := List.rel_append h.ready hready
    parked := hlater
    budget := rfl }

lemma advance_related (respects : program.Respects W T) (h : k₁.Related W T k₂)
    (stop : Option SimTime) :
    (k₁.advance program stop).Related W T (k₂.advance program stop) := by
  rcases nil_or_cons h.parked with ⟨h₁, h₂⟩ | ⟨v, w, rest₁, rest₂, h₁, h₂, hvw, -⟩
  · simp only [advance, h₁, h₂]
    exact .ends h
  · have hgoes := advanceTo_related respects h w.due
    cases stop with
    | none =>
      rw [advance_none h₁, advance_none h₂, hvw.due]
      exact .goes hgoes
    | some s =>
      rw [advance_some h₁, advance_some h₂, hvw.due]
      split_ifs
      · exact .ends { h with now := congrArg (SimTime.later · s) h.now }
      · exact .goes hgoes

/-- **Related kernels take related steps.** -/
theorem step_related (respects : program.Respects W T) (h : k₁.Related W T k₂)
    (stop : Option SimTime) : (k₁.step program stop).Related W T (k₂.step program stop) := by
  rcases h.running.cases with ⟨h₁, h₂⟩ | ⟨id, a, b, h₁, h₂, hab⟩
  · rcases nil_or_cons h.ready with ⟨hr₁, hr₂⟩ | ⟨p, q, rest₁, rest₂, hr₁, hr₂, hpq, hrest⟩
    · have hincoming : k₁.incoming.isEmpty = k₂.incoming.isEmpty := by
        rcases nil_or_cons h.incoming with ⟨hi₁, hi₂⟩ | ⟨p, q, rest₁, rest₂, hi₁, hi₂, -⟩
        · rw [hi₁, hi₂]
        · rw [hi₁, hi₂]
          rfl
      simp only [step, h₁, h₂, hr₁, hr₂, hincoming]
      split_ifs
      · exact advance_related respects h stop
      · exact .goes (beginSweep_related h)
    · have hbudget := h.budget
      cases hb : k₂.budget with
      | zero =>
        simp only [step, h₁, h₂, hr₁, hr₂, hbudget, hb]
        exact .goes (beginSweep_related h)
      | succ budget =>
        obtain ⟨id, a⟩ := p
        obtain ⟨id', b⟩ := q
        obtain ⟨rfl, hab⟩ : id = id' ∧ T a b := hpq
        simp only [step, h₁, h₂, hr₁, hr₂, hbudget, hb]
        exact .goes { h with running := .runs hab, ready := hrest, budget := rfl }
  · simp only [step, h₁, h₂]
    rw [h.now]
    exact .goes (applyTurn_related h _ (respects.turn _ _ h.world hab))

/-! ## Runs -/

/-- Two runs both return, with related kernels, or neither does. -/
inductive RunRelated (W : World → World → Prop) (T : Task → Task → Prop) :
    Option (Kernel World Task) → Option (Kernel World Task) → Prop
  | goes : RunRelated W T none none
  | returns {k₁ k₂ : Kernel World Task} : k₁.Related W T k₂ → RunRelated W T (some k₁) (some k₂)

/-- **Related kernels have related runs.** -/
theorem run_related (respects : program.Respects W T) (h : k₁.Related W T k₂)
    (stop : Option SimTime) (fuel : Nat) :
    RunRelated W T (k₁.run program stop fuel) (k₂.run program stop fuel) := by
  induction fuel generalizing k₁ k₂ with
  | zero => exact .goes
  | succ fuel ih =>
    have hstep := step_related respects h stop
    rw [run, run]
    generalize k₁.step program stop = step₁ at hstep ⊢
    generalize k₂.step program stop = step₂ at hstep ⊢
    cases hstep with
    | goes hk => exact ih hk
    | ends hk => exact .returns hk

/-- What is observed of the process that runs: when, of whom, and what. -/
def observation (observe : SimTime → ProcessId → World → Task → Observation)
    (k : Kernel World Task) : Option (SimTime × ProcessId × Observation) :=
  k.running.map fun (id, task) => (k.now, id, observe k.now id k.world task)

/-- What is observed in a run, in order. -/
def observations (observe : SimTime → ProcessId → World → Task → Observation)
    (program : Program World Task) (stop : Option SimTime) :
    (fuel : Nat) → Kernel World Task → List (SimTime × ProcessId × Observation)
  | 0, _ => []
  | fuel + 1, k => (k.observation observe).toList ++
    match k.step program stop with
    | .ends _ => []
    | .goes k => observations observe program stop fuel k

/-- Two observations are made at the same time of the same process, and are related. -/
structure ObservationRelated (O : Observation → Observation → Prop)
    (o₁ o₂ : SimTime × ProcessId × Observation) : Prop where
  time : o₁.1 = o₂.1
  process : o₁.2.1 = o₂.2.1
  observed : O o₁.2.2 o₂.2.2

/-- **In related kernels related things are observed**, one by one. -/
theorem observations_related (respects : program.Respects W T)
    {observe : SimTime → ProcessId → World → Task → Observation}
    {O : Observation → Observation → Prop}
    (observed : ∀ now id {w₁ w₂ a₁ a₂}, W w₁ w₂ → T a₁ a₂ →
      O (observe now id w₁ a₁) (observe now id w₂ a₂))
    (h : k₁.Related W T k₂) (stop : Option SimTime) (fuel : Nat) :
    List.Forall₂ (ObservationRelated O) (k₁.observations observe program stop fuel)
      (k₂.observations observe program stop fuel) := by
  induction fuel generalizing k₁ k₂ with
  | zero => exact .nil
  | succ fuel ih =>
    have hfirst : List.Forall₂ (ObservationRelated O) (k₁.observation observe).toList
        (k₂.observation observe).toList := by
      rw [observation, observation]
      rcases h.running.cases with ⟨h₁, h₂⟩ | ⟨id, a, b, h₁, h₂, hab⟩
      · rw [h₁, h₂]
        exact .nil
      · rw [h₁, h₂, Option.map_some, Option.map_some, h.now]
        exact .cons ⟨rfl, rfl, observed _ _ h.world hab⟩ .nil
    have hstep := step_related respects h stop
    rw [observations, observations]
    refine List.rel_append hfirst ?_
    generalize k₁.step program stop = step₁ at hstep ⊢
    generalize k₂.step program stop = step₂ at hstep ⊢
    cases hstep with
    | goes hk => exact ih hk
    | ends _ => exact .nil

end Kernel

end ServiceSim
