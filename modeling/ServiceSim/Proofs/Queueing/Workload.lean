import ServiceSim.Proofs.Interpreter.Queues
import ServiceSim.Proofs.Kernel.Order
import ServiceSim.Proofs.Queueing.Errand
import ServiceSim.Proofs.Queueing.Schedule

/-!
# Workloads

The requests of a workload run errands to one resource that serves in order.  `Kernel.Works` says
how far the process of each of them has come, and when it goes on.  Demands are issued in the order
of the arrivals: whoever arrives at some time runs before all that arrive at this time and have
entered later (`Works.first`).
-/

namespace ServiceSim

open Activity

/-- Requests that run errands to one resource. -/
structure Workload where
  /-- Where they run. -/
  deployment : Deployment
  /-- The resource. -/
  key : ResourceKey
  /-- The number of its servers. -/
  servers : Nat
  /-- The work that a server does in a second. -/
  rate : Float
  /-- The amount of work that a request asks for. -/
  amount : RequestSpec → Float
  /-- The requests, in the order of submission. -/
  specs : List RequestSpec
  errands : ∀ spec ∈ specs, spec.IsErrand deployment key (amount spec)
  arrivals : ∀ spec ∈ specs, spec.arrival.seconds.isNaN = false

/-! ## Stages -/

namespace Activity

variable {d : Deployment} {key : ResourceKey} {amount service : Float} {spec : RequestSpec}
  {a b : Activity} {load : Load} {started : SimTime}

/-- Whether the activity still waits for its arrival. -/
def isPending (a : Activity) : Bool :=
  match a.tasks with
  | .arrive _ :: _ => true
  | _ => false

/-- The activity waits for a server, or has been given it and has not gone on yet. -/
def Waits (key : ResourceKey) (service : Float) (a : Activity) : Prop :=
  ∃ load rest, a.tasks = .serve load :: rest ∧ Homebound { a with tasks := rest } ∧
    load.key = key ∧ load.service = service

/-- The activity is served. -/
def Served (key : ResourceKey) (a : Activity) : Prop :=
  ∃ load started rest, a.tasks = .release load started :: rest ∧
    Homebound { a with tasks := rest } ∧ load.key = key

/-- The resource is one that the activity is engaged on, if it is engaged. -/
lemma Homebound.not_engaged (h : a.Homebound) : a.engaged = none := by
  have hclosing := h.tasks
  rw [engaged]
  split
  next load rest htasks => exact (hclosing (.serve load) (htasks ▸ List.mem_cons_self)).elim
  next load started rest htasks =>
    exact (hclosing (.release load started) (htasks ▸ List.mem_cons_self)).elim
  · rfl

lemma Homebound.not_isPending (h : a.Homebound) : a.isPending = false := by
  have hclosing := h.tasks
  rw [isPending]
  split
  next time rest htasks => exact (hclosing (.arrive time) (htasks ▸ List.mem_cons_self)).elim
  · rfl

lemma Pending.isPending (h : a.Pending d key amount spec) : a.isPending = true := by
  obtain ⟨behavior, demand, -, htasks⟩ := h.tasks
  rw [Activity.isPending, htasks]

lemma Pending.not_engaged (h : a.Pending d key amount spec) : a.engaged = none := by
  obtain ⟨behavior, demand, -, htasks⟩ := h.tasks
  rw [engaged, htasks]

lemma Outbound.head (h : a.Outbound d key amount spec) : a.isPending = false ∧ a.engaged = none := by
  rcases h with h | ⟨demand, h⟩
  · obtain ⟨behavior, demand, -, htasks⟩ := h.tasks
    rw [isPending, engaged, htasks]
    exact ⟨rfl, rfl⟩
  · have htasks := h.tasks
    rw [isPending, engaged]
    cases hleads : a.tasks with
    | nil =>
      rw [hleads] at htasks
      cases htasks
    | cons task rest =>
      rw [hleads] at htasks
      cases htasks <;> exact ⟨rfl, rfl⟩

/-- What is seen of an activity whose demand has been issued and is not completed. -/
lemma Waits.head (h : a.Waits key service) :
    a.isOutbound = false ∧ a.isPending = false ∧ a.engaged = some key := by
  obtain ⟨load, rest, htasks, hrest, rfl, -⟩ := h
  rw [isOutbound, isPending, engaged, htasks]
  exact ⟨hrest.not_isOutbound, rfl, rfl⟩

lemma Served.head (h : a.Served key) :
    a.isOutbound = false ∧ a.isPending = false ∧ a.engaged = some key := by
  obtain ⟨load, started, rest, htasks, hrest, rfl⟩ := h
  rw [isOutbound, isPending, engaged, htasks]
  exact ⟨hrest.not_isOutbound, rfl, rfl⟩

end Activity

namespace Workload

variable (w : Workload)

/-- What a request asks of the resource. -/
def job (spec : RequestSpec) : Job := ⟨spec.arrival.later .zero, w.amount spec / w.rate⟩

/-- What the requests ask of the resource. -/
def jobs : List Job := w.specs.map w.job

/-- When servers become free before anything has been asked: all of them are. -/
def free : List SimTime := List.replicate w.servers .zero

/-- How far an activity that runs an errand has come, and when it goes on. -/
inductive Stage (spec : RequestSpec) : Activity → SimTime → Prop where
  /-- It has not arrived. -/
  | pending {a : Activity} : a.Pending w.deployment w.key (w.amount spec) spec →
      Stage spec a .zero
  /-- It is on its way to its demand. -/
  | outbound {a : Activity} : a.Outbound w.deployment w.key (w.amount spec) spec →
      Stage spec a (w.job spec).arrival
  /-- It has been given a server. -/
  | waits {a : Activity} {time : SimTime} : a.Waits w.key (w.job spec).service → Stage spec a time
  /-- It is served. -/
  | served {a : Activity} {time : SimTime} : a.Served w.key → Stage spec a time
  /-- Its demand has been completed. -/
  | homebound {a : Activity} {time : SimTime} : a.Homebound → Stage spec a time

variable {w} {spec : RequestSpec} {a : Activity} {time : SimTime}

lemma zero_le_arrival (spec : RequestSpec) : SimTime.zero ≤ (w.job spec).arrival :=
  SimTime.le_later_right _ _

lemma Stage.zero_of_pending (h : w.Stage spec a time) (pending : a.isPending = true) :
    time = .zero := by
  cases h with
  | pending => rfl
  | outbound h => rw [h.head.1] at pending; cases pending
  | waits h => rw [h.head.2.1] at pending; cases pending
  | served h => rw [h.head.2.1] at pending; cases pending
  | homebound h => rw [h.not_isPending] at pending; cases pending

lemma Stage.arrival_of_outbound (h : w.Stage spec a time) (outbound : a.isOutbound = true)
    (pending : a.isPending = false) : time = (w.job spec).arrival := by
  cases h with
  | pending h => rw [h.isPending] at pending; cases pending
  | outbound => rfl
  | waits h => rw [h.head.1] at outbound; cases outbound
  | served h => rw [h.head.1] at outbound; cases outbound
  | homebound h => rw [h.not_isOutbound] at outbound; cases outbound

/-- Whoever is outbound goes on at the arrival at the latest. -/
lemma Stage.le_arrival (h : w.Stage spec a time) (outbound : a.isOutbound = true) :
    time ≤ (w.job spec).arrival := by
  cases hpending : a.isPending with
  | true =>
    rw [h.zero_of_pending hpending]
    exact zero_le_arrival spec
  | false => exact le_of_eq (h.arrival_of_outbound outbound hpending)

lemma Stage.outbound_of_pending (h : w.Stage spec a time) (pending : a.isPending = true) :
    a.isOutbound = true := by
  cases h with
  | pending h => exact h.isOutbound
  | outbound h => exact h.isOutbound
  | waits h => rw [h.head.2.1] at pending; cases pending
  | served h => rw [h.head.2.1] at pending; cases pending
  | homebound h => rw [h.not_isPending] at pending; cases pending

lemma Stage.zero_le (h : w.Stage spec a time) (outbound : a.isOutbound = true) :
    SimTime.zero ≤ time := by
  cases hpending : a.isPending with
  | true => exact le_of_eq (h.zero_of_pending hpending).symm
  | false =>
    rw [h.arrival_of_outbound outbound hpending]
    exact zero_le_arrival spec

/-- Whoever is engaged waits for a server of the resource, or is served. -/
lemma Stage.waits_or_served (h : w.Stage spec a time) {key : ResourceKey}
    (engaged : a.engaged = some key) : a.Waits w.key (w.job spec).service ∨ a.Served w.key := by
  cases h with
  | pending h => rw [h.not_engaged] at engaged; cases engaged
  | outbound h => rw [h.head.2] at engaged; cases engaged
  | waits h => exact .inl h
  | served h => exact .inr h
  | homebound h => rw [h.not_engaged] at engaged; cases engaged

/-- Nobody is engaged on another resource. -/
lemma Stage.key_of_engaged (h : w.Stage spec a time) {key : ResourceKey}
    (engaged : a.engaged = some key) : key = w.key := by
  have hkey : a.engaged = some w.key := by
    rcases h.waits_or_served engaged with hwaits | hserved
    · exact hwaits.head.2.2
    · exact hserved.head.2.2
  exact Option.some.inj (engaged.symm.trans hkey)

lemma Stage.waits_of_serves (h : w.Stage spec a time) {load : Load} {rest : List Task}
    (htasks : a.tasks = .serve load :: rest) : a.Waits w.key load.service := by
  rcases h.waits_or_served (Serves.engaged ⟨rest, htasks⟩) with hwaits | hserved
  · obtain ⟨load', rest', htasks', hrest, hkey, -⟩ := hwaits
    rw [htasks] at htasks'
    cases htasks'
    exact ⟨load, rest, htasks, hrest, hkey, rfl⟩
  · obtain ⟨load', started, rest', htasks', -⟩ := hserved
    rw [htasks] at htasks'
    cases htasks'

lemma Stage.served_of_releases (h : w.Stage spec a time) {load : Load} {started : SimTime}
    {rest : List Task} (htasks : a.tasks = .release load started :: rest) : a.Served w.key := by
  rcases h.waits_or_served (engaged_of_tasks_release htasks) with hwaits | hserved
  · obtain ⟨load', rest', htasks', -⟩ := hwaits
    rw [htasks] at htasks'
    cases htasks'
  · exact hserved

/-- **Every turn is a stride.** -/
lemma Stage.stride (h : w.Stage spec a time) (hspec : spec ∈ w.specs) {env : Environment}
    {r : ActiveResource} (found : env.resources.find w.key.1 w.key.2 = .ok r) {number : Nat}
    (role : a.role = .request number) (now : SimTime) (id : ProcessId) :
    Stride w.deployment w.key (w.amount spec) spec now id env a
      (a.turn w.deployment now id env) := by
  obtain ⟨behavior, demand, errand⟩ := w.errands spec hspec
  cases h with
  | pending h => exact h.stride
  | outbound h =>
    rcases h with h | ⟨demand, h⟩
    · exact h.stride
    · exact h.stride errand.valid found
  | waits h =>
    obtain ⟨load, rest, htasks, hrest, -⟩ := h
    rw [turn, advance, htasks]
    exact .starts (b := { a with tasks := rest }) htasks ((Environment.Steady.refl env).note _)
      hrest rfl
  | served h =>
    obtain ⟨load, started, rest, htasks, hrest, -⟩ := h
    rw [turn, advance, htasks]
    exact .completes (b := { a with tasks := rest }) htasks rfl rfl hrest rfl
  | homebound h => exact h.stride role

end Workload

/-! ## Processes of a workload -/

namespace Kernel

/-- **The processes of a workload** are at a stage of their errands.  Whoever waits for a server has
arrived, and those that are outbound go on in the order of submission if they do so at one time. -/
structure Works (w : Workload) (k : Kernel Environment Activity) : Prop where
  queued : k.Queued
  rate : k.world.resources.rate? w.key = some w.rate
  line : ∃ s, k.world.resources.line w.key = some s ∧ s.count = w.servers
  stage : ∀ x ∈ k.agenda, ∃ spec, w.specs[x.process]? = some spec ∧ w.Stage spec x.task x.time
  waits : ∀ q ∈ k.blocked, ∃ spec, w.specs[q.1]? = some spec ∧
    q.2.Waits w.key (w.job spec).service ∧ (w.job spec).arrival ≤ k.now
  numbered : ∀ p ∈ k.processes, p.2.role = .request p.1
  inOrder : k.InOrder fun a => a.isOutbound = true
  fresh : ∀ x ∈ k.agenda, x.task.isPending = true → ∀ y ∈ k.agenda, y.task.isOutbound = true →
    y.task.isPending = false → y.process < x.process

variable {w : Workload} {k k' : Kernel Environment Activity} {id : ProcessId} {a : Activity}
  {spec : RequestSpec} {turn : Turn Environment Activity} {x : Appointment Activity}

/-- The process that runs is at a stage of its errand. -/
lemma Works.runner (h : k.Works w) (runs : k.running = some (id, a)) :
    ∃ spec, w.specs[id]? = some spec ∧ w.Stage spec a k.now :=
  h.stage ⟨id, a, k.now⟩ (running_agenda runs)

/-- **Whoever arrives now runs before all that are outbound**: those that arrive later, and those
that arrive now and have a higher number. -/
lemma Works.first (h : k.Works w) (runs : k.running = some (id, a))
    (outbound : a.isOutbound = true) (hx : x ∈ k.others) (hxo : x.task.isOutbound = true)
    (hspec : w.specs[x.process]? = some spec) :
    k.now < (w.job spec).arrival ∨ k.now = (w.job spec).arrival ∧ id < x.process := by
  obtain ⟨spec', hspec', hstage⟩ := h.stage x (mem_agenda_of_others hx)
  rw [hspec] at hspec'
  injection hspec' with hspec'
  subst hspec'
  have hle := hstage.le_arrival hxo
  rcases h.inOrder.first h.queued.joined.order.toLined runs outbound hx hxo with hlt | ⟨heq, hid⟩
  · exact .inl (hlt.trans_le hle)
  · rcases lt_or_eq_of_le (heq.trans_le hle) with hlt | heq
    · exact .inl hlt
    · exact .inr ⟨heq, hid⟩

/-- Whoever is blocked has issued its demand. -/
lemma Works.blocked (h : k.Works w) {q : ProcessId × Activity} (hq : q ∈ k.blocked) :
    q.2.isOutbound = false ∧ q.2.isPending = false := by
  obtain ⟨spec', -, hwaits, -⟩ := h.waits q hq
  exact ⟨hwaits.head.1, hwaits.head.2.1⟩

section Turns

variable (h : k.Works w) (runs : k.running = some (id, a)) (turned : Turned k k' id turn)
  (spawned : turn.spawned = [])
  (arrived : ∀ x ∈ turn.next.appointments id k.now, x.task.isPending = false)
  (outbound : ∀ x ∈ turn.next.appointments id k.now, x.task.isOutbound = true →
    a.isOutbound = true ∧ (k.now < x.time → a.isPending = true))

include h runs turned spawned outbound

/-- The outbound processes stay in the order of their numbers. -/
lemma Turned.works_inOrder : k'.InOrder fun a => a.isOutbound = true := by
  have hself := running_agenda runs
  refine turned.inOrder h.queued.joined.order runs h.inOrder (by simp [spawned])
    (fun q hq _ => Bool.eq_false_iff.mp (h.blocked hq).1) (fun x hx hxo => (outbound x hx hxo).1) ?_
  -- Whoever parks until its arrival has been pending, and so was everybody with a higher number.
  intro x hx hxo hlater y hy hyo htime
  have hpending := (outbound x hx hxo).2 hlater
  obtain ⟨spec', hspec', hstage⟩ := h.runner runs
  obtain ⟨spec'', -, hystage⟩ := h.stage y (mem_agenda_of_others hy)
  cases hypending : y.task.isPending with
  | true =>
    rw [← htime, hstage.zero_of_pending hpending, hystage.zero_of_pending hypending] at hlater
    exact absurd hlater (lt_irrefl _)
  | false => exact h.fresh _ hself hpending y (mem_agenda_of_others hy) hyo hypending

include arrived in
/-- Whoever has arrived has a lower number than all that are pending. -/
lemma Turned.works_fresh : ∀ x ∈ k'.agenda, x.task.isPending = true → ∀ y ∈ k'.agenda,
    y.task.isOutbound = true → y.task.isPending = false → y.process < x.process := by
  intro x hx hpending y hy hyo hyarrived
  have hxothers : x ∈ k.others := by
    rcases turned.mem_agenda spawned hx with hx | ⟨q, hq, -, rfl⟩ | hx
    · rw [arrived x hx] at hpending
      cases hpending
    · rw [(h.blocked hq).2] at hpending
      cases hpending
    · exact hx
  rcases turned.mem_agenda spawned hy with hy | ⟨q, hq, -, rfl⟩ | hy
  · -- A pending process goes on at the start, at which the process that has arrived runs.
    rw [appointments_process _ _ y hy]
    obtain ⟨hao, -⟩ := outbound y hy hyo
    obtain ⟨spec', -, hstage⟩ := h.stage x (mem_agenda_of_others hxothers)
    obtain ⟨spec'', -, hrunner⟩ := h.runner runs
    rcases h.inOrder.first h.queued.joined.order.toLined runs hao hxothers
      (hstage.outbound_of_pending hpending) with hlt | ⟨-, hid⟩
    · rw [hstage.zero_of_pending hpending] at hlt
      exact absurd hlt (not_lt.mpr (hrunner.zero_le hao))
    · exact hid
  · rw [(h.blocked hq).1] at hyo
    cases hyo
  · exact h.fresh x (mem_agenda_of_others hxothers) hpending y (mem_agenda_of_others hy) hyo
      hyarrived

end Turns

/-- A turn that takes its process to a stage of its errand. -/
lemma Turned.works (h : k.Works w) (runs : k.running = some (id, a)) (turned : Turned k k' id turn)
    (queued : k'.Queued) (hspec : w.specs[id]? = some spec) (spawned : turn.spawned = [])
    (rate : turn.world.resources.rate? w.key = some w.rate)
    (line : ∃ s, turn.world.resources.line w.key = some s ∧ s.count = w.servers)
    (stage : ∀ x ∈ turn.next.appointments id k.now, w.Stage spec x.task x.time)
    (arrived : ∀ x ∈ turn.next.appointments id k.now, x.task.isPending = false)
    (outbound : ∀ x ∈ turn.next.appointments id k.now, x.task.isOutbound = true →
      a.isOutbound = true ∧ (k.now < x.time → a.isPending = true))
    (waits : ∀ q ∈ turn.next.waiting id, q.2.Waits w.key (w.job spec).service ∧
      (w.job spec).arrival ≤ k.now)
    (role : ∀ p ∈ turn.next.goesOn id, p.2.role = a.role) : k'.Works w := by
  refine ⟨queued, by rw [turned.world]; exact rate, by rw [turned.world]; exact line, ?_, ?_, ?_,
    turned.works_inOrder h runs spawned outbound, turned.works_fresh h runs spawned arrived outbound⟩
  · intro x hx
    rcases turned.mem_agenda spawned hx with hx | ⟨q, hq, -, rfl⟩ | hx
    · rw [appointments_process _ _ x hx]
      exact ⟨spec, hspec, stage x hx⟩
    · obtain ⟨spec', hspec', hwaits, -⟩ := h.waits q hq
      exact ⟨spec', hspec', .waits hwaits⟩
    · exact h.stage x (mem_agenda_of_others hx)
  · intro q hq
    rw [turned.now]
    rw [turned.blocked, List.mem_append, List.mem_filter] at hq
    rcases hq with ⟨hq, -⟩ | hq
    · exact h.waits q hq
    · rw [waiting_process _ q hq]
      exact ⟨spec, hspec, waits q hq⟩
  · intro p hp
    rw [turned.processes.mem_iff, spawned, newborn, List.mapIdx_nil, List.append_nil,
      List.mem_append] at hp
    rcases hp with hp | hp
    · rw [role p hp, goesOn_ids _ p hp]
      exact h.numbered (id, a) (running_mem runs)
    · exact h.numbered p (mem_processes_of_bystanders runs hp)

/-- The process that runs makes a stride. -/
lemma Works.stride (h : k.Works w) (runs : k.running = some (id, a)) :
    ∃ spec, w.specs[id]? = some spec ∧ w.Stage spec a k.now ∧
      Stride w.deployment w.key (w.amount spec) spec k.now id k.world a
        (a.turn w.deployment k.now id k.world) := by
  obtain ⟨spec, hspec, hstage⟩ := h.runner runs
  have hrole := h.numbered (id, a) (running_mem runs)
  cases hfind : k.world.resources.find w.key.1 w.key.2 with
  | error e =>
    have hrate := h.rate
    simp only [Resources.rate?, hfind] at hrate
    cases hrate
  | ok r =>
    exact ⟨spec, hspec, hstage, hstage.stride (List.mem_of_getElem? hspec) hfind hrole k.now id⟩

/-- The demand of an errand takes as long as its job, and goes through the line of the resource. -/
lemma Works.issued (h : k.Works w) {load : Load} {granted : Bool} {rs : Resources}
    (hissue : k.world.resources.issue k.now id w.key.1 w.key.2 (w.amount spec) =
      .ok (load, granted, rs)) :
    load.key = w.key ∧ load.service = (w.job spec).service ∧ rs.rate? w.key = some w.rate ∧
      ∃ s, k.world.resources.line w.key = some s ∧ s.count = w.servers ∧
        granted = (s.acquire id).1 ∧ rs.line w.key = some (s.acquire id).2 := by
  have hkey := Resources.issue_key hissue
  obtain ⟨-, r, hfind, hload, -⟩ := Resources.issue_ok hissue
  have hrate := h.rate
  simp only [Resources.rate?, hfind] at hrate
  injection hrate with hrate
  obtain ⟨s, hline, hcount⟩ := h.line
  refine ⟨hkey, by rw [hload, hrate]; rfl, (Resources.issue_served hissue w.key).2.trans h.rate, s,
    hline, hcount, ?_⟩
  rcases Resources.issue_line hissue with ⟨hnone, -⟩ | ⟨t, ht, hgranted, lines⟩
  · rw [hkey] at hnone
    rw [show (w.key.1, w.key.2) = w.key from rfl, hline] at hnone
    cases hnone
  · rw [hkey] at ht lines
    rw [show (w.key.1, w.key.2) = w.key from rfl, hline] at ht
    injection ht with ht
    subst ht
    exact ⟨hgranted, (lines w.key).trans (if_pos rfl)⟩

/-- **Every turn takes its process to a stage of its errand.** -/
theorem Turned.works_turn (h : k.Works w) (runs : k.running = some (id, a))
    (turned : Turned k k' id (a.turn w.deployment k.now id k.world)) : k'.Works w := by
  have queued := turned.queued h.queued runs
  obtain ⟨spec, hspec, hstage, hstride⟩ := h.stride runs
  have hclosing : ∀ {b : Activity}, b.Homebound → ¬ b.isOutbound = true := by
    intro b hb
    rw [hb.not_isOutbound]
    exact Bool.false_ne_true
  generalize a.turn w.deployment k.now id k.world = turn at turned hstride
  cases hstride with
  | arrives pending arrived role _ =>
    obtain ⟨nan, hzero⟩ := SimTime.later_zero_spec (w.arrivals spec (List.mem_of_getElem? hspec))
    have hnow := hstage.zero_of_pending pending.isPending
    have htime : k.now.passing ((spec.arrival.later .zero).since k.now) = (w.job spec).arrival := by
      rw [hnow]
      exact SimTime.zero_passing_since nan hzero
    refine turned.works h runs queued hspec rfl h.rate h.line ?_ ?_ ?_ (by simp [Next.waiting]) ?_
    all_goals simp only [Next.appointments, Next.goesOn, List.forall_mem_singleton]
    · rw [htime]
      exact .outbound (.inl arrived)
    · exact (Outbound.head (.inl arrived)).1
    · exact fun _ => ⟨pending.isOutbound, fun _ => pending.isPending⟩
    · exact role
  | approaches outbound steady hb role _ =>
    have hnow := hstage.arrival_of_outbound outbound.isOutbound outbound.head.1
    refine turned.works h runs queued hspec rfl (steady.resources ▸ h.rate)
      (steady.resources ▸ h.line) ?_ ?_ ?_ (by simp [Next.waiting]) ?_
    all_goals simp only [Next.appointments, Next.goesOn, List.forall_mem_singleton]
    · rw [hnow]
      exact .outbound hb
    · exact hb.head.1
    · exact fun _ => ⟨outbound.isOutbound, fun hlt => absurd hlt (lt_irrefl _)⟩
    · exact role
  | @granted env' b load outbound hissue _ hb role _ =>
    obtain ⟨hkey, -, hrate, s, -, hcount, -, hline⟩ := h.issued hissue
    have hserved : (b.before (.release load k.now)).Served w.key :=
      ⟨load, k.now, b.tasks, rfl, hb, hkey⟩
    refine turned.works h runs queued hspec rfl hrate
      ⟨_, hline, (s.acquire_count id).trans hcount⟩ ?_ ?_ ?_ (by simp [Next.waiting]) ?_
    all_goals simp only [Next.appointments, Next.goesOn, List.forall_mem_singleton]
    · exact .served hserved
    · exact hserved.head.2.1
    · rw [hserved.head.1]
      exact fun h => absurd h Bool.false_ne_true
    · exact role
  | @queued env' b load outbound hissue _ hb role _ =>
    obtain ⟨hkey, hservice, hrate, s, -, hcount, -, hline⟩ := h.issued hissue
    have hnow := hstage.arrival_of_outbound outbound.isOutbound outbound.head.1
    refine turned.works h runs queued hspec rfl hrate
      ⟨_, hline, (s.acquire_count id).trans hcount⟩ (by simp [Next.appointments])
      (by simp [Next.appointments]) (by simp [Next.appointments]) ?_ ?_
    all_goals simp only [Next.waiting, Next.goesOn, List.forall_mem_singleton]
    · exact ⟨⟨load, b.tasks, rfl, hb, hkey, hservice⟩, le_of_eq hnow.symm⟩
    · exact role
  | @starts env' b load htasks steady hb role =>
    have hserved : (b.before (.release load k.now)).Served w.key :=
      ⟨load, k.now, b.tasks, rfl, hb, hstage.key_of_engaged (Serves.engaged ⟨_, htasks⟩)⟩
    refine turned.works h runs queued hspec rfl (steady.resources ▸ h.rate)
      (steady.resources ▸ h.line) ?_ ?_ ?_ (by simp [Next.waiting]) ?_
    all_goals simp only [Next.appointments, Next.goesOn, List.forall_mem_singleton]
    · exact .served hserved
    · exact hserved.head.2.1
    · rw [hserved.head.1]
      exact fun h => absurd h Bool.false_ne_true
    · exact role
  | completes htasks hcomplete _ hb role =>
    have hrate := (Resources.complete_rate? hcomplete w.key).trans h.rate
    obtain ⟨s, hline, hcount⟩ := h.line
    refine turned.works h runs queued hspec rfl hrate ?_ ?_ ?_ ?_ (by simp [Next.waiting]) ?_
    all_goals simp only [Next.appointments, Next.goesOn, List.forall_mem_singleton]
    · rcases Resources.complete_line hcomplete with ⟨-, -, lines⟩ | ⟨t, ht, -, lines⟩
      · exact ⟨s, (lines w.key).trans hline, hcount⟩
      · rw [lines]
        split_ifs with hkey
        · rw [← hkey, hline] at ht
          injection ht with ht
          exact ⟨_, rfl, (t.release_count id).trans (ht ▸ hcount)⟩
        · exact ⟨s, hline, hcount⟩
    · exact .homebound hb
    · exact hb.not_isPending
    · exact fun h => absurd h (hclosing hb)
    · exact role
  | returns ha steady hb role _ =>
    refine turned.works h runs queued hspec rfl (steady.resources ▸ h.rate)
      (steady.resources ▸ h.line) ?_ ?_ ?_ (by simp [Next.waiting]) ?_
    all_goals simp only [Next.appointments, Next.goesOn, List.forall_mem_singleton]
    · exact .homebound hb
    · exact hb.not_isPending
    · exact fun h => absurd h (hclosing hb)
    · exact role
  | reports =>
    exact turned.works h runs queued hspec rfl h.rate h.line (by simp [Next.appointments])
      (by simp [Next.appointments]) (by simp [Next.appointments]) (by simp [Next.waiting])
      (by simp [Next.goesOn])

lemma Quiet.works (h : k.Works w) (quiet : Quiet (program w.deployment) k k') : k'.Works w := by
  refine ⟨quiet.queued h.queued, ?_, ?_, ?_, ?_, ?_, quiet.inOrder h.inOrder, ?_⟩
  · rw [quiet.resources]
    exact h.rate
  · rw [quiet.resources]
    exact h.line
  · rw [quiet.agenda]
    exact h.stage
  · rw [quiet.blocked]
    intro q hq
    obtain ⟨spec, hspec, hwaits, harrival⟩ := h.waits q hq
    exact ⟨spec, hspec, hwaits, harrival.trans quiet.now⟩
  · rw [quiet.processes]
    exact h.numbered
  · rw [quiet.agenda]
    exact h.fresh

end Kernel

end ServiceSim
