import ServiceSim.Proofs.Interpreter.Reports
import ServiceSim.Proofs.Kernel.Runs
import ServiceSim.Proofs.Queueing.Workload

/-!
# The timetable of a workload

While a workload runs, its jobs fall in three parts, one after the other in the order of the
schedule: those that have been given a server, those that wait for one, and those that are still to
be issued.  `Kernel.Timetable` relates these parts to the processes, and the times at which the
servers become free by the schedule to the times at which the demands under way are completed.

A server that is given back at some time is free from then on, and a job that starts now takes a
server that has become free by now, so the schedule and the resource stay together.
-/

namespace ServiceSim

open Activity Schedule

/-- When the demand of a process is completed that has a server. -/
def Appointment.completion (x : Appointment Activity) : SimTime :=
  match x.task.tasks with
  | .serve load :: _ => x.time.passing load.service
  | _ => x.time

/-- When the server is given back that a process has. -/
def Appointment.due (key : ResourceKey) (x : Appointment Activity) : Option SimTime :=
  if x.task.engaged = some key then some x.completion else none

/-- The process, if its demand is still to be issued. -/
def Appointment.outbound (x : Appointment Activity) : Option ProcessId :=
  if x.task.isOutbound then some x.process else none

namespace Kernel

/-- **A timetable.**  The jobs of a workload are served, wait and are outbound in the order of the
schedule, and what is scheduled is what happens. -/
structure Timetable (w : Workload) (granted queue ahead : List (Job × Nat))
    (idle : List SimTime) (k : Kernel Environment Activity) : Prop where
  taken : inTurn w.jobs = granted ++ queue ++ ahead
  queue : queue.map Prod.snd = k.waiters w.key
  ahead : (ahead.map Prod.snd).Perm (k.agenda.filterMap Appointment.outbound)
  free : (occupied w.free granted).Perm (k.agenda.filterMap (Appointment.due w.key) ++ idle)
  idle : ∀ t ∈ idle, t ≤ k.now
  due : ∀ x ∈ k.agenda, x.task.isOutbound = false →
    (x.process, x.completion) ∈ completionsFrom w.free granted
  completions : ∀ c ∈ k.world.completions, (∃ frame, c.2.result = .ok frame) ∧
    (c.1, c.2.time) ∈ completionsFrom w.free granted

variable {w : Workload} {k k' : Kernel Environment Activity} {id : ProcessId} {a b : Activity}
  {spec : RequestSpec} {turn : Turn Environment Activity} {granted queue ahead : List (Job × Nat)}
  {idle : List SimTime}

/-! ## Completions -/

lemma completion_of_homebound {x : Appointment Activity} (h : x.task.Homebound) :
    x.completion = x.time := by
  have hclosing := h.tasks
  rw [Appointment.completion]
  split
  next load rest htasks => exact (hclosing (.serve load) (htasks ▸ List.mem_cons_self)).elim
  · rfl

lemma completion_of_served {x : Appointment Activity} {key : ResourceKey}
    (h : x.task.Served key) : x.completion = x.time := by
  obtain ⟨load, started, rest, htasks, -⟩ := h
  rw [Appointment.completion, htasks]

lemma completion_of_waits {x : Appointment Activity} {key : ResourceKey} {service : Float}
    (h : x.task.Waits key service) : x.completion = x.time.passing service := by
  obtain ⟨load, rest, htasks, -, -, rfl⟩ := h
  rw [Appointment.completion, htasks]

lemma le_completion (x : Appointment Activity) : x.time ≤ x.completion := by
  rw [Appointment.completion]
  split
  · exact SimTime.le_passing _ _
  · exact le_refl _

/-- Nobody completes a demand in the past. -/
lemma Lined.now_le_due (lined : k.Lined) {key : ResourceKey} :
    ∀ t ∈ k.agenda.filterMap (Appointment.due key), k.now ≤ t := by
  intro t ht
  obtain ⟨x, hx, hdue⟩ := List.mem_filterMap.mp ht
  rw [Appointment.due] at hdue
  split_ifs at hdue
  injection hdue with hdue
  exact hdue ▸ (lined.now_le hx).trans (le_completion x)

/-- As many demands are under way as servers have been given away. -/
lemma due_length (key : ResourceKey) (l : List (Appointment Activity)) :
    (l.filterMap (Appointment.due key)).length =
      (engagedOn key (l.map fun x => (x.process, x.task))).length := by
  induction l with
  | nil => rfl
  | cons x l ih =>
    simp only [engagedOn] at ih ⊢
    by_cases hx : x.task.engaged = some key <;> simp [Appointment.due, hx, ih]

/-! ## The next job -/

/-- **The next job** of a timetable is that of the process that is outbound and runs. -/
lemma Timetable.next (t : k.Timetable w granted queue ahead idle) (h : k.Works w)
    (runs : k.running = some (id, a)) (hspec : w.specs[id]? = some spec)
    (outbound : a.isOutbound = true) (arrival : (w.job spec).arrival = k.now) :
    ∃ rest, ahead = (w.job spec, id) :: rest := by
  have hjob : ∀ (i : Nat) (spec : RequestSpec), w.specs[i]? = some spec →
      w.jobs[i]? = some (w.job spec) := by
    intro i spec hspec
    rw [Workload.jobs, List.getElem?_map, hspec, Option.map_some]
  have hsub : ahead.Sublist (inTurn w.jobs) := t.taken ▸ List.sublist_append_right _ _
  have hnumbers : ∀ n, n ∈ ahead.map Prod.snd ↔
      ∃ x ∈ k.agenda, x.task.isOutbound = true ∧ x.process = n := by
    intro n
    rw [t.ahead.mem_iff, List.mem_filterMap]
    simp only [Appointment.outbound, Option.ite_none_right_eq_some, Option.some.injEq]
  -- The process is one of those that are outbound.
  have hmem : (w.job spec, id) ∈ ahead := by
    have hself := running_agenda runs
    obtain ⟨y, hy, hid⟩ := List.mem_map.mp ((hnumbers id).mpr ⟨_, hself, outbound, rfl⟩)
    have hfound := mem_inTurn (hsub.subset hy)
    rw [hid, hjob id spec hspec] at hfound
    injection hfound with hfound
    rw [← hid, hfound]
    exact hy
  refine eq_cons_of_first ((inTurn_sorted _).sublist hsub)
    (((inTurn_numbers _).nodup_iff.mpr List.nodup_range).sublist (hsub.map _)) hmem ?_
  intro y hy hne hlate
  obtain ⟨x, hx, hxo, hxy⟩ := (hnumbers y.2).mp (List.mem_map_of_mem hy)
  have hothers : x ∈ k.others := by
    rw [agenda_running runs] at hx
    rcases List.mem_cons.mp hx with rfl | hx
    · exact absurd hxy.symm hne
    · exact hx
  obtain ⟨spec', hspec', -⟩ := h.stage x hx
  have hfound := mem_inTurn (hsub.subset hy)
  rw [← hxy, hjob _ spec' hspec'] at hfound
  injection hfound with hfound
  rw [NoLater, ← hfound, ← hxy, arrival] at hlate
  rcases h.first runs outbound hothers hxo hspec' with hlt | ⟨heq, hid⟩
  · rcases hlate with hlate | ⟨hlate, -⟩
    · exact lt_asymm hlt hlate
    · exact ne_of_gt hlt hlate
  · rcases hlate with hlate | ⟨-, hle⟩
    · exact ne_of_gt hlate heq
    · exact Nat.not_le.mpr hid hle

/-- A server is idle for each that has not been given away. -/
lemma Timetable.idle_length (t : k.Timetable w granted queue ahead idle) (h : k.Works w)
    {s : Servers} (line : k.world.resources.line w.key = some s) (hcount : s.count = w.servers) :
    s.serving.length + idle.length = s.count := by
  have hsound := h.queued.sound _ _ line
  have hne : w.free ≠ [] := by
    intro hnil
    have hlength : w.free.length = 0 := by rw [hnil, List.length_nil]
    rw [Workload.free, List.length_replicate, ← hcount] at hlength
    exact Nat.ne_of_gt hsound.positive hlength
  have hlength := t.free.length_eq
  rw [occupied_length hne, Workload.free, List.length_replicate, List.length_append,
    due_length] at hlength
  rw [(h.queued.serving _ _ line).length_eq, hcount, holders]
  exact hlength.symm

/-! ## Turns -/

/-- A turn that gives servers to the next jobs of the timetable, or to none. -/
lemma Turned.timetable (t : k.Timetable w granted queue ahead idle) (h : k.Works w)
    (turned : Turned k k' id turn) (spawned : turn.spawned = [])
    {more queue' ahead' : List (Job × Nat)} {idle' : List SimTime}
    (taken : queue ++ ahead = more ++ (queue' ++ ahead'))
    (waiting : queue'.map Prod.snd = engagedOn w.key (k.blocked.filter (·.1 ∉ turn.woken)) ++
      engagedOn w.key (turn.next.waiting id))
    (outbound : (ahead'.map Prod.snd).Perm
      ((turn.next.appointments id k.now).filterMap Appointment.outbound ++
        k.others.filterMap Appointment.outbound))
    (free : (occupied w.free (granted ++ more)).Perm
      ((turn.next.appointments id k.now).filterMap (Appointment.due w.key) ++
        (appointed k.now (k.blocked.filter (·.1 ∈ turn.woken))).filterMap (Appointment.due w.key) ++
        k.others.filterMap (Appointment.due w.key) ++ idle'))
    (past : ∀ t ∈ idle', t ≤ k.now)
    (next : ∀ x ∈ turn.next.appointments id k.now, x.task.isOutbound = false →
      (x.process, x.completion) ∈ completionsFrom w.free (granted ++ more))
    (woken : ∀ x ∈ appointed k.now (k.blocked.filter (·.1 ∈ turn.woken)),
      (x.process, x.completion) ∈ completionsFrom w.free (granted ++ more))
    (completions : ∀ c ∈ turn.world.completions, c ∈ k.world.completions ∨
      (∃ frame, c.2.result = .ok frame) ∧
        (c.1, c.2.time) ∈ completionsFrom w.free (granted ++ more)) :
    k'.Timetable w (granted ++ more) queue' ahead' idle' := by
  have hmore := completionsFrom_subset w.free granted more
  have hagenda : k'.agenda.Perm (turn.next.appointments id k.now ++
      appointed k.now (k.blocked.filter (·.1 ∈ turn.woken)) ++ k.others) := by
    have := turned.agenda
    rw [spawned, newborn, List.mapIdx_nil] at this
    simpa [appointed] using this
  -- Those that are woken have issued their demands already.
  have hwoken : (appointed k.now (k.blocked.filter (·.1 ∈ turn.woken))).filterMap
      Appointment.outbound = [] := by
    rw [List.filterMap_eq_nil_iff]
    intro x hx
    obtain ⟨q, hq, rfl⟩ := List.mem_map.mp hx
    obtain ⟨spec', -, hwaits, -⟩ := h.waits q (List.mem_filter.mp hq).1
    rw [Appointment.outbound, hwaits.head.1, if_neg Bool.false_ne_true]
  refine ⟨?_, ?_, ?_, ?_, ?_, ?_, ?_⟩
  · rw [t.taken, List.append_assoc, taken, List.append_assoc, List.append_assoc]
  · rw [turned.waiters]
    exact waiting
  · have hperm := hagenda.filterMap Appointment.outbound
    rw [List.filterMap_append, List.filterMap_append, hwoken, List.append_nil] at hperm
    exact outbound.trans hperm.symm
  · have hperm := hagenda.filterMap (Appointment.due w.key)
    rw [List.filterMap_append, List.filterMap_append] at hperm
    exact free.trans (hperm.symm.append_right idle')
  · rw [turned.now]
    exact past
  · intro x hx hout
    rcases List.mem_append.mp (hagenda.mem_iff.mp hx) with hx | hx
    · rcases List.mem_append.mp hx with hx | hx
      · exact next x hx hout
      · exact woken x hx
    · exact hmore (t.due x (mem_agenda_of_others hx) hout)
  · rw [turned.world]
    intro c hc
    rcases completions c hc with hc | hc
    · exact ⟨(t.completions c hc).1, hmore (t.completions c hc).2⟩
    · exact hc

/-- A turn that gives servers to nobody and takes none back. -/
lemma Turned.timetable_steady (t : k.Timetable w granted queue ahead idle) (h : k.Works w)
    (runs : k.running = some (id, a)) (turned : Turned k k' id turn) (spawned : turn.spawned = [])
    (woken : turn.woken = []) (waiting : turn.next.waiting id = [])
    (outbound : (turn.next.appointments id k.now).filterMap Appointment.outbound =
      [(⟨id, a, k.now⟩ : Appointment Activity)].filterMap Appointment.outbound)
    (due : (turn.next.appointments id k.now).filterMap (Appointment.due w.key) =
      [(⟨id, a, k.now⟩ : Appointment Activity)].filterMap (Appointment.due w.key))
    (next : ∀ x ∈ turn.next.appointments id k.now, x.task.isOutbound = false →
      a.isOutbound = false ∧ x.completion = Appointment.completion ⟨id, a, k.now⟩)
    (completions : ∀ c ∈ turn.world.completions, c ∈ k.world.completions ∨
      (∃ frame, c.2.result = .ok frame) ∧ (c.1, c.2.time) ∈ completionsFrom w.free granted) :
    k'.Timetable w granted queue ahead idle := by
  have hself := running_agenda runs
  have hnone : k.blocked.filter (·.1 ∈ turn.woken) = [] := by simp [woken]
  have hall : k.blocked.filter (·.1 ∉ turn.woken) = k.blocked := by simp [woken]
  have ht : k'.Timetable w (granted ++ []) queue ahead idle := turned.timetable t h
    spawned (List.nil_append _).symm
    (by rw [hall, waiting, t.queue]; exact (List.append_nil _).symm)
    (by
      rw [outbound, ← List.filterMap_append, List.singleton_append, ← agenda_running runs]
      exact t.ahead)
    (by
      rw [hnone, due, appointed, List.map_nil, List.filterMap_nil, List.append_nil,
        List.append_nil, ← List.filterMap_append, List.singleton_append, ← agenda_running runs]
      exact t.free)
    t.idle
    (fun x hx hout => by
      obtain ⟨ha, hcompletion⟩ := next x hx hout
      rw [appointments_process _ _ x hx, hcompletion, List.append_nil]
      exact t.due _ hself ha)
    (by simp [hnone, appointed])
    (by
      rw [List.append_nil]
      exact completions)
  rwa [List.append_nil] at ht

/-- Who is outbound, and what is due, besides the process that runs. -/
lemma filterMap_running {β : Type} (f : Appointment Activity → Option β)
    (runs : k.running = some (id, a)) :
    k.agenda.filterMap f = (f ⟨id, a, k.now⟩).toList ++ k.others.filterMap f := by
  rw [agenda_running runs, List.filterMap_cons]
  cases f ⟨id, a, k.now⟩ <;> rfl

/-- The other processes that are outbound have the jobs behind the next one. -/
lemma Timetable.ahead_others (t : k.Timetable w granted queue ((w.job spec, id) :: ahead) idle)
    (runs : k.running = some (id, a)) (outbound : a.isOutbound = true) :
    (ahead.map Prod.snd).Perm (k.others.filterMap Appointment.outbound) := by
  have hahead := t.ahead
  rw [filterMap_running _ runs, Appointment.outbound, if_pos outbound, List.map_cons] at hahead
  exact hahead.cons_inv

/-- **A demand that gets a server** is the next job, and a server is idle for it. -/
lemma Turned.timetable_granted (t : k.Timetable w granted queue ahead idle) (h : k.Works w)
    (runs : k.running = some (id, a)) (hspec : w.specs[id]? = some spec)
    (outbound : a.isOutbound = true) (arrival : (w.job spec).arrival = k.now)
    (free : a.engaged = none) (hb : b.engaged = some w.key) (hbo : b.isOutbound = false)
    {world : Environment} (turned : Turned k k' id ⟨world, [], [], .hold (w.job spec).service b⟩)
    (hcompletion : ∀ time, Appointment.completion ⟨id, b, time⟩ = time) {s : Servers}
    (line : k.world.resources.line w.key = some s) (hcount : s.count = w.servers)
    (acquired : (s.acquire id).1 = true)
    (completions : world.completions = k.world.completions) :
    ∃ granted' queue' ahead' idle', k'.Timetable w granted' queue' ahead' idle' := by
  obtain ⟨rest, rfl⟩ := t.next h runs hspec outbound arrival
  have hwaiting := (Servers.acquire_granted (h.queued.sound _ _ line) acquired).1
  have hqueue : queue = [] := by
    rw [← List.map_eq_nil_iff (f := Prod.snd), t.queue, ← h.queued.waiting _ _ line, hwaiting]
  have hidle : idle ≠ [] := by
    intro hnil
    have hlength := t.idle_length h line hcount
    rw [hnil, List.length_nil] at hlength
    rw [Servers.acquire, if_neg (by omega)] at acquired
    cases acquired
  have hstart : ∀ time ∈ idle, (w.job spec).arrival.later time = k.now := by
    intro time htime
    rw [arrival]
    exact SimTime.later_eq_left (t.idle time htime)
  obtain ⟨hends, idle', hoccupies, hpast⟩ :=
    occupies_free t.free hidle h.queued.joined.order.toLined.now_le_due t.idle hstart
  have hnone := filter_woken_nil k.blocked
  have hdone : (id, k.now.passing (w.job spec).service) ∈
      completionsFrom w.free (granted ++ [(w.job spec, id)]) :=
    hends ▸ mem_completionsFrom_concat w.free granted (w.job spec, id)
  refine ⟨granted ++ [(w.job spec, id)], [], rest, idle', ?_⟩
  refine turned.timetable t h rfl (by rw [hqueue]; rfl) ?_ ?_ ?_ hpast ?_ ?_
    fun c hc => .inl (completions ▸ hc)
  · rw [filter_asleep_nil, ← hqueue, t.queue]
    exact (List.append_nil _).symm
  · rw [Next.appointments, List.filterMap_cons_none (by rw [Appointment.outbound, hbo]; rfl)]
    exact t.ahead_others runs outbound
  · have hrunner : Appointment.due w.key ⟨id, a, k.now⟩ = none := by
      rw [Appointment.due, if_neg (by rw [free]; simp)]
    have hnext : Appointment.due w.key ⟨id, b, k.now.passing (w.job spec).service⟩ =
        some (k.now.passing (w.job spec).service) := by
      rw [Appointment.due, if_pos hb, hcompletion]
    rw [filterMap_running _ runs, hrunner] at hoccupies
    rw [occupied_concat, Next.appointments, List.filterMap_cons_some hnext, hnone]
    exact hoccupies
  · intro x hx _
    rw [List.mem_singleton.mp hx, hcompletion]
    exact hdone
  · simp [appointed]

/-- **A demand that has to wait** is the next job, and joins the queue. -/
lemma Turned.timetable_queued (t : k.Timetable w granted queue ahead idle) (h : k.Works w)
    (runs : k.running = some (id, a)) (hspec : w.specs[id]? = some spec)
    (outbound : a.isOutbound = true) (arrival : (w.job spec).arrival = k.now)
    (free : a.engaged = none) (hb : b.engaged = some w.key) {world : Environment}
    (turned : Turned k k' id ⟨world, [], [], .block b⟩)
    (completions : world.completions = k.world.completions) :
    ∃ granted' queue' ahead' idle', k'.Timetable w granted' queue' ahead' idle' := by
  obtain ⟨rest, rfl⟩ := t.next h runs hspec outbound arrival
  have hrunner : Appointment.due w.key ⟨id, a, k.now⟩ = none := by
    rw [Appointment.due, if_neg (by rw [free]; simp)]
  have hfree := t.free
  rw [filterMap_running _ runs, hrunner] at hfree
  refine ⟨granted ++ [], queue ++ [(w.job spec, id)], rest, idle, ?_⟩
  refine turned.timetable t h rfl (by simp) ?_ ?_ ?_ t.idle ?_ ?_
    fun c hc => .inl (completions ▸ hc)
  · rw [filter_asleep_nil, Next.waiting, engagedOn_singleton hb, List.map_append, t.queue]
    rfl
  · exact t.ahead_others runs outbound
  · rw [List.append_nil, filter_woken_nil]
    exact hfree
  · simp [Next.appointments]
  · simp [appointed]

/-- Whoever waits first has the first job of the queue, and has arrived. -/
lemma Timetable.first_waiter (t : k.Timetable w granted queue ahead idle) (h : k.Works w)
    {first : ProcessId} {rest : List ProcessId} (waiters : k.waiters w.key = first :: rest) :
    ∃ spec q queue', queue = (w.job spec, first) :: queue' ∧ queue'.map Prod.snd = rest ∧
      k.blocked.filter (·.1 = first) = [(first, q)] ∧ q.Waits w.key (w.job spec).service ∧
      (w.job spec).arrival ≤ k.now := by
  obtain ⟨⟨job, n⟩, queue', rfl, hn, hrest⟩ : ∃ x queue', queue = x :: queue' ∧ x.2 = first ∧
      queue'.map Prod.snd = rest := by
    have hqueue := t.queue.trans waiters
    cases queue with
    | nil => cases hqueue
    | cons x queue' =>
      injection hqueue with hx hrest
      exact ⟨x, queue', rfl, hx, hrest⟩
  dsimp only at hn
  subst hn
  have hmem : n ∈ k.waiters w.key := waiters ▸ List.mem_cons_self
  obtain ⟨q, hq, -⟩ := mem_engagedOn.mp hmem
  obtain ⟨spec, hspec, hwaits, harrival⟩ := h.waits _ hq
  have hjob : job = w.job spec := by
    have hin : (job, n) ∈ inTurn w.jobs := by
      rw [t.taken]
      exact List.mem_append_left _ (List.mem_append_right _ List.mem_cons_self)
    have hfound := mem_inTurn hin
    rw [Workload.jobs, List.getElem?_map, hspec] at hfound
    injection hfound with hfound
    exact hfound.symm
  have hfilter : k.blocked.filter (·.1 = n) = [(n, q)] := by
    rw [filter_eq_find? n _ h.queued.joined.order.blocked_distinct]
    cases hfind : k.blocked.find? (·.1 == n) with
    | none =>
      rw [List.find?_eq_none] at hfind
      exact absurd (beq_self_eq_true n) (hfind _ hq)
    | some p =>
      have hp := List.mem_of_find?_eq_some hfind
      have hpn : p.1 = n := by simpa using List.find?_some hfind
      rw [h.queued.joined.order.unique (List.mem_append_right _ hp) (List.mem_append_right _ hq) hpn]
      rfl
  exact ⟨spec, q, queue', by rw [hjob], hrest, hfilter, hwaits, harrival⟩

section Completions

variable (t : k.Timetable w granted queue ahead idle) (h : k.Works w)
  (runs : k.running = some (id, a)) (ha : a.engaged = some w.key) (hao : a.isOutbound = false)
  (hcompletion : Appointment.completion ⟨id, a, k.now⟩ = k.now) (hb : b.Homebound)

include t runs hao in
/-- All that are outbound are others. -/
lemma Timetable.ahead_all : (ahead.map Prod.snd).Perm (k.others.filterMap Appointment.outbound) := by
  have hahead := t.ahead
  rw [filterMap_running _ runs, Appointment.outbound, hao, if_neg Bool.false_ne_true] at hahead
  exact hahead

include t runs ha hcompletion in
/-- The server of the demand is occupied until now. -/
lemma Timetable.free_now : (occupied w.free granted).Perm
    (k.now :: (k.others.filterMap (Appointment.due w.key) ++ idle)) := by
  have hrunner : Appointment.due w.key ⟨id, a, k.now⟩ = some k.now := by
    rw [Appointment.due, if_pos ha, hcompletion]
  have hfree := t.free
  rw [filterMap_running _ runs, hrunner] at hfree
  exact hfree

include hb in
/-- Whoever has been served is not outbound, and no demand of it is under way. -/
lemma homebound_appointments (id : ProcessId) (now : SimTime) (key : ResourceKey) :
    ((Next.proceed b).appointments id now).filterMap Appointment.outbound = [] ∧
      ((Next.proceed b).appointments id now).filterMap (Appointment.due key) = [] := by
  have hout : Appointment.outbound ⟨id, b, now⟩ = none := by
    rw [Appointment.outbound, hb.not_isOutbound]
    rfl
  have hdue : Appointment.due key ⟨id, b, now⟩ = none := by
    rw [Appointment.due, if_neg (by rw [hb.not_engaged]; simp)]
  exact ⟨List.filterMap_cons_none hout, List.filterMap_cons_none hdue⟩

include t runs hao hcompletion hb in
/-- The completion is as in the timetable. -/
lemma Timetable.completes_now (more : List (Job × Nat)) :
    ∀ x ∈ (Next.proceed b).appointments id k.now, x.task.isOutbound = false →
      (x.process, x.completion) ∈ completionsFrom w.free (granted ++ more) := by
  intro x hx _
  have hself := running_agenda runs
  rw [List.mem_singleton.mp hx, completion_of_homebound hb]
  exact completionsFrom_subset _ _ _ (hcompletion ▸ t.due _ hself hao)

include t h runs ha hao hcompletion hb

/-- A server that is given back while nobody waits is idle from now on. -/
lemma Turned.timetable_releases {world : Environment}
    (turned : Turned k k' id ⟨world, [], [], .proceed b⟩)
    (completions : world.completions = k.world.completions) :
    k'.Timetable w (granted ++ []) queue ahead (k.now :: idle) := by
  obtain ⟨hout, hdue⟩ := homebound_appointments hb id k.now w.key
  refine turned.timetable t h rfl rfl ?_ ?_ ?_ ?_ (t.completes_now runs hao hcompletion hb []) ?_
    fun c hc => .inl (completions ▸ hc)
  · rw [filter_asleep_nil, t.queue]
    exact (List.append_nil _).symm
  · rw [hout]
    exact t.ahead_all runs hao
  · rw [List.append_nil, filter_woken_nil, hdue]
    exact (t.free_now runs ha hcompletion).trans List.perm_middle.symm
  · intro time htime
    rcases List.mem_cons.mp htime with rfl | htime
    · exact le_refl _
    · exact t.idle time htime
  · simp [appointed]

/-- A server that is given back while somebody waits is given to the first job of the queue. -/
lemma Turned.timetable_passes {world : Environment} {first : ProcessId} {rest : List ProcessId}
    (turned : Turned k k' id ⟨world, [first], [], .proceed b⟩)
    (waiters : k.waiters w.key = first :: rest) (none_idle : idle = [])
    (completions : world.completions = k.world.completions) :
    ∃ granted' queue' idle', k'.Timetable w granted' queue' ahead idle' := by
  subst none_idle
  obtain ⟨spec, q, queue', rfl, hrest, hfilter, hwaits, harrival⟩ := t.first_waiter h waiters
  obtain ⟨hout, hdue⟩ := homebound_appointments hb id k.now w.key
  have hnow : (occupied w.free granted).Perm
      (k.others.filterMap (Appointment.due w.key) ++ [k.now]) := by
    refine (t.free_now runs ha hcompletion).trans ?_
    rw [List.append_nil]
    exact (List.perm_append_singleton _ _).symm
  have hlater : ∀ time ∈ k.others.filterMap (Appointment.due w.key), k.now ≤ time := by
    intro time htime
    have hdue : time ∈ k.agenda.filterMap (Appointment.due w.key) := by
      rw [filterMap_running _ runs]
      exact List.mem_append_right _ htime
    exact h.queued.joined.order.toLined.now_le_due time hdue
  have hstarts : ∀ time ∈ [k.now], (w.job spec).arrival.later time = k.now := by
    simpa using SimTime.later_eq_right harrival
  obtain ⟨hends, idle', hoccupies, hpast⟩ := occupies_free hnow (List.cons_ne_nil _ _) hlater
    (by simp) hstarts
  have hfilter' : k.blocked.filter (·.1 ∈ [first]) = [(first, q)] := by
    simpa using hfilter
  have hserved : Appointment.completion ⟨first, q, k.now⟩ =
      k.now.passing (w.job spec).service := completion_of_waits hwaits
  refine ⟨granted ++ [(w.job spec, first)], queue', idle', ?_⟩
  refine turned.timetable t h rfl rfl ?_ ?_ ?_ hpast
    (t.completes_now runs hao hcompletion hb _) ?_ fun c hc => .inl (completions ▸ hc)
  · -- The others wait as before.
    have hnodup := waiters_nodup h.queued.joined.order w.key
    rw [waiters, List.nodup_cons] at hnodup
    have hstays : ∀ n ∈ rest, decide (n ∉ [first]) = true := by
      intro n hn
      exact decide_eq_true fun hmem => hnodup.1 (List.mem_singleton.mp hmem ▸ hn)
    rw [engagedOn_filter w.key (· ∉ [first]), ← Kernel.waiters, waiters, hrest,
      List.filter_cons_of_neg (by simp), List.filter_eq_self.mpr hstays]
    exact (List.append_nil _).symm
  · rw [hout]
    exact t.ahead_all runs hao
  · have hnext : Appointment.due w.key ⟨first, q, k.now⟩ =
        some (k.now.passing (w.job spec).service) := by
      rw [Appointment.due, if_pos hwaits.head.2.2, hserved]
    rw [occupied_concat, hfilter', hdue, appointed, List.map_singleton,
      List.filterMap_cons_some hnext, List.filterMap_nil, List.nil_append]
    exact hoccupies
  · rw [hfilter']
    intro x hx
    rw [List.mem_singleton.mp hx, hserved, ← hends]
    exact mem_completionsFrom_concat w.free granted (w.job spec, first)

/-- **A demand that is completed** gives its server to the first job of the queue, if there is
one. -/
lemma Turned.timetable_completes {world : Environment} {woken : Option ProcessId}
    (turned : Turned k k' id ⟨world, woken.toList, [], .proceed b⟩) {s : Servers}
    (line : k.world.resources.line w.key = some s) (hcount : s.count = w.servers)
    (released : woken = (s.release id).1) (completions : world.completions = k.world.completions) :
    ∃ granted' queue' ahead' idle', k'.Timetable w granted' queue' ahead' idle' := by
  have hqueue := h.queued.waiters_released runs ha line released
  cases woken with
  | none =>
    exact ⟨_, _, _, _, turned.timetable_releases t h runs ha hao hcompletion hb completions⟩
  | some first =>
    have hidle : idle = [] := by
      have hwaiting : s.waiting ≠ [] := by
        rw [h.queued.waiting _ _ line, hqueue]
        exact List.cons_ne_nil _ _
      have hlength := t.idle_length h line hcount
      rw [(h.queued.sound _ _ line).busy hwaiting] at hlength
      exact List.eq_nil_of_length_eq_zero (by omega)
    obtain ⟨granted', queue', idle', ht⟩ :=
      turned.timetable_passes t h runs ha hao hcompletion hb hqueue hidle completions
    exact ⟨granted', queue', ahead, idle', ht⟩

end Completions

/-- **Every turn keeps to the timetable.** -/
theorem Turned.timetable_turn (t : k.Timetable w granted queue ahead idle) (h : k.Works w)
    (runs : k.running = some (id, a))
    (turned : Turned k k' id (a.turn w.deployment k.now id k.world)) :
    ∃ granted' queue' ahead' idle', k'.Timetable w granted' queue' ahead' idle' := by
  obtain ⟨spec, hspec, hstage, hstride⟩ := h.stride runs
  have hself := running_agenda runs
  have hrole := h.numbered (id, a) (running_mem runs)
  generalize a.turn w.deployment k.now id k.world = turn at turned hstride
  have hidle : ∀ {b : Activity} {time : SimTime}, b.engaged = none →
      Appointment.due w.key ⟨id, b, time⟩ = none := by
    intro b time hb
    rw [Appointment.due, if_neg (by rw [hb]; simp)]
  cases hstride with
  | arrives pending arrived _ _ =>
    have hout : Outbound w.deployment w.key (w.amount spec) spec _ := .inl arrived
    refine ⟨granted, queue, ahead, idle, turned.timetable_steady t h runs rfl rfl rfl ?_ ?_ ?_
      fun c hc => .inl hc⟩
    · simp [Next.appointments, Appointment.outbound, pending.isOutbound, hout.isOutbound]
    · simp [Next.appointments, hidle pending.not_engaged, hidle hout.head.2]
    · simp [Next.appointments, hout.isOutbound]
  | approaches outbound steady hb _ _ =>
    refine ⟨granted, queue, ahead, idle, turned.timetable_steady t h runs rfl rfl rfl ?_ ?_ ?_
      fun c hc => .inl (steady.completions ▸ hc)⟩
    · simp [Next.appointments, Appointment.outbound, outbound.isOutbound, hb.isOutbound]
    · simp [Next.appointments, hidle outbound.head.2, hidle hb.head.2]
    · simp [Next.appointments, hb.isOutbound]
  | @granted env' b load outbound hissue completions hb _ _ =>
    obtain ⟨hkey, hservice, -, s, hline, hcount, hgranted, -⟩ := h.issued hissue
    have hserved : (b.before (.release load k.now)).Served w.key :=
      ⟨load, k.now, b.tasks, rfl, hb, hkey⟩
    rw [hservice] at turned
    exact turned.timetable_granted t h runs hspec outbound.isOutbound
      (hstage.arrival_of_outbound outbound.isOutbound outbound.head.1).symm outbound.head.2
      hserved.head.2.2 hserved.head.1 (fun time => completion_of_served hserved) hline hcount
      hgranted.symm completions
  | @queued env' b load outbound hissue completions hb _ _ =>
    obtain ⟨hkey, -⟩ := h.issued hissue
    exact turned.timetable_queued t h runs hspec outbound.isOutbound
      (hstage.arrival_of_outbound outbound.isOutbound outbound.head.1).symm outbound.head.2
      (hkey ▸ rfl) completions
  | @starts env' b load htasks steady hb _ =>
    have hkey : load.key = w.key := hstage.key_of_engaged (Serves.engaged ⟨_, htasks⟩)
    have hserved : (b.before (.release load k.now)).Served w.key :=
      ⟨load, k.now, b.tasks, rfl, hb, hkey⟩
    have hwaits := hstage.waits_of_serves htasks
    have hcompletion := completion_of_waits (x := ⟨id, a, k.now⟩) hwaits
    have hcompletion' := completion_of_served (x := ⟨id, b.before (.release load k.now),
      k.now.passing load.service⟩) hserved
    refine ⟨granted, queue, ahead, idle, turned.timetable_steady t h runs rfl rfl rfl ?_ ?_ ?_
      fun c hc => .inl (steady.completions ▸ hc)⟩
    · simp [Next.appointments, Appointment.outbound, hwaits.head.1, hserved.head.1]
    · simp [Next.appointments, Appointment.due, hwaits.head.2.2, hserved.head.2.2, hcompletion,
        hcompletion']
    · simp [Next.appointments, hwaits.head.1, hcompletion, hcompletion']
  | @completes env' b load started woken htasks hcomplete completions hb _ =>
    have hkey : load.key = w.key := hstage.key_of_engaged (engaged_of_tasks_release htasks)
    have hserved := hstage.served_of_releases htasks
    obtain ⟨s, hline, hcount⟩ := h.line
    have hwoken : woken = (s.release id).1 := by
      rcases Resources.complete_line hcomplete with ⟨hnone, -⟩ | ⟨s', hs', hwoken, -⟩
      · rw [hkey, hline] at hnone
        cases hnone
      · rw [hkey, hline] at hs'
        injection hs' with hs'
        rw [hs', hwoken]
    exact turned.timetable_completes t h runs hserved.head.2.2 hserved.head.1
      (completion_of_served hserved) hb hline hcount hwoken completions
  | returns ha steady hb _ _ =>
    refine ⟨granted, queue, ahead, idle, turned.timetable_steady t h runs rfl rfl rfl ?_ ?_ ?_
      fun c hc => .inl (steady.completions ▸ hc)⟩
    · simp [Next.appointments, Appointment.outbound, ha.not_isOutbound, hb.not_isOutbound]
    · simp [Next.appointments, hidle ha.not_engaged, hidle hb.not_engaged]
    · simp [Next.appointments, ha.not_isOutbound, completion_of_homebound (x := ⟨id, a, k.now⟩) ha,
        completion_of_homebound (x := ⟨id, _, k.now⟩) hb]
  | @reports number c frame ha role time result =>
    have hnumber : number = id := by
      rw [hrole] at role
      injection role with role
      exact role.symm
    refine ⟨granted, queue, ahead, idle, turned.timetable_steady t h runs rfl rfl rfl ?_ ?_ ?_ ?_⟩
    · simp [Next.appointments, Appointment.outbound, ha.not_isOutbound]
    · simp [Next.appointments, hidle ha.not_engaged]
    · simp [Next.appointments]
    · intro c' hc'
      rcases List.mem_cons.mp hc' with rfl | hc'
      · refine .inr ⟨⟨frame, result⟩, ?_⟩
        have hdue := t.due _ hself ha.not_isOutbound
        rw [completion_of_homebound (x := ⟨id, a, k.now⟩) ha] at hdue
        rw [hnumber, time]
        exact hdue
      · exact .inl hc'

/-! ## Runs -/

/-- A kernel in the course of a run of a workload. -/
def Scheduled (w : Workload) (k : Kernel Environment Activity) : Prop :=
  k.Works w ∧ k.Accounted w.specs.length ∧
    ∃ granted queue ahead idle, k.Timetable w granted queue ahead idle

lemma Quiet.timetable (t : k.Timetable w granted queue ahead idle)
    (quiet : Quiet (program w.deployment) k k') : k'.Timetable w granted queue ahead idle := by
  refine ⟨t.taken, ?_, ?_, ?_, fun time htime => (t.idle time htime).trans quiet.now, ?_, ?_⟩
  · rw [Kernel.waiters, quiet.blocked]
    exact t.queue
  · rw [quiet.agenda]
    exact t.ahead
  · rw [quiet.agenda]
    exact t.free
  · rw [quiet.agenda]
    exact t.due
  · rw [quiet.completions]
    exact t.completions

lemma step_scheduled {stop : Option SimTime} (h : k.Scheduled w)
    (hstep : k.step (program w.deployment) stop = .goes k') : k'.Scheduled w := by
  obtain ⟨works, accounted, granted, queue, ahead, idle, t⟩ := h
  have hdone := step_accounted works.queued accounted hstep
  rcases step_cases works.queued.joined.order hstep with quiet | ⟨id, a, runs, turned⟩
  · exact ⟨quiet.works works, hdone, granted, queue, ahead, idle, quiet.timetable t⟩
  · exact ⟨turned.works_turn works runs, hdone, turned.timetable_turn t works runs⟩

/-- A run of a workload returns. -/
lemma Scheduled.run_returns {stop : Option SimTime} (h : k.Scheduled w) :
    ∃ fuel k', k.run (program w.deployment) stop fuel = some k' := by
  refine Kernel.run_returns (P := Scheduled w) Activity.weight (fun _ h => h.1.queued.joined.order)
    (fun _ _ h hstep => step_scheduled h hstep) (fun k id a h runs => ?_) h
  obtain ⟨spec, -, -, hstride⟩ := h.1.stride runs
  exact hstride.lighter

/-- When no process is left, every request has completed as scheduled. -/
lemma Scheduled.completed (h : k.Scheduled w) (agenda : k.agenda = []) {n : Nat}
    (hn : n < w.specs.length) :
    ∃ c frame, k.world.completion? n = some c ∧ c.result = .ok frame ∧
      (n, c.time) ∈ completions w.servers w.jobs := by
  obtain ⟨works, accounted, granted, queue, ahead, idle, t⟩ := h
  have hprocesses := works.queued.all_finished agenda
  have hblocked : k.blocked = [] := by
    rw [processes, agenda] at hprocesses
    exact hprocesses
  have hqueue : queue = [] := by
    rw [← List.map_eq_nil_iff (f := Prod.snd), t.queue, Kernel.waiters, hblocked]
    rfl
  have hahead : ahead = [] := by
    have hperm := t.ahead
    rw [agenda] at hperm
    exact List.map_eq_nil_iff.mp hperm.eq_nil
  have htaken := t.taken
  rw [hqueue, hahead, List.append_nil, List.append_nil] at htaken
  obtain ⟨c, hc, hmem⟩ := accounted.completed hprocesses hn
  obtain ⟨⟨frame, hframe⟩, hscheduled⟩ := t.completions _ hmem
  refine ⟨c, frame, hc, hframe, ?_⟩
  rw [completions, htaken]
  exact hscheduled

/-- **A run of a workload completes every request as scheduled.** -/
theorem Scheduled.run_completes (h : k.Scheduled w) {fuel : Nat}
    (hrun : k.run (program w.deployment) none fuel = some k') {n : Nat}
    (hn : n < w.specs.length) :
    ∃ c frame, k'.world.completion? n = some c ∧ c.result = .ok frame ∧
      (n, c.time) ∈ completions w.servers w.jobs := by
  refine run_induction (P := Scheduled w) (Q := fun k' => ∃ c frame,
    k'.world.completion? n = some c ∧ c.result = .ok frame ∧
      (n, c.time) ∈ completions w.servers w.jobs) k h
    (fun _ _ h hstep => step_scheduled h hstep) ?_ hrun
  intro k₁ k₂ h₁ hstep
  obtain ⟨rfl, hagenda⟩ := (step_ends h₁.1.queued.joined.order hstep).2 rfl
  exact h₁.completed hagenda hn

/-! ## Before a run -/

/-- **A workload that has been submitted** and has not begun to run is scheduled. -/
lemma scheduled_start (queued : k.Queued) (accounted : k.Accounted w.specs.length)
    (now : k.now = .zero) (blocked : k.blocked = []) (completions : k.world.completions = [])
    (rate : k.world.resources.rate? w.key = some w.rate)
    (line : ∃ s, k.world.resources.line w.key = some s ∧ s.count = w.servers)
    {processes : List (ProcessId × Activity)} (agenda : k.agenda = appointed .zero processes)
    (numbers : processes.map Prod.fst = List.range w.specs.length)
    (pending : ∀ p ∈ processes, p.2.role = .request p.1 ∧ ∃ spec, w.specs[p.1]? = some spec ∧
      p.2.Pending w.deployment w.key (w.amount spec) spec) : k.Scheduled w := by
  have hagenda : ∀ x ∈ k.agenda, x.time = .zero ∧ x.task.role = .request x.process ∧
      ∃ spec, w.specs[x.process]? = some spec ∧
        x.task.Pending w.deployment w.key (w.amount spec) spec := by
    intro x hx
    rw [agenda] at hx
    obtain ⟨p, hp, rfl⟩ := List.mem_map.mp hx
    exact ⟨rfl, pending p hp⟩
  have hpending : ∀ x ∈ k.agenda, x.task.isPending = true ∧ x.task.isOutbound = true ∧
      x.task.engaged = none := by
    intro x hx
    obtain ⟨-, -, spec, -, h⟩ := hagenda x hx
    exact ⟨h.isPending, h.isOutbound, h.not_engaged⟩
  refine ⟨⟨queued, rate, line, ?_, ?_, ?_, ?_, ?_⟩, accounted, [], [], inTurn w.jobs, w.free, ?_, ?_,
    ?_, ?_, ?_, ?_, ?_⟩
  · intro x hx
    obtain ⟨htime, -, spec, hspec, h⟩ := hagenda x hx
    exact ⟨spec, hspec, htime ▸ .pending h⟩
  · simp [blocked]
  · intro p hp
    rw [Kernel.processes, blocked, List.append_nil, agenda] at hp
    obtain ⟨x, hx, rfl⟩ := List.mem_map.mp hp
    exact (hagenda x (agenda ▸ hx)).2.1
  · -- Processes are numbered in the order in which they have been spawned.
    have hsorted : processes.Pairwise fun p q => p.1 < q.1 := by
      rw [← List.pairwise_map, numbers]
      exact List.pairwise_lt_range
    rw [InOrder, agenda, appointed, List.pairwise_map]
    exact hsorted.imp fun hlt _ _ _ => hlt
  · intro x hx _ y hy _ hnot
    rw [(hpending y hy).1] at hnot
    cases hnot
  · rfl
  · rw [Kernel.waiters, blocked]
    rfl
  · have houtbound : k.agenda.filterMap Appointment.outbound = k.agenda.map (·.process) := by
      rw [← List.filterMap_eq_map]
      refine List.filterMap_congr fun x hx => ?_
      rw [Appointment.outbound, if_pos (hpending x hx).2.1]
      rfl
    have hlength : w.jobs.length = w.specs.length := List.length_map _
    have hnumbers := inTurn_numbers w.jobs
    rw [hlength, ← numbers] at hnumbers
    rw [houtbound, agenda, appointed, List.map_map]
    exact hnumbers
  · have hdue : k.agenda.filterMap (Appointment.due w.key) = [] := by
      rw [List.filterMap_eq_nil_iff]
      intro x hx
      rw [Appointment.due, (hpending x hx).2.2, if_neg (by simp)]
    rw [hdue]
    exact List.Perm.refl _
  · intro time htime
    rw [now, List.eq_of_mem_replicate htime]
  · intro x hx hout
    rw [(hpending x hx).2.1] at hout
    cases hout
  · simp [completions]

end Kernel

end ServiceSim
