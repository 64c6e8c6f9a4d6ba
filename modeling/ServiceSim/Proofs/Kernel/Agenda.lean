import ServiceSim.Kernel.Basic
import ServiceSim.Proofs.Time
import Mathlib.Data.Multiset.AddSub
import Mathlib.Algebra.Order.Group.Multiset
import Mathlib.Data.List.TakeWhile
import Mathlib.Tactic.Abel

/-!
# The agenda of the kernel

The lists of a kernel say one thing in four ways: when every process will run.  `Kernel.agenda` puts
them together, a process and its time to an entry, and in this form most steps do nothing.  A
process that is dispatched, a sweep that begins and a clock that moves leave the agenda as it is;
only a turn changes it, and only by what the turn itself says.

`Kernel.step_cases` states this for a kernel in order (`Kernel.Orderly`), which every step leaves in
order.  Nothing else about the lists of a kernel is needed to reason about a run.
-/

namespace ServiceSim

/-- A process that will run, and when. -/
structure Appointment (Task : Type) where
  /-- The process. -/
  process : ProcessId
  /-- How it goes on. -/
  task : Task
  /-- When it runs. -/
  time : SimTime

variable {World Task : Type}

/-- The appointment of a process that is parked. -/
def Wakeup.appointment (w : Wakeup Task) : Appointment Task := ⟨w.process, w.task, w.due⟩

/-- The appointments of a process that goes on from a time. -/
def Next.appointments (id : ProcessId) (now : SimTime) : Next Task → List (Appointment Task)
  | .proceed task => [⟨id, task, now⟩]
  | .hold delay task => [⟨id, task, now.passing delay⟩]
  | .block _ => []
  | .finish => []

/-- The process, if it is blocked. -/
def Next.waiting (id : ProcessId) : Next Task → List (ProcessId × Task)
  | .block task => [(id, task)]
  | _ => []

namespace Kernel

/-- The appointments of processes that run at a time. -/
def appointed (now : SimTime) (processes : List (ProcessId × Task)) : List (Appointment Task) :=
  processes.map fun p => ⟨p.1, p.2, now⟩

/-- The appointments of all but the process that runs. -/
def others (k : Kernel World Task) : List (Appointment Task) :=
  appointed k.now (k.ready ++ k.incoming) ++ k.parked.map Wakeup.appointment

/-- The appointments of all processes that are not blocked. -/
def agenda (k : Kernel World Task) : List (Appointment Task) :=
  appointed k.now k.running.toList ++ k.others

/-- All processes that have not finished. -/
def processes (k : Kernel World Task) : List (ProcessId × Task) :=
  (k.agenda.map fun x => (x.process, x.task)) ++ k.blocked

/-- The processes that a turn spawns, with their identities. -/
def newborn (first : Nat) (tasks : List Task) : List (ProcessId × Task) :=
  tasks.mapIdx fun i task => (first + i, task)

/-- The parked processes stand in the order in which they are due, which is later than now. -/
structure Lined (k : Kernel World Task) : Prop where
  sorted : k.parked.Pairwise (·.due ≤ ·.due)
  later : ∀ w ∈ k.parked, k.now < w.due

/-- **A kernel in order.**  The parked processes are lined up, and no process is there twice. -/
structure Orderly (k : Kernel World Task) : Prop extends Lined k where
  distinct : (k.processes.map Prod.fst).Nodup
  counted : ∀ p ∈ k.processes, p.1 < k.spawned

/-! ## What steps do -/

/-- A step in which no process runs and that leaves them alone.  It may move the clock. -/
structure Quiet (program : Program World Task) (k k' : Kernel World Task) : Prop where
  idle : k.running = none
  agenda : k'.agenda = k.agenda
  blocked : k'.blocked = k.blocked
  spawned : k'.spawned = k.spawned
  now : k.now ≤ k'.now
  lined : k'.Lined
  world : k'.world = k.world ∨ ∃ time wakeups, k'.world = program.advanced time wakeups k.world

/-- A step in which a process takes a turn. -/
structure Turned (k k' : Kernel World Task) (id : ProcessId) (turn : Turn World Task) : Prop where
  agenda : k'.agenda.Perm (turn.next.appointments id k.now ++
    appointed k.now (k.blocked.filter (·.1 ∈ turn.woken)) ++
    appointed k.now (newborn k.spawned turn.spawned) ++ k.others)
  blocked : k'.blocked = k.blocked.filter (·.1 ∉ turn.woken) ++ turn.next.waiting id
  spawned : k'.spawned = k.spawned + turn.spawned.length
  now : k'.now = k.now
  lined : k'.Lined
  world : k'.world = turn.world
  applied : k' = k.applyTurn id turn

/-! ## Waking, spawning and parking -/

/-- The blocked process with an identity, of which there is at most one. -/
lemma filter_eq_find? (id : ProcessId) (l : List (ProcessId × Task))
    (distinct : (l.map Prod.fst).Nodup) :
    l.filter (·.1 = id) = (l.find? (·.1 == id)).toList := by
  induction l with
  | nil => rfl
  | cons p l ih =>
    rw [List.map_cons, List.nodup_cons] at distinct
    by_cases hp : p.1 = id
    · have hrest : l.filter (·.1 = id) = [] := by
        rw [List.filter_eq_nil_iff]
        intro q hq hid
        have hqid : q.1 = id := of_decide_eq_true hid
        apply distinct.1
        rw [hp, ← hqid]
        exact List.mem_map_of_mem hq
      rw [List.filter_cons_of_pos (by simpa using hp), List.find?_cons_of_pos (by simpa using hp),
        hrest]
      rfl
    · rw [List.filter_cons_of_neg (by simpa using hp), List.find?_cons_of_neg (by simpa using hp)]
      exact ih distinct.2

/-- Waking a process moves it from the blocked ones to the end of the ready ones. -/
lemma wake_eq (k : Kernel World Task) (id : ProcessId)
    (distinct : (k.blocked.map Prod.fst).Nodup) :
    k.wake id = { k with
      ready := k.ready ++ k.blocked.filter (·.1 = id)
      blocked := k.blocked.filter (·.1 ≠ id) } := by
  rw [filter_eq_find? id k.blocked distinct]
  unfold wake
  cases h : k.blocked.find? (·.1 == id) with
  | some p =>
    simp only [Option.toList_some]
    congr 1
    apply List.filter_congr
    intro q _
    rw [Bool.eq_iff_iff, bne_iff_ne, decide_eq_true_iff]
  | none =>
    rw [List.find?_eq_none] at h
    have hall : k.blocked.filter (·.1 ≠ id) = k.blocked := by
      rw [List.filter_eq_self]
      intro q hq
      simpa using h q hq
    rw [hall, Option.toList_none, List.append_nil]

/-- Waking processes moves them from the blocked ones to the end of the ready ones. -/
lemma wakeAll_eq (ids : List ProcessId) (k : Kernel World Task)
    (distinct : (k.blocked.map Prod.fst).Nodup) :
    ∃ woken, woken.Perm (k.blocked.filter (·.1 ∈ ids)) ∧
      k.wakeAll ids = { k with
        ready := k.ready ++ woken
        blocked := k.blocked.filter (·.1 ∉ ids) } := by
  induction ids generalizing k with
  | nil => exact ⟨[], by simp [wakeAll]⟩
  | cons id ids ih =>
    obtain ⟨woken, hperm, heq⟩ := ih (k.wake id) (by
      rw [wake_eq k id distinct]
      exact distinct.sublist (List.filter_sublist.map Prod.fst))
    have hfirst := wake_eq k id distinct
    refine ⟨k.blocked.filter (·.1 = id) ++ woken, ?_, ?_⟩
    · have hsplit := List.filter_append_perm (·.1 = id) (k.blocked.filter (·.1 ∈ id :: ids))
      refine List.Perm.trans (List.Perm.append ?_ ?_) hsplit
      · rw [List.filter_filter]
        apply List.Perm.of_eq
        apply List.filter_congr
        intro p _
        by_cases hp : p.1 = id <;> simp [hp]
      · refine hperm.trans (List.Perm.of_eq ?_)
        rw [hfirst, List.filter_filter, List.filter_filter]
        apply List.filter_congr
        intro p _
        by_cases hp : p.1 = id <;> simp [hp]
    · change (k.wake id).wakeAll ids = _
      rw [heq, hfirst, List.filter_filter]
      congr 1
      · exact List.append_assoc _ _ _
      · apply List.filter_congr
        intro p _
        by_cases hp : p.1 = id <;> simp [hp]

/-- Spawning processes puts them behind those that have been spawned. -/
lemma spawnAll_eq (tasks : List Task) (k : Kernel World Task) :
    k.spawnAll tasks = { k with
      spawned := k.spawned + tasks.length
      incoming := k.incoming ++ newborn k.spawned tasks } := by
  induction tasks generalizing k with
  | nil => simp [spawnAll, newborn]
  | cons task tasks ih =>
    change (k.spawn task).spawnAll tasks = _
    rw [ih]
    simp only [spawn, newborn, List.mapIdx_cons, List.length_cons, Nat.add_zero,
      List.append_assoc, List.singleton_append]
    have hnumber : ∀ i, k.spawned + 1 + i = k.spawned + (i + 1) := by omega
    simp only [hnumber]

/-- A wakeup stands among the parked ones, in whatever place. -/
lemma insertWakeup_perm (w : Wakeup Task) (l : List (Wakeup Task)) :
    (insertWakeup w l).Perm (w :: l) := by
  induction l with
  | nil => exact List.Perm.refl _
  | cons v l ih =>
    rw [insertWakeup]
    split_ifs
    · exact (ih.cons v).trans (List.Perm.swap w v l)
    · exact List.Perm.refl _

/-- A wakeup stands behind those that are due no later, and before all others. -/
lemma insertWakeup_pairwise {R : Wakeup Task → Wakeup Task → Prop} (w : Wakeup Task)
    (l : List (Wakeup Task)) (sorted : l.Pairwise (·.due ≤ ·.due)) (related : l.Pairwise R)
    (before : ∀ v ∈ l, v.due ≤ w.due → R v w) (after : ∀ v ∈ l, w.due < v.due → R w v) :
    (insertWakeup w l).Pairwise R := by
  induction l with
  | nil => exact List.pairwise_singleton _ _
  | cons v l ih =>
    rw [List.pairwise_cons] at sorted related
    rw [insertWakeup]
    split_ifs with h
    · refine List.Pairwise.cons ?_ (ih sorted.2 related.2
        (fun u hu => before u (List.mem_cons_of_mem _ hu))
        fun u hu => after u (List.mem_cons_of_mem _ hu))
      intro u hu
      rcases List.mem_cons.mp ((insertWakeup_perm w l).mem_iff.mp hu) with rfl | hu
      · exact before v List.mem_cons_self h
      · exact related.1 u hu
    · refine List.Pairwise.cons ?_ (List.pairwise_cons.mpr related)
      intro u hu
      refine after u hu ?_
      rcases List.mem_cons.mp hu with rfl | hu
      · exact lt_of_not_ge h
      · exact (lt_of_not_ge h).trans_le (sorted.1 u hu)

/-- Parking keeps the order in which processes are due. -/
lemma insertWakeup_sorted (w : Wakeup Task) (l : List (Wakeup Task))
    (sorted : l.Pairwise (·.due ≤ ·.due)) : (insertWakeup w l).Pairwise (·.due ≤ ·.due) :=
  insertWakeup_pairwise w l sorted sorted (fun _ _ h => h) fun _ _ h => le_of_lt h

/-! ## Turns -/

lemma agenda_running {k : Kernel World Task} {id : ProcessId} {a : Task}
    (runs : k.running = some (id, a)) :
    k.agenda = ⟨id, a, k.now⟩ :: k.others := by
  rw [agenda, runs]
  rfl

lemma Orderly.blocked_distinct {k : Kernel World Task} (order : k.Orderly) :
    (k.blocked.map Prod.fst).Nodup := by
  have h := order.distinct
  rw [processes, List.map_append] at h
  exact (List.nodup_append.mp h).2.1

/-- What a turn does to the lists of the kernel, before its process goes on. -/
lemma applyTurn_eq {k : Kernel World Task} (order : k.Orderly) (id : ProcessId)
    (turn : Turn World Task) :
    ∃ woken, woken.Perm (k.blocked.filter (·.1 ∈ turn.woken)) ∧
      k.applyTurn id turn = goOn id turn.next { k with
        world := turn.world
        ready := k.ready ++ woken
        blocked := k.blocked.filter (·.1 ∉ turn.woken)
        spawned := k.spawned + turn.spawned.length
        incoming := k.incoming ++ newborn k.spawned turn.spawned } := by
  obtain ⟨woken, hperm, hwake⟩ := wakeAll_eq turn.woken { k with world := turn.world }
    order.blocked_distinct
  refine ⟨woken, hperm, ?_⟩
  unfold applyTurn
  rw [hwake, spawnAll_eq]

/-- The process that takes a turn goes on as the turn says; all others stay where they are. -/
lemma goOn_agenda (k : Kernel World Task) (id : ProcessId) (next : Next Task) :
    (k.goOn id next).agenda.Perm (next.appointments id k.now ++ k.others) := by
  cases next with
  | proceed task => exact List.Perm.refl _
  | hold delay task =>
    by_cases hdue : k.now.after delay ≤ k.now
    · have hpassing : k.now.passing delay = k.now := SimTime.later_eq_left hdue
      simp only [goOn, if_pos hdue, Next.appointments, hpassing]
      exact List.Perm.refl _
    · have hpassing : k.now.passing delay = k.now.after delay :=
        SimTime.later_eq_right (le_of_not_ge hdue)
      simp only [goOn, if_neg hdue, Next.appointments, hpassing]
      have hpark := (insertWakeup_perm ⟨k.now.after delay, k.parkings, id, task⟩ k.parked).map
        Wakeup.appointment
      exact (hpark.append_left (appointed k.now (k.ready ++ k.incoming))).trans
        List.perm_middle
  | block task => exact List.Perm.refl _
  | finish => exact List.Perm.refl _

lemma goOn_blocked (k : Kernel World Task) (id : ProcessId) (next : Next Task) :
    (k.goOn id next).blocked = k.blocked ++ next.waiting id := by
  cases next with
  | hold delay task =>
    simp only [goOn, Next.waiting, List.append_nil]
    split_ifs <;> rfl
  | _ => simp [goOn, Next.waiting]

lemma goOn_now (k : Kernel World Task) (id : ProcessId) (next : Next Task) :
    (k.goOn id next).now = k.now := by
  cases next with
  | hold delay task =>
    simp only [goOn]
    split_ifs <;> rfl
  | _ => rfl

lemma goOn_world (k : Kernel World Task) (id : ProcessId) (next : Next Task) :
    (k.goOn id next).world = k.world := by
  cases next with
  | hold delay task =>
    simp only [goOn]
    split_ifs <;> rfl
  | _ => rfl

lemma goOn_spawned (k : Kernel World Task) (id : ProcessId) (next : Next Task) :
    (k.goOn id next).spawned = k.spawned := by
  cases next with
  | hold delay task =>
    simp only [goOn]
    split_ifs <;> rfl
  | _ => rfl

/-- Parking for a time that is not now keeps the parked processes in order. -/
lemma goOn_lined {k : Kernel World Task} (lined : k.Lined) (id : ProcessId) (next : Next Task) :
    (k.goOn id next).Lined := by
  cases next with
  | hold delay task =>
    simp only [goOn]
    split_ifs with hdue
    · exact ⟨lined.sorted, lined.later⟩
    · refine ⟨insertWakeup_sorted _ _ lined.sorted, ?_⟩
      intro w hw
      rcases List.mem_cons.mp ((insertWakeup_perm _ _).mem_iff.mp hw) with rfl | hw
      · exact lt_of_not_ge hdue
      · exact lined.later w hw
  | _ => exact ⟨lined.sorted, lined.later⟩

/-- A turn changes the lists of the kernel by what it says itself. -/
lemma applyTurn_turned {k : Kernel World Task} (order : k.Orderly) (id : ProcessId)
    (turn : Turn World Task) : Turned k (k.applyTurn id turn) id turn := by
  obtain ⟨woken, hperm, heq⟩ := applyTurn_eq order id turn
  refine ⟨?_, ?_, ?_, ?_, ?_, ?_, rfl⟩
  all_goals rw [heq]
  · refine (goOn_agenda _ id turn.next).trans ?_
    rw [List.append_assoc, List.append_assoc]
    refine List.Perm.append_left _ ?_
    have hwoken : (appointed k.now woken).Perm
        (appointed k.now (k.blocked.filter (·.1 ∈ turn.woken))) := hperm.map _
    refine List.Perm.trans ?_ (List.Perm.append_right _ hwoken)
    simp only [others, appointed, List.map_append]
    rw [← Multiset.coe_eq_coe]
    simp only [← Multiset.coe_add]
    abel
  · exact goOn_blocked _ id turn.next
  · exact goOn_spawned _ id turn.next
  · exact goOn_now _ id turn.next
  · apply goOn_lined
    exact ⟨order.sorted, order.later⟩
  · exact goOn_world _ id turn.next

/-! ## Other steps -/

/-- When no process can run, the agenda holds the parked processes. -/
lemma agenda_idle {k : Kernel World Task} (idle : k.running = none) (ready : k.ready = [])
    (incoming : k.incoming = []) : k.agenda = k.parked.map Wakeup.appointment := by
  rw [agenda, others, idle, ready, incoming]
  rfl

/-- Of processes in the order in which they are due, those that are due first are due at one
time. -/
lemma takeWhile_due {first : Wakeup Task} {rest : List (Wakeup Task)}
    (sorted : (first :: rest).Pairwise (·.due ≤ ·.due)) :
    ∀ w ∈ (first :: rest).takeWhile (·.due ≤ first.due), w.due = first.due := by
  intro w hw
  have hle : w.due ≤ first.due := by simpa using List.mem_takeWhile_imp hw
  rcases List.mem_cons.mp (List.takeWhile_subset _ hw) with rfl | hrest
  · rfl
  · exact le_antisymm hle ((List.pairwise_cons.mp sorted).1 w hrest)

lemma dropWhile_due {now : SimTime} {l : List (Wakeup Task)}
    (sorted : l.Pairwise (·.due ≤ ·.due)) : ∀ w ∈ l.dropWhile (·.due ≤ now), now < w.due := by
  induction l with
  | nil => simp
  | cons v l ih =>
    rw [List.pairwise_cons] at sorted
    intro w hw
    by_cases hv : v.due ≤ now
    · rw [List.dropWhile_cons_of_pos (by simpa using hv)] at hw
      exact ih sorted.2 w hw
    · rw [List.dropWhile_cons_of_neg (by simpa using hv)] at hw
      rcases List.mem_cons.mp hw with rfl | hw
      · exact lt_of_not_ge hv
      · exact (lt_of_not_ge hv).trans_le (sorted.1 w hw)

/-- The clock moves to the time at which the first process is due, and the agenda stays. -/
lemma advanceTo_quiet {k : Kernel World Task} {first : Wakeup Task} {rest : List (Wakeup Task)}
    (program : Program World Task) (order : k.Orderly) (idle : k.running = none)
    (ready : k.ready = []) (incoming : k.incoming = []) (parked : k.parked = first :: rest) :
    Quiet program k (k.advanceTo program first.due) := by
  have hfirst : k.now < first.due := order.later first (by rw [parked]; exact List.mem_cons_self)
  have hnow : k.now.later first.due = first.due := SimTime.later_eq_right (le_of_lt hfirst)
  refine ⟨idle, ?_, rfl, rfl, SimTime.le_later_left _ _, ⟨?_, dropWhile_due order.sorted⟩,
    .inr ⟨_, _, rfl⟩⟩
  rotate_left
  · exact order.sorted.sublist (List.dropWhile_sublist _)
  rw [agenda_idle idle ready incoming, parked]
  simp only [agenda, others, advanceTo, idle, ready, incoming, hnow, parked, appointed,
    Option.toList_none, List.map_nil, List.nil_append, List.append_nil, List.map_map]
  have hdue : ((first :: rest).takeWhile (·.due ≤ first.due)).map
      ((fun p => (⟨p.1, p.2, first.due⟩ : Appointment Task)) ∘ fun w => (w.process, w.task)) =
        ((first :: rest).takeWhile (·.due ≤ first.due)).map Wakeup.appointment := by
    refine List.map_congr_left fun w hw => ?_
    have := takeWhile_due (by rw [← parked]; exact order.sorted) w hw
    rw [Wakeup.appointment, this]
    rfl
  rw [hdue, ← List.map_append, List.takeWhile_append_dropWhile]

/-- **Inversion of a step.**  It leaves the processes alone, or it is the turn of one of them. -/
theorem step_cases {program : Program World Task} {stop : Option SimTime} {k k' : Kernel World Task}
    (order : k.Orderly) (h : k.step program stop = .goes k') :
    Quiet program k k' ∨ ∃ id a, k.running = some (id, a) ∧
      Turned k k' id (program.turn k.now id k.world a) := by
  unfold step at h
  split at h
  next id a runs =>
    injection h with h
    exact .inr ⟨id, a, runs, h ▸ applyTurn_turned order id _⟩
  next idle =>
    left
    split at h
    next p rest budget ready _ =>
      injection h with h
      subst h
      refine ⟨idle, ?_, rfl, rfl, le_refl _, ⟨order.sorted, order.later⟩, .inl rfl⟩
      simp only [agenda, others, appointed, idle, ready]
      rfl
    next ready =>
      split_ifs at h with incoming
      · rw [List.isEmpty_iff] at incoming
        unfold advance at h
        split at h
        · cases h
        next first rest parked =>
          have hquiet := advanceTo_quiet program order idle ready incoming parked
          cases stop with
          | none =>
            injection h with h
            exact h ▸ hquiet
          | some s =>
            dsimp only at h
            split_ifs at h
            injection h with h
            exact h ▸ hquiet
      · injection h with h
        subst h
        refine ⟨idle, ?_, rfl, rfl, le_refl _, ⟨order.sorted, order.later⟩, .inl rfl⟩
        simp only [beginSweep, agenda, others, appointed, List.append_nil]
    next =>
      injection h with h
      subst h
      refine ⟨idle, ?_, rfl, rfl, le_refl _, ⟨order.sorted, order.later⟩, .inl rfl⟩
      simp only [beginSweep, agenda, others, appointed, List.append_nil]

/-- A run that ends leaves the processes alone.  If it has no time to stop at, none is left that
could run. -/
theorem step_ends {program : Program World Task} {stop : Option SimTime} {k k' : Kernel World Task}
    (order : k.Orderly) (h : k.step program stop = .ends k') :
    Quiet program k k' ∧ (stop = none → k' = k ∧ k.agenda = []) := by
  unfold step at h
  split at h
  · cases h
  next idle =>
    split at h
    · cases h
    next ready =>
      split_ifs at h with incoming
      rw [List.isEmpty_iff] at incoming
      unfold advance at h
      split at h
      next parked =>
        injection h with h
        subst h
        refine ⟨⟨idle, rfl, rfl, rfl, le_refl _, ⟨order.sorted, order.later⟩, .inl rfl⟩,
          fun _ => ⟨rfl, ?_⟩⟩
        rw [agenda_idle idle ready incoming, parked]
        rfl
      next first rest parked =>
        cases stop with
        | none => cases h
        | some s =>
          dsimp only at h
          split_ifs at h with hstop
          injection h with h
          subst h
          refine ⟨⟨idle, ?_, rfl, rfl, SimTime.le_later_left _ _, ⟨order.sorted, ?_⟩, .inl rfl⟩,
            fun none => by cases none⟩
          · rw [agenda_idle idle ready incoming, agenda_idle]
            exacts [idle, ready, incoming]
          · have hsorted := order.sorted
            rw [parked, List.pairwise_cons] at hsorted
            intro w hw
            have hfirst : s < w.due := by
              have hw' : w ∈ first :: rest := parked ▸ hw
              rcases List.mem_cons.mp hw' with rfl | hrest
              · exact hstop
              · exact lt_of_lt_of_le hstop (hsorted.1 w hrest)
            change k.now.later s < w.due
            rw [SimTime.later_eq_max]
            exact max_lt (order.later w hw) hfirst
    · cases h

/-- A run ends only when no process is to run now. -/
lemma step_ends_later {program : Program World Task} {stop : Option SimTime}
    {k k' : Kernel World Task} (order : k.Orderly) (h : k.step program stop = .ends k')
    {x : Appointment Task} (hx : x ∈ k.agenda) : k.now < x.time := by
  unfold step at h
  split at h
  · cases h
  next idle =>
    split at h
    · cases h
    next ready =>
      split_ifs at h with incoming
      rw [agenda_idle idle ready (List.isEmpty_iff.mp incoming)] at hx
      obtain ⟨w, hw, rfl⟩ := List.mem_map.mp hx
      exact order.later w hw
    · cases h

end Kernel

end ServiceSim
