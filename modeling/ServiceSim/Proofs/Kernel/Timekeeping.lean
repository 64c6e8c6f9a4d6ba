import ServiceSim.Proofs.Kernel.Processes
import ServiceSim.Proofs.Kernel.Stopping
import Mathlib.Logic.Relation
import Mathlib.Data.List.Nodup
import Mathlib.Data.List.Perm.Basic

/-!
# Timekeeping

An observer of a kernel writes a diary of holds: which processes have been parked, which have been
woken because their time had come, and which have resumed and when.  The diary reads only what the
states before and after a step show.

In every course of events (`Kernel.Course`), of whatever processes and runs, each hold is in exactly
one of three places: it is parked until a time that is still to come, it has been woken at that very
time and is ready to run, or it has resumed, once and at that time.  Holds are woken in the order of
their times, and in the order of parking where the times are equal.  Nothing is left between waking
and resuming when a run ends.  `holds_keep_time` puts this together with what the clock does.
-/

namespace ServiceSim

variable {World Task : Type}

/-- What has been observed of the holds that park a process. -/
structure Diary (Task : Type) where
  /-- The holds, in the order in which they were parked. -/
  parked : List (Wakeup Task)
  /-- Those that have been woken, in order. -/
  woken : List (Wakeup Task)
  /-- Those whose processes have been given control again, with the time and the task with which
  each went on, in order. -/
  resumed : List (Wakeup Task × SimTime × Task)

namespace Diary

/-- The diary before anything happens. -/
def empty : Diary Task := ⟨[], [], []⟩

/-- The holds that have been woken and have not resumed. -/
def outstanding (l : Diary Task) : List (Wakeup Task) :=
  l.woken.filter fun w => !(l.resumed.any fun r => r.1.order == w.order)

/-- A process is given control: if a hold of it is outstanding, it resumes. -/
def dispatch (p : ProcessId × Task) (now : SimTime) (l : Diary Task) : Diary Task :=
  match l.outstanding.find? (·.process == p.1) with
  | some w => { l with resumed := l.resumed ++ [(w, now, p.2)] }
  | none => l

/-- The diary after a step.  A turn may park its process.  Where no process runs, one may be
dispatched, and whoever is parked no longer has been woken. -/
def record (program : Program World Task) (k k' : Kernel World Task) (l : Diary Task) :
    Diary Task :=
  match k.running with
  | some (id, a) =>
    match (program.turn k.now id k.world a).next with
    | .hold delay b =>
      if k.now < k.now.after delay then
        { l with parked := l.parked ++ [⟨k.now.after delay, l.parked.length, id, b⟩] }
      else l
    | _ => l
  | none =>
    match k'.running with
    | some p => l.dispatch p k'.now
    | none =>
      { l with woken := l.woken ++ k.parked.filter fun w => !(k'.parked.any (·.order == w.order)) }

end Diary

/-- A hold comes before another: it is due earlier, or at the same time and was parked earlier. -/
def Wakeup.Before (v w : Wakeup Task) : Prop := v.due < w.due ∨ v.due = w.due ∧ v.order < w.order

namespace Kernel

/-! ## Courses of events -/

/-- What happens to a kernel, and what the diary says of it: a run takes a step or ends, a process
is spawned from outside, or what the processes share is changed. -/
inductive Happens (program : Program World Task) :
    Kernel World Task × Diary Task → Kernel World Task × Diary Task → Prop where
  | goes {stop : Option SimTime} {k k' : Kernel World Task} {l : Diary Task} :
      k.step program stop = .goes k' → Happens program (k, l) (k', l.record program k k')
  | rests {stop : Option SimTime} {k k' : Kernel World Task} {l : Diary Task} :
      k.step program stop = .ends k' → Happens program (k, l) (k', l)
  | spawns {k : Kernel World Task} {l : Diary Task} (task : Task) :
      Happens program (k, l) (k.spawn task, l)
  | changes {k : Kernel World Task} {l : Diary Task} (f : World → World) :
      Happens program (k, l) (k.mapWorld f, l)

/-- The kernels that come about from one without processes, with their diaries. -/
def Course (program : Program World Task) (k : Kernel World Task) (l : Diary Task) : Prop :=
  ∃ world, Relation.ReflTransGen (Happens program) (initial world, Diary.empty) (k, l)

variable {program : Program World Task} {stop : Option SimTime} {k k' : Kernel World Task}
  {l : Diary Task} {id : ProcessId} {a : Task} {x y : Kernel World Task × Diary Task}

/-- **The diary agrees with the kernel.** -/
structure Kept (k : Kernel World Task) (l : Diary Task) : Prop where
  order : k.Orderly
  numbered : l.parked.map Wakeup.order = List.range k.parkings
  partition : l.parked.Perm (k.parked ++ l.woken)
  sorted : k.parked.Pairwise Wakeup.Before
  inOrder : l.woken.Pairwise Wakeup.Before
  passed : ∀ w ∈ l.woken, w.due ≤ k.now
  called : ∃ called, l.woken = l.resumed.map Prod.fst ++ called ∧
    (called.map fun w => (w.process, w.task)).Sublist k.ready ∧ ∀ w ∈ called, w.due = k.now
  punctual : ∀ r ∈ l.resumed, r.2 = (r.1.due, r.1.task)

/-- No two holds have one number. -/
lemma Kept.distinct (h : Kept k l) : ((k.parked ++ l.woken).map Wakeup.order).Nodup := by
  rw [← (h.partition.map Wakeup.order).nodup_iff, h.numbered]
  exact List.nodup_range

/-- The numbers of holds are those of past parkings. -/
lemma Kept.order_lt (h : Kept k l) {w : Wakeup Task} (hw : w ∈ k.parked) :
    w.order < k.parkings := by
  have hmem : w.order ∈ l.parked.map Wakeup.order :=
    List.mem_map_of_mem (h.partition.mem_iff.mpr (List.mem_append_left _ hw))
  rw [h.numbered] at hmem
  exact List.mem_range.mp hmem

/-- The outstanding holds are the last ones of those that have been woken. -/
lemma Kept.outstanding (h : Kept k l) {called : List (Wakeup Task)}
    (hwoken : l.woken = l.resumed.map Prod.fst ++ called) : l.outstanding = called := by
  have hdistinct : (l.woken.map Wakeup.order).Nodup := by
    have hall := h.distinct
    rw [List.map_append] at hall
    exact (List.nodup_append.mp hall).2.1
  rw [hwoken, List.map_append, List.nodup_append] at hdistinct
  rw [Diary.outstanding, hwoken, List.filter_append]
  have hfirst : (l.resumed.map Prod.fst).filter
      (fun w => !(l.resumed.any fun r => r.1.order == w.order)) = [] := by
    refine List.filter_eq_nil_iff.mpr fun w hw => ?_
    obtain ⟨r, hr, rfl⟩ := List.mem_map.mp hw
    have hany : l.resumed.any (fun q => q.1.order == r.1.order) = true :=
      List.any_eq_true.mpr ⟨r, hr, beq_self_eq_true _⟩
    simp [hany]
  have hsecond : called.filter (fun w => !(l.resumed.any fun r => r.1.order == w.order)) =
      called := by
    refine List.filter_eq_self.mpr fun w hw => ?_
    have hnone : l.resumed.any (fun r => r.1.order == w.order) = false := by
      refine List.any_eq_false.mpr fun r hr hsame => ?_
      have hr' : r.1.order ∈ (l.resumed.map Prod.fst).map Wakeup.order :=
        List.mem_map_of_mem (List.mem_map_of_mem hr)
      exact hdistinct.2.2 _ hr' _ (List.mem_map_of_mem hw) (eq_of_beq hsame)
    simp [hnone]
  rw [hfirst, hsecond, List.nil_append]

/-! ## Turns -/

/-- A turn that does not park its process leaves the diary as it is. -/
lemma Kept.unparked (h : Kept k l) (order : k'.Orderly) (parked : k'.parked = k.parked)
    (parkings : k'.parkings = k.parkings) (now : k'.now = k.now)
    (ready : k.ready.Sublist k'.ready) : Kept k' l := by
  obtain ⟨called, hwoken, hready, hdue⟩ := h.called
  refine ⟨order, parkings ▸ h.numbered, parked ▸ h.partition, parked ▸ h.sorted, h.inOrder,
    now ▸ h.passed, ⟨called, hwoken, hready.trans ready, now ▸ hdue⟩, h.punctual⟩

/-- A turn that parks its process adds one hold. -/
lemma Kept.parks (h : Kept k l) (order : k'.Orderly) {w : Wakeup Task}
    (number : w.order = k.parkings) (parked : k'.parked = insertWakeup w k.parked)
    (parkings : k'.parkings = k.parkings + 1) (now : k'.now = k.now)
    (ready : k.ready.Sublist k'.ready) : Kept k' { l with parked := l.parked ++ [w] } := by
  obtain ⟨called, hwoken, hready, hdue⟩ := h.called
  refine ⟨order, ?_, ?_, ?_, h.inOrder, now ▸ h.passed,
    ⟨called, hwoken, hready.trans ready, now ▸ hdue⟩, h.punctual⟩
  · rw [List.map_append, h.numbered, List.map_singleton, number, parkings, List.range_succ]
  · rw [parked]
    have hlast : (l.parked ++ [w]).Perm (w :: (k.parked ++ l.woken)) :=
      (List.perm_append_singleton _ _).trans (h.partition.cons w)
    exact hlast.trans ((insertWakeup_perm w k.parked).symm.append_right l.woken)
  · rw [parked]
    refine insertWakeup_pairwise w k.parked h.order.sorted h.sorted (fun v hv hle => ?_)
      fun v _ hlt => .inl hlt
    rcases lt_or_eq_of_le hle with hlt | heq
    · exact .inl hlt
    · exact .inr ⟨heq, number ▸ h.order_lt hv⟩

/-- The diary has as many holds as there have been parkings. -/
lemma Kept.length (h : Kept k l) : l.parked.length = k.parkings := by
  have hlength := congrArg List.length h.numbered
  rwa [List.length_map, List.length_range] at hlength

lemma Kept.turn (h : Kept k l) (runs : k.running = some (id, a))
    (hstep : k.step program stop = .goes k') : Kept k' (l.record program k k') := by
  have horder := step_orderly h.order hstep
  have happlied := (step_turned h.order runs hstep).applied
  obtain ⟨woken, -, heq⟩ := applyTurn_eq h.order id (program.turn k.now id k.world a)
  rw [heq] at happlied
  have hready : k.ready.Sublist (k.ready ++ woken) := List.sublist_append_left _ _
  simp only [Diary.record, runs]
  cases hnext : (program.turn k.now id k.world a).next with
  | hold delay b =>
    rw [hnext, goOn] at happlied
    dsimp only at happlied ⊢
    by_cases hdue : k.now < k.now.after delay
    · rw [if_neg (not_le.mpr hdue)] at happlied
      rw [if_pos hdue, h.length]
      subst happlied
      exact h.parks horder rfl rfl rfl rfl hready
    · rw [if_pos (not_lt.mp hdue)] at happlied
      rw [if_neg hdue]
      subst happlied
      exact h.unparked horder rfl rfl rfl hready
  | proceed b =>
    rw [hnext] at happlied
    subst happlied
    exact h.unparked horder rfl rfl rfl hready
  | block b =>
    rw [hnext] at happlied
    subst happlied
    exact h.unparked horder rfl rfl rfl hready
  | finish =>
    rw [hnext] at happlied
    subst happlied
    exact h.unparked horder rfl rfl rfl hready

/-! ## Other steps -/

/-- Where the processes are. -/
lemma processes_identities (k : Kernel World Task) :
    k.processes.map Prod.fst = (k.running.toList.map Prod.fst ++ k.ready.map Prod.fst ++
      k.incoming.map Prod.fst) ++ (k.parked.map Wakeup.process ++ k.blocked.map Prod.fst) := by
  simp only [processes, agenda, others, appointed, List.map_append, List.map_map,
    List.append_assoc]
  rfl

/-- No process is twice among the ready ones. -/
lemma Orderly.ready_distinct (order : k.Orderly) : (k.ready.map Prod.fst).Nodup := by
  have hdistinct := order.distinct
  rw [processes_identities] at hdistinct
  have hfront := (List.nodup_append.mp (List.nodup_append.mp hdistinct).1).1
  exact (List.nodup_append.mp hfront).2.1

/-- A process that is parked is nowhere else. -/
lemma Orderly.waits (order : k.Orderly) {w : Wakeup Task} (hw : w ∈ k.parked) (a : Task) :
    k.running ≠ some (w.process, a) ∧ (w.process, a) ∉ k.ready := by
  have hdistinct := order.distinct
  rw [processes_identities] at hdistinct
  have hparked : w.process ∈ k.parked.map Wakeup.process ++ k.blocked.map Prod.fst :=
    List.mem_append_left _ (List.mem_map_of_mem hw)
  have hnowhere := fun i hi => (List.nodup_append.mp hdistinct).2.2 i hi w.process hparked
  refine ⟨fun hruns => hnowhere w.process ?_ rfl, fun hready => hnowhere w.process ?_ rfl⟩
  · rw [hruns]
    exact List.mem_cons_self
  · exact List.mem_append_left _ (List.mem_append_right _ (List.mem_map_of_mem hready))

/-- A process is dispatched.  If it was woken because its time had come, it resumes at that time. -/
lemma Kept.dispatches (h : Kept k l) (order : k'.Orderly) {p : ProcessId × Task}
    (ready : k.ready = p :: k'.ready) (parked : k'.parked = k.parked)
    (parkings : k'.parkings = k.parkings) (now : k'.now = k.now) :
    Kept k' (l.dispatch p k'.now) := by
  obtain ⟨called, hwoken, hready, hdue⟩ := h.called
  have hdistinct := h.order.ready_distinct
  rw [ready, List.map_cons, List.nodup_cons] at hdistinct
  rw [ready] at hready
  rw [Diary.dispatch, h.outstanding hwoken, now]
  generalize hcalled : (called.map fun w => (w.process, w.task)) = waiting at hready
  cases hready with
  | cons _ hrest =>
    subst hcalled
    -- None of the outstanding holds is one of this process.
    have hnone : called.find? (·.process == p.1) = none := by
      refine List.find?_eq_none.mpr fun w hw hid => hdistinct.1 ?_
      have hmem : (w.process, w.task) ∈ k'.ready := hrest.subset (List.mem_map_of_mem hw)
      rw [← eq_of_beq hid]
      exact List.mem_map_of_mem hmem
    rw [hnone]
    exact ⟨order, parkings ▸ h.numbered, parked ▸ h.partition, parked ▸ h.sorted, h.inOrder,
      now ▸ h.passed, ⟨called, hwoken, hrest, now ▸ hdue⟩, h.punctual⟩
  | cons_cons _ hrest =>
    cases called with
    | nil => cases hcalled
    | cons w others =>
      rw [List.map_cons, List.cons_eq_cons] at hcalled
      obtain ⟨hw, hothers⟩ := hcalled
      have hsome : (w :: others).find? (·.process == p.1) = some w := by
        rw [List.find?_cons_of_pos]
        rw [← hw]
        exact beq_self_eq_true _
      rw [hsome]
      refine ⟨order, parkings ▸ h.numbered, parked ▸ h.partition, parked ▸ h.sorted, h.inOrder,
        now ▸ h.passed, ⟨others, ?_, hothers ▸ hrest, fun v hv => ?_⟩, fun r hr => ?_⟩
      · rw [hwoken, List.map_append, List.append_assoc]
        rfl
      · rw [now]
        exact hdue v (List.mem_cons_of_mem _ hv)
      · rcases List.mem_append.mp hr with hr | hr
        · exact h.punctual r hr
        · rw [List.mem_singleton.mp hr]
          rw [← hw, hdue w List.mem_cons_self]

/-- Nobody is parked any longer of those that have been taken from the parked ones. -/
lemma filter_woken {taken left : List (Wakeup Task)}
    (distinct : ((taken ++ left).map Wakeup.order).Nodup) :
    (taken ++ left).filter (fun w => !(left.any (·.order == w.order))) = taken := by
  rw [List.map_append, List.nodup_append] at distinct
  rw [List.filter_append]
  have hleft : left.filter (fun w => !(left.any (·.order == w.order))) = [] := by
    refine List.filter_eq_nil_iff.mpr fun w hw => ?_
    have hany : left.any (·.order == w.order) = true :=
      List.any_eq_true.mpr ⟨w, hw, beq_self_eq_true _⟩
    simp [hany]
  have htaken : taken.filter (fun w => !(left.any (·.order == w.order))) = taken := by
    refine List.filter_eq_self.mpr fun w hw => ?_
    have hnone : left.any (·.order == w.order) = false := by
      refine List.any_eq_false.mpr fun v hv hsame => ?_
      exact distinct.2.2 _ (List.mem_map_of_mem hw) _ (List.mem_map_of_mem hv)
        (eq_of_beq hsame).symm
    simp [hnone]
  rw [hleft, htaken, List.append_nil]

/-- When nobody is ready, all that have been woken have resumed. -/
lemma Kept.all_resumed (h : Kept k l) (ready : k.ready = []) :
    l.woken = l.resumed.map Prod.fst := by
  obtain ⟨called, hwoken, hready, -⟩ := h.called
  rw [ready, List.sublist_nil, List.map_eq_nil_iff] at hready
  rw [hwoken, hready, List.append_nil]

/-- The clock moves, and those that are due are woken. -/
lemma Kept.advances (h : Kept k l) (order : k'.Orderly) (taken : List (Wakeup Task))
    (idle : k.ready = []) (parked : k.parked = taken ++ k'.parked)
    (ready : k'.ready = taken.map fun w => (w.process, w.task))
    (parkings : k'.parkings = k.parkings) (due : ∀ w ∈ taken, w.due = k'.now)
    (now : k.now ≤ k'.now) :
    Kept k' { l with
      woken := l.woken ++ k.parked.filter fun w => !(k'.parked.any (·.order == w.order)) } := by
  have hdistinct := h.distinct
  rw [parked, List.map_append] at hdistinct
  rw [parked, filter_woken (List.nodup_append.mp hdistinct).1]
  have hsorted := h.sorted
  rw [parked, List.pairwise_append] at hsorted
  refine ⟨order, parkings ▸ h.numbered, ?_, hsorted.2.1, ?_, ?_, ⟨taken, ?_, ?_, due⟩, h.punctual⟩
  · refine h.partition.trans ?_
    rw [parked]
    have hswap : (taken ++ k'.parked ++ l.woken).Perm (k'.parked ++ taken ++ l.woken) :=
      List.perm_append_comm.append_right _
    refine hswap.trans ?_
    rw [List.append_assoc]
    exact List.perm_append_comm.append_left _
  · refine List.pairwise_append.mpr ⟨h.inOrder, hsorted.1, fun v hv w hw => .inl ?_⟩
    have hlater : k.now < w.due :=
      h.order.later w (by rw [parked]; exact List.mem_append_left _ hw)
    exact (h.passed v hv).trans_lt hlater
  · intro w hw
    rcases List.mem_append.mp hw with hw | hw
    · exact (h.passed w hw).trans now
    · exact le_of_eq (due w hw)
  · rw [h.all_resumed idle]
  · rw [ready]

/-- Where nobody is dispatched and nobody parked is woken, the diary stays. -/
lemma record_idle (idle : k.running = none) (idle' : k'.running = none)
    (parked : k'.parked = k.parked) : l.record program k k' = l := by
  have hnone : k.parked.filter (fun w => !(k'.parked.any (·.order == w.order))) = [] := by
    rw [parked]
    refine List.filter_eq_nil_iff.mpr fun w hw => ?_
    have hany : k.parked.any (·.order == w.order) = true :=
      List.any_eq_true.mpr ⟨w, hw, beq_self_eq_true _⟩
    simp [hany]
  simp only [Diary.record, idle, idle', hnone, List.append_nil]

/-- A step in which the clock moves. -/
lemma Kept.clock (h : Kept k l) (idle : k.running = none) (ready : k.ready = [])
    {first : Wakeup Task} {rest : List (Wakeup Task)} (parked : k.parked = first :: rest)
    (order : (k.advanceTo program first.due).Orderly) :
    Kept (k.advanceTo program first.due)
      (l.record program k (k.advanceTo program first.due)) := by
  have hfirst : k.now < first.due := h.order.later first (by rw [parked]; exact List.mem_cons_self)
  have hnow : k.now.later first.due = first.due := SimTime.later_eq_right (le_of_lt hfirst)
  have hidle : (k.advanceTo program first.due).running = none := idle
  simp only [Diary.record, idle, hidle]
  refine h.advances order (k.parked.takeWhile (·.due ≤ k.now.later first.due)) ready
    (List.takeWhile_append_dropWhile).symm ?_ rfl ?_ (SimTime.le_later_left _ _)
  · change k.ready ++ _ = _
    rw [ready, List.nil_append]
  · intro w hw
    rw [parked, hnow] at hw
    change w.due = k.now.later first.due
    rw [hnow]
    exact takeWhile_due (parked ▸ h.order.sorted) w hw

/-- **Every step keeps the diary in agreement with the kernel.** -/
lemma Kept.goes (h : Kept k l) (hstep : k.step program stop = .goes k') :
    Kept k' (l.record program k k') := by
  cases hruns : k.running with
  | some p => exact h.turn hruns hstep
  | none =>
    have horder := step_orderly h.order hstep
    rw [step, hruns] at hstep
    dsimp only at hstep
    split at hstep
    next p rest budget hready hbudget =>
      injection hstep with hstep
      subst hstep
      have hrecord : l.record program k
          { k with running := some p, ready := rest, budget := budget } = l.dispatch p k.now := by
        simp only [Diary.record, hruns]
      rw [hrecord]
      exact h.dispatches horder hready rfl rfl rfl
    next hready =>
      split_ifs at hstep with hincoming
      · rw [advance] at hstep
        split at hstep
        · cases hstep
        next first rest hparked =>
          have hgoes : k' = k.advanceTo program first.due := by
            cases stop with
            | none =>
              injection hstep with hstep
              exact hstep.symm
            | some s =>
              dsimp only at hstep
              split_ifs at hstep
              injection hstep with hstep
              exact hstep.symm
          subst hgoes
          exact h.clock hruns hready hparked horder
      · injection hstep with hstep
        subst hstep
        have hrecord : l.record program k k.beginSweep = l := record_idle hruns hruns rfl
        rw [hrecord]
        exact h.unparked horder rfl rfl rfl (List.sublist_append_left _ _)
    next =>
      injection hstep with hstep
      subst hstep
      have hrecord : l.record program k k.beginSweep = l := record_idle hruns hruns rfl
      rw [hrecord]
      exact h.unparked horder rfl rfl rfl (List.sublist_append_left _ _)

/-- When a run ends nobody is ready, and whoever is parked stays so, being due after the time to stop
at. -/
lemma step_ends_spec (hstep : k.step program stop = .ends k') (lined : k.Lined) :
    k.ready = [] ∧ (∃ now, k.now ≤ now ∧ k' = { k with now := now }) ∧
      ∀ w ∈ k.parked, ∃ s, stop = some s ∧ s < w.due := by
  rw [step] at hstep
  split at hstep
  · cases hstep
  next hruns =>
    split at hstep
    · cases hstep
    next hready =>
      refine ⟨hready, ?_⟩
      split_ifs at hstep
      rw [advance] at hstep
      split at hstep
      next hparked =>
        injection hstep with hstep
        refine ⟨⟨k.now, le_refl _, hstep.symm⟩, fun w hw => ?_⟩
        rw [hparked] at hw
        cases hw
      next first rest hparked =>
        cases stop with
        | none => cases hstep
        | some s =>
          dsimp only at hstep
          split_ifs at hstep with hbefore
          injection hstep with hstep
          refine ⟨⟨k.now.later s, SimTime.le_later_left _ _, hstep.symm⟩, fun w hw => ⟨s, rfl, ?_⟩⟩
          have hsorted := lined.sorted
          rw [hparked, List.pairwise_cons] at hsorted
          rw [hparked] at hw
          rcases List.mem_cons.mp hw with rfl | hw
          · exact hbefore
          · exact lt_of_lt_of_le hbefore (hsorted.1 w hw)
    · cases hstep

/-- When a run ends everybody who is not blocked is due after the time to stop at. -/
lemma step_ends_beyond (hstep : k.step program stop = .ends k') (lined : k.Lined)
    {x : Appointment Task} (hx : x ∈ k.agenda) : beyond x.time stop = true := by
  have hparked := (step_ends_spec hstep lined).2.2
  rw [step] at hstep
  split at hstep
  · cases hstep
  next hruns =>
    split at hstep
    · cases hstep
    next hready =>
      split_ifs at hstep with hincoming
      rw [agenda_idle hruns hready (List.isEmpty_iff.mp hincoming)] at hx
      obtain ⟨w, hw, rfl⟩ := List.mem_map.mp hx
      obtain ⟨s, rfl, hs⟩ := hparked w hw
      exact decide_eq_true hs
    · cases hstep

lemma Kept.rests (h : Kept k l) (hstep : k.step program stop = .ends k') : Kept k' l := by
  have horder := (step_ends h.order hstep).1.orderly h.order
  obtain ⟨hready, ⟨now, hnow, rfl⟩, -⟩ := step_ends_spec hstep h.order.toLined
  have hwoken := h.all_resumed hready
  refine ⟨horder, h.numbered, h.partition, h.sorted, h.inOrder,
    fun w hw => (h.passed w hw).trans hnow, ⟨[], ?_, List.nil_sublist _, by simp⟩, h.punctual⟩
  rw [List.append_nil]
  exact hwoken

lemma Kept.happens (h : Kept x.1 x.2) (event : Happens program x y) : Kept y.1 y.2 := by
  cases event with
  | goes hstep => exact h.goes hstep
  | rests hstep => exact h.rests hstep
  | spawns task => exact h.unparked (spawn_orderly task h.order) rfl rfl rfl (List.Sublist.refl _)
  | changes f => exact h.unparked (mapWorld_orderly f h.order) rfl rfl rfl (List.Sublist.refl _)

lemma initial_kept (world : World) : Kept (initial world : Kernel World Task) Diary.empty :=
  ⟨initial_orderly world, rfl, List.Perm.nil, List.Pairwise.nil, List.Pairwise.nil,
    fun _ hw => (by cases hw), ⟨[], rfl, List.Sublist.refl _, fun _ hw => (by cases hw)⟩,
    fun _ hr => (by cases hr)⟩

lemma Course.kept (h : Course program k l) : Kept k l := by
  obtain ⟨world, hevents⟩ := h
  have hall : ∀ x, Relation.ReflTransGen (Happens program) (initial world, Diary.empty) x →
      Kept x.1 x.2 := by
    intro x hx
    induction hx with
    | refl => exact initial_kept world
    | tail _ event ih => exact ih.happens event
  exact hall _ hevents

/-! ## The clock -/

/-- A step of a run, one that goes on or the last one. -/
def Takes (program : Program World Task) (stop : Option SimTime) (k k' : Kernel World Task) : Prop :=
  k.step program stop = .goes k' ∨ k.step program stop = .ends k'

lemma step_now_le (order : k.Orderly)
    (hstep : Takes program stop k k') : k.now ≤ k'.now := by
  rcases hstep with hstep | hstep
  · rcases step_cases order hstep with quiet | ⟨id, a, -, turned⟩
    · exact quiet.now
    · exact le_of_eq turned.now.symm
  · exact (step_ends order hstep).1.now

/-- **The clock never decreases**, whatever happens. -/
lemma Course.now_le (h : Course program k l)
    (later : Relation.ReflTransGen (Happens program) (k, l) y) : k.now ≤ y.1.now := by
  have hall : Kept y.1 y.2 ∧ k.now ≤ y.1.now := by
    induction later with
    | refl => exact ⟨h.kept, le_refl _⟩
    | tail _ event ih =>
      refine ⟨ih.1.happens event, ih.2.trans ?_⟩
      cases event with
      | goes hstep => exact step_now_le ih.1.order (.inl hstep)
      | rests hstep => exact step_now_le ih.1.order (.inr hstep)
      | spawns task => exact le_refl _
      | changes f => exact le_refl _
  exact hall.2

/-- A step does not pass both the clock and the time to stop at. -/
lemma step_now_stop {s : SimTime} (order : k.Orderly) (hstep : Takes program (some s) k k') :
    k'.now ≤ k.now.later s := by
  have hstays : k.now ≤ k.now.later s := SimTime.le_later_left _ _
  cases hruns : k.running with
  | some p =>
    obtain ⟨id, a⟩ := p
    rcases hstep with hstep | hstep
    · rw [(step_turned order hruns hstep).now]
      exact hstays
    · rw [step, hruns] at hstep
      cases hstep
  | none =>
    by_cases hwork : k.ready = [] ∧ k.incoming.isEmpty
    · rw [Takes, step_idle hruns hwork.1 hwork.2] at hstep
      cases hparked : k.parked with
      | nil =>
        rw [advance, hparked] at hstep
        rcases hstep with hstep | hstep
        · cases hstep
        · injection hstep with hstep
          rwa [← hstep]
      | cons first rest =>
        rw [advance_some hparked] at hstep
        split_ifs at hstep with hbefore
        · rcases hstep with hstep | hstep
          · cases hstep
          · injection hstep with hstep
            rw [← hstep]
        · rcases hstep with hstep | hstep
          · injection hstep with hstep
            rw [← hstep]
            change k.now.later first.due ≤ k.now.later s
            rw [SimTime.later_eq_max, SimTime.later_eq_max]
            exact max_le_max_left _ (not_lt.mp hbefore)
          · cases hstep
    · -- Somebody can run, so the clock stands still.
      rw [Takes, step, hruns] at hstep
      dsimp only at hstep
      split at hstep
      · rcases hstep with hstep | hstep
        · injection hstep with hstep
          rwa [← hstep]
        · cases hstep
      next hready =>
        rw [if_neg fun hincoming => hwork ⟨hready, hincoming⟩] at hstep
        rcases hstep with hstep | hstep
        · injection hstep with hstep
          rwa [← hstep]
        · cases hstep
      · rcases hstep with hstep | hstep
        · injection hstep with hstep
          rwa [← hstep]
        · cases hstep

/-- A run that is to stop never lets the clock pass the time to stop at, nor moves it at all if it
has passed that time before. -/
lemma takes_now_stop {s : SimTime} (order : k.Orderly)
    (takes : Relation.ReflTransGen (Takes program (some s)) k k') :
    k'.Orderly ∧ k.now ≤ k'.now ∧ k'.now ≤ k.now.later s := by
  induction takes with
  | refl => exact ⟨order, le_refl _, SimTime.le_later_left _ _⟩
  | @tail k₁ k₂ _ hstep ih =>
    obtain ⟨horder, hfrom, hto⟩ := ih
    refine ⟨?_, hfrom.trans (step_now_le horder hstep), ?_⟩
    · rcases hstep with hstep | hstep
      · exact step_orderly horder hstep
      · exact (step_ends horder hstep).1.orderly horder
    · refine (step_now_stop horder hstep).trans ?_
      rw [SimTime.later_eq_max] at hto ⊢
      rw [SimTime.later_eq_max]
      exact max_le hto (le_max_right _ _)

/-! ## Runs -/

/-- A run with its diary, for at most as many steps. -/
def watch (program : Program World Task) (stop : Option SimTime) :
    (fuel : Nat) → Kernel World Task → Diary Task → Kernel World Task × Diary Task
  | 0, k, l => (k, l)
  | fuel + 1, k, l =>
    match k.step program stop with
    | .ends k' => (k', l)
    | .goes k' => watch program stop fuel k' (l.record program k k')

/-- Runs, whether they return or not, belong to the course of events. -/
lemma Course.watch (h : Course program k l) (stop : Option SimTime) (fuel : Nat) :
    Course program (k.watch program stop fuel l).1 (k.watch program stop fuel l).2 := by
  induction fuel generalizing k l with
  | zero => exact h
  | succ fuel ih =>
    obtain ⟨world, hevents⟩ := h
    rw [Kernel.watch]
    cases hstep : k.step program stop with
    | ends k' => exact ⟨world, hevents.tail (.rests hstep)⟩
    | goes k' => exact ih ⟨world, hevents.tail (.goes hstep)⟩

/-- The kernel that a run returns is the one that is watched. -/
lemma run_watch {fuel : Nat} (h : k.run program stop fuel = some k') :
    (k.watch program stop fuel l).1 = k' := by
  induction fuel generalizing k l with
  | zero => cases h
  | succ fuel ih =>
    rw [run] at h
    rw [watch]
    cases hstep : k.step program stop with
    | ends k₁ =>
      rw [hstep] at h
      injection h
    | goes k₁ =>
      rw [hstep] at h
      exact ih h

/-- **Runs may follow each other.** -/
theorem Course.run {fuel : Nat} (h : Course program k l) (hrun : k.run program stop fuel = some k') :
    ∃ l', Course program k' l' := by
  have hwatch := h.watch stop fuel
  rw [run_watch hrun] at hwatch
  exact ⟨_, hwatch⟩

/-! ## Holds -/

/-- What is true of the clock and of all holds at any moment. -/
structure KeepsTime (program : Program World Task) (k : Kernel World Task) (l : Diary Task) :
    Prop where
  /-- The clock never decreases, whatever happens later. -/
  monotone : ∀ {y}, Relation.ReflTransGen (Happens program) (k, l) y → k.now ≤ y.1.now
  /-- Whoever is parked is due later. -/
  later : ∀ w ∈ k.parked, k.now < w.due
  /-- Whoever is parked neither runs nor is ready. -/
  waits : ∀ w ∈ k.parked, ∀ a, k.running ≠ some (w.process, a) ∧ (w.process, a) ∉ k.ready
  /-- Holds are numbered in the order of parking. -/
  numbered : l.parked.map Wakeup.order = List.range k.parkings
  /-- Each is still parked or has been woken, and not both. -/
  once : l.parked.Perm (k.parked ++ l.woken)
  /-- Whoever has been woken has resumed, or is ready at the time at which it is due. -/
  resumes : ∃ called, l.woken = l.resumed.map Prod.fst ++ called ∧
    ∀ w ∈ called, w.due = k.now ∧ (w.process, w.task) ∈ k.ready
  /-- Whoever has resumed has done so when it was due, and goes on as it was to. -/
  punctual : ∀ r ∈ l.resumed, r.2 = (r.1.due, r.1.task)
  /-- They are woken in the order of times, and in that of parking at one time. -/
  inOrder : l.woken.Pairwise Wakeup.Before
  /-- A hold parks its process until it is due.  One that is due already does not give up control. -/
  holds : ∀ {stop k' id a delay b}, k.running = some (id, a) →
    (program.turn k.now id k.world a).next = .hold delay b → k.step program stop = .goes k' →
    if k.now < k.now.after delay then
      k'.running = none ∧ ⟨k.now.after delay, k.parkings, id, b⟩ ∈ k'.parked ∧
        (l.record program k k').parked = l.parked ++ [⟨k.now.after delay, k.parkings, id, b⟩]
    else k'.running = some (id, b) ∧ k'.now = k.now ∧ l.record program k k' = l
  /-- When a run ends all that have been woken have resumed, and who is parked stays so, being due
  after the time to stop at. -/
  rests : ∀ {stop k'}, k.step program stop = .ends k' →
    l.woken = l.resumed.map Prod.fst ∧ k'.parked = k.parked ∧
      ∀ w ∈ k'.parked, ∃ s, stop = some s ∧ s < w.due
  /-- A run that is to stop does not pass both the time at which it begins and the one to stop at. -/
  stops : ∀ {s k'}, Relation.ReflTransGen (Takes program (some s)) k k' → k'.now ≤ k.now.later s

/-- What the turn of a process that holds leads to. -/
lemma Kept.holds (h : Kept k l) {delay : Float} {b : Task} (runs : k.running = some (id, a))
    (hnext : (program.turn k.now id k.world a).next = .hold delay b)
    (hstep : k.step program stop = .goes k') :
    if k.now < k.now.after delay then
      k'.running = none ∧ ⟨k.now.after delay, k.parkings, id, b⟩ ∈ k'.parked ∧
        (l.record program k k').parked = l.parked ++ [⟨k.now.after delay, k.parkings, id, b⟩]
    else k'.running = some (id, b) ∧ k'.now = k.now ∧ l.record program k k' = l := by
  have happlied := (step_turned h.order runs hstep).applied
  obtain ⟨woken, -, heq⟩ := applyTurn_eq h.order id (program.turn k.now id k.world a)
  rw [heq, hnext, goOn] at happlied
  dsimp only at happlied
  simp only [Diary.record, runs, hnext]
  by_cases hdue : k.now < k.now.after delay
  · rw [if_neg (not_le.mpr hdue)] at happlied
    rw [if_pos hdue, if_pos hdue, h.length, happlied]
    exact ⟨rfl, (insertWakeup_perm _ _).mem_iff.mpr List.mem_cons_self, rfl⟩
  · rw [if_pos (not_lt.mp hdue)] at happlied
    rw [if_neg hdue, if_neg hdue, happlied]
    exact ⟨rfl, rfl, rfl⟩

/-- **Holds keep time.** -/
theorem holds_keep_time (h : Course program k l) : KeepsTime program k l := by
  have hkept := h.kept
  obtain ⟨called, hwoken, hready, hdue⟩ := hkept.called
  refine ⟨h.now_le, hkept.order.later, fun w hw a => hkept.order.waits hw a, hkept.numbered,
    hkept.partition, ⟨called, hwoken, fun w hw => ⟨hdue w hw, ?_⟩⟩, hkept.punctual, hkept.inOrder,
    hkept.holds, fun hstep => ?_, fun takes => (takes_now_stop hkept.order takes).2.2⟩
  · exact hready.subset (List.mem_map_of_mem hw)
  · obtain ⟨hidle, ⟨now, -, rfl⟩, hparked⟩ := step_ends_spec hstep hkept.order.toLined
    exact ⟨hkept.all_resumed hidle, rfl, hparked⟩

/-- Two processes that hold for a second, two and three times.  Each of their five holds has
resumed. -/
theorem holds_keep_time_for_two :
    ∃ (program : Program Unit Nat) (k : Kernel Unit Nat) (l : Diary Nat), Course program k l ∧
      l.parked.length = 5 ∧ l.resumed.length = 5 ∧ KeepsTime program k l := by
  let program : Program Unit Nat :=
    ⟨fun _ _ _ n => ⟨(), [], [], if n = 0 then .finish else .hold 1 (n - 1)⟩, fun _ _ _ => ()⟩
  have hstart : Course program (((initial ()).spawn 2).spawn 3) Diary.empty :=
    ⟨(), (Relation.ReflTransGen.single (.spawns 2)).tail (.spawns 3)⟩
  have hcourse := hstart.watch none 40
  exact ⟨program, _, _, hcourse, by decide +kernel, by decide +kernel, holds_keep_time hcourse⟩

end Kernel

end ServiceSim
