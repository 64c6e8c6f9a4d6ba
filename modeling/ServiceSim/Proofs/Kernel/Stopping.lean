import ServiceSim.Kernel.Basic
import ServiceSim.Proofs.Time

/-!
# Runs that are stopped and go on

A run with a time to stop at does what the run without it does, until nothing is left to do up to
that time.  It leaves the kernel idle with its clock at the stop time, before the next wakeup, so the
next run begins where it would have gone on: the clock moves to the same wakeup as if it had not been
moved in between (`step_or_stop`).  Stopping is therefore transparent (`stopping_is_transparent`).
-/

namespace ServiceSim.Kernel

variable {World Task : Type} {program : Program World Task} {stop : Option SimTime}
  {k k' : Kernel World Task} {fuel : Nat}

/-- The turn that the next step takes, if a process runs: when, by whom, and what it does. -/
def turnTaken (program : Program World Task) (k : Kernel World Task) :
    Option (SimTime × ProcessId × Turn World Task) :=
  k.running.map fun (id, task) => (k.now, id, program.turn k.now id k.world task)

/-- The turns of a run, in order. -/
def turns (program : Program World Task) (stop : Option SimTime) :
    (fuel : Nat) → Kernel World Task → List (SimTime × ProcessId × Turn World Task)
  | 0, _ => []
  | fuel + 1, k => (k.turnTaken program).toList ++
    match k.step program stop with
    | .ends _ => []
    | .goes k => turns program stop fuel k

/-! ## Returning runs -/

/-- A run that returns does the same if it may take more steps. -/
lemma run_succ (h : k.run program stop fuel = some k') :
    k.run program stop (fuel + 1) = some k' ∧
      k.turns program stop (fuel + 1) = k.turns program stop fuel := by
  induction fuel generalizing k with
  | zero => cases h
  | succ fuel ih =>
    rw [run] at h ⊢
    rw [turns, turns]
    cases hstep : k.step program stop with
    | ends k₁ =>
      rw [hstep] at h
      exact ⟨h, rfl⟩
    | goes k₁ =>
      rw [hstep] at h
      obtain ⟨hrun, hturns⟩ := ih h
      exact ⟨hrun, congrArg _ hturns⟩

/-! ## Stopping -/

/-- Moving the clock of an idle kernel to a time before the next wakeup changes nothing for what
comes next. -/
lemma advance_later {s : SimTime} {first : Wakeup Task} {rest : List (Wakeup Task)}
    (parked : k.parked = first :: rest) (before : s < first.due)
    (later : ∀ t, stop = some t → s ≤ t) :
    { k with now := k.now.later s }.advance program stop = k.advance program stop := by
  obtain ⟨now, world, spawned, parkings, running, budget, ready, incoming, parked', blocked⟩ := k
  dsimp only at parked ⊢
  subst parked
  have hdue : (now.later s).later first.due = now.later first.due := by
    simp only [SimTime.later_eq_max, max_assoc, max_eq_right (le_of_lt before)]
  cases stop with
  | none => simp only [advance, advanceTo, hdue]
  | some t =>
    have hstop : (now.later s).later t = now.later t := by
      simp only [SimTime.later_eq_max, max_assoc, max_eq_right (later t rfl)]
    simp only [advance, advanceTo, hdue, hstop]

/-- When nobody can run, the clock decides. -/
lemma step_idle (idle : k.running = none) (ready : k.ready = []) (incoming : k.incoming.isEmpty)
    (stop : Option SimTime) : k.step program stop = k.advance program stop := by
  rw [step, idle]
  dsimp only
  rw [ready]
  exact if_pos incoming

lemma advance_some {first : Wakeup Task} {rest : List (Wakeup Task)}
    (parked : k.parked = first :: rest) (s : SimTime) : k.advance program (some s) =
      if s < first.due then .ends { k with now := k.now.later s }
      else .goes (k.advanceTo program first.due) := by
  rw [advance, parked]

lemma advance_none {first : Wakeup Task} {rest : List (Wakeup Task)}
    (parked : k.parked = first :: rest) :
    k.advance program none = .goes (k.advanceTo program first.due) := by
  rw [advance, parked]

/-- **A run that is to stop earlier** takes the same step, or it ends in a kernel in which no process
runs and from which the next step is the same. -/
lemma step_or_stop (program : Program World Task) {s : SimTime}
    (later : ∀ t, stop = some t → s ≤ t) (k : Kernel World Task) :
    (∃ k', k.step program (some s) = .goes k' ∧ k.step program stop = .goes k') ∨
      ∃ k₁, k.step program (some s) = .ends k₁ ∧ k₁.step program stop = k.step program stop ∧
        k.running = none ∧ k₁.running = none := by
  by_cases hidle : k.running = none ∧ k.ready = [] ∧ k.incoming.isEmpty
  · obtain ⟨idle, ready, incoming⟩ := hidle
    have hstep : ∀ stop, k.step program stop = k.advance program stop :=
      step_idle idle ready incoming
    cases hparked : k.parked with
    | nil =>
      have hends : k.advance program (some s) = .ends k := by rw [advance, hparked]
      exact .inr ⟨k, (hstep _).trans hends, rfl, idle, idle⟩
    | cons first rest =>
      by_cases hbefore : s < first.due
      · have hends : k.advance program (some s) = .ends { k with now := k.now.later s } :=
          (advance_some hparked s).trans (if_pos hbefore)
        refine .inr ⟨_, (hstep _).trans hends, ?_, idle, idle⟩
        rw [hstep, step_idle (k := { k with now := k.now.later s }) idle ready incoming]
        exact advance_later hparked hbefore later
      · have hgoes : k.advance program (some s) = .goes (k.advanceTo program first.due) :=
          (advance_some hparked s).trans (if_neg hbefore)
        refine .inl ⟨_, (hstep _).trans hgoes, (hstep _).trans ?_⟩
        cases stop with
        | none => exact advance_none hparked
        | some t =>
          have hle : first.due ≤ t := (not_lt.mp hbefore).trans (later t rfl)
          exact (advance_some hparked t).trans (if_neg (not_lt.mpr hle))
  · -- Somebody can run, whatever the time to stop at.
    left
    simp only [step]
    split
    · exact ⟨_, rfl, rfl⟩
    next idle =>
      split
      · exact ⟨_, rfl, rfl⟩
      next ready =>
        have hincoming : ¬ k.incoming.isEmpty := fun h => hidle ⟨idle, ready, h⟩
        exact ⟨_, if_neg hincoming, if_neg hincoming⟩
      · exact ⟨_, rfl, rfl⟩

/-- **Stopping is transparent.**  If a run returns, then so does the same run stopped at some time
that is not later than its own, and the run that follows it.  Both together take the same turns, in
the same order and at the same times, and leave the kernel as the one run does: with the same clock,
the same processes and the same parked ones in the same order. -/
theorem stopping_is_transparent {s : SimTime} (later : ∀ t, stop = some t → s ≤ t)
    (h : k.run program stop fuel = some k') :
    ∃ k₁, k.run program (some s) fuel = some k₁ ∧ k₁.run program stop fuel = some k' ∧
      k.turns program stop fuel =
        k.turns program (some s) fuel ++ k₁.turns program stop fuel := by
  induction fuel generalizing k with
  | zero => cases h
  | succ fuel ih =>
    rcases step_or_stop program later k with ⟨k₂, hstopped, hstep⟩ |
      ⟨k₁, hstopped, hstep, hidle, hidle₁⟩
    · rw [run, hstep] at h
      obtain ⟨k₁, hfirst, hsecond, hturns⟩ := ih h
      obtain ⟨hsecond', hturns'⟩ := run_succ hsecond
      refine ⟨k₁, by rw [run, hstopped]; exact hfirst, hsecond', ?_⟩
      rw [hturns', turns, turns, hstep, hstopped, List.append_assoc]
      exact congrArg _ hturns
    · refine ⟨k₁, by rw [run, hstopped], ?_, ?_⟩
      · rw [run, hstep]
        exact h
      · simp only [turns, turnTaken, hidle, hidle₁, hstopped, hstep, Option.map_none,
          Option.toList_none, List.nil_append]

/-- Two processes that hold for a second two and three times, stopped in the middle of a hold. -/
theorem stopping_is_transparent_between_holds :
    ∃ (program : Program Unit Nat) (k k' : Kernel Unit Nat) (s : SimTime),
      (∀ t, none = some t → s ≤ t) ∧ k.run program none 40 = some k' ∧ k'.now ≠ s ∧
      ∃ k₁, k.run program (some s) 40 = some k₁ ∧ k₁.run program none 40 = some k' ∧
        k.turns program none 40 = k.turns program (some s) 40 ++ k₁.turns program none 40 := by
  let program : Program Unit Nat :=
    ⟨fun _ _ _ n => ⟨(), [], [], if n = 0 then .finish else .hold 1 (n - 1)⟩, fun _ _ _ => ()⟩
  let k : Kernel Unit Nat := ((initial ()).spawn 2).spawn 3
  have hreturns : (k.run program none 40).map Kernel.now = some (.ofSeconds 3) := by decide +kernel
  cases hrun : k.run program none 40 with
  | none =>
    rw [hrun] at hreturns
    cases hreturns
  | some k' =>
    have hlater : ∀ t, none = some t → SimTime.ofSeconds 1.5 ≤ t := fun t ht => by cases ht
    have hnow : k'.now ≠ .ofSeconds 1.5 := by
      rw [hrun] at hreturns
      injection hreturns with hreturns
      rw [hreturns]
      decide +kernel
    exact ⟨program, k, k', .ofSeconds 1.5, hlater, hrun, hnow, stopping_is_transparent hlater hrun⟩

end ServiceSim.Kernel
