import ServiceSim.Proofs.Interpreter.Queues

/-!
# Requests are accounted for

A process that serves a request serves it until it ends, and then reports its completion.  So each
request is served by a process or has been completed (`Kernel.Accounted`), whatever the processes
that it forks do.
-/

namespace ServiceSim

open Activity

namespace Activity

variable {a : Activity} {d : Deployment} {now : SimTime} {id : ProcessId} {env : Environment}

/-- An interpretation goes on in its role, or it ends now. -/
lemma advance_or_ends (d : Deployment) (now : SimTime) (id : ProcessId) (env : Environment)
    (settled : a.Settled) :
    (∃ turn b, a.advance d now id env = .goes turn ∧ turn.next.goesOn id = [(id, b)] ∧
      b.role = a.role ∧ turn.world.completions = env.completions) ∨
    ∃ env' c, a.advance d now id env = .ends env' c ∧ c.time = now ∧
      env'.completions = env.completions := by
  have heffect := advance_effect d now id env settled
  generalize a.advance d now id env = progress at heffect
  cases heffect with
  | proceeds _ _ steady _ role => exact .inl ⟨_, _, rfl, rfl, role, steady.completions⟩
  | arrives _ _ _ role => exact .inl ⟨_, _, rfl, rfl, role, rfl⟩
  | granted _ _ _ _ completions _ role => exact .inl ⟨_, _, rfl, rfl, role, completions⟩
  | queued _ _ _ _ completions _ role => exact .inl ⟨_, _, rfl, rfl, role, completions⟩
  | serves _ steady _ role => exact .inl ⟨_, _, rfl, rfl, role, steady.completions⟩
  | completes _ _ _ completions _ role => exact .inl ⟨_, _, rfl, rfl, role, completions⟩
  | forks _ _ _ steady _ role => exact .inl ⟨_, _, rfl, rfl, role, steady.completions⟩
  | joins _ _ _ _ role => exact .inl ⟨_, _, rfl, rfl, role, rfl⟩
  | awaits => exact .inl ⟨_, _, rfl, rfl, rfl, rfl⟩
  | ends _ _ steady time => exact .inr ⟨_, _, rfl, time, steady.completions⟩
  | fails _ _ _ time _ => exact .inr ⟨_, _, rfl, time, rfl⟩

/-- An activity keeps its role and reports nothing, or it has come to its end and reports it. -/
lemma turn_reports (d : Deployment) (now : SimTime) (id : ProcessId) (env : Environment)
    (settled : a.Settled) :
    (∃ b, (a.turn d now id env).next.goesOn id = [(id, b)] ∧ b.role = a.role ∧
      (a.turn d now id env).world.completions = env.completions) ∨
    ((a.turn d now id env).next.goesOn id = [] ∧
      env.completions ⊆ (a.turn d now id env).world.completions ∧
      ∀ n, a.role = .request n → ∃ c, (n, c) ∈ (a.turn d now id env).world.completions) := by
  unfold turn
  rcases advance_or_ends d now id env settled with
    ⟨turn, b, hgoes, hnext, hrole, hsame⟩ | ⟨env', c, hends, -, hsame⟩
  · rw [hgoes]
    exact .inl ⟨b, hnext, hrole, hsame⟩
  · rw [hends]
    refine .inr ⟨by rw [report_ends.2]; rfl, ?_⟩
    rcases Kernel.report_completions a env' c with ⟨n, hrole, hreport⟩ | ⟨hrole, hreport⟩
    · rw [hreport, hsame]
      refine ⟨List.subset_cons_self _ _, fun m hm => ?_⟩
      rw [hrole] at hm
      injection hm with hm
      exact ⟨c, hm ▸ List.mem_cons_self⟩
    · rw [hreport, hsame]
      exact ⟨List.Subset.refl _, fun n hn => absurd hn (hrole n)⟩

/-- A process keeps its role. -/
lemma turn_role (d : Deployment) (now : SimTime) (id : ProcessId) (env : Environment)
    (settled : a.Settled) : ∀ p ∈ (a.turn d now id env).next.goesOn id, p.2.role = a.role := by
  intro p hp
  rcases turn_reports d now id env settled with ⟨b, hgoes, hb, -⟩ | ⟨hgoes, -⟩
  · rw [hgoes] at hp
    rw [List.mem_singleton.mp hp]
    exact hb
  · rw [hgoes] at hp
    cases hp

/-- A request does not fork requests. -/
lemma turn_spawned_role (d : Deployment) (now : SimTime) (id : ProcessId) (env : Environment)
    (settled : a.Settled) : ∀ b ∈ (a.turn d now id env).spawned, ∀ n, b.role ≠ .request n := by
  have heffect := advance_effect d now id env settled
  unfold turn
  generalize a.advance d now id env = progress at heffect
  cases heffect with
  | forks _ _ _ _ _ _ =>
    intro b hb n hrole
    rcases (Kernel.children_spec id _ _ b hb).2 with hother | hother
    all_goals
      rw [hother] at hrole
      cases hrole
  | ends _ _ _ _ => simp [report_ends.1]
  | fails _ _ _ _ _ => simp [report_ends.1]
  | _ => simp

end Activity

namespace Kernel

/-- **Every request is accounted for**, up to a number: a process serves it, or it has been
completed. -/
def Accounted (requests : Nat) (k : Kernel Environment Activity) : Prop :=
  ∀ n < requests, (∃ p ∈ k.processes, p.2.role = .request n) ∨ ∃ c, (n, c) ∈ k.world.completions

variable {d : Deployment} {k k' : Kernel Environment Activity} {id : ProcessId} {a : Activity}
  {requests : Nat}

lemma Turned.accounted (h : k.Accounted requests) (runs : k.running = some (id, a))
    (settled : a.Settled) (turned : Turned k k' id (a.turn d k.now id k.world)) :
    k'.Accounted requests := by
  have hby : ∀ p ∈ k.bystanders, p ∈ k'.processes := fun p hp =>
    turned.processes.mem_iff.mpr (List.mem_append_right _ hp)
  intro n hn
  rcases turn_reports d k.now id k.world settled with ⟨b, hgoes, hrole, hsame⟩ |
    ⟨-, hmore, hreported⟩
  · rcases h n hn with ⟨p, hp, hpn⟩ | hdone
    · left
      rw [processes_eq runs] at hp
      rcases List.mem_cons.mp hp with rfl | hp
      · refine ⟨(id, b), turned.processes.mem_iff.mpr ?_, hrole.trans hpn⟩
        rw [hgoes]
        exact List.mem_cons_self
      · exact ⟨p, hby p hp, hpn⟩
    · rw [turned.world, hsame]
      exact .inr hdone
  · rcases h n hn with ⟨p, hp, hpn⟩ | ⟨c, hc⟩
    · rw [processes_eq runs] at hp
      rcases List.mem_cons.mp hp with rfl | hp
      · rw [turned.world]
        exact .inr (hreported n hpn)
      · exact .inl ⟨p, hby p hp, hpn⟩
    · rw [turned.world]
      exact .inr ⟨c, hmore hc⟩

lemma Quiet.completions (quiet : Quiet (program d) k k') :
    k'.world.completions = k.world.completions := by
  rcases quiet.world with hworld | ⟨time, wakeups, hworld⟩
  · rw [hworld]
  · rw [hworld]
    rfl

lemma Quiet.accounted (h : k.Accounted requests) (quiet : Quiet (program d) k k') :
    k'.Accounted requests := by
  rw [Accounted, quiet.processes, quiet.completions]
  exact h

/-- No step loses a request. -/
theorem step_accounted {stop : Option SimTime} (queued : k.Queued) (h : k.Accounted requests)
    (hstep : k.step (program d) stop = .goes k') : k'.Accounted requests := by
  rcases step_cases queued.joined.order hstep with quiet | ⟨id, a, runs, turned⟩
  · exact quiet.accounted h
  · exact turned.accounted h runs (queued.joined.settled _ (running_mem runs))

/-- A process that enters serves the next request. -/
lemma spawn_accounted (h : k.Accounted requests) (role : a.role = .request requests) :
    (k.spawn a).Accounted (requests + 1) := by
  have hperm := spawn_processes a k
  intro n hn
  rcases Nat.lt_succ_iff_lt_or_eq.mp hn with hn | rfl
  · rcases h n hn with ⟨p, hp, hpn⟩ | hdone
    · exact .inl ⟨p, hperm.mem_iff.mpr (List.mem_cons_of_mem _ hp), hpn⟩
    · exact .inr hdone
  · exact .inl ⟨_, hperm.mem_iff.mpr List.mem_cons_self, role⟩

/-- When no process is left, all requests have been completed. -/
lemma Accounted.completed (h : k.Accounted requests) (processes : k.processes = []) {n : Nat}
    (hn : n < requests) :
    ∃ c, k.world.completion? n = some c ∧ (n, c) ∈ k.world.completions := by
  rcases h n hn with ⟨p, hp, -⟩ | ⟨c, hc⟩
  · rw [processes] at hp
    cases hp
  · exact Environment.completion?_of_mem hc

end Kernel

end ServiceSim
