import ServiceSim.Interpreter.Step
import Mathlib.Tactic.Common

/-!
# What reports and draws leave alone

Most of what a process does to the shared environment is bookkeeping: it logs, draws, makes frames
and takes measurements.  None of this touches what other processes depend on, which is the
resources, the barriers and the completions.  `Environment.Steady` says so, and every operation of
this kind has its lemma here.

The barriers are read back by owner, so setting one up or taking one away leaves the others alone.
-/

namespace ServiceSim

/-- What comes out comes out without an error. -/
lemma ok_of_toOption {ε α : Type} {r : Except ε α} {a : α} (h : r.toOption = some a) : r = .ok a := by
  cases r with
  | error e => cases h
  | ok b => exact congrArg Except.ok (Option.some.inj h)

end ServiceSim

namespace ServiceSim.Environment

/-- Nothing has changed that other processes depend on. -/
structure Steady (env env' : Environment) : Prop where
  resources : env'.resources = env.resources
  barriers : env'.barriers = env.barriers
  completions : env'.completions = env.completions

variable {env env' env'' : Environment}

lemma barrier_congr (h : env'.barriers = env.barriers) (owner : ProcessId) :
    env'.barrier owner = env.barrier owner := by
  rw [barrier, barrier, h]

namespace Steady

lemma refl (env : Environment) : Steady env env := ⟨rfl, rfl, rfl⟩

lemma trans (first : Steady env env') (second : Steady env' env'') : Steady env env'' :=
  ⟨second.resources.trans first.resources, second.barriers.trans first.barriers,
    second.completions.trans first.completions⟩

lemma note (event : LogEvent) (steady : Steady env env') : Steady env (env'.note event) :=
  steady.trans ⟨rfl, rfl, rfl⟩

lemma enter (event : DemandEvent) (steady : Steady env env') : Steady env (env'.enter event) :=
  steady.trans ⟨rfl, rfl, rfl⟩

lemma reconfigured (reconfigurator : Reconfigurator) (steady : Steady env env') :
    Steady env { env' with reconfigurator := reconfigurator } :=
  steady.trans ⟨rfl, rfl, rfl⟩

lemma newFrame (steady : Steady env env') : Steady env env'.newFrame.2 :=
  steady.trans ⟨rfl, rfl, rfl⟩

lemma barrier (steady : Steady env env') (owner : ProcessId) :
    env'.barrier owner = env.barrier owner :=
  barrier_congr steady.barriers owner

lemma completion? (steady : Steady env env') (request : Nat) :
    env'.completion? request = env.completion? request := by
  rw [Environment.completion?, Environment.completion?, steady.completions]

end Steady

/-- What is found has been reported. -/
lemma mem_of_completion? {n : Nat} {c : Completion} (h : env.completion? n = some c) :
    (n, c) ∈ env.completions :=
  NameMap.mem_of_lookup h

/-- What has been reported is found. -/
lemma completion?_of_mem {n : Nat} {c : Completion} (h : (n, c) ∈ env.completions) :
    ∃ c', env.completion? n = some c' ∧ (n, c') ∈ env.completions := by
  cases hlookup : env.completion? n with
  | none =>
    rw [completion?, List.lookup_eq_none_iff] at hlookup
    exact absurd rfl (bne_iff_ne.mp (hlookup _ h))
  | some c' => exact ⟨c', rfl, mem_of_completion? hlookup⟩

/-! ## Draws -/

lemma sample_steady {ε α : Type} {computation : ExceptT ε (StateM Source) α} {r : Except ε α}
    (h : env.sample computation = (r, env')) : Steady env env' := by
  unfold sample at h
  injection h with _ h
  exact h ▸ ⟨rfl, rfl, rfl⟩

lemma sample_result {ε α : Type} {computation : ExceptT ε (StateM Source) α} {r : Except ε α}
    (h : env.sample computation = (r, env')) : (computation env.source).1 = r := by
  unfold sample at h
  injection h with h _

lemma noteAll_steady (names : List String) (steady : Steady env env') :
    Steady env (names.foldl (fun env name => env.note (.nameBound name)) env') := by
  induction names generalizing env' with
  | nil => exact steady
  | cons name names ih => exact ih (steady.note _)

lemma bind_steady {usages : List VariableUsage} {context target frame : Frame}
    {failure : Option EvalError} (h : env.bind usages context target = (failure, frame, env')) :
    Steady env env' := by
  unfold bind at h
  injection h with _ h
  injection h with _ h
  exact h ▸ noteAll_steady _ ⟨rfl, rfl, rfl⟩

lemma resolve_steady {collection element frame : Frame} {stem : String}
    {failure : Option EvalError} (h : env.resolve collection stem element = (failure, frame, env')) :
    Steady env env' := by
  unfold resolve at h
  injection h with _ h
  injection h with _ h
  exact h ▸ ⟨rfl, rfl, rfl⟩

/-! ## Measurements -/

lemma measure_steady (probe label : String) (process : ProcessId) (now : SimTime)
    (steady : Steady env env') : Steady env (env'.measure probe label process now) := by
  refine steady.trans ?_
  unfold measure
  split
  · exact (Steady.refl _).note _
  · exact ⟨rfl, rfl, rfl⟩
  · exact (Steady.refl _).note _

lemma register_steady (action : Action) (calculator : Calculator) (steady : Steady env env') :
    Steady env (env'.register action calculator) := by
  refine steady.trans ?_
  unfold register
  split
  · exact (Steady.refl _).note _
  · exact ⟨rfl, rfl, rfl⟩
  · exact Steady.refl _

lemma reconfigure_steady (action : ActionId) (steady : Steady env env') :
    Steady env (env'.reconfigure action) :=
  steady.trans ⟨rfl, rfl, rfl⟩

/-! ## Barriers -/

lemma lookup_filter (owner other : ProcessId) (l : List (ProcessId × Barrier InterpreterError)) :
    (l.filter (·.1 != owner)).lookup other = if other = owner then none else l.lookup other := by
  induction l with
  | nil => simp
  | cons p l ih =>
    obtain ⟨q, b⟩ := p
    by_cases hq : q = owner
    · rw [List.filter_cons_of_neg (by simpa using hq), ih]
      split_ifs with hother
      · rfl
      · rw [List.lookup_cons, beq_false_of_ne (by rw [hq]; exact hother)]
    · rw [List.filter_cons_of_pos (by simpa using hq), List.lookup_cons, List.lookup_cons, ih]
      by_cases hother : other = owner
      · rw [if_pos hother, if_pos hother, beq_false_of_ne (by rw [hother]; exact Ne.symm hq)]
      · rw [if_neg hother, if_neg hother]

lemma barrier_dropBarrier (env : Environment) (owner other : ProcessId) :
    (env.dropBarrier owner).barrier other =
      if other = owner then Barrier.new 0 else env.barrier other := by
  simp only [barrier, dropBarrier, lookup_filter]
  split_ifs <;> rfl

lemma barrier_setBarrier (env : Environment) (owner other : ProcessId)
    (b : Barrier InterpreterError) :
    (env.setBarrier owner b).barrier other = if other = owner then b else env.barrier other := by
  simp only [barrier, setBarrier, dropBarrier, List.lookup_cons, lookup_filter]
  by_cases h : other = owner
  · simp [h]
  · simp [h, beq_false_of_ne h]

end ServiceSim.Environment

namespace ServiceSim.Activity

variable {env env' : Environment} {now : SimTime} {id : ProcessId} {d : Deployment} {a : Activity}

/-! ## Parts of actions -/

lemma startMeasuring_steady (d : Deployment) (now : SimTime) (id : ProcessId) (site : CallSite)
    (env : Environment) :
    env.Steady (startMeasuring d now id site env) := by
  unfold startMeasuring
  apply Environment.measure_steady
  split_ifs
  · exact Environment.register_steady _ _ (.refl env)
  · exact .refl env

lemma stopMeasuring_steady (site : CallSite) (env : Environment) :
    env.Steady (stopMeasuring d now id site env) := by
  have hmeasure := Environment.measure_steady site.calculator.stopProbe site.label id now
    (.refl env)
  unfold stopMeasuring
  dsimp only
  split_ifs
  · exact Environment.reconfigure_steady _ hmeasure
  · exact hmeasure

lemma bindReturns_steady {returns : List VariableUsage} {output target frame : Frame}
    {failure : Option EvalError}
    (h : bindReturns env returns output target = (failure, frame, env')) : env.Steady env' := by
  unfold bindReturns at h
  split_ifs at h
  · injection h with _ h
    injection h with _ h
    exact h ▸ .refl env
  · exact Environment.bind_steady h

lemma iterationCount_steady {action : Action} {specification : Specification}
    {r : Except InterpreterError Nat}
    (hcount : a.iterationCount env action specification = (r, env')) : env.Steady env' := by
  unfold iterationCount at hcount
  split at hcount
  · injection hcount with _ henv
    exact henv ▸ .refl env
  · split at hcount
    next hsample =>
      injection hcount with _ henv
      exact henv ▸ Environment.sample_steady hsample
    next hsample =>
      split_ifs at hcount
      all_goals
        injection hcount with _ henv
        exact henv ▸ Environment.sample_steady hsample

end ServiceSim.Activity
