import Mathlib.Data.List.DropRight
import ServiceSim.Proofs.Interpreter.Endings
import ServiceSim.Proofs.Simulation.Chronicle

/-!
# Every request is reported once

Somebody submits requests to a simulation and runs it, in any order and as often as they like.  Runs
may stop early, so that processes outlive them, and requests may be refused.  The answers that are
given in such a session determine each other: requests are numbered as they are accepted, the first
run after a request was accepted reports it and no other run does, and the report tells how and when
the process of the request has ended, if it has (`requests_reported_once`).
-/

namespace ServiceSim

/-- The messages of errors are not the one for a process that is gone without a result. -/
lemma InterpreterError.message_ne_dropped (e : InterpreterError) :
    e.message ≠ "request process was dropped" := by
  have hfirst : e.message.toList.head? ≠ some 'r' := by
    cases e with
    | model e =>
      change ("model error: " ++ e.message).toList.head? ≠ some 'r'
      simp
    | stackDiscipline fault =>
      change ("stack discipline violated: " ++ fault.message).toList.head? ≠ some 'r'
      simp
    | evaluation e =>
      change ("evaluation failed: " ++ e.message).toList.head? ≠ some 'r'
      simp
    | fork process e =>
      change ("forked behavior '" ++ process ++ "' failed: " ++ e.message).toList.head? ≠ some 'r'
      simp
  intro h
  rw [h] at hfirst
  exact hfirst (by simp)

/-- Notes how interpretations end. -/
def Conclusion.observer : Observer (List Conclusion) := ⟨[], fun d k _ l => Conclusion.record d k l⟩

/-! ## Outcomes -/

/-- **The outcome of a request tells how its process has ended.** -/
structure RequestOutcome.Tells (endings : List Conclusion) (k : Kernel Environment Activity)
    (o : RequestOutcome) : Prop where
  /-- It has completed exactly if its process ended with a frame, at the time told. -/
  completed : ∀ time results, o.fate = .completed time results ↔
    ∃ frame, ⟨o.request.process, time, .ok frame⟩ ∈ endings ∧
      results = frame.own.filterMap fun (name, b) => b.value?.map fun v => (name, v)
  /-- It has failed exactly if its process ended with an error, at the time told. -/
  failed : ∀ time e, o.fate = .failed time e ↔ ⟨o.request.process, time, .error e⟩ ∈ endings
  /-- It is incomplete exactly if its process is still there. -/
  incomplete : o.fate = .incomplete ↔ ∃ a, (o.request.process, a) ∈ k.processes
  /-- No process is gone without having told how it ended. -/
  kept : o.fate.message? ≠ some "request process was dropped"

namespace Kernel

variable {k : Kernel Environment Activity} {requests : List PendingRequest}
  {endings : List Conclusion}

/-- A process ends in one way. -/
lemma Settles.ending_unique (h : k.Settles requests endings) {id : ProcessId} {time time' : SimTime}
    {result result' : Except InterpreterError Frame} (hx : ⟨id, time, result⟩ ∈ endings)
    (hx' : ⟨id, time', result'⟩ ∈ endings) : time = time' ∧ result = result' := by
  have hsame := List.inj_on_of_nodup_map h.once hx hx' rfl
  injection hsame with _ htime hresult
  exact ⟨htime, hresult⟩

/-- What is known of a request tells how its process has ended. -/
lemma Settles.tells (h : k.Settles requests endings) {r : PendingRequest} (hr : r ∈ requests) :
    RequestOutcome.Tells endings k ⟨r, k.fate r⟩ := by
  have hcompleted := h.completed r hr
  cases hlookup : k.world.completion? r.number with
  | none =>
    have hnever : ∀ time result, ⟨r.process, time, result⟩ ∉ endings := by
      intro time result hx
      obtain ⟨c, hc, -⟩ := (hcompleted time result).mpr hx
      obtain ⟨c', hc', -⟩ := Environment.completion?_of_mem hc
      rw [hlookup] at hc'
      cases hc'
    have hserved : ∃ b, (r.process, b) ∈ k.processes := by
      rcases h.serves r hr with ⟨b, hb, -⟩ | ⟨x, hx, hid⟩
      · exact ⟨b, hb⟩
      · exact absurd (hid ▸ hx) (hnever x.time x.result)
    have hfate : k.fate r = .incomplete := by
      simp only [fate, hlookup, has_iff.mpr hserved, if_true]
    rw [hfate]
    refine ⟨fun time results => iff_of_false (by simp) ?_,
      fun time e => iff_of_false (by simp) (hnever time _), iff_of_true rfl hserved,
      by simp [Fate.message?, Fate.error?]⟩
    rintro ⟨frame, hx, -⟩
    exact hnever _ _ hx
  | some c =>
    have hmem : (r.number, c) ∈ k.world.completions := Environment.mem_of_completion? hlookup
    have hending := (hcompleted c.time c.result).mp ⟨c, hmem, rfl, rfl⟩
    have hgone : ¬ ∃ a, (r.process, a) ∈ k.processes := fun ⟨a, ha⟩ => (h.gone _ hending).2 _ ha rfl
    cases hresult : c.result with
    | ok frame =>
      rw [hresult] at hending
      simp only [fate, hlookup, Fate.ofCompletion, hresult]
      refine ⟨fun time results => ?_, fun time e => iff_of_false (by simp) fun hx => ?_,
        iff_of_false (by simp) hgone, by simp [Fate.message?, Fate.error?]⟩
      · constructor
        · intro hfate
          injection hfate with htime hresults
          exact ⟨frame, htime ▸ hending, hresults.symm⟩
        · rintro ⟨frame', hx, rfl⟩
          obtain ⟨rfl, hframe⟩ := h.ending_unique hending hx
          injection hframe with hframe
          rw [hframe]
      · obtain ⟨-, hne⟩ := h.ending_unique hending hx
        cases hne
    | error e =>
      rw [hresult] at hending
      simp only [fate, hlookup, Fate.ofCompletion, hresult]
      refine ⟨fun time results => iff_of_false (by simp) ?_, fun time e' => ?_,
        iff_of_false (by simp) hgone,
        by simp [Fate.message?, Fate.error?, InterpreterError.message_ne_dropped]⟩
      · rintro ⟨frame, hx, -⟩
        obtain ⟨-, hne⟩ := h.ending_unique hending hx
        cases hne
      · constructor
        · intro hfate
          injection hfate with htime he
          exact htime ▸ he ▸ hending
        · intro hx
          obtain ⟨rfl, he⟩ := h.ending_unique hending hx
          injection he with he
          rw [he]

end Kernel

/-- Every request is counted as one of completed, failed and incomplete. -/
lemma SimulationReport.counts (r : SimulationReport) :
    r.completed + r.failed + r.incomplete = r.requests.length := by
  rw [completed, failed, incomplete]
  induction r.requests with
  | nil => rfl
  | cons o rest ih =>
    have hone : ((if o.fate.isCompleted then 1 else 0) + (if o.fate.isFailed then 1 else 0) +
        if o.fate.isIncomplete then 1 else 0) = 1 := by
      cases o.fate <;> rfl
    simp only [List.countP_cons, List.length_cons]
    omega

namespace Simulation

/-! ## Sessions -/

/-- The answer to a call. -/
inductive Answer where
  /-- A request was accepted. -/
  | accepted (request : PendingRequest)
  /-- A request was refused. -/
  | refused (error : SimulationError)
  /-- A run returned.  These interpretations had ended by then, and it left the simulation so. -/
  | returned (report : SimulationReport) (endings : List Conclusion) (s : Simulation)

namespace Answer

/-- The request that was accepted. -/
def request? : Answer → Option PendingRequest
  | accepted request => some request
  | _ => none

/-- The requests that are reported. -/
def reported : Answer → List PendingRequest
  | returned report _ _ => report.requests.map RequestOutcome.request
  | _ => []

/-- Whether a run returned. -/
def isReturned : Answer → Bool
  | returned _ _ _ => true
  | _ => false

end Answer

/-- All requests that were accepted. -/
def accepted (answers : List Answer) : List PendingRequest := answers.filterMap Answer.request?

/-- The requests that were accepted since the last run. -/
def awaiting (answers : List Answer) : List PendingRequest :=
  accepted (answers.rtakeWhile fun x => !x.isReturned)

/-- The interpretations that have ended when a run returns, given those that had ended before. -/
def ended (s : Simulation) (fuel : Nat) (endings : List Conclusion) : List Conclusion :=
  Conclusion.observer.watch s.deployment (s.config.stopTime.map .ofSeconds) fuel s.started endings

/-- What can be done with the simulation of a model, with the interpretations that have ended and
the answers so far.  A request that is refused leaves the simulation as it is. -/
inductive Session (config : SimulationConfig) (model : SystemModel) :
    Simulation → List Conclusion → List Answer → Prop where
  | begins {s : Simulation} : ofModel config model = .ok s → Session config model s [] []
  | accepts {s s' : Simulation} {endings : List Conclusion} {answers : List Answer}
      {spec : RequestSpec} {request : PendingRequest} : Session config model s endings answers →
      s.submit spec = .ok (request, s') →
      Session config model s' endings (answers ++ [.accepted request])
  | refuses {s : Simulation} {endings : List Conclusion} {answers : List Answer}
      {spec : RequestSpec} {e : SimulationError} : Session config model s endings answers →
      s.submit spec = .error e → Session config model s endings (answers ++ [.refused e])
  | reconfigures {s : Simulation} {endings : List Conclusion} {answers : List Answer}
      (reconfigurator : Reconfigurator) : Session config model s endings answers →
      Session config model (s.withReconfigurator reconfigurator) endings answers
  | returns {s s' : Simulation} {endings : List Conclusion} {answers : List Answer} {fuel : Nat}
      {report : SimulationReport} : Session config model s endings answers →
      s.run fuel = some (report, s') →
      Session config model s' (s.ended fuel endings)
        (answers ++ [.returned report (s.ended fuel endings) s'])

variable {config : SimulationConfig} {model : SystemModel} {s s' : Simulation}
  {endings : List Conclusion} {answers : List Answer} {fuel : Nat} {report : SimulationReport}

/-! ## What is accepted and awaited -/

@[simp] lemma accepted_concat (answers : List Answer) (x : Answer) :
    accepted (answers ++ [x]) = accepted answers ++ x.request?.toList := by
  rw [accepted, List.filterMap_append, accepted]
  cases x <;> rfl

@[simp] lemma awaiting_accepted (answers : List Answer) (request : PendingRequest) :
    awaiting (answers ++ [.accepted request]) = awaiting answers ++ [request] := by
  rw [awaiting, List.rtakeWhile_concat_pos _ _ _ rfl, accepted_concat]
  rfl

@[simp] lemma awaiting_refused (answers : List Answer) (e : SimulationError) :
    awaiting (answers ++ [.refused e]) = awaiting answers := by
  rw [awaiting, List.rtakeWhile_concat_pos _ _ _ rfl, accepted_concat]
  exact List.append_nil _

@[simp] lemma awaiting_returned (answers : List Answer) (report : SimulationReport)
    (endings : List Conclusion) (s : Simulation) :
    awaiting (answers ++ [.returned report endings s]) = [] := by
  rw [awaiting, List.rtakeWhile_concat_neg _ _ _ (by simp [Answer.isReturned])]
  rfl

/-! ## Steps of a session -/

/-- A simulation in agreement with the answers that it has given. -/
structure Agrees (s : Simulation) (endings : List Conclusion) (answers : List Answer) : Prop where
  numbered : (accepted answers).map PendingRequest.number = List.range s.submitted
  pending : s.pending = awaiting answers
  settles : s.kernel.Settles (accepted answers) endings

lemma Agrees.submit (h : Agrees s endings answers) {spec : RequestSpec} {request : PendingRequest}
    (hsubmit : s.submit spec = .ok (request, s')) :
    Agrees s' endings (answers ++ [.accepted request]) := by
  obtain ⟨behavior, -, hrequest, rfl⟩ := submit_ok hsubmit
  refine ⟨?_, ?_, ?_⟩
  · rw [accepted_concat, List.map_append, h.numbered, List.range_succ, hrequest]
    rfl
  · rw [awaiting_accepted, ← h.pending]
  · rw [accepted_concat]
    refine Kernel.spawn_settles h.settles (fun r hr => ?_) (hrequest ▸ rfl) ?_ (hrequest ▸ rfl)
    · have hnumber := List.mem_map_of_mem (f := PendingRequest.number) hr
      rw [h.numbered, List.mem_range] at hnumber
      exact hrequest ▸ Nat.ne_of_lt hnumber
    · exact Activity.ofRequest_awake _ _ _ _ _

/-- A run reports on the requests that are awaited, and tells how their processes have ended. -/
lemma Agrees.run (h : Agrees s endings answers) (hrun : s.run fuel = some (report, s')) :
    Agrees s' (s.ended fuel endings) (answers ++ [.returned report (s.ended fuel endings) s']) ∧
      report.requests.map RequestOutcome.request = awaiting answers ∧
      ∀ o ∈ report.requests, o.Tells (s.ended fuel endings) s'.kernel := by
  obtain ⟨kernel, env, hsteady, hkernel, rfl, rfl⟩ := run_ok hrun
  have hends : kernel.Settles (accepted answers) (s.ended fuel endings) := by
    refine Observer.watch_induction (o := Conclusion.observer)
      (P := fun k l => k.Settles (accepted answers) l)
      (Q := fun k l => k.Settles (accepted answers) l) ?_ ?_ ?_ hkernel
    · exact h.settles.of_steady ((Environment.Steady.refl _).note _)
    · exact fun k l k' settles hstep => Kernel.step_settles settles hstep
    · exact fun k l k' settles hstep =>
        (Kernel.step_ends settles.queued.joined.order hstep).1.settles settles
  have hsettles := hends.of_steady (f := fun _ => env) hsteady
  refine ⟨⟨?_, ?_, ?_⟩, ?_, fun o ho => ?_⟩
  · rw [accepted_concat, ← h.numbered]
    exact congrArg _ (List.append_nil _)
  · rw [awaiting_returned]
  · rw [accepted_concat]
    exact (List.append_nil (accepted answers)).symm ▸ hsettles
  · rw [← h.pending]
    simp only [Simulation.report, List.map_map]
    exact List.map_id _
  · obtain ⟨request, hrequest, rfl⟩ := List.mem_map.mp ho
    have hmem : request ∈ accepted answers := by
      have hawaiting : request ∈ awaiting answers := h.pending ▸ hrequest
      exact (List.rtakeWhile_suffix _ _).sublist.filterMap _ |>.subset hawaiting
    have hsame : (kernel.mapWorld fun _ => env).fate request = kernel.fate request := by
      simp only [Kernel.fate, Kernel.mapWorld, hsteady.completion?]
      rfl
    have htells := hsettles.tells hmem
    rw [hsame] at htells
    exact htells

/-- **A simulation agrees with its answers.** -/
lemma Session.agrees (h : Session config model s endings answers) : Agrees s endings answers := by
  induction h with
  | begins hmodel =>
    obtain ⟨resources, -, -, -, hpending, hsubmitted, hkernel⟩ := ofModel_ok hmodel
    have hqueued := ofModel_queued hmodel
    rw [hkernel] at hqueued
    exact ⟨hsubmitted ▸ rfl, hpending, hkernel ▸ Kernel.initial_settles rfl hqueued⟩
  | accepts _ hsubmit ih => exact ih.submit hsubmit
  | @refuses s endings answers spec e _ hsubmit ih =>
    refine ⟨?_, ?_, ?_⟩
    · rw [accepted_concat, ← ih.numbered]
      exact congrArg _ (List.append_nil _)
    · rw [awaiting_refused, ih.pending]
    · rw [accepted_concat]
      exact (List.append_nil (accepted answers)).symm ▸ ih.settles
  | reconfigures reconfigurator _ ih =>
    exact ⟨ih.numbered, ih.pending, ih.settles.of_steady
      (f := fun env => { env with reconfigurator := reconfigurator })
      ((Environment.Steady.refl _).reconfigured _)⟩
  | returns _ hrun ih => exact (ih.run hrun).1

/-! ## Reports -/

/-- **What the runs of a session report on requests.** -/
structure ReportsOnce (answers : List Answer) : Prop where
  /-- The number of a request is the number of those accepted before it. -/
  numbered : (accepted answers).map PendingRequest.number = List.range (accepted answers).length
  /-- Every request has a process of its own. -/
  distinct : ((accepted answers).map PendingRequest.process).Nodup
  /-- The reports, one after the other, and the requests that wait for the next one are all that
  were accepted, in the order of submission. -/
  once : answers.flatMap Answer.reported ++ awaiting answers = accepted answers
  /-- A run reports on a request that was accepted before it exactly if no other run was in
  between. -/
  first : ∀ before request between report endings s,
    before ++ .accepted request :: between ++ [.returned report endings s] <+: answers →
      (request ∈ report.requests.map RequestOutcome.request ↔
        ∀ x ∈ between, x.isReturned = false)
  /-- A report tells how the processes have ended by the end of the run. -/
  tells : ∀ report endings s, .returned report endings s ∈ answers →
    (endings.map Conclusion.process).Nodup ∧ (∀ o ∈ report.requests, o.Tells endings s.kernel) ∧
      report.completed + report.failed + report.incomplete = report.requests.length

/-- A run reports on what is awaited. -/
lemma Session.reports (h : Session config model s endings answers) {before : List Answer}
    {report : SimulationReport} {l : List Conclusion} {s₁ : Simulation}
    (hreported : before ++ [.returned report l s₁] <+: answers) :
    report.requests.map RequestOutcome.request = awaiting before := by
  induction h with
  | begins _ => exact absurd hreported (by simp)
  | accepts _ _ ih =>
    rcases List.prefix_concat_iff.mp hreported with heq | hbefore
    · exact absurd (List.append_inj_right' heq rfl) (by simp)
    · exact ih hbefore
  | refuses _ _ ih =>
    rcases List.prefix_concat_iff.mp hreported with heq | hbefore
    · exact absurd (List.append_inj_right' heq rfl) (by simp)
    · exact ih hbefore
  | reconfigures _ _ ih => exact ih hreported
  | returns hsession hrun ih =>
    rcases List.prefix_concat_iff.mp hreported with heq | hbefore
    · obtain ⟨rfl, hlast⟩ := List.append_inj' heq rfl
      injection hlast with hlast
      injection hlast with hreport
      exact hreport ▸ (hsession.agrees.run hrun).2.1
    · exact ih hbefore

/-- No request is lost, and none is reported twice. -/
lemma Session.once (h : Session config model s endings answers) :
    answers.flatMap Answer.reported ++ awaiting answers = accepted answers := by
  induction h with
  | begins _ => rfl
  | accepts _ _ ih => simp [← ih, Answer.reported, Answer.request?]
  | refuses _ _ ih => simp [← ih, Answer.reported, Answer.request?]
  | reconfigures _ _ ih => exact ih
  | returns hsession hrun ih =>
    simp [← ih, Answer.reported, Answer.request?, (hsession.agrees.run hrun).2.1]

/-- A report tells how processes have ended, each of them once. -/
lemma Session.tells (h : Session config model s endings answers) {l : List Conclusion}
    {s₁ : Simulation} (hreturned : .returned report l s₁ ∈ answers) :
    (l.map Conclusion.process).Nodup ∧ ∀ o ∈ report.requests, o.Tells l s₁.kernel := by
  induction h with
  | begins _ => cases hreturned
  | accepts _ _ ih => exact ih (by simpa using hreturned)
  | refuses _ _ ih => exact ih (by simpa using hreturned)
  | reconfigures _ _ ih => exact ih hreturned
  | returns hsession hrun ih =>
    rcases List.mem_append.mp hreturned with hbefore | hlast
    · exact ih hbefore
    · injection List.mem_singleton.mp hlast with hreport hendings hs
      subst hreport hendings hs
      obtain ⟨hagrees, -, htells⟩ := hsession.agrees.run hrun
      exact ⟨hagrees.settles.once, htells⟩

/-- A request is awaited until a run returns. -/
lemma mem_awaiting_iff {before between : List Answer} {request : PendingRequest}
    (distinct : (accepted (before ++ .accepted request :: between)).Nodup) :
    request ∈ awaiting (before ++ .accepted request :: between) ↔
      ∀ x ∈ between, x.isReturned = false := by
  induction between using List.reverseRecOn with
  | nil => simp
  | append_singleton between x ih =>
    rw [← List.cons_append, ← List.append_assoc] at distinct ⊢
    rw [accepted_concat, List.nodup_append] at distinct
    have hmem : request ∈ accepted (before ++ .accepted request :: between) :=
      List.mem_filterMap.mpr ⟨.accepted request, by simp, rfl⟩
    rw [List.forall_mem_append, List.forall_mem_singleton]
    cases x with
    | accepted later =>
      have hne : request ≠ later := distinct.2.2 request hmem later List.mem_cons_self
      rw [awaiting_accepted, List.mem_append, List.mem_singleton, or_iff_left hne, ih distinct.1]
      exact (and_iff_left rfl).symm
    | refused e =>
      rw [awaiting_refused, ih distinct.1]
      exact (and_iff_left rfl).symm
    | returned report l s =>
      rw [awaiting_returned]
      exact iff_of_false (List.not_mem_nil) fun h => Bool.noConfusion h.2

/-- **Every request is reported once**: in the report of the first run after it was accepted, where
it stands in the order of submission with the number of requests accepted before it.  It is told to
have completed or failed exactly if its process has ended with a result or an error by the end of
that run, at the time told, and to be incomplete otherwise.  This holds of every sequence of
submissions and runs. -/
theorem requests_reported_once (h : Session config model s endings answers) :
    ReportsOnce answers := by
  have hagrees := h.agrees
  have hcount : s.submitted = (accepted answers).length := by
    rw [← List.length_map PendingRequest.number, hagrees.numbered, List.length_range]
  have hnumbers : ((accepted answers).map PendingRequest.number).Nodup :=
    hagrees.numbered ▸ List.nodup_range
  have hdistinct : (accepted answers).Nodup := hnumbers.of_map _
  refine ⟨hcount ▸ hagrees.numbered, ?_, h.once, ?_, fun report l s₁ hreturned => ?_⟩
  · refine hdistinct.map_on fun r hr r' hr' hprocess => ?_
    have hnumber := (hagrees.settles.matched r hr r' hr').mpr hprocess
    exact List.inj_on_of_nodup_map hnumbers hr hr' hnumber
  · intro before request between report l s₁ hreported
    rw [h.reports hreported]
    have hbefore := (List.prefix_append _ _).trans hreported
    exact mem_awaiting_iff (hdistinct.sublist (hbefore.sublist.filterMap _))
  · obtain ⟨honce, htells⟩ := h.tells hreturned
    exact ⟨honce, htells, report.counts⟩

/-- Three runs that stop at a time.  Of the first three requests one completes, the inputs of one
cannot be bound, and one is not served in time; the process of the last outlives the runs.  A
request for an unknown service is refused.  The second run has nothing to report, and a later
request completes. -/
theorem requests_reported_once_interleaved :
    ∃ (config : SimulationConfig) (model : SystemModel) (s s₁ s₂ : Simulation)
      (endings l₁ l₂ : List Conclusion) (r₀ r₁ r₂ r₃ : PendingRequest) (e : SimulationError)
      (first second third : SimulationReport),
      let answers : List Answer := [.accepted r₀, .accepted r₁, .accepted r₂, .refused e,
        .returned first l₁ s₁, .returned second l₂ s₂, .accepted r₃, .returned third endings s]
      Session config model s endings answers ∧
      first.requests.map (·.fate.name) = ["completed", "failed", "incomplete"] ∧
      second.requests.map (·.fate.name) = [] ∧ third.requests.map (·.fate.name) = ["completed"] ∧
      ReportsOnce answers := by
  let config : SimulationConfig := ⟨42, some 5, false⟩
  let work : Behavior := ⟨"work", [⟨"w0", "", some "w1", .start⟩,
    ⟨"w1", "", some "w2", .internal [⟨"cpu", ⟨"2", .literal (.int 2)⟩⟩]⟩, ⟨"w2", "", none, .stop⟩]⟩
  let rest : Behavior := ⟨"rest", [⟨"r0", "", some "r1", .start⟩, ⟨"r1", "", none, .stop⟩]⟩
  let model : SystemModel := ⟨"", [⟨"C", "", [⟨"work", work⟩, ⟨"rest", rest⟩]⟩], [⟨"A", "", "C"⟩],
    [], [⟨"host", "", [⟨"cpu", 1, 1, .fcfs⟩]⟩], [⟨"A", "host"⟩], []⟩
  let ends : RequestSpec := ⟨"A", "work", [], .ofSeconds 0⟩
  let fails : RequestSpec :=
    ⟨"A", "work", [.single "x" .value (.variable_ "unknown")], .ofSeconds 1⟩
  let stays : RequestSpec := ⟨"A", "work", [], .ofSeconds 4⟩
  let unknown : RequestSpec := ⟨"A", "play", [], .ofSeconds 0⟩
  let rests : RequestSpec := ⟨"A", "rest", [], .ofSeconds 0⟩
  have hok : ∀ {ε α : Type} {x : Except ε α} {a : α}, x.toOption = some a → x = .ok a := by
    intro ε α x a h
    cases x with
    | error e => cases h
    | ok b => exact congrArg _ (Option.some.inj h)
  have hreports : ((ofModel config model).toOption.bind fun s₀ =>
      (s₀.submit ends).toOption.bind fun x₀ => (x₀.2.submit fails).toOption.bind fun x₁ =>
      (x₁.2.submit stays).toOption.bind fun x₂ => (x₂.2.run 100).bind fun first =>
      (first.2.run 100).bind fun second => (second.2.submit rests).toOption.bind fun x₃ =>
      (x₃.2.run 100).map fun third => ((x₂.2.submit unknown).toOption.isNone,
        [first, second, third].map fun x => x.1.requests.map (·.fate.name))) =
      some (true, [["completed", "failed", "incomplete"], [], ["completed"]]) := by
    decide +kernel
  simp only [Option.bind_eq_some_iff, Option.map_eq_some_iff] at hreports
  obtain ⟨s₀, hmodel, x₀, h₀, x₁, h₁, x₂, h₂, first, hfirst, second, hsecond, x₃, h₃, third, hthird,
    hnames⟩ := hreports
  cases hrefused : x₂.2.submit unknown with
  | ok x => simp [hrefused, Except.toOption] at hnames
  | error e =>
    simp only [List.map_cons, List.map_nil, Prod.mk.injEq, List.cons.injEq, and_true] at hnames
    have hbefore := (((Session.begins (hok hmodel)).accepts (hok h₀)).accepts (hok h₁)).accepts
      (hok h₂)
    have hsession := ((((hbefore.refuses hrefused).returns hfirst).returns hsecond).accepts
      (hok h₃)).returns hthird
    exact ⟨config, model, _, _, _, _, _, _, _, _, _, _, e, _, _, _, hsession, hnames.2.1,
      hnames.2.2.1, hnames.2.2.2, requests_reported_once hsession⟩

end Simulation

end ServiceSim
