import ServiceSim.Proofs.Interpreter.Calls
import Mathlib.Data.List.Flatten

/-!
# Keeping count of calls

An observer keeps a log of external calls: which executions have begun, and which of them have
returned and when.  Here the log is compared with what a recorder has been told, for a collection of
processes of which only the calls under way are known (`Tally`).  What the log and the recorder have in
common whatever is under way is their `Registry`.

The open starts of a process are, for every calculator, those of its calls under way with the label
of the calculator, the innermost first.  A start without a stop belongs to a call that is under way
or to a process that is gone.  So a stop always meets the start of its own call, and the pairs of a
calculator are the executions with its label that have returned.
-/

namespace ServiceSim

/-! ## The log -/

/-- An execution of an external call. -/
structure Execution where
  /-- The call. -/
  site : CallSite
  /-- The process that calls. -/
  process : ProcessId
  /-- The frame that is pushed for it, and for no other one. -/
  frame : FrameId
  /-- When it began. -/
  start : SimTime

/-- The measurement of an execution that has returned at a time. -/
def Execution.measurement (x : Execution) (stop : SimTime) : ResponseTime ProcessId :=
  ⟨x.site.label, x.process, x.start, stop⟩

/-- What has been observed of the external calls. -/
structure CallLog where
  /-- The executions that have begun, the latest first. -/
  begun : List Execution
  /-- Those that have returned, and when, the latest first. -/
  returned : List (Execution × SimTime)

namespace CallLog

/-- The log before anything happens. -/
def empty : CallLog := ⟨[], []⟩

/-- The log when an execution begins. -/
def begins (x : Execution) (l : CallLog) : CallLog := { l with begun := x :: l.begun }

/-- The log when a process returns from the call for which a frame has been pushed. -/
def returns (id : ProcessId) (pushed : FrameId) (now : SimTime) (l : CallLog) : CallLog :=
  match l.begun.find? fun x => x.process = id ∧ x.frame = pushed with
  | some x => { l with returned := (x, now) :: l.returned }
  | none => l

end CallLog

/-! ## Labels and probes -/

/-- Texts that end in endings of the same length differ if their beginnings or endings do. -/
lemma append_inj_of_ending {u v x y : String} (hlength : x.toList.length = y.toList.length)
    (h : u ++ x = v ++ y) : u = v ∧ x = y := by
  have hchars := congrArg String.toList h
  rw [String.toList_append, String.toList_append] at hchars
  obtain ⟨hbegin, hend⟩ := List.append_inj' hchars hlength
  exact ⟨String.toList_inj.mp hbegin, String.toList_inj.mp hend⟩

namespace CallSite

variable {s site : CallSite}

lemma startProbe_inj (h : site.calculator.startProbe = s.calculator.startProbe) :
    site.label = s.label := by
  have hprobes : site.label ++ "_resp1" = s.label ++ "_resp1" := h
  exact (append_inj_of_ending rfl hprobes).1

lemma stopProbe_inj (h : site.calculator.stopProbe = s.calculator.stopProbe) :
    site.label = s.label := by
  have hprobes : site.label ++ "_resp2" = s.label ++ "_resp2" := h
  exact (append_inj_of_ending rfl hprobes).1

/-- No probe is sampled both at the start of calls and at the end of calls. -/
lemma startProbe_ne_stopProbe (site s : CallSite) :
    site.calculator.startProbe ≠ s.calculator.stopProbe := by
  intro h
  have hprobes : site.label ++ "_resp1" = s.label ++ "_resp2" := h
  have hlength : "_resp1".toList.length = "_resp2".toList.length := by decide
  exact absurd (append_inj_of_ending hlength hprobes).2 (by decide)

lemma startProbe_ne_empty (site : CallSite) : site.calculator.startProbe ≠ "" := by
  intro h
  have hchars := congrArg (fun text => text.toList.length) h
  simp [calculator] at hchars

lemma stopProbe_ne_empty (site : CallSite) : site.calculator.stopProbe ≠ "" := by
  intro h
  have hchars := congrArg (fun text => text.toList.length) h
  simp [calculator] at hchars

end CallSite

/-- Call sites with the same label have the same action. -/
def Deployment.LabelsIdentify (d : Deployment) : Prop :=
  ∀ s s', d.IsCallSite s → d.IsCallSite s' → s.label = s'.label → s.action.id = s'.action.id

lemma Deployment.LabelsIdentify.monitored {d : Deployment} (identify : d.LabelsIdentify)
    {s s' : CallSite} (hs : d.IsCallSite s) (hs' : d.IsCallSite s') (h : s.label = s'.label) :
    s.isMonitored d = s'.isMonitored d := by
  rw [CallSite.isMonitored, CallSite.isMonitored, identify s s' hs hs' h]

namespace Recorder

variable {r : Recorder ProcessId} {s site : CallSite} {id : ProcessId} {now : SimTime}

/-- The sample that begins a call is open for the calculator of its label alone. -/
lemma sampling_startSample (hmem : (s.label, s.calculator) ∈ r.calculators) :
    (r.sampling (site.startSample id now)).paired s.calculator = r.paired s.calculator ∧
      ∀ p, (r.sampling (site.startSample id now)).openStarts s.calculator p =
        if s.label = site.label ∧ p = id then now :: r.openStarts s.calculator p
        else r.openStarts s.calculator p := by
  rw [sampling_eq site.startProbe_ne_empty]
  by_cases hlabel : s.label = site.label
  · have hprobe : (site.startSample id now).probe = s.calculator.startProbe :=
      congrArg (· ++ "_resp1") hlabel.symm
    have hmeasured : r.isMeasured (site.startSample id now).probe :=
      (isMeasured_iff _).mpr ⟨_, hmem, .inl hprobe.symm⟩
    obtain ⟨hpaired, hopen⟩ := taking_start (r := r) hprobe
    rw [if_pos hmeasured]
    refine ⟨hpaired, fun p => ?_⟩
    rw [hopen]
    simp only [hlabel, true_and]
    rfl
  · have hother := taking_other (r := r) (s := site.startSample id now) (c := s.calculator)
      (fun h => hlabel (CallSite.startProbe_inj h).symm) (site.startProbe_ne_stopProbe s)
    simp only [hlabel, false_and, if_false]
    split_ifs
    · exact hother
    · exact ⟨rfl, fun p => rfl⟩

/-- The sample that ends a call is paired with the latest open start of its label. -/
lemma sampling_stopSample (hmem : (s.label, s.calculator) ∈ r.calculators) {time : SimTime}
    {times : List SimTime}
    (hopen : s.label = site.label → r.openStarts s.calculator id = time :: times) :
    (r.sampling (site.stopSample id now)).paired s.calculator =
        (if s.label = site.label then r.paired s.calculator ++ [⟨s.label, id, time, now⟩]
        else r.paired s.calculator) ∧
      ∀ p, (r.sampling (site.stopSample id now)).openStarts s.calculator p =
        if s.label = site.label ∧ p = id then times else r.openStarts s.calculator p := by
  rw [sampling_eq site.stopProbe_ne_empty]
  by_cases hlabel : s.label = site.label
  · have hprobe : (site.stopSample id now).probe = s.calculator.stopProbe :=
      congrArg (· ++ "_resp2") hlabel.symm
    have hmeasured : r.isMeasured (site.stopSample id now).probe :=
      (isMeasured_iff _).mpr ⟨_, hmem, .inr hprobe.symm⟩
    obtain ⟨hpaired, hothers⟩ :=
      taking_stop (s.startProbe_ne_stopProbe s).symm hprobe (hopen hlabel)
    rw [if_pos hmeasured, if_pos hlabel]
    refine ⟨hpaired, fun p => ?_⟩
    rw [hothers]
    simp only [hlabel, true_and]
    rfl
  · have hother := taking_other (r := r) (s := site.stopSample id now) (c := s.calculator)
      (s.startProbe_ne_stopProbe site).symm (fun h => hlabel (CallSite.stopProbe_inj h).symm)
    simp only [hlabel, false_and, if_false]
    split_ifs
    · exact hother
    · exact ⟨rfl, fun p => rfl⟩

end Recorder

/-! ## Executions with a label -/

/-- The starts of the executions with a label. -/
def startsFor (label : String) (xs : List Execution) : List SimTime :=
  (xs.filter (·.site.label = label)).map Execution.start

/-- The measurements of the executions with a label that have returned. -/
def measurementsFor (label : String) (ys : List (Execution × SimTime)) :
    List (ResponseTime ProcessId) :=
  (ys.filter (·.1.site.label = label)).map fun y => y.1.measurement y.2

lemma startsFor_cons (label : String) (x : Execution) (xs : List Execution) :
    startsFor label (x :: xs) =
      if x.site.label = label then x.start :: startsFor label xs else startsFor label xs := by
  simp only [startsFor, List.filter_cons, decide_eq_true_eq]
  split_ifs <;> rfl

lemma measurementsFor_cons (label : String) (y : Execution × SimTime)
    (ys : List (Execution × SimTime)) :
    measurementsFor label (y :: ys) =
      if y.1.site.label = label then y.1.measurement y.2 :: measurementsFor label ys
      else measurementsFor label ys := by
  simp only [measurementsFor, List.filter_cons, decide_eq_true_eq]
  split_ifs <;> rfl

lemma startsFor_eq_nil {label : String} {xs : List Execution}
    (h : ∀ x ∈ xs, x.site.label ≠ label) : startsFor label xs = [] := by
  rw [startsFor, List.filter_eq_nil_iff.mpr fun x hx heq => h x hx (of_decide_eq_true heq)]
  rfl

lemma measurementsFor_eq_nil {label : String} {ys : List (Execution × SimTime)}
    (h : ∀ y ∈ ys, y.1.site.label ≠ label) : measurementsFor label ys = [] := by
  rw [measurementsFor, List.filter_eq_nil_iff.mpr fun y hy heq => h y hy (of_decide_eq_true heq)]
  rfl

/-! ## What has been registered and logged -/

/-- The log and the recorder by themselves, whatever is under way. -/
structure Registry (d : Deployment) (r : Recorder ProcessId) (l : CallLog)
    (spawned frames : Nat) (now : SimTime) : Prop where
  /-- No name is that of two calculators. -/
  keys : (r.calculators.map Prod.fst).Nodup
  /-- All calculators are those of monitored calls. -/
  calculators : ∀ e ∈ r.calculators, ∃ s, d.IsCallSite s ∧ s.isMonitored d ∧
    e = (s.label, s.calculator)
  /-- Samples have been taken by processes, of the probes of calculators. -/
  samples : ∀ t ∈ r.taken, t.process < spawned ∧ r.isMeasured t.probe
  /-- Executions have begun at call sites.  The calculators of monitored ones are registered. -/
  begun : ∀ x ∈ l.begun, d.IsCallSite x.site ∧ x.frame < frames ∧ x.start ≤ now ∧
    (x.site.isMonitored d → x.site.label ∈ r.calculators.map Prod.fst)
  /-- No frame is pushed for two executions. -/
  distinct : (l.begun.map Execution.frame).Nodup
  /-- What has returned has begun before. -/
  returned : ∀ y ∈ l.returned, y.1 ∈ l.begun ∧ y.1.start ≤ y.2

namespace Registry

variable {d : Deployment} {r : Recorder ProcessId} {l : CallLog} {spawned frames : Nat}
  {now : SimTime} {site : CallSite} {id : ProcessId}

/-- Time goes on, processes are spawned and frames are made. -/
lemma later (h : Registry d r l spawned frames now) {spawned' frames' : Nat} {now' : SimTime}
    (hspawned : spawned ≤ spawned') (hframes : frames ≤ frames') (hnow : now ≤ now') :
    Registry d r l spawned' frames' now' where
  keys := h.keys
  calculators := h.calculators
  samples := fun t ht => ⟨(h.samples t ht).1.trans_le hspawned, (h.samples t ht).2⟩
  begun := fun x hx => by
    obtain ⟨hsite, hframe, hstart, hregistered⟩ := h.begun x hx
    exact ⟨hsite, hframe.trans_le hframes, hstart.trans hnow, hregistered⟩
  distinct := h.distinct
  returned := h.returned

/-- A process takes a sample. -/
lemma sampling (h : Registry d r l spawned frames now) {s : TimeSample ProcessId}
    (hid : s.process < spawned) : Registry d (r.sampling s) l spawned frames now := by
  rcases r.sampling_cases s with ⟨hmeasured, hsampling⟩ | hsampling
  · rw [hsampling]
    refine ⟨h.keys, h.calculators, fun t ht => ?_, h.begun, h.distinct, h.returned⟩
    rcases List.mem_cons.mp ht with rfl | ht
    · exact ⟨hid, hmeasured⟩
    · exact h.samples t ht
  · rw [hsampling]
    exact h

/-- Nothing that has begun has the label of a monitored call without a calculator. -/
lemma begun_label_ne (h : Registry d r l spawned frames now) (identify : d.LabelsIdentify)
    (hsite : d.IsCallSite site) (hmonitored : site.isMonitored d)
    (hnew : site.label ∉ r.calculators.map Prod.fst) :
    ∀ x ∈ l.begun, x.site.label ≠ site.label := by
  intro x hx hlabel
  obtain ⟨hcall, -, -, hregistered⟩ := h.begun x hx
  refine hnew ?_
  rw [← hlabel]
  exact hregistered (identify.monitored hcall hsite hlabel ▸ hmonitored)

/-- A calculator of a new name has neither pairs nor open starts. -/
lemma unmeasured (h : Registry d r l spawned frames now)
    (hnew : site.label ∉ r.calculators.map Prod.fst) :
    r.paired site.calculator = [] ∧ ∀ p, r.openStarts site.calculator p = [] := by
  refine Recorder.paired_irrelevant fun t ht => ?_
  obtain ⟨e, he, hprobe⟩ := (Recorder.isMeasured_iff _).mp (h.samples t ht).2
  obtain ⟨s, -, -, rfl⟩ := h.calculators e he
  have hne : s.label ≠ site.label := fun hlabel => hnew (hlabel ▸ List.mem_map_of_mem he)
  constructor
  · intro hstart
    rcases hprobe with hprobe | hprobe
    · exact hne (CallSite.startProbe_inj (hprobe.trans hstart))
    · exact site.startProbe_ne_stopProbe s (hprobe.trans hstart).symm
  · intro hstop
    rcases hprobe with hprobe | hprobe
    · exact s.startProbe_ne_stopProbe site (hprobe.trans hstop)
    · exact hne (CallSite.stopProbe_inj (hprobe.trans hstop))

/-- The calculator of a monitored call is added. -/
lemma registering (h : Registry d r l spawned frames now) (hsite : d.IsCallSite site)
    (hmonitored : site.isMonitored d) (hnew : site.label ∉ r.calculators.map Prod.fst)
    {r' : Recorder ProcessId} (htaken : r'.taken = r.taken)
    (hperm : r'.calculators.Perm ((site.label, site.calculator) :: r.calculators)) :
    Registry d r' l spawned frames now where
  keys := by
    rw [(hperm.map Prod.fst).nodup_iff]
    exact List.nodup_cons.mpr ⟨hnew, h.keys⟩
  calculators := fun e he => by
    rcases List.mem_cons.mp (hperm.mem_iff.mp he) with rfl | he
    · exact ⟨site, hsite, hmonitored, rfl⟩
    · exact h.calculators e he
  samples := fun t ht => by
    rw [htaken] at ht
    obtain ⟨hid, hmeasured⟩ := h.samples t ht
    obtain ⟨e, he, hprobe⟩ := (Recorder.isMeasured_iff _).mp hmeasured
    have he' : e ∈ r'.calculators := hperm.mem_iff.mpr (List.mem_cons_of_mem _ he)
    exact ⟨hid, (Recorder.isMeasured_iff _).mpr ⟨e, he', hprobe⟩⟩
  begun := fun x hx => by
    obtain ⟨hcall, hframe, hstart, hregistered⟩ := h.begun x hx
    exact ⟨hcall, hframe, hstart, fun hx =>
      (hperm.map Prod.fst).mem_iff.mpr (List.mem_cons_of_mem _ (hregistered hx))⟩
  distinct := h.distinct
  returned := h.returned

/-- An execution begins, for which a new frame is pushed. -/
lemma begins (h : Registry d r l spawned frames now) (hsite : d.IsCallSite site)
    (hregistered : site.isMonitored d → site.label ∈ r.calculators.map Prod.fst)
    (id : ProcessId) :
    Registry d r (l.begins ⟨site, id, frames, now⟩) spawned (frames + 1) now where
  keys := h.keys
  calculators := h.calculators
  samples := h.samples
  begun := fun x hx => by
    rcases List.mem_cons.mp hx with rfl | hx
    · exact ⟨hsite, Nat.lt_succ_self _, le_refl _, hregistered⟩
    · obtain ⟨hcall, hframe, hrest⟩ := h.begun x hx
      exact ⟨hcall, Nat.lt_succ_of_lt hframe, hrest⟩
  distinct := by
    refine List.nodup_cons.mpr ⟨fun hmem => ?_, h.distinct⟩
    obtain ⟨x, hx, hframe⟩ := List.mem_map.mp hmem
    exact Nat.ne_of_lt (h.begun x hx).2.1 hframe
  returned := fun y hy => ⟨List.mem_cons_of_mem _ (h.returned y hy).1, (h.returned y hy).2⟩

/-- When an execution that has begun returns, the log finds it. -/
lemma returns_eq (h : Registry d r l spawned frames now) {x : Execution} (hx : x ∈ l.begun)
    (time : SimTime) :
    l.returns x.process x.frame time = { l with returned := (x, time) :: l.returned } := by
  have hfound : l.begun.find? (fun y => y.process = x.process ∧ y.frame = x.frame) = some x := by
    cases hfind : l.begun.find? (fun y => y.process = x.process ∧ y.frame = x.frame) with
    | none =>
      have hnone := List.find?_eq_none.mp hfind x hx
      exact absurd (decide_eq_true ⟨rfl, rfl⟩) hnone
    | some y =>
      have hfound := List.find?_some hfind
      have hframe : y.frame = x.frame := (of_decide_eq_true hfound).2
      exact congrArg some
        (List.inj_on_of_nodup_map h.distinct (List.mem_of_find?_eq_some hfind) hx hframe)
  rw [CallLog.returns, hfound]

/-- An execution returns. -/
lemma returns (h : Registry d r l spawned frames now) {x : Execution} (hx : x ∈ l.begun) :
    Registry d r { l with returned := (x, now) :: l.returned } spawned frames now where
  keys := h.keys
  calculators := h.calculators
  samples := h.samples
  begun := h.begun
  distinct := h.distinct
  returned := fun y hy => by
    rcases List.mem_cons.mp hy with rfl | hy
    · exact ⟨hx, (h.begun x hx).2.2.1⟩
    · exact h.returned y hy

end Registry

/-! ## Tallies -/

/-- A process and its calls under way, the innermost first. -/
abbrev Line := ProcessId × List (CallSite × FrameId)

/-- The frames that are pushed for calls under way. -/
def framesOf (lines : List Line) : List FrameId := lines.flatMap (·.2.map Prod.snd)

/-- The calls under way are executions that have begun, and their starts are open label by label. -/
def Line.IsUnderWay (r : Recorder ProcessId) (l : CallLog) (p : Line) : Prop :=
  ∃ xs : List Execution, (∀ x ∈ xs, x ∈ l.begun ∧ x.process = p.1) ∧
    xs.map (fun x => (x.site, x.frame)) = p.2 ∧
    ∀ e ∈ r.calculators, r.openStarts e.2 p.1 = startsFor e.1 xs

/-- **The log of calls agrees with the recorder**, for processes with their calls under way. -/
structure Tally (d : Deployment) (r : Recorder ProcessId) (l : CallLog) (lines : List Line)
    (spawned frames : Nat) (now : SimTime) : Prop extends Registry d r l spawned frames now where
  /-- No process is there twice. -/
  ids : (lines.map Prod.fst).Nodup
  /-- What is under way has begun and is open. -/
  underWay : ∀ p ∈ lines, p.1 < spawned ∧ p.IsUnderWay r l
  /-- No execution returns twice, and none that has returned is under way. -/
  once : (framesOf lines ++ l.returned.map (·.1.frame)).Nodup
  /-- The pairs are the executions that have returned, label by label. -/
  pairs : ∀ e ∈ r.calculators, (r.paired e.2).Perm (measurementsFor e.1 l.returned)

/-- What is under way stays so for a process whose open starts stay the same. -/
lemma Line.IsUnderWay.stays {r r' : Recorder ProcessId} {l l' : CallLog} {p : Line}
    (h : p.IsUnderWay r l) (hbegun : l.begun ⊆ l'.begun)
    (hcalculators : r'.calculators = r.calculators)
    (hopen : ∀ e ∈ r.calculators, r'.openStarts e.2 p.1 = r.openStarts e.2 p.1) :
    p.IsUnderWay r' l' := by
  obtain ⟨xs, hxs, hcalls, hstarts⟩ := h
  refine ⟨xs, fun x hx => ⟨hbegun (hxs x hx).1, (hxs x hx).2⟩, hcalls, fun e he => ?_⟩
  rw [hcalculators] at he
  rw [hopen e he, hstarts e he]

namespace Tally

variable {d : Deployment} {r : Recorder ProcessId} {l : CallLog} {lines rest : List Line}
  {spawned frames : Nat} {now : SimTime} {site : CallSite} {id : ProcessId}
  {calls : List (CallSite × FrameId)} {pushed : FrameId}

lemma initial (d : Deployment) (frames : Nat) (now : SimTime) :
    Tally d .empty .empty [] 0 frames now where
  keys := List.nodup_nil
  calculators := fun _ h => absurd h List.not_mem_nil
  samples := fun _ h => absurd h List.not_mem_nil
  begun := fun _ h => absurd h List.not_mem_nil
  distinct := List.nodup_nil
  returned := fun _ h => absurd h List.not_mem_nil
  ids := List.nodup_nil
  underWay := fun _ h => absurd h List.not_mem_nil
  once := List.nodup_nil
  pairs := fun _ h => absurd h List.not_mem_nil

/-- All frames of calls have been made. -/
lemma frame_lt (h : Tally d r l lines spawned frames now) {frame : FrameId}
    (hframe : frame ∈ framesOf lines ++ l.returned.map (·.1.frame)) : frame < frames := by
  rcases List.mem_append.mp hframe with hframe | hframe
  · obtain ⟨p, hp, hframe⟩ := List.mem_flatMap.mp hframe
    obtain ⟨-, xs, hbegun, hcalls, -⟩ := h.underWay p hp
    rw [← hcalls, List.map_map] at hframe
    obtain ⟨x, hx, rfl⟩ := List.mem_map.mp hframe
    exact (h.begun x (hbegun x hx).1).2.1
  · obtain ⟨y, hy, rfl⟩ := List.mem_map.mp hframe
    exact (h.begun y.1 (h.returned y hy).1).2.1

/-! ### Time goes on, processes come and go -/

/-- Processes go, others come without calls, time goes on and frames are made. -/
lemma passes (h : Tally d r l lines spawned frames now) {kept born lines' : List Line}
    {spawned' frames' : Nat} {now' : SimTime} (hlines : lines'.Perm (kept ++ born))
    (hkept : kept.Sublist lines)
    (hborn : ∀ p ∈ born, spawned ≤ p.1 ∧ p.1 < spawned' ∧ p.2 = [])
    (hids : (born.map Prod.fst).Nodup) (hspawned : spawned ≤ spawned') (hframes : frames ≤ frames')
    (hnow : now ≤ now') : Tally d r l lines' spawned' frames' now' where
  toRegistry := h.toRegistry.later hspawned hframes hnow
  ids := by
    rw [(hlines.map Prod.fst).nodup_iff, List.map_append]
    refine (h.ids.sublist (hkept.map _)).append hids fun i hi hnew => ?_
    obtain ⟨p, hp, rfl⟩ := List.mem_map.mp hi
    obtain ⟨q, hq, hqp⟩ := List.mem_map.mp hnew
    have hold := (h.underWay p (hkept.subset hp)).1
    rw [← hqp] at hold
    exact Nat.not_lt.mpr (hborn q hq).1 hold
  underWay := fun p hp => by
    rcases List.mem_append.mp (hlines.mem_iff.mp hp) with hp | hp
    · obtain ⟨hid, hcalls⟩ := h.underWay p (hkept.subset hp)
      exact ⟨hid.trans_le hspawned, hcalls⟩
    · obtain ⟨hnew, hid, hnone⟩ := hborn p hp
      refine ⟨hid, [], fun x hx => absurd hx List.not_mem_nil, hnone.symm, fun e _ => ?_⟩
      refine Recorder.openStarts_absent fun t ht heq => ?_
      exact Nat.not_lt.mpr hnew (heq ▸ (h.samples t ht).1)
  once := by
    have hnone : framesOf born = [] := by
      rw [framesOf, List.flatMap_eq_nil_iff]
      intro p hp
      rw [(hborn p hp).2.2]
      rfl
    have hperm : (framesOf lines').Perm (framesOf kept) := by
      refine (hlines.flatMap_right _).trans ?_
      rw [List.flatMap_append, ← framesOf, ← framesOf, hnone, List.append_nil]
    rw [(hperm.append_right _).nodup_iff]
    exact h.once.sublist ((hkept.flatMap _).append_right _)
  pairs := h.pairs

/-- Processes go and time goes on. -/
lemma thins (h : Tally d r l lines spawned frames now) {lines' : List Line} {frames' : Nat}
    {now' : SimTime} (hlines : lines'.Sublist lines) (hframes : frames ≤ frames')
    (hnow : now ≤ now') : Tally d r l lines' spawned frames' now' :=
  h.passes (List.Perm.of_eq (List.append_nil lines').symm) hlines
    (fun _ hp => absurd hp List.not_mem_nil) List.nodup_nil (le_refl _) hframes hnow

/-! ### Calls begin and return -/

/-- The calculator of a call that is about to begin is registered, if the call is monitored. -/
lemma registered (h : Tally d r l lines spawned frames now) (identify : d.LabelsIdentify)
    (hsite : d.IsCallSite site) :
    Tally d (site.registered d r) l lines spawned frames now ∧
      (site.isMonitored d → site.label ∈ (site.registered d r).calculators.map Prod.fst) := by
  rw [CallSite.registered]
  split_ifs with hmonitored
  · by_cases hknown : site.label ∈ r.calculators.map Prod.fst
    · rw [Recorder.registering_known hknown]
      exact ⟨h, fun _ => hknown⟩
    · obtain ⟨htaken, hperm⟩ := Recorder.registering_new (r := r) (c := site.calculator) hknown
      generalize r.registering site.calculator = r' at htaken hperm ⊢
      have hpaired : ∀ c, r'.paired c = r.paired c := fun c => by
        rw [Recorder.paired, Recorder.samples, htaken]
        rfl
      have hopen : ∀ c p, r'.openStarts c p = r.openStarts c p := fun c p => by
        rw [Recorder.openStarts, Recorder.samples, htaken]
        rfl
      -- No execution has had the label yet, and no sample has had a probe of the calculator.
      have hlabels := h.begun_label_ne identify hsite hmonitored hknown
      obtain ⟨hnone, hclosed⟩ := h.unmeasured hknown
      refine ⟨⟨h.registering hsite hmonitored hknown htaken hperm, h.ids, fun p hp => ?_, h.once,
        fun e he => ?_⟩, fun _ => ?_⟩
      · obtain ⟨hid, xs, hbegun, hcalls, hstarts⟩ := h.underWay p hp
        refine ⟨hid, xs, hbegun, hcalls, fun e he => ?_⟩
        rw [hopen]
        rcases List.mem_cons.mp (hperm.mem_iff.mp he) with rfl | he
        · exact (hclosed _).trans (startsFor_eq_nil fun x hx => hlabels x (hbegun x hx).1).symm
        · exact hstarts e he
      · rw [hpaired]
        rcases List.mem_cons.mp (hperm.mem_iff.mp he) with rfl | he
        · exact List.Perm.of_eq (hnone.trans
            (measurementsFor_eq_nil fun y hy => hlabels y.1 (h.returned y hy).1).symm)
        · exact h.pairs e he
      · exact (hperm.map Prod.fst).mem_iff.mpr List.mem_cons_self
  · exact ⟨h, fun hm => absurd hm hmonitored⟩

/-- A call fails to begin: its start stays open, and its process is gone. -/
lemma fails (h : Tally d r l ((id, calls) :: rest) spawned frames now) (site : CallSite) :
    Tally d (r.sampling (site.startSample id now)) l rest spawned frames now := by
  have hid : id < spawned := (h.underWay _ List.mem_cons_self).1
  obtain ⟨hgone, hrest⟩ := List.nodup_cons.mp h.ids
  have hcalculators := r.sampling_calculators (site.startSample id now)
  refine ⟨h.sampling hid, hrest, fun p hp => ?_, ?_, fun e he => ?_⟩
  · obtain ⟨hp', hcalls⟩ := h.underWay p (List.mem_cons_of_mem _ hp)
    have hother : p.1 ≠ id := ne_of_mem_of_not_mem (List.mem_map_of_mem hp) hgone
    refine ⟨hp', hcalls.stays (fun _ hx => hx) hcalculators fun e he => ?_⟩
    obtain ⟨s, -, -, rfl⟩ := h.calculators e he
    rw [(Recorder.sampling_startSample he).2, if_neg fun hsame => hother hsame.2]
  · have hsub : (framesOf rest).Sublist (framesOf ((id, calls) :: rest)) :=
      (List.sublist_cons_self _ _).flatMap _
    exact h.once.sublist (hsub.append_right _)
  · rw [hcalculators] at he
    obtain ⟨s, -, -, rfl⟩ := h.calculators e he
    rw [(Recorder.sampling_startSample he).1]
    exact h.pairs _ he

/-- A call begins, and a new frame is pushed for it. -/
lemma begins (h : Tally d r l ((id, calls) :: rest) spawned frames now) (hsite : d.IsCallSite site)
    (hregistered : site.isMonitored d → site.label ∈ r.calculators.map Prod.fst) :
    Tally d (r.sampling (site.startSample id now)) (l.begins ⟨site, id, frames, now⟩)
      ((id, (site, frames) :: calls) :: rest) spawned (frames + 1) now := by
  obtain ⟨hid, xs, hbegun, hcalls, hstarts⟩ := h.underWay _ List.mem_cons_self
  have hothers := h.fails site
  have hcalculators := r.sampling_calculators (site.startSample id now)
  rw [← hcalculators] at hregistered
  refine ⟨hothers.toRegistry.begins hsite hregistered id, h.ids, fun p hp => ?_, ?_, hothers.pairs⟩
  · rcases List.mem_cons.mp hp with rfl | hp
    · refine ⟨hid, ⟨site, id, frames, now⟩ :: xs, fun x hx => ?_, ?_, fun e he => ?_⟩
      · rcases List.mem_cons.mp hx with rfl | hx
        · exact ⟨List.mem_cons_self, rfl⟩
        · exact ⟨List.mem_cons_of_mem _ (hbegun x hx).1, (hbegun x hx).2⟩
      · rw [List.map_cons, hcalls]
      · -- The start is on top for the calculator of its label, and nothing changes for others.
        rw [hcalculators] at he
        obtain ⟨s, -, -, rfl⟩ := h.calculators e he
        rw [(Recorder.sampling_startSample he).2, hstarts _ he, startsFor_cons]
        simp only [and_true, eq_comm]
    · obtain ⟨hp', hcalls⟩ := hothers.underWay p hp
      exact ⟨hp', hcalls.stays (fun _ => List.mem_cons_of_mem _) rfl fun _ _ => rfl⟩
  · have hnew : frames ∉ framesOf ((id, calls) :: rest) ++ l.returned.map (·.1.frame) :=
      fun hmem => Nat.lt_irrefl _ (h.frame_lt hmem)
    exact List.nodup_cons.mpr ⟨hnew, h.once⟩

/-- The innermost call of a process is an execution whose start is on top. -/
lemma innermost (h : Tally d r l ((id, (site, pushed) :: calls) :: rest) spawned frames now) :
    ∃ x ∈ l.begun, x.site = site ∧ x.process = id ∧ x.frame = pushed ∧
      ∃ xs, (∀ y ∈ xs, y ∈ l.begun ∧ y.process = id) ∧
        xs.map (fun y => (y.site, y.frame)) = calls ∧
        ∀ e ∈ r.calculators, r.openStarts e.2 id = startsFor e.1 (x :: xs) := by
  obtain ⟨-, xs, hbegun, hcalls, hstarts⟩ := h.underWay _ List.mem_cons_self
  cases xs with
  | nil => cases hcalls
  | cons x xs =>
    injection hcalls with hinner hcalls
    injection hinner with hsite hframe
    obtain ⟨hx, hprocess⟩ := hbegun x List.mem_cons_self
    exact ⟨x, hx, hsite, hprocess, hframe, xs, fun y hy => hbegun y (List.mem_cons_of_mem _ hy),
      hcalls, hstarts⟩

/-- A process returns from its innermost call, and the start of this call meets its stop. -/
lemma returns (h : Tally d r l ((id, (site, pushed) :: calls) :: rest) spawned frames now) :
    Tally d (r.sampling (site.stopSample id now)) (l.returns id pushed now)
      ((id, calls) :: rest) spawned frames now := by
  have hid : id < spawned := (h.underWay _ List.mem_cons_self).1
  have hgone : id ∉ rest.map Prod.fst := (List.nodup_cons.mp h.ids).1
  have hcalculators := r.sampling_calculators (site.stopSample id now)
  obtain ⟨x, hx, rfl, rfl, rfl, xs, hbegun, hcalls, hstarts⟩ := h.innermost
  rw [h.returns_eq hx]
  -- The start that the stop meets is that of the call.
  have hopen : ∀ {s : CallSite}, (s.label, s.calculator) ∈ r.calculators →
      s.label = x.site.label →
      r.openStarts s.calculator x.process = x.start :: startsFor s.label xs := by
    intro s hs hlabel
    rw [hstarts _ hs, startsFor_cons, if_pos hlabel.symm]
  refine ⟨(h.sampling hid).returns hx, h.ids, fun p hp => ?_, ?_, fun e he => ?_⟩
  · rcases List.mem_cons.mp hp with rfl | hp
    · refine ⟨hid, xs, hbegun, hcalls, fun e he => ?_⟩
      rw [hcalculators] at he
      obtain ⟨s, -, -, rfl⟩ := h.calculators e he
      rw [(Recorder.sampling_stopSample he (hopen he)).2, hstarts _ he, startsFor_cons]
      by_cases hlabel : s.label = x.site.label
      · rw [if_pos ⟨hlabel, rfl⟩]
      · rw [if_neg fun hsame => hlabel hsame.1, if_neg (Ne.symm hlabel)]
    · obtain ⟨hp', hcalls'⟩ := h.underWay p (List.mem_cons_of_mem _ hp)
      have hother : p.1 ≠ x.process := ne_of_mem_of_not_mem (List.mem_map_of_mem hp) hgone
      refine ⟨hp', hcalls'.stays (fun _ hx => hx) hcalculators fun e he => ?_⟩
      obtain ⟨s, -, -, rfl⟩ := h.calculators e he
      rw [(Recorder.sampling_stopSample he (hopen he)).2, if_neg fun hsame => hother hsame.2]
  · have hmoves : (framesOf ((x.process, (x.site, x.frame) :: calls) :: rest) ++
        l.returned.map (·.1.frame)).Perm
        (framesOf ((x.process, calls) :: rest) ++ ((x, now) :: l.returned).map (·.1.frame)) :=
      List.perm_middle.symm
    exact hmoves.nodup_iff.mp h.once
  · rw [hcalculators] at he
    obtain ⟨s, -, -, rfl⟩ := h.calculators e he
    rw [(Recorder.sampling_stopSample he (hopen he)).1, measurementsFor_cons]
    by_cases hlabel : s.label = x.site.label
    · rw [if_pos hlabel, if_pos hlabel.symm, hlabel]
      exact (List.perm_append_singleton _ _).trans ((hlabel ▸ h.pairs _ he).cons _)
    · rw [if_neg hlabel, if_neg (Ne.symm hlabel)]
      exact h.pairs _ he

/-! ### What is measured -/

/-- A call that has returned is monitored if its label is that of a calculator, and only then. -/
lemma returned_monitored (h : Tally d r l lines spawned frames now) (identify : d.LabelsIdentify) :
    l.returned.filter (·.1.site.label ∈ r.calculators.map Prod.fst) =
      l.returned.filter (·.1.site.isMonitored d) := by
  refine List.filter_congr fun y hy => ?_
  obtain ⟨hsite, -, -, hregistered⟩ := h.begun y.1 (h.returned y hy).1
  rw [Bool.eq_iff_iff, decide_eq_true_eq]
  refine ⟨fun hmem => ?_, hregistered⟩
  obtain ⟨e, he, hlabel⟩ := List.mem_map.mp hmem
  obtain ⟨s, hs, hmonitored, rfl⟩ := h.calculators e he
  rw [← identify.monitored hs hsite hlabel]
  exact hmonitored

/-- **The response times are the monitored executions that have returned.** -/
theorem responseTimes (h : Tally d r l lines spawned frames now) (identify : d.LabelsIdentify) :
    r.responseTimes.Perm
      ((l.returned.filter (·.1.site.isMonitored d)).map fun y => y.1.measurement y.2) := by
  have hkeys : List.Perm ((r.calculators.map Prod.fst).flatMap fun name =>
      l.returned.filter (·.1.site.label = name))
      (l.returned.filter (·.1.site.label ∈ r.calculators.map Prod.fst)) :=
    Recorder.filter_keys_perm h.keys l.returned
  calc
    r.responseTimes = r.calculators.flatMap fun e => r.paired e.2 := rfl
    List.Perm _ (r.calculators.flatMap fun e => measurementsFor e.1 l.returned) :=
        List.Perm.flatMap_left _ h.pairs
    _ = ((r.calculators.map Prod.fst).flatMap fun name =>
          l.returned.filter (·.1.site.label = name)).map fun y => y.1.measurement y.2 := by
        rw [List.flatMap_map, List.map_flatMap]
        rfl
    List.Perm _ ((l.returned.filter (·.1.site.label ∈ r.calculators.map Prod.fst)).map
        fun y => y.1.measurement y.2) := hkeys.map _
    _ = (l.returned.filter (·.1.site.isMonitored d)).map fun y => y.1.measurement y.2 := by
        rw [h.returned_monitored identify]

end Tally

end ServiceSim
