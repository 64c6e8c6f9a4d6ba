import ServiceSim.Measurement.Basic
import Mathlib.Data.List.Perm.Basic
import Mathlib.Tactic.Common

/-!
# Pairing samples one by one

A calculator pairs the samples of a recorder from the first to the last.  What matters for the
samples that are still to come is which starts are open: for every process a stack, the latest start
on top (`openStarts`).  The lemmas here say what one more sample does: a start is pushed on the stack
of its process, a stop takes the top of it and makes a pair, and a sample of another probe does
nothing.

A recorder takes the samples of the probes of its calculators (`sampling_eq`), and a calculator unless
its name is known (`registering_new`).  As names do not repeat, what is measured can be sorted by
calculators and put together again (`filter_keys_perm`).
-/

namespace ServiceSim

/-- A new name is added to a map. -/
lemma NameMap.insert_perm {α : Type} {name : String} {m : NameMap α}
    (h : name ∉ m.map Prod.fst) (a : α) : (NameMap.insert name a m).Perm ((name, a) :: m) := by
  induction m with
  | nil => exact List.Perm.refl _
  | cons entry rest ih =>
    obtain ⟨key, b⟩ := entry
    have hkey : name ≠ key := List.ne_of_not_mem_cons h
    have hrest := List.not_mem_of_not_mem_cons h
    rw [NameMap.insert, if_neg hkey]
    split_ifs
    · exact List.Perm.refl _
    · exact ((ih hrest).cons _).trans (List.Perm.swap _ _ _)

namespace Recorder

variable {Process : Type} [DecidableEq Process] {c : Calculator}

/-! ## Open starts -/

/-- The starts of a process among open ones, the latest first. -/
def startsOf (p : Process) (starts : List (Process × SimTime)) : List SimTime :=
  (starts.filter (·.1 = p)).map Prod.snd

lemma startsOf_cons (p q : Process) (time : SimTime) (starts : List (Process × SimTime)) :
    startsOf p ((q, time) :: starts) =
      if q = p then time :: startsOf p starts else startsOf p starts := by
  simp only [startsOf, List.filter_cons, decide_eq_true_eq]
  split_ifs <;> rfl

/-- A process without an open start takes none. -/
lemma takeOpen_none {p : Process} {starts : List (Process × SimTime)} (h : startsOf p starts = []) :
    takeOpen p starts = none := by
  induction starts with
  | nil => rfl
  | cons entry rest ih =>
    obtain ⟨q, time⟩ := entry
    rw [startsOf_cons] at h
    split_ifs at h with hq
    have hne : (q == p) = false := beq_false_of_ne hq
    rw [takeOpen, hne, ih h]
    rfl

/-- A process takes the latest of its open starts, and leaves those of others alone. -/
lemma takeOpen_some {p : Process} {starts : List (Process × SimTime)} {time : SimTime}
    {times : List SimTime} (h : startsOf p starts = time :: times) :
    ∃ others, takeOpen p starts = some (time, others) ∧
      ∀ q, startsOf q others = if q = p then times else startsOf q starts := by
  induction starts with
  | nil => cases h
  | cons entry rest ih =>
    obtain ⟨q, first⟩ := entry
    rw [startsOf_cons] at h
    split_ifs at h with hq
    · injection h with htime htimes
      refine ⟨rest, ?_, fun other => ?_⟩
      · rw [takeOpen, beq_iff_eq.mpr hq, htime]
        rfl
      · rw [startsOf_cons]
        split_ifs with hother hqo
        · rw [hother, htimes]
        · exact absurd (hqo.symm.trans hq) hother
        · rfl
    · obtain ⟨others, htake, hothers⟩ := ih h
      have hne : (q == p) = false := beq_false_of_ne hq
      refine ⟨(q, first) :: others, ?_, fun other => ?_⟩
      · rw [takeOpen, hne, htake]
        rfl
      · rw [startsOf_cons, startsOf_cons, hothers]
        split_ifs with hqo hother
        · exact absurd (hqo.trans hother) hq
        · rfl
        · rfl
        · rfl

/-- The starts that are open when samples have been paired. -/
def stillOpen (c : Calculator) :
    List (TimeSample Process) → List (Process × SimTime) → List (Process × SimTime)
  | [], starts => starts
  | s :: rest, starts =>
    if s.probe = c.startProbe then stillOpen c rest ((s.process, s.time) :: starts)
    else if s.probe = c.stopProbe then
      match takeOpen s.process starts with
      | some (_, others) => stillOpen c rest others
      | none => stillOpen c rest starts
    else stillOpen c rest starts

/-- Pairing goes on with the starts that are open. -/
lemma pairs_append (l m : List (TimeSample Process)) (starts : List (Process × SimTime)) :
    pairs c (l ++ m) starts = pairs c l starts ++ pairs c m (stillOpen c l starts) ∧
      stillOpen c (l ++ m) starts = stillOpen c m (stillOpen c l starts) := by
  induction l generalizing starts with
  | nil => exact ⟨rfl, rfl⟩
  | cons s rest ih =>
    simp only [List.cons_append, pairs, stillOpen]
    split_ifs
    · exact ih _
    · cases takeOpen s.process starts with
      | none => exact ih _
      | some found => exact ⟨congrArg (_ :: ·) (ih found.2).1, (ih found.2).2⟩
    · exact ih _

/-- Samples of other probes are passed over. -/
lemma pairs_irrelevant {l : List (TimeSample Process)}
    (h : ∀ s ∈ l, s.probe ≠ c.startProbe ∧ s.probe ≠ c.stopProbe)
    (starts : List (Process × SimTime)) : pairs c l starts = [] ∧ stillOpen c l starts = starts := by
  induction l with
  | nil => exact ⟨rfl, rfl⟩
  | cons s rest ih =>
    obtain ⟨hstart, hstop⟩ := h s List.mem_cons_self
    rw [pairs, stillOpen, if_neg hstart, if_neg hstart, if_neg hstop, if_neg hstop]
    exact ih fun t ht => h t (List.mem_cons_of_mem s ht)

/-- Whoever has taken no sample has no start that is open. -/
lemma stillOpen_absent {p : Process} {l : List (TimeSample Process)} (h : ∀ s ∈ l, s.process ≠ p)
    {starts : List (Process × SimTime)} (hstarts : startsOf p starts = []) :
    startsOf p (stillOpen c l starts) = [] := by
  induction l generalizing starts with
  | nil => exact hstarts
  | cons s rest ih =>
    have hother := h s List.mem_cons_self
    have hrest : ∀ t ∈ rest, t.process ≠ p := fun t ht => h t (List.mem_cons_of_mem s ht)
    rw [stillOpen]
    split_ifs
    · refine ih hrest ?_
      rw [startsOf_cons, if_neg hother, hstarts]
    · cases htimes : startsOf s.process starts with
      | nil =>
        rw [takeOpen_none htimes]
        exact ih hrest hstarts
      | cons time times =>
        obtain ⟨others, htake, hothers⟩ := takeOpen_some htimes
        rw [htake]
        refine ih hrest ?_
        rw [hothers p, if_neg (Ne.symm hother), hstarts]
    · exact ih hrest hstarts

/-! ## One more sample -/

/-- The starts of a process that are open for a calculator, the latest first. -/
def openStarts (r : Recorder Process) (c : Calculator) (p : Process) : List SimTime :=
  startsOf p (stillOpen c r.samples [])

/-- The pairs of a calculator so far. -/
def paired (r : Recorder Process) (c : Calculator) : List (ResponseTime Process) :=
  pairs c r.samples []

/-- The recorder with one more sample. -/
def taking (r : Recorder Process) (s : TimeSample Process) : Recorder Process :=
  { r with taken := s :: r.taken }

variable {r : Recorder Process} {s : TimeSample Process}

omit [DecidableEq Process] in
lemma samples_taking (r : Recorder Process) (s : TimeSample Process) :
    (r.taking s).samples = r.samples ++ [s] := List.reverse_cons

lemma openStarts_absent {p : Process} (h : ∀ s ∈ r.taken, s.process ≠ p) :
    r.openStarts c p = [] :=
  stillOpen_absent (fun s hs => h s (List.mem_reverse.mp hs)) rfl

lemma paired_irrelevant (h : ∀ s ∈ r.taken, s.probe ≠ c.startProbe ∧ s.probe ≠ c.stopProbe) :
    r.paired c = [] ∧ ∀ p, r.openStarts c p = [] := by
  have hnone := pairs_irrelevant (c := c) (l := r.samples)
    (fun s hs => h s (List.mem_reverse.mp hs)) []
  refine ⟨hnone.1, fun p => ?_⟩
  rw [openStarts, hnone.2]
  rfl

/-- A sample of another probe does nothing. -/
lemma taking_other (hstart : s.probe ≠ c.startProbe) (hstop : s.probe ≠ c.stopProbe) :
    (r.taking s).paired c = r.paired c ∧
      ∀ p, (r.taking s).openStarts c p = r.openStarts c p := by
  have happend := pairs_append (c := c) r.samples [s] []
  rw [pairs, stillOpen, if_neg hstart, if_neg hstart, if_neg hstop, if_neg hstop, pairs, stillOpen,
    List.append_nil, ← samples_taking] at happend
  refine ⟨happend.1, fun p => ?_⟩
  rw [openStarts, happend.2, openStarts]

/-- A start is put on top of those that are open. -/
lemma taking_start (hstart : s.probe = c.startProbe) :
    (r.taking s).paired c = r.paired c ∧ ∀ p, (r.taking s).openStarts c p =
      if p = s.process then s.time :: r.openStarts c p else r.openStarts c p := by
  have happend := pairs_append (c := c) r.samples [s] []
  rw [pairs, stillOpen, if_pos hstart, if_pos hstart, pairs, stillOpen, List.append_nil,
    ← samples_taking] at happend
  refine ⟨happend.1, fun p => ?_⟩
  rw [openStarts, happend.2, startsOf_cons, openStarts]
  by_cases h : p = s.process
  · rw [if_pos h, if_pos h.symm]
  · rw [if_neg h, if_neg (Ne.symm h)]

/-- A stop takes the start on top and makes a pair with it. -/
lemma taking_stop (hdiffers : c.stopProbe ≠ c.startProbe) (hstop : s.probe = c.stopProbe)
    {time : SimTime} {times : List SimTime} (hopen : r.openStarts c s.process = time :: times) :
    (r.taking s).paired c = r.paired c ++ [⟨c.name, s.process, time, s.time⟩] ∧
      ∀ p, (r.taking s).openStarts c p = if p = s.process then times else r.openStarts c p := by
  obtain ⟨others, htake, hothers⟩ := takeOpen_some hopen
  have hstart : s.probe ≠ c.startProbe := fun h => hdiffers (hstop.symm.trans h)
  have happend := pairs_append (c := c) r.samples [s] []
  rw [pairs, stillOpen, if_neg hstart, if_neg hstart, if_pos hstop, if_pos hstop, htake,
    ← samples_taking] at happend
  refine ⟨happend.1, fun p => ?_⟩
  rw [openStarts, happend.2]
  exact hothers p

/-! ## What a recorder accepts -/

/-- The recorder with a sample, unless it is refused or dropped. -/
def sampling (r : Recorder Process) (s : TimeSample Process) : Recorder Process :=
  match r.sample? s with
  | .ok (some r') => r'
  | _ => r

/-- The recorder with a calculator, unless it is refused. -/
def registering (r : Recorder Process) (c : Calculator) : Recorder Process :=
  match r.register? c with
  | .ok (some r') => r'
  | _ => r

section Accepting

omit [DecidableEq Process]

/-- A sample is taken if its probe is that of a calculator. -/
lemma sampling_eq (hprobe : s.probe ≠ "") :
    r.sampling s = if r.isMeasured s.probe then r.taking s else r := by
  rw [sampling, sample?, if_neg hprobe]
  split_ifs <;> rfl

/-- A sample is taken, if it is that of a calculator, or changes nothing. -/
lemma sampling_cases (r : Recorder Process) (s : TimeSample Process) :
    (r.isMeasured s.probe ∧ r.sampling s = r.taking s) ∨ r.sampling s = r := by
  by_cases hprobe : s.probe = ""
  · refine .inr ?_
    rw [sampling, sample?, if_pos hprobe]
  · rw [sampling_eq hprobe]
    split_ifs with hmeasured
    · exact .inl ⟨hmeasured, rfl⟩
    · exact .inr rfl

lemma sampling_calculators (r : Recorder Process) (s : TimeSample Process) :
    (r.sampling s).calculators = r.calculators := by
  rcases r.sampling_cases s with ⟨-, h⟩ | h
  · rw [h]
    rfl
  · rw [h]

lemma isMeasured_iff (probe : String) : r.isMeasured probe ↔
    ∃ e ∈ r.calculators, e.2.startProbe = probe ∨ e.2.stopProbe = probe := by
  simp only [isMeasured, List.any_eq_true, Bool.or_eq_true, beq_iff_eq]

/-- A calculator of a name that is known changes nothing. -/
lemma registering_known (h : c.name ∈ r.calculators.map Prod.fst) : r.registering c = r := by
  obtain ⟨e, he, hname⟩ := List.mem_map.mp h
  have hfound : (r.calculators.lookup c.name).isSome := by
    rw [List.lookup_isSome_iff]
    exact ⟨e, he, beq_iff_eq.mpr hname.symm⟩
  obtain ⟨existing, hexisting⟩ := Option.isSome_iff_exists.mp hfound
  rw [registering, register?, hexisting]
  dsimp only
  split_ifs <;> rfl

/-- A calculator of a new name is inserted. -/
lemma registering_inserts (h : c.name ∉ r.calculators.map Prod.fst) :
    r.registering c = { r with calculators := NameMap.insert c.name c r.calculators } := by
  have hnone : r.calculators.lookup c.name = none := by
    rw [List.lookup_eq_none_iff]
    intro e he
    refine bne_iff_ne.mpr fun hname => h ?_
    exact hname ▸ List.mem_map_of_mem he
  rw [registering, register?, hnone]

/-- A calculator of a new name is added. -/
lemma registering_new (h : c.name ∉ r.calculators.map Prod.fst) :
    (r.registering c).taken = r.taken ∧
      (r.registering c).calculators.Perm ((c.name, c) :: r.calculators) := by
  rw [registering_inserts h]
  exact ⟨rfl, NameMap.insert_perm h c⟩

end Accepting

/-! ## All calculators -/

/-- What is sorted by keys that do not repeat is all of it that has one of the keys. -/
lemma filter_keys_perm {α : Type} {key : α → String} {keys : List String} (distinct : keys.Nodup)
    (l : List α) :
    (keys.flatMap fun k => l.filter (key · = k)).Perm (l.filter (key · ∈ keys)) := by
  induction keys with
  | nil => simp
  | cons k rest ih =>
    obtain ⟨hk, hrest⟩ := List.nodup_cons.mp distinct
    rw [List.flatMap_cons]
    refine ((ih hrest).append_left _).trans ?_
    have hsplit := List.filter_append_perm (key · = k) (l.filter (key · ∈ k :: rest))
    rw [List.filter_filter, List.filter_filter] at hsplit
    refine List.Perm.trans (List.Perm.of_eq ?_) hsplit
    congr 1
    · refine List.filter_congr fun a _ => ?_
      by_cases h : key a = k
      · simp [h]
      · simp [h]
    · refine List.filter_congr fun a _ => ?_
      by_cases h : key a = k
      · simp [h, hk]
      · simp [h]

end Recorder

end ServiceSim
