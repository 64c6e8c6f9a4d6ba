import ServiceSim.Proofs.Measurement.Pairing
import Mathlib.Data.List.Nodup
import Mathlib.Data.List.Sort
import Mathlib.Data.Nat.Find

/-!
# Samples are matched like brackets

A calculator goes through the samples once and keeps the starts that are open.  What it pairs can be
said without going through them.  `IsMatching` says it of places among the samples: a stop is matched
with the latest start of its process that lies before it and that no earlier stop is matched with, if
there is such a start.  This determines the matching (`IsMatching.unique`), although it refers to
itself, as it only looks at stops that are earlier.

* `exists_matched` follows the calculator from sample to sample: what it has paired is a matching, and
  what it keeps are the starts that this leaves open.
* `pairs_filter` says that each process is measured as if there were no others.

`samples_match_like_brackets` is the result, for all calculators of a recorder.
-/

namespace ServiceSim

namespace Recorder

variable {Process : Type} [DecidableEq Process]

/-! ## Matchings -/

/-- A start and a stop that belong together, by their places among the samples. -/
structure Match where
  /-- The place of the start. -/
  start : Nat
  /-- The place of the stop. -/
  stop : Nat
deriving DecidableEq

section Matchings

omit [DecidableEq Process]

/-- A process has sampled a probe at a place. -/
def SampledAt (l : List (TimeSample Process)) (probe : String) (p : Process) (i : Nat) : Prop :=
  ∃ s, l[i]? = some s ∧ s.probe = probe ∧ s.process = p

/-- A start of a process lies before a place and is not matched with a stop before it. -/
def IsOpen (c : Calculator) (l : List (TimeSample Process)) (m : List Match) (p : Process)
    (i j : Nat) : Prop :=
  SampledAt l c.startProbe p i ∧ i < j ∧ ∀ x ∈ m, x.start = i → j ≤ x.stop

/-- **A matching of the samples of a calculator**, in the order of the stops: a stop belongs to the
latest start of its process that is open there. -/
structure IsMatching (c : Calculator) (l : List (TimeSample Process)) (m : List Match) : Prop where
  inOrder : m.Pairwise fun x y => x.stop < y.stop
  matched : ∀ x, x ∈ m ↔ ∃ p, SampledAt l c.stopProbe p x.stop ∧ IsOpen c l m p x.start x.stop ∧
    ∀ i, IsOpen c l m p i x.stop → i ≤ x.start

/-- What a match measures. -/
def Match.measurement? (c : Calculator) (l : List (TimeSample Process)) (x : Match) :
    Option (ResponseTime Process) :=
  match l[x.start]?, l[x.stop]? with
  | some s, some t => some ⟨c.name, t.process, s.time, t.time⟩
  | _, _ => none

variable {c : Calculator} {l : List (TimeSample Process)} {m m' : List Match} {s : TimeSample Process}
  {probe : String} {p q : Process} {i j : Nat}

lemma SampledAt.lt (h : SampledAt l probe p i) : i < l.length := by
  obtain ⟨s, hs, -⟩ := h
  exact (List.getElem?_eq_some_iff.mp hs).1

lemma SampledAt.process_eq (h : SampledAt l probe p i) {probe' : String}
    (h' : SampledAt l probe' q i) : p = q := by
  obtain ⟨s, hs, -, rfl⟩ := h
  obtain ⟨s', hs', -, rfl⟩ := h'
  rw [hs] at hs'
  injection hs' with hs'
  rw [hs']

/-- One more sample changes nothing about those before it. -/
lemma sampledAt_append (h : i < l.length) :
    SampledAt (l ++ [s]) probe p i ↔ SampledAt l probe p i := by
  rw [SampledAt, SampledAt, List.getElem?_append_left h]

lemma sampledAt_last : SampledAt (l ++ [s]) probe p l.length ↔ s.probe = probe ∧ s.process = p := by
  rw [SampledAt, List.getElem?_concat_length]
  constructor
  · rintro ⟨s', hs', h⟩
    injection hs' with hs'
    exact hs' ▸ h
  · exact fun h => ⟨s, rfl, h⟩

namespace IsMatching

variable (h : IsMatching c l m)

include h

lemma stop_lt {x : Match} (hx : x ∈ m) : x.stop < l.length := by
  obtain ⟨p, hstop, -⟩ := (h.matched x).mp hx
  exact hstop.lt

lemma start_lt {x : Match} (hx : x ∈ m) : x.start < x.stop := by
  obtain ⟨p, -, ⟨-, hlt, -⟩, -⟩ := (h.matched x).mp hx
  exact hlt

/-- No stop is matched twice. -/
lemma stops_nodup : (m.map Match.stop).Nodup :=
  (List.pairwise_map.mpr h.inOrder).imp Nat.ne_of_lt

/-- Who shares a start or a stop is the same match: the later one would not have been open. -/
lemma eq_of_start_eq {x y : Match} (hx : x ∈ m) (hy : y ∈ m) (hstart : x.start = y.start) :
    x = y := by
  obtain ⟨_, -, ⟨-, -, hxopen⟩, -⟩ := (h.matched x).mp hx
  obtain ⟨_, -, ⟨-, -, hyopen⟩, -⟩ := (h.matched y).mp hy
  have hstop : x.stop = y.stop :=
    Nat.le_antisymm (hxopen y hy hstart.symm) (hyopen x hx hstart)
  cases x
  cases y
  rw [Match.mk.injEq]
  exact ⟨hstart, hstop⟩

/-- No start is matched twice. -/
lemma starts_nodup : (m.map Match.start).Nodup :=
  List.Nodup.map_on (fun _ hx _ hy => h.eq_of_start_eq hx hy) h.stops_nodup.of_map

/-- **A stop is left alone** if all earlier starts of its process are matched already. -/
lemma unmatched_iff (hstop : SampledAt l c.stopProbe p j) : (∀ x ∈ m, x.stop ≠ j) ↔
    ∀ i < j, SampledAt l c.startProbe p i → ∃ x ∈ m, x.start = i ∧ x.stop < j := by
  constructor
  · -- Among starts that are open there would be a latest one.
    intro hnone i hi hstart
    by_contra hopen
    have hopen : IsOpen c l m p i j :=
      ⟨hstart, hi, fun x hx hxi => not_lt.mp fun hlt => hopen ⟨x, hx, hxi, hlt⟩⟩
    classical
    have hlatest := Nat.findGreatest_spec (P := fun i => IsOpen c l m p i j) (Nat.le_of_lt hi) hopen
    refine hnone ⟨_, j⟩ ((h.matched _).mpr ⟨p, hstop, hlatest, fun i hi => ?_⟩) rfl
    exact Nat.le_findGreatest (Nat.le_of_lt hi.2.1) hi
  · rintro hall x hx rfl
    obtain ⟨q, hstop', ⟨hstart, hlt, hopen⟩, -⟩ := (h.matched x).mp hx
    obtain rfl := hstop.process_eq hstop'
    obtain ⟨y, hy, hystart, hystop⟩ := hall x.start hlt hstart
    exact absurd (hopen y hy hystart) (not_le.mpr hystop)

/-- **There is at most one matching.** -/
lemma unique (h' : IsMatching c l m') : m' = m := by
  have hsame : ∀ n x, x.stop = n → (x ∈ m' ↔ x ∈ m) := by
    intro n
    induction n using Nat.strongRecOn with
    | ind n ih =>
      -- What is open at a stop is decided by the earlier ones.
      have hopen : ∀ p i, IsOpen c l m' p i n ↔ IsOpen c l m p i n := by
        intro p i
        refine and_congr_right fun _ => and_congr_right fun _ => ?_
        refine forall_congr' fun x => ?_
        by_cases hx : x.stop < n
        · rw [ih x.stop hx x rfl]
        · exact iff_of_true (fun _ _ => not_lt.mp hx) fun _ _ => not_lt.mp hx
      rintro x rfl
      simp only [h'.matched, h.matched, hopen]
  refine h'.inOrder.eq_of_mem_iff h.inOrder fun x => hsame x.stop x rfl

end IsMatching

/-! ## One more sample -/

/-- What is open at a place does not depend on what comes later. -/
lemma isOpen_append {more : List Match} (hmore : ∀ x ∈ more, x.stop = l.length)
    (hj : j ≤ l.length) : IsOpen c (l ++ [s]) (m ++ more) p i j ↔ IsOpen c l m p i j := by
  constructor
  · rintro ⟨hstart, hlt, hall⟩
    exact ⟨(sampledAt_append (hlt.trans_le hj)).mp hstart, hlt,
      fun x hx => hall x (List.mem_append_left _ hx)⟩
  · rintro ⟨hstart, hlt, hall⟩
    refine ⟨(sampledAt_append (hlt.trans_le hj)).mpr hstart, hlt, fun x hx hxi => ?_⟩
    rcases List.mem_append.mp hx with hx | hx
    · exact hall x hx hxi
    · exact hj.trans_eq (hmore x hx).symm

/-- A sample is matched with the latest start that is open at the end, if it is a stop and there is
such a start. -/
lemma IsMatching.extend (h : IsMatching c l m) {more : List Match}
    (inOrder : more.Pairwise fun x y => x.stop < y.stop)
    (hmore : ∀ x, x ∈ more ↔ x.stop = l.length ∧ s.probe = c.stopProbe ∧
      IsOpen c l m s.process x.start l.length ∧
      ∀ i, IsOpen c l m s.process i l.length → i ≤ x.start) :
    IsMatching c (l ++ [s]) (m ++ more) := by
  have hstops : ∀ x ∈ more, x.stop = l.length := fun x hx => ((hmore x).mp hx).1
  refine ⟨List.pairwise_append.mpr ⟨h.inOrder, inOrder, fun x hx y hy => ?_⟩, fun x => ?_⟩
  · rw [hstops y hy]
    exact h.stop_lt hx
  rcases lt_trichotomy x.stop l.length with hlt | heq | hgt
  · have hnot : x ∉ more := fun hx => hlt.ne (hstops x hx)
    simp only [List.mem_append, hnot, or_false, h.matched, sampledAt_append hlt,
      isOpen_append hstops hlt.le]
  · have hnot : x ∉ m := fun hx => (h.stop_lt hx).ne heq
    simp only [List.mem_append, hnot, false_or, hmore, heq, sampledAt_last,
      isOpen_append hstops (le_refl l.length), true_and]
    constructor
    · rintro ⟨hprobe, hopen, hall⟩
      exact ⟨s.process, ⟨hprobe, rfl⟩, hopen, hall⟩
    · rintro ⟨_, ⟨hprobe, rfl⟩, hopen, hall⟩
      exact ⟨hprobe, hopen, hall⟩
  · refine iff_of_false (fun hx => ?_) ?_
    · rcases List.mem_append.mp hx with hx | hx
      · exact absurd (h.stop_lt hx) hgt.not_gt
      · exact hgt.ne' (hstops x hx)
    · rintro ⟨p, hstop, -⟩
      have hlast := hstop.lt
      rw [List.length_append, List.length_singleton] at hlast
      exact absurd hgt (Nat.lt_succ_iff.mp hlast).not_gt

/-- What is open after one more sample: the sample itself, if it is a start, and what was open before
and has not been matched with it. -/
lemma IsMatching.isOpen_end (h : IsMatching c l m) (more : List Match)
    (hmore : ∀ x ∈ more, x.stop = l.length ∧ x.start < l.length) :
    IsOpen c (l ++ [s]) (m ++ more) p i (l ++ [s]).length ↔
      (IsOpen c l m p i l.length ∧ ∀ x ∈ more, x.start ≠ i) ∨
        i = l.length ∧ s.probe = c.startProbe ∧ s.process = p := by
  have hlength : (l ++ [s]).length = l.length + 1 := List.length_append
  rw [hlength]
  rcases lt_trichotomy i l.length with hlt | rfl | hgt
  · have hbefore : i < l.length + 1 := hlt.trans (Nat.lt_succ_self _)
    simp only [IsOpen, sampledAt_append hlt, List.mem_append, hlt, hlt.ne, hbefore, false_and,
      or_false, true_and]
    constructor
    · rintro ⟨hstart, hall⟩
      refine ⟨⟨hstart, fun x hx hxi => ?_⟩, fun x hx hxi => ?_⟩
      · exact Nat.le_of_succ_le (hall x (.inl hx) hxi)
      · exact absurd (hall x (.inr hx) hxi) (by rw [(hmore x hx).1]; exact Nat.not_succ_le_self _)
    · rintro ⟨⟨hstart, hall⟩, hother⟩
      refine ⟨hstart, fun x hx hxi => ?_⟩
      rcases hx with hx | hx
      · exact absurd (hall x hx hxi) (not_le.mpr (h.stop_lt hx))
      · exact absurd hxi (hother x hx)
  · have hnot : ¬ IsOpen c l m p l.length l.length := fun hopen => lt_irrefl _ hopen.2.1
    simp only [hnot, false_and, false_or, true_and]
    rw [IsOpen, sampledAt_last]
    refine and_iff_left ⟨Nat.lt_succ_self _, fun x hx hxi => ?_⟩
    rcases List.mem_append.mp hx with hx | hx
    · exact absurd hxi ((h.start_lt hx).trans (h.stop_lt hx)).ne
    · exact absurd hxi (hmore x hx).2.ne
  · refine iff_of_false (fun hopen => ?_) ?_
    · exact absurd hopen.2.1 (not_lt.mpr hgt)
    · rintro (⟨hopen, -⟩ | ⟨heq, -⟩)
      · exact absurd hopen.2.1 hgt.not_gt
      · exact hgt.ne' heq

/-! ## What a calculator keeps -/

/-- The starts that are open for a process at the end of the samples, by their times, the latest
first. -/
def Keeps (c : Calculator) (l : List (TimeSample Process)) (m : List Match) (p : Process)
    (times : List SimTime) : Prop :=
  ∃ places : List Nat, places.Pairwise (· > ·) ∧ (∀ i, i ∈ places ↔ IsOpen c l m p i l.length) ∧
    times.map some = places.map fun i => (l[i]?).map (·.time)

variable {time : SimTime} {times : List SimTime}

lemma times_append {places : List Nat} (h : ∀ i ∈ places, i < l.length) :
    (places.map fun i => ((l ++ [s])[i]?).map (·.time)) =
      places.map fun i => (l[i]?).map (·.time) := by
  refine List.map_congr_left fun i hi => ?_
  rw [List.getElem?_append_left (h i hi)]

namespace Keeps

lemma none_open (hk : Keeps c l m p []) (i : Nat) : ¬ IsOpen c l m p i l.length := by
  obtain ⟨places, -, hplaces, htimes⟩ := hk
  have hnil : places = [] := List.map_eq_nil_iff.mp htimes.symm
  rw [← hplaces, hnil]
  exact List.not_mem_nil

variable (h : IsMatching c l m)

include h

/-- A sample leaves the starts of a process alone, unless it is a start or takes one of them. -/
lemma stays (hk : Keeps c l m p times) (more : List Match)
    (hmore : ∀ x ∈ more, x.stop = l.length ∧ x.start < l.length)
    (hstart : ¬ (s.probe = c.startProbe ∧ s.process = p))
    (hother : ∀ x ∈ more, ¬ IsOpen c l m p x.start l.length) :
    Keeps c (l ++ [s]) (m ++ more) p times := by
  obtain ⟨places, horder, hplaces, htimes⟩ := hk
  refine ⟨places, horder, fun i => ?_, ?_⟩
  · rw [h.isOpen_end _ hmore, hplaces]
    constructor
    · exact fun hopen => .inl ⟨hopen, fun x hx hxi => hother x hx (hxi ▸ hopen)⟩
    · rintro (⟨hopen, -⟩ | ⟨-, hself⟩)
      · exact hopen
      · exact absurd hself hstart
  · rw [htimes, times_append fun i hi => ((hplaces i).mp hi).2.1]

/-- A start is put on top. -/
lemma starts (hk : Keeps c l m p times) (hprobe : s.probe = c.startProbe) (hself : s.process = p) :
    Keeps c (l ++ [s]) m p (s.time :: times) := by
  obtain ⟨places, horder, hplaces, htimes⟩ := hk
  have hlt : ∀ i ∈ places, i < l.length := fun i hi => ((hplaces i).mp hi).2.1
  refine ⟨l.length :: places, List.pairwise_cons.mpr ⟨hlt, horder⟩, fun i => ?_, ?_⟩
  · have hend := h.isOpen_end (s := s) (p := p) (i := i) [] fun _ hx => nomatch hx
    rw [List.append_nil] at hend
    rw [hend, List.mem_cons, hplaces]
    constructor
    · rintro (heq | hopen)
      · exact .inr ⟨heq, hprobe, hself⟩
      · exact .inl ⟨hopen, fun _ hx => nomatch hx⟩
    · rintro (⟨hopen, -⟩ | ⟨heq, -⟩)
      · exact .inr hopen
      · exact .inl heq
  · rw [List.map_cons, List.map_cons, htimes, times_append hlt, List.getElem?_concat_length,
      Option.map_some]

/-- The start on top is the latest one that is open, and can be taken. -/
lemma latest (hk : Keeps c l m p (time :: times)) :
    ∃ i, IsOpen c l m p i l.length ∧ (∀ i', IsOpen c l m p i' l.length → i' ≤ i) ∧
      (l[i]?).map (·.time) = some time ∧
      ∀ s, ¬ (s.probe = c.startProbe ∧ s.process = p) →
        Keeps c (l ++ [s]) (m ++ [⟨i, l.length⟩]) p times := by
  obtain ⟨_ | ⟨i, places⟩, horder, hplaces, htimes⟩ := hk
  · cases htimes
  rw [List.map_cons, List.map_cons, List.cons.injEq] at htimes
  obtain ⟨hfirst, horder⟩ := List.pairwise_cons.mp horder
  have hopen : IsOpen c l m p i l.length := (hplaces i).mp List.mem_cons_self
  have hmore : ∀ x ∈ [(⟨i, l.length⟩ : Match)], x.stop = l.length ∧ x.start < l.length :=
    fun x hx => by rw [List.mem_singleton.mp hx]; exact ⟨rfl, hopen.2.1⟩
  refine ⟨i, hopen, fun i' hi' => ?_, htimes.1.symm, fun s hstart => ⟨places, horder, fun i' => ?_, ?_⟩⟩
  · rcases List.mem_cons.mp ((hplaces i').mpr hi') with rfl | hi'
    · exact le_refl _
    · exact (hfirst i' hi').le
  · rw [h.isOpen_end _ hmore, ← hplaces]
    constructor
    · intro hi'
      refine .inl ⟨List.mem_cons_of_mem _ hi', fun x hx hxi => ?_⟩
      rw [List.mem_singleton.mp hx] at hxi
      exact (hfirst i' hi').ne' hxi
    · rintro (⟨hi', hnot⟩ | ⟨-, hself⟩)
      · rcases List.mem_cons.mp hi' with rfl | hi'
        · exact absurd rfl (hnot ⟨i', l.length⟩ List.mem_cons_self)
        · exact hi'
      · exact absurd hself hstart
  · rw [htimes.2, times_append fun i' hi' => ((hplaces i').mp (List.mem_cons_of_mem _ hi')).2.1]

end Keeps

end Matchings

/-! ## Following a calculator -/

/-- What a calculator has paired and what it keeps, compared with a matching. -/
structure Follows (r : Recorder Process) (c : Calculator) (m : List Match) : Prop where
  matching : IsMatching c r.samples m
  paired : (r.paired c).map some = m.map (·.measurement? c r.samples)
  keeps : ∀ p, Keeps c r.samples m p (r.openStarts c p)

variable {c : Calculator} {r : Recorder Process} {m : List Match} {s : TimeSample Process}

/-- A stop without a start that is open does nothing. -/
lemma taking_unopened (hdiffers : c.stopProbe ≠ c.startProbe) (hstop : s.probe = c.stopProbe)
    (hnone : r.openStarts c s.process = []) :
    (r.taking s).paired c = r.paired c ∧
      ∀ p, (r.taking s).openStarts c p = r.openStarts c p := by
  have hstart : s.probe ≠ c.startProbe := fun h => hdiffers (hstop.symm.trans h)
  have happend := pairs_append (c := c) r.samples [s] []
  rw [pairs, stillOpen, if_neg hstart, if_neg hstart, if_pos hstop, if_pos hstop,
    takeOpen_none hnone, ← samples_taking] at happend
  refine ⟨happend.1.trans (List.append_nil _), fun p => ?_⟩
  rw [openStarts, happend.2, stillOpen, openStarts]

omit [DecidableEq Process] in
lemma IsMatching.measurements_append (h : IsMatching c r.samples m) (s : TimeSample Process) :
    m.map (·.measurement? c (r.taking s).samples) = m.map (·.measurement? c r.samples) := by
  refine List.map_congr_left fun x hx => ?_
  have hstop := h.stop_lt hx
  rw [Match.measurement?, Match.measurement?, samples_taking, List.getElem?_append_left hstop,
    List.getElem?_append_left ((h.start_lt hx).trans hstop)]

/-- A sample that matches nothing. -/
lemma Follows.passes (h : Follows r c m) (hpaired : (r.taking s).paired c = r.paired c)
    (hnone : s.probe = c.stopProbe → ∀ i, ¬ IsOpen c r.samples m s.process i r.samples.length)
    (keeps : ∀ p, Keeps c (r.samples ++ [s]) m p ((r.taking s).openStarts c p)) :
    Follows (r.taking s) c m := by
  refine ⟨?_, ?_, fun p => ?_⟩
  · rw [samples_taking, ← List.append_nil m]
    refine h.matching.extend .nil fun x => iff_of_false List.not_mem_nil ?_
    rintro ⟨-, hprobe, hopen, -⟩
    exact hnone hprobe _ hopen
  · rw [hpaired, h.paired, h.matching.measurements_append]
  · rw [samples_taking]
    exact keeps p

/-- **One more sample keeps a calculator at its matching.** -/
lemma Follows.taking (differs : c.startProbe ≠ c.stopProbe) (h : Follows r c m)
    (s : TimeSample Process) : ∃ m', Follows (r.taking s) c m' := by
  by_cases hstart : s.probe = c.startProbe
  · have hnot : s.probe ≠ c.stopProbe := fun hstop => differs (hstart.symm.trans hstop)
    obtain ⟨hpaired, hopen⟩ := taking_start (r := r) hstart
    refine ⟨m, h.passes hpaired (fun hstop => absurd hstop hnot) fun p => ?_⟩
    rw [hopen]
    split_ifs with hself
    · exact (h.keeps p).starts h.matching hstart hself.symm
    · have hstays := (h.keeps p).stays (s := s) h.matching [] (fun _ hx => nomatch hx)
        (fun hp => hself hp.2.symm) fun _ hx => nomatch hx
      rwa [List.append_nil] at hstays
  have hother : ∀ p, ¬ (s.probe = c.startProbe ∧ s.process = p) := fun _ hp => hstart hp.1
  have hkept : ∀ p, Keeps c (r.samples ++ [s]) m p (r.openStarts c p) := by
    intro p
    have hstays := (h.keeps p).stays h.matching [] (fun _ hx => nomatch hx) (hother p)
      fun _ hx => nomatch hx
    rwa [List.append_nil] at hstays
  by_cases hstop : s.probe = c.stopProbe
  swap
  · obtain ⟨hpaired, hopen⟩ := taking_other (r := r) hstart hstop
    exact ⟨m, h.passes hpaired (fun hprobe => absurd hprobe hstop) fun p => hopen p ▸ hkept p⟩
  cases htimes : r.openStarts c s.process with
  | nil =>
    obtain ⟨hpaired, hopen⟩ := taking_unopened (Ne.symm differs) hstop htimes
    have hnone := (htimes ▸ h.keeps s.process).none_open
    exact ⟨m, h.passes hpaired (fun _ => hnone) fun p => hopen p ▸ hkept p⟩
  | cons time times =>
    obtain ⟨hpaired, hopen⟩ := taking_stop (Ne.symm differs) hstop htimes
    obtain ⟨i, hi, hlatest, htime, htaken⟩ := (htimes ▸ h.keeps s.process).latest h.matching
    have hmore : ∀ x ∈ [(⟨i, r.samples.length⟩ : Match)],
        x.stop = r.samples.length ∧ x.start < r.samples.length :=
      fun x hx => by rw [List.mem_singleton.mp hx]; exact ⟨rfl, hi.2.1⟩
    refine ⟨m ++ [⟨i, r.samples.length⟩], ?_, ?_, fun p => ?_⟩
    · rw [samples_taking]
      refine h.matching.extend (List.pairwise_singleton _ _) fun x => ?_
      rw [List.mem_singleton]
      constructor
      · rintro rfl
        exact ⟨rfl, hstop, hi, hlatest⟩
      · rintro ⟨hlast, -, hx, hall⟩
        cases x
        rw [Match.mk.injEq]
        exact ⟨Nat.le_antisymm (hlatest _ hx) (hall i hi), hlast⟩
    · obtain ⟨start, hsample, hstarted⟩ := Option.map_eq_some_iff.mp htime
      rw [hpaired, List.map_append, h.paired, List.map_append, h.matching.measurements_append,
        List.map_singleton, List.map_singleton, Match.measurement?, samples_taking,
        List.getElem?_append_left hi.2.1, hsample, List.getElem?_concat_length, ← hstarted]
    · rw [samples_taking, hopen]
      split_ifs with hself
      · exact hself ▸ htaken s (hother _)
      · refine (h.keeps p).stays h.matching _ hmore (hother p) fun x hx hx' => ?_
        rw [List.mem_singleton.mp hx] at hx'
        exact hself (hx'.1.process_eq hi.1)

/-- A calculator measures a matching of the samples. -/
theorem exists_matched (differs : c.startProbe ≠ c.stopProbe) (r : Recorder Process) :
    ∃ m, Follows r c m := by
  obtain ⟨calculators, taken⟩ := r
  induction taken with
  | nil =>
    refine ⟨[], ⟨.nil, fun x => iff_of_false List.not_mem_nil ?_⟩, rfl,
      fun p => ⟨[], .nil, fun i => iff_of_false List.not_mem_nil ?_, rfl⟩⟩
    · rintro ⟨p, hstop, -⟩
      exact absurd hstop.lt (Nat.not_lt_zero _)
    · rintro ⟨hstart, -⟩
      exact absurd hstart.lt (Nat.not_lt_zero _)
  | cons s taken ih =>
    obtain ⟨m, hm⟩ := ih
    exact hm.taking differs s

/-! ## One process among others -/

/-- The samples of a process that a calculator uses. -/
def concerning (c : Calculator) (p : Process) (l : List (TimeSample Process)) :
    List (TimeSample Process) :=
  l.filter fun s => s.process = p ∧ (s.probe = c.startProbe ∨ s.probe = c.stopProbe)

lemma concerning_own {p : Process} (hself : s.process = p)
    (hprobe : s.probe = c.startProbe ∨ s.probe = c.stopProbe) (l : List (TimeSample Process)) :
    concerning c p (s :: l) = s :: concerning c p l :=
  List.filter_cons_of_pos (decide_eq_true ⟨hself, hprobe⟩)

lemma concerning_other {p : Process}
    (h : ¬ (s.process = p ∧ (s.probe = c.startProbe ∨ s.probe = c.stopProbe)))
    (l : List (TimeSample Process)) : concerning c p (s :: l) = concerning c p l :=
  List.filter_cons_of_neg (by rwa [decide_eq_true_iff])

/-- **A process is measured as if there were no others** and no other probes.  The starts that are open
may differ in those of other processes. -/
lemma pairs_filter (c : Calculator) (p : Process) (l : List (TimeSample Process))
    {starts starts' : List (Process × SimTime)} (h : startsOf p starts = startsOf p starts') :
    (pairs c l starts).filter (·.process = p) = pairs c (concerning c p l) starts' := by
  induction l generalizing starts starts' with
  | nil => rfl
  | cons s rest ih =>
    by_cases hself : s.process = p
    swap
    · rw [concerning_other fun hs => hself hs.1, pairs]
      split_ifs
      · refine ih ?_
        rw [startsOf_cons, if_neg hself, h]
      · cases htimes : startsOf s.process starts with
        | nil =>
          rw [takeOpen_none htimes]
          exact ih h
        | cons time times =>
          obtain ⟨others, htake, hothers⟩ := takeOpen_some htimes
          rw [htake]
          dsimp only
          refine (List.filter_cons_of_neg ?_).trans (ih ?_)
          · rwa [decide_eq_true_iff]
          · rw [hothers, if_neg (Ne.symm hself), h]
      · exact ih h
    subst hself
    by_cases hstart : s.probe = c.startProbe
    · rw [concerning_own rfl (.inl hstart), pairs, pairs, if_pos hstart, if_pos hstart]
      refine ih ?_
      rw [startsOf_cons, startsOf_cons, if_pos rfl, if_pos rfl, h]
    by_cases hstop : s.probe = c.stopProbe
    · rw [concerning_own rfl (.inr hstop), pairs, pairs, if_neg hstart, if_neg hstart, if_pos hstop,
        if_pos hstop]
      cases htimes : startsOf s.process starts with
      | nil =>
        rw [takeOpen_none htimes, takeOpen_none (h.symm.trans htimes)]
        exact ih h
      | cons time times =>
        obtain ⟨others, htake, hothers⟩ := takeOpen_some htimes
        obtain ⟨others', htake', hothers'⟩ := takeOpen_some (h.symm.trans htimes)
        rw [htake, htake']
        dsimp only
        refine (List.filter_cons_of_pos ?_).trans (congrArg _ (ih ?_))
        · exact decide_eq_true rfl
        · rw [hothers, hothers', if_pos rfl, if_pos rfl]
    · rw [concerning_other fun hs => hs.2.elim hstart hstop, pairs, if_neg hstart, if_neg hstop]
      exact ih h

/-! ## All calculators of a recorder -/

/-- What can become of a recorder: calculators are registered and samples are taken, at any time, as
far as it accepts them. -/
inductive Recorded : Recorder Process → Prop where
  | empty : Recorded .empty
  | registers {r : Recorder Process} (c : Calculator) : Recorded r → Recorded (r.registering c)
  | takes {r : Recorder Process} (s : TimeSample Process) : Recorded r → Recorded (r.sampling s)

omit [DecidableEq Process] in
/-- Calculators are kept in the order of their names. -/
lemma Recorded.byName (h : Recorded r) :
    NameMap.Ascending r.calculators ∧ ∀ e ∈ r.calculators, e.1 = e.2.name := by
  induction h with
  | empty => exact ⟨.nil, fun e he => absurd he List.not_mem_nil⟩
  | @registers r c _ ih =>
    by_cases hknown : c.name ∈ r.calculators.map Prod.fst
    · rwa [registering_known hknown]
    · rw [registering_inserts hknown]
      refine ⟨ih.1.insert c.name c, fun e he => ?_⟩
      rcases NameMap.eq_or_mem_of_mem_insert he with rfl | he
      · rfl
      · exact ih.2 e he
  | takes s _ ih => rwa [sampling_calculators]

/-- **What a recorder measures**, by matchings of its samples for its calculators. -/
structure MeasuresMatched (r : Recorder Process) (matching : Calculator → List Match) : Prop where
  /-- The response times are those of the matched samples, of one calculator after another, and in the
  order of the stops. -/
  measured : r.responseTimes.map some =
    r.calculators.flatMap fun e => (matching e.2).map (·.measurement? e.2 r.samples)
  /-- The calculators come in the order of their names. -/
  byName : r.calculators.Pairwise fun e e' => e.2.name < e'.2.name
  /-- A stop is matched with the latest start of its process before it that no earlier stop is matched
  with, -/
  latest : ∀ e ∈ r.calculators, IsMatching e.2 r.samples (matching e.2)
  /-- which leaves no choice. -/
  only : ∀ e ∈ r.calculators, ∀ m, IsMatching e.2 r.samples m → m = matching e.2
  /-- No sample is used twice. -/
  once : ∀ e ∈ r.calculators,
    ((matching e.2).map Match.start).Nodup ∧ ((matching e.2).map Match.stop).Nodup
  /-- A stop is not matched if and only if every earlier start of its process is matched already. -/
  unmatched : ∀ e ∈ r.calculators, ∀ p j, SampledAt r.samples e.2.stopProbe p j →
    ((∀ x ∈ matching e.2, x.stop ≠ j) ↔ ∀ i < j, SampledAt r.samples e.2.startProbe p i →
      ∃ x ∈ matching e.2, x.start = i ∧ x.stop < j)
  /-- What is measured of a process depends on its own samples of the two probes alone. -/
  separate : ∀ e ∈ r.calculators, ∀ p,
    (r.paired e.2).filter (·.process = p) = pairs e.2 (concerning e.2 p r.samples) []

/-- **Samples are matched like brackets.**  Whatever calculators are registered and whatever samples of
whatever processes are kept, the response times are those of each stop and the latest start of its
process that is still open there. -/
theorem samples_match_like_brackets (recorded : Recorded r)
    (differ : ∀ e ∈ r.calculators, e.2.startProbe ≠ e.2.stopProbe) :
    ∃ matching, MeasuresMatched r matching := by
  have hmatched : ∀ c : Calculator, ∃ m, c.startProbe ≠ c.stopProbe → Follows r c m := by
    intro c
    by_cases hc : c.startProbe = c.stopProbe
    · exact ⟨[], fun hnot => absurd hc hnot⟩
    · obtain ⟨m, hm⟩ := exists_matched hc r
      exact ⟨m, fun _ => hm⟩
  obtain ⟨matching, hmatching⟩ := Classical.axiomOfChoice hmatched
  have hfollows : ∀ e ∈ r.calculators, Follows r e.2 (matching e.2) :=
    fun e he => hmatching e.2 (differ e he)
  obtain ⟨hascending, hnames⟩ := recorded.byName
  refine ⟨matching, ?_, ?_, fun e he => (hfollows e he).matching,
    fun e he m hm => (hfollows e he).matching.unique hm,
    fun e he => ⟨(hfollows e he).matching.starts_nodup, (hfollows e he).matching.stops_nodup⟩,
    fun e he p j hstop => (hfollows e he).matching.unmatched_iff hstop,
    fun e _ p => pairs_filter e.2 p r.samples rfl⟩
  · rw [responseTimes, List.map_flatMap]
    exact List.flatMap_congr fun e he => (hfollows e he).paired
  · refine hascending.imp_of_mem fun he he' hlt => ?_
    rwa [hnames _ he, hnames _ he'] at hlt

/-- Two processes whose calls interleave, with calls within a call, a stop too many at either end and a
start that is never stopped. -/
theorem samples_match_like_brackets_interleaved :
    ∃ r : Recorder Nat, Recorded r ∧
      (∀ e ∈ r.calculators, e.2.startProbe ≠ e.2.stopProbe) ∧
      r.samples.length = 9 ∧
      (r.responseTimes.map fun x => (x.process, x.start, x.stop)) =
        [(0, .ofSeconds 3, .ofSeconds 4), (1, .ofSeconds 2, .ofSeconds 5),
          (0, .ofSeconds 1, .ofSeconds 6)] ∧
      ∃ matching, MeasuresMatched r matching := by
  let c : Calculator := ⟨"call", "start", "stop", "action", .responseTime⟩
  let samples : List (TimeSample Nat) := [
    ⟨"stop", "", 0, .ofSeconds 0⟩, ⟨"start", "", 0, .ofSeconds 1⟩, ⟨"start", "", 1, .ofSeconds 2⟩,
    ⟨"start", "", 0, .ofSeconds 3⟩, ⟨"stop", "", 0, .ofSeconds 4⟩, ⟨"stop", "", 1, .ofSeconds 5⟩,
    ⟨"stop", "", 0, .ofSeconds 6⟩, ⟨"stop", "", 0, .ofSeconds 7⟩, ⟨"start", "", 1, .ofSeconds 8⟩]
  let r : Recorder Nat := samples.foldl sampling (empty.registering c)
  have hrecorded : ∀ (l : List (TimeSample Nat)) (r : Recorder Nat), Recorded r →
      Recorded (l.foldl sampling r) := by
    intro l
    induction l with
    | nil => exact fun r hr => hr
    | cons s l ih => exact fun r hr => ih _ (hr.takes s)
  have recorded : Recorded r := hrecorded samples _ (Recorded.empty.registers c)
  have differ : ∀ e ∈ r.calculators, e.2.startProbe ≠ e.2.stopProbe := by decide +kernel
  exact ⟨r, recorded, differ, by decide +kernel, by decide +kernel,
    samples_match_like_brackets recorded differ⟩

end Recorder

end ServiceSim
