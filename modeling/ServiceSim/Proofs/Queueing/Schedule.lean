import ServiceSim.NameMap
import ServiceSim.Proofs.Time
import Mathlib.Data.List.Sort
import Mathlib.Data.List.Perm.Basic

/-!
# Schedules of a queue

Jobs come to a queue with several servers.  They are taken in the order of their arrivals, and where
these are equal in the order of their numbers.  Each of them gets the server that becomes free first
and starts as soon as both the job and the server are there.

So a schedule needs to keep no more than the times at which the servers become free, one for each of
them.  At the start all of them are free.
-/

namespace ServiceSim

/-- A job of a queue. -/
structure Job where
  /-- When it arrives. -/
  arrival : SimTime
  /-- The seconds that it takes. -/
  service : Float

namespace Job

/-- The earliest of the times at which servers become free. -/
def earliest (free : List SimTime) : SimTime := free.min?.getD .zero

variable (job : Job) (free : List SimTime)

/-- When a job starts. -/
def starts : SimTime := job.arrival.later (earliest free)

/-- When a job is completed. -/
def ends : SimTime := (job.starts free).later ((job.starts free).after job.service)

/-- The times at which servers become free when one of them has been given to a job. -/
def occupies : List SimTime := job.ends free :: free.erase (earliest free)

end Job

namespace Schedule

/-- A job comes no later than another one, each of them with its number. -/
def NoLater (x y : Job × Nat) : Prop :=
  x.1.arrival < y.1.arrival ∨ x.1.arrival = y.1.arrival ∧ x.2 ≤ y.2

instance (x y : Job × Nat) : Decidable (NoLater x y) :=
  inferInstanceAs (Decidable (_ ∨ _))

/-- Jobs with their numbers, in the order in which they are taken. -/
def inTurn (jobs : List Job) : List (Job × Nat) := jobs.zipIdx.insertionSort NoLater

/-- The completions of jobs that are taken one after the other. -/
def completionsFrom : List SimTime → List (Job × Nat) → List (Nat × SimTime)
  | _, [] => []
  | free, (job, n) :: rest => (n, job.ends free) :: completionsFrom (job.occupies free) rest

/-- The completions of all jobs, by their numbers. -/
def completions (servers : Nat) (jobs : List Job) : List (Nat × SimTime) :=
  completionsFrom (List.replicate servers .zero) (inTurn jobs)

/-- The times at which servers become free when jobs have been taken. -/
def occupied (free : List SimTime) (jobs : List (Job × Nat)) : List SimTime :=
  jobs.foldl (fun free x => x.1.occupies free) free

/-! ## The order of jobs -/

instance : Std.Total NoLater where
  total x y := by
    rcases lt_trichotomy x.1.arrival y.1.arrival with hlt | heq | hlt
    · exact .inl (.inl hlt)
    · exact (Nat.le_total x.2 y.2).imp (fun h => .inr ⟨heq, h⟩) fun h => .inr ⟨heq.symm, h⟩
    · exact .inr (.inl hlt)

instance : IsTrans (Job × Nat) NoLater where
  trans x y z := by
    rintro (hxy | ⟨hxy, hn⟩) (hyz | ⟨hyz, hm⟩)
    · exact .inl (hxy.trans hyz)
    · exact .inl (hxy.trans_eq hyz)
    · exact .inl (hxy.trans_lt hyz)
    · exact .inr ⟨hxy.trans hyz, hn.trans hm⟩

lemma inTurn_sorted (jobs : List Job) : (inTurn jobs).Pairwise NoLater :=
  List.pairwise_insertionSort NoLater jobs.zipIdx

/-- Every number is taken once. -/
lemma inTurn_numbers (jobs : List Job) :
    ((inTurn jobs).map Prod.snd).Perm (List.range jobs.length) := by
  have hperm := (List.perm_insertionSort NoLater jobs.zipIdx).map Prod.snd
  rw [List.zipIdx_map_snd, ← List.range_eq_range'] at hperm
  exact hperm

lemma mem_inTurn {jobs : List Job} {x : Job × Nat} (h : x ∈ inTurn jobs) :
    jobs[x.2]? = some x.1 :=
  List.mem_zipIdx_iff_getElem?.mp ((List.mem_insertionSort NoLater).mp h)

/-- A job that is not preceded by any other is the first. -/
lemma eq_cons_of_first {jobs : List (Job × Nat)} (sorted : jobs.Pairwise NoLater)
    (distinct : (jobs.map Prod.snd).Nodup) {x : Job × Nat} (hx : x ∈ jobs)
    (first : ∀ y ∈ jobs, y.2 ≠ x.2 → ¬ NoLater y x) : ∃ rest, jobs = x :: rest := by
  cases jobs with
  | nil => cases hx
  | cons y rest =>
    rcases List.mem_cons.mp hx with rfl | hx
    · exact ⟨rest, rfl⟩
    · rw [List.map_cons, List.nodup_cons] at distinct
      have hne : y.2 ≠ x.2 := fun heq => distinct.1 (heq ▸ List.mem_map_of_mem hx)
      exact absurd ((List.pairwise_cons.mp sorted).1 x hx) (first y List.mem_cons_self hne)

/-! ## Taking one job after the other -/

lemma completionsFrom_append (free : List SimTime) (jobs later : List (Job × Nat)) :
    completionsFrom free (jobs ++ later) =
      completionsFrom free jobs ++ completionsFrom (occupied free jobs) later := by
  induction jobs generalizing free with
  | nil => rfl
  | cons x rest ih =>
    rw [List.cons_append, completionsFrom, ih]
    rfl

/-- What is scheduled of some jobs stays when more are taken. -/
lemma completionsFrom_subset (free : List SimTime) (jobs later : List (Job × Nat)) :
    completionsFrom free jobs ⊆ completionsFrom free (jobs ++ later) := by
  rw [completionsFrom_append]
  exact List.subset_append_left _ _

lemma occupied_concat (free : List SimTime) (jobs : List (Job × Nat)) (x : Job × Nat) :
    occupied free (jobs ++ [x]) = x.1.occupies (occupied free jobs) :=
  List.foldl_concat _ _ _ _

lemma mem_completionsFrom_concat (free : List SimTime) (jobs : List (Job × Nat)) (x : Job × Nat) :
    (x.2, x.1.ends (occupied free jobs)) ∈ completionsFrom free (jobs ++ [x]) := by
  rw [completionsFrom_append]
  exact List.mem_append_right _ List.mem_cons_self

/-- The schedule has every job once. -/
theorem completions_numbers (servers : Nat) (jobs : List Job) :
    ((completions servers jobs).map Prod.fst).Perm (List.range jobs.length) := by
  have hnumbers : ∀ (l : List (Job × Nat)) (free : List SimTime),
      (completionsFrom free l).map Prod.fst = l.map Prod.snd := by
    intro l
    induction l with
    | nil => exact fun _ => rfl
    | cons x rest ih =>
      intro free
      rw [completionsFrom, List.map_cons, List.map_cons, ih]
  rw [completions, hnumbers]
  exact inTurn_numbers jobs

/-- What is scheduled of a job is found under its number. -/
lemma lookup_completions {servers : Nat} {jobs : List Job} {n : Nat} {time : SimTime}
    (h : (n, time) ∈ completions servers jobs) : (completions servers jobs).lookup n = some time := by
  have hnodup : ((completions servers jobs).map Prod.fst).Nodup :=
    (completions_numbers servers jobs).nodup_iff.mpr List.nodup_range
  cases hlookup : (completions servers jobs).lookup n with
  | none =>
    rw [List.lookup_eq_none_iff] at hlookup
    exact absurd rfl (bne_iff_ne.mp (hlookup _ h))
  | some time' =>
    have hsame := List.inj_on_of_nodup_map hnodup h (NameMap.mem_of_lookup hlookup) rfl
    injection hsame with _ hsame
    rw [hsame]

/-! ## Free servers -/

lemma earliest_mem {free : List SimTime} (some : free ≠ []) : Job.earliest free ∈ free := by
  obtain ⟨t, ht⟩ := List.exists_mem_of_ne_nil free some
  obtain ⟨m, hm⟩ := Option.isSome_iff_exists.mp (List.isSome_min?_of_mem ht)
  rw [Job.earliest, hm]
  exact (List.min?_eq_some_iff.mp hm).1

/-- There are always as many servers. -/
lemma occupied_length {free : List SimTime} (some : free ≠ []) (jobs : List (Job × Nat)) :
    (occupied free jobs).length = free.length := by
  induction jobs generalizing free with
  | nil => rfl
  | cons x rest ih =>
    have hlength : (x.1.occupies free).length = free.length := by
      have hpos := List.length_pos_of_ne_nil some
      rw [Job.occupies, List.length_cons, List.length_erase_of_mem (earliest_mem some)]
      omega
    exact (ih (List.cons_ne_nil _ _)).trans hlength

/-- A job that starts now takes a server that is free now: the earliest of all. -/
lemma occupies_free {free busy idle : List SimTime} {now : SimTime} {job : Job}
    (h : free.Perm (busy ++ idle)) (some : idle ≠ []) (busy_later : ∀ t ∈ busy, now ≤ t)
    (idle_past : ∀ t ∈ idle, t ≤ now) (start : ∀ t ∈ idle, job.arrival.later t = now) :
    job.ends free = now.passing job.service ∧ ∃ rest,
      (job.occupies free).Perm (now.passing job.service :: busy ++ rest) ∧
        ∀ t ∈ rest, t ≤ now := by
  obtain ⟨e, he⟩ := List.exists_mem_of_ne_nil idle some
  obtain ⟨m, hm⟩ := Option.isSome_iff_exists.mp
    (List.isSome_min?_of_mem (h.mem_iff.mpr (List.mem_append_right busy he)))
  obtain ⟨hmem, hleast⟩ := List.min?_eq_some_iff.mp hm
  have hme : m ≤ e := hleast e (h.mem_iff.mpr (List.mem_append_right busy he))
  -- A server that is busy until now is as good as one that is free since now.
  have hidle : m ∈ idle := by
    rcases List.mem_append.mp (h.mem_iff.mp hmem) with hbusy | hidle
    · have hnow := busy_later m hbusy
      have heq : m = e := le_antisymm hme ((idle_past e he).trans hnow)
      exact heq ▸ he
    · exact hidle
  have hearliest : Job.earliest free = m := by rw [Job.earliest, hm, Option.getD_some]
  have hstarts : job.starts free = now := by rw [Job.starts, hearliest, start m hidle]
  have hends : job.ends free = now.passing job.service := by
    rw [Job.ends, hstarts, SimTime.passing]
  refine ⟨hends, idle.erase m, ?_, fun t ht => idle_past t (List.mem_of_mem_erase ht)⟩
  rw [Job.occupies, hends, hearliest, List.cons_append]
  refine List.Perm.cons _ ((h.trans List.perm_append_comm).erase m |>.trans ?_)
  rw [List.erase_append_left _ hidle]
  exact List.perm_append_comm

end Schedule

end ServiceSim
