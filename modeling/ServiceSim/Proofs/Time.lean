import ServiceSim.Proofs.Number
import ServiceSim.Time
import Mathlib.Order.Defs.LinearOrder
import Mathlib.Order.MinMax
import Mathlib.Order.Lattice

/-!
# The order of times

Times are totally ordered by their encodings, so the later of two times is their maximum.  A delay
never leads back: the time at which it is over, `SimTime.passing`, is the later of its beginning and
its end.  A process that waits from the start of a simulation until a time reaches exactly that time,
although the wait is the difference of two doubles and its end their sum.
-/

namespace ServiceSim.SimTime

lemma le_def (s t : SimTime) : s ≤ t ↔ s.rank ≤ t.rank := Iff.rfl

lemma lt_def (s t : SimTime) : s < t ↔ s.rank < t.rank := Iff.rfl

/-- Times with the same place are the same. -/
lemma rank_inj {s t : SimTime} (h : s.rank = t.rank) : s = t := by
  cases s
  cases t
  exact congrArg SimTime.mk (Binary64.rank_injective h)

instance : LinearOrder SimTime where
  le := (· ≤ ·)
  lt := (· < ·)
  le_refl t := Int.le_refl t.rank
  le_trans _ _ _ := Int.le_trans
  lt_iff_le_not_ge s t := by
    rw [lt_def, le_def, le_def]
    omega
  le_antisymm _ _ hst hts := rank_inj (Int.le_antisymm hst hts)
  le_total s t := Int.le_total s.rank t.rank
  toDecidableLE := inferInstance
  toDecidableLT := inferInstance

/-- The later of two times is their maximum. -/
lemma later_eq_max (s t : SimTime) : s.later t = max s t := by
  unfold later
  split_ifs with h
  · exact (max_eq_left (le_of_lt h)).symm
  · exact (max_eq_right (not_lt.mp h)).symm

lemma le_later_left (s t : SimTime) : s ≤ s.later t := by
  rw [later_eq_max]
  exact le_max_left s t

lemma le_later_right (s t : SimTime) : t ≤ s.later t := by
  rw [later_eq_max]
  exact le_max_right s t

lemma later_eq_left {s t : SimTime} (h : t ≤ s) : s.later t = s := by
  rw [later_eq_max]
  exact max_eq_left h

lemma later_eq_right {s t : SimTime} (h : s ≤ t) : s.later t = t := by
  rw [later_eq_max]
  exact max_eq_right h

/-! ## Delays -/

/-- The time at which a delay that begins now has passed.  Time does not run back. -/
def passing (t : SimTime) (delay : Float) : SimTime := t.later (t.after delay)

lemma le_passing (t : SimTime) (delay : Float) : t ≤ t.passing delay := le_later_left t _

/-- A wait that begins at the start of a simulation is over at the time it was meant for. -/
lemma zero_passing_since {t : SimTime} (nan : t.seconds.isNaN = false) (h : zero ≤ t) :
    zero.passing (t.since zero) = t := by
  have hsince : t.since zero = t.seconds := Binary64.sub_zero t.seconds
  rcases eq_or_lt_of_le h with rfl | hpos
  · rfl
  · have hseconds : 0 < t.seconds := Binary64.ofBits_pos t.encoding nan hpos
    have hafter : zero.after t.seconds = t := by
      unfold after
      rw [if_pos hseconds]
      change ofSeconds (0 + t.seconds) = t
      rw [Binary64.zero_add_of_pos t.seconds hseconds]
      exact congrArg SimTime.mk (Binary64.toBits_ofBits t.encoding nan)
    unfold passing
    rw [hsince, hafter, later_eq_right h]

/-- A time that is moved to the start of a simulation, if it lies before it. -/
lemma later_zero_spec {t : SimTime} (nan : t.seconds.isNaN = false) :
    (t.later zero).seconds.isNaN = false ∧ zero ≤ t.later zero := by
  refine ⟨?_, le_later_right t zero⟩
  rw [later]
  split_ifs
  · exact nan
  · decide +kernel

end ServiceSim.SimTime
