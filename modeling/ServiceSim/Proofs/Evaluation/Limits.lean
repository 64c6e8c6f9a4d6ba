import Mathlib.Tactic.Lemma
import Mathlib.Tactic.SplitIfs

/-!
# Deeper and deeper evaluations

An evaluation that may not end is cut off at a depth.  The deeper the cut, the more often there is a
result, and a result once there remains.  Such a sequence converges to the result that it reaches,
or to none if it never reaches one (`converges_limit`).

What is computed from converging results converges as well: one result after the other
(`Converges.bind`), also where the first may be an error (`Converges.bindExcept`).
-/

namespace ServiceSim

variable {α β ε : Type}

/-- A result that is there remains. -/
def Remains (xs : Nat → Option α) : Prop :=
  ∀ n a, xs n = some a → xs (n + 1) = some a

/-- Results that remain, and the result that they come to. -/
structure Converges (xs : Nat → Option α) (x : Option α) : Prop where
  remains : Remains xs
  reached : ∀ a, x = some a ↔ ∃ n, xs n = some a

/-- The result that a sequence reaches. -/
noncomputable def limit (xs : Nat → Option α) : Option α :=
  open Classical in if h : ∃ a n, xs n = some a then some h.choose else none

variable {xs : Nat → Option α} {x y : Option α} {n m : Nat} {a b : α}

lemma Remains.le (h : Remains xs) (hle : n ≤ m) (hn : xs n = some a) : xs m = some a := by
  induction hle with
  | refl => exact hn
  | step _ ih => exact h _ a ih

/-- There is only one result. -/
lemma Remains.unique (h : Remains xs) (hn : xs n = some a) (hm : xs m = some b) : a = b :=
  -- At the deeper of the two depths both are there.
  Option.some.inj ((h.le (Nat.le_max_left n m) hn).symm.trans (h.le (Nat.le_max_right n m) hm))

/-- **A sequence whose results remain converges to its limit.** -/
theorem converges_limit (h : Remains xs) : Converges xs (limit xs) := by
  refine ⟨h, fun a => ?_⟩
  rw [limit]
  split_ifs with hreached
  · obtain ⟨n, hn⟩ := hreached.choose_spec
    constructor
    · intro ha
      exact ⟨n, hn.trans ha⟩
    · rintro ⟨m, hm⟩
      exact congrArg some (h.unique hn hm)
  · exact ⟨nofun, fun ⟨n, hn⟩ => absurd ⟨a, n, hn⟩ hreached⟩

namespace Converges

lemma const (x : Option α) : Converges (fun _ => x) x :=
  ⟨fun _ _ h => h, fun _ => ⟨fun h => ⟨0, h⟩, fun ⟨_, h⟩ => h⟩⟩

lemma unique (h : Converges xs x) (h' : Converges xs y) : x = y :=
  Option.ext fun a => (h.reached a).trans (h'.reached a).symm

/-- The first result does not matter. -/
lemma tail (h : Converges xs x) : Converges (fun n => xs (n + 1)) x := by
  refine ⟨fun n => h.remains (n + 1), fun a => (h.reached a).trans ?_⟩
  constructor
  · rintro ⟨n, hn⟩
    exact ⟨n, h.remains n a hn⟩
  · rintro ⟨n, hn⟩
    exact ⟨n + 1, hn⟩

/-- A sequence that changes only once. -/
lemma of_once (remains : ∀ a, xs 0 = some a → xs 1 = some a) (stays : ∀ n, xs (n + 1) = xs 1) :
    Converges xs (xs 1) := by
  have hone : ∀ n a, xs n = some a → xs 1 = some a := by
    intro n a hn
    cases n with
    | zero => exact remains a hn
    | succ n => rwa [stays] at hn
  refine ⟨fun n a hn => ?_, fun a => ⟨fun h => ⟨1, h⟩, fun ⟨n, hn⟩ => hone n a hn⟩⟩
  rw [stays]
  exact hone n a hn

lemma bind {fs : Nat → α → Option β} {f : α → Option β} (h : Converges xs x)
    (hf : ∀ a, Converges (fun n => fs n a) (f a)) :
    Converges (fun n => xs n >>= fs n) (x >>= f) := by
  constructor
  · intro n b hb
    obtain ⟨a, ha, hb⟩ := Option.bind_eq_some_iff.mp hb
    exact Option.bind_eq_some_iff.mpr ⟨a, h.remains n a ha, (hf a).remains n b hb⟩
  · intro b
    constructor
    · intro hb
      obtain ⟨a, ha, hb⟩ := Option.bind_eq_some_iff.mp hb
      obtain ⟨n, hn⟩ := (h.reached a).mp ha
      obtain ⟨m, hm⟩ := ((hf a).reached b).mp hb
      -- Both results are there at the deeper of the two depths.
      exact ⟨max n m, Option.bind_eq_some_iff.mpr
        ⟨a, h.remains.le (Nat.le_max_left n m) hn,
          (hf a).remains.le (Nat.le_max_right n m) hm⟩⟩
    · rintro ⟨n, hn⟩
      obtain ⟨a, ha, hb⟩ := Option.bind_eq_some_iff.mp hn
      exact Option.bind_eq_some_iff.mpr
        ⟨a, (h.reached a).mpr ⟨n, ha⟩, ((hf a).reached b).mpr ⟨n, hb⟩⟩

lemma bindExcept {xs : Nat → ExceptT ε Option α} {x : ExceptT ε Option α}
    {fs : Nat → α → ExceptT ε Option β} {f : α → ExceptT ε Option β}
    (h : Converges (fun n => (xs n).run) x.run)
    (hf : ∀ a, Converges (fun n => (fs n a).run) (f a).run) :
    Converges (fun n => (xs n >>= fs n).run) (x >>= f).run := by
  simp only [ExceptT.run_bind]
  refine h.bind fun r => ?_
  cases r with
  | ok a => exact hf a
  | error e => exact const _

end Converges

end ServiceSim
