import ServiceSim.Number.Reading
import Mathlib.Data.List.TakeWhile
import Mathlib.Tactic.Lemma
import Mathlib.Tactic.SplitIfs

/-!
# Where digits end

Readers of numbers take digits for as long as there are any, and an exponent may have a sign in front
of its digits.  What follows a number does not change what is taken of it, as long as it does not start
with a digit or a sign (`span_append`, `afterSign_append`).
-/

namespace ServiceSim.Number

variable {cs rest : List Char}

/-! ## Digits -/

/-- The first characters of a class stand before what does not go on with them. -/
lemma span_append {p : Char → Bool} (h : ∀ c ∈ rest.head?, p c = false) (cs : List Char) :
    (cs ++ rest).takeWhile p = cs.takeWhile p ∧
      (cs ++ rest).dropWhile p = cs.dropWhile p ++ rest := by
  induction cs with
  | nil =>
    cases rest with
    | nil => exact ⟨rfl, rfl⟩
    | cons c rest =>
      have hc : ¬ p c = true := by simp [h c rfl]
      exact ⟨List.takeWhile_cons_of_neg hc, List.dropWhile_cons_of_neg hc⟩
  | cons c cs ih =>
    cases hc : p c with
    | true => simp [hc, ih.1, ih.2]
    | false => simp [hc]

/-- The digits before something else. -/
lemma span_digits (digits : ∀ x ∈ cs, x.isDigit = true) (h : ∀ c ∈ rest.head?, c.isDigit = false) :
    (cs ++ rest).takeWhile Char.isDigit = cs ∧ (cs ++ rest).dropWhile Char.isDigit = rest := by
  obtain ⟨htake, hdrop⟩ := span_append h cs
  rw [htake, hdrop, List.takeWhile_eq_self_iff.mpr digits, List.dropWhile_eq_nil_iff.mpr digits]
  exact ⟨rfl, rfl⟩

/-! ## Signs -/

/-- What follows a sign, if there is one, and whether it is a minus sign. -/
def afterSign (cs : List Char) : Bool × List Char :=
  match cs with
  | '+' :: r => (false, r)
  | '-' :: r => (true, r)
  | r => (false, r)

lemma exponentPart_cons (mark : Char) (cs : List Char) :
    exponentPart (mark :: cs) =
      if mark = 'e' ∨ mark = 'E' then
        let digits := (afterSign cs).2.takeWhile Char.isDigit
        if digits.isEmpty then none
        else
          let n : Int := ofDigits digits
          some (if (afterSign cs).1 then -n else n, (afterSign cs).2.dropWhile Char.isDigit)
      else none := rfl

lemma afterSign_other (h : ∀ c ∈ cs.head?, c ≠ '+' ∧ c ≠ '-') : afterSign cs = (false, cs) := by
  unfold afterSign
  split
  · exact absurd rfl (h '+' rfl).1
  · exact absurd rfl (h '-' rfl).2
  · rfl

lemma afterSign_cons_append (c : Char) (cs rest : List Char) :
    afterSign (c :: cs ++ rest) = ((afterSign (c :: cs)).1, (afterSign (c :: cs)).2 ++ rest) := by
  by_cases hplus : c = '+'
  · subst hplus
    rfl
  · by_cases hminus : c = '-'
    · subst hminus
      rfl
    · have hother : ∀ more : List Char, afterSign (c :: more) = (false, c :: more) := fun more =>
        afterSign_other fun d hd => by
          injection hd with hd
          exact hd ▸ ⟨hplus, hminus⟩
      rw [List.cons_append, hother, hother]
      rfl

/-- What follows does not change what is taken of a sign, if it does not start with one. -/
lemma afterSign_append (h : ∀ c ∈ rest.head?, c ≠ '+' ∧ c ≠ '-') (cs : List Char) :
    afterSign (cs ++ rest) = ((afterSign cs).1, (afterSign cs).2 ++ rest) := by
  cases cs with
  | nil => exact afterSign_other h
  | cons c cs => exact afterSign_cons_append c cs rest

end ServiceSim.Number
