/-!
# Maps ordered by name

Finite maps from names to values, kept as lists of pairs in ascending order of the names.  Looking a
name up is `List.lookup`; whatever walks over such a map meets the names in order.
-/

namespace ServiceSim

/-- A map from names, as pairs in ascending order. -/
abbrev NameMap (α : Type) := List (String × α)

namespace NameMap

/-- The map that also sends `name` to `a`, whatever it sent it to before. -/
def insert {α : Type} (name : String) (a : α) : NameMap α → NameMap α
  | [] => [(name, a)]
  | (key, b) :: rest =>
    if name = key then (name, a) :: rest
    else if name < key then (name, a) :: (key, b) :: rest
    else (key, b) :: insert name a rest

/-- The map with the pairs of a list, of which later ones win. -/
def insertAll {α : Type} (pairs : List (String × α)) (m : NameMap α) : NameMap α :=
  pairs.foldl (fun m (name, a) => insert name a m) m

/-! ## Looking names up -/

@[simp] theorem lookup_insert_self {α : Type} (name : String) (a : α) (m : NameMap α) :
    (insert name a m).lookup name = some a := by
  induction m with
  | nil => simp [insert]
  | cons entry rest ih =>
    obtain ⟨key, b⟩ := entry
    by_cases h : name = key
    · simp [insert, h]
    · by_cases hlt : name < key
      · simp [insert, h, hlt]
      · have hb : (name == key) = false := by simpa using h
        simp [insert, h, hlt, ih, List.lookup_cons, hb]

theorem lookup_insert_of_ne {α : Type} {name other : String} (h : other ≠ name) (a : α)
    (m : NameMap α) : (insert name a m).lookup other = m.lookup other := by
  have hb : (other == name) = false := by simpa using h
  induction m with
  | nil => simp [insert, List.lookup_cons, hb]
  | cons entry rest ih =>
    obtain ⟨key, b⟩ := entry
    by_cases hk : name = key
    · subst hk
      simp [insert, List.lookup_cons, hb]
    · by_cases hlt : name < key
      · simp [insert, hk, hlt, List.lookup_cons, hb]
      · simp only [insert, hk, hlt, if_false, List.lookup_cons, ih]

/-- What looking up finds is one of the pairs, whatever these are looked up by. -/
theorem mem_of_lookup {κ α : Type} [BEq κ] [LawfulBEq κ] {pairs : List (κ × α)} {key : κ} {a : α}
    (h : pairs.lookup key = some a) : (key, a) ∈ pairs := by
  obtain ⟨before, after, hsplit, -⟩ := List.lookup_eq_some_iff.mp h
  rw [hsplit]
  exact List.mem_append_right before List.mem_cons_self

/-! ## The order of the names -/

/-- Whether the names ascend, so that none occurs twice. -/
def Ascending {α : Type} (m : NameMap α) : Prop := m.Pairwise fun p q => p.1 < q.1

theorem eq_or_mem_of_mem_insert {α : Type} {name : String} {a : α} {m : NameMap α}
    {p : String × α} (h : p ∈ insert name a m) : p = (name, a) ∨ p ∈ m := by
  induction m with
  | nil => simpa [insert] using h
  | cons entry rest ih =>
    obtain ⟨key, b⟩ := entry
    by_cases hk : name = key
    · simp only [insert, hk, if_true, List.mem_cons] at h ⊢
      grind
    · by_cases hlt : name < key
      · simpa [insert, hk, hlt] using h
      · simp only [insert, hk, hlt, if_false, List.mem_cons] at h ⊢
        grind

theorem Ascending.insert {α : Type} {m : NameMap α} (h : m.Ascending) (name : String) (a : α) :
    (NameMap.insert name a m).Ascending := by
  induction m with
  | nil => simp [NameMap.insert, Ascending]
  | cons entry rest ih =>
    obtain ⟨key, b⟩ := entry
    obtain ⟨hkey, hrest⟩ := List.pairwise_cons.1 h
    by_cases hk : name = key
    · subst hk
      simp only [NameMap.insert, if_true]
      exact List.pairwise_cons.2 ⟨hkey, hrest⟩
    · by_cases hlt : name < key
      · simp only [NameMap.insert, hk, hlt, if_false, if_true]
        refine List.pairwise_cons.2 ⟨fun p hp => ?_, h⟩
        rcases List.mem_cons.1 hp with rfl | hp
        · exact hlt
        · exact String.lt_trans hlt (hkey p hp)
      · simp only [NameMap.insert, hk, hlt, if_false]
        refine List.pairwise_cons.2 ⟨fun p hp => ?_, ih hrest⟩
        rcases eq_or_mem_of_mem_insert hp with rfl | hp
        · exact Std.lt_of_le_of_ne (Std.not_lt.1 hlt) (Ne.symm hk)
        · exact hkey p hp

end NameMap

end ServiceSim
