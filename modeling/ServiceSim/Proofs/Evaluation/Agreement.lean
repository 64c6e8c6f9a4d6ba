import ServiceSim.Proofs.Evaluation.Determinism
import Mathlib.Data.List.Forall2

/-!
# Frames that show the same

A name that is read from a frame is found in the innermost layer that binds it, so what counts is
`Frame.get?` alone.  Two frames agree if they bind the same names visibly, to bindings that agree;
late bindings agree if their specifications are the same and their origins agree in turn.

Frames that agree give every variable the same meaning (`Frame.Agrees.scope`).  Binding and
resolving therefore draw the same from them, fail alike and leave frames that agree again
(`bindUsages_agrees`, `resolveInner_twins`).  Resolving walks over all that is visible in the order
of the names; this order is that of the names alone as long as the layers are ordered.
-/

namespace ServiceSim

/-! ## Maps with the same names -/

/-- Two lists of pairs have the same names in the same order, with related entries. -/
abbrev NamesMatch {α : Type} (R : α → α → Prop) (m₁ m₂ : List (String × α)) : Prop :=
  List.Forall₂ (fun p q => p.1 = q.1 ∧ R p.2 q.2) m₁ m₂

namespace NameMap

variable {α : Type} {R : α → α → Prop} {m m₁ m₂ : NameMap α} {pairs : List (String × α)}
  {name : String}

lemma insert_match (h : NamesMatch R m₁ m₂) (name : String) {a₁ a₂ : α} (ha : R a₁ a₂) :
    NamesMatch R (insert name a₁ m₁) (insert name a₂ m₂) := by
  induction h with
  | nil => exact .cons ⟨rfl, ha⟩ .nil
  | @cons p q rest₁ rest₂ hpq hrest ih =>
    obtain ⟨key, b₁⟩ := p
    obtain ⟨key', b₂⟩ := q
    obtain rfl : key = key' := hpq.1
    simp only [insert]
    split_ifs
    · exact .cons ⟨rfl, ha⟩ hrest
    · exact .cons ⟨rfl, ha⟩ (.cons hpq hrest)
    · exact .cons hpq ih

lemma lookup_insert (name other : String) (a : α) (m : NameMap α) :
    (insert name a m).lookup other = if other = name then some a else m.lookup other := by
  split_ifs with h
  · rw [h, lookup_insert_self]
  · exact lookup_insert_of_ne h a m

/-- A name that is smaller than all names of a map is not among them. -/
lemma lookup_eq_none (h : ∀ p ∈ m, name < p.1) : m.lookup name = none := by
  rw [List.lookup_eq_none_iff]
  intro p hp
  exact bne_iff_ne.mpr (Std.ne_of_lt (h p hp))

/-- Of pairs in ascending order, the one of a name decides. -/
lemma lookup_insertAll (h : pairs.Pairwise fun p q => p.1 < q.1) (m : NameMap α) (name : String) :
    (insertAll pairs m).lookup name = (pairs.lookup name).or (m.lookup name) := by
  induction pairs generalizing m with
  | nil => rfl
  | cons pair rest ih =>
    obtain ⟨key, b⟩ := pair
    obtain ⟨hkey, hrest⟩ := List.pairwise_cons.mp h
    have hnext := ih hrest (insert key b m)
    rw [lookup_insert] at hnext
    rw [insertAll, List.foldl_cons]
    refine hnext.trans ?_
    by_cases hname : name = key
    · rw [hname, lookup_eq_none hkey, if_pos rfl, List.lookup_cons_self]
      rfl
    · rw [if_neg hname, List.lookup_cons, beq_false_of_ne hname]

lemma insertAll_ascending (h : m.Ascending) (pairs : List (String × α)) :
    (insertAll pairs m).Ascending := by
  induction pairs generalizing m with
  | nil => exact h
  | cons pair rest ih => exact ih (h.insert pair.1 pair.2)

/-- The name of the first pair of one map is among those of another, if they have the same names. -/
lemma first_le (h₁ : Ascending ((name, a) :: m)) {other : String} {b : α} {m' : NameMap α}
    (bound : (List.lookup other ((name, a) :: m)).isSome = (List.lookup other ((other, b) :: m')).isSome) :
    name ≤ other := by
  obtain ⟨hname, -⟩ := List.pairwise_cons.mp h₁
  by_contra hlt
  have hbefore : other < name := Std.not_le.mp hlt
  have hnone : List.lookup other ((name, a) :: m) = none := by
    refine lookup_eq_none fun p hp => ?_
    rcases List.mem_cons.mp hp with rfl | hp
    · exact hbefore
    · exact String.lt_trans hbefore (hname p hp)
  rw [hnone, List.lookup_cons_self] at bound
  cases bound

/-- Ordered maps that bind the same names, to related entries, match. -/
lemma match_of_lookup (h₁ : m₁.Ascending) (h₂ : m₂.Ascending)
    (bound : ∀ name, (m₁.lookup name).isSome = (m₂.lookup name).isSome)
    (related : ∀ name a₁ a₂, m₁.lookup name = some a₁ → m₂.lookup name = some a₂ → R a₁ a₂) :
    NamesMatch R m₁ m₂ := by
  induction m₁ generalizing m₂ with
  | nil =>
    cases m₂ with
    | nil => exact .nil
    | cons q rest =>
      have hq := bound q.1
      rw [List.lookup_cons_self] at hq
      cases hq
  | cons p rest₁ ih =>
    obtain ⟨key₁, a₁⟩ := p
    cases m₂ with
    | nil =>
      have hp := bound key₁
      rw [List.lookup_cons_self] at hp
      cases hp
    | cons q rest₂ =>
      obtain ⟨key₂, a₂⟩ := q
      have hle : key₁ ≤ key₂ := first_le h₁ (bound key₂)
      have hge : key₂ ≤ key₁ := first_le h₂ (bound key₁).symm
      obtain rfl : key₁ = key₂ := Std.le_antisymm hle hge
      obtain ⟨hkey₁, hrest₁⟩ := List.pairwise_cons.mp h₁
      obtain ⟨hkey₂, hrest₂⟩ := List.pairwise_cons.mp h₂
      have helsewhere : ∀ name, name ≠ key₁ → ∀ (a : α) (rest : NameMap α),
          List.lookup name ((key₁, a) :: rest) = rest.lookup name := by
        intro name hname a rest
        rw [List.lookup_cons, beq_false_of_ne hname]
      refine .cons ⟨rfl, related key₁ _ _ List.lookup_cons_self List.lookup_cons_self⟩ ?_
      refine ih hrest₁ hrest₂ (fun name => ?_) fun name b₁ b₂ hb₁ hb₂ => ?_
      · by_cases hname : name = key₁
        · rw [hname, lookup_eq_none hkey₁, lookup_eq_none hkey₂]
        · have hname' := bound name
          rwa [helsewhere name hname, helsewhere name hname] at hname'
      · by_cases hname : name = key₁
        · rw [hname, lookup_eq_none hkey₁] at hb₁
          cases hb₁
        · refine related name b₁ b₂ ?_ ?_
          · rwa [helsewhere name hname]
          · rwa [helsewhere name hname]

end NameMap

/-! ## Reading frames -/

namespace Frame

lemma scopeOfOwn_eq (own : List (String × Binding)) (name : String) :
    scopeOfOwn own name = (own.lookup name).map Binding.read := by
  induction own with
  | nil =>
    rw [scopeOfOwn]
    rfl
  | cons pair rest ih =>
    obtain ⟨key, binding⟩ := pair
    rw [scopeOfOwn, scopeOfPair, List.lookup_cons]
    by_cases h : name = key
    · rw [if_pos h, h, beq_self_eq_true]
      rfl
    · rw [if_neg h, beq_false_of_ne h]
      exact ih

mutual

/-- What a variable stands for is read from the binding that is visible. -/
lemma scope_eq : ∀ (f : Frame) (name : String), f.scope name = (f.get? name).map Binding.read
  | ⟨identity, own, parent⟩, name => by
    rw [scope, scopeOfOwn_eq, scopeOfParent_eq parent name, get?, layers, List.findSome?_cons]
    cases own.lookup name <;> rfl

lemma scopeOfParent_eq : ∀ (parent : Option Frame) (name : String),
    scopeOfParent parent name =
      ((layersOf parent).findSome? (·.lookup name)).map Binding.read
  | none, name => by
    rw [scopeOfParent, layersOf]
    rfl
  | some f, name => by
    rw [scopeOfParent, layersOf, scope_eq f name, get?]

end

lemma get?_empty (identity : FrameId) (name : String) : (empty identity).get? name = none := by
  rw [get?, empty, layers, layersOf]
  rfl

/-- A frame that binds nothing itself shows what its parent shows. -/
lemma get?_inside (f : Frame) (identity : FrameId) (name : String) :
    (inside f identity).get? name = f.get? name := by
  rw [get?, inside, layers, layersOf, List.findSome?_cons]
  rfl

lemma get?_bind (f : Frame) (name : String) (binding : Binding) (other : String) :
    (f.bind name binding).get? other = if other = name then some binding else f.get? other := by
  obtain ⟨identity, own, parent⟩ := f
  rw [bind, get?, layers, List.findSome?_cons, NameMap.lookup_insert]
  split_ifs
  · rfl
  · rw [get?, layers, List.findSome?_cons]

/-- The layers of a frame are ordered by the names. -/
def Ordered (f : Frame) : Prop := ∀ layer ∈ f.layers, NameMap.Ascending layer

lemma ordered_outermost (identity : FrameId) (own : NameMap Binding) :
    (Frame.mk identity own none).Ordered ↔ own.Ascending := by
  simp [Ordered, layers, layersOf]

lemma ordered_layer (identity : FrameId) (own : NameMap Binding) (parent : Frame) :
    (Frame.mk identity own (some parent)).Ordered ↔ own.Ascending ∧ parent.Ordered := by
  simp [Ordered, layers, layersOf]

lemma empty_ordered (identity : FrameId) : (empty identity).Ordered :=
  (ordered_outermost identity []).mpr .nil

variable {f g : Frame}

lemma Ordered.inside (h : f.Ordered) (identity : FrameId) : (inside f identity).Ordered :=
  (ordered_layer identity [] f).mpr ⟨.nil, h⟩

lemma Ordered.bind (h : f.Ordered) (name : String) (binding : Binding) :
    (f.bind name binding).Ordered := by
  obtain ⟨identity, own, parent⟩ := f
  intro layer hlayer
  rw [Frame.bind, layers] at hlayer
  rcases List.mem_cons.mp hlayer with rfl | hlayer
  · exact (h own List.mem_cons_self).insert name binding
  · exact h layer (List.mem_cons_of_mem _ hlayer)

lemma contents_ascending (f : Frame) : f.contents.Ascending := by
  rw [contents]
  induction f.layers with
  | nil => exact List.Pairwise.nil
  | cons layer rest ih => exact NameMap.insertAll_ascending ih layer

/-- What is visible under a name is among all that is visible. -/
lemma Ordered.lookup_contents (h : f.Ordered) (name : String) :
    f.contents.lookup name = f.get? name := by
  rw [contents, get?]
  unfold Ordered at h
  generalize f.layers = layers at h
  induction layers with
  | nil => rfl
  | cons layer rest ih =>
    have hrest := ih fun l hl => h l (List.mem_cons_of_mem _ hl)
    rw [List.foldr_cons, NameMap.lookup_insertAll (h layer List.mem_cons_self), hrest,
      List.findSome?_cons]
    cases layer.lookup name <;> rfl

end Frame

/-! ## Agreement -/

/-- Two bindings read alike: they are the same value, or late bindings of the same specification
whose origins show the same names, bound to bindings that agree. -/
inductive Binding.Agrees : Binding → Binding → Prop
  | value (v : Value) : Agrees (.value v) (.value v)
  | late (specification : Specification) {origin₁ origin₂ : Frame}
      (bound : ∀ name, (origin₁.get? name).isSome = (origin₂.get? name).isSome)
      (agree : ∀ name b₁ b₂, origin₁.get? name = some b₁ → origin₂.get? name = some b₂ →
        Agrees b₁ b₂) :
      Agrees (.late specification origin₁) (.late specification origin₂)

/-- Two frames show the same: the same names, bound to bindings that agree.  In which layers they
are bound does not matter. -/
structure Frame.Agrees (f g : Frame) : Prop where
  bound : ∀ name, (f.get? name).isSome = (g.get? name).isSome
  agree : ∀ name b₁ b₂, f.get? name = some b₁ → g.get? name = some b₂ → b₁.Agrees b₂

/-- Frames give a variable the same meaning if the bindings that they show read alike. -/
lemma Frame.scope_congr {f g : Frame}
    (bound : ∀ name, (f.get? name).isSome = (g.get? name).isSome)
    (read : ∀ name b₁ b₂, f.get? name = some b₁ → g.get? name = some b₂ → b₁.read = b₂.read) :
    f.scope = g.scope := by
  funext name
  have hbound := bound name
  have hread := read name
  rw [Frame.scope_eq, Frame.scope_eq]
  cases hf : f.get? name with
  | none =>
    cases hg : g.get? name with
    | none => rfl
    | some b₂ =>
      rw [hf, hg] at hbound
      cases hbound
  | some b₁ =>
    cases hg : g.get? name with
    | none =>
      rw [hf, hg] at hbound
      cases hbound
    | some b₂ => rw [Option.map_some, Option.map_some, hread b₁ b₂ hf hg]

lemma Binding.Agrees.read {b₁ b₂ : Binding} (h : b₁.Agrees b₂) : b₁.read = b₂.read := by
  induction h with
  | value v => rfl
  | late specification bound _ ih =>
    rw [Binding.read, Binding.read, Frame.scope_congr bound ih]

namespace Frame.Agrees

variable {f g : Frame}

/-- **Frames that agree** give every variable the same meaning. -/
lemma scope (h : f.Agrees g) : f.scope = g.scope :=
  scope_congr h.bound fun name _ _ hf hg => (h.agree name _ _ hf hg).read

lemma late (h : f.Agrees g) (specification : Specification) :
    (Binding.late specification f).Agrees (.late specification g) :=
  .late specification h.bound h.agree

lemma empty (identity₁ identity₂ : FrameId) :
    (Frame.empty identity₁).Agrees (Frame.empty identity₂) := by
  refine ⟨fun name => ?_, fun name b₁ b₂ h₁ _ => ?_⟩
  · rw [get?_empty, get?_empty]
  · rw [get?_empty] at h₁
    cases h₁

lemma inside (h : f.Agrees g) (identity₁ identity₂ : FrameId) :
    (Frame.inside f identity₁).Agrees (Frame.inside g identity₂) := by
  refine ⟨fun name => ?_, fun name b₁ b₂ h₁ h₂ => ?_⟩
  · rw [get?_inside, get?_inside]
    exact h.bound name
  · rw [get?_inside] at h₁ h₂
    exact h.agree name b₁ b₂ h₁ h₂

lemma bind (h : f.Agrees g) (name : String) {b₁ b₂ : Binding} (hb : b₁.Agrees b₂) :
    (f.bind name b₁).Agrees (g.bind name b₂) := by
  refine ⟨fun other => ?_, fun other c₁ c₂ h₁ h₂ => ?_⟩
  · rw [get?_bind, get?_bind]
    split_ifs
    · rfl
    · exact h.bound other
  · rw [get?_bind] at h₁ h₂
    split_ifs at h₁ h₂
    · injection h₁ with h₁
      injection h₂ with h₂
      exact h₁ ▸ h₂ ▸ hb
    · exact h.agree other c₁ c₂ h₁ h₂

/-- Ordered frames that agree show the same names in the same order. -/
lemma contents (h : f.Agrees g) (hf : f.Ordered) (hg : g.Ordered) :
    NamesMatch Binding.Agrees f.contents g.contents := by
  refine NameMap.match_of_lookup (contents_ascending f) (contents_ascending g) ?_ ?_
  · intro name
    rw [hf.lookup_contents, hg.lookup_contents]
    exact h.bound name
  · intro name b₁ b₂ h₁ h₂
    rw [hf.lookup_contents] at h₁
    rw [hg.lookup_contents] at h₂
    exact h.agree name b₁ b₂ h₁ h₂

end Frame.Agrees

/-! ## Every frame agrees with itself -/

mutual

lemma Binding.agrees_self : ∀ b : Binding, b.Agrees b
  | .value v => .value v
  | .late specification origin => by
    have hself := Frame.visible_agrees_self origin
    exact .late specification (fun _ => rfl) fun name b₁ b₂ h₁ h₂ => by
      obtain rfl : b₁ = b₂ := Option.some.inj (h₁.symm.trans h₂)
      exact hself name b₁ h₁

/-- What a frame shows agrees with itself. -/
lemma Frame.visible_agrees_self : ∀ (f : Frame) (name : String) (b : Binding),
    f.get? name = some b → b.Agrees b
  | ⟨identity, own, parent⟩, name, b, h => by
    rw [Frame.get?, Frame.layers, List.findSome?_cons] at h
    cases hown : own.lookup name with
    | some b' =>
      rw [hown] at h
      injection h with h
      exact h ▸ Frame.own_agrees_self own name b' hown
    | none =>
      rw [hown] at h
      exact Frame.inherited_agrees_self parent name b h

lemma Frame.own_agrees_self : ∀ (own : List (String × Binding)) (name : String) (b : Binding),
    own.lookup name = some b → b.Agrees b
  | [], name, b, h => by cases h
  | pair :: rest, name, b, h => by
    have hpair := Frame.pair_agrees_self pair
    rw [List.lookup_cons] at h
    split at h
    · injection h with h
      exact h ▸ hpair
    · exact Frame.own_agrees_self rest name b h

lemma Frame.pair_agrees_self : ∀ pair : String × Binding, pair.2.Agrees pair.2
  | (_, binding) => Binding.agrees_self binding

lemma Frame.inherited_agrees_self : ∀ (parent : Option Frame) (name : String) (b : Binding),
    (Frame.layersOf parent).findSome? (·.lookup name) = some b → b.Agrees b
  | none, name, b, h => by
    rw [Frame.layersOf] at h
    cases h
  | some f, name, b, h => by
    rw [Frame.layersOf] at h
    exact Frame.visible_agrees_self f name b h

end

lemma Frame.agrees_self (f : Frame) : f.Agrees f := by
  refine ⟨fun _ => rfl, fun name b₁ b₂ h₁ h₂ => ?_⟩
  obtain rfl : b₁ = b₂ := Option.some.inj (h₁.symm.trans h₂)
  exact Frame.visible_agrees_self f name b₁ h₁

/-- In which layer a name is bound does not matter. -/
lemma Frame.agrees_inside (f : Frame) (identity : FrameId) : f.Agrees (inside f identity) := by
  refine ⟨fun name => ?_, fun name b₁ b₂ h₁ h₂ => ?_⟩
  · rw [get?_inside]
  · rw [get?_inside] at h₂
    exact f.agrees_self.agree name b₁ b₂ h₁ h₂

/-- Binding a name alike keeps frames related. -/
def KeptByBinding (R : Frame → Frame → Prop) : Prop :=
  ∀ {f g : Frame} (name : String) {b₁ b₂ : Binding}, R f g → b₁.Agrees b₂ →
    R (f.bind name b₁) (g.bind name b₂)

/-! ## Result frames -/

/-- Two frames have the same bindings: they also bind the same names themselves. -/
structure Frame.SameBindings (f g : Frame) : Prop where
  own : NamesMatch Binding.Agrees f.own g.own
  agrees : f.Agrees g

namespace Frame.SameBindings

variable {f g : Frame}

lemma empty (identity₁ identity₂ : FrameId) :
    (Frame.empty identity₁).SameBindings (Frame.empty identity₂) :=
  ⟨.nil, .empty identity₁ identity₂⟩

lemma refl (f : Frame) : f.SameBindings f := by
  refine ⟨?_, f.agrees_self⟩
  rw [NamesMatch, List.forall₂_same]
  exact fun p _ => ⟨rfl, p.2.agrees_self⟩

end Frame.SameBindings

lemma Frame.sameBindings_kept : KeptByBinding Frame.SameBindings :=
  fun name _ _ h hb => ⟨NameMap.insert_match h.own name hb, h.agrees.bind name hb⟩

/-- Two frames are ordered and show the same. -/
structure Frame.Twins (f g : Frame) : Prop where
  left : f.Ordered
  right : g.Ordered
  agrees : f.Agrees g

namespace Frame.Twins

variable {f g : Frame}

lemma empty (identity₁ identity₂ : FrameId) :
    (Frame.empty identity₁).Twins (Frame.empty identity₂) :=
  ⟨empty_ordered identity₁, empty_ordered identity₂, .empty identity₁ identity₂⟩

lemma refl (h : f.Ordered) : f.Twins f := ⟨h, h, f.agrees_self⟩

lemma inside (h : f.Twins g) (identity₁ identity₂ : FrameId) :
    (Frame.inside f identity₁).Twins (Frame.inside g identity₂) :=
  ⟨h.left.inside identity₁, h.right.inside identity₂, h.agrees.inside identity₁ identity₂⟩

end Frame.Twins

lemma Frame.twins_kept : KeptByBinding Frame.Twins :=
  fun name b₁ b₂ h hb => ⟨h.left.bind name b₁, h.right.bind name b₂, h.agrees.bind name hb⟩

/-! ## Binding -/

/-- Two results are the same error, or related. -/
inductive SameResult {ε α : Type} (R : α → α → Prop) : Except ε α → Except ε α → Prop
  | error (e : ε) : SameResult R (.error e) (.error e)
  | ok {a b : α} (h : R a b) : SameResult R (.ok a) (.ok b)

/-- Two computations draw the same from every source, and end alike. -/
def SameDraws (c₁ c₂ : Sampler Binding) : Prop :=
  ∀ s, (c₁ s).2 = (c₂ s).2 ∧ SameResult Binding.Agrees (c₁ s).1 (c₂ s).1

lemma sameDraws_pure {b₁ b₂ : Binding} (h : b₁.Agrees b₂) : SameDraws (pure b₁) (pure b₂) :=
  fun _ => ⟨rfl, .ok h⟩

lemma sameDraws_refl (c : Sampler Binding) : SameDraws c c := by
  intro s
  refine ⟨rfl, ?_⟩
  cases (c s).1 with
  | error e => exact .error e
  | ok b => exact .ok b.agrees_self

/-- Two outcomes of binding are alike, with related frames. -/
structure BindOutcome.Alike (R : Frame → Frame → Prop) (o₁ o₂ : BindOutcome) : Prop where
  failure : o₁.failure = o₂.failure
  target : R o₁.target o₂.target
  source : o₁.source = o₂.source
  names : o₁.names = o₂.names

section Binding

variable {R : Frame → Frame → Prop} {context₁ context₂ target₁ target₂ : Frame}

/-- Computations that draw the same leave related frames related, if binding keeps these so. -/
lemma bindEach_alike (kept : KeptByBinding R) {l₁ l₂ : List (String × Sampler Binding)}
    (h : NamesMatch SameDraws l₁ l₂) (htarget : R target₁ target₂) (s : Source) :
    (bindEach l₁ target₁ s).Alike R (bindEach l₂ target₂ s) := by
  induction h generalizing target₁ target₂ s with
  | nil => exact ⟨rfl, htarget, rfl, rfl⟩
  | @cons p q rest₁ rest₂ hpq _ ih =>
    obtain ⟨name, c₁⟩ := p
    obtain ⟨name', c₂⟩ := q
    obtain rfl : name = name' := hpq.1
    have hdraws : (c₁ s).2 = (c₂ s).2 ∧ SameResult Binding.Agrees (c₁ s).1 (c₂ s).1 := hpq.2 s
    simp only [bindEach]
    generalize c₁ s = drawn₁ at hdraws
    generalize c₂ s = drawn₂ at hdraws
    obtain ⟨r₁, s₁⟩ := drawn₁
    obtain ⟨r₂, s₂⟩ := drawn₂
    obtain ⟨rfl, hresult⟩ := hdraws
    cases hresult with
    | error e => exact ⟨rfl, htarget, rfl, rfl⟩
    | ok hb =>
      have hrest := ih (kept name htarget hb) s₁
      exact ⟨hrest.failure, hrest.target, hrest.source, congrArg (name :: ·) hrest.names⟩

/-- Characterisations draw the same in frames that agree. -/
lemma bindingsOf_agrees (h : context₁.Agrees context₂) (usages : List VariableUsage) :
    NamesMatch SameDraws (bindingsOf usages context₁) (bindingsOf usages context₂) := by
  have hone : ∀ (u : VariableUsage) (c : Characterisation),
      SameDraws (u.bindingOf context₁ c) (u.bindingOf context₂ c) := by
    intro u c
    simp only [VariableUsage.bindingOf, h.scope]
    split_ifs
    · exact sameDraws_pure (h.late c.specification)
    · exact sameDraws_refl _
  have huses : ∀ u : VariableUsage, NamesMatch SameDraws
      (u.characterisations.map fun c => (u.nameOf c, u.bindingOf context₁ c))
      (u.characterisations.map fun c => (u.nameOf c, u.bindingOf context₂ c)) := by
    intro u
    induction u.characterisations with
    | nil => exact .nil
    | cons c rest ih => exact .cons ⟨rfl, hone u c⟩ ih
  rw [bindingsOf, bindingsOf]
  induction usages with
  | nil => exact .nil
  | cons u rest ih =>
    rw [List.flatMap_cons, List.flatMap_cons]
    exact List.rel_append (huses u) ih

/-- **Binding usages** in frames that agree. -/
lemma bindUsages_agrees (kept : KeptByBinding R) (h : context₁.Agrees context₂)
    (usages : List VariableUsage) (htarget : R target₁ target₂) (s : Source) :
    (bindUsages usages context₁ target₁ s).Alike R (bindUsages usages context₂ target₂ s) :=
  bindEach_alike kept (bindingsOf_agrees h usages) htarget s

/-- The late bindings that twins show are sampled alike. -/
lemma innerBindings_twins (h : context₁.Twins context₂) (stem : String) :
    NamesMatch SameDraws (innerBindings context₁ stem) (innerBindings context₂ stem) := by
  have hcontents := h.agrees.contents h.left h.right
  rw [innerBindings, innerBindings]
  generalize context₁.contents = contents₁ at hcontents
  generalize context₂.contents = contents₂ at hcontents
  induction hcontents with
  | nil => exact .nil
  | @cons p q rest₁ rest₂ hpq _ ih =>
    obtain ⟨name, b₁⟩ := p
    obtain ⟨name', b₂⟩ := q
    obtain rfl : name = name' := hpq.1
    rw [List.filterMap_cons, List.filterMap_cons]
    dsimp only
    split_ifs
    · cases hpq.2 with
      | value v => exact ih
      | late specification bound agree =>
        dsimp only
        rw [Frame.Agrees.scope ⟨bound, agree⟩]
        exact .cons ⟨rfl, sameDraws_refl _⟩ ih
    · exact ih

/-- **Resolving** in twins. -/
lemma resolveInner_twins (h : context₁.Twins context₂) (stem : String)
    (htarget : target₁.Twins target₂) (s : Source) :
    (resolveInner context₁ stem target₁ s).Alike Frame.Twins
      (resolveInner context₂ stem target₂ s) :=
  bindEach_alike Frame.twins_kept (innerBindings_twins h stem) htarget s

end Binding

end ServiceSim
