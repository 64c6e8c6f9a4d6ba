import ServiceSim.Proofs.Evaluation.Determinism

/-!
# Frames without identities

The identities of frames depend on the order in which processes make them.  Nothing that is read
from a frame does: `Frame.anonymous` forgets all identities, and looking names up, binding and
resolving commute with it.

A frame is deterministic if all that it binds late is.  Binding deterministic usages keeps frames
so.  Together this says what binding comes to in any environment: the outcome of a binding of
anonymous frames with a silent source (`bindUsages_anonymous`, `resolveInner_anonymous`).
-/

namespace ServiceSim

/-! ## Forgetting identities -/

mutual

/-- A binding whose frames have no identities. -/
def Binding.anonymous : Binding → Binding
  | .value v => .value v
  | .late specification origin => .late specification origin.anonymous

/-- A frame without identities. -/
def Frame.anonymous : Frame → Frame
  | ⟨_, own, parent⟩ => ⟨0, Frame.anonymousOwn own, Frame.anonymousParent parent⟩

/-- Own bindings without identities. -/
def Frame.anonymousOwn : List (String × Binding) → List (String × Binding)
  | [] => []
  | pair :: rest => Frame.anonymousPair pair :: Frame.anonymousOwn rest

/-- A named binding without identities. -/
def Frame.anonymousPair : String × Binding → String × Binding
  | (name, binding) => (name, binding.anonymous)

/-- A parent without identities. -/
def Frame.anonymousParent : Option Frame → Option Frame
  | none => none
  | some f => some f.anonymous

end

mutual

lemma Binding.read_anonymous : ∀ b : Binding, b.anonymous.read = b.read
  | .value v => by rw [Binding.anonymous]
  | .late specification origin => by
    rw [Binding.anonymous, Binding.read, Binding.read, Frame.scope_anonymous origin]

lemma Frame.scope_anonymous : ∀ f : Frame, f.anonymous.scope = f.scope
  | ⟨identity, own, parent⟩ => by
    funext name
    rw [Frame.anonymous, Frame.scope, Frame.scope, Frame.scopeOfOwn_anonymous own name,
      Frame.scopeOfParent_anonymous parent name]

lemma Frame.scopeOfOwn_anonymous : ∀ (own : List (String × Binding)) (name : String),
    Frame.scopeOfOwn (Frame.anonymousOwn own) name = Frame.scopeOfOwn own name
  | [], _ => by rw [Frame.anonymousOwn]
  | pair :: rest, name => by
    rw [Frame.anonymousOwn, Frame.scopeOfOwn, Frame.scopeOfOwn,
      Frame.scopeOfPair_anonymous pair name, Frame.scopeOfOwn_anonymous rest name]

lemma Frame.scopeOfPair_anonymous : ∀ (pair : String × Binding) (name : String),
    Frame.scopeOfPair (Frame.anonymousPair pair) name = Frame.scopeOfPair pair name
  | (key, binding), name => by
    rw [Frame.anonymousPair, Frame.scopeOfPair, Frame.scopeOfPair, Binding.read_anonymous binding]

lemma Frame.scopeOfParent_anonymous : ∀ (parent : Option Frame) (name : String),
    Frame.scopeOfParent (Frame.anonymousParent parent) name = Frame.scopeOfParent parent name
  | none, _ => by rw [Frame.anonymousParent]
  | some f, name => by
    rw [Frame.anonymousParent, Frame.scopeOfParent, Frame.scopeOfParent, Frame.scope_anonymous f]

end

/-- Named bindings without identities. -/
abbrev anonymousAll (m : NameMap Binding) : NameMap Binding :=
  m.map fun (name, binding) => (name, binding.anonymous)

lemma NameMap.insert_map {α β : Type} (g : α → β) (name : String) (a : α) (m : NameMap α) :
    NameMap.insert name (g a) (m.map fun (key, b) => (key, g b)) =
      (NameMap.insert name a m).map fun (key, b) => (key, g b) := by
  induction m with
  | nil => rfl
  | cons entry rest ih =>
    obtain ⟨key, b⟩ := entry
    simp only [List.map_cons, NameMap.insert]
    split_ifs
    · rfl
    · rfl
    · rw [List.map_cons, ih]

namespace Frame

variable {f target context : Frame}

lemma anonymousOwn_eq (own : List (String × Binding)) : anonymousOwn own = anonymousAll own := by
  induction own with
  | nil => rw [anonymousOwn, anonymousAll, List.map_nil]
  | cons pair rest ih =>
    rw [anonymousOwn, anonymousPair, ih]
    rfl

lemma own_anonymous (f : Frame) : f.anonymous.own = anonymousAll f.own := by
  obtain ⟨identity, own, parent⟩ := f
  rw [anonymous, anonymousOwn_eq]

lemma empty_anonymous (identity : FrameId) : (empty identity).anonymous = empty 0 := by
  rw [empty, anonymous, anonymousOwn, anonymousParent, empty]

lemma inside_anonymous (f : Frame) (identity : FrameId) :
    (inside f identity).anonymous = inside f.anonymous 0 := by
  rw [inside, anonymous, anonymousOwn, anonymousParent, inside]

lemma bind_anonymous (f : Frame) (name : String) (binding : Binding) :
    (f.bind name binding).anonymous = f.anonymous.bind name binding.anonymous := by
  obtain ⟨identity, own, parent⟩ := f
  simp only [bind, anonymous, anonymousOwn_eq, NameMap.insert_map]

mutual

lemma layers_anonymous : ∀ f : Frame, f.anonymous.layers = f.layers.map anonymousAll
  | ⟨identity, own, parent⟩ => by
    rw [anonymous, layers, layers, anonymousOwn_eq, layersOf_anonymous parent, List.map_cons]

lemma layersOf_anonymous : ∀ parent : Option Frame,
    layersOf (anonymousParent parent) = (layersOf parent).map anonymousAll
  | none => by rw [anonymousParent, layersOf, List.map_nil]
  | some f => by rw [anonymousParent, layersOf, layersOf, layers_anonymous f]

end

lemma contents_anonymous (f : Frame) : f.anonymous.contents = anonymousAll f.contents := by
  have hall : ∀ pairs m : NameMap Binding, NameMap.insertAll (anonymousAll pairs) (anonymousAll m) =
      anonymousAll (NameMap.insertAll pairs m) := by
    intro pairs
    induction pairs with
    | nil => exact fun m => rfl
    | cons pair rest ih =>
      intro m
      have hfirst := NameMap.insert_map Binding.anonymous pair.1 pair.2 m
      simp only [NameMap.insertAll, List.map_cons, List.foldl_cons] at ih ⊢
      rw [hfirst]
      exact ih _
  rw [contents, contents, layers_anonymous]
  induction f.layers with
  | nil => rfl
  | cons layer rest ih => rw [List.map_cons, List.foldr_cons, List.foldr_cons, ih, hall]

end Frame

/-! ## Deterministic frames -/

mutual

/-- A binding that draws nothing when it is read. -/
def Binding.Deterministic : Binding → Prop
  | .value _ => True
  | .late specification origin => specification.isDeterministic = true ∧ origin.Deterministic

/-- A frame all of whose bindings are deterministic. -/
def Frame.Deterministic : Frame → Prop
  | ⟨_, own, parent⟩ => Frame.OwnDeterministic own ∧ Frame.ParentDeterministic parent

/-- Own bindings that are deterministic. -/
def Frame.OwnDeterministic : List (String × Binding) → Prop
  | [] => True
  | pair :: rest => Frame.PairDeterministic pair ∧ Frame.OwnDeterministic rest

/-- A named binding that is deterministic. -/
def Frame.PairDeterministic : String × Binding → Prop
  | (_, binding) => binding.Deterministic

/-- A parent that is deterministic. -/
def Frame.ParentDeterministic : Option Frame → Prop
  | none => True
  | some f => f.Deterministic

end

mutual

lemma Binding.read_drawsNothing : ∀ b : Binding, b.Deterministic → DrawsNothing b.read
  | .value v, _ => by
    rw [Binding.read]
    exact .pure v
  | .late specification origin, h => by
    rw [Binding.Deterministic] at h
    rw [Binding.read]
    exact Tree.evaluate_drawsNothing (Frame.scope_deterministic origin h.2) _ h.1

lemma Frame.scope_deterministic : ∀ f : Frame, f.Deterministic → Scope.Deterministic f.scope
  | ⟨identity, own, parent⟩, h, name, value, hvalue => by
    rw [Frame.Deterministic] at h
    rw [Frame.scope] at hvalue
    cases hown : Frame.scopeOfOwn own name with
    | some found =>
      rw [hown] at hvalue
      injection hvalue with hvalue
      exact hvalue ▸ Frame.scopeOfOwn_deterministic own h.1 name found hown
    | none =>
      rw [hown] at hvalue
      exact Frame.scopeOfParent_deterministic parent h.2 name value hvalue

lemma Frame.scopeOfOwn_deterministic : ∀ own : List (String × Binding),
    Frame.OwnDeterministic own → Scope.Deterministic (Frame.scopeOfOwn own)
  | [], _, name, value, hvalue => by
    rw [Frame.scopeOfOwn] at hvalue
    cases hvalue
  | pair :: rest, h, name, value, hvalue => by
    rw [Frame.OwnDeterministic] at h
    rw [Frame.scopeOfOwn] at hvalue
    cases hpair : Frame.scopeOfPair pair name with
    | some found =>
      rw [hpair] at hvalue
      injection hvalue with hvalue
      exact hvalue ▸ Frame.scopeOfPair_deterministic pair h.1 name found hpair
    | none =>
      rw [hpair] at hvalue
      exact Frame.scopeOfOwn_deterministic rest h.2 name value hvalue

lemma Frame.scopeOfPair_deterministic : ∀ pair : String × Binding,
    Frame.PairDeterministic pair → Scope.Deterministic (Frame.scopeOfPair pair)
  | (key, binding), h, name, value, hvalue => by
    rw [Frame.PairDeterministic] at h
    rw [Frame.scopeOfPair] at hvalue
    split_ifs at hvalue
    injection hvalue with hvalue
    exact hvalue ▸ Binding.read_drawsNothing binding h

lemma Frame.scopeOfParent_deterministic : ∀ parent : Option Frame,
    Frame.ParentDeterministic parent → Scope.Deterministic (Frame.scopeOfParent parent)
  | none, _, name, value, hvalue => by
    rw [Frame.scopeOfParent] at hvalue
    cases hvalue
  | some f, h, name, value, hvalue => by
    rw [Frame.ParentDeterministic] at h
    rw [Frame.scopeOfParent] at hvalue
    exact Frame.scope_deterministic f h name value hvalue

end

namespace Frame

variable {f target context : Frame}

lemma ownDeterministic_iff (own : List (String × Binding)) :
    OwnDeterministic own ↔ ∀ p ∈ own, p.2.Deterministic := by
  induction own with
  | nil => simp [OwnDeterministic]
  | cons pair rest ih =>
    obtain ⟨name, binding⟩ := pair
    rw [OwnDeterministic, PairDeterministic, ih, List.forall_mem_cons]

lemma empty_deterministic (identity : FrameId) : (empty identity).Deterministic := by
  rw [empty, Deterministic, OwnDeterministic, ParentDeterministic]
  exact ⟨trivial, trivial⟩

lemma inside_deterministic (h : f.Deterministic) (identity : FrameId) :
    (inside f identity).Deterministic := by
  rw [inside, Deterministic, OwnDeterministic, ParentDeterministic]
  exact ⟨trivial, h⟩

lemma own_deterministic (h : f.Deterministic) : ∀ p ∈ f.own, p.2.Deterministic := by
  obtain ⟨identity, own, parent⟩ := f
  rw [Deterministic, ownDeterministic_iff] at h
  exact h.1

lemma bind_deterministic (h : f.Deterministic) (name : String) {binding : Binding}
    (hbinding : binding.Deterministic) : (f.bind name binding).Deterministic := by
  obtain ⟨identity, own, parent⟩ := f
  rw [Deterministic, ownDeterministic_iff] at h
  rw [bind, Deterministic, ownDeterministic_iff]
  refine ⟨fun p hp => ?_, h.2⟩
  rcases NameMap.eq_or_mem_of_mem_insert hp with rfl | hp
  · exact hbinding
  · exact h.1 p hp

mutual

lemma layers_deterministic : ∀ f : Frame, f.Deterministic →
    ∀ layer ∈ f.layers, ∀ p ∈ layer, p.2.Deterministic
  | ⟨identity, own, parent⟩, h => by
    rw [Deterministic, ownDeterministic_iff] at h
    intro layer hlayer
    rw [layers] at hlayer
    rcases List.mem_cons.mp hlayer with rfl | hlayer
    · exact h.1
    · exact layersOf_deterministic parent h.2 layer hlayer

lemma layersOf_deterministic : ∀ parent : Option Frame, ParentDeterministic parent →
    ∀ layer ∈ layersOf parent, ∀ p ∈ layer, p.2.Deterministic
  | none, _ => by
    rw [layersOf]
    simp
  | some f, h => by
    rw [ParentDeterministic] at h
    rw [layersOf]
    exact layers_deterministic f h

end

lemma contents_deterministic (h : f.Deterministic) : ∀ p ∈ f.contents, p.2.Deterministic := by
  have hall : ∀ pairs m : NameMap Binding, (∀ p ∈ pairs, p.2.Deterministic) →
      (∀ p ∈ m, p.2.Deterministic) → ∀ p ∈ NameMap.insertAll pairs m, p.2.Deterministic := by
    intro pairs
    induction pairs with
    | nil => exact fun m _ hm => hm
    | cons pair rest ih =>
      intro m hpairs hm
      refine ih _ (fun p hp => hpairs p (List.mem_cons_of_mem _ hp)) fun p hp => ?_
      rcases NameMap.eq_or_mem_of_mem_insert hp with rfl | hp
      · exact hpairs _ List.mem_cons_self
      · exact hm p hp
  rw [contents]
  have hlayers := layers_deterministic f h
  generalize f.layers = layers at hlayers
  induction layers with
  | nil => simp
  | cons layer rest ih =>
    rw [List.foldr_cons]
    exact hall _ _ (hlayers layer List.mem_cons_self)
      (ih fun l hl => hlayers l (List.mem_cons_of_mem _ hl))

end Frame

/-! ## Binding -/

/-- A named computation of a binding without identities. -/
def anonymously (p : String × Sampler Binding) : String × Sampler Binding :=
  (p.1, Binding.anonymous <$> p.2)

/-- The computation draws nothing, and neither does what it returns. -/
structure Faithful (c : Sampler Binding) : Prop where
  drawsNothing : DrawsNothing c
  returned : ∀ b, (c silent).1 = .ok b → b.Deterministic

lemma faithful_value {c : Sampler Value} (h : DrawsNothing c) :
    Faithful (do let value ← c; return .value value) := by
  refine ⟨h.bind fun _ => .pure _, fun b hb => ?_⟩
  rw [bind_run, h silent] at hb
  cases hresult : (c silent).1 with
  | error e =>
    rw [hresult] at hb
    cases hb
  | ok v =>
    rw [hresult] at hb
    injection hb with hb
    rw [← hb, Binding.Deterministic]
    trivial

lemma map_anonymous_run (c : Sampler Binding) (s : Source) :
    (Binding.anonymous <$> c) s = ((c s).1.map Binding.anonymous, (c s).2) := by
  change (ExceptT.map Binding.anonymous c) s = _
  simp only [ExceptT.map, ExceptT.mk, Bind.bind, StateT.bind]
  cases c s with
  | mk r s' => cases r <;> rfl

/-- Binding comes to the same with and without identities, whatever the source. -/
lemma bindEach_anonymous (l : List (String × Sampler Binding)) (h : ∀ p ∈ l, Faithful p.2)
    {target : Frame} (htarget : target.Deterministic) (s : Source) :
    (bindEach (l.map anonymously) target.anonymous silent).failure = (bindEach l target s).failure ∧
      (bindEach (l.map anonymously) target.anonymous silent).target =
        (bindEach l target s).target.anonymous ∧ (bindEach l target s).target.Deterministic := by
  induction l generalizing target s with
  | nil => exact ⟨rfl, rfl, htarget⟩
  | cons p rest ih =>
    obtain ⟨name, c⟩ := p
    have hc : Faithful c := h _ List.mem_cons_self
    have hrest : ∀ p ∈ rest, Faithful p.2 := fun p hp => h p (List.mem_cons_of_mem _ hp)
    rw [List.map_cons, anonymously]
    simp only [bindEach, map_anonymous_run]
    rw [hc.drawsNothing s, hc.drawsNothing silent]
    have hreturned := hc.returned
    cases hresult : (c silent).1 with
    | error e => exact ⟨rfl, rfl, htarget⟩
    | ok b =>
      have hnext := ih hrest (Frame.bind_deterministic htarget name (hreturned b hresult)) s
      rw [Frame.bind_anonymous] at hnext
      exact hnext

section Bindings

variable {f context target : Frame} {usages : List VariableUsage}

lemma bindingsOf_anonymous (usages : List VariableUsage) (context : Frame) :
    bindingsOf usages context.anonymous = (bindingsOf usages context).map anonymously := by
  have hone : ∀ (u : VariableUsage) (c : Characterisation),
      u.bindingOf context.anonymous c = Binding.anonymous <$> u.bindingOf context c := by
    intro u c
    simp only [VariableUsage.bindingOf]
    split_ifs
    · rw [map_pure, Binding.anonymous]
    · rw [Frame.scope_anonymous, map_bind]
      simp only [map_pure, Binding.anonymous]
  simp only [bindingsOf, List.map_flatMap, List.map_map, Function.comp_def, anonymously, hone]

lemma bindingsOf_faithful (hcontext : context.Deterministic)
    (husages : ∀ u ∈ usages, u.isDeterministic = true) :
    ∀ p ∈ bindingsOf usages context, Faithful p.2 := by
  intro p hp
  simp only [bindingsOf, List.mem_flatMap, List.mem_map] at hp
  obtain ⟨u, hu, c, hc, rfl⟩ := hp
  have hspec : c.specification.isDeterministic = true :=
    List.all_eq_true.mp (husages u hu) c hc
  have hscope := Frame.scope_deterministic context hcontext
  simp only [VariableUsage.bindingOf]
  split_ifs
  · refine ⟨.pure _, fun b hb => ?_⟩
    injection hb with hb
    rw [← hb, Binding.Deterministic]
    exact ⟨hspec, hcontext⟩
  · exact faithful_value (Specification.evaluate_drawsNothing hscope hspec _)

lemma innerBindings_anonymous (f : Frame) (stem : String) :
    innerBindings f.anonymous stem = (innerBindings f stem).map anonymously := by
  rw [innerBindings, innerBindings, Frame.contents_anonymous, anonymousAll, List.filterMap_map,
    List.map_filterMap]
  congr 1
  funext p
  obtain ⟨name, b⟩ := p
  simp only [Function.comp_def]
  split_ifs
  · cases b with
    | value v =>
      simp only [Binding.anonymous]
      rfl
    | late specification origin =>
      simp only [Binding.anonymous, Frame.scope_anonymous, Option.map_some, anonymously, map_bind,
        map_pure]
  · rfl

lemma innerBindings_faithful (h : f.Deterministic) (stem : String) :
    ∀ p ∈ innerBindings f stem, Faithful p.2 := by
  intro p hp
  rw [innerBindings, List.mem_filterMap] at hp
  obtain ⟨⟨name, b⟩, hb, hp⟩ := hp
  have hdeterministic := Frame.contents_deterministic h _ hb
  dsimp only at hp hdeterministic
  split_ifs at hp
  cases b with
  | value v => cases hp
  | late specification origin =>
    injection hp with hp
    subst hp
    rw [Binding.Deterministic] at hdeterministic
    exact faithful_value (Specification.evaluate_drawsNothing
      (Frame.scope_deterministic origin hdeterministic.2) hdeterministic.1 _)

/-- **Binding without chance.**  It comes to the same with and without identities, whatever the
source, and leaves a deterministic frame. -/
lemma bindUsages_anonymous (husages : ∀ u ∈ usages, u.isDeterministic = true)
    (hcontext : context.Deterministic) (htarget : target.Deterministic) (s : Source) :
    (bindUsages usages context.anonymous target.anonymous silent).failure =
        (bindUsages usages context target s).failure ∧
      (bindUsages usages context.anonymous target.anonymous silent).target =
        (bindUsages usages context target s).target.anonymous ∧
      (bindUsages usages context target s).target.Deterministic := by
  rw [bindUsages, bindUsages, bindingsOf_anonymous]
  exact bindEach_anonymous _ (bindingsOf_faithful hcontext husages) htarget s

/-- Resolving without chance. -/
lemma resolveInner_anonymous (h : f.Deterministic) (htarget : target.Deterministic) (stem : String)
    (s : Source) :
    (resolveInner f.anonymous stem target.anonymous silent).failure =
        (resolveInner f stem target s).failure ∧
      (resolveInner f.anonymous stem target.anonymous silent).target =
        (resolveInner f stem target s).target.anonymous ∧
      (resolveInner f stem target s).target.Deterministic := by
  rw [resolveInner, resolveInner, innerBindings_anonymous]
  exact bindEach_anonymous _ (innerBindings_faithful h stem) htarget s

end Bindings

end ServiceSim
