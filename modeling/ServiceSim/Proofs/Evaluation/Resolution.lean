import ServiceSim.Proofs.Evaluation.Agreement

/-!
# One sample per element

A late binding is evaluated on every read, so two reads of it may differ.  The elements of a
collection are different from one another, but each of them is read as one thing.  Before the
actions of an element begin, `resolveInner` therefore samples the late bindings below the name of
the collection and binds the samples in the frame of the element.

* `IsLateBelow` says which names those are: the binding that is *visible* counts, so a late binding
  that a value shadows is not sampled, and a value that a late binding shadows does not protect it.
* `Sampled` says how the samples come about: one for each name, in order, each from the expression
  that the name is bound to and in the frame it was bound in, and each from the source that the ones
  before have left.
* `Settles` says what the frame of the element shows then.

`resolveInner_settles` is the result, for frames whose layers are in order (`Frame.Ordered`, which
every frame is that comes about by binding).
-/

namespace ServiceSim

/-- The names below a stem are bound late, and these are all of them, in ascending order. -/
structure IsLateBelow (f : Frame) (stem : String) (names : List String) : Prop where
  ascending : names.Pairwise (· < ·)
  mem_iff : ∀ name, name ∈ names ↔
    name.startsWith stem = true ∧ ∃ specification origin,
      f.get? name = some (.late specification origin)

/-- Samples of late bindings of a frame, drawn one after another. -/
inductive Sampled (f : Frame) : Source → List (String × Value) → Source → Prop
  | nil (s : Source) : Sampled f s [] s
  | cons {name : String} {specification : Specification} {origin : Frame} {s s₁ s₂ : Source}
      {value : Value} {rest : List (String × Value)}
      (visible : f.get? name = some (.late specification origin))
      (drawn : specification.evaluate origin.scope .any s = (.ok value, s₁))
      (others : Sampled f s₁ rest s₂) :
      Sampled f s ((name, value) :: rest) s₂

/-- A name is read as a value, however often: the source is left alone. -/
def Frame.Reads (f : Frame) (name : String) (value : Value) : Prop :=
  ∀ s, (Specification.variable_ name).evaluate f.scope .any s = (.ok value, s)

/-- What is bound by binding samples. -/
def settled (samples : List (String × Value)) : NameMap Binding :=
  samples.map fun sample => (sample.1, .value sample.2)

/-- A frame shows samples in place of the late bindings below a stem. -/
structure Settles (f : Frame) (stem : String) (samples : List (String × Value)) (element : Frame) :
    Prop where
  /-- It binds the samples and nothing else. -/
  own : element.own = settled samples
  parent : element.parent = some f
  /-- Nothing below the stem is evaluated late any more. -/
  none_late : ∀ name, name.startsWith stem = true → ∀ specification origin,
    element.get? name ≠ some (.late specification origin)
  /-- Each sample is what its name is read as. -/
  reads_sample : ∀ sample ∈ samples, element.Reads sample.1 sample.2
  /-- Every name below the stem that is bound at all is read as one value. -/
  reads : ∀ name, name.startsWith stem = true → f.contains name = true →
    ∃ value, element.Reads name value
  /-- Whatever has not been sampled shows as before. -/
  others : ∀ name, name ∉ samples.map (·.1) → element.get? name = f.get? name

/-! ## Names in order -/

namespace NameMap

variable {α : Type} {name : String} {a : α} {m : NameMap α}

/-- A name that is greater than all names of a map is inserted last. -/
lemma insert_last (h : ∀ p ∈ m, p.1 < name) (a : α) : insert name a m = m ++ [(name, a)] := by
  induction m with
  | nil => rfl
  | cons p rest ih =>
    obtain ⟨key, b⟩ := p
    have hkey : key < name := h _ List.mem_cons_self
    have hne : name ≠ key := (Std.ne_of_lt hkey).symm
    have hnlt : ¬ name < key := fun hlt => String.lt_irrefl _ (String.lt_trans hlt hkey)
    rw [insert, if_neg hne, if_neg hnlt, ih fun p hp => h p (List.mem_cons_of_mem _ hp)]
    rfl

/-- The pairs of an ordered map are those that looking up finds. -/
lemma Ascending.lookup_eq_some_iff (h : m.Ascending) : m.lookup name = some a ↔ (name, a) ∈ m := by
  induction m with
  | nil => simp
  | cons p rest ih =>
    obtain ⟨key, b⟩ := p
    obtain ⟨hkey, hrest⟩ := List.pairwise_cons.mp h
    have hbelow : ∀ c, (key, c) ∉ rest := fun c hmem => String.lt_irrefl _ (hkey (key, c) hmem)
    rw [List.lookup_cons, List.mem_cons, Prod.mk.injEq]
    by_cases hname : name = key
    · subst hname
      simp [hbelow, eq_comm]
    · simp [beq_false_of_ne hname, hname, ih hrest]

end NameMap

/-! ## The computations that resolving runs -/

/-- What is visible under a name is listed under it, and nothing else is. -/
lemma Frame.Ordered.mem_contents {f : Frame} (hf : f.Ordered) {name : String} {b : Binding} :
    (name, b) ∈ f.contents ↔ f.get? name = some b := by
  rw [← hf.lookup_contents, (Frame.contents_ascending f).lookup_eq_some_iff]

/-- The computation of a sample of a late binding. -/
def sampleOf (specification : Specification) (origin : Frame) : Sampler Binding := do
  let value ← specification.evaluate origin.scope .any
  return .value value

section

variable {f target : Frame} {stem : String} {s : Source}

/-- Resolving runs a computation for each late binding below the stem that is visible. -/
lemma mem_innerBindings (hf : f.Ordered) {p : String × Sampler Binding} :
    p ∈ innerBindings f stem ↔ p.1.startsWith stem = true ∧ ∃ specification origin,
      f.get? p.1 = some (.late specification origin) ∧ p.2 = sampleOf specification origin := by
  obtain ⟨name, c⟩ := p
  simp only [innerBindings, List.mem_filterMap, Prod.exists, hf.mem_contents]
  constructor
  · rintro ⟨key, binding, hkey, h⟩
    split_ifs at h with hstem
    cases binding with
    | value v => cases h
    | late specification origin =>
      injection h with h
      injection h with hname hc
      subst hname hc
      exact ⟨hstem, specification, origin, hkey, rfl⟩
  · rintro ⟨hstem, specification, origin, hlate, rfl⟩
    refine ⟨name, .late specification origin, hlate, ?_⟩
    rw [if_pos hstem]
    rfl

/-- It runs them in ascending order of the names. -/
lemma innerBindings_ascending (f : Frame) (stem : String) :
    ((innerBindings f stem).map (·.1)).Pairwise (· < ·) := by
  rw [List.pairwise_map, innerBindings, List.pairwise_filterMap]
  refine (Frame.contents_ascending f).imp ?_
  rintro ⟨name, binding⟩ ⟨other, binding'⟩ hlt c hc d hd
  dsimp only at hc hd
  split_ifs at hc hd
  cases binding with
  | value v => cases hc
  | late specification origin =>
    cases binding' with
    | value v => cases hd
    | late specification' origin' =>
      cases hc
      cases hd
      exact hlt

/-- The names that are sampled. -/
lemma innerBindings_names (hf : f.Ordered) (stem : String) :
    IsLateBelow f stem ((innerBindings f stem).map (·.1)) := by
  refine ⟨innerBindings_ascending f stem, fun name => ?_⟩
  simp only [List.mem_map, mem_innerBindings hf]
  constructor
  · rintro ⟨p, ⟨hstem, specification, origin, hlate, -⟩, rfl⟩
    exact ⟨hstem, specification, origin, hlate⟩
  · rintro ⟨hstem, specification, origin, hlate⟩
    exact ⟨(name, sampleOf specification origin), ⟨hstem, specification, origin, hlate, rfl⟩, rfl⟩

lemma sampleOf_run (specification : Specification) (origin : Frame) (s : Source) :
    sampleOf specification origin s =
      match specification.evaluate origin.scope .any s with
      | (.ok v, s) => (.ok (.value v), s)
      | (.error e, s) => (.error e, s) := by
  rw [sampleOf, bind_run]
  cases specification.evaluate origin.scope .any s with
  | mk result s' => cases result <;> rfl

lemma Frame.own_append_nothing (f : Frame) : { f with own := f.own ++ settled [] } = f := by
  obtain ⟨identity, own, parent⟩ := f
  rw [settled, List.map_nil, List.append_nil]

/-- Binding one sample after another, until there is none left or one fails.  The induction is over
the names that are still to be sampled; those bound so far are all smaller, so each new one is bound
last. -/
lemma bindEach_samples (l : List (String × Sampler Binding))
    (hlate : ∀ p ∈ l, ∃ specification origin,
      f.get? p.1 = some (.late specification origin) ∧ p.2 = sampleOf specification origin)
    (hascending : (l.map (·.1)).Pairwise (· < ·))
    (hbound : ∀ b ∈ target.own, ∀ p ∈ l, b.1 < p.1) (s : Source) :
    ∃ samples s₁, Sampled f s samples s₁ ∧
      (bindEach l target s).target = { target with own := target.own ++ settled samples } ∧
      ((bindEach l target s).failure = none ∧ samples.map (·.1) = l.map (·.1) ∧
          (bindEach l target s).source = s₁ ∨
        ∃ e name rest specification origin, (bindEach l target s).failure = some e ∧
          l.map (·.1) = samples.map (·.1) ++ name :: rest ∧
          f.get? name = some (.late specification origin) ∧
          specification.evaluate origin.scope .any s₁ = (.error e, (bindEach l target s).source)) := by
  induction l generalizing target s with
  | nil =>
    refine ⟨[], s, .nil s, ?_, .inl ⟨rfl, rfl, rfl⟩⟩
    exact (Frame.own_append_nothing target).symm
  | cons p rest ih =>
    obtain ⟨name, c⟩ := p
    obtain ⟨specification, origin, hvisible, rfl⟩ := hlate _ List.mem_cons_self
    obtain ⟨hfirst, hrest⟩ := List.pairwise_cons.mp hascending
    simp only [bindEach, sampleOf_run]
    cases hdrawn : specification.evaluate origin.scope .any s with
    | mk result s' =>
      cases result with
      | error e =>
        refine ⟨[], s, .nil s, ?_,
          .inr ⟨e, name, rest.map (·.1), specification, origin, rfl, rfl, hvisible, hdrawn⟩⟩
        exact (Frame.own_append_nothing target).symm
      | ok v =>
        have hlast : target.bind name (.value v) =
            { target with own := target.own ++ [(name, .value v)] } := by
          rw [Frame.bind, NameMap.insert_last fun b hb => hbound b hb _ List.mem_cons_self]
        have hnext : ∀ b ∈ (target.bind name (.value v)).own, ∀ p ∈ rest, b.1 < p.1 := by
          rw [hlast]
          intro b hb p hp
          rcases List.mem_append.mp hb with hb | hb
          · exact hbound b hb p (List.mem_cons_of_mem _ hp)
          · rw [List.mem_singleton.mp hb]
            exact hfirst _ (List.mem_map_of_mem hp)
        obtain ⟨samples, s₁, hsampled, htarget, hend⟩ :=
          ih (fun p hp => hlate p (List.mem_cons_of_mem _ hp)) hrest hnext s'
        refine ⟨(name, v) :: samples, s₁, .cons hvisible hdrawn hsampled, ?_, ?_⟩
        · rw [htarget, hlast, settled, settled, List.map_cons]
          simp only [List.append_assoc, List.singleton_append]
        · rcases hend with ⟨hfailure, hnames, hsource⟩ | ⟨e, failing, others, spec, from_, hfailure,
            hnames, hvisible', hfails⟩
          · exact .inl ⟨hfailure, by rw [List.map_cons, List.map_cons, hnames], hsource⟩
          · exact .inr ⟨e, failing, others, spec, from_, hfailure,
              by rw [List.map_cons, List.map_cons, hnames, List.cons_append], hvisible', hfails⟩

end

/-! ## Reading what has been sampled -/

namespace Frame

variable {f : Frame} {name : String} {value : Value}

/-- A name that is bound to a value is read as it. -/
lemma reads_value (h : f.get? name = some (.value value)) : f.Reads name value := by
  intro s
  have hscope : f.scope name = some (pure value) := by
    rw [scope_eq, h]
    rfl
  rw [Specification.evaluate, bind_run, Specification.variable_, Tree.evaluate, hscope]
  rfl

/-- What holds of a frame without parent, and of a frame inside another whenever it holds of that one,
holds of every frame. -/
lemma chain_induction {motive : Frame → Prop}
    (outermost : ∀ identity own, motive ⟨identity, own, none⟩)
    (inside : ∀ identity own parent, motive parent → motive ⟨identity, own, some parent⟩) :
    ∀ f, motive f
  | ⟨identity, own, none⟩ => outermost identity own
  | ⟨identity, own, some parent⟩ =>
    inside identity own parent (chain_induction outermost inside parent)

lemma get?_outermost (identity : FrameId) (own : NameMap Binding) (name : String) :
    (Frame.mk identity own none).get? name = own.lookup name := by
  rw [get?, layers, layersOf, List.findSome?_cons]
  cases own.lookup name <;> rfl

lemma get?_layer (identity : FrameId) (own : NameMap Binding) (f : Frame) (name : String) :
    (Frame.mk identity own (some f)).get? name = (own.lookup name).or (f.get? name) := by
  rw [get?, layers, layersOf, List.findSome?_cons, get?]
  cases own.lookup name <;> rfl

end Frame

section

variable {f : Frame} {stem : String} {samples : List (String × Value)}

lemma lookup_settled (samples : List (String × Value)) (name : String) :
    (settled samples).lookup name = (samples.lookup name).map Binding.value := by
  induction samples with
  | nil => rfl
  | cons sample rest ih =>
    rw [settled, List.map_cons, List.lookup_cons, List.lookup_cons]
    cases name == sample.1
    · exact ih
    · rfl

/-- Each sample has been drawn from the expression that its name is bound to. -/
lemma Sampled.drawn {s s₁ : Source} (h : Sampled f s samples s₁) {name : String} {value : Value}
    (hmem : (name, value) ∈ samples) :
    ∃ specification origin s' s'', f.get? name = some (.late specification origin) ∧
      specification.evaluate origin.scope .any s' = (.ok value, s'') := by
  induction h with
  | nil => cases hmem
  | @cons first specification origin s s₁ s₂ drawnValue rest visible drawn _ ih =>
    rcases List.mem_cons.mp hmem with heq | hmem
    · cases heq
      exact ⟨specification, origin, s, s₁, visible, drawn⟩
    · exact ih hmem

/-- Every late binding below the stem has been sampled. -/
lemma Settles.sampled {element : Frame} (h : Settles f stem samples element) {name : String}
    (hstem : name.startsWith stem = true) {specification : Specification} {origin : Frame}
    (hlate : f.get? name = some (.late specification origin)) : ∃ value, (name, value) ∈ samples := by
  by_cases hname : name ∈ samples.map (·.1)
  · obtain ⟨⟨key, value⟩, hmem, rfl⟩ := List.mem_map.mp hname
    exact ⟨value, hmem⟩
  · exact absurd (h.others name hname ▸ hlate) (h.none_late name hstem specification origin)

/-- **What an element shows**, whose frame binds one sample for each late binding below the stem. -/
lemma settles (identity : FrameId) (h : IsLateBelow f stem (samples.map (·.1))) :
    Settles f stem samples ⟨identity, settled samples, some f⟩ := by
  have hascending : NameMap.Ascending samples := List.pairwise_map.mp h.ascending
  have hsample : ∀ sample ∈ samples,
      (Frame.mk identity (settled samples) (some f)).get? sample.1 = some (.value sample.2) := by
    intro sample hmem
    rw [Frame.get?_layer, lookup_settled, hascending.lookup_eq_some_iff.mpr hmem]
    rfl
  have hothers : ∀ name, name ∉ samples.map (·.1) →
      (Frame.mk identity (settled samples) (some f)).get? name = f.get? name := by
    intro name hname
    have hnone : samples.lookup name = none := by
      rw [List.lookup_eq_none_iff]
      intro sample hmem
      refine bne_iff_ne.mpr fun heq => hname ?_
      exact heq ▸ List.mem_map_of_mem hmem
    rw [Frame.get?_layer, lookup_settled, hnone]
    rfl
  have hvalue : ∀ name, name.startsWith stem = true → f.contains name = true →
      ∃ value, (Frame.mk identity (settled samples) (some f)).get? name = some (.value value) := by
    intro name hstem hbound
    by_cases hname : name ∈ samples.map (·.1)
    · obtain ⟨sample, hmem, rfl⟩ := List.mem_map.mp hname
      exact ⟨sample.2, hsample sample hmem⟩
    · rw [hothers name hname]
      obtain ⟨binding, hbinding⟩ := Option.isSome_iff_exists.mp hbound
      cases binding with
      | value v => exact ⟨v, hbinding⟩
      | late specification origin =>
        exact absurd ((h.mem_iff name).mpr ⟨hstem, specification, origin, hbinding⟩) hname
  refine ⟨rfl, rfl, fun name hstem specification origin hlate => ?_, fun sample hmem => ?_,
    fun name hstem hbound => ?_, hothers⟩
  · by_cases hname : name ∈ samples.map (·.1)
    · obtain ⟨sample, hmem, rfl⟩ := List.mem_map.mp hname
      rw [hsample sample hmem] at hlate
      cases hlate
    · rw [hothers name hname] at hlate
      exact hname ((h.mem_iff name).mpr ⟨hstem, specification, origin, hlate⟩)
  · exact Frame.reads_value (hsample sample hmem)
  · obtain ⟨value, hget⟩ := hvalue name hstem hbound
    exact ⟨value, Frame.reads_value hget⟩

end

/-- **One sample per element.**  Resolving samples the late bindings below a stem that a frame
shows, in the order of their names, in a new frame inside it.

If it succeeds, the frame binds one sample for each of them, and reading any name below the stem in
it gives the same value every time and draws nothing; all other names show as before.  If it fails,
a sample has failed, and the frame binds exactly the samples of the names before that one. -/
theorem resolveInner_settles {f : Frame} (hf : f.Ordered) (stem : String) (identity : FrameId)
    (s : Source) :
    ∃ names samples s₁, IsLateBelow f stem names ∧ Sampled f s samples s₁ ∧
      (resolveInner f stem (f.inside identity) s).target = ⟨identity, settled samples, some f⟩ ∧
      ((resolveInner f stem (f.inside identity) s).failure = none ∧
          (resolveInner f stem (f.inside identity) s).source = s₁ ∧
          samples.map (·.1) = names ∧
          Settles f stem samples (resolveInner f stem (f.inside identity) s).target ∨
        ∃ e name rest specification origin,
          (resolveInner f stem (f.inside identity) s).failure = some e ∧
          names = samples.map (·.1) ++ name :: rest ∧
          f.get? name = some (.late specification origin) ∧
          specification.evaluate origin.scope .any s₁ =
            (.error e, (resolveInner f stem (f.inside identity) s).source)) := by
  have hnames := innerBindings_names hf stem
  have hlate := fun p (hp : p ∈ innerBindings f stem) => ((mem_innerBindings hf).mp hp).2
  have hnothing : ∀ b ∈ (f.inside identity).own, ∀ p ∈ innerBindings f stem, b.1 < p.1 :=
    fun b hb => absurd hb List.not_mem_nil
  obtain ⟨samples, s₁, hsampled, htarget, hend⟩ :=
    bindEach_samples (innerBindings f stem) hlate hnames.ascending hnothing s
  have htarget : (resolveInner f stem (f.inside identity) s).target =
      ⟨identity, settled samples, some f⟩ := htarget
  refine ⟨_, samples, s₁, hnames, hsampled, htarget, ?_⟩
  rcases hend with ⟨hfailure, hall, hsource⟩ | hfails
  · refine .inl ⟨hfailure, hsource, hall, ?_⟩
    rw [htarget]
    exact settles identity (hall ▸ hnames)
  · exact .inr hfails

/-- A late binding that a value hides is not sampled, a late one that hides a value is. -/
theorem resolveInner_settles_shadowing :
    ∃ (f : Frame) (samples : List (String × Value)), f.Ordered ∧ f.Reads "c.A" (.int 1) ∧
      samples.map (·.1) = ["c.B", "c.C"] ∧
      Settles f "c." samples (resolveInner f "c." (f.inside 2) silent).target := by
  let die : Specification := ⟨"", .call "UniInt" [.literal (.int 1), .literal (.int 6)]⟩
  let outer : Frame := (Frame.empty 0).bind "c.A" (.late die (.empty 0)) |>.set "c.B" (.int 2)
  let f : Frame := (outer.inside 1).set "c.A" (.int 1) |>.bind "c.C" (.late die outer)
    |>.bind "c.B" (.late die outer) |>.bind "d.A" (.late die outer)
  have hordered : f.Ordered := by
    have houter : outer.Ordered := ((Frame.empty_ordered 0).bind _ _).bind _ _
    exact ((((houter.inside 1).bind _ _).bind _ _).bind _ _).bind _ _
  have hvisible : f.get? "c.A" = some (.value (.int 1)) := rfl
  obtain ⟨names, samples, s₁, -, -, htarget, ⟨-, -, -, hsettles⟩ | ⟨e, -, -, -, -, hfailure, -⟩⟩ :=
    resolveInner_settles hordered "c." 2 silent
  · refine ⟨f, samples, hordered, Frame.reads_value hvisible, ?_, hsettles⟩
    have hown : (resolveInner f "c." (f.inside 2) silent).target.own.map (·.1) = ["c.B", "c.C"] := by
      decide +kernel
    rw [hsettles.own, settled, List.map_map] at hown
    exact hown
  · have hsucceeds : (resolveInner f "c." (f.inside 2) silent).failure.isNone = true := by
      decide +kernel
    rw [hfailure] at hsucceeds
    cases hsucceeds

end ServiceSim
