import ServiceSim.Proofs.Evaluation.Resolution

/-!
# Shadowing

What a frame shows under a name is found in two ways.  `Frame.get?` goes outwards from the frame and
stops at the first layer that binds the name; expressions read their variables so.  `Frame.contents`
begins with the outermost layer, and every layer overwrites what those outside it have bound; the
elements of a collection are sampled from it.

* `Frame.Shows` says what is visible without looking anything up: a frame shows what it binds itself,
  and what its parent shows under the names it does not bind.
* `Frame.Rebound` says what binding a name changes, whichever way one looks: this name and no other.
* `Frame.Made` says which frames there are.  They are those whose layers are in order
  (`made_iff_ordered`), with each name bound at most once in a layer.

`views_agree` is the result.
-/

namespace ServiceSim

/-- A frame that comes about by opening frames inside others and binding names. -/
inductive Frame.Made : Frame → Prop
  | empty (identity : FrameId) : Made (.empty identity)
  | inside {parent : Frame} (h : Made parent) (identity : FrameId) : Made (parent.inside identity)
  | bind {f : Frame} (h : Made f) (name : String) (b : Binding) : Made (f.bind name b)

/-- A binding is visible under a name: the frame binds the name to it, or leaves the name to its parent,
where the binding is visible. -/
inductive Frame.Shows : Frame → String → Binding → Prop
  | own {f : Frame} {name : String} {b : Binding} (bound : (name, b) ∈ f.own) : Shows f name b
  | inherited {f parent : Frame} {name : String} {b : Binding} (hparent : f.parent = some parent)
      (free : ∀ c, (name, c) ∉ f.own) (shown : Shows parent name b) : Shows f name b

/-- A frame has become another one by binding a name.  Looking names up and listing all that is visible
both show the new binding, and under every other name what they showed before. -/
structure Frame.Rebound (f : Frame) (name : String) (b : Binding) (g : Frame) : Prop where
  found : g.get? name = some b
  listed : ∀ c, (name, c) ∈ g.contents ↔ c = b
  others_found : ∀ other, other ≠ name → g.get? other = f.get? other
  others_listed : ∀ other, other ≠ name → ∀ c, (other, c) ∈ g.contents ↔ (other, c) ∈ f.contents

/-- What an ordered map and a fallback bind to a name: a pair of the map comes first. -/
lemma NameMap.Ascending.lookup_or_eq_some_iff {α : Type} {m : NameMap α} (h : m.Ascending)
    (name : String) (fallback : Option α) (a : α) :
    (m.lookup name).or fallback = some a ↔
      (name, a) ∈ m ∨ (∀ b, (name, b) ∉ m) ∧ fallback = some a := by
  have hfree : m.lookup name = none ↔ ∀ b, (name, b) ∉ m := by
    rw [Option.eq_none_iff_forall_ne_some]
    exact forall_congr' fun b => not_congr h.lookup_eq_some_iff
  rw [Option.or_eq_some_iff, h.lookup_eq_some_iff, hfree]

namespace Frame

variable {f : Frame} {name : String} {b : Binding}

/-! ## Frames that are made -/

/-- A layer in order is made by binding its names one after another.  The induction is over the names
that are still to be bound: they are greater than those bound so far, so each is bound last. -/
lemma Made.layer {identity : FrameId} {parent : Option Frame} {bound own : NameMap Binding}
    (h : (Frame.mk identity bound parent).Made) (hascending : NameMap.Ascending (bound ++ own)) :
    (Frame.mk identity (bound ++ own) parent).Made := by
  induction own generalizing bound with
  | nil => rwa [List.append_nil]
  | cons p rest ih =>
    have hlast : ∀ q ∈ bound, q.1 < p.1 :=
      fun q hq => (List.pairwise_append.mp hascending).2.2 q hq p List.mem_cons_self
    have hnext := h.bind p.1 p.2
    rw [Frame.bind, NameMap.insert_last hlast] at hnext
    rw [List.append_cons] at hascending ⊢
    exact ih hnext hascending

/-- **Which frames there are.**  Those that are made are those whose layers are in order. -/
lemma made_iff_ordered : f.Made ↔ f.Ordered := by
  constructor
  · intro h
    induction h with
    | empty identity => exact empty_ordered identity
    | inside _ identity ih => exact ih.inside identity
    | bind _ name b ih => exact ih.bind name b
  · intro h
    induction f using chain_induction with
    | outermost identity own =>
      rw [ordered_outermost] at h
      exact (Made.empty identity).layer h
    | inside identity own parent ih =>
      rw [ordered_layer] at h
      exact ((ih h.2).inside identity).layer h.1

/-! ## What is visible -/

lemma shows_outermost (identity : FrameId) (own : NameMap Binding) :
    (Frame.mk identity own none).Shows name b ↔ (name, b) ∈ own := by
  constructor
  · rintro (bound | ⟨hparent, -, -⟩)
    · exact bound
    · cases hparent
  · exact fun bound => .own bound

lemma shows_layer (identity : FrameId) (own : NameMap Binding) (parent : Frame) :
    (Frame.mk identity own (some parent)).Shows name b ↔
      (name, b) ∈ own ∨ (∀ c, (name, c) ∉ own) ∧ parent.Shows name b := by
  constructor
  · rintro (bound | ⟨hparent, free, shown⟩)
    · exact .inl bound
    · cases hparent
      exact .inr ⟨free, shown⟩
  · rintro (bound | ⟨free, shown⟩)
    · exact .own bound
    · exact .inherited rfl free shown

/-- Looking a name up finds what is visible under it. -/
lemma Ordered.get?_eq_some_iff (h : f.Ordered) : f.get? name = some b ↔ f.Shows name b := by
  induction f using chain_induction with
  | outermost identity own =>
    rw [ordered_outermost] at h
    rw [get?_outermost, shows_outermost, h.lookup_eq_some_iff]
  | inside identity own parent ih =>
    rw [ordered_layer] at h
    rw [get?_layer, shows_layer, h.1.lookup_or_eq_some_iff, ih h.2]

/-- Binding a name changes what is visible under it and under no other name. -/
lemma Ordered.rebound (h : f.Ordered) (name : String) (b : Binding) :
    f.Rebound name b (f.bind name b) := by
  have hfound : (f.bind name b).get? name = some b := by rw [get?_bind, if_pos rfl]
  have hothers : ∀ other, other ≠ name → (f.bind name b).get? other = f.get? other := by
    intro other hother
    rw [get?_bind, if_neg hother]
  refine ⟨hfound, fun c => ?_, hothers, fun other hother c => ?_⟩
  · rw [(h.bind name b).mem_contents, hfound, Option.some.injEq, eq_comm]
  · rw [(h.bind name b).mem_contents, hothers other hother, h.mem_contents]

end Frame

/-- **Two views of a frame.**  All that is visible in a frame is listed in the order of the names, each
name once and with the binding that looking it up finds; this is the innermost one, and it is what an
expression reads.  Binding a name changes both views alike, and at no other name. -/
theorem views_agree {f : Frame} (hf : f.Made) :
    f.contents.Ascending ∧
    (∀ name b, (name, b) ∈ f.contents ↔ f.get? name = some b) ∧
    (∀ name b, f.get? name = some b ↔ f.Shows name b) ∧
    (∀ name, f.scope name = (f.contents.lookup name).map Binding.read) ∧
    (∀ name b, f.Rebound name b (f.bind name b)) ∧
    (∀ name v, f.Rebound name (.value v) (f.set name v)) := by
  have hordered : f.Ordered := Frame.made_iff_ordered.mp hf
  refine ⟨f.contents_ascending, fun name b => hordered.mem_contents,
    fun name b => hordered.get?_eq_some_iff, fun name => ?_, fun name b => hordered.rebound name b,
    fun name v => hordered.rebound name (.value v)⟩
  rw [hordered.lookup_contents, Frame.scope_eq]

/-- Four frames inside one another, of which the outermost binds `a`, `b` and `c`, the next one `a`, the
third nothing and the innermost `a` once more, and `c` late. -/
theorem views_agree_shadowing :
    ∃ (f outermost : Frame) (die : Specification), f.Made ∧
      f.layers.map (·.map (·.1)) = [["a", "c"], [], ["a"], ["a", "b", "c"]] ∧
      f.contents.map (·.1) = ["a", "b", "c"] ∧
      ("a", .value (.int 100)) ∈ f.contents ∧ f.Shows "a" (.value (.int 100)) ∧
      ("b", .value (.int 2)) ∈ f.contents ∧ f.Shows "b" (.value (.int 2)) ∧
      ("c", .late die outermost) ∈ f.contents ∧ f.Shows "c" (.late die outermost) ∧
      f.Rebound "b" (.late die f) (f.bind "b" (.late die f)) ∧
      f.Rebound "c" (.value (.int 4)) (f.set "c" (.int 4)) := by
  let die : Specification := ⟨"", .call "UniInt" [.literal (.int 1), .literal (.int 6)]⟩
  let outermost : Frame :=
    (Frame.empty 0).set "c" (.int 3) |>.set "a" (.int 1) |>.set "b" (.int 2)
  let second : Frame := (outermost.inside 1).set "a" (.int 10)
  let f : Frame := ((second.inside 2).inside 3).bind "c" (.late die outermost) |>.set "a" (.int 100)
  have hmade : f.Made := by
    have houtermost : outermost.Made := (((Frame.Made.empty 0).bind _ _).bind _ _).bind _ _
    have hsecond : second.Made := (houtermost.inside 1).bind _ _
    exact (((hsecond.inside 2).inside 3).bind _ _).bind _ _
  obtain ⟨-, listed, shown, -, bound, set⟩ := views_agree hmade
  have ha : f.get? "a" = some (.value (.int 100)) := rfl
  have hb : f.get? "b" = some (.value (.int 2)) := rfl
  have hc : f.get? "c" = some (.late die outermost) := rfl
  exact ⟨f, outermost, die, hmade, by decide +kernel, by decide +kernel,
    (listed _ _).mpr ha, (shown _ _).mp ha, (listed _ _).mpr hb, (shown _ _).mp hb,
    (listed _ _).mpr hc, (shown _ _).mp hc, bound _ _, set _ _⟩

end ServiceSim
