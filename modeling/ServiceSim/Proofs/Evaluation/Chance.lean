import ServiceSim.Proofs.Evaluation.Frames

/-!
# Chance only where it is written

An evaluation reads its own expression and, through variables, the expressions that are bound late in
the frame, in the parents of the frame, in the frames where these were bound, and so on.  `Frame.Reaches`
follows these ways; a name that hides another does not matter to it.

If no expression on these ways contains a distribution, the frame is deterministic
(`Frame.deterministic_iff`), whichever of its variables are read, in which order and how often.
`chance_only_where_written` is the result: evaluating draws nothing then, and what comes out does not
depend on the random source.
-/

namespace ServiceSim

/-- A late binding that reading a frame may come to, through parents and origins. -/
inductive Frame.Reaches : Frame → Specification → Prop
  /-- It is made in the frame itself, -/
  | own {f origin : Frame} {name : String} {specification : Specification} :
      (name, .late specification origin) ∈ f.own → Reaches f specification
  /-- or it is reached from the frame in which a late binding was made, -/
  | origin {f origin : Frame} {name : String} {specification further : Specification} :
      (name, .late specification origin) ∈ f.own → Reaches origin further → Reaches f further
  /-- or from the parent. -/
  | parent {f g : Frame} {further : Specification} :
      f.parent = some g → Reaches g further → Reaches f further

mutual

/-- A binding is deterministic if its specification is, and whatever is reached from its origin. -/
lemma Binding.deterministic_of_reaches : ∀ b : Binding,
    (∀ specification origin, b = .late specification origin → specification.isDeterministic = true ∧
      ∀ further, origin.Reaches further → further.isDeterministic = true) → b.Deterministic
  | .value v, _ => by
    rw [Binding.Deterministic]
    trivial
  | .late specification origin, h => by
    obtain ⟨hspecification, horigin⟩ := h specification origin rfl
    rw [Binding.Deterministic]
    exact ⟨hspecification, Frame.deterministic_of_reaches origin horigin⟩

lemma Frame.deterministic_of_reaches : ∀ f : Frame,
    (∀ further, f.Reaches further → further.isDeterministic = true) → f.Deterministic
  | ⟨identity, own, parent⟩, h => by
    rw [Frame.Deterministic]
    refine ⟨Frame.ownDeterministic_of_reaches own fun name specification origin hmem => ?_,
      Frame.parentDeterministic_of_reaches parent fun g hg further hfurther => ?_⟩
    · exact ⟨h _ (.own hmem), fun further hfurther => h _ (.origin hmem hfurther)⟩
    · exact h _ (.parent hg hfurther)

lemma Frame.ownDeterministic_of_reaches : ∀ own : List (String × Binding),
    (∀ name specification origin, (name, .late specification origin) ∈ own →
      specification.isDeterministic = true ∧
        ∀ further, origin.Reaches further → further.isDeterministic = true) →
    Frame.OwnDeterministic own
  | [], _ => by
    rw [Frame.OwnDeterministic]
    trivial
  | pair :: rest, h => by
    rw [Frame.OwnDeterministic]
    refine ⟨Frame.pairDeterministic_of_reaches pair fun name specification origin hpair => ?_,
      Frame.ownDeterministic_of_reaches rest fun name specification origin hmem => ?_⟩
    · exact h name specification origin (hpair ▸ List.mem_cons_self)
    · exact h name specification origin (List.mem_cons_of_mem _ hmem)

lemma Frame.pairDeterministic_of_reaches : ∀ pair : String × Binding,
    (∀ name specification origin, pair = (name, .late specification origin) →
      specification.isDeterministic = true ∧
        ∀ further, origin.Reaches further → further.isDeterministic = true) →
    Frame.PairDeterministic pair
  | (name, binding), h => by
    rw [Frame.PairDeterministic]
    exact Binding.deterministic_of_reaches binding fun specification origin hb =>
      h name specification origin (hb ▸ rfl)

lemma Frame.parentDeterministic_of_reaches : ∀ parent : Option Frame,
    (∀ g, parent = some g → ∀ further, g.Reaches further → further.isDeterministic = true) →
    Frame.ParentDeterministic parent
  | none, _ => by
    rw [Frame.ParentDeterministic]
    trivial
  | some f, h => by
    rw [Frame.ParentDeterministic]
    exact Frame.deterministic_of_reaches f (h f rfl)

end

/-- **A frame is deterministic** if all that it reaches is. -/
lemma Frame.deterministic_iff (f : Frame) :
    f.Deterministic ↔ ∀ further, f.Reaches further → further.isDeterministic = true := by
  refine ⟨fun h further hreaches => ?_, f.deterministic_of_reaches⟩
  induction hreaches with
  | own hmem =>
    have hlate := Frame.own_deterministic h _ hmem
    rw [Binding.Deterministic] at hlate
    exact hlate.1
  | origin hmem _ ih =>
    have hlate := Frame.own_deterministic h _ hmem
    rw [Binding.Deterministic] at hlate
    exact ih hlate.2
  | @parent f g further hparent _ ih =>
    obtain ⟨identity, own, parent⟩ := f
    obtain rfl : parent = some g := hparent
    rw [Frame.Deterministic, Frame.ParentDeterministic] at h
    exact ih h.2

/-- **Chance enters only where it is written.**  An expression without a distribution is evaluated in a
frame from which no late binding with one is reached.  Then it comes to one result, a value or an error,
for every random source, and leaves the source as it was; so it does when it is evaluated as a value of
any type, as an integer, as a double or as a truth value. -/
theorem chance_only_where_written {specification : Specification} {f : Frame}
    (written : specification.isDeterministic = true)
    (reached : ∀ late, f.Reaches late → late.isDeterministic = true) :
    (∀ expected, ∃ r, ∀ s, specification.evaluate f.scope expected s = (r, s)) ∧
      (∃ r, ∀ s, specification.evaluateInteger f.scope s = (r, s)) ∧
      (∃ r, ∀ s, specification.evaluateDouble f.scope s = (r, s)) ∧
      ∃ r, ∀ s, specification.evaluateBool f.scope s = (r, s) := by
  have hscope := f.scope_deterministic (f.deterministic_iff.mpr reached)
  exact ⟨fun expected => ⟨_, Specification.evaluate_drawsNothing hscope written expected⟩,
    ⟨_, Specification.evaluateInteger_drawsNothing hscope written⟩,
    ⟨_, Specification.evaluateDouble_drawsNothing hscope written⟩,
    ⟨_, Specification.evaluateBool_drawsNothing hscope written⟩⟩

/-- A variable that the parent binds late, in a frame that again binds late what is read there. -/
theorem chance_only_where_written_nested :
    ∃ (specification late : Specification) (f : Frame), specification.isDeterministic = true ∧
      f.Reaches late ∧ (∀ late, f.Reaches late → late.isDeterministic = true) ∧
      (specification.evaluateInteger f.scope silent).1.toOption = some 7 ∧
      (∀ expected, ∃ r, ∀ s, specification.evaluate f.scope expected s = (r, s)) ∧
      (∃ r, ∀ s, specification.evaluateInteger f.scope s = (r, s)) ∧
      (∃ r, ∀ s, specification.evaluateDouble f.scope s = (r, s)) ∧
      ∃ r, ∀ s, specification.evaluateBool f.scope s = (r, s) := by
  let three : Specification := ⟨"3", .literal (.int 3)⟩
  let twice : Specification := ⟨"n * 2", .binary .mul (.variable "n") (.literal (.int 2))⟩
  let next : Specification := ⟨"m + 1", .binary .add (.variable "m") (.literal (.int 1))⟩
  let innermost : Frame := (Frame.empty 0).bind "n" (.late three (.empty 1))
  let parent : Frame := (Frame.empty 2).bind "m" (.late twice innermost)
  let f : Frame := parent.inside 3
  have hinnermost : innermost.Deterministic := by
    refine Frame.bind_deterministic (Frame.empty_deterministic 0) _ ?_
    rw [Binding.Deterministic]
    exact ⟨rfl, Frame.empty_deterministic 1⟩
  have hparent : parent.Deterministic := by
    refine Frame.bind_deterministic (Frame.empty_deterministic 2) _ ?_
    rw [Binding.Deterministic]
    exact ⟨rfl, hinnermost⟩
  have reached := f.deterministic_iff.mp (Frame.inside_deterministic hparent 3)
  have hreaches : f.Reaches three :=
    .parent rfl (.origin (List.mem_singleton.mpr rfl) (.own (List.mem_singleton.mpr rfl)))
  exact ⟨next, three, f, rfl, hreaches, reached, by decide +kernel,
    chance_only_where_written rfl reached⟩

end ServiceSim
