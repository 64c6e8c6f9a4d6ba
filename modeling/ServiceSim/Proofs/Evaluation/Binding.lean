import ServiceSim.Proofs.Evaluation.Resolution

/-!
# Binding all at once

Usages are bound one characterisation after another, yet they read as if all were bound at once: each
of them is evaluated in the context, which binding does not touch, so none sees what those before it
have bound in the target.

* `Bound` says what the characterisations come to in a context, `BoundUntil` what they come to if one of
  them fails.  Neither knows a target.  A late binding keeps the context as its origin and draws nothing;
  a value is evaluated from the source that the characterisations before it have left.
* `Frame.Gains` says what a frame shows when names have been bound in it.  Of several bindings of one
  name the last one counts, and the rest of the frame stays as it is.
* `nameOf_eq_iff` says when two characterisations compete for a name: a property has no dot in its name,
  so the last dot of a bound name separates the reference from the property.

`usages_bind_at_once` is the result, also for usages of which one fails to evaluate.
-/

namespace ServiceSim

/-! ## What usages come to -/

/-- The characterisations of usages, in the order of their declaration. -/
def declared (usages : List VariableUsage) : List (VariableUsage × Characterisation) :=
  usages.flatMap fun u => u.characterisations.map fun c => (u, c)

/-- What a characterisation of a usage is bound to in a context, and which source that leaves. -/
inductive VariableUsage.Yields (u : VariableUsage) (c : Characterisation) (context : Frame) :
    Source → Binding → Source → Prop
  /-- The elements of a collection are characterised late, in the context as it is now. -/
  | late (inner : u.isInner = true) (s : Source) :
      Yields u c context s (.late c.specification context) s
  /-- Everything else is evaluated in the context. -/
  | value (plain : u.isInner = false) {s s' : Source} {value : Value}
      (evaluates : c.specification.evaluate context.scope .any s = (.ok value, s')) :
      Yields u c context s (.value value) s'

/-- What characterisations are bound to in a context, one after another. -/
inductive Bound (context : Frame) :
    Source → List (VariableUsage × Characterisation) → List (String × Binding) → Source → Prop
  | nil (s : Source) : Bound context s [] [] s
  | cons {u : VariableUsage} {c : Characterisation} {b : Binding} {s s₁ s₂ : Source}
      {rest : List (VariableUsage × Characterisation)} {bound : List (String × Binding)}
      (first : u.Yields c context s b s₁) (others : Bound context s₁ rest bound s₂) :
      Bound context s ((u, c) :: rest) ((u.nameOf c, b) :: bound) s₂

/-- What characterisations are bound to in a context before one of them fails to evaluate.  Those after
it draw nothing. -/
def BoundUntil (context : Frame) (s : Source) (l : List (VariableUsage × Characterisation))
    (bound : List (String × Binding)) (e : EvalError) (s' : Source) : Prop :=
  ∃ before u c after s₁, l = before ++ (u, c) :: after ∧ Bound context s before bound s₁ ∧
    u.isInner = false ∧ c.specification.evaluate context.scope .any s₁ = (.error e, s')

/-- A frame has become another one by names that were bound in it, in this order. -/
structure Frame.Gains (f : Frame) (bound : List (String × Binding)) (g : Frame) : Prop where
  identity : g.identity = f.identity
  parent : g.parent = f.parent
  /-- Of several bindings of one name, the last one counts. -/
  last : ∀ earlier name b later, bound = earlier ++ (name, b) :: later →
    name ∉ later.map (·.1) → g.own.lookup name = some b
  /-- All other names are bound as before, or still not. -/
  others : ∀ name, name ∉ bound.map (·.1) → g.own.lookup name = f.own.lookup name
  /-- The names stay in order. -/
  ascending : NameMap.Ascending f.own → NameMap.Ascending g.own

/-- What came of binding in a target: the names that have been bound, and the error, if any. -/
structure BindOutcome.Comprises (o : BindOutcome) (target : Frame) (bound : List (String × Binding))
    (failure : Option EvalError) (s : Source) : Prop where
  gains : target.Gains bound o.target
  failure : o.failure = failure
  source : o.source = s
  names : o.names = bound.map (·.1)

/-! ## Gaining bindings -/

namespace Frame

variable {f g : Frame} {name : String} {b : Binding} {bound : List (String × Binding)}

lemma gains_nothing (f : Frame) : f.Gains [] f := by
  refine ⟨rfl, rfl, fun earlier name b later h => ?_, fun _ _ => rfl, fun h => h⟩
  exact absurd h.symm (List.append_ne_nil_of_right_ne_nil _ (List.cons_ne_nil _ _))

/-- Binding a name before others. -/
lemma Gains.cons (h : (f.bind name b).Gains bound g) : f.Gains ((name, b) :: bound) g := by
  refine ⟨h.identity, h.parent, fun earlier other b' later hbound hlater => ?_, fun other hother => ?_,
    fun hf => h.ascending (hf.insert name b)⟩
  · cases earlier with
    | nil =>
      rw [List.nil_append, List.cons.injEq, Prod.mk.injEq] at hbound
      obtain ⟨⟨rfl, rfl⟩, rfl⟩ := hbound
      rw [h.others name hlater]
      exact NameMap.lookup_insert_self name b f.own
    | cons first earlier =>
      rw [List.cons_append, List.cons.injEq] at hbound
      exact h.last earlier other b' later hbound.2 hlater
  · rw [List.map_cons, List.mem_cons, not_or] at hother
    rw [h.others other hother.2]
    exact NameMap.lookup_insert_of_ne hother.1 b f.own

/-- Binding a list of names. -/
lemma gains_all (f : Frame) (bound : List (String × Binding)) :
    f.Gains bound (bound.foldl (fun f (name, binding) => f.bind name binding) f) := by
  induction bound generalizing f with
  | nil => exact f.gains_nothing
  | cons p rest ih => exact (ih (f.bind p.1 p.2)).cons

end Frame

/-! ## Binding one after another -/

lemma bindingsOf_declared (usages : List VariableUsage) (context : Frame) :
    bindingsOf usages context =
      (declared usages).map fun (u, c) => (u.nameOf c, u.bindingOf context c) := by
  rw [bindingsOf, declared, List.map_flatMap]
  simp only [List.map_map]
  rfl

/-- Binding a characterisation yields a binding, or its evaluation fails. -/
lemma bindingOf_run (u : VariableUsage) (c : Characterisation) (context : Frame) (s : Source) :
    (∃ b s', u.bindingOf context c s = (.ok b, s') ∧ u.Yields c context s b s') ∨
      ∃ e s', u.bindingOf context c s = (.error e, s') ∧ u.isInner = false ∧
        c.specification.evaluate context.scope .any s = (.error e, s') := by
  cases hinner : u.isInner with
  | true =>
    refine .inl ⟨.late c.specification context, s, ?_, .late hinner s⟩
    rw [VariableUsage.bindingOf, if_pos hinner]
    rfl
  | false =>
    have hrun : u.bindingOf context c s = sampleOf c.specification context s := by
      rw [VariableUsage.bindingOf, if_neg (by rw [hinner]; exact Bool.false_ne_true), sampleOf]
    rw [hrun, sampleOf_run]
    cases hevaluates : c.specification.evaluate context.scope .any s with
    | mk result s' =>
      cases result with
      | error e => exact .inr ⟨e, s', rfl, rfl, rfl⟩
      | ok v => exact .inl ⟨.value v, s', rfl, .value hinner hevaluates⟩

/-- Binding characterisations until there is none left or one fails.  The induction is over those that
are still to be bound; what has been bound so far is in the target alone, which they do not see. -/
lemma bindEach_declared (context : Frame) (l : List (VariableUsage × Characterisation)) (s : Source) :
    (∃ bound s', Bound context s l bound s' ∧ ∀ target,
      (bindEach (l.map fun (u, c) => (u.nameOf c, u.bindingOf context c)) target s).Comprises target
        bound none s') ∨
    ∃ bound e s', BoundUntil context s l bound e s' ∧ ∀ target,
      (bindEach (l.map fun (u, c) => (u.nameOf c, u.bindingOf context c)) target s).Comprises target
        bound (some e) s' := by
  induction l generalizing s with
  | nil =>
    exact .inl ⟨[], s, .nil s, fun target => ⟨target.gains_nothing, rfl, rfl, rfl⟩⟩
  | cons p rest ih =>
    obtain ⟨u, c⟩ := p
    simp only [List.map_cons, bindEach]
    rcases bindingOf_run u c context s with ⟨b, s₁, hrun, hyields⟩ | ⟨e, s', hrun, hplain, hfails⟩
    · rw [hrun]
      dsimp only
      rcases ih s₁ with ⟨bound, s', hbound, hall⟩ | ⟨bound, e, s', huntil, hall⟩
      · refine .inl ⟨_, s', .cons hyields hbound, fun target => ?_⟩
        have h := hall (target.bind (u.nameOf c) b)
        exact ⟨h.gains.cons, h.failure, h.source, congrArg (u.nameOf c :: ·) h.names⟩
      · obtain ⟨before, v, d, after, s₂, rfl, hbound, hplain, hfails⟩ := huntil
        refine .inr ⟨_, e, s', ⟨(u, c) :: before, v, d, after, s₂, rfl, .cons hyields hbound, hplain,
          hfails⟩, fun target => ?_⟩
        have h := hall (target.bind (u.nameOf c) b)
        exact ⟨h.gains.cons, h.failure, h.source, congrArg (u.nameOf c :: ·) h.names⟩
    · rw [hrun]
      exact .inr ⟨[], e, s', ⟨[], u, c, rest, s, rfl, .nil s, hplain, hfails⟩,
        fun target => ⟨target.gains_nothing, rfl, rfl, rfl⟩⟩

/-- **What binding usages comes to**, in whatever target: all characterisations are bound, or those
before one that fails. -/
lemma bindUsages_comprises (usages : List VariableUsage) (context : Frame) (s : Source) :
    (∃ bound s', Bound context s (declared usages) bound s' ∧ ∀ target,
      (bindUsages usages context target s).Comprises target bound none s') ∨
    ∃ bound e s', BoundUntil context s (declared usages) bound e s' ∧ ∀ target,
      (bindUsages usages context target s).Comprises target bound (some e) s' := by
  simp only [bindUsages, bindingsOf_declared]
  exact bindEach_declared context (declared usages) s

/-! ## Names -/

/-- What follows the last dot. -/
lemma lastPart_append {cs : List Char} (reference : List Char) (h : '.' ∉ cs) :
    VariableUsage.lastPart (reference ++ '.' :: cs) = cs := by
  have hword : ∀ c ∈ cs.reverse, (c != '.') = true := by
    intro c hc
    exact bne_iff_ne.mpr fun heq => h (heq ▸ List.mem_reverse.mp hc)
  rw [VariableUsage.lastPart, List.reverse_append, List.reverse_cons, List.append_assoc,
    List.takeWhile_append_of_pos hword, List.singleton_append,
    List.takeWhile_cons_of_neg (by decide), List.append_nil, List.reverse_reverse]

lemma CharacterisationKind.name_dotless (kind : CharacterisationKind) : '.' ∉ kind.name.toList := by
  cases kind <;> decide

lemma CharacterisationKind.name_injective {kind kind' : CharacterisationKind}
    (h : kind.name.toList = kind'.name.toList) : kind = kind' := by
  cases kind <;> cases kind' <;> first | rfl | exact absurd h (by decide)

/-- **Who competes for a name**: characterisations of one reference by one property. -/
lemma nameOf_eq_iff (u v : VariableUsage) (c d : Characterisation) :
    u.nameOf c = v.nameOf d ↔ u.reference = v.reference ∧ c.kind = d.kind := by
  have htoList : ∀ (u : VariableUsage) (c : Characterisation),
      (u.nameOf c).toList = u.reference.toList ++ '.' :: c.kind.name.toList := by
    intro u c
    rw [VariableUsage.nameOf, String.toList_append, String.toList_append, List.append_assoc]
    rfl
  constructor
  · intro h
    have hlist := congrArg String.toList h
    rw [htoList, htoList] at hlist
    have hkind := congrArg VariableUsage.lastPart hlist
    rw [lastPart_append _ c.kind.name_dotless, lastPart_append _ d.kind.name_dotless] at hkind
    rw [hkind] at hlist
    exact ⟨String.toList_injective (List.append_cancel_right hlist),
      CharacterisationKind.name_injective hkind⟩
  · rintro ⟨hreference, hkind⟩
    rw [VariableUsage.nameOf, VariableUsage.nameOf, hreference, hkind]

/-- **Usages are bound at once.**  What the characterisations come to depends on the context and the
source, never on the target.  If none fails, the target gains all of them; of those that compete for a
name, which are the ones of the same reference and property, the last one is bound in the end, and
nothing else of the target changes.  If one fails, its error is returned, the target gains exactly those
before it, and the ones after it draw nothing. -/
theorem usages_bind_at_once (usages : List VariableUsage) (context : Frame) (s : Source) :
    ((∃ bound s', Bound context s (declared usages) bound s' ∧ ∀ target,
        (bindUsages usages context target s).Comprises target bound none s') ∨
      ∃ bound e s', BoundUntil context s (declared usages) bound e s' ∧ ∀ target,
        (bindUsages usages context target s).Comprises target bound (some e) s') ∧
    ∀ (u v : VariableUsage) (c d : Characterisation),
      u.nameOf c = v.nameOf d ↔ u.reference = v.reference ∧ c.kind = d.kind :=
  ⟨bindUsages_comprises usages context s, nameOf_eq_iff⟩

end ServiceSim
