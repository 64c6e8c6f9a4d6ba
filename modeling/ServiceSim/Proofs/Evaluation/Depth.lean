import Mathlib.Algebra.GroupWithZero.Nat
import Mathlib.Algebra.Order.BigOperators.Group.Finset
import Mathlib.Algebra.Order.BigOperators.Group.List
import Mathlib.Algebra.Order.Monoid.NatCast
import Mathlib.Data.Set.Finite.Lattice
import ServiceSim.Proofs.Evaluation.Binding

/-!
# How deep evaluation goes

Reading a variable that is bound late evaluates its expression in another frame, which may bind further
variables late.  `Frame.scope` hides this: it says what all variables of a frame stand for, whether they
are read or not.  `Tree.evaluateWithin` looks up the variable that is read and goes on with its
expression, as often as there are such variables, but gives up when evaluations are nested too deeply.

It does not have to give up if it may go as deep as the expression and all late expressions within reach
are large (`evaluateWithin_eq`).  Each of these counts once, although a late expression may be evaluated
many times: evaluations of it are never nested.  For a late binding has been made in a frame that was
complete, so the frame that holds it is not within the reach of the frame it was made in
(`not_leads_back`).

`late_evaluation_ends` is the result, also for usages that read the name they are bound to.
-/

namespace ServiceSim

/-! ## Sizes -/

mutual

/-- The number of nodes of an expression. -/
def Tree.size : Tree → Nat
  | .literal _ => 1
  | .variable _ => 1
  | .unary _ operand => operand.size + 1
  | .binary _ left right => left.size + right.size + 1
  | .conditional condition yes no => condition.size + yes.size + no.size + 1
  | .call _ arguments => Tree.sizeAll arguments + 1
  | .pmf _ _ => 1
  | .pdf _ => 1

/-- The number of nodes of several expressions. -/
def Tree.sizeAll : List Tree → Nat
  | [] => 0
  | first :: rest => first.size + Tree.sizeAll rest

end

lemma Tree.size_pos (e : Tree) : 0 < e.size := by
  cases e <;> rw [Tree.size] <;> omega

lemma Tree.size_le_sizeAll {e : Tree} {l : List Tree} (h : e ∈ l) : e.size ≤ Tree.sizeAll l := by
  induction l with
  | nil => exact absurd h List.not_mem_nil
  | cons first rest ih =>
    rw [Tree.sizeAll]
    rcases List.mem_cons.mp h with rfl | h
    · omega
    · have := ih h
      omega

/-- The size of the expression of a late binding. -/
def Binding.lateSize : Binding → Nat
  | .value _ => 0
  | .late specification _ => specification.tree.size

/-- The size of all expressions that a frame itself binds late. -/
def Frame.lateSize (f : Frame) : Nat := (f.own.map fun p => p.2.lateSize).sum

lemma Frame.size_le_lateSize {f origin : Frame} {name : String} {specification : Specification}
    (h : (name, .late specification origin) ∈ f.own) : specification.tree.size ≤ f.lateSize :=
  List.le_sum_of_mem (List.mem_map_of_mem (f := fun p => p.2.lateSize) h)

/-! ## Frames within reach -/

/-- A frame that reading variables may come to, through parents and origins. -/
inductive Frame.Leads : Frame → Frame → Prop
  | self (f : Frame) : Leads f f
  | parent {f g h : Frame} : f.parent = some g → Leads g h → Leads f h
  | origin {f g h : Frame} {name : String} {specification : Specification} :
      (name, .late specification g) ∈ f.own → Leads g h → Leads f h

namespace Frame

variable {f g h : Frame} {name : String} {specification : Specification} {b : Binding}

lemma Leads.trans (hfg : f.Leads g) (hgh : g.Leads h) : f.Leads h := by
  induction hfg with
  | self f => exact hgh
  | parent hparent _ ih => exact .parent hparent (ih hgh)
  | origin hmem _ ih => exact .origin hmem (ih hgh)

lemma sizeOf_parent_lt (hparent : f.parent = some g) : sizeOf g < sizeOf f := by
  obtain ⟨identity, own, parent⟩ := f
  obtain rfl : parent = some g := hparent
  rw [Frame.mk.sizeOf_spec, Option.some.sizeOf_spec]
  omega

lemma sizeOf_origin_lt (hmem : (name, .late specification g) ∈ f.own) : sizeOf g < sizeOf f := by
  obtain ⟨identity, own, parent⟩ := f
  have hlt : sizeOf (name, Binding.late specification g) < sizeOf own := List.sizeOf_lt_of_mem hmem
  rw [Prod.mk.sizeOf_spec, Binding.late.sizeOf_spec] at hlt
  rw [Frame.mk.sizeOf_spec]
  omega

/-- Parents and origins were there first. -/
lemma Leads.sizeOf_le (h : f.Leads g) : sizeOf g ≤ sizeOf f := by
  induction h with
  | self f => exact le_refl _
  | parent hparent _ ih => exact ih.trans (sizeOf_parent_lt hparent).le
  | origin hmem _ ih => exact ih.trans (sizeOf_origin_lt hmem).le

/-- **There are no cycles**: the frame in which a late binding was made does not lead to the frame that
holds it. -/
lemma not_leads_back (hmem : (name, .late specification g) ∈ f.own) : ¬ g.Leads f :=
  fun hback => absurd hback.sizeOf_le (not_le.mpr (sizeOf_origin_lt hmem))

/-- Finitely many frames are within reach. -/
lemma leads_finite (f : Frame) : {h | f.Leads h}.Finite := by
  induction hn : sizeOf f using Nat.strongRecOn generalizing f with
  | ind n ih =>
    subst hn
    -- The frame itself, what its parent leads to, and what each origin leads to.
    have hparent : (⋃ g ∈ {g | f.parent = some g}, {h | g.Leads h}).Finite :=
      Set.Finite.biUnion
        (Set.Subsingleton.finite fun g hg g' hg' => Option.some.inj (hg.symm.trans hg'))
        fun g hg => ih _ (sizeOf_parent_lt hg) g rfl
    have horigins : (⋃ p ∈ {p | p ∈ f.own}, {h | ∃ specification g,
        p.2 = .late specification g ∧ g.Leads h}).Finite := by
      refine Set.Finite.biUnion (List.finite_toSet f.own) fun p hp => ?_
      obtain ⟨name, value | ⟨specification, g⟩⟩ := p
      · refine Set.finite_empty.subset ?_
        rintro h ⟨_, _, hvalue, -⟩
        cases hvalue
      · refine (ih _ (sizeOf_origin_lt hp) g rfl).subset ?_
        rintro h ⟨_, _, hlate, hh⟩
        cases hlate
        exact hh
    refine (((Set.finite_singleton f).union hparent).union horigins).subset ?_
    rintro h (hself | ⟨hg, hh⟩ | ⟨hmem, hh⟩)
    · exact .inl (.inl rfl)
    · exact .inl (.inr (Set.mem_biUnion hg hh))
    · exact .inr (Set.mem_biUnion hmem ⟨_, _, rfl, hh⟩)

/-- The frames within reach, each once. -/
noncomputable def within (f : Frame) : Finset Frame := f.leads_finite.toFinset

@[simp] lemma mem_within : g ∈ f.within ↔ f.Leads g := by
  rw [within, Set.Finite.mem_toFinset, Set.mem_ofPred_eq]

/-- What is visible is bound by a frame within reach. -/
lemma exists_layer (hvisible : f.get? name = some b) : ∃ g, f.Leads g ∧ (name, b) ∈ g.own := by
  induction f using chain_induction with
  | outermost identity own =>
    rw [get?_outermost] at hvisible
    exact ⟨_, .self _, NameMap.mem_of_lookup hvisible⟩
  | inside identity own parent ih =>
    rw [get?_layer, Option.or_eq_some_iff] at hvisible
    rcases hvisible with hown | ⟨-, hparent⟩
    · exact ⟨_, .self _, NameMap.mem_of_lookup hown⟩
    · obtain ⟨g, hleads, hmem⟩ := ih hparent
      exact ⟨g, .parent rfl hleads, hmem⟩

end Frame

/-! ## Evaluating to a depth -/

/-- A computation that may give up. -/
abbrev Limited (α : Type) := OptionT Sampler α

/-- A computation that does not give up. -/
def Limited.whole {α : Type} (c : Sampler α) : Limited α := OptionT.lift c

/-- The value of an expression in a frame, by evaluations that are nested at most so deeply.  A variable
that is bound late is an evaluation in the frame in which it was bound. -/
def Tree.evaluateWithin : (depth : Nat) → Frame → Tree → Limited Value
  | 0, _, _ => OptionT.fail
  | depth + 1, f, e =>
    match e with
    | .literal value => pure value
    | .variable name =>
      match f.get? name with
      | some (.value value) => pure value
      | some (.late specification origin) => specification.tree.evaluateWithin depth origin
      | none => Limited.whole (Sampler.ofExcept (.error (.unknownVariable name)))
    | .unary op operand => do
      let value ← operand.evaluateWithin depth f
      Limited.whole (Sampler.ofExcept (Operation.unary op value))
    | .binary op left right =>
      match op with
      | .and => do
        let l ← left.evaluateWithin depth f
        if ← Limited.whole (Sampler.ofExcept (Operation.truth BinaryOp.and.symbol l)) then
          let r ← right.evaluateWithin depth f
          Limited.whole do return .bool (← Sampler.ofExcept (Operation.truth BinaryOp.and.symbol r))
        else return .bool false
      | .or => do
        let l ← left.evaluateWithin depth f
        if ← Limited.whole (Sampler.ofExcept (Operation.truth BinaryOp.or.symbol l)) then
          return .bool true
        else
          let r ← right.evaluateWithin depth f
          Limited.whole do return .bool (← Sampler.ofExcept (Operation.truth BinaryOp.or.symbol r))
      | op => do
        let l ← left.evaluateWithin depth f
        let r ← right.evaluateWithin depth f
        Limited.whole (Sampler.ofExcept (Operation.binary op l r))
    | .conditional condition yes no => do
      let c ← condition.evaluateWithin depth f
      if ← Limited.whole (Sampler.ofExcept (Operation.truth "?:" c)) then
        yes.evaluateWithin depth f
      else no.evaluateWithin depth f
    | .call function arguments => do
      let values ← arguments.mapM fun argument => argument.evaluateWithin depth f
      Limited.whole (Function.call function values)
    | .pmf _ samples => Limited.whole (Sampler.mass samples)
    | .pdf intervals => Limited.whole (Sampler.density intervals)

namespace Limited

lemma whole_pure {α : Type} (a : α) : whole (pure a : Sampler α) = pure a := rfl

lemma whole_bind {α β : Type} (c : Sampler α) (k : α → Sampler β) :
    whole (c >>= k) = whole c >>= fun a => whole (k a) :=
  monadLift_bind (n := OptionT Sampler) c k

lemma whole_ite {α : Type} (p : Prop) [Decidable p] (c c' : Sampler α) :
    whole (if p then c else c') = if p then whole c else whole c' := apply_ite whole p c c'

end Limited

open Limited

lemma mapM_whole {scope : Scope} {f : Tree → Limited Value} (l : List Tree)
    (h : ∀ e ∈ l, f e = whole (e.evaluate scope)) :
    l.mapM f = whole (Tree.evaluateAll scope l) := by
  induction l with
  | nil => rw [List.mapM_nil, Tree.evaluateAll, whole_pure]
  | cons first rest ih =>
    rw [List.mapM_cons, Tree.evaluateAll, h first List.mem_cons_self,
      ih fun e he => h e (List.mem_cons_of_mem _ he)]
    simp only [whole_bind, whole_pure]

/-- **Evaluation stays within the size of what is in reach**, counting late expressions once for each
frame that binds them.  The induction is on the depth.  A variable that is bound late leads to a frame
that the one with the binding is out of reach of, so its share pays for the expression. -/
theorem evaluateWithin_eq {depth : Nat} {f : Frame} {frames : Finset Frame} {e : Tree}
    (hframes : ∀ g, f.Leads g → g ∈ frames)
    (hdepth : e.size + ∑ g ∈ frames, g.lateSize ≤ depth) :
    e.evaluateWithin depth f = whole (e.evaluate f.scope) := by
  induction depth generalizing f frames e with
  | zero => exact absurd e.size_pos (by omega)
  | succ depth ih =>
    have hpart : ∀ part : Tree, part.size < e.size →
        part.evaluateWithin depth f = whole (part.evaluate f.scope) :=
      fun part hpart => ih hframes (by omega)
    cases e with
    | literal value => rw [Tree.evaluateWithin, Tree.evaluate, whole_pure]
    | «variable» name =>
      rw [Tree.evaluateWithin, Tree.evaluate, Frame.scope_eq]
      cases hvisible : f.get? name with
      | none => rfl
      | some b =>
        cases b with
        | value value => rfl
        | late specification origin =>
          classical
          obtain ⟨g, hg, hmem⟩ := Frame.exists_layer hvisible
          have hsize := Frame.size_le_lateSize hmem
          have hsum := Finset.add_sum_erase frames Frame.lateSize (hframes g hg)
          rw [Tree.size] at hdepth
          have hrest : ∀ h, origin.Leads h → h ∈ frames.erase g := by
            intro h hh
            refine Finset.mem_erase.mpr ⟨?_, hframes h (hg.trans (.origin hmem hh))⟩
            rintro rfl
            exact Frame.not_leads_back hmem hh
          have hlate : specification.tree.evaluateWithin depth origin =
              whole (specification.tree.evaluate origin.scope) := ih hrest (by omega)
          simpa only [Option.map_some, Binding.read] using hlate
    | unary op operand =>
      rw [Tree.size] at hpart
      rw [Tree.evaluateWithin, Tree.evaluate, hpart operand (by omega), whole_bind]
    | binary op left right =>
      rw [Tree.size] at hpart
      have hleft := hpart left (by omega)
      have hright := hpart right (by omega)
      cases op with
      | and | or =>
        rw [Tree.evaluateWithin, Tree.evaluate, hleft, hright]
        simp only [whole_bind, whole_ite, whole_pure]
      | _ =>
        simp only [Tree.evaluateWithin, Tree.evaluate, hleft, hright, whole_bind]
    | conditional condition yes no =>
      rw [Tree.size] at hpart
      rw [Tree.evaluateWithin, Tree.evaluate, hpart condition (by omega), hpart yes (by omega),
        hpart no (by omega)]
      simp only [whole_bind, whole_ite]
    | call function arguments =>
      rw [Tree.size] at hpart
      rw [Tree.evaluateWithin, Tree.evaluate, mapM_whole arguments fun e he => ?_, whole_bind]
      have := Tree.size_le_sizeAll he
      exact hpart e (by omega)
    | pmf kind samples => rw [Tree.evaluateWithin, Tree.evaluate]
    | pdf intervals => rw [Tree.evaluateWithin, Tree.evaluate]

/-! ## Binding late -/

variable {context target : Frame} {s s' : Source} {usages : List VariableUsage} {u : VariableUsage}
  {c : Characterisation} {i : Nat}

lemma Bound.length_eq {l : List (VariableUsage × Characterisation)} {bound : List (String × Binding)}
    (h : Bound context s l bound s') : bound.length = l.length := by
  induction h with
  | nil s => rfl
  | cons first others ih => rw [List.length_cons, List.length_cons, ih]

/-- Each characterisation is bound to what it comes to. -/
lemma Bound.yields {l : List (VariableUsage × Characterisation)} {bound : List (String × Binding)}
    (h : Bound context s l bound s') (hi : l[i]? = some (u, c)) :
    ∃ b s₁ s₂, bound[i]? = some (u.nameOf c, b) ∧ u.Yields c context s₁ b s₂ := by
  induction h generalizing i with
  | nil s => cases hi
  | cons first others ih =>
    cases i with
    | zero =>
      cases hi
      exact ⟨_, _, _, rfl, first⟩
    | succ i => exact ih hi

/-- What has become of a characterisation that was bound, whether or not one after it has failed. -/
lemma bindUsages_yields (hi : (declared usages)[i]? = some (u, c))
    (hbound : i < (bindUsages usages context target s).names.length) :
    ∃ bound b s₁ s₂, target.Gains bound (bindUsages usages context target s).target ∧
      (bindUsages usages context target s).names = bound.map (·.1) ∧
      bound[i]? = some (u.nameOf c, b) ∧ u.Yields c context s₁ b s₂ := by
  rcases bindUsages_comprises usages context s with
    ⟨bound, s', hall, hcomprises⟩ | ⟨bound, e, s', huntil, hcomprises⟩
  · obtain ⟨b, s₁, s₂, hb, hyields⟩ := hall.yields hi
    exact ⟨bound, b, s₁, s₂, (hcomprises target).gains, (hcomprises target).names, hb, hyields⟩
  · obtain ⟨before, v, d, after, s₁, hsplit, hbefore, -, -⟩ := huntil
    rw [(hcomprises target).names, List.length_map, hbefore.length_eq] at hbound
    rw [hsplit, List.getElem?_append_left hbound] at hi
    obtain ⟨b, s₁, s₂, hb, hyields⟩ := hbefore.yields hi
    exact ⟨bound, b, s₁, s₂, (hcomprises target).gains, (hcomprises target).names, hb, hyields⟩

/-- A characterisation of the elements of a collection that was bound, and whose name has not been bound
again, is the late binding of this name. -/
lemma bindUsages_late (hi : (declared usages)[i]? = some (u, c)) (inner : u.isInner = true)
    (hbound : i < (bindUsages usages context target s).names.length)
    (hlast : ∀ j, i < j → (bindUsages usages context target s).names[j]? ≠ some (u.nameOf c)) :
    (bindUsages usages context target s).target.own.lookup (u.nameOf c) =
      some (.late c.specification context) := by
  obtain ⟨bound, b, s₁, s₂, hgains, hnames, hb, hyields⟩ := bindUsages_yields hi hbound
  have hlate : b = .late c.specification context := by
    cases hyields with
    | late _ s => rfl
    | value plain _ => exact absurd (inner.symm.trans plain) Bool.false_ne_true.symm
  obtain ⟨hlt, hget⟩ := List.getElem?_eq_some_iff.mp hb
  have hsplit : bound = bound.take i ++ (u.nameOf c, b) :: bound.drop (i + 1) := by
    rw [← hget, ← List.drop_eq_getElem_cons hlt, List.take_append_drop]
  rw [← hlate]
  refine hgains.last _ _ _ _ hsplit fun hmem => ?_
  obtain ⟨k, hk⟩ := List.mem_iff_getElem?.mp hmem
  rw [List.map_drop, List.getElem?_drop, ← hnames] at hk
  exact hlast _ (by omega) hk

lemma Frame.get?_of_own {f : Frame} {name : String} {b : Binding} (h : f.own.lookup name = some b) :
    f.get? name = some b := by
  obtain ⟨identity, own, parent⟩ := f
  rw [get?, layers, List.findSome?_cons, h]

/-- A name is bound late to a specification that may read this name itself. -/
structure SeesOlder (context target : Frame) (name : String) (specification : Specification) :
    Prop where
  /-- It is evaluated in the context whenever the name is read. -/
  reads : target.scope name = some (specification.tree.evaluate context.scope)
  /-- There, the name is the older binding, if there is one. -/
  older : ∀ b, context.get? name = some b →
    context.scope name = some b.read ∧ b ≠ .late specification context
  /-- Otherwise reading it fails. -/
  unknown : context.get? name = none → (Tree.variable name).evaluate context.scope =
    Sampler.ofExcept (.error (.unknownVariable name))
  /-- Neither the binding nor the frame that holds it is within the reach of the context. -/
  apart : ¬ context.Leads target ∧
    ∀ g, context.Leads g → ∀ other, (other, Binding.late specification context) ∉ g.own

lemma SeesOlder.of_bound {name : String} {specification : Specification}
    (h : target.own.lookup name = some (.late specification context)) :
    SeesOlder context target name specification where
  reads := by
    rw [Frame.scope_eq, Frame.get?_of_own h, Option.map_some, Binding.read]
  older b hb := by
    rw [Frame.scope_eq, hb, Option.map_some]
    obtain ⟨g, hg, hmem⟩ := Frame.exists_layer hb
    exact ⟨rfl, by rintro rfl; exact Frame.not_leads_back hmem hg⟩
  unknown hnone := by
    rw [Tree.evaluate, Frame.scope_eq, hnone, Option.map_none]
  apart := by
    exact ⟨Frame.not_leads_back (NameMap.mem_of_lookup h), fun g hg other hother => Frame.not_leads_back hother hg⟩

/-- **Late evaluation ends.**  Any expression is evaluated in any frame by evaluations nested no deeper
than the expression and the late expressions of the frames within reach are large.  No frame is within
the reach of the origin of one of its late bindings.  So a usage of the elements of a collection may
read the very name it is bound to: it reads the binding that the context has, or fails if this has
none, and never itself. -/
theorem late_evaluation_ends :
    (∀ (f : Frame) (e : Tree) (depth : Nat), e.size + ∑ g ∈ f.within, g.lateSize ≤ depth →
      e.evaluateWithin depth f = whole (e.evaluate f.scope)) ∧
    (∀ (f origin : Frame) (name : String) (specification : Specification),
      (name, .late specification origin) ∈ f.own → ¬ origin.Leads f) ∧
    ∀ (usages : List VariableUsage) (context target : Frame) (s : Source) (i : Nat)
      (u : VariableUsage) (c : Characterisation), (declared usages)[i]? = some (u, c) →
      u.isInner = true → i < (bindUsages usages context target s).names.length →
      (∀ j, i < j → (bindUsages usages context target s).names[j]? ≠ some (u.nameOf c)) →
      SeesOlder context (bindUsages usages context target s).target (u.nameOf c)
        c.specification := by
  refine ⟨fun f e depth hdepth => ?_, fun f origin name specification => Frame.not_leads_back,
    fun usages context target s i u c hi inner hbound hlast => ?_⟩
  · exact evaluateWithin_eq (fun g => Frame.mem_within.mpr) hdepth
  · exact .of_bound (bindUsages_late hi inner hbound hlast)

/-- The elements of a collection are bound a second time in the same frame, to one more than what they
were bound to before. -/
theorem late_evaluation_ends_own_name :
    ∃ (usages : List VariableUsage) (u : VariableUsage) (c : Characterisation) (context : Frame),
      (declared usages)[0]? = some (u, c) ∧ u.isInner = true ∧
      c.specification.tree = .binary .add (.variable (u.nameOf c)) (.literal (.int 1)) ∧
      let target := (bindUsages usages context context silent).target
      (Tree.variable (u.nameOf c)).evaluateWithin 5 target =
          whole ((Tree.variable (u.nameOf c)).evaluate target.scope) ∧
        ((Tree.variable (u.nameOf c)).evaluate target.scope silent).1.toOption.bind
          Value.toInteger? = some 3 ∧
        SeesOlder context target (u.nameOf c) c.specification := by
  let two : Specification := ⟨"2", .literal (.int 2)⟩
  let next : Specification :=
    ⟨"a.INNER.VALUE + 1", .binary .add (.variable "a.INNER.VALUE") (.literal (.int 1))⟩
  let u : VariableUsage := .single "a.INNER" .value next
  let first : Frame := .empty 0
  let context : Frame := first.bind "a.INNER.VALUE" (.late two first)
  let target : Frame := context.bind "a.INNER.VALUE" (.late next context)
  have hinner : u.isInner = true := by decide +kernel
  have hbinding : bindingsOf [u] context =
      [("a.INNER.VALUE", u.bindingOf context ⟨.value, next⟩)] := rfl
  have hbound : bindUsages [u] context context silent =
      ⟨none, target, silent, ["a.INNER.VALUE"]⟩ := by
    rw [bindUsages, hbinding, VariableUsage.bindingOf, if_pos hinner]
    rfl
  obtain ⟨hends, -, holder⟩ := late_evaluation_ends
  have hsees := holder [u] context context silent 0 u ⟨.value, next⟩ rfl hinner
    (hbound ▸ Nat.zero_lt_one) fun j hj => by
      rw [hbound, List.getElem?_eq_none hj]
      exact (Option.some_ne_none _).symm
  have hempty : ∀ h, first.Leads h → h = first := by
    rintro h (_ | hparent | hmem)
    · rfl
    · cases hparent
    · cases hmem
  have hcontext : ∀ h, context.Leads h → h = context ∨ h = first := by
    rintro h (_ | hparent | ⟨hmem, hh⟩)
    · exact .inl rfl
    · cases hparent
    · cases List.mem_singleton.mp hmem
      exact .inr (hempty h hh)
  have hreach : ∀ h, target.Leads h → h = target ∨ h = context ∨ h = first := by
    rintro h (_ | hparent | ⟨hmem, hh⟩)
    · exact .inl rfl
    · cases hparent
    · cases List.mem_singleton.mp hmem
      exact .inr (hcontext h hh)
  have hsizes : target.lateSize = 3 ∧ context.lateSize = 1 ∧ first.lateSize = 0 := by decide +kernel
  have hdepth : (Tree.variable "a.INNER.VALUE").size + ∑ g ∈ target.within, g.lateSize ≤ 5 := by
    classical
    have hwithin : target.within ⊆ {target, context, first} := fun g hg => by
      simpa using hreach g (Frame.mem_within.mp hg)
    have htarget : target ∉ ({context, first} : Finset Frame) := fun hmem => by
      rcases Finset.mem_insert.mp hmem with h | h
      · exact absurd (congrArg Frame.lateSize h) (by decide +kernel)
      · exact absurd (congrArg Frame.lateSize (Finset.mem_singleton.mp h)) (by decide +kernel)
    have hcontext : context ∉ ({first} : Finset Frame) := fun hmem =>
      absurd (congrArg Frame.lateSize (Finset.mem_singleton.mp hmem)) (by decide +kernel)
    have hsum := Finset.sum_le_sum_of_subset (f := Frame.lateSize) hwithin
    rw [Finset.sum_insert htarget, Finset.sum_insert hcontext, Finset.sum_singleton, hsizes.1,
      hsizes.2.1, hsizes.2.2] at hsum
    rw [Tree.size]
    omega
  rw [hbound] at hsees
  refine ⟨[u], u, ⟨.value, next⟩, context, rfl, hinner, rfl, ?_⟩
  rw [hbound]
  exact ⟨hends _ _ _ hdepth, by decide +kernel, hsees⟩

end ServiceSim
