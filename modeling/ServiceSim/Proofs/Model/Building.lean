import ServiceSim.Model.Builder
import ServiceSim.Proofs.Model.Acceptance

/-!
# What a builder builds

Steps are added to a builder with their specifications as texts (`Addition`).  The actions that they
are linked to form a chain whenever their names differ: each is succeeded by the next, so the walk
from the start action meets them in the order in which they were added (`visited_link`), and of the
faults that a list of actions can have only two are left, a repeated name and a second start action.

`builds_chain_of_steps` is the result: which texts, names and kinds of steps lead to which error, and
the chain that is built of all others.
-/

namespace ServiceSim.BehaviorBuilder

open Behavior

/-! ## Steps as they are added -/

/-- What a step is added with, specifications as texts. -/
inductive Content where
  | action (kind : ActionKind)
  | internal (demands : List (String × String))
  | setVariable (usages : List VariableUsage)
  | call (call : ExternalCall)
  | loop (iterations : String) (body : Behavior)
  | forEach (parameter : String) (body : Behavior)
  | guardedBranch (transitions : List (String × Behavior))
  | probabilisticBranch (transitions : List (Float × Behavior))
  | fork (asynchronous synchronous : List Behavior)

/-- A step as it is added. -/
structure Addition where
  name : String
  content : Content

namespace Addition

/-- Adds a step. -/
def add (b : BehaviorBuilder) (a : Addition) : BehaviorBuilder :=
  match a.content with
  | .action kind => b.action a.name kind
  | .internal demands => b.internal a.name demands
  | .setVariable usages => b.setVariable a.name usages
  | .call call => b.call a.name call
  | .loop iterations body => b.loop a.name iterations body
  | .forEach parameter body => b.forEach a.name parameter body
  | .guardedBranch transitions => b.guardedBranch a.name transitions
  | .probabilisticBranch transitions => b.probabilisticBranch a.name transitions
  | .fork asynchronous synchronous => b.fork a.name asynchronous synchronous

/-- The texts of the specifications of a step, in order. -/
def texts (a : Addition) : List String :=
  match a.content with
  | .internal demands => demands.map (·.2)
  | .loop iterations _ => [iterations]
  | .guardedBranch transitions => transitions.map (·.1)
  | _ => []

/-- What a step does, unless one of its specifications does not parse. -/
def kind (a : Addition) : Except EvalError ActionKind :=
  match a.content with
  | .action kind => .ok kind
  | .internal demands => (demands.mapM fun (resource, text) => demand resource text).map .internal
  | .setVariable usages => .ok (.setVariable usages)
  | .call call => .ok (.externalCall call)
  | .loop iterations body => (Specification.parse iterations).map fun s => .loop s body
  | .forEach parameter body => .ok (.collectionIterator parameter body)
  | .guardedBranch transitions =>
    (transitions.mapM fun (guard, behavior) => guarded guard behavior).map .branch
  | .probabilisticBranch transitions =>
    .ok (.branch (transitions.map fun (p, behavior) => ⟨.probability p, behavior⟩))
  | .fork asynchronous synchronous => .ok (.fork asynchronous synchronous)

/-- Whether a step is added with the kind of a start action. -/
def isStart (a : Addition) : Bool :=
  match a.content with
  | .action .start => true
  | _ => false

lemma add_eq_push (b : BehaviorBuilder) (a : Addition) : a.add b = b.push a.name a.kind := by
  obtain ⟨name, content⟩ := a
  cases content <;> rfl

end Addition

/-- The builder of a behavior after some steps have been added. -/
def ofAdditions (name : String) (additions : List Addition) : BehaviorBuilder :=
  additions.foldl (fun b a => a.add b) (new name)

/-- The names of the actions of a behavior with some steps. -/
def actionNames (additions : List Addition) : List String :=
  "start" :: additions.map Addition.name ++ ["stop"]

/-- The error of a result, if it is one. -/
def errorOf? {ε α : Type} : Except ε α → Option ε
  | .error e => some e
  | .ok _ => none

/-- The first fault of the specifications of some steps. -/
def firstFault? (additions : List Addition) : Option EvalError :=
  (additions.flatMap Addition.texts).findSome? fun text => errorOf? (Specification.parse text)

/-! ## The first of several errors -/

section

variable {ε α β γ : Type}

lemma errorOf?_map (f : α → β) (x : Except ε α) : errorOf? (x.map f) = errorOf? x := by
  cases x <;> rfl

/-- Of several results the first error counts. -/
lemma errorOf?_mapM (f : α → Except ε β) (l : List α) :
    errorOf? (l.mapM f) = l.findSome? fun a => errorOf? (f a) := by
  induction l with
  | nil => rfl
  | cons a l ih =>
    rw [List.mapM_cons, List.findSome?_cons, ← ih]
    cases f a with
    | error e => rfl
    | ok b => cases l.mapM f <;> rfl

lemma mapM_eq_ok_iff {f : α → Except ε β} {l : List α} {results : List β} :
    l.mapM f = .ok results ↔ l.map f = results.map .ok := by
  induction l generalizing results with
  | nil => cases results <;> simp [pure, Except.pure]
  | cons a l ih =>
    rw [List.mapM_cons, List.map_cons]
    cases results with
    | nil => cases f a <;> cases l.mapM f <;> simp [bind, Except.bind, pure, Except.pure]
    | cons b results =>
      rw [List.map_cons, List.cons.injEq, ← ih]
      cases f a <;> cases l.mapM f <;> simp [bind, Except.bind, pure, Except.pure]

lemma findSome?_flatMap (f : α → List β) (g : β → Option γ) (l : List α) :
    (l.flatMap f).findSome? g = l.findSome? fun a => (f a).findSome? g := by
  induction l with
  | nil => rfl
  | cons a l ih =>
    rw [List.flatMap_cons, List.findSome?_append, ih, List.findSome?_cons]
    cases (f a).findSome? g <;> rfl

end

/-- A step is faulty if one of its texts is, and has the fault of the first such text. -/
lemma Addition.errorOf?_kind (a : Addition) : errorOf? a.kind =
    a.texts.findSome? fun text => errorOf? (Specification.parse text) := by
  obtain ⟨name, content⟩ := a
  cases content with
  | internal demands =>
    simp only [kind, texts, errorOf?_map, errorOf?_mapM, demand, List.findSome?_map]
    rfl
  | guardedBranch transitions =>
    simp only [kind, texts, errorOf?_map, errorOf?_mapM, guarded, List.findSome?_map]
    rfl
  | loop iterations body =>
    rw [kind, texts, errorOf?_map, List.findSome?_singleton]
  | _ => rfl

lemma ofAdditions_eq (name : String) (additions : List Addition) :
    ofAdditions name additions = ⟨name, additions.map fun a => ⟨a.name, a.kind⟩⟩ := by
  have hfold : ∀ b : BehaviorBuilder, additions.foldl (fun b a => a.add b) b =
      ⟨b.name, b.steps ++ additions.map fun a => ⟨a.name, a.kind⟩⟩ := by
    induction additions with
    | nil => simp
    | cons a additions ih =>
      intro b
      rw [List.foldl_cons, ih, a.add_eq_push, push]
      simp
  rw [ofAdditions, hfold]
  rfl

/-- **The first fault** of the texts is the error of the kinds of all steps. -/
lemma errorOf?_kinds (name : String) (additions : List Addition) :
    errorOf? (ofAdditions name additions).kinds = firstFault? additions := by
  rw [ofAdditions_eq, kinds, errorOf?_mapM, List.findSome?_map, firstFault?, findSome?_flatMap]
  congr 1
  funext a
  exact (errorOf?_map _ _).trans a.errorOf?_kind

/-- What is to be linked once all specifications have been read. -/
lemma kinds_eq_ok {name : String} {additions : List Addition} {steps : List (String × ActionKind)}
    (h : (ofAdditions name additions).kinds = .ok steps) :
    steps.map (fun s => (s.1, Except.ok s.2)) = additions.map fun a => (a.name, a.kind) := by
  rw [ofAdditions_eq, kinds, mapM_eq_ok_iff, List.map_map] at h
  induction additions generalizing steps with
  | nil =>
    cases steps with
    | nil => rfl
    | cons s steps => cases h
  | cons a additions ih =>
    cases steps with
    | nil => cases h
    | cons s steps =>
      rw [List.map_cons, List.map_cons, List.cons.injEq] at h
      rw [List.map_cons, List.map_cons, ih h.2]
      have hstep : a.kind.map (fun kind => (a.name, kind)) = .ok s := h.1
      cases hkind : a.kind with
      | error e =>
        rw [hkind] at hstep
        cases hstep
      | ok kind =>
        rw [hkind] at hstep
        injection hstep with hstep
        rw [← hstep]

/-! ## Linked steps -/

variable {name : String} {steps : List (String × ActionKind)}

lemma idOf_injective (name : String) : Function.Injective (idOf name) := by
  intro s t h
  have hlist := congrArg String.toList h
  simp only [idOf, String.toList_append, List.append_assoc] at hlist
  exact String.toList_inj.mp (List.append_cancel_left (List.append_cancel_left hlist))

lemma link_ids (name : String) (steps : List (String × ActionKind)) :
    (link name steps).map Action.id = (steps.map Prod.fst).map (idOf name) := by
  induction steps with
  | nil => rfl
  | cons s steps ih => rw [link, List.map_cons, List.map_cons, List.map_cons, ih]

lemma link_distinct : ((link name steps).map Action.id).Nodup ↔ (steps.map Prod.fst).Nodup := by
  rw [link_ids]
  exact List.nodup_map_iff (idOf_injective name)

/-- Each action is succeeded by the one behind it. -/
lemma link_getElem? (name : String) (steps : List (String × ActionKind)) (n : Nat) :
    (link name steps)[n]? = steps[n]?.map fun s =>
      ⟨idOf name s.1, s.1, steps[n + 1]?.map fun next => idOf name next.1, s.2⟩ := by
  induction steps generalizing n with
  | nil => rfl
  | cons s steps ih =>
    cases n with
    | zero => simp [link, List.head?_eq_getElem?]
    | succ n => simp [link, ih]

/-- The successors are the identifiers of all actions but the first. -/
lemma link_successors (name : String) (steps : List (String × ActionKind)) :
    (link name steps).filterMap Action.successor = ((link name steps).map Action.id).tail := by
  induction steps with
  | nil => rfl
  | cons s steps ih =>
    cases steps with
    | nil => rfl
    | cons next rest =>
      rw [link, List.filterMap_cons, ih]
      simp [link]

lemma link_resolves (name : String) (steps : List (String × ActionKind)) :
    ∀ a ∈ link name steps, Resolves (link name steps) a := by
  intro a ha s hs
  obtain ⟨n, hn⟩ := List.mem_iff_getElem?.mp ha
  rw [link_getElem?, Option.map_eq_some_iff] at hn
  obtain ⟨step, -, rfl⟩ := hn
  obtain ⟨next, hnext, rfl⟩ := Option.map_eq_some_iff.mp hs
  have hbehind := link_getElem? name steps (n + 1)
  rw [hnext] at hbehind
  exact ⟨_, List.mem_of_getElem? hbehind, rfl⟩

section

variable {b : Behavior} (hlink : b.actions = link name steps)
  (distinct : (steps.map Prod.fst).Nodup)

include hlink distinct

/-- Following the successor of an action leads to the one behind it. -/
lemma successor?_link {n : Nat} {a : Action} (h : b.actions[n]? = some a) :
    b.successor? a = b.actions[n + 1]? := by
  have hids : (b.actions.map Action.id).Nodup := hlink ▸ link_distinct.mpr distinct
  have hsuccessor : a.successor = steps[n + 1]?.map fun next => idOf name next.1 := by
    rw [hlink, link_getElem?, Option.map_eq_some_iff] at h
    obtain ⟨step, -, rfl⟩ := h
    rfl
  have hbehind := link_getElem? name steps (n + 1)
  rw [← hlink] at hbehind
  cases hnext : steps[n + 1]? with
  | none =>
    rw [hnext] at hsuccessor hbehind
    rw [hbehind, successor?, hsuccessor]
    rfl
  | some next =>
    rw [hnext] at hsuccessor hbehind
    rw [hbehind]
    exact (successor?_eq_some_iff hids).mpr ⟨List.mem_of_getElem? hbehind, hsuccessor⟩

lemma chainFrom_link (bound n : Nat) :
    b.chainFrom bound b.actions[n]? = (b.actions.drop n).take bound := by
  induction bound generalizing n with
  | zero => rfl
  | succ bound ih =>
    cases h : b.actions[n]? with
    | none =>
      rw [List.drop_eq_nil_of_le (List.getElem?_eq_none_iff.mp h)]
      rfl
    | some a =>
      obtain ⟨hn, ha⟩ := List.getElem?_eq_some_iff.mp h
      rw [chainFrom, successor?_link hlink distinct h, ih, List.drop_eq_getElem_cons hn, ha,
        List.take_succ_cons]

variable (hstart : b.start? = b.actions[0]?)

include hstart

/-- **The walk from the start** meets all actions in their order, and no other. -/
lemma visited_link (n : Nat) : b.visited n = b.actions[n]? := by
  induction n with
  | zero => exact hstart
  | succ n ih =>
    rw [visited, Function.iterate_succ_apply', ← visited, ih]
    cases h : b.actions[n]? with
    | none =>
      have hend := List.getElem?_eq_none_iff.mp h
      exact (List.getElem?_eq_none_iff.mpr (by omega)).symm
    | some a => exact successor?_link hlink distinct h

lemma neverRevisits_link (oneStart : b.actions.countP Action.isStart = 1) :
    NeverRevisits b.actions := by
  have hids : (b.actions.map Action.id).Nodup := hlink ▸ link_distinct.mpr distinct
  intro walk hwalk
  obtain ⟨bound, rfl⟩ := (isWalk_iff hids oneStart).mp hwalk
  rw [hstart, chainFrom_link hlink distinct]
  exact hids.sublist ((List.take_sublist _ _).map _)

end

/-! ## The chain -/

/-- The steps between a start and a stop action. -/
def framed (steps : List (String × ActionKind)) : List (String × ActionKind) :=
  ("start", .start) :: steps ++ [("stop", .stop)]

lemma build_eq {b : BehaviorBuilder} (h : b.kinds = .ok steps) : b.build =
    match Behavior.ofActions b.name (link b.name (framed steps)) with
    | .ok behavior => .ok behavior
    | .error e => .error (.model e) := by
  rw [build, h]
  rfl

/-- Steps between a start and a stop action are a chain if their names differ and no other step
starts. -/
lemma wellFormed_link : WellFormed (link name (framed steps)) ↔
    ((framed steps).map Prod.fst).Nodup ∧
      (link name (framed steps)).countP Action.isStart = 1 := by
  refine ⟨fun h => ⟨link_distinct.mp h.distinct, h.oneStart⟩, fun h => ?_⟩
  obtain ⟨distinct, oneStart⟩ := h
  refine ⟨link_distinct.mpr distinct, oneStart, link_resolves _ _, ?_, ?_⟩
  · exact neverRevisits_link (b := ⟨name, _⟩) rfl distinct rfl oneStart
  · rw [link_successors]
    exact (link_distinct.mpr distinct).sublist (List.tail_sublist _)

/-- What is repeated first is so among identifiers that are made of names. -/
lemma isFirstRepeated_map {f : String → String} (hf : Function.Injective f) {ids : List String}
    {id : String} :
    IsFirstRepeated (ids.map f) id ↔ ∃ step, IsFirstRepeated ids step ∧ id = f step := by
  constructor
  · rintro ⟨before, after, hsplit, hnodup, hid⟩
    obtain ⟨before, rest, rfl, rfl, hrest⟩ := List.map_eq_append_iff.mp hsplit
    obtain ⟨step, after, rfl, rfl, rfl⟩ := List.map_eq_cons_iff.mp hrest
    exact ⟨step, ⟨before, after, rfl, hnodup.of_map f, (List.mem_map_of_injective hf).mp hid⟩, rfl⟩
  · rintro ⟨step, ⟨before, after, rfl, hnodup, hstep⟩, rfl⟩
    exact ⟨before.map f, after.map f, by simp, hnodup.map hf, List.mem_map_of_mem hstep⟩

/-- **The faults of linked steps**: a repeated name, or else another start action. -/
lemma fault_link {e : ModelError} : Fault name (link name (framed steps)) e ↔
    if ((framed steps).map Prod.fst).Nodup then
      (link name (framed steps)).countP Action.isStart ≠ 1 ∧
        e = .startAction name ((link name (framed steps)).countP Action.isStart)
    else ∃ step, IsFirstRepeated ((framed steps).map Prod.fst) step ∧
      e = .duplicateAction name (idOf name step) := by
  have hrepeated : ∀ {id}, IsFirstRepeated ((link name (framed steps)).map Action.id) id ↔
      ∃ step, IsFirstRepeated ((framed steps).map Prod.fst) step ∧ id = idOf name step := by
    intro id
    rw [link_ids]
    exact isFirstRepeated_map (idOf_injective name)
  constructor
  · intro h
    have hill : ¬ WellFormed (link name (framed steps)) := by
      intro hwell
      have hnone := hwell.fault?_eq (b := ⟨name, _⟩)
      rw [h.fault?_eq (b := ⟨name, _⟩)] at hnone
      cases hnone
    cases h with
    | duplicateAction repeated =>
      obtain ⟨step, hstep, rfl⟩ := hrepeated.mp repeated
      have hnot : ¬ ((framed steps).map Prod.fst).Nodup := by
        rw [← firstRepeated_eq_none, firstRepeated_eq_some_iff.mpr hstep]
        exact Option.some_ne_none _
      rw [if_neg hnot]
      exact ⟨step, hstep, rfl⟩
    | startAction distinct notOne =>
      rw [if_pos (link_distinct.mp distinct)]
      exact ⟨notOne, rfl⟩
    | missingSuccessor distinct oneStart =>
      exact absurd (wellFormed_link.mpr ⟨link_distinct.mp distinct, oneStart⟩) hill
    | successorCycle distinct oneStart =>
      exact absurd (wellFormed_link.mpr ⟨link_distinct.mp distinct, oneStart⟩) hill
    | sharedSuccessor distinct oneStart =>
      exact absurd (wellFormed_link.mpr ⟨link_distinct.mp distinct, oneStart⟩) hill
  · intro h
    split_ifs at h with hnodup
    · obtain ⟨notOne, rfl⟩ := h
      exact .startAction (link_distinct.mpr hnodup) notOne
    · obtain ⟨step, hstep, rfl⟩ := h
      exact .duplicateAction (hrepeated.mpr ⟨step, hstep, rfl⟩)

/-! ## What is built of additions -/

variable {additions : List Addition}

lemma Addition.isStart_eq {a : Addition} {kind : ActionKind} (h : a.kind = .ok kind) (id : ActionId)
    (successor : Option ActionId) : Action.isStart ⟨id, a.name, successor, kind⟩ = a.isStart := by
  obtain ⟨name, content⟩ := a
  have hmap : ∀ {β : Type} {x : Except EvalError β} {f : β → ActionKind},
      (∀ y, Action.isStart ⟨id, name, successor, f y⟩ = false) → x.map f = .ok kind →
        Action.isStart ⟨id, name, successor, kind⟩ = false := by
    intro β x f hf hx
    cases x with
    | error e => cases hx
    | ok y =>
      injection hx with hx
      rw [← hx, hf]
  cases content with
  | action k =>
    injection h with h
    subst h
    cases k <;> rfl
  | internal demands => exact hmap (fun _ => rfl) h
  | loop iterations body => exact hmap (fun _ => rfl) h
  | guardedBranch transitions => exact hmap (fun _ => rfl) h
  | _ =>
    injection h with h
    subst h
    rfl

lemma countP_link (h : steps.map (fun s => (s.1, Except.ok s.2)) =
      additions.map fun a => (a.name, a.kind)) :
    (link name (framed steps)).countP Action.isStart = 1 + additions.countP Addition.isStart := by
  have hstep : ∀ more, (link name (steps ++ more)).countP Action.isStart =
      additions.countP Addition.isStart + (link name more).countP Action.isStart := by
    intro more
    induction additions generalizing steps with
    | nil =>
      rw [List.map_eq_nil_iff.mp h]
      simp
    | cons a additions ih =>
      cases steps with
      | nil => cases h
      | cons s steps =>
        rw [List.map_cons, List.map_cons, List.cons.injEq, Prod.mk.injEq] at h
        obtain ⟨⟨hname, hkind⟩, hrest⟩ := h
        obtain ⟨stepName, kind⟩ := s
        obtain rfl : stepName = a.name := hname
        rw [List.cons_append, link, List.countP_cons, List.countP_cons, ih hrest,
          Addition.isStart_eq hkind.symm]
        omega
  rw [framed, List.cons_append, link, List.countP_cons, hstep]
  have hstop : (link name [("stop", ActionKind.stop)]).countP Action.isStart = 0 := rfl
  rw [hstop]
  simp only [Action.isStart, if_true]
  omega

lemma framed_names (h : steps.map (fun s => (s.1, Except.ok s.2)) =
      additions.map fun a => (a.name, a.kind)) :
    (framed steps).map Prod.fst = actionNames additions := by
  have hnames := congrArg (List.map Prod.fst) h
  simp only [List.map_map] at hnames
  simp only [framed, actionNames, List.map_cons, List.cons_append, List.map_append, List.map_nil]
  rw [show steps.map Prod.fst = additions.map Addition.name from hnames]

/-- Steps of which one is faulty. -/
lemma build_faulty {e : EvalError} (h : firstFault? additions = some e) :
    (ofAdditions name additions).build = .error (.expression e) := by
  rw [← errorOf?_kinds name] at h
  rw [build]
  cases hkinds : (ofAdditions name additions).kinds with
  | error e' =>
    rw [hkinds] at h
    injection h with h
    rw [h]
  | ok steps =>
    rw [hkinds] at h
    cases h

/-- Steps of which none is faulty are linked. -/
lemma build_linked (name : String) (h : firstFault? additions = none) :
    ∃ steps : List (String × ActionKind),
      steps.map (fun s => (s.1, Except.ok s.2)) = additions.map (fun a => (a.name, a.kind)) ∧
      (∀ e, (ofAdditions name additions).build = .error (.model e) ↔
        Fault name (link name (framed steps)) e) ∧
      (∀ e, (ofAdditions name additions).build ≠ .error (.expression e)) ∧
      ∀ b, (ofAdditions name additions).build = .ok b ↔
        WellFormed (link name (framed steps)) ∧ b = ⟨name, link name (framed steps)⟩ := by
  rw [← errorOf?_kinds name] at h
  cases hkinds : (ofAdditions name additions).kinds with
  | error e =>
    rw [hkinds] at h
    cases h
  | ok steps =>
    have hname : (ofAdditions name additions).name = name := by rw [ofAdditions_eq]
    refine ⟨steps, kinds_eq_ok hkinds, ?_⟩
    rw [build_eq hkinds, hname]
    simp only [← ofActions_eq_error_iff, ← ofActions_eq_ok_iff]
    cases ofActions name (link name (framed steps)) <;> simp

/-- **A builder builds the chain of its steps.**  If one of the texts is no specification, the error
is that of the first such text of the first such step.  Otherwise a name that is repeated, counting
those of the start and the stop action, is an error, and else a step that is another start action,
and no other error is left.  What is built without an error has the start action, the steps as they
were added and the stop action, and the walk from the start along successors meets them in this
order, and nothing after them. -/
theorem builds_chain_of_steps (name : String) (additions : List Addition) :
    (∀ e, (ofAdditions name additions).build = .error (.expression e) ↔
      firstFault? additions = some e) ∧
    (∀ e, (ofAdditions name additions).build = .error (.model e) ↔
      firstFault? additions = none ∧
        if (actionNames additions).Nodup then
          (∃ a ∈ additions, a.isStart = true) ∧
            e = .startAction name (1 + additions.countP Addition.isStart)
        else ∃ step, IsFirstRepeated (actionNames additions) step ∧
          e = .duplicateAction name (idOf name step)) ∧
    ((∃ b, (ofAdditions name additions).build = .ok b) ↔
      firstFault? additions = none ∧ (actionNames additions).Nodup ∧
        ∀ a ∈ additions, a.isStart = false) ∧
    ∀ b, (ofAdditions name additions).build = .ok b →
      b.name = name ∧
      b.actions.map (fun a => (a.id, a.name, Except.ok a.kind)) =
        (idOf name "start", "start", .ok .start) ::
          additions.map (fun a => (idOf name a.name, a.name, a.kind)) ++
            [(idOf name "stop", "stop", .ok .stop)] ∧
      ∀ n, b.visited n = b.actions[n]? := by
  cases hfault : firstFault? additions with
  | some fault =>
    have hbuild : (ofAdditions name additions).build = .error (.expression fault) :=
      build_faulty hfault
    refine ⟨fun e => ?_, fun e => ?_, ?_, fun b hb => ?_⟩
    · simp [hbuild]
    · simp [hbuild]
    · simp [hbuild]
    · rw [hbuild] at hb
      cases hb
  | none =>
    obtain ⟨steps, hsteps, herror, hread, hok⟩ := build_linked name hfault
    have hnames := framed_names hsteps
    have hcount : (link name (framed steps)).countP Action.isStart =
        1 + additions.countP Addition.isStart := countP_link hsteps
    have hstarts : (∃ a ∈ additions, a.isStart = true) ↔
        (link name (framed steps)).countP Action.isStart ≠ 1 := by
      rw [hcount, ← List.countP_pos_iff]
      omega
    refine ⟨fun e => by simp [hread e], fun e => ?_, ?_, fun b hb => ?_⟩
    · rw [herror, fault_link, hnames, ← hstarts, hcount]
      simp
    · have hnone : (∀ a ∈ additions, a.isStart = false) ↔
          (link name (framed steps)).countP Action.isStart = 1 := by
        rw [← not_iff_not, ← ne_eq, ← hstarts]
        simp
      rw [hnone, ← hnames]
      constructor
      · rintro ⟨b, hb⟩
        exact ⟨rfl, wellFormed_link.mp ((hok b).mp hb).1⟩
      · rintro ⟨-, h⟩
        exact ⟨_, (hok _).mpr ⟨wellFormed_link.mpr h, rfl⟩⟩
    · obtain ⟨hwell, rfl⟩ := (hok b).mp hb
      refine ⟨rfl, ?_, visited_link rfl (wellFormed_link.mp hwell).1 rfl⟩
      have hframed : ∀ steps : List (String × ActionKind),
          (link name steps).map (fun a => (a.id, a.name, (Except.ok a.kind : Except EvalError _))) =
            (steps.map fun s => (s.1, (Except.ok s.2 : Except EvalError ActionKind))).map
              fun s => (idOf name s.1, s) := by
        intro steps
        induction steps with
        | nil => rfl
        | cons s steps ih => rw [link, List.map_cons, ih]; rfl
      rw [hframed, framed, List.cons_append, List.map_cons, List.map_append, hsteps]
      simp

/-- A loop between two demands is walked to after the first and before the second.  With a second
demand of the first step that does not parse, nothing is built, whatever follows. -/
theorem builds_chain_of_steps_looping :
    let body : Behavior := ⟨"body", [⟨"body/start", "start", none, .start⟩]⟩
    let rest : List Addition := [⟨"again", .loop "2 * n" body⟩, ⟨"write", .internal [("HDD", "n")]⟩]
    (∃ b, (ofAdditions "svc" (⟨"read", .internal [("HDD", "1")]⟩ :: rest)).build = .ok b ∧
      b.actions.map Action.id = ["svc/start", "svc/read", "svc/again", "svc/write", "svc/stop"] ∧
      ∀ n, b.visited n = b.actions[n]?) ∧
    (ofAdditions "svc" (⟨"read", .internal [("HDD", "1"), ("CPU", "1 +")]⟩ :: rest)).build =
      .error (.expression (.malformed .endOfInput 3)) := by
  intro body rest
  constructor
  · have hbuilt : ∃ b, (ofAdditions "svc" (⟨"read", .internal [("HDD", "1")]⟩ :: rest)).build =
        .ok b ∧ b.actions.map Action.id =
          ["svc/start", "svc/read", "svc/again", "svc/write", "svc/stop"] := ⟨_, by rfl, by rfl⟩
    obtain ⟨b, hb, hids⟩ := hbuilt
    exact ⟨b, hb, hids, ((builds_chain_of_steps _ _).2.2.2 b hb).2.2⟩
  · exact ((builds_chain_of_steps _ _).1 _).mpr (by rfl)

end ServiceSim.BehaviorBuilder
