import ServiceSim.Model.Decoding
import ServiceSim.Model.Encoding
import ServiceSim.Proofs.Expression.Trimming
import ServiceSim.Proofs.Json.Nesting
import ServiceSim.Proofs.Model.Built

/-!
# Models in files

What is written of a model is read again as the same model.  A specification is written as its
trimmed text, which denotes the expression it was read from.  An action is written as one object, so
its own members are told apart from those of its kind by their names, and those of its kind are
decoded last.  Behaviors nest; an induction over them follows how their documents nest.

`SystemModel.recovered` is the result for every model whose behaviors are chains and whose
specifications have been read from texts (`SystemModel.IsBuilt`), and for the texts that are written of
it.  It has a bound: where a document nests too deep, the members of an action are not kept, so a
behavior is refused at the first of its actions that nests too deep, whatever lies inside it.
-/

namespace ServiceSim

open Json (Access DecodeError Reading Record Recovers Streams)

/-! ## Specifications and usages -/

/-- What is kept of the text of a specification. -/
lemma Specification.parse_eq_ok {text : String} {s : Specification}
    (h : Specification.parse text = .ok s) :
    s.source = Text.trim text ∧ Expression.parse text = .ok s.tree := by
  rw [Specification.parse] at h
  cases htree : Expression.parse text with
  | error e =>
    rw [htree] at h
    cases h
  | ok tree =>
    rw [htree] at h
    injection h with h
    rw [← h]
    exact ⟨rfl, rfl⟩

/-- The text of a specification denotes it. -/
lemma Specification.IsParsed.parse_source {s : Specification} (h : s.IsParsed) :
    Specification.parse s.source = .ok s := by
  obtain ⟨text, h⟩ := h
  obtain ⟨hsource, htree⟩ := Specification.parse_eq_ok h
  obtain ⟨htrimmed, htwice⟩ := Expression.parse_trim htree
  rw [Specification.parse, hsource, htrimmed, htwice, ← hsource]
  rfl

namespace Decode

open Json.Decode (list)
open Json (streams_list streams_text)
open Json.Record (reads_field streams_field)

lemma specification_recovers {s : Specification} (h : s.IsParsed) :
    Recovers specification (.string s.source) s := by
  intro access
  rw [specification, Json.recovers_text s.source access]
  dsimp only [bind, Except.bind]
  rw [h.parse_source]
  rfl

lemma characterisationKind_recovers (kind : CharacterisationKind) :
    Recovers characterisationKind (.string kind.name) kind := by
  refine Json.recovers_bare ?_
  cases kind <;> rfl

lemma variableUsage_recovers {u : VariableUsage} (h : u.IsParsed) :
    Recovers variableUsage u.toJson u := by
  have hcharacterisation : ∀ c ∈ u.characterisations, Recovers characterisation
      (.object [("kind", .string c.kind.name), ("specification", .string c.specification.source)])
      c := fun c hc =>
    Record.recovers ["kind", "specification"] rfl rfl (by decide) fun access =>
      ((reads_field (characterisationKind_recovers c.kind) _ _ access).and
        (reads_field (specification_recovers (h c hc)) _ _ access)).map _
  exact Record.recovers ["reference", "characterisations"] rfl rfl (by decide) fun access =>
    ((reads_field (Json.recovers_text u.reference) _ _ access).and
      (reads_field (Json.recovers_list hcharacterisation) _ _ access)).map _

lemma variableUsages_recover {usages : List VariableUsage} (h : ∀ u ∈ usages, u.IsParsed) :
    Recovers (list variableUsage) (Json.ofList VariableUsage.toJson usages) usages :=
  Json.recovers_list fun u hu => variableUsage_recovers (h u hu)

lemma resourceDemand_recovers {d : ResourceDemand} (h : d.specification.IsParsed) :
    Recovers resourceDemand d.toJson d :=
  Record.recovers ["resource", "specification"] rfl rfl (by decide) fun access =>
    ((reads_field (Json.recovers_text d.resource) _ _ access).and
      (reads_field (specification_recovers h) _ _ access)).map _

lemma transitionCondition_recovers {c : TransitionCondition} (h : c.IsParsed) :
    Recovers transitionCondition c.toJson c := by
  cases c with
  | guard s =>
    refine Json.recovers_holding rfl fun access => ?_
    rw [specification_recovers h access]
    rfl
  | probability p => exact Json.recovers_holding rfl fun access => rfl

/-! ## Actions -/

/-- The members of a kind of action: its name, and those of its record. -/
lemma actionKind_of_members {behavior : Json.Decoder Behavior} {name : String}
    {record : Record ActionKind} {members : List (String × Json)} {kind : ActionKind}
    (names : List String) (hkind : (kinds behavior).lookup name = some (some record))
    (written : members.map Prod.fst = names) (declared : record.fields.map Prod.fst = names)
    (distinct : names.Nodup) (untyped : "type" ∉ names)
    (h : record.Reads .kept (members.map fun m => Reading.ofJson m.2) kind) :
    actionKindOfMembers behavior .kept
      (Reading.ofMembers (("type", .string name) :: members)) = .ok kind := by
  rw [Reading.ofMembers_eq_map, List.map_cons]
  have hother : ∀ m ∈ members.map fun m => (some m.1, Reading.ofJson m.2), m.1 ≠ some "type" := by
    intro m hm htype
    obtain ⟨member, hmember, rfl⟩ := List.mem_map.mp hm
    injection htype with htype
    rw [← written] at untyped
    exact untyped (htype ▸ List.mem_map_of_mem hmember)
  have htag : kindMember ((some "type", Reading.ofJson (.string name)) ::
      members.map fun m => (some m.1, Reading.ofJson m.2)) = .ok (.string name) := by
    have hnone : (members.map fun m => (some m.1, Reading.ofJson m.2)).filter
        (·.1 == some "type") = [] :=
      List.filter_eq_nil_iff.mpr fun m hm => by simpa using hother m hm
    rw [kindMember, List.filter_cons_of_pos (by rfl), hnone]
    rfl
  have hrest : ((some "type", Reading.ofJson (.string name)) ::
      members.map fun m => (some m.1, Reading.ofJson m.2)).filter (·.1 != some "type") =
      members.map fun m => (some m.1, Reading.ofJson m.2) := by
    rw [List.filter_cons_of_neg (by simp)]
    exact List.filter_eq_self.mpr fun m hm => by simpa using hother m hm
  have hmembers : record.ofMembers .kept
      (members.map fun m => (some m.1, Reading.ofJson m.2)) = .ok kind := by
    refine Record.ofMembers_reads ?_ (by rw [declared]; exact distinct) ?_
    · have hnames := congrArg (List.map some) (written.trans declared.symm)
      rw [List.map_map, List.map_map] at hnames
      rw [List.map_map]
      exact hnames
    · rw [List.map_map]
      exact h
  have hname : kindName .kept (.string name) = .ok name := rfl
  rw [actionKindOfMembers, htag, hrest]
  dsimp only [bind, Except.bind]
  rw [hname]
  dsimp only
  rw [hkind]
  exact hmembers

lemma action_object (behavior : Json.Decoder Behavior) (access : Access)
    (members : List (Option String × Reading)) :
    action behavior access (.object members) =
      (actionMembers.ofMembersKeeping access members).bind fun found =>
        (actionKindOfMembers behavior .kept found.2).bind fun kind =>
          .ok ⟨found.1.1, found.1.2.1, found.1.2.2, kind⟩ := rfl

/-- The own members of an action. -/
lemma actionMembers_reads (access : Access) (id name : String) (successor : Option String) :
    actionMembers.Reads access
      [.string id, .string name, Reading.ofJson (Json.ofOption .string successor)]
      (id, name, successor) := by
  have hsuccessor : Recovers (Json.Decode.optional Json.Decode.text)
      (Json.ofOption .string successor) successor :=
    Json.recovers_optional (fun _ hnull => by cases hnull) Json.recovers_text successor
  exact (reads_field (Json.recovers_text id) _ _ access).and
    ((reads_field (Json.recovers_text name) _ _ access).and
      (reads_field hsuccessor _ _ access))

/-- The members of an action, those of its kind behind its own. -/
lemma action_of_members {behavior : Json.Decoder Behavior} {a : Action}
    (undeclared : ∀ m ∈ a.kind.members, actionMembers.fields.lookup m.1 = none)
    (h : actionKindOfMembers behavior .kept (Reading.ofMembers a.kind.members) = .ok a.kind) :
    Recovers (action behavior) a.toJson a := by
  obtain ⟨id, name, successor, kind⟩ := a
  intro access
  have hmembers : actionMembers.ofMembersKeeping access
      ([(some "id", .string id), (some "name", .string name),
        (some "successor", Reading.ofJson (Json.ofOption .string successor))] ++
          Reading.ofMembers kind.members) =
      .ok ((id, name, successor), Reading.ofMembers kind.members) :=
    Record.ofMembersKeeping_reads rfl (by decide) undeclared
      (actionMembers_reads access id name successor)
  have hsplit : Reading.ofMembers ([("id", .string id), ("name", .string name),
      ("successor", Json.ofOption .string successor)] ++ kind.members) =
      [(some "id", .string id), (some "name", .string name),
        (some "successor", Reading.ofJson (Json.ofOption .string successor))] ++
          Reading.ofMembers kind.members := rfl
  rw [Action.toJson, Reading.ofJson, action_object, hsplit, hmembers]
  change (actionKindOfMembers behavior .kept (Reading.ofMembers kind.members)).bind _ = _
  rw [h]
  rfl

/-- An action that nests too deep is refused when the members of its kind are kept. -/
lemma action_refuses (behavior : Json.Decoder Behavior) {a : Action}
    (undeclared : ∀ m ∈ a.kind.members, actionMembers.fields.lookup m.1 = none) (level : Nat)
    (hdeep : Json.deepest < level + (Reading.ofJson a.toJson).depth) :
    action behavior .streamed (Reading.within level a.toJson) = .error .malformed := by
  obtain ⟨id, name, successor, kind⟩ := a
  rw [Action.toJson] at hdeep ⊢
  rcases Reading.within_object hdeep with ⟨part, heq⟩ | ⟨hinside, heq, m, hm, hdeeper⟩
  · rw [heq]
    rfl
  · -- its own members do not nest, so it is one of its kind that does
    have hsuccessor : Reading.within (level + 1) (Json.ofOption .string successor) =
          Reading.ofJson (Json.ofOption .string successor) ∧
        (Reading.ofJson (Json.ofOption .string successor)).depth = 0 := by
      cases successor <;> exact ⟨rfl, rfl⟩
    have hkind : ∃ m ∈ kind.members, Json.deepest < level + 1 + (Reading.ofJson m.2).depth := by
      rcases List.mem_append.mp hm with hown | hkind
      · have hflat : (Reading.ofJson m.2).depth = 0 := by
          simp only [List.mem_cons, List.not_mem_nil, or_false] at hown
          rcases hown with rfl | rfl | rfl
          · rfl
          · rfl
          · exact hsuccessor.2
        omega
      · exact ⟨m, hkind, hdeeper⟩
    have hmembers : actionMembers.ofMembersKeeping .streamed
        ([(some "id", .string id), (some "name", .string name),
          (some "successor", Reading.ofJson (Json.ofOption .string successor))] ++
            kind.members.map fun m => (some m.1, Reading.within (level + 1) m.2)) =
        .error .malformed :=
      Record.ofMembersKeeping_refuses rfl (by decide) undeclared
        (actionMembers_reads .streamed id name successor) hinside hkind
    rw [heq, action_object, List.map_append, List.map_cons, List.map_cons, List.map_cons,
      List.map_nil, hsuccessor.1]
    change (actionMembers.ofMembersKeeping .streamed _).bind _ = _
    rw [Reading.within, Reading.within, hmembers]
    rfl

lemma actionDocuments_eq_map (actions : List Action) :
    actionDocuments actions = actions.map Action.toJson := by
  induction actions with
  | nil => rfl
  | cons a actions ih => rw [actionDocuments, ih, List.map_cons]

lemma transitionDocuments_eq_map (transitions : List BranchTransition) :
    transitionDocuments transitions = transitions.map BranchTransition.toJson := by
  induction transitions with
  | nil => rfl
  | cons t transitions ih => rw [transitionDocuments, ih, List.map_cons]

lemma behaviorDocuments_eq_map (behaviors : List Behavior) :
    behaviorDocuments behaviors = behaviors.map Behavior.toJson := by
  induction behaviors with
  | nil => rfl
  | cons b behaviors ih => rw [behaviorDocuments, ih, List.map_cons]

/-- The members of a kind are none of those of every action. -/
lemma kind_undeclared (kind : ActionKind) :
    ∀ m ∈ kind.members, actionMembers.fields.lookup m.1 = none := by
  cases kind
  all_goals
    rw [ActionKind.members]
    simp only [List.forall_mem_cons, List.not_mem_nil, false_implies, implies_true, and_true]
    decide

/-- Documents in an array nest less deep than the array. -/
lemma depth_of_array {α : Type} {f : α → Json} {items : List α} {depth : Nat}
    (h : (Reading.ofJson (.array (items.map f))).depth ≤ depth + 1) :
    ∀ a ∈ items, (Reading.ofJson (f a)).depth ≤ depth := by
  intro a ha
  have hitem := Reading.depth_item (List.mem_map_of_mem (f := f) ha)
  omega

mutual

/-- A kind of action whose documents nest no deeper than behaviors are read. -/
lemma actionKind_recovers : (kind : ActionKind) → kind.IsBuilt → ∀ depth,
    (∀ m ∈ kind.members, (Reading.ofJson m.2).depth ≤ depth) →
    actionKindOfMembers (behaviorWithin depth) .kept (Reading.ofMembers kind.members) = .ok kind
  | .start, _, _, _ => rfl
  | .stop, _, _, _ => rfl
  | .internal demands, h, depth, _ => by
    rw [ActionKind.IsBuilt] at h
    exact actionKind_of_members ["demands"] rfl rfl rfl (by decide)
      (by decide)
      ((reads_field (Json.recovers_list fun d hd => resourceDemand_recovers (h d hd)) _ _ _).map _)
  | .externalCall call, h, depth, _ => by
    rw [ActionKind.IsBuilt] at h
    exact actionKind_of_members ["role", "service", "inputs", "returns"] rfl rfl rfl (by decide)
      (by decide)
      ((((reads_field (Json.recovers_text call.role) _ _ _).and
        ((reads_field (Json.recovers_text call.service) _ _ _).and
          ((reads_field (variableUsages_recover h.1) _ _ _).and
            (reads_field (variableUsages_recover h.2) _ _ _)))).map _).map _)
  | .branch transitions, h, depth, hdepth => by
    rw [ActionKind.IsBuilt] at h
    have harray := hdepth ("transitions", .array (transitionDocuments transitions))
      (by simp [ActionKind.members])
    rw [transitionDocuments_eq_map] at harray
    have hlist : Recovers (list (branchTransition (behaviorWithin depth)))
        (.array (transitionDocuments transitions)) transitions := by
      rw [transitionDocuments_eq_map]
      exact Json.recovers_list (branchTransitions_recover transitions h depth
        (depth_of_array (harray.trans (Nat.le_succ depth))))
    exact actionKind_of_members ["transitions"] rfl rfl rfl (by decide) (by decide)
      ((reads_field hlist _ _ _).map _)
  | .loop iterations body, h, depth, hdepth => by
    rw [ActionKind.IsBuilt] at h
    have hbody := behavior_recovers body h.2 depth
      (hdepth ("body", body.toJson) (by simp [ActionKind.members]))
    exact actionKind_of_members ["iterations", "body"] rfl rfl rfl (by decide)
      (by decide)
      (((reads_field (specification_recovers h.1) _ _ _).and (reads_field hbody _ _ _)).map _)
  | .collectionIterator parameter body, h, depth, hdepth => by
    rw [ActionKind.IsBuilt] at h
    have hbody := behavior_recovers body h depth
      (hdepth ("body", body.toJson) (by simp [ActionKind.members]))
    exact actionKind_of_members ["parameter", "body"] rfl rfl rfl (by decide)
      (by decide)
      (((reads_field (Json.recovers_text parameter) _ _ _).and (reads_field hbody _ _ _)).map _)
  | .setVariable usages, h, depth, _ => by
    rw [ActionKind.IsBuilt] at h
    exact actionKind_of_members ["usages"] rfl rfl rfl (by decide)
      (by decide)
      ((reads_field (variableUsages_recover h) _ _ _).map _)
  | .fork asynchronous synchronous, h, depth, hdepth => by
    rw [ActionKind.IsBuilt] at h
    have harray := hdepth ("asynchronous", .array (behaviorDocuments asynchronous))
      (by simp [ActionKind.members])
    have harray' := hdepth ("synchronous", .array (behaviorDocuments synchronous))
      (by simp [ActionKind.members])
    rw [behaviorDocuments_eq_map] at harray harray'
    have hasynchronous : Recovers (list (behaviorWithin depth))
        (.array (behaviorDocuments asynchronous)) asynchronous := by
      rw [behaviorDocuments_eq_map]
      exact Json.recovers_list (behaviors_recover asynchronous h.1 depth
        (depth_of_array (harray.trans (Nat.le_succ depth))))
    have hsynchronous : Recovers (list (behaviorWithin depth))
        (.array (behaviorDocuments synchronous)) synchronous := by
      rw [behaviorDocuments_eq_map]
      exact Json.recovers_list (behaviors_recover synchronous h.2 depth
        (depth_of_array (harray'.trans (Nat.le_succ depth))))
    exact actionKind_of_members ["asynchronous", "synchronous"] rfl rfl rfl (by decide) (by decide)
      (((reads_field hasynchronous _ _ _).and (reads_field hsynchronous _ _ _)).map _)

/-- An action. -/
lemma action_recovers : (a : Action) → a.IsBuilt → ∀ depth,
    (Reading.ofJson a.toJson).depth ≤ depth + 1 → Recovers (action (behaviorWithin depth)) a.toJson a
  | ⟨id, name, successor, kind⟩, h, depth, hdepth => by
    rw [Action.IsBuilt] at h
    have hmembers : ∀ m ∈ kind.members, (Reading.ofJson m.2).depth ≤ depth := by
      intro m hm
      rw [Action.toJson] at hdepth
      have hmember := Reading.depth_member (List.mem_append_right [("id", .string id),
        ("name", .string name), ("successor", Json.ofOption .string successor)] hm)
      omega
    exact action_of_members (kind_undeclared kind) (actionKind_recovers kind h depth hmembers)

/-- A transition. -/
lemma branchTransition_recovers : (t : BranchTransition) → t.IsBuilt → ∀ depth,
    (Reading.ofJson t.toJson).depth ≤ depth →
    Recovers (branchTransition (behaviorWithin depth)) t.toJson t
  | ⟨condition, behavior⟩, h, depth, hdepth => by
    rw [BranchTransition.IsBuilt] at h
    rw [BranchTransition.toJson] at hdepth ⊢
    have hmember : (Reading.ofJson behavior.toJson).depth + 1 ≤ (Reading.ofJson (.object
        [("condition", condition.toJson), ("behavior", behavior.toJson)])).depth :=
      Reading.depth_member (List.mem_cons_of_mem _ List.mem_cons_self)
    have hbehavior := behavior_recovers behavior h.2 depth (by omega)
    exact Record.recovers ["condition", "behavior"] rfl rfl (by decide) fun access =>
      ((reads_field (transitionCondition_recovers h.1) _ _ access).and
        (reads_field hbehavior _ _ access)).map _

/-- A behavior. -/
lemma behavior_recovers : (b : Behavior) → b.IsBuilt → ∀ depth,
    (Reading.ofJson b.toJson).depth ≤ depth → Recovers (behaviorWithin depth) b.toJson b
  | ⟨name, actions⟩, h, depth, hdepth => by
    rw [Behavior.IsBuilt] at h
    rw [Behavior.toJson, actionDocuments_eq_map] at hdepth ⊢
    have hmember : (Reading.ofJson (.array (actions.map Action.toJson))).depth + 1 ≤
        (Reading.ofJson (.object [("name", .string name),
          ("actions", .array (actions.map Action.toJson))])).depth :=
      Reading.depth_member (List.mem_cons_of_mem _ List.mem_cons_self)
    obtain ⟨depth, rfl⟩ : ∃ d, depth = d + 1 := ⟨depth - 1, by omega⟩
    have hlist : Recovers (list (action (behaviorWithin depth)))
        (.array (actions.map Action.toJson)) actions :=
      Json.recovers_list (actions_recover actions h.2 depth fun a ha => by
        have hitem := Reading.depth_item (List.mem_map_of_mem (f := Action.toJson) ha)
        omega)
    rw [behaviorWithin]
    exact Record.recovers ["name", "actions"] rfl rfl (by decide) fun access =>
      ((reads_field (Json.recovers_text name) _ _ access).and
        (reads_field hlist _ _ access)).check (by
          dsimp only
          rw [h.1])

/-- Actions. -/
lemma actions_recover : (actions : List Action) → areActionsBuilt actions → ∀ depth,
    (∀ a ∈ actions, (Reading.ofJson a.toJson).depth ≤ depth + 1) →
    ∀ a ∈ actions, Recovers (action (behaviorWithin depth)) a.toJson a
  | [], _, _, _ => by simp
  | a :: rest, h, depth, hdepth => by
    rw [areActionsBuilt] at h
    rw [List.forall_mem_cons] at hdepth ⊢
    exact ⟨action_recovers a h.1 depth hdepth.1, actions_recover rest h.2 depth hdepth.2⟩

/-- Transitions. -/
lemma branchTransitions_recover : (transitions : List BranchTransition) →
    areTransitionsBuilt transitions → ∀ depth,
    (∀ t ∈ transitions, (Reading.ofJson t.toJson).depth ≤ depth) →
    ∀ t ∈ transitions, Recovers (branchTransition (behaviorWithin depth)) t.toJson t
  | [], _, _, _ => by simp
  | t :: rest, h, depth, hdepth => by
    rw [areTransitionsBuilt] at h
    rw [List.forall_mem_cons] at hdepth ⊢
    exact ⟨branchTransition_recovers t h.1 depth hdepth.1,
      branchTransitions_recover rest h.2 depth hdepth.2⟩

/-- Behaviors. -/
lemma behaviors_recover : (behaviors : List Behavior) → areBehaviorsBuilt behaviors → ∀ depth,
    (∀ b ∈ behaviors, (Reading.ofJson b.toJson).depth ≤ depth) →
    ∀ b ∈ behaviors, Recovers (behaviorWithin depth) b.toJson b
  | [], _, _, _ => by simp
  | b :: rest, h, depth, hdepth => by
    rw [areBehaviorsBuilt] at h
    rw [List.forall_mem_cons] at hdepth ⊢
    exact ⟨behavior_recovers b h.1 depth hdepth.1, behaviors_recover rest h.2 depth hdepth.2⟩

end

/-! ## Systems -/

/-- A behavior is refused at the first of its actions that nests too deep. -/
lemma behavior_streams {b : Behavior} (h : b.IsBuilt) : Streams behavior b.toJson b := by
  refine ⟨fun access => behavior_recovers b h _ (le_refl _) access, fun level hlevel hdeep => ?_⟩
  obtain ⟨name, actions⟩ := b
  rw [Behavior.IsBuilt] at h
  rw [behavior, Reading.depth_within]
  rw [Behavior.toJson, actionDocuments_eq_map] at hdeep ⊢
  have hmember : (Reading.ofJson (.array (actions.map Action.toJson))).depth + 1 ≤
      (Reading.ofJson (.object [("name", .string name),
        ("actions", .array (actions.map Action.toJson))])).depth :=
    Reading.depth_member (List.mem_cons_of_mem _ List.mem_cons_self)
  obtain ⟨depth, hdepth⟩ : ∃ d, (Reading.ofJson (.object [("name", .string name),
      ("actions", .array (actions.map Action.toJson))])).depth = d + 1 := ⟨_, rfl⟩
  have hactions : ∀ a ∈ actions, Streams (action (behaviorWithin depth)) a.toJson a := fun a ha =>
    ⟨actions_recover actions h.2 depth (fun a ha => by
      have hitem := Reading.depth_item (List.mem_map_of_mem (f := Action.toJson) ha)
      omega) a ha, fun level _ hdeep => action_refuses _ (kind_undeclared a.kind) level hdeep⟩
  rw [hdepth, behaviorWithin]
  exact (Record.streams ["name", "actions"] rfl rfl (by decide)
    (((streams_field (streams_text name) _ _).and
      (streams_field (streams_list hactions) _ _)).check (by
        dsimp only
        rw [h.1]))).refuses level hlevel hdeep

lemma component_streams {c : Component} (h : ∀ e ∈ c.services, e.behavior.IsBuilt) :
    Streams component c.toJson c := by
  have hservice : ∀ e ∈ c.services, Streams serviceEffect
      (.object [("service", .string e.service), ("behavior", e.behavior.toJson)]) e := fun e he =>
    Record.streams ["service", "behavior"] rfl rfl (by decide)
      (((streams_field (streams_text e.service) _ _).and
        (streams_field (behavior_streams (h e he)) _ _)).map _)
  exact Record.streams ["id", "name", "services"] rfl rfl (by decide)
    (((streams_field (streams_text c.id) _ _).and
      ((streams_field (streams_text c.name) _ _).and
        (streams_field (streams_list hservice) _ _))).map _)

lemma assemblyContext_streams (c : AssemblyContext) : Streams assemblyContext
    (.object [("id", .string c.id), ("name", .string c.name), ("component", .string c.component)])
    c :=
  Record.streams ["id", "name", "component"] rfl rfl (by decide)
    (((streams_field (streams_text c.id) _ _).and
      ((streams_field (streams_text c.name) _ _).and
        (streams_field (streams_text c.component) _ _))).map _)

lemma assemblyConnector_streams (c : AssemblyConnector) : Streams assemblyConnector
    (.object [("requiring", .string c.requiring), ("role", .string c.role),
      ("providing", .string c.providing)]) c :=
  Record.streams ["requiring", "role", "providing"] rfl rfl (by decide)
    (((streams_field (streams_text c.requiring) _ _).and
      ((streams_field (streams_text c.role) _ _).and
        (streams_field (streams_text c.providing) _ _))).map _)

lemma processingResource_streams (r : ProcessingResource) :
    Streams processingResource r.toJson r := by
  have hscheduling : Recovers schedulingPolicy (.string r.scheduling.name) r.scheduling := by
    refine Json.recovers_bare ?_
    cases r.scheduling <;> rfl
  exact Record.streams ["resource", "processing_rate", "servers", "scheduling"] rfl rfl (by decide)
    (((streams_field (streams_text r.resource) _ _).and
      ((streams_field ((Json.recovers_double r.processingRate).streams rfl) _ _).and
        ((streams_field ((Json.recovers_natural r.servers).streams rfl) _ _).and
          (streams_field (hscheduling.streams rfl) _ _)))).map _)

lemma resourceContainer_streams (c : ResourceContainer) : Streams resourceContainer c.toJson c :=
  Record.streams ["id", "name", "resources"] rfl rfl (by decide)
    (((streams_field (streams_text c.id) _ _).and
      ((streams_field (streams_text c.name) _ _).and
        (streams_field (streams_list fun r _ => processingResource_streams r) _ _))).map _)

lemma allocationContext_streams (a : AllocationContext) : Streams allocationContext
    (.object [("assembly_context", .string a.assemblyContext), ("container", .string a.container)])
    a :=
  Record.streams ["assembly_context", "container"] rfl rfl (by decide)
    (((streams_field (streams_text a.assemblyContext) _ _).and
      (streams_field (streams_text a.container) _ _)).map _)

lemma monitoringSpec_streams (s : MonitoringSpec) : Streams monitoringSpec
    (.object [("action", .string s.action), ("metric", .string s.metric.name)]) s := by
  have hmetric : Recovers metricKind (.string s.metric.name) s.metric := by
    refine Json.recovers_bare ?_
    cases s.metric
    rfl
  exact Record.streams ["action", "metric"] rfl rfl (by decide)
    (((streams_field (streams_text s.action) _ _).and
      (streams_field (hmetric.streams rfl) _ _)).map _)

lemma systemModel_streams {m : SystemModel} (h : m.IsBuilt) : Streams systemModel m.toJson m :=
  Record.streams ["name", "components", "assembly_contexts", "connectors", "containers",
      "allocation", "monitoring"] rfl rfl (by decide)
    (((streams_field (streams_text m.name) _ _).and
      ((streams_field (streams_list fun c hc => component_streams (h c hc)) _ _).and
        ((streams_field (streams_list fun c _ => assemblyContext_streams c) _ _).and
          ((streams_field (streams_list fun c _ => assemblyConnector_streams c) _ _).and
            ((streams_field (streams_list fun c _ => resourceContainer_streams c) _ _).and
              ((streams_field (streams_list fun a _ => allocationContext_streams a) _ _).and
                (streams_field (streams_list fun s _ => monitoringSpec_streams s) _ _))))))).map _)

end Decode

/-- **The text of a specification determines it.**  A specification that has been read from a text keeps
this text without the white space around it.  The text that is kept denotes the same expression and is
kept as it is when it is read again, so writing a specification as its text loses nothing, and no other
text that reads as a specification with this source denotes another expression. -/
theorem Specification.source_determines {text : String} {s : Specification}
    (h : Specification.parse text = .ok s) :
    s.source = Text.trim text ∧ Specification.parse s.source = .ok s ∧
      Recovers Decode.specification (.string s.source) s ∧
      ∀ other t, Specification.parse other = .ok t → t.source = s.source → t.tree = s.tree := by
  have hparsed : s.IsParsed := ⟨text, h⟩
  have hsource := hparsed.parse_source
  refine ⟨(Specification.parse_eq_ok h).1, hsource, Decode.specification_recovers hparsed,
    fun other t ht hsame => ?_⟩
  have hagain := Specification.IsParsed.parse_source ⟨other, ht⟩
  rw [hsame, hsource] at hagain
  injection hagain with heq
  rw [heq]

/-- A text of an enumeration value that begins with a space which the grammar does not skip, with a line
break behind it. -/
theorem Specification.source_determines_quoted :
    ∃ (text other : String) (s t : Specification), Specification.parse text = .ok s ∧
      Specification.parse other = .ok t ∧ text ≠ other ∧ s.tree = .literal (.enum "\u00a0a b") ∧
      s.source = Text.trim text ∧ Specification.parse s.source = .ok s ∧
      Recovers Decode.specification (.string s.source) s ∧ t.source = s.source ∧ t.tree = s.tree := by
  let s : Specification := ⟨"\"\u00a0a b\"", .literal (.enum "\u00a0a b")⟩
  have htext : Specification.parse " \t\"\u00a0a b\"\n" = .ok s := rfl
  have hother : Specification.parse "\"\u00a0a b\"\r " = .ok s := rfl
  obtain ⟨hsource, hparse, hrecovers, hsame⟩ := Specification.source_determines htext
  exact ⟨_, _, s, s, htext, hother, by decide, rfl, hsource, hparse, hrecovers, rfl,
    hsame _ _ hother rfl⟩

/-- **Models survive files.**  What is written of a model, in either form, is decoded as the same model
if the document does not nest too deep: the same expressions, and behaviors with the same actions at the
start and after each other.  A document that nests deeper is refused. -/
theorem SystemModel.recovered {m : SystemModel} (h : m.IsBuilt) (numbers : m.toJson.IsKept)
    {text : String} (written : text = Json.render m.toJson ∨ text = Json.pretty m.toJson) :
    ((Reading.ofJson m.toJson).depth ≤ Json.deepest →
        Json.decodeText Decode.systemModel text = .ok m) ∧
      (Json.deepest < (Reading.ofJson m.toJson).depth →
        Json.decodeText Decode.systemModel text = .error .malformed) := by
  have hdecoded := (Decode.systemModel_streams h).decodeText numbers written
  refine ⟨fun hshallow => ?_, fun hdeep => ?_⟩
  · rw [hdecoded, if_pos hshallow]
  · rw [hdecoded, if_neg (by omega)]

/-- Loops in one another. -/
def Behavior.loops : Nat → Behavior
  | 0 => ⟨"", [⟨"s", "", none, .start⟩]⟩
  | n + 1 => ⟨"", [⟨"s", "", some "l", .start⟩,
      ⟨"l", "", none, .loop ⟨"1", .literal (.int 1)⟩ (Behavior.loops n)⟩]⟩

lemma Behavior.loops_isBuilt (n : Nat) : (Behavior.loops n).IsBuilt := by
  induction n with
  | zero => exact ⟨rfl, trivial, trivial⟩
  | succ n ih => exact ⟨rfl, trivial, ⟨⟨"1", rfl⟩, ih⟩, trivial⟩

lemma Behavior.loops_isKept (n : Nat) : (Behavior.loops n).toJson.IsKept := by
  induction n with
  | zero => exact ⟨trivial, ⟨⟨trivial, trivial, trivial, trivial, trivial⟩, trivial⟩, trivial⟩
  | succ n ih =>
    exact ⟨trivial, ⟨⟨trivial, trivial, trivial, trivial, trivial⟩,
      ⟨trivial, trivial, trivial, trivial, trivial, ih, trivial⟩, trivial⟩, trivial⟩

/-- Every loop is three arrays and objects deeper. -/
lemma Behavior.depth_loops (n : Nat) :
    (Reading.ofJson (Behavior.loops n).toJson).depth = 3 * n + 3 := by
  induction n with
  | zero => rfl
  | succ n ih =>
    simp only [Behavior.loops, Behavior.toJson, actionDocuments, Action.toJson, ActionKind.members,
      Json.ofOption, List.cons_append, List.nil_append, Reading.ofJson, Reading.ofJsons,
      Reading.ofMembers, Reading.ofMember, Reading.depth, Reading.depthOfItems,
      Reading.depthOfMembers, Reading.depthOfMember, ih]
    omega

/-- A model with loops in one another. -/
def SystemModel.loops (n : Nat) : SystemModel :=
  ⟨"m", [⟨"c", "", [⟨"s", .loops n⟩]⟩], [], [], [], [], []⟩

lemma SystemModel.loops_isBuilt (n : Nat) : (SystemModel.loops n).IsBuilt :=
  List.forall_mem_singleton.mpr (List.forall_mem_singleton.mpr (Behavior.loops_isBuilt n))

lemma SystemModel.loops_isKept (n : Nat) : (SystemModel.loops n).toJson.IsKept :=
  ⟨trivial, ⟨⟨trivial, trivial, ⟨⟨trivial, Behavior.loops_isKept n, trivial⟩, trivial⟩, trivial⟩,
    trivial⟩, trivial, trivial, trivial, trivial, trivial, trivial⟩

lemma SystemModel.depth_loops (n : Nat) :
    (Reading.ofJson (SystemModel.loops n).toJson).depth = 3 * n + 8 := by
  simp only [SystemModel.loops, SystemModel.toJson, Component.toJson, Json.ofList, List.map_cons,
    List.map_nil, Reading.ofJson, Reading.ofJsons, Reading.ofMembers, Reading.ofMember,
    Reading.depth, Reading.depthOfItems, Reading.depthOfMembers, Reading.depthOfMember,
    Behavior.depth_loops]
  omega

/-- A branch around a loop, an iterator and a fork, with a probability and a rate, and specifications
that were written with white space.  Forty loops in one another are refused. -/
theorem SystemModel.recovered_nested :
    ∃ m deep : SystemModel, m.IsBuilt ∧ m.toJson.IsKept ∧ (Reading.ofJson m.toJson).depth = 23 ∧
      Json.decodeText Decode.systemModel (Json.render m.toJson) = .ok m ∧
      Json.decodeText Decode.systemModel (Json.pretty m.toJson) = .ok m ∧
      deep.IsBuilt ∧ deep.toJson.IsKept ∧ (Reading.ofJson deep.toJson).depth = 128 ∧
      Json.decodeText Decode.systemModel (Json.render deep.toJson) = .error .malformed := by
  let guard : Specification := ⟨"b", .variable "b"⟩
  let twice : Specification := ⟨"2", .literal (.int 2)⟩
  let inner : Behavior := ⟨"inner", [⟨"i", "", none, .start⟩]⟩
  let fork : Behavior := ⟨"fork", [⟨"f0", "", some "f", .start⟩,
    ⟨"f", "", none, .fork [inner] [inner, inner]⟩]⟩
  let each : Behavior := ⟨"each", [⟨"e0", "", some "e", .start⟩,
    ⟨"e", "", none, .collectionIterator "xs" fork⟩]⟩
  let repeated : Behavior := ⟨"repeated", [⟨"r0", "", some "r", .start⟩,
    ⟨"r", "", none, .loop twice each⟩]⟩
  let outer : Behavior := ⟨"outer", [⟨"a", "", some "b", .start⟩,
    ⟨"b", "", none, .branch [⟨.guard guard, inner⟩, ⟨.probability 0.5, repeated⟩]⟩]⟩
  let m : SystemModel := ⟨"m", [⟨"k", "", [⟨"run", outer⟩]⟩], [], [],
    [⟨"node", "", [⟨"cpu", 2.5, 2, .fcfs⟩]⟩], [], []⟩
  have hguard : guard.IsParsed := ⟨" b", rfl⟩
  have htwice : twice.IsParsed := ⟨"\t2", rfl⟩
  have hinner : inner.IsBuilt := ⟨rfl, trivial, trivial⟩
  have hfork : fork.IsBuilt := ⟨rfl, trivial, ⟨⟨hinner, trivial⟩, hinner, hinner, trivial⟩, trivial⟩
  have heach : each.IsBuilt := ⟨rfl, trivial, hfork, trivial⟩
  have hrepeated : repeated.IsBuilt := ⟨rfl, trivial, ⟨htwice, heach⟩, trivial⟩
  have houter : outer.IsBuilt :=
    ⟨rfl, trivial, ⟨⟨hguard, hinner⟩, ⟨trivial, hrepeated⟩, trivial⟩, trivial⟩
  have hm : m.IsBuilt := List.forall_mem_singleton.mpr (List.forall_mem_singleton.mpr houter)
  have hhalf : Json.ReadsNumber (Json.scalar (.double 0.5)).toList (.double 0.5) :=
    ⟨⟨false, ['0'], some ['5'], none⟩, rfl, rfl⟩
  have hrate : Json.ReadsNumber (Json.scalar (.double 2.5)).toList (.double 2.5) :=
    ⟨⟨false, ['2'], some ['5'], none⟩, rfl, rfl⟩
  have hkept : m.toJson.IsKept := by
    simp only [SystemModel.toJson, Component.toJson, ResourceContainer.toJson,
      ProcessingResource.toJson, Behavior.toJson, actionDocuments, Action.toJson, ActionKind.members,
      transitionDocuments, behaviorDocuments, BranchTransition.toJson, TransitionCondition.toJson,
      Json.ofList, Json.ofOption, List.map_cons, List.map_nil, List.cons_append, List.nil_append,
      Json.IsKept, Json.areKept, Json.areMembersKept, Json.isMemberKept, true_and, and_true,
      m, outer, repeated, each, fork, inner]
    exact ⟨hhalf, hrate, by decide⟩
  have hdepth : (Reading.ofJson m.toJson).depth = 23 := rfl
  have hshallow : (Reading.ofJson m.toJson).depth ≤ Json.deepest := by
    rw [hdepth]
    decide
  have hdeep : Json.deepest < (Reading.ofJson (SystemModel.loops 40).toJson).depth := by
    rw [SystemModel.depth_loops]
    decide
  exact ⟨m, .loops 40, hm, hkept, hdepth, (SystemModel.recovered hm hkept (.inl rfl)).1 hshallow,
    (SystemModel.recovered hm hkept (.inr rfl)).1 hshallow, SystemModel.loops_isBuilt 40,
    SystemModel.loops_isKept 40, SystemModel.depth_loops 40,
    (SystemModel.recovered (SystemModel.loops_isBuilt 40) (SystemModel.loops_isKept 40)
      (.inl rfl)).2 hdeep⟩

/-- A model nests deeper than its document may. -/
theorem SystemModel.recovered_too_deep :
    (SystemModel.loops 40).IsBuilt ∧ (SystemModel.loops 40).toJson.IsKept ∧
      (Reading.ofJson (SystemModel.loops 40).toJson).depth = 128 ∧
      Json.decodeText Decode.systemModel (Json.render (SystemModel.loops 40).toJson) =
        .error .malformed ∧
      Json.decodeText Decode.systemModel (Json.pretty (SystemModel.loops 40).toJson) =
        .error .malformed := by
  have hdeep : ¬ (Reading.ofJson (SystemModel.loops 40).toJson).depth ≤ Json.deepest := by
    rw [SystemModel.depth_loops]
    decide
  have hkept := SystemModel.loops_isKept 40
  have hstreams := Decode.systemModel_streams (SystemModel.loops_isBuilt 40)
  refine ⟨SystemModel.loops_isBuilt 40, hkept, SystemModel.depth_loops 40, ?_, ?_⟩
  · rw [hstreams.decodeText hkept (.inl rfl), if_neg hdeep]
  · rw [hstreams.decodeText hkept (.inr rfl), if_neg hdeep]

end ServiceSim
