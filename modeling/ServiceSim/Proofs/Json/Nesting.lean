import ServiceSim.Proofs.Json.Records
import ServiceSim.Proofs.Json.Texts

/-!
# Documents that nest too deep

A document that is decoded while it is read is malformed where it nests too deep.  A decoder streams a
value if it gives the value back from its document, and refuses the document inside so many others that
it nests too deep (`Streams`).  For a record this is settled member by member (`Record.streams`): what
stands before the fault is decoded as ever, so the fault is the first that is met.

A document that does not nest too deep is read as it was written (`read_written`).
-/

namespace ServiceSim.Json

variable {α β : Type} {level : Nat} {json : Json} {items : List Json}
  {members : List (String × Json)}

/-! ## Documents inside others -/

namespace Reading

lemma depth_nested (level : Nat) (r : Reading) : (nested level r).depth = r.depth := by
  rw [nested]
  split_ifs
  · rfl
  · rw [depth]

mutual

/-- What is read of a document nests as deep as the document. -/
lemma depth_within (json : Json) (level : Nat) :
    (within level json).depth = (ofJson json).depth := by
  cases json with
  | array items => rw [within, depth_nested, ofJson, depth, depth, depthOfItems_within items]
  | object members =>
    rw [within, depth_nested, ofJson, depth, depth, depthOfMembers_within members]
  | _ => rw [within, ofJson]

lemma depthOfItems_within (items : List Json) (level : Nat) :
    depthOfItems (itemsWithin level items) = depthOfItems (ofJsons items) := by
  cases items with
  | nil => rw [itemsWithin, ofJsons]
  | cons json items =>
    rw [itemsWithin, ofJsons, depthOfItems, depthOfItems, depth_within json,
      depthOfItems_within items]

lemma depthOfMembers_within (members : List (String × Json)) (level : Nat) :
    depthOfMembers (membersWithin level members) = depthOfMembers (ofMembers members) := by
  cases members with
  | nil => rw [membersWithin, ofMembers]
  | cons m members =>
    rw [membersWithin, ofMembers, depthOfMembers, depthOfMembers, depthOfMember_within m,
      depthOfMembers_within members]

lemma depthOfMember_within (m : String × Json) (level : Nat) :
    depthOfMember (memberWithin level m) = depthOfMember (ofMember m) := by
  obtain ⟨name, json⟩ := m
  rw [memberWithin, ofMember, depthOfMember, depthOfMember, depth_within json]

end

mutual

/-- A document that does not nest too deep is read as it is. -/
lemma within_eq_ofJson (json : Json) (level : Nat) (h : level + (ofJson json).depth ≤ deepest) :
    within level json = ofJson json := by
  cases json with
  | array items =>
    rw [ofJson, depth] at h
    rw [within, ofJson, nested, if_pos (by omega), itemsWithin_eq_ofJsons items _ (by omega)]
  | object members =>
    rw [ofJson, depth] at h
    rw [within, ofJson, nested, if_pos (by omega), membersWithin_eq_ofMembers members _ (by omega)]
  | _ => rw [within, ofJson]

lemma itemsWithin_eq_ofJsons (items : List Json) (level : Nat)
    (h : level + depthOfItems (ofJsons items) ≤ deepest) :
    itemsWithin level items = ofJsons items := by
  cases items with
  | nil => rw [itemsWithin, ofJsons]
  | cons json items =>
    rw [ofJsons, depthOfItems] at h
    rw [itemsWithin, ofJsons, within_eq_ofJson json _ (by omega),
      itemsWithin_eq_ofJsons items _ (by omega)]

lemma membersWithin_eq_ofMembers (members : List (String × Json)) (level : Nat)
    (h : level + depthOfMembers (ofMembers members) ≤ deepest) :
    membersWithin level members = ofMembers members := by
  cases members with
  | nil => rw [membersWithin, ofMembers]
  | cons m members =>
    rw [ofMembers, depthOfMembers] at h
    rw [membersWithin, ofMembers, memberWithin_eq_ofMember m _ (by omega),
      membersWithin_eq_ofMembers members _ (by omega)]

lemma memberWithin_eq_ofMember (m : String × Json) (level : Nat)
    (h : level + depthOfMember (ofMember m) ≤ deepest) : memberWithin level m = ofMember m := by
  obtain ⟨name, json⟩ := m
  rw [ofMember, depthOfMember] at h
  rw [memberWithin, ofMember, within_eq_ofJson json _ h]

end

mutual

/-- A document that nests too deep has a fault. -/
lemma json?_within (json : Json) (level : Nat) (hlevel : level ≤ deepest)
    (h : deepest < level + (ofJson json).depth) : (within level json).json? = none := by
  cases json with
  | array items =>
    rw [ofJson, depth] at h
    rw [within, nested]
    split_ifs with hinside
    · rw [json?, jsons?_itemsWithin items (level + 1) hinside (by omega), Option.map_none]
    · rw [json?]
  | object members =>
    rw [ofJson, depth] at h
    rw [within, nested]
    split_ifs with hinside
    · rw [json?, jsonMembers?_membersWithin members (level + 1) hinside (by omega),
        Option.map_none]
    · rw [json?]
  | _ =>
    rw [ofJson, depth] at h
    omega

lemma jsons?_itemsWithin (items : List Json) (level : Nat) (hlevel : level ≤ deepest)
    (h : deepest < level + depthOfItems (ofJsons items)) :
    jsons? (itemsWithin level items) = none := by
  cases items with
  | nil =>
    rw [ofJsons, depthOfItems] at h
    omega
  | cons json items =>
    rw [ofJsons, depthOfItems] at h
    rw [itemsWithin, jsons?]
    by_cases hfirst : deepest < level + (ofJson json).depth
    · rw [json?_within json level hlevel hfirst]
    · rw [jsons?_itemsWithin items level hlevel (by omega)]
      cases (within level json).json? <;> rfl

lemma jsonMembers?_membersWithin (members : List (String × Json)) (level : Nat)
    (hlevel : level ≤ deepest) (h : deepest < level + depthOfMembers (ofMembers members)) :
    jsonMembers? (membersWithin level members) = none := by
  cases members with
  | nil =>
    rw [ofMembers, depthOfMembers] at h
    omega
  | cons m members =>
    rw [ofMembers, depthOfMembers] at h
    rw [membersWithin, jsonMembers?]
    by_cases hfirst : deepest < level + depthOfMember (ofMember m)
    · rw [jsonMember?_memberWithin m level hlevel hfirst]
    · rw [jsonMembers?_membersWithin members level hlevel (by omega)]
      cases jsonMember? (memberWithin level m) <;> rfl

lemma jsonMember?_memberWithin (m : String × Json) (level : Nat) (hlevel : level ≤ deepest)
    (h : deepest < level + depthOfMember (ofMember m)) :
    jsonMember? (memberWithin level m) = none := by
  obtain ⟨name, json⟩ := m
  rw [ofMember, depthOfMember] at h
  simp only [memberWithin, jsonMember?, json?_within json level hlevel h]

end

/-! ### Where a document nests too deep -/

lemma exists_item_deeper (hlevel : level ≤ deepest)
    (h : deepest < level + depthOfItems (ofJsons items)) :
    ∃ json ∈ items, deepest < level + (ofJson json).depth := by
  induction items with
  | nil =>
    rw [ofJsons, depthOfItems] at h
    omega
  | cons json items ih =>
    rw [ofJsons, depthOfItems] at h
    by_cases hfirst : deepest < level + (ofJson json).depth
    · exact ⟨json, List.mem_cons_self, hfirst⟩
    · obtain ⟨deeper, hmem, hdeeper⟩ := ih (by omega)
      exact ⟨deeper, List.mem_cons_of_mem _ hmem, hdeeper⟩

/-- Members nest as deep as their values. -/
lemma depthOfMembers_eq (members : List (String × Json)) :
    depthOfMembers (ofMembers members) = depthOfItems (ofJsons (members.map Prod.snd)) := by
  induction members with
  | nil => rfl
  | cons m members ih =>
    rw [ofMembers, depthOfMembers, ofMember, depthOfMember, ih, List.map_cons, ofJsons,
      depthOfItems]

lemma exists_member_deeper (hlevel : level ≤ deepest)
    (h : deepest < level + depthOfMembers (ofMembers members)) :
    ∃ m ∈ members, deepest < level + (ofJson m.2).depth := by
  rw [depthOfMembers_eq] at h
  obtain ⟨json, hjson, hdeeper⟩ := exists_item_deeper hlevel h
  obtain ⟨m, hm, rfl⟩ := List.mem_map.mp hjson
  exact ⟨m, hm, hdeeper⟩

/-- An array that nests too deep cannot be used itself, or holds an element that nests too deep. -/
lemma within_array (h : deepest < level + (ofJson (.array items)).depth) :
    (∃ part, within level (.array items) = .unusable part) ∨
      level + 1 ≤ deepest ∧ within level (.array items) = .array (items.map (within (level + 1))) ∧
        ∃ json ∈ items, deepest < level + 1 + (ofJson json).depth := by
  rw [ofJson, depth] at h
  rw [within, nested, itemsWithin_eq_map]
  split_ifs with hinside
  · exact .inr ⟨hinside, rfl, exists_item_deeper hinside (by omega)⟩
  · exact .inl ⟨_, rfl⟩

/-- So does an object. -/
lemma within_object (h : deepest < level + (ofJson (.object members)).depth) :
    (∃ part, within level (.object members) = .unusable part) ∨
      level + 1 ≤ deepest ∧ within level (.object members) =
        .object (members.map fun m => (some m.1, within (level + 1) m.2)) ∧
          ∃ m ∈ members, deepest < level + 1 + (ofJson m.2).depth := by
  rw [ofJson, depth] at h
  rw [within, nested, membersWithin_eq_map]
  split_ifs with hinside
  · exact .inr ⟨hinside, rfl, exists_member_deeper hinside (by omega)⟩
  · exact .inl ⟨_, rfl⟩

end Reading

/-! ## Parts -/

open Reading (within)

/-- A decoder gives a value back from its document, and refuses the document where it nests too deep. -/
structure Streams (decoder : Decoder α) (json : Json) (a : α) : Prop where
  recovers : Recovers decoder json a
  refuses : ∀ level ≤ deepest, deepest < level + (Reading.ofJson json).depth →
    decoder .streamed (within level json) = .error .malformed

/-- A document without arrays and objects does not nest. -/
lemma Recovers.streams {decoder : Decoder α} {a : α} (h : Recovers decoder json a)
    (flat : (Reading.ofJson json).depth = 0) : Streams decoder json a :=
  ⟨h, fun level hlevel hdeep => by omega⟩

lemma streams_text (s : String) : Streams Decode.text (.string s) s := (recovers_text s).streams rfl

/-- A list with an element that nests too deep, if the others are decoded. -/
lemma mapM_refuses {decoder : Decoder α} {f : α → Json} {items : List α}
    (h : ∀ a ∈ items, Streams decoder (f a) a) (hlevel : level ≤ deepest)
    (hdeeper : ∃ json ∈ items.map f, deepest < level + (Reading.ofJson json).depth) :
    ((items.map f).map (within level)).mapM (decoder .streamed) = .error .malformed := by
  induction items with
  | nil =>
    obtain ⟨_, hmem, -⟩ := hdeeper
    cases hmem
  | cons a items ih =>
    rw [List.forall_mem_cons] at h
    rw [List.map_cons, List.map_cons, List.mapM_cons]
    by_cases hfirst : deepest < level + (Reading.ofJson (f a)).depth
    · rw [h.1.refuses level hlevel hfirst]
      rfl
    · rw [List.map_cons, List.exists_mem_cons_iff] at hdeeper
      rw [Reading.within_eq_ofJson (f a) level (by omega), h.1.recovers .streamed,
        ih h.2 (hdeeper.resolve_left hfirst)]
      rfl

/-- Every element of a list. -/
lemma streams_list {decoder : Decoder α} {f : α → Json} {items : List α}
    (h : ∀ a ∈ items, Streams decoder (f a) a) :
    Streams (Decode.list decoder) (Json.ofList f items) items := by
  refine ⟨recovers_list fun a ha => (h a ha).recovers, fun level _ hdeep => ?_⟩
  rw [Json.ofList] at hdeep ⊢
  rcases Reading.within_array hdeep with ⟨part, heq⟩ | ⟨hinside, heq, hdeeper⟩
  · rw [heq]
    rfl
  · rw [heq]
    exact mapM_refuses h hinside hdeeper

/-! ## Records -/

namespace Record

variable {r : Record α} {s : Record β} {values others : List Json} {a : α} {b : β}

/-- A record makes a value of the values of its members, and refuses them where one nests too deep. -/
structure Streams (r : Record α) (values : List Json) (a : α) : Prop where
  reads : ∀ access, r.Reads access (values.map Reading.ofJson) a
  refuses : ∀ level ≤ deepest, (∃ json ∈ values, deepest < level + (Reading.ofJson json).depth) →
    fillInOrder .streamed r.fields (values.map (within level)) r.empty = .error .malformed

/-- Values that do not nest too deep are read as they are. -/
lemma map_within (h : ¬ ∃ json ∈ values, deepest < level + (Reading.ofJson json).depth) :
    values.map (within level) = values.map Reading.ofJson :=
  List.map_congr_left fun json hjson =>
    Reading.within_eq_ofJson json level (not_lt.mp fun hdeep => h ⟨json, hjson, hdeep⟩)

lemma streams_field {decoder : Decoder α} (h : Json.Streams decoder json a) (name : String)
    (missing : Option α) : (field name decoder missing).Streams [json] a := by
  refine ⟨reads_field h.recovers name missing, fun level hlevel hdeeper => ?_⟩
  obtain ⟨_, hmem, hdeep⟩ := hdeeper
  rw [List.mem_singleton.mp hmem] at hdeep
  change fillInOrder .streamed [(name, fun access r _ => (decoder access r).map some)]
    [within level json] none = _
  rw [fillInOrder, h.refuses level hlevel hdeep]
  rfl

lemma Streams.and (hr : r.Streams values a) (hs : s.Streams others b) :
    (r.and s).Streams (values ++ others) (a, b) := by
  refine ⟨fun access => ?_, fun level hlevel hdeeper => ?_⟩
  · rw [List.map_append]
    exact (hr.reads access).and (hs.reads access)
  · have hlength := (hr.reads .streamed).1
    rw [List.length_map, ← List.length_map (within level)] at hlength
    rw [List.map_append]
    refine (fillInOrder_and hlength).trans ?_
    by_cases hleft : ∃ json ∈ values, deepest < level + (Reading.ofJson json).depth
    · rw [hr.refuses level hlevel hleft]
      rfl
    · have hright : ∃ json ∈ others, deepest < level + (Reading.ofJson json).depth := by
        obtain ⟨json, hmem, hdeep⟩ := hdeeper
        rcases List.mem_append.mp hmem with hmem | hmem
        · exact absurd ⟨json, hmem, hdeep⟩ hleft
        · exact ⟨json, hmem, hdeep⟩
      obtain ⟨-, draft, hfill, -⟩ := hr.reads .streamed
      rw [map_within hleft, hfill, hs.refuses level hlevel hright]
      rfl

lemma Streams.map (h : r.Streams values a) (f : α → β) : (r.map f).Streams values (f a) :=
  ⟨fun access => (h.reads access).map f, h.refuses⟩

lemma Streams.check (h : r.Streams values a) {f : α → Except DecodeError β} (hf : f a = .ok b) :
    (r.check f).Streams values b :=
  ⟨fun access => (h.reads access).check hf, h.refuses⟩

/-- **A record is settled by its members.**  If each of them is given back, and refused where it nests
too deep, so is the object that holds them in the order of declaration. -/
theorem streams {members : List (String × Json)} (names : List String)
    (written : members.map Prod.fst = names) (declared : r.fields.map Prod.fst = names)
    (distinct : names.Nodup) (h : r.Streams (members.map Prod.snd) a) :
    Json.Streams r.decoder (.object members) a := by
  refine ⟨recovers names written declared distinct fun access => ?_, fun level _ hdeep => ?_⟩
  · have hreads := h.reads access
    rw [List.map_map] at hreads
    exact hreads
  · rcases Reading.within_object hdeep with ⟨part, heq⟩ | ⟨hinside, heq, m, hm, hdeeper⟩
    · rw [heq]
      rfl
    · have hnames : (members.map fun m => (some m.1, within (level + 1) m.2)).map Prod.fst =
          r.fields.map fun f => some f.1 := by
        have hnames := congrArg (List.map some) (written.trans declared.symm)
        rw [List.map_map, List.map_map] at hnames
        rw [List.map_map]
        exact hnames
      have hvalues := h.refuses (level + 1) hinside ⟨m.2, List.mem_map_of_mem hm, hdeeper⟩
      rw [List.map_map] at hvalues
      rw [heq, decoder, ofMembers_eq hnames (declared ▸ distinct), List.map_map]
      exact congrArg (fun filled => Except.bind filled r.finish) hvalues

/-- Members that are not declared are refused if one of them nests too deep. -/
lemma fill_others_refuses (undeclared : ∀ m ∈ members, r.fields.lookup m.1 = none)
    (hlevel : level ≤ deepest)
    (hdeeper : ∃ m ∈ members, deepest < level + (Reading.ofJson m.2).depth) (seen : List String)
    (draft : r.Draft) :
    r.fill .streamed Access.streamed.keep (members.map fun m => (some m.1, within level m.2)) seen
      draft = .error .malformed := by
  induction members with
  | nil =>
    obtain ⟨_, hmem, -⟩ := hdeeper
    cases hmem
  | cons m members ih =>
    rw [List.forall_mem_cons] at undeclared
    rw [List.map_cons, fill, undeclared.1]
    dsimp only
    by_cases hfirst : deepest < level + (Reading.ofJson m.2).depth
    · rw [Access.keep, Reading.isSound, Reading.json?_within m.2 level hlevel hfirst]
      rfl
    · rw [List.exists_mem_cons_iff] at hdeeper
      rw [Reading.within_eq_ofJson m.2 level (by omega), Reading.keep_ofJson,
        ih undeclared.2 (hdeeper.resolve_left hfirst)]
      rfl

/-- An object with the members of a record, and others behind them of which one nests too deep. -/
lemma ofMembersKeeping_refuses {own : List (Option String × Reading)}
    (names : own.map Prod.fst = r.fields.map fun f => some f.1)
    (distinct : (r.fields.map Prod.fst).Nodup)
    (undeclared : ∀ m ∈ members, r.fields.lookup m.1 = none)
    (h : r.Reads .streamed (own.map Prod.snd) a) (hlevel : level ≤ deepest)
    (hdeeper : ∃ m ∈ members, deepest < level + (Reading.ofJson m.2).depth) :
    r.ofMembersKeeping .streamed (own ++ members.map fun m => (some m.1, within level m.2)) =
      .error .malformed := by
  obtain ⟨seen, draft, -, heq⟩ := ofMembersKeeping_eq names distinct h
  rw [heq, fill_others_refuses undeclared hlevel hdeeper]
  rfl

end Record

/-! ## Written documents -/

/-- **What is written is read again**, if it does not nest too deep. -/
theorem read_written {text : String} (numbers : json.IsKept)
    (written : text = render json ∨ text = pretty json)
    (shallow : (Reading.ofJson json).depth ≤ deepest) : read text = (Reading.ofJson json, []) := by
  rw [read_of_isText (isText_of_written numbers written),
    Reading.within_eq_ofJson json 0 (by omega)]

/-- A written document is decoded as the value, or is malformed because it nests too deep. -/
lemma Streams.decodeText {decoder : Decoder α} {a : α} (h : Streams decoder json a)
    (numbers : json.IsKept) {text : String} (written : text = render json ∨ text = pretty json) :
    decodeText decoder text =
      if (Reading.ofJson json).depth ≤ deepest then .ok a else .error .malformed := by
  rw [Json.decodeText]
  split_ifs with hdepth
  · rw [read_written numbers written hdepth]
    dsimp only
    rw [h.recovers .streamed]
    rfl
  · rw [read_of_isText (isText_of_written numbers written)]
    dsimp only
    rw [h.refuses 0 (Nat.zero_le _) (by omega)]
    rfl

end ServiceSim.Json
