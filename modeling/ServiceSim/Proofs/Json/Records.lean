import ServiceSim.Json.Decoder
import Mathlib.Data.List.Nodup
import Mathlib.Data.List.Forall2
import Mathlib.Tactic.Lemma

/-!
# Decoding what has been written

A decoder recovers a value from a document if it gives the value back, whether the document is
decoded while it is read or has been kept (`Recovers`).

Documents are written with all members of a record, in the order of their declaration.  Of such an
object a record makes what it makes of the values alone (`Record.Reads`), because names that differ
are filled in one after another.  A record that is composed of others reads the values of both, so
the decoder of a record is settled field by field.
-/

namespace ServiceSim.Json

variable {α β δ ε : Type} {access : Access}

/-- A decoder gives a value back, however the document is at hand. -/
def Recovers (decoder : Decoder α) (json : Json) (a : α) : Prop :=
  ∀ access, decoder access (Reading.ofJson json) = .ok a

/-! ## Documents without faults -/

namespace Reading

lemma ofJsons_eq_map (items : List Json) : ofJsons items = items.map ofJson := by
  induction items with
  | nil => rfl
  | cons json items ih => rw [ofJsons, ih, List.map_cons]

lemma ofMembers_eq_map (members : List (String × Json)) :
    ofMembers members = members.map fun m => (some m.1, ofJson m.2) := by
  induction members with
  | nil => rfl
  | cons m members ih => rw [ofMembers, ih, List.map_cons, ofMember]

mutual

/-- A document at hand has no faults. -/
lemma json?_ofJson : (json : Json) → (ofJson json).json? = some json
  | .null => rfl
  | .bool _ => rfl
  | .integer _ => rfl
  | .double _ => rfl
  | .string _ => rfl
  | .array items => by rw [ofJson, json?, jsons?_ofJsons items, Option.map_some]
  | .object members => by rw [ofJson, json?, jsonMembers?_ofMembers members, Option.map_some]

lemma jsons?_ofJsons : (items : List Json) → jsons? (ofJsons items) = some items
  | [] => rfl
  | json :: items => by rw [ofJsons, jsons?, json?_ofJson json, jsons?_ofJsons items]

lemma jsonMembers?_ofMembers : (members : List (String × Json)) →
    jsonMembers? (ofMembers members) = some members
  | [] => rfl
  | m :: members => by
    rw [ofMembers, jsonMembers?, jsonMember?_ofMember m, jsonMembers?_ofMembers members]

lemma jsonMember?_ofMember : (m : String × Json) → jsonMember? (ofMember m) = some m
  | (name, json) => by simp only [ofMember, jsonMember?, json?_ofJson json]

end

/-- So it may be kept. -/
lemma keep_ofJson (access : Access) (json : Json) : access.keep (ofJson json) = .ok () := by
  cases access with
  | streamed =>
    rw [Access.keep, isSound, json?_ofJson]
    rfl
  | kept => rfl

/-! ### Depth -/

lemma depth_item {items : List Json} {json : Json} (h : json ∈ items) :
    (ofJson json).depth + 1 ≤ (ofJson (.array items)).depth := by
  rw [ofJson, depth, Nat.add_le_add_iff_right]
  induction items with
  | nil => cases h
  | cons first items ih =>
    rw [ofJsons, depthOfItems]
    rcases List.mem_cons.mp h with rfl | h
    · exact Nat.le_max_left _ _
    · exact Nat.le_trans (ih h) (Nat.le_max_right _ _)

lemma depth_member {members : List (String × Json)} {name : String} {json : Json}
    (h : (name, json) ∈ members) :
    (ofJson json).depth + 1 ≤ (ofJson (.object members)).depth := by
  rw [ofJson, depth, Nat.add_le_add_iff_right]
  induction members with
  | nil => cases h
  | cons first members ih =>
    rw [ofMembers, depthOfMembers]
    rcases List.mem_cons.mp h with rfl | h
    · exact Nat.le_max_left _ _
    · exact Nat.le_trans (ih h) (Nat.le_max_right _ _)

end Reading

/-! ## Parts -/

lemma recovers_text (s : String) : Recovers Decode.text (.string s) s := fun _ => rfl

lemma recovers_double (x : Float) : Recovers Decode.double (.double x) x := fun _ => rfl

lemma recovers_natural (n : Nat) : Recovers Decode.natural (.integer n) n := fun _ => rfl

/-- A value that may be missing and is not written as null. -/
lemma recovers_optional {decoder : Decoder α} {f : α → Json} (hnull : ∀ a, f a ≠ .null)
    (h : ∀ a, Recovers decoder (f a) a) (value : Option α) :
    Recovers (Decode.optional decoder) (Json.ofOption f value) value := by
  intro access
  cases value with
  | none => rfl
  | some a =>
    have hsome : Decode.optional decoder access (Reading.ofJson (f a)) =
        (decoder access (Reading.ofJson (f a))).map some := by
      cases hf : f a with
      | null => exact absurd hf (hnull a)
      | _ => rfl
    rw [Json.ofOption, hsome, h a access]
    rfl

/-- Every element of a list. -/
lemma recovers_list {decoder : Decoder α} {f : α → Json} {items : List α}
    (h : ∀ a ∈ items, Recovers decoder (f a) a) :
    Recovers (Decode.list decoder) (Json.ofList f items) items := by
  intro access
  rw [Json.ofList, Reading.ofJson, Decode.list, Reading.ofJsons_eq_map]
  induction items with
  | nil => rfl
  | cons a items ih =>
    rw [List.map_cons, List.map_cons, List.mapM_cons, h a List.mem_cons_self access,
      ih fun b hb => h b (List.mem_cons_of_mem _ hb)]
    rfl

/-- An alternative that holds nothing, by its name. -/
lemma recovers_bare {holding : List (String × Decoder α)} {bare : List (String × α)} {name : String}
    {a : α} (h : bare.lookup name = some a) :
    Recovers (Decode.alternative holding bare) (.string name) a := by
  intro access
  rw [Reading.ofJson, Decode.alternative, h]

/-- An alternative with what it holds. -/
lemma recovers_holding {holding : List (String × Decoder α)} {bare : List (String × α)}
    {name : String} {json : Json} {decoder : Decoder α} {a : α}
    (h : holding.lookup name = some decoder) (hjson : Recovers decoder json a) :
    Recovers (Decode.alternative holding bare) (.object [(name, json)]) a := by
  intro access
  have hnamed : Decode.named holding bare name access (Reading.ofJson json) = .ok a := by
    rw [Decode.named, h]
    exact hjson access
  cases access with
  | kept => exact hnamed
  | streamed =>
    rw [Reading.ofJson, Reading.ofMembers, Reading.ofMember, Reading.ofMembers, Decode.alternative,
      hnamed]
    rfl

/-! ## Records -/

namespace Record

variable {r : Record α} {s : Record β} {values : List Reading}

/-- A record makes a value of the values of its members, in the order of their declaration. -/
def Reads (r : Record α) (access : Access) (values : List Reading) (a : α) : Prop :=
  values.length = r.fields.length ∧
    ∃ draft, fillInOrder access r.fields values r.empty = .ok draft ∧ r.finish draft = .ok a

lemma fillInOrder_append {fields more : List (String × Fill δ)} {others : List Reading} {draft : δ}
    (h : values.length = fields.length) :
    fillInOrder access (fields ++ more) (values ++ others) draft =
      (fillInOrder access fields values draft).bind (fillInOrder access more others) := by
  induction fields generalizing values draft with
  | nil =>
    rw [List.length_nil, List.length_eq_zero_iff] at h
    rw [h]
    rfl
  | cons field fields ih =>
    cases values with
    | nil => cases h
    | cons value values =>
      rw [List.length_cons, List.length_cons, Nat.add_right_cancel_iff] at h
      rw [List.cons_append, List.cons_append, fillInOrder, fillInOrder]
      cases field.2 access value draft with
      | error e => rfl
      | ok next => exact ih h

/-- Filling a part of a draft. -/
lemma fillInOrder_part (access : Access) (fields : List (String × Fill ε)) (lift : Fill ε → Fill δ)
    (part : ε → δ) (h : ∀ fill access value draft,
      lift fill access value (part draft) = (fill access value draft).map part)
    (values : List Reading) (draft : ε) :
    fillInOrder access (fields.map fun f => (f.1, lift f.2)) values (part draft) =
      (fillInOrder access fields values draft).map part := by
  induction fields generalizing values draft with
  | nil => cases values <;> rfl
  | cons field fields ih =>
    cases values with
    | nil => rfl
    | cons value values =>
      rw [List.map_cons, fillInOrder, fillInOrder, h]
      cases field.2 access value draft with
      | error e => rfl
      | ok next => exact ih values next

lemma reads_field {decoder : Decoder α} {json : Json} {a : α} (h : Recovers decoder json a)
    (name : String) (missing : Option α) (access : Access) :
    (field name decoder missing).Reads access [Reading.ofJson json] a := by
  have hfill : fillInOrder access [(name, fun access r _ => (decoder access r).map some)]
      [Reading.ofJson json] none = .ok (some a) := by
    rw [fillInOrder, h access]
    rfl
  exact ⟨rfl, some a, hfill, rfl⟩

/-- Filling the drafts of two records one after the other. -/
lemma fillInOrder_and {others : List Reading} (h : values.length = r.fields.length) :
    fillInOrder access (r.and s).fields (values ++ others) (r.empty, s.empty) =
      (fillInOrder access r.fields values r.empty).bind fun draft =>
        (fillInOrder access s.fields others s.empty).map fun draft' => (draft, draft') := by
  have hleft := fillInOrder_part access r.fields
    (fun fill access json draft => (fill access json draft.1).map fun d => (d, draft.2))
    (fun d => (d, s.empty)) (fun _ _ _ _ => rfl) values r.empty
  refine (fillInOrder_append (h.trans (List.length_map _).symm)).trans ?_
  refine (congrArg (fun filled => Except.bind filled _) hleft).trans ?_
  cases fillInOrder access r.fields values r.empty with
  | error e => rfl
  | ok draft =>
    exact fillInOrder_part access s.fields
      (fun fill access json draft => (fill access json draft.2).map fun d => (draft.1, d))
      (fun d => (draft, d)) (fun _ _ _ _ => rfl) others s.empty

lemma length_fields_and : (r.and s).fields.length = r.fields.length + s.fields.length :=
  List.length_append.trans (congrArg₂ _ (List.length_map _) (List.length_map _))

lemma Reads.and {others : List Reading} {a : α} {b : β} (hr : r.Reads access values a)
    (hs : s.Reads access others b) : (r.and s).Reads access (values ++ others) (a, b) := by
  obtain ⟨hlength, draft, hfill, hfinish⟩ := hr
  obtain ⟨hlength', draft', hfill', hfinish'⟩ := hs
  refine ⟨?_, (draft, draft'), ?_, ?_⟩
  · rw [List.length_append, hlength, hlength', length_fields_and]
  · refine (fillInOrder_and hlength).trans ?_
    rw [hfill, hfill']
    rfl
  · change (do return (← r.finish draft, ← s.finish draft')) = _
    rw [hfinish, hfinish']
    rfl

lemma Reads.map {a : α} (h : r.Reads access values a) (f : α → β) :
    (r.map f).Reads access values (f a) := by
  obtain ⟨hlength, draft, hfill, hfinish⟩ := h
  refine ⟨hlength, draft, hfill, ?_⟩
  change (r.finish draft).map f = _
  rw [hfinish]
  rfl

lemma Reads.check {a : α} {b : β} (h : r.Reads access values a) {f : α → Except DecodeError β}
    (hf : f a = .ok b) : (r.check f).Reads access values b := by
  obtain ⟨hlength, draft, hfill, hfinish⟩ := h
  refine ⟨hlength, draft, hfill, ?_⟩
  change (r.finish draft).bind f = _
  rw [hfinish]
  exact hf

/-! ### Objects -/

/-- Members that stand in the order of their declaration are filled in one after another. -/
lemma fill_declared (other : Reading → Except DecodeError Unit)
    (before : List (String × Fill r.Draft)) (rest : List (Option String × Reading))
    (seen : List String) {fields : List (String × Fill r.Draft)}
    {members : List (Option String × Reading)} (draft : r.Draft)
    (hfields : r.fields = before ++ fields) (distinct : (r.fields.map Prod.fst).Nodup)
    (hseen : ∀ name ∈ seen, name ∈ before.map Prod.fst)
    (names : members.map Prod.fst = fields.map fun f => some f.1) :
    ∃ seen', r.fill access other (members ++ rest) seen draft =
      (fillInOrder access fields (members.map Prod.snd) draft).bind
        (r.fill access other rest seen') := by
  induction fields generalizing before members seen draft with
  | nil =>
    rw [List.map_nil, List.map_eq_nil_iff] at names
    rw [names]
    exact ⟨seen, rfl⟩
  | cons field fields ih =>
    obtain ⟨name, decode⟩ := field
    cases members with
    | nil => cases names
    | cons m members =>
      obtain ⟨name', value⟩ := m
      rw [List.map_cons, List.map_cons, List.cons_eq_cons] at names
      obtain ⟨hname, hnames⟩ := names
      dsimp only at hname
      subst hname
      have hfresh : name ∉ before.map Prod.fst := by
        rw [hfields, List.map_append, List.nodup_append] at distinct
        exact fun hmem => distinct.2.2 name hmem name List.mem_cons_self rfl
      have hlookup : r.fields.lookup name = some decode := by
        have hnone : before.lookup name = none :=
          List.lookup_eq_none_iff.mpr fun p hp => by
            rw [bne_iff_ne]
            rintro rfl
            exact hfresh (List.mem_map_of_mem hp)
        rw [hfields, List.lookup_append, hnone]
        simp
      have hnew : seen.contains name = false := by
        rw [Bool.eq_false_iff]
        intro hmem
        exact hfresh (hseen name (by simpa using hmem))
      rw [List.map_cons, fillInOrder, List.cons_append, fill, hlookup]
      dsimp only
      rw [hnew, if_neg (by decide)]
      cases decode access value draft with
      | error e => exact ⟨seen, rfl⟩
      | ok next =>
        refine ih (before ++ [(name, decode)]) (name :: seen) next ?_ ?_ hnames
        · rw [hfields, List.append_assoc]
          rfl
        · intro n hn
          rw [List.map_append, List.mem_append]
          rcases List.mem_cons.mp hn with rfl | hn
          · exact .inr List.mem_cons_self
          · exact .inl (hseen n hn)

/-- Members that are not declared are kept. -/
lemma fill_others {members : List (String × Json)} {seen : List String} {draft : r.Draft}
    (h : ∀ m ∈ members, r.fields.lookup m.1 = none) :
    r.fill access access.keep (Reading.ofMembers members) seen draft =
      .ok (draft, Reading.ofMembers members) := by
  induction members with
  | nil => rfl
  | cons m members ih =>
    obtain ⟨name, json⟩ := m
    rw [Reading.ofMembers, Reading.ofMember, fill, h (name, json) List.mem_cons_self]
    dsimp only
    rw [Reading.keep_ofJson, ih fun m hm => h m (List.mem_cons_of_mem _ hm)]
    rfl

/-- Of an object with its members a record makes what it makes of their values. -/
lemma ofMembers_eq {members : List (Option String × Reading)}
    (names : members.map Prod.fst = r.fields.map fun f => some f.1)
    (distinct : (r.fields.map Prod.fst).Nodup) : r.ofMembers access members =
      (fillInOrder access r.fields (members.map Prod.snd) r.empty).bind r.finish := by
  obtain ⟨seen', heq⟩ := fill_declared access.skip [] [] [] r.empty rfl distinct
    (fun _ hmem => by cases hmem) names
  rw [List.append_nil] at heq
  rw [ofMembers, heq]
  cases fillInOrder access r.fields (members.map Prod.snd) r.empty <;> rfl

/-- An object with the members of a record. -/
lemma ofMembers_reads {a : α} {members : List (Option String × Reading)}
    (names : members.map Prod.fst = r.fields.map fun f => some f.1)
    (distinct : (r.fields.map Prod.fst).Nodup)
    (h : r.Reads access (members.map Prod.snd) a) : r.ofMembers access members = .ok a := by
  obtain ⟨-, draft, hfill, hfinish⟩ := h
  rw [ofMembers_eq names distinct, hfill]
  exact hfinish

/-- Of an object with the members of a record and others behind them the others are left. -/
lemma ofMembersKeeping_eq {a : α} {members others : List (Option String × Reading)}
    (names : members.map Prod.fst = r.fields.map fun f => some f.1)
    (distinct : (r.fields.map Prod.fst).Nodup)
    (h : r.Reads access (members.map Prod.snd) a) :
    ∃ seen draft, r.finish draft = .ok a ∧ r.ofMembersKeeping access (members ++ others) =
      (r.fill access access.keep others seen draft).bind fun found =>
        (r.finish found.1).map fun a => (a, found.2) := by
  obtain ⟨-, draft, hfill, hfinish⟩ := h
  obtain ⟨seen', heq⟩ := fill_declared access.keep [] others [] r.empty rfl distinct
    (fun _ hmem => by cases hmem) names
  rw [hfill] at heq
  refine ⟨seen', draft, hfinish, ?_⟩
  rw [ofMembersKeeping, heq]
  rfl

/-- An object with the members of a record and others behind them. -/
lemma ofMembersKeeping_reads {a : α} {members : List (Option String × Reading)}
    {others : List (String × Json)}
    (names : members.map Prod.fst = r.fields.map fun f => some f.1)
    (distinct : (r.fields.map Prod.fst).Nodup)
    (undeclared : ∀ m ∈ others, r.fields.lookup m.1 = none)
    (h : r.Reads access (members.map Prod.snd) a) :
    r.ofMembersKeeping access (members ++ Reading.ofMembers others) =
      .ok (a, Reading.ofMembers others) := by
  obtain ⟨seen, draft, hfinish, heq⟩ := ofMembersKeeping_eq names distinct h
  rw [heq, fill_others undeclared]
  change (r.finish draft).map _ = _
  rw [hfinish]
  rfl

/-- **A record recovers** what is written with all its members in the order of declaration. -/
theorem recovers {a : α} {members : List (String × Json)} (names : List String)
    (written : members.map Prod.fst = names) (declared : r.fields.map Prod.fst = names)
    (distinct : names.Nodup)
    (h : ∀ access, r.Reads access (members.map fun m => Reading.ofJson m.2) a) :
    Recovers r.decoder (.object members) a := by
  intro access
  rw [Reading.ofJson, decoder, Reading.ofMembers_eq_map]
  refine ofMembers_reads ?_ (declared ▸ distinct) ?_
  · have hnames := congrArg (List.map some) (written.trans declared.symm)
    rw [List.map_map, List.map_map] at hnames
    rw [List.map_map]
    exact hnames
  · rw [List.map_map]
    exact h access

end Record

end ServiceSim.Json
