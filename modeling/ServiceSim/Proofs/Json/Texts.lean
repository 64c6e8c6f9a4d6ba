import ServiceSim.Proofs.Json.Scalars
import Mathlib.Data.List.Forall2

/-!
# Texts of documents

`IsText` says which texts denote a document: strings are quoted, numbers have the value of the
document, and any white space may stand between two tokens.  Both ways of writing a document give such
a text if its numbers are kept (`isText_of_written`), and of any such text the reader makes the document
again (`read_of_isText`).

Arrays and objects that nest too deep are read as unusable ones.  `Reading.within` is what is read of a
document inside others; it is the document itself as long as this does not nest too deep.
-/

namespace ServiceSim.Json

variable {cs rest gap : List Char} {c : Char} {json : Json} {level : Nat}

/-! ## White space -/

/-- White space, or nothing. -/
def IsGap (cs : List Char) : Prop := ∀ c ∈ cs, isBlank c = true

lemma isGap_nil : IsGap [] := fun _ h => by cases h

lemma skip_append (h : IsGap gap) (cs : List Char) : skip (gap ++ cs) = skip cs :=
  List.dropWhile_append_of_pos h

lemma skip_solid (h : isBlank c = false) (cs : List Char) : skip (c :: cs) = c :: cs :=
  List.dropWhile_cons_of_neg (by simp [h])

/-- No number goes on after white space. -/
lemma EndsNumber.append (h : EndsNumber rest) (hgap : IsGap gap) : EndsNumber (gap ++ rest) := by
  cases gap with
  | nil => exact h
  | cons c gap =>
    have hblank := hgap c List.mem_cons_self
    simp only [isBlank, Bool.or_eq_true, beq_iff_eq] at hblank
    refine endsNumber_cons ?_ (gap ++ rest)
    rcases hblank with ((rfl | rfl) | rfl) | rfl
    all_goals decide

/-! ## Texts -/

/-- The characters are parts with commas between them and a closing bracket at the end, and white space
around each of them. -/
inductive Separated {α : Type} (part : α → List Char → Prop) (close : Char) :
    List α → List Char → Prop
  | last {a : α} {before cs after : List Char} : IsGap before → part a cs → IsGap after →
    Separated part close [a] (before ++ (cs ++ (after ++ [close])))
  | more {a : α} {others : List α} {before cs after rest : List Char} : IsGap before → part a cs →
    IsGap after → Separated part close others rest →
    Separated part close (a :: others) (before ++ (cs ++ (after ++ ',' :: rest)))

mutual

/-- The characters are a text of a document. -/
inductive IsText : Json → List Char → Prop
  | null : IsText .null (scalar .null).toList
  | bool (b : Bool) : IsText (.bool b) (scalar (.bool b)).toList
  | integer {n : Int} {cs : List Char} : ReadsNumber cs (.integer n) → IsText (.integer n) cs
  | double {x : Float} {cs : List Char} : ReadsNumber cs (.double x) → IsText (.double x) cs
  | string (s : String) : IsText (.string s) (quote s).toList
  | noItems {gap : List Char} : IsGap gap → IsText (.array []) ('[' :: (gap ++ [']']))
  | items {items : List Json} {cs : List Char} : Separated IsText ']' items cs →
    IsText (.array items) ('[' :: cs)
  | noMembers {gap : List Char} : IsGap gap →
    IsText (.object []) ('\x7b' :: (gap ++ ['\x7d']))
  | members {members : List (String × Json)} {cs : List Char} :
    Separated IsMember '\x7d' members cs → IsText (.object members) ('\x7b' :: cs)

/-- The characters are a text of a member of an object. -/
inductive IsMember : String × Json → List Char → Prop
  | mk (name : String) {json : Json} {before after cs : List Char} : IsGap before → IsGap after →
    IsText json cs → IsMember (name, json) ((quote name).toList ++ (before ++ ':' :: (after ++ cs)))

end

lemma ReadsNumber.head_solid {r : Reading} (h : ReadsNumber cs r) :
    ∃ c more, cs = c :: more ∧ isBlank c = false ∧ c ≠ ']' := by
  obtain ⟨c, more, rfl, hc⟩ := h.head
  refine ⟨c, more, rfl, ?_⟩
  rcases hc with rfl | hdigit
  · exact ⟨rfl, by decide⟩
  · simp only [isBlank, Bool.or_eq_false_iff, beq_eq_false_iff_ne]
    refine ⟨⟨⟨⟨?_, ?_⟩, ?_⟩, ?_⟩, ?_⟩
    all_goals
      rintro rfl
      cases hdigit

/-- A text starts neither with white space nor with a bracket that closes an array. -/
lemma IsText.head (h : IsText json cs) :
    ∃ c more, cs = c :: more ∧ isBlank c = false ∧ c ≠ ']' := by
  cases h with
  | integer hnumber => exact hnumber.head_solid
  | double hnumber => exact hnumber.head_solid
  | string s => exact ⟨_, _, quote_toList s, rfl, by decide⟩
  | bool b => cases b <;> exact ⟨_, _, rfl, rfl, by decide⟩
  | _ => exact ⟨_, _, rfl, rfl, by decide⟩

/-! ## Documents inside others -/

namespace Reading

mutual

/-- What is read of a document inside `level` arrays and objects. -/
def within (level : Nat) : Json → Reading
  | .null => null
  | .bool b => bool b
  | .integer n => integer n
  | .double x => double x
  | .string s => string s
  | .array items => nested level (array (itemsWithin (level + 1) items))
  | .object members => nested level (object (membersWithin (level + 1) members))

/-- What is read of several documents. -/
def itemsWithin (level : Nat) : List Json → List Reading
  | [] => []
  | first :: rest => within level first :: itemsWithin level rest

/-- What is read of members. -/
def membersWithin (level : Nat) : List (String × Json) → List (Option String × Reading)
  | [] => []
  | first :: rest => memberWithin level first :: membersWithin level rest

/-- What is read of a member. -/
def memberWithin (level : Nat) : String × Json → Option String × Reading
  | (name, json) => (some name, within level json)

end

lemma itemsWithin_eq_map (level : Nat) (items : List Json) :
    itemsWithin level items = items.map (within level) := by
  induction items with
  | nil => rfl
  | cons json items ih => rw [itemsWithin, ih, List.map_cons]

lemma membersWithin_eq_map (level : Nat) (members : List (String × Json)) :
    membersWithin level members = members.map fun m => (some m.1, within level m.2) := by
  induction members with
  | nil => rfl
  | cons m members ih => rw [membersWithin, ih, List.map_cons, memberWithin]

end Reading

/-! ## Reading texts -/

open Reading (within)

lemma skip_text (h : IsText json cs) (hgap : IsGap gap) (more : List Char) :
    skip (gap ++ (cs ++ more)) = cs ++ more := by
  obtain ⟨c, tail, rfl, hsolid, -⟩ := h.head
  rw [skip_append hgap, List.cons_append, skip_solid hsolid]

section Parts

variable {element : List Char → Reading × List Char} {bound longest : Nat}

/-- The elements of an array, if what reads one of them reads all texts that are not too long. -/
lemma elements_separated {items : List Json} (h : Separated IsText ']' items cs)
    (hread : ∀ {json text more}, IsText json text → text.length ≤ longest → EndsNumber more →
      element (text ++ more) = (within level json, more))
    (hlongest : cs.length ≤ longest) (hbound : cs.length ≤ bound) (rest : List Char) :
    elements element bound (cs ++ rest) = (items.map (within level), rest) := by
  induction h generalizing bound with
  | last hbefore htext hafter =>
    simp only [List.length_append, List.length_singleton] at hlongest hbound
    obtain ⟨bound, rfl⟩ : ∃ b, bound = b + 1 := ⟨bound - 1, by omega⟩
    have hends := (endsNumber_cons (c := ']') (by decide) rest).append hafter
    simp only [elements, List.append_assoc, List.singleton_append, skip_text htext hbefore,
      hread htext (by omega) hends, skip_append hafter, skip_solid (c := ']') rfl, List.map_cons,
      List.map_nil]
  | more hbefore htext hafter _ ih =>
    simp only [List.length_append, List.length_cons] at hlongest hbound
    obtain ⟨bound, rfl⟩ : ∃ b, bound = b + 1 := ⟨bound - 1, by omega⟩
    have hends := fun others => (endsNumber_cons (c := ',') (by decide) others).append hafter
    simp only [elements, List.append_assoc, List.cons_append, skip_text htext hbefore,
      hread htext (by omega) (hends _), skip_append hafter, skip_solid (c := ',') rfl,
      @ih bound (by omega) (by omega), List.map_cons]

/-- A member starts with the quote of its name, and its value is a text. -/
lemma IsMember.parts {m : String × Json} (h : IsMember m cs) : ∃ before after text,
    IsGap before ∧ IsGap after ∧ IsText m.2 text ∧ text.length ≤ cs.length ∧
      ∀ more, cs ++ more = '"' :: (m.1.toList.flatMap (fun c => (escapedChar c).toList) ++
        '"' :: (before ++ ':' :: (after ++ (text ++ more)))) := by
  obtain ⟨name, hbefore, hafter, htext⟩ := h
  refine ⟨_, _, _, hbefore, hafter, htext, ?_, fun more => ?_⟩
  · simp only [List.length_append, List.length_cons]
    omega
  · simp only [quote_toList, List.append_assoc, List.cons_append, List.nil_append]

lemma members_separated {items : List (String × Json)} (h : Separated IsMember '\x7d' items cs)
    (hread : ∀ {json text more}, IsText json text → text.length ≤ longest → EndsNumber more →
      element (text ++ more) = (within level json, more))
    (hlongest : cs.length ≤ longest) (hbound : cs.length ≤ bound) (rest : List Char) :
    members element bound (cs ++ rest) = (items.map fun m => (some m.1, within level m.2), rest) := by
  induction h generalizing bound with
  | last hbefore hmember hafter =>
    obtain ⟨_, _, _, hbefore', hafter', htext, hlength, hparts⟩ := hmember.parts
    simp only [List.length_append, List.length_singleton] at hlongest hbound
    obtain ⟨bound, rfl⟩ : ∃ b, bound = b + 1 := ⟨bound - 1, by omega⟩
    have hends := (endsNumber_cons (c := '\x7d') (by decide) rest).append hafter
    simp only [members, List.append_assoc, List.cons_append, List.nil_append, hparts,
      skip_append hbefore, skip_solid (c := '"') rfl, stringRest_quote, skip_append hbefore',
      skip_solid (c := ':') rfl, skip_text htext hafter', hread htext (by omega) hends,
      skip_append hafter, skip_solid (c := '\x7d') rfl]
    rfl
  | more hbefore hmember hafter _ ih =>
    obtain ⟨_, _, _, hbefore', hafter', htext, hlength, hparts⟩ := hmember.parts
    simp only [List.length_append, List.length_cons] at hlongest hbound
    obtain ⟨bound, rfl⟩ : ∃ b, bound = b + 1 := ⟨bound - 1, by omega⟩
    have hends := fun others => (endsNumber_cons (c := ',') (by decide) others).append hafter
    simp only [members, List.append_assoc, List.cons_append, hparts, skip_append hbefore,
      skip_solid (c := '"') rfl, stringRest_quote, skip_append hbefore', skip_solid (c := ':') rfl,
      skip_text htext hafter', hread htext (by omega) (hends _), skip_append hafter,
      skip_solid (c := ',') rfl, @ih bound (by omega) (by omega), List.map_cons]

end Parts

/-- There is a first part. -/
lemma Separated.first {α : Type} {part : α → List Char → Prop} {close : Char} {items : List α}
    (h : Separated part close items cs) :
    ∃ before a text more, IsGap before ∧ part a text ∧ cs = before ++ (text ++ more) := by
  cases h with
  | last hbefore hpart _ => exact ⟨_, _, _, _, hbefore, hpart, rfl⟩
  | more hbefore hpart _ _ => exact ⟨_, _, _, _, hbefore, hpart, rfl⟩

/-- No bracket closes an array before its first element. -/
lemma Separated.skip_items {items : List Json} (h : Separated IsText ']' items cs)
    (rest : List Char) : ∃ c more, skip (cs ++ rest) = c :: more ∧ c ≠ ']' := by
  obtain ⟨before, json, text, more, hbefore, htext, rfl⟩ := h.first
  obtain ⟨c, tail, htail, -, hc⟩ := htext.head
  rw [List.append_assoc, List.append_assoc, skip_text htext hbefore, htail]
  exact ⟨c, _, rfl, hc⟩

lemma Separated.skip_members {items : List (String × Json)}
    (h : Separated IsMember '\x7d' items cs) (rest : List Char) :
    ∃ more, skip (cs ++ rest) = '"' :: more := by
  obtain ⟨before, m, text, more, hbefore, hmember, rfl⟩ := h.first
  obtain ⟨_, _, _, -, -, -, -, hparts⟩ := hmember.parts
  rw [List.append_assoc, List.append_assoc, skip_append hbefore, hparts, skip_solid (by rfl)]
  exact ⟨_, rfl⟩

/-- A text is read as its document. -/
lemma value_text {fuel : Nat} (h : IsText json cs) (hfuel : cs.length ≤ fuel) (level : Nat)
    (hrest : EndsNumber rest) : value fuel level (cs ++ rest) = (within level json, rest) := by
  induction fuel generalizing json cs rest level with
  | zero =>
    obtain ⟨c, more, rfl, -⟩ := h.head
    cases hfuel
  | succ fuel ih =>
    cases h with
    | null => rfl
    | bool b => cases b <;> rfl
    | integer hnumber => exact hnumber.value_eq hrest fuel level
    | double hnumber => exact hnumber.value_eq hrest fuel level
    | string s =>
      simp only [quote_toList, List.cons_append, List.append_assoc, value, List.nil_append,
        stringRest_quote, within]
    | noItems hgap =>
      simp only [List.cons_append, List.append_assoc, value, skip_append hgap, List.nil_append,
        skip_solid (c := ']') rfl, within, Reading.itemsWithin]
    | noMembers hgap =>
      simp only [List.cons_append, List.append_assoc, value, skip_append hgap, List.nil_append,
        skip_solid (c := '\x7d') rfl, within, Reading.membersWithin]
    | @items items cs hitems =>
      obtain ⟨c, more, hskip, hc⟩ := hitems.skip_items rest
      have hbound : cs.length ≤ (cs ++ rest).length := by simp
      have helements := elements_separated hitems (fun h hlength => ih h hlength (level + 1))
        (Nat.le_of_succ_le_succ hfuel) hbound rest
      simp only [List.cons_append, value, hskip, helements, within, Reading.itemsWithin_eq_map]
      split
      next heq => exact absurd (List.cons.inj heq).1 hc
      next => rfl
    | @members items cs hmembers =>
      obtain ⟨more, hskip⟩ := hmembers.skip_members rest
      have hbound : cs.length ≤ (cs ++ rest).length := by simp
      have hfound := members_separated hmembers (fun h hlength => ih h hlength (level + 1))
        (Nat.le_of_succ_le_succ hfuel) hbound rest
      simp only [List.cons_append, value, hskip, hfound, within, Reading.membersWithin_eq_map]
      rfl

/-- **A text is read as its document**, with nothing left. -/
theorem read_of_isText {text : String} (h : IsText json text.toList) :
    read text = (within 0 json, []) := by
  obtain ⟨c, more, hcs, hsolid, -⟩ := h.head
  have hends : EndsNumber [] := by rintro _ ⟨⟩
  have hvalue := value_text h (Nat.le_succ text.toList.length) 0 hends
  rw [List.append_nil] at hvalue
  rw [read]
  dsimp only
  rw [hcs, skip_solid hsolid, ← hcs, hvalue]
  rfl

/-! ## Writing texts -/

mutual

/-- All numbers of a document are read as they are written: integers of at most sixty-four bits are,
and of doubles those for which the digits that are written lead back to them. -/
def IsKept : Json → Prop
  | .integer n => -(Nat.pow 2 63 : Int) ≤ n ∧ n < UInt64.size
  | .double x => ReadsNumber (scalar (.double x)).toList (.double x)
  | .array items => areKept items
  | .object members => areMembersKept members
  | .null => True
  | .bool _ => True
  | .string _ => True

/-- All numbers of several documents are read as they are written. -/
def areKept : List Json → Prop
  | [] => True
  | first :: rest => IsKept first ∧ areKept rest

/-- All numbers of members are read as they are written. -/
def areMembersKept : List (String × Json) → Prop
  | [] => True
  | first :: rest => isMemberKept first ∧ areMembersKept rest

/-- All numbers of a member are read as they are written. -/
def isMemberKept : String × Json → Prop
  | (_, json) => IsKept json

end

/-- Texts with commas between them. -/
lemma separated_intercalate {α : Type} {part : α → List Char → Prop} {items : List α}
    {parts : List String} (h : List.Forall₂ (fun a s => part a s.toList) items parts)
    (hne : items ≠ []) {before after : List Char} (hbefore : IsGap before) (hafter : IsGap after)
    (close : Char) : Separated part close items
      (before ++ (List.intercalate (',' :: before) (parts.map String.toList) ++
        (after ++ [close]))) := by
  induction h with
  | nil => exact absurd rfl hne
  | @cons a s items parts hpart h ih =>
    cases h with
    | nil =>
      rw [List.map_cons, List.map_nil, List.intercalate_singleton]
      exact .last hbefore hpart hafter
    | @cons a' s' items parts hpart' h =>
      have hrest := ih (by simp)
      rw [List.map_cons, List.map_cons, List.intercalate_cons_cons, ← List.map_cons,
        List.append_assoc, List.append_assoc, List.cons_append]
      exact .more hbefore hpart isGap_nil hrest

mutual

/-- The text of a document on one line. -/
lemma render_isText : (json : Json) → json.IsKept → IsText json (render json).toList
  | .null, _ => .null
  | .bool b, _ => .bool b
  | .integer n, h => .integer (readsNumber_integer h.1 h.2)
  | .double x, h => .double h
  | .string s, _ => .string s
  | .array [], _ => .noItems isGap_nil
  | .array (first :: rest), h => by
    have htexts := renderAll_areTexts (first :: rest) h
    have hitems := separated_intercalate htexts (by simp) isGap_nil isGap_nil ']'
    rw [render, String.toList_append, String.toList_append, String.toList_intercalate]
    exact .items hitems
  | .object [], _ => .noMembers isGap_nil
  | .object (first :: rest), h => by
    have htexts := renderMembers_areMembers (first :: rest) h
    have hmembers := separated_intercalate htexts (by simp) isGap_nil isGap_nil '\x7d'
    rw [render, String.toList_append, String.toList_append, String.toList_intercalate]
    exact .members hmembers

lemma renderAll_areTexts : (items : List Json) → areKept items →
    List.Forall₂ (fun json s => IsText json s.toList) items (renderAll items)
  | [], _ => .nil
  | first :: rest, h => .cons (render_isText first h.1) (renderAll_areTexts rest h.2)

lemma renderMembers_areMembers : (members : List (String × Json)) → areMembersKept members →
    List.Forall₂ (fun m s => IsMember m s.toList) members (renderMembers members)
  | [], _ => .nil
  | first :: rest, h => .cons (renderMember_isMember first h.1) (renderMembers_areMembers rest h.2)

lemma renderMember_isMember : (m : String × Json) → isMemberKept m →
    IsMember m (renderMember m).toList
  | (name, json), h => by
    have htext := render_isText json h
    rw [renderMember, String.toList_append, String.toList_append, List.append_assoc]
    exact .mk name isGap_nil isGap_nil htext

end

lemma isGap_newline (level : Nat) : IsGap (newline level).toList := by
  intro c hc
  rw [newline, String.toList_append, List.mem_append] at hc
  rcases hc with hc | hc
  · rw [List.mem_singleton.mp hc]
    rfl
  · rw [String.toList_ofList, List.mem_replicate] at hc
    rw [hc.2]
    rfl

/-- Parts between brackets, one a line, as characters. -/
lemma block_toList {left right : String} {parts : List String} (hne : parts ≠ []) (level : Nat) :
    (block left right level parts).toList =
      left.toList ++ ((newline (level + 1)).toList ++
        (List.intercalate (',' :: (newline (level + 1)).toList) (parts.map String.toList) ++
          ((newline level).toList ++ right.toList))) := by
  rw [block, if_neg (by simpa using hne)]
  simp only [String.toList_append, String.toList_intercalate, List.append_assoc]
  rfl

mutual

/-- The text of a document on several lines. -/
lemma prettyAt_isText : (json : Json) → json.IsKept → ∀ level,
    IsText json (prettyAt level json).toList
  | .null, _, _ => .null
  | .bool b, _, _ => .bool b
  | .integer n, h, _ => .integer (readsNumber_integer h.1 h.2)
  | .double x, h, _ => .double h
  | .string s, _, _ => .string s
  | .array [], _, _ => by
    rw [prettyAt, prettyAll, block, if_pos (by rfl)]
    exact .noItems isGap_nil
  | .array (first :: rest), h, level => by
    have htexts := prettyAll_areTexts (first :: rest) h (level + 1)
    have hitems := separated_intercalate htexts (by simp) (isGap_newline (level + 1))
      (isGap_newline level) ']'
    rw [prettyAt, block_toList (by simp [prettyAll])]
    exact .items hitems
  | .object [], _, _ => by
    rw [prettyAt, prettyMembers, block, if_pos (by rfl)]
    exact .noMembers isGap_nil
  | .object (first :: rest), h, level => by
    have htexts := prettyMembers_areMembers (first :: rest) h (level + 1)
    have hmembers := separated_intercalate htexts (by simp) (isGap_newline (level + 1))
      (isGap_newline level) '\x7d'
    rw [prettyAt, block_toList (by simp [prettyMembers])]
    exact .members hmembers

lemma prettyAll_areTexts : (items : List Json) → areKept items → ∀ level,
    List.Forall₂ (fun json s => IsText json s.toList) items (prettyAll level items)
  | [], _, _ => .nil
  | first :: rest, h, level =>
    .cons (prettyAt_isText first h.1 level) (prettyAll_areTexts rest h.2 level)

lemma prettyMembers_areMembers : (members : List (String × Json)) → areMembersKept members →
    ∀ level, List.Forall₂ (fun m s => IsMember m s.toList) members (prettyMembers level members)
  | [], _, _ => .nil
  | first :: rest, h, level =>
    .cons (prettyMember_isMember first h.1 level) (prettyMembers_areMembers rest h.2 level)

lemma prettyMember_isMember : (m : String × Json) → isMemberKept m → ∀ level,
    IsMember m (prettyMember level m).toList
  | (name, json), h, level => by
    have htext := prettyAt_isText json h level
    have hblank : IsGap [' '] := by simp [IsGap, isBlank]
    rw [prettyMember, String.toList_append, String.toList_append, List.append_assoc]
    exact .mk name isGap_nil hblank htext

end

/-- A document is written as a text of it, in either form. -/
lemma isText_of_written {text : String} (h : json.IsKept)
    (written : text = render json ∨ text = pretty json) : IsText json text.toList := by
  rcases written with rfl | rfl
  · exact render_isText json h
  · exact prettyAt_isText json h 0

end ServiceSim.Json
