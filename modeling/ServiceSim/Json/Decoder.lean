import ServiceSim.Json.Reader

/-!
# Decoding JSON

A decoder turns a document into a value of the domain or says why it is refused.  The cause is that
the text is no JSON, the shape of the document, or a reason of the domain's own, such as a
specification that does not parse.  Of several causes the first in the order of the text is
reported.

A document may be decoded while it is read, part after part, or it may be kept until all of it has
been read.  What is kept must be sound as a whole, while a part that is decoded on the way and is
not needed may be unusable.  Decoding on the way, an array with more elements than are asked for and
an alternative with more than one member are faults of the text; in a document that is kept they are
faults of its shape.

Records are decoded by `Record`, which reads the members of an object in the order of the document
and so refuses the first that is faulty.  Members it does not know are ignored, members it knows
may not be repeated, and a missing one takes its default if it has one.  A record may also be given
as an array of its members in the order of their declaration.
-/

namespace ServiceSim.Json

/-- Why a document is refused. -/
inductive DecodeError where
  | malformed
  | shape
  | rejected (reason : String)
deriving Repr, DecidableEq

/-- How a document is at hand. -/
inductive Access where
  /-- It is decoded while it is read. -/
  | streamed
  /-- It is kept as a whole. -/
  | kept
deriving Repr, DecidableEq

/-- A reading of documents as values. -/
abbrev Decoder (α : Type) := Access → Reading → Except DecodeError α

/-- What is wrong with a part that has not the type asked for. -/
def Reading.mismatch : Reading → DecodeError
  | .unusable _ => .malformed
  | .broken _ => .malformed
  | _ => .shape

/-- What is wrong with a document that holds more than is asked for. -/
def Access.surplus : Access → DecodeError
  | .streamed => .malformed
  | .kept => .shape

/-- Passes over a document. -/
def Access.skip : Access → Reading → Except DecodeError Unit
  | .streamed, r => if r.isGrammatical then .ok () else .error .malformed
  | .kept, _ => .ok ()

/-- Keeps a document. -/
def Access.keep : Access → Reading → Except DecodeError Unit
  | .streamed, r => if r.isSound then .ok () else .error .malformed
  | .kept, _ => .ok ()

namespace Decode

/-- A string. -/
def text : Decoder String
  | _, .string s => .ok s
  | _, r => .error r.mismatch

/-- A boolean. -/
def flag : Decoder Bool
  | _, .bool b => .ok b
  | _, r => .error r.mismatch

/-- A number; integers count as doubles. -/
def double : Decoder Float
  | _, .double x => .ok x
  | _, .integer n => .ok (Float.ofInt n)
  | _, r => .error r.mismatch

/-- An integer that is not negative. -/
def natural : Decoder Nat
  | _, .integer (.ofNat n) => .ok n
  | _, r => .error r.mismatch

/-- Every element of an array. -/
def list {α : Type} (element : Decoder α) : Decoder (List α)
  | access, .array items => items.mapM (element access)
  | _, r => .error r.mismatch

/-- A value that may be null. -/
def optional {α : Type} (value : Decoder α) : Decoder (Option α)
  | _, .null => .ok none
  | access, r => (value access r).map some

/-! ## Alternatives -/

/-- What stands for an alternative that holds nothing: null, and in a document that is kept also an
empty object. -/
def nothing : Decoder Unit
  | _, .null => .ok ()
  | .kept, .object [] => .ok ()
  | _, r => .error r.mismatch

/-- An alternative that is named, with what it holds. -/
def named {α : Type} (holding : List (String × Decoder α)) (bare : List (String × α))
    (name : String) : Decoder α := fun access value =>
  match holding.lookup name, bare.lookup name with
  | some decoder, _ => decoder access value
  | none, some a => (nothing access value).map fun () => a
  | none, none => .error .shape

/-- One of several alternatives, written as an object with one member that names it, or as the
bare name if the alternative holds nothing. -/
def alternative {α : Type} (holding : List (String × Decoder α)) (bare : List (String × α)) :
    Decoder α
  | _, .string name =>
    match bare.lookup name with
    | some a => .ok a
    | none => .error .shape
  | .kept, .object [(some name, value)] => named holding bare name .kept value
  | .streamed, .object ((some name, value) :: rest) => do
    let a ← named holding bare name .streamed value
    if rest.isEmpty then return a else .error .malformed
  | .streamed, .object ((none, .broken (some misplaced)) :: _) => .error misplaced.mismatch
  | access, _ => .error access.surplus

end Decode

/-! ## Records -/

/-- How to decode a member into the draft of a record. -/
abbrev Fill (δ : Type) := Access → Reading → δ → Except DecodeError δ

/-- A record in the making: drafts hold the members decoded so far. -/
structure Record (α : Type) where
  /-- What has been decoded so far. -/
  Draft : Type
  /-- The draft before any member. -/
  empty : Draft
  /-- The members, in the order of their declaration. -/
  fields : List (String × Fill Draft)
  /-- The record, once every member has been read. -/
  finish : Draft → Except DecodeError α

namespace Record

/-- A record of one member.  `missing` stands in for a member that is not there. -/
def field {α : Type} (name : String) (decoder : Decoder α) (missing : Option α) : Record α where
  Draft := Option α
  empty := none
  fields := [(name, fun access r _ => (decoder access r).map some)]
  finish draft :=
    match draft, missing with
    | some a, _ => .ok a
    | none, some a => .ok a
    | none, none => .error .shape

/-- A member that must be there. -/
def required {α : Type} (name : String) (decoder : Decoder α) : Record α := field name decoder none

/-- A member that has a default. -/
def withDefault {α : Type} (name : String) (decoder : Decoder α) (missing : α) : Record α :=
  field name decoder (some missing)

/-- The members of two records, those of the first declared before those of the second. -/
def and {α β : Type} (r : Record α) (s : Record β) : Record (α × β) where
  Draft := r.Draft × s.Draft
  empty := (r.empty, s.empty)
  fields :=
    r.fields.map (fun (name, fill) =>
      (name, fun access json draft => (fill access json draft.1).map fun d => (d, draft.2))) ++
    s.fields.map (fun (name, fill) =>
      (name, fun access json draft => (fill access json draft.2).map fun d => (draft.1, d)))
  finish draft := do return (← r.finish draft.1, ← s.finish draft.2)

/-- A record read through a function. -/
def map {α β : Type} (f : α → β) (r : Record α) : Record β where
  Draft := r.Draft
  empty := r.empty
  fields := r.fields
  finish draft := (r.finish draft).map f

/-- A record read through a check. -/
def check {α β : Type} (f : α → Except DecodeError β) (r : Record α) : Record β where
  Draft := r.Draft
  empty := r.empty
  fields := r.fields
  finish draft := (r.finish draft).bind f

/-- Decodes members in the order of the document, starting from a draft.  A member that is not
declared is passed to `other`, and all of them are collected. -/
def fill {α : Type} (r : Record α) (access : Access) (other : Reading → Except DecodeError Unit) :
    List (Option String × Reading) → List String → r.Draft →
      Except DecodeError (r.Draft × List (Option String × Reading))
  | [], _, draft => .ok (draft, [])
  | (none, _) :: _, _, _ => .error .malformed
  | (some name, value) :: rest, seen, draft =>
    match r.fields.lookup name with
    | none => do
      other value
      let (final, others) ← r.fill access other rest seen draft
      return (final, (some name, value) :: others)
    | some decode =>
      if seen.contains name then .error .shape
      else do
        let draft ← decode access value draft
        r.fill access other rest (name :: seen) draft

/-- Decodes the members of an object.  Those that are not declared are kept and given back. -/
def ofMembersKeeping {α : Type} (r : Record α) (access : Access)
    (members : List (Option String × Reading)) :
    Except DecodeError (α × List (Option String × Reading)) := do
  let (draft, others) ← r.fill access access.keep members [] r.empty
  return (← r.finish draft, others)

/-- Decodes the members of an object, passing over those that are not declared. -/
def ofMembers {α : Type} (r : Record α) (access : Access)
    (members : List (Option String × Reading)) : Except DecodeError α := do
  let (draft, _) ← r.fill access access.skip members [] r.empty
  r.finish draft

/-- Decodes elements as the members of a record, in the order of their declaration. -/
def fillInOrder {δ : Type} (access : Access) :
    List (String × Fill δ) → List Reading → δ → Except DecodeError δ
  | _, [], draft => .ok draft
  | [], _ :: _, _ => .error access.surplus
  | (_, decode) :: fields, value :: rest, draft => do
    let draft ← decode access value draft
    fillInOrder access fields rest draft

/-- Decodes an array as a record. -/
def ofItems {α : Type} (r : Record α) (access : Access) (items : List Reading) :
    Except DecodeError α := do
  r.finish (← fillInOrder access r.fields items r.empty)

/-- The decoder of a record. -/
def decoder {α : Type} (r : Record α) : Decoder α
  | access, .object members => r.ofMembers access members
  | access, .array items => r.ofItems access items
  | _, json => .error json.mismatch

end Record

/-! ## Whole documents -/

/-- What a document at hand as a whole decodes to. -/
def decode {α : Type} (decoder : Decoder α) (json : Json) : Except DecodeError α :=
  decoder .streamed (Reading.ofJson json)

/-- What a text decodes to, with nothing but white space after it. -/
def decodeText {α : Type} (decoder : Decoder α) (text : String) : Except DecodeError α := do
  let (r, rest) := read text
  let a ← decoder .streamed r
  if rest.isEmpty then return a else .error .malformed

end ServiceSim.Json
