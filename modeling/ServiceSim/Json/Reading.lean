import ServiceSim.Json.Basic

/-!
# Documents as they are read

A text may stop being JSON at some point, and it may hold parts that follow the grammar and cannot
be used: a number beyond the doubles, a string with half of a surrogate pair, or arrays and objects
that nest too deep.  A `Reading` is what a text holds up to the point where it stops being JSON,
with such faults in their places.

So whoever makes something of a reading meets the faults of the text and those of its content in the
order of the text, and can report the first.  A part that is passed over may be unusable, but it
must follow the grammar.
-/

namespace ServiceSim.Json

/-- A document as it is read.  A member has no name if the name cannot be used. -/
inductive Reading where
  | null
  | bool (b : Bool)
  | integer (n : Int)
  | double (x : Float)
  | string (s : String)
  | array (items : List Reading)
  | object (members : List (Option String × Reading))
  /-- A part that follows the grammar and cannot be used. -/
  | unusable (part : Reading)
  /-- Where the text stops being JSON.  A value may stand in the place of a name. -/
  | broken (misplaced : Option Reading)

namespace Reading

/-! ## What may be passed over and what may be kept -/

mutual

/-- Whether all of a document follows the grammar, so that it may be passed over. -/
def isGrammatical : Reading → Bool
  | array items => areGrammatical items
  | object members => areMembersGrammatical members
  | unusable part => part.isGrammatical
  | broken _ => false
  | null => true
  | bool _ => true
  | integer _ => true
  | double _ => true
  | string _ => true

/-- Whether all of several documents follow the grammar. -/
def areGrammatical : List Reading → Bool
  | [] => true
  | first :: rest => first.isGrammatical && areGrammatical rest

/-- Whether all of several members follow the grammar. -/
def areMembersGrammatical : List (Option String × Reading) → Bool
  | [] => true
  | first :: rest => isMemberGrammatical first && areMembersGrammatical rest

/-- Whether a member follows the grammar. -/
def isMemberGrammatical : Option String × Reading → Bool
  | (_, value) => value.isGrammatical

end

mutual

/-- The document of a reading without faults, which may be kept as a whole. -/
def json? : Reading → Option Json
  | null => some .null
  | bool b => some (.bool b)
  | integer n => some (.integer n)
  | double x => some (.double x)
  | string s => some (.string s)
  | array items => (jsons? items).map .array
  | object members => (jsonMembers? members).map .object
  | unusable _ => none
  | broken _ => none

/-- The documents of readings without faults. -/
def jsons? : List Reading → Option (List Json)
  | [] => some []
  | first :: rest =>
    match first.json?, jsons? rest with
    | some json, some others => some (json :: others)
    | _, _ => none

/-- The members of readings without faults. -/
def jsonMembers? : List (Option String × Reading) → Option (List (String × Json))
  | [] => some []
  | first :: rest =>
    match jsonMember? first, jsonMembers? rest with
    | some member, some others => some (member :: others)
    | _, _ => none

/-- The member of a reading without faults. -/
def jsonMember? : Option String × Reading → Option (String × Json)
  | (name, value) =>
    match name, value.json? with
    | some name, some json => some (name, json)
    | _, _ => none

end

/-- Whether a reading has no faults. -/
def isSound (r : Reading) : Bool := r.json?.isSome

/-! ## Documents without faults -/

mutual

/-- The reading of a document that is at hand as a whole. -/
def ofJson : Json → Reading
  | .null => null
  | .bool b => bool b
  | .integer n => integer n
  | .double x => double x
  | .string s => string s
  | .array items => array (ofJsons items)
  | .object members => object (ofMembers members)

/-- The readings of several documents. -/
def ofJsons : List Json → List Reading
  | [] => []
  | first :: rest => ofJson first :: ofJsons rest

/-- The readings of members. -/
def ofMembers : List (String × Json) → List (Option String × Reading)
  | [] => []
  | first :: rest => ofMember first :: ofMembers rest

/-- The reading of a member. -/
def ofMember : String × Json → Option String × Reading
  | (name, value) => (some name, ofJson value)

end

/-! ## Depth -/

mutual

/-- How deep arrays and objects nest in a document. -/
def depth : Reading → Nat
  | array items => depthOfItems items + 1
  | object members => depthOfMembers members + 1
  | unusable part => part.depth
  | broken _ => 0
  | null => 0
  | bool _ => 0
  | integer _ => 0
  | double _ => 0
  | string _ => 0

/-- How deep the elements of an array nest. -/
def depthOfItems : List Reading → Nat
  | [] => 0
  | first :: rest => max first.depth (depthOfItems rest)

/-- How deep the members of an object nest. -/
def depthOfMembers : List (Option String × Reading) → Nat
  | [] => 0
  | first :: rest => max (depthOfMember first) (depthOfMembers rest)

/-- How deep a member nests. -/
def depthOfMember : Option String × Reading → Nat
  | (_, value) => value.depth

end

end Reading

end ServiceSim.Json
