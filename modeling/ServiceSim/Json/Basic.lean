/-!
# JSON documents

The tree of a JSON document.  An object keeps its members in the order of the document, repeated
names included, since reading a model reports the first fault in that order.  Numbers are integers
of at most sixty-four bits or doubles, as they were written.
-/

namespace ServiceSim

/-- A JSON document. -/
inductive Json where
  | null
  | bool (b : Bool)
  | integer (n : Int)
  | double (x : Float)
  | string (s : String)
  | array (items : List Json)
  | object (members : List (String × Json))

namespace Json

/-- The last member of an object with a given name. -/
def member? (name : String) : Json → Option Json
  | object members => (members.reverse.find? (·.1 == name)).map (·.2)
  | _ => none

/-- A list of documents as an array. -/
def ofList {α : Type} (f : α → Json) (items : List α) : Json := array (items.map f)

/-- A document, or null for a missing one. -/
def ofOption {α : Type} (f : α → Json) : Option α → Json
  | some a => f a
  | none => null

end Json

end ServiceSim
