import ServiceSim.Expression.Specification

/-!
# Variable usages

A usage characterises a variable or parameter: its value, its size, the number of its elements, its
structure or its type, each by a specification.  The name bound is the reference with the name of
the characterisation, as in `files.NUMBER_OF_ELEMENTS`.
-/

namespace ServiceSim

/-- A property of a variable. -/
inductive CharacterisationKind where
  | value
  | bytesize
  | numberOfElements
  | shape
  | type
deriving DecidableEq, Repr

/-- The name of a property, in files and as the last part of variable names. -/
def CharacterisationKind.name : CharacterisationKind → String
  | value => "VALUE"
  | bytesize => "BYTESIZE"
  | numberOfElements => "NUMBER_OF_ELEMENTS"
  | shape => "STRUCTURE"
  | type => "TYPE"

/-- All properties. -/
def CharacterisationKind.all : List CharacterisationKind :=
  [value, bytesize, numberOfElements, shape, type]

/-- A property and the expression for it. -/
structure Characterisation where
  /-- The property. -/
  kind : CharacterisationKind
  /-- What it evaluates to. -/
  specification : Specification

/-- The characterisations of a reference. -/
structure VariableUsage where
  /-- The reference, possibly dotted. -/
  reference : String
  /-- Its characterisations. -/
  characterisations : List Characterisation

namespace VariableUsage

/-- The last part of a dotted reference. -/
def lastPart (cs : List Char) : List Char := (cs.reverse.takeWhile (· != '.')).reverse

/-- Whether the reference stands for the elements of a collection.  Their characterisations are
evaluated on every read. -/
def isInner (u : VariableUsage) : Bool := lastPart u.reference.toList == "INNER".toList

/-- The name that a characterisation is bound to. -/
def nameOf (u : VariableUsage) (c : Characterisation) : String := u.reference ++ "." ++ c.kind.name

/-- A usage with one characterisation. -/
def single (reference : String) (kind : CharacterisationKind) (s : Specification) : VariableUsage :=
  ⟨reference, [⟨kind, s⟩]⟩

/-- A usage with one characterisation whose specification is read from a text. -/
def parse (reference : String) (kind : CharacterisationKind) (text : String) :
    Except EvalError VariableUsage :=
  (Specification.parse text).map (single reference kind)

/-- The usage with one more characterisation. -/
def add (u : VariableUsage) (kind : CharacterisationKind) (s : Specification) : VariableUsage :=
  { u with characterisations := u.characterisations ++ [⟨kind, s⟩] }

end VariableUsage

end ServiceSim
