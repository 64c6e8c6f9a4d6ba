/-!
# Paths

The last name of a path and its extension.  A path is read from its end on, so the functions take
and return characters in reverse: what comes first is what stands last in the path.

Slashes at the end of a path, and single points between them, belong to no name.
-/

namespace ServiceSim.Path

/-- Drops what belongs to no name from the end of a path. -/
def trimmed : List Char → List Char
  | '/' :: rest => trimmed rest
  | '.' :: '/' :: rest => trimmed rest
  | cs => cs

/-- The last name of a path and what stands before it, if the path ends in the name of a file. -/
def lastName? (cs : List Char) : Option (List Char × List Char) :=
  let name := (trimmed cs).takeWhile (· != '/')
  if name = [] ∨ name = ['.'] ∨ name = ['.', '.'] then none
  else some (name, (trimmed cs).dropWhile (· != '/'))

/-- The extension of a name, which follows its last point, and the name without it.  A point that
nothing precedes begins no extension. -/
def extension? (name : List Char) : Option (List Char) × List Char :=
  match name.dropWhile (· != '.') with
  | '.' :: first :: stem => (some (name.takeWhile (· != '.')), first :: stem)
  | _ => (none, name)

/-- The path with another extension of its last name.  The one it has is cut off the end of the path
first; if the path then ends in no name of a file, it stays so. -/
def withExtension (extension path : String) : String :=
  let cs := path.toList.reverse
  let old := (lastName? cs).bind fun (name, _) => (extension? name).1
  let cut := cs.drop (old.getD []).length
  match lastName? cut with
  | some (name, before) => String.ofList ((extension? name).2 ++ before).reverse ++ "." ++ extension
  | none => String.ofList cut.reverse

end ServiceSim.Path
