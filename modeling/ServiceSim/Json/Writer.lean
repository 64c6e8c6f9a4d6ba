import ServiceSim.Json.Basic
import ServiceSim.Number.Layout
import ServiceSim.Text

/-!
# Writing JSON

Two forms of a document: `render` writes it on one line, and `pretty` on several, indented by two
spaces a level.  Quotes, backslashes and control characters are escaped, all else is written as it
is; a number that JSON cannot hold is written as null.
-/

namespace ServiceSim.Json

/-- A number in two hexadecimal digits. -/
def hex2 (n : Nat) : String := (if n < 16 then "0" else "") ++ Text.hex n

/-- A character inside a string. -/
def escapedChar (c : Char) : String :=
  match c with
  | '"' => "\\\""
  | '\\' => "\\\\"
  | '\x08' => "\\b"
  | '\x0c' => "\\f"
  | '\n' => "\\n"
  | '\r' => "\\r"
  | '\t' => "\\t"
  | c => if c.toNat < 0x20 then "\\u00" ++ hex2 c.toNat else String.singleton c

/-- A string with its quotes. -/
def quote (s : String) : String := "\"" ++ String.join (s.toList.map escapedChar) ++ "\""

/-- The text of a document that has no parts. -/
def scalar : Json → String
  | null => "null"
  | bool true => "true"
  | bool false => "false"
  | integer n => toString n
  | double x => Number.text Number.json x
  | string s => quote s
  | array _ => "[]"
  | object _ => "\x7b\x7d"

mutual

/-- A document on one line. -/
def render : Json → String
  | array items => "[" ++ String.intercalate "," (renderAll items) ++ "]"
  | object members => "\x7b" ++ String.intercalate "," (renderMembers members) ++ "\x7d"
  | null => "null"
  | bool b => scalar (bool b)
  | integer n => scalar (integer n)
  | double x => scalar (double x)
  | string s => scalar (string s)

/-- Documents on one line each. -/
def renderAll : List Json → List String
  | [] => []
  | first :: rest => render first :: renderAll rest

/-- Members with their names. -/
def renderMembers : List (String × Json) → List String
  | [] => []
  | first :: rest => renderMember first :: renderMembers rest

/-- A member with its name. -/
def renderMember : String × Json → String
  | (name, value) => quote name ++ ":" ++ render value

end

/-- A line break and the indentation of a level. -/
def newline (level : Nat) : String := "\n" ++ String.ofList (List.replicate (2 * level) ' ')

/-- Parts between brackets, one a line. -/
def block (left right : String) (level : Nat) (parts : List String) : String :=
  if parts.isEmpty then left ++ right
  else left ++ newline (level + 1) ++ String.intercalate ("," ++ newline (level + 1)) parts ++
    newline level ++ right

mutual

/-- A document on several lines, at a level of indentation. -/
def prettyAt (level : Nat) : Json → String
  | array items => block "[" "]" level (prettyAll (level + 1) items)
  | object members => block "\x7b" "\x7d" level (prettyMembers (level + 1) members)
  | null => "null"
  | bool b => scalar (bool b)
  | integer n => scalar (integer n)
  | double x => scalar (double x)
  | string s => scalar (string s)

/-- Documents at a level. -/
def prettyAll (level : Nat) : List Json → List String
  | [] => []
  | first :: rest => prettyAt level first :: prettyAll level rest

/-- Members at a level. -/
def prettyMembers (level : Nat) : List (String × Json) → List String
  | [] => []
  | first :: rest => prettyMember level first :: prettyMembers level rest

/-- A member at a level. -/
def prettyMember (level : Nat) : String × Json → String
  | (name, value) => quote name ++ ": " ++ prettyAt level value

end

/-- A document on several lines. -/
def pretty (json : Json) : String := prettyAt 0 json

end ServiceSim.Json
