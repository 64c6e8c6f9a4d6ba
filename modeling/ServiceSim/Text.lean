import ServiceSim.Text.Hidden

/-!
# Text

What the library needs of text beyond `String`: the white space that is trimmed from
specifications, the measure in which positions in them are reported, and the quoted form of file
names.
-/

namespace ServiceSim.Text

/-! ## White space -/

/-- The white space of the Unicode standard. -/
def isSpace (c : Char) : Bool :=
  let n := c.toNat
  (0x09 ≤ n && n ≤ 0x0d) || n == 0x20 || n == 0x85 || n == 0xa0 || n == 0x1680 ||
    (0x2000 ≤ n && n ≤ 0x200a) || n == 0x2028 || n == 0x2029 || n == 0x202f || n == 0x205f ||
    n == 0x3000

/-- Drops white space at the end. -/
def trimEnd (cs : List Char) : List Char := (cs.reverse.dropWhile isSpace).reverse

/-- Drops white space at both ends. -/
def trim (s : String) : String := String.ofList (trimEnd (s.toList.dropWhile isSpace))

/-! ## Positions -/

/-- The number of bytes a list of characters takes in UTF-8. -/
def byteSize (cs : List Char) : Nat := cs.foldl (fun n c => n + c.utf8Size) 0

/-! ## Quoted file names -/

/-- The lower-case hexadecimal digits of a number. -/
def hex (n : Nat) : String := String.ofList (Nat.toDigits 16 n)

/-- A character inside quotes: quotes, backslashes and characters that are not shown are escaped. -/
def quotedChar (c : Char) : String :=
  match c with
  | '"' => "\\\""
  | '\\' => "\\\\"
  | '\n' => "\\n"
  | '\r' => "\\r"
  | '\t' => "\\t"
  | '\x00' => "\\0"
  | c => if isHidden c then "\\u\x7b" ++ hex c.toNat ++ "\x7d" else String.singleton c

/-- A text in quotes. -/
def quoted (s : String) : String := "\"" ++ String.join (s.toList.map quotedChar) ++ "\""

end ServiceSim.Text
