import ArchDoc.Json.Basic

/-!
# Writing JSON texts

Two layouts of a value: on one line without spaces, and with every item and member on a line of
its own, indented by two spaces for each level. Members are written in the order in which they
stand.

Main definitions:

* `Layout`: the spaces and line breaks between the parts of a value.
* `Json.write`: the characters of a value in a layout.
* `Json.compact`, `Json.pretty`: the texts of a value.
-/

namespace ArchDoc

/-- Where line breaks go: nowhere, or around every item and member, at a level of indentation. -/
inductive Layout where
  | line
  | block (level : Nat)

namespace Layout

/-- The layout of the items and members of a value. -/
def inner : Layout → Layout
  | line => line
  | block level => block (level + 1)

/-- The line break and the indentation. -/
def lineBreak : Layout → List Char
  | line => []
  | block level => '\n' :: List.replicate (2 * level) ' '

/-- What stands between the name and the value of a member. -/
def colon : Layout → List Char
  | line => [':']
  | block _ => [':', ' ']

end Layout

namespace Json

/-! ## Texts in quotes -/

/-- A hexadecimal digit in lower case. -/
def hexDigit (n : Nat) : Char :=
  if n < 10 then Char.ofNat ('0'.toNat + n) else Char.ofNat ('a'.toNat + (n - 10))

/-- A character within quotes: the quote, the backslash and the control characters below U+0020
are escaped, all others stand for themselves. -/
def escapeChar (c : Char) : List Char :=
  if c = '"' then ['\\', '"']
  else if c = '\\' then ['\\', '\\']
  else if c = '\x08' then ['\\', 'b']
  else if c = '\x0c' then ['\\', 'f']
  else if c = '\n' then ['\\', 'n']
  else if c = '\r' then ['\\', 'r']
  else if c = '\t' then ['\\', 't']
  else if c.toNat < 0x20 then
    ['\\', 'u', '0', '0', hexDigit (c.toNat / 16), hexDigit (c.toNat % 16)]
  else [c]

/-- A text in quotes. -/
def quote (s : String) : List Char :=
  '"' :: s.toList.flatMap escapeChar ++ ['"']

/-! ## Values -/

/-- The spelling of a number. -/
def writeNumeral (n : Numeral) : List Char :=
  (if n.negative then ['-'] else []) ++ n.whole ++
    (if n.fraction.isEmpty then [] else '.' :: n.fraction) ++
    match n.exponent with
    | none => []
    | some (negative, ds) => 'e' :: (if negative then '-' :: ds else ds)

mutual

/-- The characters of a value. -/
def write (layout : Layout) : Json → List Char
  | null => "null".toList
  | bool true => "true".toList
  | bool false => "false".toList
  | int n => (toString n).toList
  | real n => writeNumeral n
  | str s => quote s
  | arr [] => ['[', ']']
  | arr (v :: rest) =>
    '[' :: layout.inner.lineBreak ++ write layout.inner v ++ writeItems layout.inner rest ++
      layout.lineBreak ++ [']']
  | obj [] => ['\x7b', '\x7d']
  | obj ((name, v) :: rest) =>
    '\x7b' :: layout.inner.lineBreak ++ quote name ++ layout.colon ++ write layout.inner v ++
      writeMembers layout.inner rest ++ layout.lineBreak ++ ['\x7d']

/-- The characters of the items after the first one, each after a comma. -/
def writeItems (layout : Layout) : List Json → List Char
  | [] => []
  | v :: rest => ',' :: layout.lineBreak ++ write layout v ++ writeItems layout rest

/-- The characters of the members after the first one, each after a comma. -/
def writeMembers (layout : Layout) : List (String × Json) → List Char
  | [] => []
  | (name, v) :: rest =>
    ',' :: layout.lineBreak ++ quote name ++ layout.colon ++ write layout v ++
      writeMembers layout rest

end

/-- The text of a value on one line, without spaces. -/
def compact (v : Json) : String :=
  String.ofList (v.write .line)

/-- The text of a value on many lines, indented by two spaces for each level. -/
def pretty (v : Json) : String :=
  String.ofList (v.write (.block 0))

end Json

end ArchDoc
