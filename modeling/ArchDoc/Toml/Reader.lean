import ArchDoc.Toml.Scalar

/-!
# Reading TOML texts

A TOML text is a sequence of lines: blank ones, comments, headers of tables, and keys with their
values. Readers take characters and give a result with the characters behind it, or none when
the characters do not start with what is read.

Main definitions:

* `readKey`: a dotted key.
* `readValue`: a value.
* `Toml.Building`: the tables built up so far.
* `Toml.parse?`: the members of the root table of a text.
-/

namespace ArchDoc.Toml

/-! ## Keys -/

/-- A character of a key without quotes. -/
def isBare (c : Char) : Bool :=
  isDigit c || ('a' ≤ c && c ≤ 'z') || ('A' ≤ c && c ≤ 'Z') || c == '-' || c == '_'

/-- A part of a key. -/
def readPart : List Char → Option (String × List Char)
  | '"' :: rest => (readBasic rest).map fun r => (String.ofList r.1, r.2)
  | '\'' :: rest => (readLiteral rest).map fun r => (String.ofList r.1, r.2)
  | cs =>
    let bare := cs.takeWhile isBare
    if bare.isEmpty then none else some (String.ofList bare, cs.dropWhile isBare)

/-- The greatest number of parts of a key. -/
def maxParts : Nat := 79

/-- The parts of a key, with dots and perhaps blanks between them, at most so many. -/
def readParts : Nat → List Char → Option (List String × List Char)
  | 0, _ => none
  | bound + 1, cs => do
    let (part, rest) ← readPart (skipBlanks cs)
    match skipBlanks rest with
    | '.' :: rest => do
      let (parts, rest) ← readParts bound rest
      return (part :: parts, rest)
    | rest => return ([part], rest)

/-- A dotted key: the parts that lead to the last one, the last one, and the characters behind
it. -/
def readKey (cs : List Char) : Option ((List String × String) × List Char) := do
  let (parts, rest) ← readParts maxParts cs
  let last ← parts.getLast?
  return ((parts.dropLast, last), rest)

/-! ## Values -/

/-- The characters after a comment, without the line break, if the characters start with one;
none if the comment holds a control character. -/
def skipComment : List Char → Option (List Char)
  | '#' :: rest =>
    match rest.dropWhile isVisible with
    | [] => some []
    | c :: rest => if c == '\n' || c == '\r' then some (c :: rest) else none
  | cs => some cs

/-- The characters after blanks, comments and line breaks, at most so many comments. -/
def skipBetween : Nat → List Char → Option (List Char)
  | 0, cs => some cs
  | bound + 1, cs =>
    match skipLines cs with
    | '#' :: rest => do
      let rest ← lineBreak? (← skipComment ('#' :: rest))
      skipBetween bound rest
    | rest => some rest

/-- The items of an array up to its closing bracket. -/
def readItems (value : List Char → Option (Toml × List Char)) :
    Nat → List Char → Option (List Toml × List Char)
  | 0, _ => none
  | bound + 1, cs => do
    match ← skipBetween cs.length cs with
    | ']' :: rest => return ([], rest)
    | cs =>
      let (item, rest) ← value cs
      match ← skipBetween rest.length rest with
      | ',' :: rest => do
        let (items, rest) ← readItems value bound rest
        return (item :: items, rest)
      | ']' :: rest => return ([item], rest)
      | _ => none

/-- The members of a table in braces up to its closing brace, added to the members before. -/
def readInline (value : List Char → Option (Toml × List Char)) :
    Nat → Members → List Char → Option (Members × List Char)
  | 0, _, _ => none
  | bound + 1, members, cs => do
    let ((path, last), rest) ← readKey cs
    let (v, rest) ← value (skipBlanks (← expect '=' rest))
    let members ← assign? last v path members
    match skipBlanks rest with
    | ',' :: rest => readInline value bound members rest
    | '\x7d' :: rest => return (members, rest)
    | _ => none

/-- A word that stands for a value. -/
def readWord (word : List Char) (v : Toml) (cs : List Char) : Option (Toml × List Char) :=
  if word.isPrefixOf cs then some (v, cs.drop word.length) else none

/-- How deep arrays and tables in braces may nest. -/
def maxDepth : Nat := 79

/-- A value, in which arrays and tables in braces nest at most so deep. -/
def readValue : Nat → List Char → Option (Toml × List Char)
  | _, [] => none
  | depth, c :: rest =>
    if c == '"' || c == '\'' then (readText (c :: rest)).map fun r => (.text r.1, r.2)
    else if c == '[' then
      match depth with
      | 0 => none
      | depth + 1 =>
        (readItems (readValue depth) (rest.length + 1) rest).map fun r => (.array r.1, r.2)
    else if c == '\x7b' then
      match depth with
      | 0 => none
      | depth + 1 =>
        match skipBlanks rest with
        | '\x7d' :: rest => some (.table .inline [], rest)
        | rest =>
          (readInline (readValue depth) (rest.length + 1) [] rest).map fun r =>
            (.table .inline r.1, r.2)
    else if c == 't' then readWord "true".toList (.boolean true) (c :: rest)
    else if c == 'f' then readWord "false".toList (.boolean false) (c :: rest)
    else
      match readDate (c :: rest) with
      | some rest => some (.date, rest)
      | none => readNumber (c :: rest)

/-! ## Lines -/

/-- Where the table in progress belongs: it is the root, the table of a header, or an element of
an array of tables. A path is given without its last part. -/
inductive Place where
  | root
  | table (path : List String) (last : String)
  | element (path : List String) (last : String)

/-- The tables that are complete and the one in progress. -/
structure Building where
  complete : Members
  place : Place
  current : Members

namespace Building

/-- Before the first line. -/
def start : Building := ⟨[], .root, []⟩

/-- The root table with the table in progress put where it belongs. -/
def close? (b : Building) : Option Members :=
  match b.place with
  | .root => some b.current
  | .table path last => putTable? last b.current path b.complete
  | .element path last => putElement? last b.current path b.complete

/-- Takes in the header of a table. -/
def header? (b : Building) (path : List String) (last : String) : Option Building := do
  let complete ← b.close?
  let current ← openTable? last path complete
  return ⟨complete, .table path last, current⟩

/-- Takes in the header of an element of an array of tables. -/
def elementHeader? (b : Building) (path : List String) (last : String) : Option Building := do
  let complete ← openElement? last path (← b.close?)
  return ⟨complete, .element path last, []⟩

/-- Takes in a key and its value. -/
def assign? (b : Building) (path : List String) (last : String) (value : Toml) :
    Option Building := do
  return { b with current := ← Toml.assign? last value path b.current }

end Building

/-- The characters after the end of a line: blanks, perhaps a comment, and a line break or the end
of the text. -/
def endLine (cs : List Char) : Option (List Char) := do
  match ← skipComment (skipBlanks cs) with
  | [] => return []
  | rest => lineBreak? rest

/-- Reads one line that is not blank. -/
def readLine (b : Building) (cs : List Char) : Option (Building × List Char) :=
  match cs with
  | '#' :: _ => do return (b, ← endLine cs)
  | '[' :: '[' :: rest => do
    let ((path, last), rest) ← readKey rest
    let rest ← expect ']' (← expect ']' rest)
    return (← b.elementHeader? path last, ← endLine rest)
  | '[' :: rest => do
    let ((path, last), rest) ← readKey rest
    let rest ← expect ']' rest
    return (← b.header? path last, ← endLine rest)
  | _ => do
    let ((path, last), rest) ← readKey cs
    let (value, rest) ← readValue maxDepth (skipBlanks (← expect '=' rest))
    return (← b.assign? path last value, ← endLine rest)

/-- Reads lines up to the end of the text, at most so many. -/
def readLines : Nat → Building → List Char → Option Building
  | 0, _, _ => none
  | bound + 1, b, cs =>
    match skipBlanks cs with
    | [] => some b
    | rest =>
      match lineBreak? rest with
      | some rest => readLines bound b rest
      | none => do
        let (b, rest) ← readLine b rest
        readLines bound b rest

/-- The members of the root table of a text. A byte order mark at the beginning does not count. -/
def parse? (text : String) : Option Members := do
  let cs :=
    match text.toList with
    | '\ufeff' :: cs => cs
    | cs => cs
  (← readLines (cs.length + 1) .start cs).close?

end ArchDoc.Toml
