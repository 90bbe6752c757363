import ArchDoc.Json.Number
import ArchDoc.Toml.Basic

/-!
# TOML scalars

Texts in quotes, numbers and dates. Each reader takes characters and gives a value with the
characters behind it, or none when the characters do not start with such a value.

Main definitions:

* `Toml.readBasic`, `readLiteral`, `readLongBasic`, `readLongLiteral`, `readText`: texts.
* `Toml.readNumber`: integers and floats.
* `Toml.readDate`: dates and times.
-/

namespace ArchDoc.Toml

/-! ## Characters -/

/-- Blanks within a line. -/
def isBlank (c : Char) : Bool :=
  c == ' ' || c == '\t'

/-- A decimal digit. -/
def isDigit (c : Char) : Bool :=
  '0' ≤ c && c ≤ '9'

/-- A hexadecimal digit. -/
def isHexDigit (c : Char) : Bool :=
  isDigit c || ('a' ≤ c && c ≤ 'f') || ('A' ≤ c && c ≤ 'F')

/-- The value of a hexadecimal digit. -/
def hexDigitValue (c : Char) : Nat :=
  if isDigit c then c.toNat - '0'.toNat
  else if 'a' ≤ c then c.toNat - 'a'.toNat + 10
  else c.toNat - 'A'.toNat + 10

/-- The number that digits of a base spell. -/
def baseValue (base : Nat) (ds : List Char) : Nat :=
  ds.foldl (fun n d => base * n + hexDigitValue d) 0

/-- A character that may stand in a comment: no control character but the tab. -/
def isVisible (c : Char) : Bool :=
  c == '\t' || (0x20 ≤ c.toNat && c.toNat != 0x7f)

/-- The characters after a line break, if there is one. -/
def lineBreak? : List Char → Option (List Char)
  | '\n' :: rest => some rest
  | '\r' :: '\n' :: rest => some rest
  | _ => none

/-- The characters after blanks. -/
def skipBlanks (cs : List Char) : List Char :=
  cs.dropWhile isBlank

/-- The characters after blanks and line breaks. -/
def skipLines : List Char → List Char
  | [] => []
  | '\r' :: '\n' :: rest => skipLines rest
  | c :: rest => if isBlank c || c == '\n' then skipLines rest else c :: rest

/-! ## Texts -/

/-- The character that a number stands for, unless it is a surrogate or too large. -/
def char? (n : Nat) : Option Char :=
  if n.isValidChar then some (Char.ofNat n) else none

/-- The character of an escape with a number of hexadecimal digits. -/
def hexEscape (digits : Nat) (cs : List Char) : Option Char :=
  let ds := cs.take digits
  if ds.length = digits ∧ ds.all isHexDigit then char? (baseValue 16 ds) else none

/-- The character that a letter after a backslash stands for. -/
def escaped? : Char → Option Char
  | 'b' => some '\x08'
  | 't' => some '\t'
  | 'n' => some '\n'
  | 'f' => some '\x0c'
  | 'r' => some '\r'
  | '"' => some '"'
  | '\\' => some '\\'
  | _ => none

/-- The character of an escape, with the characters behind it. -/
def readEscape : List Char → Option (Char × List Char)
  | [] => none
  | 'u' :: rest => (hexEscape 4 rest).map fun c => (c, rest.drop 4)
  | 'U' :: rest => (hexEscape 8 rest).map fun c => (c, rest.drop 8)
  | c :: rest => (escaped? c).map fun d => (d, rest)

theorem readEscape_length {cs rest : List Char} {c : Char}
    (h : readEscape cs = some (c, rest)) : rest.length < cs.length := by
  unfold readEscape at h
  split at h
  · cases h
  · obtain ⟨_, _, h⟩ := Option.map_eq_some_iff.mp h
    cases h
    simp only [List.length_drop, List.length_cons]
    omega
  · obtain ⟨_, _, h⟩ := Option.map_eq_some_iff.mp h
    cases h
    simp only [List.length_drop, List.length_cons]
    omega
  · obtain ⟨_, _, h⟩ := Option.map_eq_some_iff.mp h
    cases h
    simp

theorem skipLines_length (cs : List Char) : (skipLines cs).length ≤ cs.length := by
  fun_induction skipLines cs with
  | case1 => simp
  | case2 rest ih => simp only [List.length_cons]; omega
  | case3 c rest _ h ih => simp only [List.length_cons]; omega
  | case4 c rest _ h => simp

/-- The rest of a text between double quotes. -/
def readBasic (cs : List Char) : Option (List Char × List Char) :=
  match cs with
  | [] => none
  | '"' :: rest => some ([], rest)
  | '\\' :: rest =>
    match _h : readEscape rest with
    | none => none
    | some (c, rest) => do
      let (out, rest) ← readBasic rest
      return (c :: out, rest)
  | c :: rest =>
    if isVisible c then do
      let (out, rest) ← readBasic rest
      return (c :: out, rest)
    else none
termination_by cs.length
decreasing_by
  · have := readEscape_length (by assumption)
    simp only [List.length_cons]
    omega
  · simp

/-- The rest of a text between single quotes. -/
def readLiteral : List Char → Option (List Char × List Char)
  | [] => none
  | '\'' :: rest => some ([], rest)
  | c :: rest =>
    if isVisible c then do
      let (out, rest) ← readLiteral rest
      return (c :: out, rest)
    else none

/-- Reads the end of a long text if it is there: three quotes, of which up to two more may stand
in front as part of the text. -/
def longEnd? (quote : Char) (cs : List Char) : Option (List Char × List Char) :=
  let run := (cs.takeWhile (· == quote)).length
  if run < 3 then none
  else
    let kept := min (run - 3) 2
    some (List.replicate kept quote, cs.drop (kept + 3))

/-- The rest of a text between three double quotes. A backslash at the end of a line takes away
the blanks and line breaks that follow. -/
def readLongBasic (cs : List Char) : Option (List Char × List Char) :=
  match longEnd? '"' cs with
  | some done => some done
  | none =>
    match cs with
    | [] => none
    | '\\' :: rest =>
      match lineBreak? (skipBlanks rest) with
      | some _ => readLongBasic (skipLines rest)
      | none =>
        match _h : readEscape rest with
        | none => none
        | some (c, rest) => do
          let (out, rest) ← readLongBasic rest
          return (c :: out, rest)
    | '\r' :: '\n' :: rest => do
      let (out, rest) ← readLongBasic rest
      return ('\n' :: out, rest)
    | c :: rest =>
      if isVisible c || c == '\n' then do
        let (out, rest) ← readLongBasic rest
        return (c :: out, rest)
      else none
termination_by cs.length
decreasing_by
  · have := skipLines_length rest
    simp only [List.length_cons]
    omega
  · have := readEscape_length (by assumption)
    simp only [List.length_cons]
    omega
  · simp only [List.length_cons]
    omega
  · simp

/-- The rest of a text between three single quotes. -/
def readLongLiteral (cs : List Char) : Option (List Char × List Char) :=
  match longEnd? '\'' cs with
  | some done => some done
  | none =>
    match cs with
    | [] => none
    | '\r' :: '\n' :: rest => do
      let (out, rest) ← readLongLiteral rest
      return ('\n' :: out, rest)
    | c :: rest =>
      if isVisible c || c == '\n' then do
        let (out, rest) ← readLongLiteral rest
        return (c :: out, rest)
      else none
termination_by cs.length
decreasing_by
  · simp only [List.length_cons]
    omega
  · simp

/-- The characters after a line break, or all of them. -/
def skipLineBreak (cs : List Char) : List Char :=
  (lineBreak? cs).getD cs

/-- A text in quotes of any kind. A line break right behind three quotes does not count. -/
def readText (cs : List Char) : Option (String × List Char) :=
  let body :=
    match cs with
    | '"' :: '"' :: '"' :: rest => readLongBasic (skipLineBreak rest)
    | '"' :: rest => readBasic rest
    | '\'' :: '\'' :: '\'' :: rest => readLongLiteral (skipLineBreak rest)
    | '\'' :: rest => readLiteral rest
    | _ => none
  body.map fun r => (String.ofList r.1, r.2)

/-! ## Numbers -/

/-- More digits behind a digit, where an underscore may stand between two of them; gives the
digits without the underscores. -/
def moreDigits (digit : Char → Bool) : List Char → Option (List Char × List Char)
  | [] => some ([], [])
  | '_' :: c :: rest =>
    if digit c then (moreDigits digit rest).map fun r => (c :: r.1, r.2) else none
  | c :: rest =>
    if c == '_' then none
    else if digit c then (moreDigits digit rest).map fun r => (c :: r.1, r.2)
    else some ([], c :: rest)

/-- Digits, with underscores between them. -/
def readDigits (digit : Char → Bool) : List Char → Option (List Char × List Char)
  | [] => none
  | c :: rest =>
    if digit c then (moreDigits digit rest).map fun r => (c :: r.1, r.2) else none

/-- A sign: whether it is a minus, and the characters behind it. -/
def readSign : List Char → Bool × List Char
  | '+' :: rest => (false, rest)
  | '-' :: rest => (true, rest)
  | cs => (false, cs)

/-- The digits of a decimal integer, which start with a zero only if there is no other digit. -/
def readWhole : List Char → Option (List Char × List Char)
  | '0' :: rest => some (['0'], rest)
  | cs => readDigits isDigit cs

/-- The exponent of a float: whether it is negative, its digits, and the characters behind it. -/
def readExponent : List Char → Option ((Bool × List Char) × List Char)
  | c :: rest =>
    if c == 'e' || c == 'E' then
      let (negative, rest) := readSign rest
      (readDigits isDigit rest).map fun r => ((negative, r.1), r.2)
    else none
  | [] => none

/-- Whether a decimal is too large for a double: a whole number scaled by a power of ten. -/
def isInfinite (digits : List Char) (scale : Int) : Bool :=
  let significant := digits.dropWhile (· == '0')
  let n := digitsValue significant
  if significant.isEmpty || significant.length + scale < 300 then false
  else if 320 < significant.length + scale then true
  else infiniteFrom * powerOfTen (-scale).toNat ≤ n * powerOfTen scale.toNat

/-- The value of an exponent. -/
def exponentValue : Option (Bool × List Char) → Int
  | none => 0
  | some (negative, ds) => if negative then -(digitsValue ds) else digitsValue ds

/-- A float with a fraction, an exponent or both. A positive one must not be too large. -/
def readFloat (cs : List Char) : Option (List Char) := do
  let (negative, cs) := readSign cs
  let (whole, cs) ← readWhole cs
  let (fraction, cs) ←
    match cs with
    | '.' :: rest => readDigits isDigit rest
    | cs => if (readExponent cs).isSome then some ([], cs) else none
  let (exponent, cs) :=
    match readExponent cs with
    | some (exponent, rest) => (some exponent, rest)
    | none => (none, cs)
  let scale := exponentValue exponent - fraction.length
  if !negative && isInfinite (whole ++ fraction) scale then none else some cs

/-- Whether an integer fits into 64 bits. -/
def fits (n : Int) : Bool :=
  Int64.minValue.toInt ≤ n && n ≤ Int64.maxValue.toInt

/-- An integer that fits into 64 bits. -/
def integer? (n : Int) (rest : List Char) : Option (Toml × List Char) :=
  if fits n then some (.integer n, rest) else none

/-- An integer in decimal, or in hexadecimal, octal or binary without a sign. -/
def readInteger (cs : List Char) : Option (Toml × List Char) :=
  match cs with
  | '0' :: 'x' :: rest => do
    let (ds, rest) ← readDigits isHexDigit rest
    integer? (baseValue 16 ds) rest
  | '0' :: 'o' :: rest => do
    let (ds, rest) ← readDigits (fun c => '0' ≤ c && c ≤ '7') rest
    integer? (baseValue 8 ds) rest
  | '0' :: 'b' :: rest => do
    let (ds, rest) ← readDigits (fun c => c == '0' || c == '1') rest
    integer? (baseValue 2 ds) rest
  | _ => do
    let (negative, cs) := readSign cs
    let (ds, rest) ← readWhole cs
    let n := digitsValue ds
    integer? (if negative then -n else n) rest

/-- The characters after a float without digits: infinity or not a number. -/
def readSpecial (cs : List Char) : Option (List Char) :=
  match (readSign cs).2 with
  | 'i' :: 'n' :: 'f' :: rest => some rest
  | 'n' :: 'a' :: 'n' :: rest => some rest
  | _ => none

/-- A number. -/
def readNumber (cs : List Char) : Option (Toml × List Char) :=
  match readFloat cs with
  | some rest => some (.float, rest)
  | none =>
    match readSpecial cs with
    | some rest => some (.float, rest)
    | none => readInteger cs

/-! ## Dates and times -/

/-- A number of exactly so many digits within bounds, with the characters behind it. -/
def readField (digits low high : Nat) (cs : List Char) : Option (Nat × List Char) :=
  let ds := cs.take digits
  let n := digitsValue ds
  if ds.length = digits ∧ ds.all isDigit ∧ low ≤ n ∧ n ≤ high then some (n, cs.drop digits)
  else none

/-- The characters after a given one. -/
def expect (c : Char) : List Char → Option (List Char)
  | d :: rest => if d = c then some rest else none
  | [] => none

/-- The number of days of a month. -/
def daysInMonth (year month : Nat) : Nat :=
  let leap := year % 4 == 0 && (year % 100 != 0 || year % 400 == 0)
  if month = 2 then (if leap then 29 else 28)
  else if [4, 6, 9, 11].contains month then 30
  else 31

/-- The characters after a date. -/
def readDay (cs : List Char) : Option (List Char) := do
  let (year, cs) ← readField 4 0 9999 cs
  let (month, cs) ← readField 2 1 12 (← expect '-' cs)
  let (_, cs) ← readField 2 1 (daysInMonth year month) (← expect '-' cs)
  return cs

/-- The characters after a fraction of a second, if there is one. -/
def skipFraction : List Char → List Char
  | '.' :: c :: rest => if isDigit c then rest.dropWhile isDigit else '.' :: c :: rest
  | cs => cs

/-- The characters after a time of day. -/
def readTime (cs : List Char) : Option (List Char) := do
  let (_, cs) ← readField 2 0 23 cs
  let (_, cs) ← readField 2 0 59 (← expect ':' cs)
  let (_, cs) ← readField 2 0 60 (← expect ':' cs)
  return skipFraction cs

/-- The characters after an offset from universal time. -/
def readOffset : List Char → Option (List Char)
  | 'Z' :: rest => some rest
  | 'z' :: rest => some rest
  | c :: rest =>
    if c == '+' || c == '-' then do
      let (_, rest) ← readField 2 0 23 rest
      let (_, rest) ← readField 2 0 59 (← expect ':' rest)
      return rest
    else none
  | [] => none

/-- The characters after a time that follows a date. -/
def readDayTime : List Char → Option (List Char)
  | c :: rest =>
    if c == 'T' || c == 't' || c == ' ' then do
      let rest ← readTime rest
      return (readOffset rest).getD rest
    else none
  | [] => none

/-- The characters after a date, a time of day, or both. -/
def readDate (cs : List Char) : Option (List Char) :=
  match readDay cs with
  | some rest => some ((readDayTime rest).getD rest)
  | none => readTime cs

end ArchDoc.Toml
