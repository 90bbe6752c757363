import ArchDoc.Json.Number

/-!
# Reading JSON texts

The grammar of RFC 8259 as a machine that reads one character at a time. What surrounds the value
in progress stands on a stack of frames, so a text is read by one pass over its characters.

The machine runs in two manners. A value that is kept is read in full: surrogate escapes have to
be paired, numbers have to fit a double, and arrays and objects nest at most `maxDepth` deep. A
value that is skipped only has to follow the grammar.

Main definitions:

* `Fault`: how a text fails.
* `Reader.State`, `Reader.step`, `Reader.finish`: the machine.
* `Json.parse`: the value of a text.
-/

namespace ArchDoc

/-- How a text fails to be what was asked for: it ends where more is needed, it breaks the
grammar, or it has another shape. -/
inductive Fault where
  | ended
  | malformed
  | mismatch
  deriving DecidableEq

namespace Reader

/-! ## Characters -/

/-- The whitespace of the grammar. -/
def isSpace (c : Char) : Bool :=
  c == ' ' || c == '\n' || c == '\r' || c == '\t'

/-- A decimal digit. -/
def isDigit (c : Char) : Bool :=
  '0' ≤ c && c ≤ '9'

/-- The value of a hexadecimal digit. -/
def hexValue? (c : Char) : Option Nat :=
  if isDigit c then some (c.toNat - '0'.toNat)
  else if 'a' ≤ c && c ≤ 'f' then some (c.toNat - 'a'.toNat + 10)
  else if 'A' ≤ c && c ≤ 'F' then some (c.toNat - 'A'.toNat + 10)
  else none

/-- The number that four hexadecimal digits spell. -/
def hexUnit? (ds : List Char) : Option Nat :=
  match ds.mapM hexValue? with
  | some [a, b, c, d] => some (4096 * a + 256 * b + 16 * c + d)
  | _ => none

/-- The number of bytes of characters in UTF-8. -/
def utf8Length (cs : List Char) : Nat :=
  cs.foldl (fun n c => n + c.utf8Size) 0

/-! ## Texts in quotes -/

/-- Where a text in quotes stands: between characters, after a backslash, within the four bytes
of a hexadecimal escape (read ones last first, with the leading surrogate before it if any), or
after a leading surrogate and then after the backslash that has to follow it. -/
inductive Quote where
  | plain
  | escape
  | hex (lead : Option Nat) (digits : List Char)
  | lead (unit : Nat)
  | leadEscape (unit : Nat)

/-- Whether a UTF-16 unit is a leading surrogate. -/
def isLead (unit : Nat) : Bool :=
  0xd800 ≤ unit && unit ≤ 0xdbff

/-- Whether a UTF-16 unit is a trailing surrogate. -/
def isTrail (unit : Nat) : Bool :=
  0xdc00 ≤ unit && unit ≤ 0xdfff

/-- The character of a pair of surrogates. -/
def pairedChar (lead trail : Nat) : Char :=
  Char.ofNat (0x10000 + (lead - 0xd800) * 0x400 + (trail - 0xdc00))

/-- The character that a letter after a backslash stands for. -/
def escaped? : Char → Option Char
  | '"' => some '"'
  | '\\' => some '\\'
  | '/' => some '/'
  | 'b' => some '\x08'
  | 'f' => some '\x0c'
  | 'n' => some '\n'
  | 'r' => some '\r'
  | 't' => some '\t'
  | _ => none

/-- Takes in the unit of a hexadecimal escape. A unit of a skipped value counts for nothing. -/
def takeUnit (keep : Bool) (out : List Char) (lead : Option Nat) (unit : Nat) :
    Except Fault (List Char × Quote) :=
  if !keep then .ok (out, .plain)
  else
    match lead with
    | none =>
      if isTrail unit then .error .malformed
      else if isLead unit then .ok (out, .lead unit)
      else .ok (Char.ofNat unit :: out, .plain)
    | some first =>
      if isTrail unit then .ok (pairedChar first unit :: out, .plain) else .error .malformed

/-- Reads one character of a text in quotes; `out` holds the characters so far, last first. The
result is none when the character is the closing quote. -/
def quoteStep (keep : Bool) (out : List Char) (quote : Quote) (c : Char) :
    Except Fault (Option (List Char × Quote)) :=
  match quote with
  | .plain =>
    if c = '"' then .ok none
    else if c = '\\' then .ok (some (out, .escape))
    else if c.toNat < 0x20 then .error .malformed
    else .ok (some (c :: out, .plain))
  | .escape =>
    if c = 'u' then .ok (some (out, .hex none []))
    else
      match escaped? c with
      | some d => .ok (some (d :: out, .plain))
      | none => .error .malformed
  | .hex lead digits =>
    let digits := c :: digits
    if utf8Length digits < 4 then .ok (some (out, .hex lead digits))
    else
      match hexUnit? digits.reverse with
      | some unit => (takeUnit keep out lead unit).map some
      | none => .error .malformed
  | .lead unit => if c = '\\' then .ok (some (out, .leadEscape unit)) else .error .malformed
  | .leadEscape unit => if c = 'u' then .ok (some (out, .hex (some unit) [])) else .error .malformed

/-! ## Numbers -/

/-- Where a number stands: after its sign, after a leading zero, within its digits, after the
point, within its fraction, after the exponent mark, after the sign of the exponent, or within
the exponent. -/
inductive NumberStage where
  | sign
  | zero
  | whole
  | point
  | fraction
  | mark
  | markSign
  | exponent
  deriving DecidableEq

/-- Whether a number may end at a stage. -/
def NumberStage.complete : NumberStage → Bool
  | .zero | .whole | .fraction | .exponent => true
  | .sign | .point | .mark | .markSign => false

/-- Adds a digit to the exponent, whose digits stand last first. -/
def addExponentDigit (c : Char) : Option (Bool × List Char) → Option (Bool × List Char)
  | some (negative, ds) => some (negative, c :: ds)
  | none => some (false, [c])

/-- The stage that follows when a character continues a number, with the spelling so far, whose
digits stand last first; none if the character cannot continue it. -/
def numberStep (stage : NumberStage) (n : Numeral) (c : Char) : Option (NumberStage × Numeral) :=
  let startExponent : Option (NumberStage × Numeral) :=
    if c = 'e' ∨ c = 'E' then some (.mark, { n with exponent := some (false, []) }) else none
  let startFraction : Option (NumberStage × Numeral) :=
    if c = '.' then some (.point, n) else startExponent
  let firstExponentDigit : Option (NumberStage × Numeral) :=
    if isDigit c then some (.exponent, { n with exponent := addExponentDigit c n.exponent })
    else none
  match stage with
  | .sign =>
    if c = '0' then some (.zero, { n with whole := [c] })
    else if isDigit c then some (.whole, { n with whole := [c] })
    else none
  | .zero => startFraction
  | .whole =>
    if isDigit c then some (.whole, { n with whole := c :: n.whole }) else startFraction
  | .point =>
    if isDigit c then some (.fraction, { n with fraction := [c] }) else none
  | .fraction =>
    if isDigit c then some (.fraction, { n with fraction := c :: n.fraction })
    else startExponent
  | .mark =>
    if c = '+' then some (.markSign, n)
    else if c = '-' then some (.markSign, { n with exponent := some (true, []) })
    else firstExponentDigit
  | .markSign => firstExponentDigit
  | .exponent => firstExponentDigit

/-- A spelling with its digits in the order of the text. -/
def inOrder (n : Numeral) : Numeral :=
  { n with
    whole := n.whole.reverse
    fraction := n.fraction.reverse
    exponent := n.exponent.map fun e => (e.1, e.2.reverse) }

/-- The value of a number that has been read. -/
def numberValue (keep : Bool) (n : Numeral) : Except Fault Json :=
  match (inOrder n).toJson? with
  | some v => .ok v
  | none => if keep then .error .malformed else .ok (.real (inOrder n))

/-! ## The machine -/

/-- What stands around a value in progress: an array with the items before it, or an object with
the members before it and the name of the value. What came before stands last first. -/
inductive Frame where
  | array (before : List Json)
  | object (before : List (String × Json)) (name : String)

/-- What is being read. Items and members that are already read stand last first. -/
inductive Phase where
  | value
  | firstItem
  | afterItem (items : List Json)
  | firstName
  | nextName (members : List (String × Json))
  | name (members : List (String × Json)) (out : List Char) (quote : Quote)
  | colon (members : List (String × Json)) (name : String)
  | afterMember (members : List (String × Json))
  | text (out : List Char) (quote : Quote)
  | word (left : List Char) (value : Json)
  | number (stage : NumberStage) (n : Numeral)
  | done (value : Json)

/-- The state of the machine: what is being read, and what stands around it, innermost first. -/
structure State where
  phase : Phase
  around : List Frame

/-- The state before the first character. -/
def start : State := ⟨.value, []⟩

/-- How deep arrays and objects of a kept value may nest. -/
def maxDepth : Nat := 127

/-- The state after a value is complete. -/
def complete (v : Json) : List Frame → State
  | [] => ⟨.done v, []⟩
  | .array before :: around => ⟨.afterItem (v :: before), around⟩
  | .object before name :: around => ⟨.afterMember ((name, v) :: before), around⟩

/-- The state after the bracket of an array or object, whose first phase is `phase`. -/
def openBracket (keep : Bool) (around : List Frame) (phase : Phase) : Except Fault State :=
  if keep && maxDepth ≤ around.length then .error .malformed else .ok ⟨phase, around⟩

/-- Reads the first character of a value. -/
def startValue (keep : Bool) (around : List Frame) (c : Char) : Except Fault State :=
  if c = '"' then .ok ⟨.text [] .plain, around⟩
  else if c = '[' then openBracket keep around .firstItem
  else if c = '\x7b' then openBracket keep around .firstName
  else if c = 'n' then .ok ⟨.word ['u', 'l', 'l'] .null, around⟩
  else if c = 't' then .ok ⟨.word ['r', 'u', 'e'] (.bool true), around⟩
  else if c = 'f' then .ok ⟨.word ['a', 'l', 's', 'e'] (.bool false), around⟩
  else if c = '-' then .ok ⟨.number .sign ⟨true, [], [], none⟩, around⟩
  else
    match numberStep .sign ⟨false, [], [], none⟩ c with
    | some (stage, n) => .ok ⟨.number stage n, around⟩
    | none => .error .malformed

/-- Whether a number may end at a stage before a character: a leading zero stands alone. -/
def NumberStage.endsBefore (stage : NumberStage) (next : Option Char) : Bool :=
  stage.complete && !(stage == .zero && next.any isDigit)

/-- Completes a number that the next character, or the end of the text, does not continue. A
number whose spelling is unfinished is a fault: in a kept value the end of the text is then what
is wrong. -/
def settle (keep : Bool) (s : State) (next : Option Char) : Except Fault State :=
  match s.phase with
  | .number stage n =>
    match next.bind (numberStep stage n) with
    | some _ => .ok s
    | none =>
      if stage.endsBefore next then
        (numberValue keep n).map fun v => complete v s.around
      else if keep && next.isNone then .error .ended
      else .error .malformed
  | _ => .ok s

/-- Reads one character in a settled state. -/
def advance (keep : Bool) (s : State) (c : Char) : Except Fault State :=
  match s.phase with
  | .text out quote => do
    match ← quoteStep keep out quote c with
    | some (out, quote) => return ⟨.text out quote, s.around⟩
    | none => return complete (.str (String.ofList out.reverse)) s.around
  | .name members out quote => do
    match ← quoteStep keep out quote c with
    | some (out, quote) => return ⟨.name members out quote, s.around⟩
    | none => return ⟨.colon members (String.ofList out.reverse), s.around⟩
  | .word left v =>
    match left with
    | [] => .error .malformed
    | d :: left =>
      if c ≠ d then .error .malformed
      else if left.isEmpty then .ok (complete v s.around)
      else .ok ⟨.word left v, s.around⟩
  | .number stage n =>
    match numberStep stage n c with
    | some (stage, n) => .ok ⟨.number stage n, s.around⟩
    | none => .error .malformed
  | phase =>
    if isSpace c then .ok s
    else
      match phase with
      | .value => startValue keep s.around c
      | .firstItem =>
        if c = ']' then .ok (complete (.arr []) s.around)
        else startValue keep (.array [] :: s.around) c
      | .afterItem items =>
        if c = ',' then .ok ⟨.value, .array items :: s.around⟩
        else if c = ']' then .ok (complete (.arr items.reverse) s.around)
        else .error .malformed
      | .firstName =>
        if c = '"' then .ok ⟨.name [] [] .plain, s.around⟩
        else if c = '\x7d' then .ok (complete (.obj []) s.around)
        else .error .malformed
      | .nextName members =>
        if c = '"' then .ok ⟨.name members [] .plain, s.around⟩ else .error .malformed
      | .colon members name =>
        if c = ':' then .ok ⟨.value, .object members name :: s.around⟩ else .error .malformed
      | .afterMember members =>
        if c = ',' then .ok ⟨.nextName members, s.around⟩
        else if c = '\x7d' then .ok (complete (.obj members.reverse) s.around)
        else .error .malformed
      | _ => .error .malformed

/-- Reads one character. -/
def step (keep : Bool) (s : State) (c : Char) : Except Fault State := do
  advance keep (← settle keep s (some c)) c

/-- The value when the text ends in a settled state. -/
def result (s : State) : Except Fault Json :=
  match s.phase, s.around with
  | .done v, [] => .ok v
  | _, _ => .error .ended

/-- The value when the text ends. -/
def finish (keep : Bool) (s : State) : Except Fault Json := do
  result (← settle keep s none)

end Reader

/-- The value of a JSON text, as the text spells it. -/
def Json.parse (text : String) : Except Fault Json := do
  Reader.finish true (← text.toList.foldlM (Reader.step true) Reader.start)

end ArchDoc
