/-!
# JSON values

A JSON value as a text spells it: the members of an object stand in the order of the text, and a
name may occur twice. Most users of a value want one member for each name, in one order, which
`canonical` provides.

Main definitions:

* `Numeral`: the spelling of a number.
* `Json`: a value. An integer within 64 bits is a number of its own; any other number is kept as
  its spelling.
* `canonical`: the value with the members of every object in ascending order of their names and
  the last of several members of one name.
* `member?`: the member of a name.
-/

namespace ArchDoc

/-- The spelling of a number: its sign, the digits before and after the point, and the sign and
the digits of the exponent. -/
structure Numeral where
  negative : Bool
  whole : List Char
  fraction : List Char
  exponent : Option (Bool × List Char)
  deriving BEq

/-- A JSON value. -/
inductive Json where
  | null
  | bool (b : Bool)
  | int (n : Int)
  | real (n : Numeral)
  | str (s : String)
  | arr (items : List Json)
  | obj (members : List (String × Json))
  deriving BEq, Inhabited

namespace Json

/-- The name of the type of a value. -/
def typeName : Json → String
  | null => "null"
  | bool _ => "boolean"
  | int _ => "number"
  | real _ => "number"
  | str _ => "string"
  | arr _ => "array"
  | obj _ => "object"

/-! ## Members in order -/

/-- Puts a member into members in ascending order of their names, in the place of the member of
that name if there is one. -/
def insertMember (name : String) (value : Json) : List (String × Json) → List (String × Json)
  | [] => [(name, value)]
  | (other, old) :: rest =>
    if name < other then (name, value) :: (other, old) :: rest
    else if name = other then (name, value) :: rest
    else (other, old) :: insertMember name value rest

/-- The members in ascending order of their names, each with the last value of its name. -/
def sortMembers (members : List (String × Json)) : List (String × Json) :=
  members.foldl (fun sorted m => insertMember m.1 m.2 sorted) []

mutual

/-- The value with the members of every object in order and one for each name. -/
def canonical : Json → Json
  | arr items => arr (canonicalItems items)
  | obj members => obj (sortMembers (canonicalMembers members))
  | null => null
  | bool b => bool b
  | int n => int n
  | real n => real n
  | str s => str s

/-- The items, each `canonical`. -/
def canonicalItems : List Json → List Json
  | [] => []
  | v :: rest => canonical v :: canonicalItems rest

/-- The members with their values `canonical`. -/
def canonicalMembers : List (String × Json) → List (String × Json)
  | [] => []
  | (name, v) :: rest => (name, canonical v) :: canonicalMembers rest

end

/-- The value of the first member of a name. -/
def member? (name : String) (members : List (String × Json)) : Option Json :=
  (members.find? (·.1 == name)).map (·.2)

/-- The value of the member of a name, if the value is an object that has one. -/
def get? (name : String) : Json → Option Json
  | obj members => member? name members
  | _ => none

/-- The text, if the value is one. -/
def str? : Json → Option String
  | str s => some s
  | _ => none

/-- The items, if the value is an array. -/
def arr? : Json → Option (List Json)
  | arr items => some items
  | _ => none

/-- A value or `null`. -/
def ofOption (f : α → Json) : Option α → Json
  | some a => f a
  | none => null

end Json

end ArchDoc
