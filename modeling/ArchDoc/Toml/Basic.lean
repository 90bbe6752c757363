/-!
# TOML documents

The tables of a TOML document and the rules by which its lines build them up. A table remembers
how it came to be, because that decides what may be added to it later: a table that a header or
a pair of braces has defined is closed to dotted keys, and one that only leads to another table
can still be defined by a header of its own.

Main definitions:

* `Toml`, `Toml.Origin`: values, and how a table came to be.
* `Toml.assign?`: a table with the value of a dotted key.
* `Toml.openTable?`, `Toml.openElement?`, `Toml.putTable?`, `Toml.putElement?`: what headers do.
-/

namespace ArchDoc

namespace Toml

/-- How a table came to be: by a header, on the way to the table of a header, on the way to a
dotted key, or in braces. -/
inductive Origin where
  | header
  | implied
  | dotted
  | inline
  deriving DecidableEq

end Toml

/-- A TOML value. Floats and dates are kept without their values. The elements of an array of
tables stand last first. -/
inductive Toml where
  | text (s : String)
  | integer (n : Int)
  | float
  | boolean (b : Bool)
  | date
  | array (items : List Toml)
  | table (origin : Toml.Origin) (members : List (String × Toml))
  | elements (tables : List Toml)

namespace Toml

/-- The members of a table. -/
abbrev Members := List (String × Toml)

/-- The value of a name. -/
def member? (name : String) (members : Members) : Option Toml :=
  (members.find? (·.1 == name)).map (·.2)

/-- The members with a value for a name, in the place of its value if it has one. -/
def setMember (name : String) (value : Toml) : Members → Members
  | [] => [(name, value)]
  | (other, old) :: rest =>
    if other = name then (name, value) :: rest else (other, old) :: setMember name value rest

/-! ## Dotted keys -/

/-- The members with a value for a key, whose last part is `last`. The tables on the way are made
when they are missing; they must be tables that dotted keys or longer headers have made, and the
last of them must come from a dotted key. A name must not have a value yet. -/
def assign? (last : String) (value : Toml) : List String → Members → Option Members
  | [], members =>
    if (member? last members).isSome then none else some (setMember last value members)
  | part :: path, members =>
    match member? part members with
    | none => do
      let inner ← assign? last value path []
      return setMember part (.table .dotted inner) members
    | some (.table origin inner) =>
      if origin = .dotted ∨ (origin = .implied ∧ !path.isEmpty) then do
        let inner ← assign? last value path inner
        return setMember part (.table origin inner) members
      else none
    | some (.elements (.table origin inner :: before)) =>
      if path.isEmpty then none
      else do
        let inner ← assign? last value path inner
        return setMember part (.elements (.table origin inner :: before)) members
    | some _ => none

/-! ## Headers -/

/-- Changes the table that a path leads to. The tables on the way are made when they are missing,
and an array of tables leads on to its last element. -/
def modify? (f : Members → Option Members) : List String → Members → Option Members
  | [], members => f members
  | part :: path, members =>
    match member? part members with
    | none => do
      let inner ← modify? f path []
      return setMember part (.table .implied inner) members
    | some (.table .inline _) => none
    | some (.table origin inner) => do
      let inner ← modify? f path inner
      return setMember part (.table origin inner) members
    | some (.elements (.table origin inner :: before)) => do
      let inner ← modify? f path inner
      return setMember part (.elements (.table origin inner :: before)) members
    | some _ => none

/-- The members of the table at a path, which must not be there yet or only be implied. -/
def openTable? (last : String) : List String → Members → Option Members
  | [], members =>
    match member? last members with
    | none => some []
    | some (.table .implied inner) => some inner
    | some _ => none
  | part :: path, members =>
    match member? part members with
    | none => openTable? last path []
    | some (.table .inline _) => none
    | some (.table _ inner) => openTable? last path inner
    | some (.elements (.table _ inner :: _)) => openTable? last path inner
    | some _ => none

/-- Puts the table of a header at a path. -/
def putTable? (last : String) (table : Members) (path : List String) (members : Members) :
    Option Members :=
  modify? (fun inner => some (setMember last (.table .header table) inner)) path members

/-- Makes an array of tables at a path unless there is one. -/
def openElement? (last : String) (path : List String) (members : Members) : Option Members :=
  modify? (fun inner =>
    match member? last inner with
    | none => some (setMember last (.elements []) inner)
    | some (.elements _) => some inner
    | some _ => none) path members

/-- Adds the table of a header to the array of tables at a path. -/
def putElement? (last : String) (table : Members) (path : List String) (members : Members) :
    Option Members :=
  modify? (fun inner =>
    match member? last inner with
    | some (.elements tables) =>
      some (setMember last (.elements (.table .header table :: tables)) inner)
    | none => some (setMember last (.elements [.table .header table]) inner)
    | some _ => none) path members

end Toml

end ArchDoc
