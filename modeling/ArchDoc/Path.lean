/-!
# Paths

A path is a text whose parts stand between slashes. Two spellings name the same path when their
components agree: repeated and trailing slashes do not count, nor does a single dot, except at
the beginning of a relative path. Two dots are a component of their own and are not resolved.

Main definitions:

* `Path.parts`: the texts between slashes.
* `Path.components`: what a path consists of.
* `Path.join`, `Path.parent?`: spelling paths from other paths.
-/

namespace ArchDoc.Path

/-- The blocks of characters between separators. -/
def splitChars (separator : Char) : List Char → List (List Char)
  | [] => [[]]
  | c :: cs =>
    if c = separator then [] :: splitChars separator cs
    else
      match splitChars separator cs with
      | [] => [[c]]
      | block :: blocks => (c :: block) :: blocks

/-- The texts between slashes, empty ones included. -/
def parts (path : String) : List String :=
  (splitChars '/' path.toList).map String.ofList

/-- Whether a path starts at the root. -/
def isAbsolute (path : String) : Bool :=
  path.toList.head? == some '/'

/-! ## Components -/

/-- What a path consists of. -/
inductive Component where
  | root
  | current
  | up
  | name (s : String)
  deriving DecidableEq

/-- The component of a part that is not empty. -/
def componentOf (part : String) : Component :=
  if part = "." then .current else if part = ".." then .up else .name part

/-- Whether a part counts anywhere in a path. -/
def counts (part : String) : Bool :=
  part != "" && part != "."

/-- The components of a path. -/
def components (path : String) : List Component :=
  match parts path with
  | [] => []
  | first :: rest =>
    let tail := (rest.filter counts).map componentOf
    if isAbsolute path then .root :: tail
    else if first = "" then tail
    else componentOf first :: tail

/-- Whether two spellings name the same path. -/
def same (a b : String) : Bool :=
  components a == components b

/-! ## Spelling paths -/

/-- A path below another one; an absolute path stands for itself. -/
def join (root path : String) : String :=
  if isAbsolute path then path
  else if root.isEmpty || root.toList.getLast? == some '/' then root ++ path
  else root ++ "/" ++ path

/-- Drops the parts at the end that do not count. The parts stand last first, and the first part
of a relative path counts unless it is empty. -/
def dropIdle : List String → List String
  | [] => []
  | [first] => if first = "" then [] else [first]
  | part :: rest => if counts part then part :: rest else dropIdle rest

/-- The path without its last component, in the spelling of the path; none when it has no
component that can be left out. -/
def parent? (path : String) : Option String :=
  match dropIdle (parts path).reverse with
  | [] => none
  | _ :: rest =>
    match dropIdle rest with
    | [] => some (if isAbsolute path then "/" else "")
    | kept => some ("/".intercalate kept.reverse)

end ArchDoc.Path
