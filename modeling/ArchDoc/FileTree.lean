import ArchDoc.FileSystem

/-!
# File trees

Directories and files, and the calls of a file system on them. They fail with the errors of a POSIX
system. A path that is not absolute starts at the working directory.

A tree holds plain directories, and regular files that have one name each. There are no links, no
permissions and no attributes, and no device ever fills up: a call only fails because of what its
path says and of what is there.

Main definitions:

* `FileTree`: what exists, and the working directory.
* `FileTree.readFile`, `makeDirectory`, `createFile`, `rename`, `removeFile`: the calls.
* `FileTree.listing`: what exists below the working directory.
-/

namespace ArchDoc

/-! ## Trees -/

/-- Where something is: the names from the root to it. -/
abbrev Location := List String

/-- What is somewhere. -/
inductive FileEntry where
  | directory
  | file (content : ByteArray)

/-- Entries are equal if they are both directories, or files of the same bytes. -/
instance : DecidableEq FileEntry
  | .directory, .directory => isTrue rfl
  | .directory, .file _ => isFalse nofun
  | .file _, .directory => isFalse nofun
  | .file a, .file b =>
    decidable_of_iff (a.data = b.data) (by rw [FileEntry.file.injEq, ByteArray.ext_iff])

/-- What exists besides the root, and the working directory. -/
structure FileTree where
  entries : List (Location × FileEntry)
  here : Location

namespace FileTree

/-- What is at a location. -/
def lookup (tree : FileTree) (location : Location) : Option FileEntry :=
  if location.isEmpty then some .directory
  else (tree.entries.find? (·.1 == location)).map (·.2)

/-- The tree without what is at a location. -/
def erase (tree : FileTree) (location : Location) : FileTree :=
  { tree with entries := tree.entries.filter (·.1 != location) }

/-- The tree with something at a location, in the place of what was there. -/
def put (tree : FileTree) (location : Location) (entry : FileEntry) : FileTree :=
  { tree with entries := (tree.erase location).entries ++ [(location, entry)] }

/-- A tree with an empty working directory. -/
def empty : FileTree :=
  ⟨[(["work"], .directory)], ["work"]⟩

/-! ## Paths in a tree -/

/-- The greatest length of a name in bytes. -/
def maxName : Nat := 255

/-- The greatest length of a path in bytes. -/
def maxPath : Nat := 4095

/-- What the last part of a path says: a name, perhaps with a slash behind it, or a directory that
is known without a name, such as the root. -/
inductive Last where
  | name (name : String) (slash : Bool)
  | known (location : Location)

/-- Follows the parts of a path that lead to its last part. -/
def follow (tree : FileTree) : Location → List String → Except OsError Location
  | location, [] => .ok location
  | location, part :: rest =>
    if part = "." then tree.follow location rest
    else if part = ".." then tree.follow location.dropLast rest
    else if maxName < part.utf8ByteSize then .error .nameTooLong
    else
      match tree.lookup (location ++ [part]) with
      | none => .error .notFound
      | some (.file _) => .error .notDirectory
      | some .directory => tree.follow (location ++ [part]) rest

/-- The directory in which the last part of a path lies, and that part. -/
def approach (tree : FileTree) (path : String) : Except IoCause (Location × Last) :=
  let parts := Path.parts path
  let named := parts.filter (· != "")
  let first := if Path.isAbsolute path then [] else tree.here
  if path.toList.contains '\x00' then .error .nulInPath
  else if path.isEmpty then .error (.os .notFound)
  else if maxPath < path.utf8ByteSize then .error (.os .nameTooLong)
  else
    match tree.follow first named.dropLast, named.getLast? with
    | .error e, _ => .error (.os e)
    | .ok location, none => .ok (location, .known location)
    | .ok location, some part =>
      if part = "." then .ok (location, .known location)
      else if part = ".." then .ok (location, .known location.dropLast)
      else if maxName < part.utf8ByteSize then .error (.os .nameTooLong)
      else .ok (location, .name part (parts.getLast? == some ""))

/-- What a path names, if there is something; a slash behind a file is an error. -/
def status (tree : FileTree) (path : String) : Except IoCause (Option FileEntry) := do
  match ← tree.approach path with
  | (_, .known _) => return some .directory
  | (location, .name name slash) =>
    match tree.lookup (location ++ [name]) with
    | some (.file content) =>
      if slash then .error (.os .notDirectory) else return some (.file content)
    | entry => return entry

/-! ## Operations -/

/-- The content of a file. -/
def readFile (tree : FileTree) (path : String) : Except IoCause ByteArray := do
  match ← tree.status path with
  | none => .error (.os .notFound)
  | some .directory => .error (.os .isDirectory)
  | some (.file content) => return content

/-- The text in a file. -/
def readText (tree : FileTree) (path : String) : Except IoCause String := do
  match String.fromUTF8? (← tree.readFile path) with
  | some text => return text
  | none => .error .notUtf8

/-- Whether a path names a directory. -/
def isDirectory (tree : FileTree) (path : String) : Bool :=
  match tree.status path with
  | .ok (some .directory) => true
  | _ => false

/-- The tree with a new directory. -/
def makeDirectory (tree : FileTree) (path : String) : Except IoCause FileTree := do
  match ← tree.approach path with
  | (_, .known _) => .error (.os .alreadyExists)
  | (location, .name name _) =>
    match tree.lookup (location ++ [name]) with
    | some _ => .error (.os .alreadyExists)
    | none => return tree.put (location ++ [name]) .directory

/-- The tree with a file of some content, which is new or takes the place of a file. -/
def createFile (tree : FileTree) (path : String) (content : ByteArray) :
    Except IoCause FileTree := do
  match ← tree.approach path with
  | (_, .known _) => .error (.os .isDirectory)
  | (location, .name name slash) =>
    if slash then .error (.os .isDirectory)
    else
      match tree.lookup (location ++ [name]) with
      | some .directory => .error (.os .isDirectory)
      | _ => return tree.put (location ++ [name]) (.file content)

/-- The tree with a file moved to another path, where it takes the place of a file. -/
def rename (tree : FileTree) (source target : String) : Except IoCause FileTree := do
  let (sourceParent, sourceLast) ← tree.approach source
  let (targetParent, targetLast) ← tree.approach target
  match sourceLast, targetLast with
  | .name sourceName _, .name targetName slash =>
    match tree.lookup (sourceParent ++ [sourceName]) with
    | some (.file content) =>
      if slash then .error (.os .notDirectory)
      else
        match tree.lookup (targetParent ++ [targetName]) with
        | some .directory => .error (.os .isDirectory)
        | _ =>
          return (tree.erase (sourceParent ++ [sourceName])).put (targetParent ++ [targetName])
            (.file content)
    | _ => .error (.os .notFound)
  | _, _ => .error (.os .busy)

/-- The tree without a file. -/
def removeFile (tree : FileTree) (path : String) : Except IoCause FileTree := do
  match ← tree.approach path with
  | (_, .known _) => .error (.os .isDirectory)
  | (location, .name name slash) =>
    match tree.lookup (location ++ [name]) with
    | none => .error (.os .notFound)
    | some .directory => .error (.os .isDirectory)
    | some (.file _) =>
      if slash then .error (.os .notDirectory) else return tree.erase (location ++ [name])

instance : FileSystem FileTree where
  readText := readText
  isDirectory := isDirectory
  makeDirectory := makeDirectory
  createFile tree path content :=
    match tree.createFile path content with
    | .ok written => (written, .ok ())
    | .error cause => (tree, .error cause)
  rename := rename
  removeFile := removeFile

/-! ## Parts of a tree -/

/-- The locations that a path passes from a location on, its own among them. -/
def locationsFrom : Location → List String → List Location
  | _, [] => []
  | location, part :: rest =>
    let next :=
      if !Path.counts part then location
      else if part = ".." then location.dropLast
      else location ++ [part]
    next :: locationsFrom next rest

/-- The locations that a path passes, its own among them. -/
def locationsOf (here : Location) (path : String) : List Location :=
  locationsFrom (if Path.isAbsolute path then [] else here) (Path.parts path)

/-- What is in a tree but not, or not so, in another one. -/
def difference (tree other : FileTree) : List (Location × FileEntry) :=
  tree.entries.filter fun e => other.lookup e.1 != some e.2

/-- The locations where a tree has something and another one nothing. -/
def missingIn (tree other : FileTree) : List Location :=
  (tree.entries.map (·.1)).filter fun location => (other.lookup location).isNone

/-! ## Placing and listing -/

/-- The locations that lead to a location, the nearest to the root first, without the root. -/
def waysTo (location : Location) : List Location :=
  (List.range location.length).map fun n => location.take (n + 1)

/-- The names below the working directory that a path spells. -/
def locate (tree : FileTree) (path : String) : Location :=
  tree.here ++ (Path.parts path).filter Path.counts

/-- Puts something below the working directory, with the directories that lead to it. -/
def place (tree : FileTree) (path : String) (entry : FileEntry) : FileTree :=
  let location := tree.locate path
  let prepared := (waysTo location.dropLast).foldl (fun tree way =>
    if tree.lookup way = some .directory then tree else tree.put way .directory) tree
  if tree.lookup location = some .directory ∧ entry = .directory then tree
  else prepared.put location entry

/-- Removes what is at a path below the working directory, with all that is below it. -/
def removeTree (tree : FileTree) (path : String) : FileTree :=
  let location := tree.locate path
  { tree with entries := tree.entries.filter fun e => !location.isPrefixOf e.1 }

/-- What exists below the working directory, by path in ascending order. -/
def listing (tree : FileTree) : List (String × FileEntry) :=
  let below := tree.entries.filterMap fun e =>
    if tree.here.isPrefixOf e.1 && tree.here.length < e.1.length then
      some ("/".intercalate (e.1.drop tree.here.length), e.2)
    else none
  below.mergeSort fun a b => a.1 ≤ b.1

end FileTree

end ArchDoc
