import ArchDoc.Proofs.FileTrees
import Mathlib.Algebra.Order.BigOperators.Group.List
import Mathlib.Algebra.Order.Ring.Nat

/-!
# Volumes

A file system with what a file tree leaves out. A file may have several names, a name may be a
symbolic link, and any call may be refused at any place, for want of permission, by an attribute or
because there is no room; what is written to a file may also end early. There are no special files.

A path is followed through symbolic links to directories, up to a number of links. Some calls are
about what the last name of a path stands for (`approach`), others about what a link of that name
leads to (`arrive`).

Main definitions:

* `Volume.Node`, `Volume`: what a name stands for, and what exists.
* `Volume.resolve`, `Volume.approach`, `Volume.arrive`: paths in a volume.
* `FileSystem Volume`: the calls.
* `Volume.seen`, `Volume.Twin`: what is at a location, and two names of one file.

Results:

* `lookup_put`, `lookup_erase`: what a name stands for after a change.
* `fresh_ne`: a new file has a number of its own.
-/

namespace ArchDoc

open FileTree (Last maxName start named refused)

/-! ## What exists -/

/-- What a name stands for: a directory, a file of a number, or a symbolic link to a path. -/
inductive Volume.Node where
  | directory
  | file (number : Nat)
  | link (target : String)
  deriving DecidableEq

/-- The number of a file; anything else counts as zero. -/
def Volume.Node.number : Volume.Node → Nat
  | file number => number
  | directory | link _ => 0

/-- What a volume can refuse. -/
inductive Volume.Call where
  | enter (location : Location)
  | read (location : Location)
  | makeDirectory (location : Location)
  | create (location : Location)
  | rename (source target : Location)
  | remove (location : Location)

/-- What exists besides the root: the names, the contents of the files by their numbers, and the
working directory. The volume refuses some calls, and of what is written to some places it keeps
only so many bytes. -/
structure Volume where
  nodes : List (Location × Volume.Node)
  contents : Nat → ByteArray
  here : Location
  refusal : Volume.Call → Option OsError
  torn : Location → Option (Nat × OsError)

namespace Volume

/-- What is at a location. -/
def lookup (v : Volume) (location : Location) : Option Node :=
  if location.isEmpty then some .directory
  else (v.nodes.find? (·.1 == location)).map (·.2)

/-- The volume without a name. -/
def erase (v : Volume) (location : Location) : Volume :=
  { v with nodes := v.nodes.filter (·.1 != location) }

/-- The volume with a name, in the place of what was there. -/
def put (v : Volume) (location : Location) (node : Node) : Volume :=
  { v with nodes := (v.erase location).nodes ++ [(location, node)] }

/-- The volume with a content of a file. -/
def fill (v : Volume) (number : Nat) (content : ByteArray) : Volume :=
  { v with contents := Function.update v.contents number content }

/-- A number that no file has. -/
def fresh (v : Volume) : Nat :=
  (v.nodes.map (·.2.number)).sum + 1

/-! ## Paths in a volume -/

/-- Whether a slash stands behind the last name of a path. -/
def endsInSlash (path : String) : Bool :=
  (Path.parts path).getLast? == some ""

/-- The target of the symbolic link at a location, if one is there. -/
def link? (v : Volume) (location : Location) : Option String :=
  match v.lookup location with
  | some (.link target) => some target
  | _ => none

/-- What a part of a path says to do: to go on from a location, to follow a symbolic link, to stop
before the name that it is, or to give up. -/
inductive Turn where
  | on (location : Location)
  | along (target : String)
  | arrived
  | lost (error : OsError)

/-- What a name says in a directory. A link in the last place is followed on demand. -/
def turnAt (v : Volume) (followLast : Bool) (location : Location) (name : String) (isLast : Bool) :
    Turn :=
  if isLast then
    match if followLast then v.link? (location ++ [name]) else none with
    | some target => .along target
    | none => .arrived
  else
    match v.lookup (location ++ [name]) with
    | none => .lost .notFound
    | some (.file _) => .lost .notDirectory
    | some (.link target) => .along target
    | some .directory =>
      match v.refusal (.enter (location ++ [name])) with
      | some e => .lost e
      | none => .on (location ++ [name])

/-- What a part of a path says in a directory. -/
def turn (v : Volume) (followLast : Bool) (location : Location) (part : String) (isLast : Bool) :
    Turn :=
  if part = "." then .on location
  else if part = ".." then .on location.dropLast
  else if maxName < part.utf8ByteSize then .lost .nameTooLong
  else v.turnAt followLast location part isLast

/-- Follows the parts of a path from a location, and goes on by `jump` where a symbolic link
leads. -/
def resolveFrom (v : Volume) (followLast : Bool)
    (jump : Location → List String → Bool → Except OsError (Location × Last)) :
    Location → List String → Bool → Except OsError (Location × Last)
  | location, [], _ => .ok (location, .known location)
  | location, part :: rest, slash =>
    match v.turn followLast location part rest.isEmpty with
    | .on next => v.resolveFrom followLast jump next rest slash
    | .along target =>
      jump (start location target) (named target ++ rest)
        (slash || (rest.isEmpty && endsInSlash target))
    | .arrived => .ok (location, .name part slash)
    | .lost e => .error e

/-- Follows the parts of a path through so many symbolic links at most. -/
def resolve (v : Volume) (followLast : Bool) :
    Nat → Location → List String → Bool → Except OsError (Location × Last)
  | 0 => v.resolveFrom followLast fun _ _ _ => .error .tooManyLinks
  | links + 1 => v.resolveFrom followLast (v.resolve followLast links)

/-- The greatest number of symbolic links on the way of a path. -/
def maxLinks : Nat := 40

/-- The directory in which the last part of a path lies, and that part. -/
def locate (v : Volume) (followLast : Bool) (path : String) : Except IoCause (Location × Last) :=
  match refused path with
  | some cause => .error cause
  | none =>
    (v.resolve followLast maxLinks (start v.here path) (named path) (endsInSlash path)).mapError
      .os

/-- Where a path leads, up to its last name. -/
def approach (v : Volume) (path : String) : Except IoCause (Location × Last) :=
  v.locate false path

/-- Where a path leads when a link at its end is followed, too. -/
def arrive (v : Volume) (path : String) : Except IoCause (Location × Last) :=
  v.locate true path

/-! ## Calls -/

/-- The volume with a content written to a file that has a name at a location. -/
def write (v : Volume) (location : Location) (number : Nat) (content : ByteArray) :
    Volume × Except IoCause Unit :=
  match v.torn location with
  | none => (v.fill number content, .ok ())
  | some (size, e) => (v.fill number (content.extract 0 size), .error (.os e))

/-- Does something, unless the volume refuses it. -/
def unlessRefused {α : Type} (v : Volume) (call : Call) (a : α) : Except IoCause α :=
  match v.refusal call with
  | some e => .error (.os e)
  | none => .ok a

/-- The content of a file. -/
def readFile (v : Volume) (path : String) : Except IoCause ByteArray := do
  match ← v.arrive path with
  | (_, .known _) => .error (.os .isDirectory)
  | (location, .name name slash) =>
    match v.lookup (location ++ [name]) with
    | none => .error (.os .notFound)
    | some .directory => .error (.os .isDirectory)
    | some (.link _) => .error (.os .tooManyLinks)
    | some (.file number) =>
      if slash then .error (.os .notDirectory)
      else v.unlessRefused (.read (location ++ [name])) (v.contents number)

/-- The text in a file. -/
def readText (v : Volume) (path : String) : Except IoCause String := do
  match String.fromUTF8? (← v.readFile path) with
  | some text => return text
  | none => .error .notUtf8

/-- Whether a path leads to a directory. -/
def isDirectory (v : Volume) (path : String) : Bool :=
  match v.arrive path with
  | .error _ => false
  | .ok (_, .known _) => true
  | .ok (location, .name name _) => v.lookup (location ++ [name]) == some .directory

/-- The volume with a new directory. -/
def makeDirectory (v : Volume) (path : String) : Except IoCause Volume := do
  match ← v.approach path with
  | (_, .known _) => .error (.os .alreadyExists)
  | (location, .name name _) =>
    match v.lookup (location ++ [name]) with
    | some _ => .error (.os .alreadyExists)
    | none =>
      v.unlessRefused (.makeDirectory (location ++ [name])) (v.put (location ++ [name]) .directory)

/-- Creates a file at a location, or empties the one that is there, and writes to it. -/
def createAt (v : Volume) (location : Location) (content : ByteArray) :
    Volume × Except IoCause Unit :=
  match v.lookup location, v.refusal (.create location) with
  | some .directory, _ => (v, .error (.os .isDirectory))
  | some (.link _), _ => (v, .error (.os .tooManyLinks))
  | _, some e => (v, .error (.os e))
  | some (.file number), none => v.write location number content
  | none, none => (v.put location (.file v.fresh)).write location v.fresh content

/-- Creates a file, or empties the one that is there, and writes to it. -/
def createFile (v : Volume) (path : String) (content : ByteArray) :
    Volume × Except IoCause Unit :=
  match v.arrive path with
  | .error cause => (v, .error cause)
  | .ok (_, .known _) => (v, .error (.os .isDirectory))
  | .ok (location, .name name slash) =>
    if slash then (v, .error (.os .isDirectory))
    else v.createAt (location ++ [name]) content

/-- Whether two names stand for one file. -/
def sameFile (v : Volume) (a b : Location) : Bool :=
  a == b ||
    match v.lookup a, v.lookup b with
    | some (.file m), some (.file n) => m == n
    | _, _ => false

/-- The volume with a file or a link moved to another location, where it takes the place of a file
or a link. Nothing happens when the two names stand for one file. -/
def renameAt (v : Volume) (source target : Location) (slash : Bool) : Except IoCause Volume :=
  match v.lookup source with
  | none | some .directory => .error (.os .notFound)
  | some node =>
    if slash then .error (.os .notDirectory)
    else if v.lookup target = some .directory then .error (.os .isDirectory)
    else if v.sameFile source target then .ok v
    else v.unlessRefused (.rename source target) ((v.erase source).put target node)

/-- The volume with a file or a link moved to another path. -/
def rename (v : Volume) (source target : String) : Except IoCause Volume := do
  let (sourceParent, sourceLast) ← v.approach source
  let (targetParent, targetLast) ← v.approach target
  match sourceLast, targetLast with
  | .name sourceName _, .name targetName slash =>
    v.renameAt (sourceParent ++ [sourceName]) (targetParent ++ [targetName]) slash
  | _, _ => .error (.os .busy)

/-- The volume without the name of a file or of a link. -/
def removeFile (v : Volume) (path : String) : Except IoCause Volume := do
  match ← v.approach path with
  | (_, .known _) => .error (.os .isDirectory)
  | (location, .name name slash) =>
    match v.lookup (location ++ [name]) with
    | none => .error (.os .notFound)
    | some .directory => .error (.os .isDirectory)
    | some _ =>
      if slash then .error (.os .notDirectory)
      else v.unlessRefused (.remove (location ++ [name])) (v.erase (location ++ [name]))

instance : FileSystem Volume where
  readText := readText
  isDirectory := isDirectory
  makeDirectory := makeDirectory
  createFile := createFile
  rename := rename
  removeFile := removeFile

/-! ## What is seen of a volume -/

/-- What is seen at a location. The numbers of files are not. -/
inductive Seen where
  | directory
  | file (content : ByteArray)
  | link (target : String)

/-- What is seen of a name. -/
def look (v : Volume) : Node → Seen
  | .directory => .directory
  | .file number => .file (v.contents number)
  | .link target => .link target

/-- What is seen at a location. -/
def seen (v : Volume) (location : Location) : Option Seen :=
  (v.lookup location).map v.look

/-- Two names of one file. -/
def Twin (v : Volume) (a b : Location) : Prop :=
  a ≠ b ∧ ∃ number, v.lookup a = some (.file number) ∧ v.lookup b = some (.file number)

/-! ## Lemmas on names, numbers and calls -/

variable {v v' : Volume} {location l : Location}

theorem lookup_erase (h : location ≠ []) (l : Location) :
    (v.erase location).lookup l = if l = location then none else v.lookup l := by
  unfold lookup erase
  rw [FileTree.find?_without]
  split_ifs with hempty hl
  · exact absurd (hl.symm.trans (List.isEmpty_iff.mp hempty)) h
  · rfl
  · rfl
  · rfl

theorem lookup_put (h : location ≠ []) (node : Node) (l : Location) :
    (v.put location node).lookup l = if l = location then some node else v.lookup l := by
  unfold lookup put erase
  rw [FileTree.find?_with]
  split_ifs with hempty hl
  · exact absurd (hl.symm.trans (List.isEmpty_iff.mp hempty)) h
  · rfl
  · rfl
  · rfl

theorem link?_eq_some_iff {target : String} :
    v.link? l = some target ↔ v.lookup l = some (.link target) := by
  unfold link?
  cases v.lookup l with
  | none => simp
  | some node => cases node <;> simp

theorem contents_fill (v : Volume) (number : Nat) (content : ByteArray) :
    (v.fill number content).contents number = content :=
  Function.update_self ..

theorem contents_fill_of_ne {number n : Nat} (h : n ≠ number) (content : ByteArray) :
    (v.fill number content).contents n = v.contents n :=
  Function.update_of_ne h _ _

theorem eq_ok_of_unlessRefused {α : Type} {call : Call} {a b : α}
    (h : v.unlessRefused call a = .ok b) : a = b := by
  unfold unlessRefused at h
  split at h
  · exact nomatch h
  · exact Except.ok.inj h

/-- A number that is not in use is no number of a file. -/
theorem fresh_ne {number : Nat} (h : v.lookup l = some (.file number)) : number ≠ v.fresh := by
  unfold lookup at h
  split_ifs at h with hroot
  · exact nomatch h
  obtain ⟨entry, hfind, hnode⟩ := Option.map_eq_some_iff.mp h
  have hmem : number ∈ v.nodes.map (·.2.number) :=
    List.mem_map.mpr ⟨entry, List.mem_of_find?_eq_some hfind, by rw [hnode]; rfl⟩
  have hle : number ≤ (v.nodes.map (·.2.number)).sum := List.le_sum_of_mem hmem
  exact Nat.ne_of_lt (Nat.lt_succ_of_le hle)

end Volume

end ArchDoc
