import ArchDoc.Path

/-!
# File systems

What a store needs of the system that keeps its files: a few calls that take paths in any spelling
and may fail. Making a directory with the directories above it is not a call of its own. It tries
the directory itself first, then the ones above it up to one that is there, and comes back.

Main definitions:

* `OsError`, `IoCause`: how a call fails.
* `FileSystem`: the calls.
* `FileSystem.makeDirectories`: a directory with the directories above it.
-/

namespace ArchDoc

/-! ## Errors -/

/-- The errors of the operating system that the operations meet. -/
inductive OsError where
  | notPermitted
  | notFound
  | busy
  | alreadyExists
  | notDirectory
  | isDirectory
  | noSpace
  | nameTooLong
  | tooManyLinks
  deriving DecidableEq

/-- The number of an error. -/
def OsError.number : OsError → Nat
  | notPermitted => 1
  | notFound => 2
  | busy => 16
  | alreadyExists => 17
  | notDirectory => 20
  | isDirectory => 21
  | noSpace => 28
  | nameTooLong => 36
  | tooManyLinks => 40

/-- The text of an error. -/
def OsError.text : OsError → String
  | notPermitted => "Operation not permitted"
  | notFound => "No such file or directory"
  | busy => "Device or resource busy"
  | alreadyExists => "File exists"
  | notDirectory => "Not a directory"
  | isDirectory => "Is a directory"
  | noSpace => "No space left on device"
  | nameTooLong => "File name too long"
  | tooManyLinks => "Too many levels of symbolic links"

/-- How an operation fails: by an error of the operating system, because its path holds a NUL
character, because a file is not text in UTF-8, or because it was made to fail. -/
inductive IoCause where
  | os (error : OsError)
  | nulInPath
  | notUtf8
  | injected
  deriving DecidableEq

/-- The wording of a failure. -/
def IoCause.message : IoCause → String
  | os error => error.text ++ " (os error " ++ toString error.number ++ ")"
  | nulInPath => "file name contained an unexpected NUL byte"
  | notUtf8 => "stream did not contain valid UTF-8"
  | injected => "injected"

/-! ## Calls -/

/-- A system that keeps files. Creating a file may fail when the file is there already, so it gives
the system back in any case; the other calls change nothing when they fail. -/
class FileSystem (σ : Type) where
  readText : σ → (path : String) → Except IoCause String
  isDirectory : σ → (path : String) → Bool
  makeDirectory : σ → (path : String) → Except IoCause σ
  createFile : σ → (path : String) → (content : ByteArray) → σ × Except IoCause Unit
  rename : σ → (source target : String) → Except IoCause σ
  removeFile : σ → (path : String) → Except IoCause σ

namespace FileSystem

variable {σ : Type} [FileSystem σ]

/-! ## Directories on the way -/

/-- Makes a directory unless there is one. -/
def ensureDirectory (system : σ) (path : String) : σ × Except IoCause Unit :=
  match makeDirectory system path with
  | .ok made => (made, .ok ())
  | .error cause =>
    if cause = .os .alreadyExists ∧ isDirectory system path then (system, .ok ())
    else (system, .error cause)

/-- Makes directories one after the other, up to the first failure. -/
def ensureAll (system : σ) : List String → σ × Except IoCause Unit
  | [] => (system, .ok ())
  | path :: paths =>
    match ensureDirectory system path with
    | (made, .ok ()) => ensureAll made paths
    | failure => failure

/-- A path and the paths above it, as far as they are neither the root nor empty, the path itself
first. The number of parts of a path bounds how many there are. -/
def ancestors : Nat → String → List String
  | 0, _ => []
  | bound + 1, path =>
    match Path.parent? path with
    | none => []
    | some parent => path :: ancestors bound parent

/-- The paths that have to be made for a path to be a directory, the path itself first, and how
the attempt to make the last of them fails, if it does. -/
def missing (system : σ) : List String → List String × σ × Except IoCause Unit
  | [] => ([], system, .ok ())
  | path :: above =>
    match ensureDirectory system path with
    | (_, .error (.os .notFound)) =>
      let (paths, outcome) := missing system above
      (path :: paths, outcome)
    | outcome => ([], outcome)

/-- Makes a directory and the directories above it as far as they are missing. Directories made
before a failure stay. -/
def makeDirectories (system : σ) (path : String) : σ × Except IoCause Unit :=
  match missing system (ancestors (Path.parts path).length path) with
  | (paths, made, .ok ()) => ensureAll made paths.reverse
  | (_, failure) => failure

end FileSystem

end ArchDoc
