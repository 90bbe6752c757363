import ArchDoc.Command.Run
import ArchDoc.Json.Writer

/-!
# The program

The outer layer of the command: it reads the files that a command may touch into a file tree,
runs the command on the tree, and carries the changes out.
-/

namespace ArchDoc.Main

open Command Journal

/-- The path of a location. -/
def pathOf (location : Location) : String :=
  "/" ++ "/".intercalate location

/-- What is at a path; what cannot be read is taken to be absent. -/
def readEntry (path : String) : IO (Option FileEntry) := do
  try
    return some (.file (← IO.FS.readBinFile path))
  catch e =>
    match e with
    | .inappropriateType _ code _ =>
      return if code.toNat = OsError.isDirectory.number then some .directory else none
    | _ => return none

/-- Reads what is at the locations that paths pass. -/
def readPaths (tree : FileTree) (paths : List String) : IO FileTree := do
  let mut tree := tree
  for path in paths do
    for location in FileTree.locationsOf tree.here path do
      match ← readEntry (pathOf location) with
      | some entry => tree := tree.put location entry
      | none => pure ()
  return tree

/-- The tree of the working directory alone. -/
def workingTree : IO FileTree := do
  let here := (Path.parts (toString (← IO.currentDir))).filter Path.counts
  return ⟨(FileTree.waysTo here).map fun way => (way, .directory), here⟩

/-- Carries out what has changed from one tree to another. -/
def carryOut (before after : FileTree) : IO Unit := do
  for (location, entry) in after.difference before do
    let path := pathOf location
    match entry with
    | .directory => IO.FS.createDirAll path
    | .file content =>
      let temporary := Store.Rooted.temporary path
      IO.FS.writeBinFile temporary content
      IO.FS.rename temporary path
  for location in before.missingIn after do
    IO.FS.removeFile (pathOf location)

/-- An entry of the journal on a line. -/
def entryLine (json : Bool) (entry : Entry) : String :=
  if json then entry.toJson.compact
  else
    entry.level.name ++ " " ++ entry.topic.address ++ ": " ++ entry.message ++
      String.join (entry.fields.map fun f => " " ++ f.1 ++ "=" ++ f.2.toJson.compact)

/-- How the command is used. -/
def usage : String :=
  "usage: calm [--json-logs] (generate | render) --facts FILE [OPTION VALUE]..."

/-- Runs the command in the working directory. The settings say where the document is, so paths
are read twice: those of the settings and the facts first, then all of them. -/
def runHere (arguments : List String) : IO UInt32 := do
  let mut tree ← workingTree
  match Request.ofArguments? arguments with
  | none => IO.eprintln usage
  | some request =>
    tree ← readPaths tree (pathsOf tree request)
    tree ← readPaths tree (pathsOf tree request)
  let outcome := run tree arguments
  for entry in outcome.shown (.ofSetting (← IO.getEnv "CALM_LOG")) do
    IO.eprintln (entryLine outcome.jsonLogs entry)
  carryOut tree outcome.tree
  IO.print outcome.output
  if let some message := outcome.error then
    IO.eprintln ("Error: " ++ message)
  return outcome.exitCode.toUInt32

end ArchDoc.Main

/-- The command. -/
def main (arguments : List String) : IO UInt32 :=
  ArchDoc.Main.runHere arguments
