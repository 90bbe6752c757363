import ArchDoc.Command.Request
import ArchDoc.Journal.Filter
import ArchDoc.Settings
import ArchDoc.Snapshot
import ArchDoc.Store.Directory

/-!
# Running a command

What a command does with the files that it finds: settings are loaded first, facts second, and
only then is anything printed or written.

Main definitions:

* `Outcome`: what a command leaves behind.
* `run`: the outcome of arguments.
* `Outcome.shown`: the entries of the journal that are shown.
-/

namespace ArchDoc.Command

open Journal Lifecycle Store

/-! ## Outcomes -/

/-- What a command leaves behind: its exit code, its output, the error that ended it, the files,
and the journal. -/
structure Outcome where
  exitCode : Nat
  output : String := ""
  error : Option String := none
  tree : FileTree
  journal : List Entry := []
  jsonLogs : Bool := false

/-- The exit code of a command that has done its work. -/
def success : Nat := 0

/-- The exit code of a command that an error ended. -/
def failure : Nat := 1

/-- The exit code when arguments are not used as they should, or there is nothing to print. -/
def nothingDone : Nat := 2

/-! ## Facts -/

/-- The error that facts cannot be loaded. -/
def factsError (path : String) : String :=
  "failed to load facts from " ++ path

/-- What is reported while the facts of a file are loaded. -/
def factsRemarks (tree : FileTree) (path : String) : List Entry :=
  match (tree.readText path).toOption.bind fun text => (Snapshot.valueOfText text).toOption with
  | none => []
  | some value =>
    Snapshot.remarks value ++
    match Snapshot.ofJson value with
    | .error _ => []
    | .ok (_, report) =>
      [⟨.info, .command, "facts loaded",
        [("rows", .number report.rowsLoaded), ("skipped", .number report.rowsSkipped),
          ("unknown_tables", .number report.unknownTables.length)]⟩]

/-! ## Cycles -/

/-- What the store reports while an action is carried out. -/
def actionRemarks (store : Directory) (path : String) : Action → List Entry
  | .createPlaceholder => store.writeRemarks path placeholderText
  | .write text => store.writeRemarks path text
  | .delete => store.deleteRemarks path
  | .unchanged => []

/-- What is reported of a cycle that has succeeded. -/
def cycleEntry (number : Nat) (action : Action) (source : Phase) (path : String) : Entry :=
  ⟨.info, .cycle, "regeneration cycle",
    [("cycle", .number number), ("action", .text action.label), ("from", .text source.name),
      ("to", .text (action.phaseAfter source).name), ("path", .text path)]⟩

/-- What is reported during a cycle. -/
def cycleRemarks (r : Regenerator Directory) (facts : Facts) : List Entry :=
  match r.store.read r.config.path with
  | .error _ => []
  | .ok current =>
    let source := Regenerator.phaseFrom r.phase current
    let action := r.choose facts source current
    (if !source.isTerminal && consults current then Synthesis.remarks facts r.synthesis else []) ++
    actionRemarks r.store r.config.path action ++
    match (r.cycle facts).2 with
    | .error _ => []
    | .ok _ => [cycleEntry (r.cycles + 1) action source r.config.path]

/-- What is reported during cycles up to the first one that changes nothing, when so many are
left of a bound. -/
def untilStableRemarks (facts : Facts) (bound : Nat) : Nat → Regenerator Directory → List Entry
  | 0, _ =>
    [⟨.warn, .cycle, "document did not settle within the cycle bound",
      [("max_cycles", .number bound)]⟩]
  | left + 1, r =>
    cycleRemarks r facts ++
    match r.cycle facts with
    | (next, .ok action) =>
      if action.changesStore then untilStableRemarks facts bound left next else []
    | (_, .error _) => []

/-! ## The commands -/

/-- The error that a document cannot be regenerated. -/
def regenerationError : String := "regeneration failed"

/-- Keeps the document in step with facts. -/
def generate (tree : FileTree) (settings : Settings) (facts : Facts) (options : Options) :
    Outcome :=
  let config : Lifecycle.Config :=
    { path := options.output.getD settings.regeneration.path
      maxCycles := options.maxCycles.getD settings.regeneration.maxCycles }
  let store : Directory := ⟨options.root.getD ".", tree⟩
  let r := Regenerator.fresh store config settings.synthesis
  let bound := config.maxCycles.toNat
  let journal := untilStableRemarks facts bound bound r
  match Regenerator.untilStable facts bound r with
  | (r, .error _) =>
    { exitCode := failure
      error := some regenerationError
      tree := r.store.tree
      journal := journal }
  | (r, .ok actions) =>
    let wrote := actions.any fun
      | .write _ => true
      | _ => false
    { exitCode := success
      tree := r.store.tree
      journal := journal ++
        [⟨.info, .command, "generation finished",
          [("cycles", .number r.cycles), ("wrote", .flag wrote),
            ("deleted", .flag (actions.contains .delete))]⟩] }

/-- Prints the document of facts. -/
def render (tree : FileTree) (settings : Settings) (facts : Facts) : Outcome :=
  let journal := Synthesis.remarks facts settings.synthesis
  match Synthesis.synthesizeText facts settings.synthesis with
  | none =>
    { exitCode := nothingDone
      tree := tree
      journal := journal ++
        [⟨.warn, .command, "no architectural facts, nothing to render", []⟩] }
  | some text =>
    { exitCode := success
      output := text ++ "\n"
      tree := tree
      journal := journal }

/-- Runs a command for a file of facts. -/
def runVerb (tree : FileTree) (verb : Verb) (factsPath : String) (options : Options) : Outcome :=
  match Settings.load tree options.config with
  | .error e => { exitCode := failure, error := some e.message, tree := tree }
  | .ok settings =>
    let remarks := factsRemarks tree factsPath
    match Snapshot.load tree factsPath with
    | .error _ =>
      { exitCode := failure
        error := some (factsError factsPath)
        tree := tree
        journal := remarks }
    | .ok (facts, _) =>
      let outcome :=
        match verb with
        | .generate => generate tree settings facts options
        | .render => render tree settings facts
      { outcome with journal := remarks ++ outcome.journal }

/-- The outcome of arguments. -/
def run (tree : FileTree) (arguments : List String) : Outcome :=
  match Request.ofArguments? arguments with
  | none => { exitCode := nothingDone, tree := tree }
  | some .version => { exitCode := success, output := versionText ++ "\n", tree := tree }
  | some (.run verb facts options) =>
    { runVerb tree verb facts options with jsonLogs := options.jsonLogs }

/-- The paths that a command may read or write: the files of settings and facts, and the document
with its temporary file. The settings say where the document is. -/
def pathsOf (tree : FileTree) : Request → List String
  | .version => []
  | .run verb facts options =>
    let inputs := facts :: options.config.toList
    match verb, Settings.load tree options.config with
    | .generate, .ok settings =>
      let file :=
        Path.join (options.root.getD ".") (options.output.getD settings.regeneration.path)
      inputs ++ [file, Rooted.temporary file]
    | _, _ => inputs

/-- The entries that a filter shows. -/
def Outcome.shown (outcome : Outcome) (filter : Filter) : List Entry :=
  outcome.journal.filter filter.shows

end ArchDoc.Command
