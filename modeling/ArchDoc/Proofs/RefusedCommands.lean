import ArchDoc.Command.Run
import ArchDoc.Proofs.DefectiveFiles

/-!
# Commands that are refused

A command first loads its settings, then its facts, and only then does it begin to work. So input
that cannot be loaded never costs a file: the command ends with an error and everything is as it was
before. The command that prints a document leaves everything as it was in any case.

The files are those of a file tree: plain directories, and regular files with one name each, without
links, permissions or attributes. Nothing is made here that would have to be removed again.

Main definitions:

* `Outcome.Refused`: a command ends with an error and has changed nothing.

Results:

* `runVerb_of_settings`, `runVerb_of_facts`, `runVerb_of_loaded`: how far a command comes.
* `run_refuses_defective_input`: which commands are refused, and that they change nothing.
-/

namespace ArchDoc.Command

variable {tree : FileTree} {verb : Verb} {factsPath : String} {options : Options}
  {arguments : List String}

/-- A command ends with an error, prints nothing and leaves everything as it was. -/
structure Outcome.Refused (outcome : Outcome) (tree : FileTree) (message : String) : Prop where
  exitCode : outcome.exitCode = failure
  error : outcome.error = some message
  output : outcome.output = ""
  tree : outcome.tree = tree

/-! ## How far a command comes -/

/-- Without settings a command asks for nothing else. -/
theorem runVerb_of_settings {e : Settings.Error}
    (h : Settings.load tree options.config = .error e) :
    runVerb tree verb factsPath options =
      { exitCode := failure, error := some e.message, tree := tree } := by
  unfold runVerb
  rw [h]

theorem runVerb_of_facts {settings : Settings} {e : Snapshot.LoadError}
    (hsettings : Settings.load tree options.config = .ok settings)
    (h : Snapshot.load tree factsPath = .error e) :
    runVerb tree verb factsPath options =
      { exitCode := failure
        error := some (factsError factsPath)
        tree := tree
        journal := factsRemarks tree factsPath } := by
  unfold runVerb
  rw [hsettings]
  dsimp only
  rw [h]

theorem runVerb_of_loaded {settings : Settings} {facts : Facts} {report : Snapshot.Report}
    (hsettings : Settings.load tree options.config = .ok settings)
    (h : Snapshot.load tree factsPath = .ok (facts, report)) :
    let worked :=
      match verb with
      | .generate => generate tree settings facts options
      | .render => render tree settings facts
    runVerb tree verb factsPath options =
      { worked with journal := factsRemarks tree factsPath ++ worked.journal } := by
  cases verb <;> simp only [runVerb, hsettings, h]

theorem run_of_request (h : Request.ofArguments? arguments = some (.run verb factsPath options)) :
    run tree arguments =
      { runVerb tree verb factsPath options with jsonLogs := options.jsonLogs } := by
  unfold run
  rw [h]

theorem error_generate (tree : FileTree) (settings : Settings) (facts : Facts)
    (options : Options) :
    (generate tree settings facts options).error = none ∨
      (generate tree settings facts options).error = some regenerationError := by
  unfold generate
  dsimp only
  split
  · exact .inr rfl
  · exact .inl rfl

theorem error_render (tree : FileTree) (settings : Settings) (facts : Facts) :
    (render tree settings facts).error = none := by
  unfold render
  dsimp only
  split <;> rfl

theorem tree_render (tree : FileTree) (settings : Settings) (facts : Facts) :
    (render tree settings facts).tree = tree := by
  unfold render
  dsimp only
  split <;> rfl

/-! ## Input that cannot be loaded -/

/-- What can be loaded has no defects. -/
theorem exists_settings (h : ∀ e, ¬ Settings.Defective tree options.config e) :
    ∃ settings, Settings.load tree options.config = .ok settings := by
  cases hload : Settings.load tree options.config with
  | error e => exact absurd (Settings.defective_iff.mpr hload) (h e)
  | ok settings => exact ⟨settings, rfl⟩

theorem exists_facts (h : ¬ Snapshot.Defective tree factsPath) :
    ∃ facts report, Snapshot.load tree factsPath = .ok (facts, report) := by
  cases hload : Snapshot.load tree factsPath with
  | error e => exact absurd (Snapshot.defective_iff.mpr ⟨e, hload⟩) h
  | ok loaded => exact ⟨loaded.1, loaded.2, rfl⟩

/-- The command that prints a document leaves everything as it was. -/
theorem tree_runVerb_render (tree : FileTree) (factsPath : String) (options : Options) :
    (runVerb tree .render factsPath options).tree = tree := by
  cases hsettings : Settings.load tree options.config with
  | error e => rw [runVerb_of_settings hsettings]
  | ok settings =>
    cases hfacts : Snapshot.load tree factsPath with
    | error e => rw [runVerb_of_facts hsettings hfacts]
    | ok loaded =>
      rw [runVerb_of_loaded hsettings hfacts]
      exact tree_render tree settings loaded.1

/-- **Main theorem.** For all files and all arguments that ask for one of the two commands: if the
settings cannot be loaded, in any of the ways in which they can be defective, the command is refused
with their error, whatever the facts are; if only the facts cannot be loaded, it is refused with
theirs; in both cases nothing has changed. Otherwise neither error is reported. And whatever
happens, the command that prints a document changes nothing. -/
theorem run_refuses_defective_input
    (h : Request.ofArguments? arguments = some (.run verb factsPath options)) :
    let outcome := run tree arguments
    (∀ e, Settings.Defective tree options.config e → outcome.Refused tree e.message) ∧
      ((∀ e, ¬ Settings.Defective tree options.config e) → Snapshot.Defective tree factsPath →
        outcome.Refused tree (factsError factsPath)) ∧
      ((∀ e, ¬ Settings.Defective tree options.config e) → ¬ Snapshot.Defective tree factsPath →
        outcome.error = none ∨ outcome.error = some regenerationError) ∧
      (verb = .render → outcome.tree = tree) := by
  intro outcome
  have houtcome : outcome =
      { runVerb tree verb factsPath options with jsonLogs := options.jsonLogs } :=
    run_of_request h
  rw [houtcome]
  refine ⟨?_, ?_, ?_, ?_⟩
  -- the facts do not matter here: without settings they are not read
  · intro e he
    rw [runVerb_of_settings (Settings.defective_iff.mp he)]
    exact ⟨rfl, rfl, rfl, rfl⟩
  · intro hsettings hfacts
    obtain ⟨settings, hsettings⟩ := exists_settings hsettings
    obtain ⟨e, hfacts⟩ := Snapshot.defective_iff.mp hfacts
    rw [runVerb_of_facts hsettings hfacts]
    exact ⟨rfl, rfl, rfl, rfl⟩
  · intro hsettings hfacts
    obtain ⟨settings, hsettings⟩ := exists_settings hsettings
    obtain ⟨facts, report, hfacts⟩ := exists_facts hfacts
    rw [runVerb_of_loaded hsettings hfacts]
    cases verb with
    | generate => exact error_generate tree settings facts options
    | render => exact .inl (error_render tree settings facts)
  · rintro rfl
    exact tree_runVerb_render tree factsPath options

/-- A document beside settings with a truth value for a port, and facts with a number for a
table. -/
def defectiveTree : FileTree :=
  ((FileTree.empty.put ["work", "calm.toml"]
      (.file "[synthesis]\ndefault_port = true\n".toUTF8)).put
    ["work", "facts.json"] (.file "\x7b\"data-assets\": 1\x7d".toUTF8)).put
    ["work", "calm.json"] (.file "kept".toUTF8)

theorem settings_defectiveTree :
    Settings.Defective defectiveTree (some "calm.toml") (.invalid "calm.toml") := by
  apply Settings.defective_iff.mpr
  have hread : defectiveTree.readText "calm.toml" = .ok "[synthesis]\ndefault_port = true\n" :=
    FileTree.readText_eq_ok_iff.mpr (by rfl)
  exact Settings.load_of_ofText?_eq_none hread (by decide +kernel)

theorem facts_defectiveTree : Snapshot.Defective defectiveTree "facts.json" := by
  have hread : defectiveTree.readText "facts.json" = .ok "\x7b\"data-assets\": 1\x7d" :=
    FileTree.readText_eq_ok_iff.mpr (by rfl)
  have hparse : Json.parse "\x7b\"data-assets\": 1\x7d" = .ok (.obj [("data-assets", .int 1)]) := by
    rfl
  exact .noTable hread hparse rfl (List.mem_singleton.mpr rfl) (by decide)

/-- With the settings, their error is reported; without them, that of the facts. In both cases the
document stays. -/
theorem run_refuses_defective_input_both :
    let arguments := ["generate", "--facts", "facts.json", "--output", "calm.json"]
    (run defectiveTree (arguments ++ ["--config", "calm.toml"])).Refused defectiveTree
        "invalid config calm.toml" ∧
      (run defectiveTree arguments).Refused defectiveTree
        "failed to load facts from facts.json" := by
  intro arguments
  have hboth : Request.ofArguments? (arguments ++ ["--config", "calm.toml"]) =
      some (.run .generate "facts.json"
        { facts := some "facts.json", output := some "calm.json", config := some "calm.toml" }) :=
    rfl
  have hfacts : Request.ofArguments? arguments =
      some (.run .generate "facts.json"
        { facts := some "facts.json", output := some "calm.json" }) := rfl
  exact ⟨(run_refuses_defective_input hboth).1 _ settings_defectiveTree,
    (run_refuses_defective_input hfacts).2.1 (fun _ h => nomatch h) facts_defectiveTree⟩

end ArchDoc.Command
