import ArchDoc.Proofs.ChangingFacts
import ArchDoc.Proofs.FaithfulRuns
import ArchDoc.Proofs.RefusedCommands

/-!
# The two commands agree

One command prints the document of facts, the other one keeps a file in step with them. Given the
same facts and settings, the file ends up with what is printed, byte for byte; where nothing is
printed, a file of its own stays as it is, and an absent one or a placeholder is absent afterwards.
The command that writes may be repeated: it finds its facts and settings as they were, and leaves
the document as it was.

The files are those of a file tree: plain directories, and regular files with one name each. There
are no links, no permissions and no attributes, and a temporary file that was just made can always
be removed.

Main definitions:

* `configOf`, `documentFile`, `regeneratorOf`: what the command that writes works with.
* `Paired`: arguments that ask both commands for the same facts and settings.

Results:

* `generate_keeps`: the command touches the document and its temporary file only.
* `generate_settles`: what it makes of the document.
* `Paired.again`: what the command is asked for does not change when it runs.
* `generate_agrees_with_render`: the agreement.
-/

namespace ArchDoc.Command

open FileTree (Keeps placeOf)
open Lifecycle Regenerator
open Store (Directory)
open Synthesis (synthesizeText)

variable {tree tree' : FileTree} {settings : Settings} {facts : Facts} {options : Options}
  {factsPath : String} {arguments : List String}

/-! ## What the command works with -/

/-- The settings of regeneration, as far as options do not replace them. -/
def configOf (settings : Settings) (options : Options) : Lifecycle.Config where
  path := options.output.getD settings.regeneration.path
  maxCycles := options.maxCycles.getD settings.regeneration.maxCycles

/-- The store in a tree. -/
def storeIn (tree : FileTree) (options : Options) : Directory :=
  ⟨options.root.getD ".", tree⟩

/-- The file of the document. -/
def documentFile (settings : Settings) (options : Options) : String :=
  Path.join (options.root.getD ".") (configOf settings options).path

/-- The greatest number of cycles. -/
def boundOf (settings : Settings) (options : Options) : Nat :=
  (configOf settings options).maxCycles.toNat

/-- The regenerator that starts in a tree. -/
def regeneratorOf (tree : FileTree) (settings : Settings) (options : Options) :
    Regenerator Directory :=
  fresh (storeIn tree options) (configOf settings options) settings.synthesis

theorem tree_generate (tree : FileTree) (settings : Settings) (facts : Facts)
    (options : Options) :
    (generate tree settings facts options).tree =
      ((regeneratorOf tree settings options).untilStable facts
        (boundOf settings options)).1.store.tree := by
  unfold generate regeneratorOf boundOf storeIn configOf
  dsimp only
  split <;> rename_i hrun <;> rw [hrun]

theorem exitCode_generate {r : Regenerator Directory} {actions : List Action}
    (h : (regeneratorOf tree settings options).untilStable facts (boundOf settings options) =
      (r, .ok actions)) : (generate tree settings facts options).exitCode = success := by
  unfold regeneratorOf boundOf storeIn configOf at h
  unfold generate
  dsimp only
  rw [h]

/-! ## What the command touches -/

theorem carryOut_write (store : Directory) (path text : String) :
    carryOut store path (.write text) = store.write path text := by
  unfold carryOut
  rfl

theorem carryOut_delete (store : Directory) (path : String) :
    carryOut store path .delete = store.delete path := by
  unfold carryOut
  rfl

/-- One call of the store touches the document and its temporary file only. -/
theorem carryOut_keeps (store : Directory) (path : String) (action : Action) :
    (carryOut store path action).1.root = store.root ∧
      Keeps (Directory.places store.tree.here (store.resolve path)) store.tree
        (carryOut store path action).1.tree := by
  cases action with
  | createPlaceholder =>
    -- a placeholder is a text like any other
    have hcall := carryOut_write store path placeholderText
    unfold carryOut at hcall ⊢
    rw [hcall]
    unfold Directory
    exact Directory.write_keeps store path placeholderText
  | write text =>
    rw [carryOut_write]
    unfold Directory
    exact Directory.write_keeps store path text
  | delete =>
    rw [carryOut_delete]
    obtain ⟨hroot, hkeeps⟩ := Directory.delete_keeps store path
    refine ⟨hroot, hkeeps.mono ?_⟩
    exact List.cons_subset_cons _ (List.nil_subset _)
  | unchanged => exact ⟨rfl, .refl _ _⟩

/-- A round that starts in a tree leaves its root and everything but the document and its temporary
file, whether or not it succeeds. -/
theorem untilStable_keeps (tree : FileTree) (settings : Settings) (facts : Facts)
    (options : Options) :
    let store := ((regeneratorOf tree settings options).untilStable facts
      (boundOf settings options)).1.store
    store.root = options.root.getD "." ∧
      Keeps (Directory.places tree.here (documentFile settings options)) tree store.tree := by
  refine store_untilStable (P := fun store : Directory => store.root = options.root.getD "." ∧
    Keeps (Directory.places tree.here (documentFile settings options)) tree store.tree)
    (r := regeneratorOf tree settings options) ?_ rfl ⟨rfl, .refl _ _⟩ facts _
  rintro store action ⟨hroot, hkeeps⟩
  obtain ⟨hroot', hkeeps'⟩ := carryOut_keeps store (configOf settings options).path action
  have hfile : store.resolve (configOf settings options).path = documentFile settings options := by
    rw [Store.Rooted.resolve, hroot]
    rfl
  rw [hfile, hkeeps.here] at hkeeps'
  exact ⟨hroot'.trans hroot, hkeeps.trans hkeeps'⟩

theorem generate_keeps (tree : FileTree) (settings : Settings) (facts : Facts)
    (options : Options) :
    Keeps (Directory.places tree.here (documentFile settings options)) tree
      (generate tree settings facts options).tree := by
  rw [tree_generate]
  exact (untilStable_keeps tree settings facts options).2

/-! ## What becomes of the document -/

/-- The command succeeds if no call of its store fails, and settles the document. -/
theorem generate_settles {before : Option String} (hbound : 2 ≤ boundOf settings options)
    (hbefore : (storeIn tree options).read (configOf settings options).path = .ok before)
    (hcalls : Unhindered facts (boundOf settings options) (regeneratorOf tree settings options)) :
    (generate tree settings facts options).exitCode = success ∧
      (storeIn (generate tree settings facts options).tree options).read
          (configOf settings options).path =
        .ok (settled (synthesizeText facts settings.synthesis) before) := by
  obtain ⟨r', actions, hround, hread⟩ := untilStable_of_faithful hbefore hbound hcalls
  refine ⟨exitCode_generate hround, ?_⟩
  have hstore : storeIn (generate tree settings facts options).tree options = r'.store := by
    have hroot := (untilStable_keeps tree settings facts options).1
    have htree := tree_generate tree settings facts options
    rw [show (regeneratorOf tree settings options).untilStable facts (boundOf settings options) =
      (r', .ok actions) from hround] at hroot htree
    unfold storeIn
    rw [htree, ← hroot]
  rw [hstore]
  exact hread

/-! ## What the command is asked for -/

/-- Arguments that ask both commands for the same facts and settings, which load. -/
structure Paired (tree : FileTree) (settings : Settings) (facts : Facts) (factsPath : String)
    (options : Options) (renderArguments generateArguments : List String) : Prop where
  render : ∃ others : Options, others.config = options.config ∧
    Request.ofArguments? renderArguments = some (.run .render factsPath others)
  generate : Request.ofArguments? generateArguments = some (.run .generate factsPath options)
  settings : Settings.load tree options.config = .ok settings
  facts : ∃ report, Snapshot.load tree factsPath = .ok (facts, report)

/-- The files of facts and settings are neither the document nor its temporary file. -/
def Apart (tree : FileTree) (settings : Settings) (factsPath : String) (options : Options) : Prop :=
  ∀ input ∈ factsPath :: options.config.toList,
    placeOf tree.here input ∉ Directory.places tree.here (documentFile settings options)

theorem load_settings_of_keeps {touched : List Location} (h : Keeps touched tree tree')
    {path : Option String} (hapart : ∀ p ∈ path, placeOf tree.here p ∉ touched)
    (hload : Settings.load tree path = .ok settings) : Settings.load tree' path = .ok settings := by
  cases path with
  | none => exact hload
  | some path =>
    unfold Settings.load at hload ⊢
    dsimp only at hload ⊢
    cases hread : tree.readText path with
    | error cause =>
      rw [hread] at hload
      exact nomatch hload
    | ok text =>
      rw [hread] at hload
      rw [h.readText (hapart path rfl) hread]
      exact hload

theorem load_facts_of_keeps {touched : List Location} (h : Keeps touched tree tree')
    {report : Snapshot.Report} (hapart : placeOf tree.here factsPath ∉ touched)
    (hload : Snapshot.load tree factsPath = .ok (facts, report)) :
    Snapshot.load tree' factsPath = .ok (facts, report) := by
  obtain ⟨text, hread, htext⟩ := bind_eq_ok hload
  cases hfile : tree.readText factsPath with
  | error cause =>
    rw [hfile] at hread
    exact nomatch hread
  | ok found =>
    rw [hfile] at hread
    obtain rfl := Except.ok.inj hread
    unfold Snapshot.load
    rw [h.readText hapart hfile]
    exact htext

namespace Paired

variable {renderArguments generateArguments : List String}
  (h : Paired tree settings facts factsPath options renderArguments generateArguments)
include h

theorem run_generate :
    (run tree generateArguments).exitCode =
        (Command.generate tree settings facts options).exitCode ∧
      (run tree generateArguments).tree = (Command.generate tree settings facts options).tree := by
  obtain ⟨report, hreport⟩ := h.facts
  rw [run_of_request h.generate, runVerb_of_loaded h.settings hreport]
  dsimp only
  exact ⟨rfl, rfl⟩

/-- What the command is asked for does not change when it runs. -/
theorem again (hapart : Apart tree settings factsPath options) :
    Paired (run tree generateArguments).tree settings facts factsPath options renderArguments
      generateArguments := by
  have hkeeps := generate_keeps tree settings facts options
  rw [← h.run_generate.2] at hkeeps
  obtain ⟨report, hreport⟩ := h.facts
  have hconfig : ∀ p ∈ options.config,
      placeOf tree.here p ∉ Directory.places tree.here (documentFile settings options) :=
    fun p hp => hapart p (List.mem_cons_of_mem _ (Option.mem_toList.mpr hp))
  exact {
    render := h.render
    generate := h.generate
    settings := load_settings_of_keeps hkeeps hconfig h.settings
    facts := ⟨report, load_facts_of_keeps hkeeps (hapart factsPath List.mem_cons_self) hreport⟩ }

/-- The command succeeds if no call of its store fails, and its file holds the settled document. -/
theorem run_settles {before : Option String} (hbound : 2 ≤ boundOf settings options)
    (hbefore : (storeIn tree options).read (configOf settings options).path = .ok before)
    (hcalls : Unhindered facts (boundOf settings options) (regeneratorOf tree settings options)) :
    (run tree generateArguments).exitCode = success ∧
      (storeIn (run tree generateArguments).tree options).read (configOf settings options).path =
        .ok (settled (synthesizeText facts settings.synthesis) before) := by
  obtain ⟨hexit, hread⟩ := generate_settles hbound hbefore hcalls
  rw [h.run_generate.1, h.run_generate.2]
  exact ⟨hexit, hread⟩

theorem run_render :
    (run tree renderArguments).exitCode = (Command.render tree settings facts).exitCode ∧
      (run tree renderArguments).output = (Command.render tree settings facts).output := by
  obtain ⟨report, hreport⟩ := h.facts
  obtain ⟨others, hconfig, hrequest⟩ := h.render
  have hsettings := h.settings
  rw [← hconfig] at hsettings
  rw [run_of_request hrequest, runVerb_of_loaded hsettings hreport]
  dsimp only
  exact ⟨rfl, rfl⟩

/-- What is printed is the text of the facts. -/
theorem synthesizeText_of_printed {text : String}
    (hexit : (run tree renderArguments).exitCode = success)
    (houtput : (run tree renderArguments).output = text ++ "\n") :
    synthesizeText facts settings.synthesis = some text := by
  rw [h.run_render.1] at hexit
  rw [h.run_render.2] at houtput
  unfold Command.render at hexit houtput
  cases htext : synthesizeText facts settings.synthesis with
  | none =>
    rw [htext] at hexit
    exact absurd (show nothingDone = success from hexit) (by decide)
  | some found =>
    rw [htext] at houtput
    rw [(String.append_left_inj "\n").mp houtput]

/-- The text of the facts is printed. -/
theorem printed_of_text {text : String}
    (htext : synthesizeText facts settings.synthesis = some text) :
    (run tree renderArguments).exitCode = success ∧
      (run tree renderArguments).output = text ++ "\n" := by
  rw [h.run_render.1, h.run_render.2, Command.render, htext]
  exact ⟨rfl, rfl⟩

/-- Nothing is printed because there is no text. -/
theorem synthesizeText_of_nothing (hexit : (run tree renderArguments).exitCode = nothingDone) :
    synthesizeText facts settings.synthesis = none := by
  rw [h.run_render.1] at hexit
  unfold Command.render at hexit
  cases htext : synthesizeText facts settings.synthesis with
  | none => rfl
  | some found =>
    rw [htext] at hexit
    exact absurd (show success = nothingDone from hexit) (by decide)

end Paired

/-! ## The agreement -/

/-- **Main theorem.** Let both commands be asked in a file tree, without links or permissions, for
the same facts and settings, which load and are neither the document nor its temporary file; let the
bound be at least two, the document absent or a text, and no call of the store fail. Then the
command that writes succeeds. If the other one prints a text, the document is that text, byte for
byte. If it prints nothing, the document is absent where it was absent or a placeholder, and
otherwise what it was. Run again, the command leaves the document as it is. -/
theorem generate_agrees_with_render {renderArguments generateArguments : List String}
    {before : Option String}
    (h : Paired tree settings facts factsPath options renderArguments generateArguments)
    (hapart : Apart tree settings factsPath options) (hbound : 2 ≤ boundOf settings options)
    (hbefore : (storeIn tree options).read (configOf settings options).path = .ok before)
    (hcalls : Unhindered facts (boundOf settings options) (regeneratorOf tree settings options)) :
    let rendered := run tree renderArguments
    let generated := run tree generateArguments
    let again := run generated.tree generateArguments
    let file := documentFile settings options
    generated.exitCode = success ∧
    (∀ text, rendered.exitCode = success → rendered.output = text ++ "\n" →
      generated.tree.readFile file = .ok text.toUTF8) ∧
    (rendered.exitCode = nothingDone → rendered.output = "" →
      generated.tree.readFile file =
        if before.all isPlaceholder then .error (.os .notFound) else tree.readFile file) ∧
    (Unhindered facts (boundOf settings options)
        (regeneratorOf generated.tree settings options) →
      again.exitCode = success ∧ again.tree.readFile file = generated.tree.readFile file) := by
  obtain ⟨hexit, hread⟩ := h.run_settles hbound hbefore hcalls
  have hfile := Directory.readFile_of_read hread
  refine ⟨hexit, ?_, ?_, ?_⟩
  · intro text hprinted houtput
    rw [h.synthesizeText_of_printed hprinted houtput] at hfile
    exact hfile
  · intro hprinted _
    rw [h.synthesizeText_of_nothing hprinted, settled_none] at hfile
    split_ifs at hfile ⊢
    · exact hfile
    · exact hfile.trans (Directory.readFile_of_read hbefore).symm
  · intro hcalls'
    obtain ⟨hexit', hread'⟩ := (h.again hapart).run_settles hbound hread hcalls'
    rw [settled_settled] at hread'
    exact ⟨hexit', (Directory.readFile_of_read hread').trans hfile.symm⟩

/-- A working directory with a file of facts. -/
def factsTree (text : String) : FileTree :=
  FileTree.empty.put ["work", "facts.json"] (.file text.toUTF8)

/-- The facts of one database. -/
def orders : Facts :=
  Facts.empty.extend .databaseConnections [{ entityName := "Order" }]

/-- How these facts are spelled. -/
def ordersText : String :=
  "\x7b\"database-connections\": [\x7b\"entity_name\": \"Order\"\x7d]\x7d"

theorem paired_factsTree (text : String) (facts : Facts)
    (h : ((Snapshot.load (factsTree text) "facts.json").map Prod.fst).toOption = some facts) :
    Paired (factsTree text) {} facts "facts.json" { facts := some "facts.json" }
      ["render", "--facts", "facts.json"] ["generate", "--facts", "facts.json"] where
  render := ⟨{ facts := some "facts.json" }, rfl, rfl⟩
  generate := rfl
  settings := rfl
  facts := by
    cases hload : Snapshot.load (factsTree text) "facts.json" with
    | error e =>
      rw [hload] at h
      exact nomatch h
    | ok loaded =>
      rw [hload] at h
      obtain rfl := Option.some.inj h
      exact ⟨loaded.2, rfl⟩

theorem apart_factsTree (text : String) :
    Apart (factsTree text) {} "facts.json" { facts := some "facts.json" } := by
  intro input hinput
  rw [List.mem_singleton.mp hinput]
  change placeOf ["work"] "facts.json" ∉ Directory.places ["work"] (documentFile {} {})
  decide +kernel

/-- The store after the document was reserved below a directory that was not there. -/
def reservedStore : Directory :=
  ((storeIn (factsTree ordersText) {}).write (configOf {} {}).path placeholderText).1

/-- The document can be reserved, and any text can take the place of the placeholder. -/
theorem unhindered_orders {text : String}
    (htext : synthesizeText orders ({} : Settings).synthesis = some text) :
    Unhindered orders 4 (regeneratorOf (factsTree ordersText) {} {}) := by
  have hread : (storeIn (factsTree ordersText) {}).read (configOf {} {}).path = .ok none := by rfl
  have hreserved : (storeIn (factsTree ordersText) {}).write (configOf {} {}).path
      placeholderText = (reservedStore, .ok ()) := Prod.ext rfl (by rfl)
  have hwrite : (reservedStore.write (configOf {} {}).path text).2 = .ok () := by rfl
  have hplan : plan (some placeholderText) false (some text) = .write text := by
    refine if_neg fun hsame => ?_
    have hcontent := isPlaceholder_synthesizeText htext
    rw [hsame] at hcontent
    exact absurd hcontent (by decide)
  refine unhindered_of_absent hread hreserved ?_
  rw [htext, hplan, carryOut_write]
  exact hwrite

/-- The facts of a database: what the one command prints is what the other one writes, and leaves
when it runs again. Without facts nothing is printed, and the document is reserved and deleted. -/
theorem generate_agrees_with_render_both :
    let rendered (facts : String) := run (factsTree facts) ["render", "--facts", "facts.json"]
    let generated (facts : String) := run (factsTree facts) ["generate", "--facts", "facts.json"]
    let again (facts : String) := run (generated facts).tree ["generate", "--facts", "facts.json"]
    let file := documentFile {} {}
    (∃ text, (rendered ordersText).exitCode = success ∧
      (rendered ordersText).output = text ++ "\n" ∧
      (generated ordersText).exitCode = success ∧
      (generated ordersText).tree.readFile file = .ok text.toUTF8 ∧
      (again ordersText).exitCode = success ∧
      (again ordersText).tree.readFile file = .ok text.toUTF8) ∧
    (rendered placeholderText).exitCode = nothingDone ∧
    (rendered placeholderText).output = "" ∧
    (generated placeholderText).exitCode = success ∧
    (generated placeholderText).tree.readFile file = .error (.os .notFound) := by
  intro rendered generated again file
  constructor
  · have hpaired := paired_factsTree ordersText orders (by decide +kernel)
    obtain ⟨text, htext⟩ := Option.isSome_iff_exists.mp
      (show (synthesizeText orders ({} : Settings).synthesis).isSome = true by decide +kernel)
    have hprinted := hpaired.printed_of_text htext
    have hcalls := unhindered_orders htext
    have hbefore : (storeIn (factsTree ordersText) {}).read (configOf {} {}).path = .ok none := by
      rfl
    obtain ⟨hexit, hsame, _, hagain⟩ := generate_agrees_with_render hpaired (apart_factsTree _)
      (by decide +kernel) hbefore hcalls
    have hfile := hsame text hprinted.1 hprinted.2
    have hread := (hpaired.run_settles (by decide +kernel) hbefore hcalls).2
    rw [htext] at hread
    obtain ⟨hexit', hfile'⟩ := hagain (unhindered_of_written htext hread)
    exact ⟨text, hprinted.1, hprinted.2, hexit, hfile, hexit', hfile'.trans hfile⟩
  · have hpaired := paired_factsTree placeholderText .empty (by decide +kernel)
    have hcalls : Unhindered .empty 4 (regeneratorOf (factsTree placeholderText) {} {}) :=
      unhindered_of_absent (by rfl) (Prod.ext rfl (by rfl)) (by rfl)
    have hrendered : (rendered placeholderText).exitCode = nothingDone ∧
        (rendered placeholderText).output = "" := by
      decide +kernel
    obtain ⟨hexit, _, hnothing, _⟩ := generate_agrees_with_render hpaired (apart_factsTree _)
      (by decide +kernel) (by rfl) hcalls
    exact ⟨hrendered.1, hrendered.2, hexit, hnothing hrendered.1 hrendered.2⟩

end ArchDoc.Command
