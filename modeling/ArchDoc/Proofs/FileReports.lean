import ArchDoc.Proofs.ChangingFacts
import ArchDoc.Proofs.FaithfulRuns

/-!
# Documents in files and documents in memory

A regenerator over files makes the same reports as one over documents in memory, cycle by cycle, if
the two find the same document at first: the action, the number of cycles, the phase, and the
document that is there afterwards. This goes on until a call of the file store fails, and when none
does it goes on to the end. That making directories, writing a temporary file, moving it and
removing a file amount to putting and dropping a document is said of single calls (`Faithful`); the
rest is an induction over cycles.

The files are those of a file tree: plain directories, and regular files with one name each, without
links, permissions or attributes. A temporary file that was just made can always be removed there.

Main definitions:

* `Report`, `Regenerator.reports`: what is seen of cycles.
* `Undisturbed`: no call of the store fails during cycles.

Results:

* `undisturbed_iff`: cycles go on to the end exactly when no call of the store fails.
* `Mirrors.report_eq`, `Mirrors.prefix_reports`: regenerators in step make the same reports.
* `reports_directory`: the reports over files.
-/

namespace ArchDoc.Lifecycle

open Store (Directory Faithful Memory)
open Synthesis (synthesizeText)

/-- What is seen of a cycle that has succeeded: what it did, what the regenerator remembers of it,
and the document that is read afterwards. -/
structure Report where
  action : Action
  cycles : Nat
  phase : Option Phase
  content : Except Store.Error (Option String)

namespace Regenerator

variable {σ : Type} [DocumentStore σ] {r : Regenerator σ} {m : Regenerator Memory}

/-- The report of an action that has just been done. -/
def report (r : Regenerator σ) (action : Action) : Report :=
  ⟨action, r.cycles, r.phase, DocumentStore.read r.store r.config.path⟩

/-- The reports of a cycle for each of the given facts, in order, up to the first that fails. -/
def reports : List Facts → Regenerator σ → List Report
  | [], _ => []
  | facts :: snapshots, r =>
    match r.cycle facts with
    | (_, .error _) => []
    | (r, .ok action) => r.report action :: reports snapshots r

/-! ## Cycles in which no call fails -/

/-- No call of the store fails during a cycle for each of the given facts. -/
def Undisturbed : List Facts → Regenerator σ → Prop
  | [], _ => True
  | facts :: snapshots, r =>
    ∃ current, DocumentStore.read r.store r.config.path = .ok current ∧
      (carryOut r.store r.config.path (r.choose facts (phaseFrom r.phase current) current)).2 =
        .ok () ∧
      Undisturbed snapshots (r.cycle facts).1

theorem undisturbed_cons_iff {facts : Facts} {snapshots : List Facts} :
    Undisturbed (facts :: snapshots) r ↔
      ∃ r' action, r.cycle facts = (r', .ok action) ∧ Undisturbed snapshots r' :=
  exists_cycle_iff fun r' _ => Undisturbed snapshots r'

/-- All cycles are reported exactly when no call of the store fails. -/
theorem undisturbed_iff {snapshots : List Facts} :
    Undisturbed snapshots r ↔ (r.reports snapshots).length = snapshots.length := by
  induction snapshots generalizing r with
  | nil => exact iff_of_true trivial rfl
  | cons facts snapshots ih =>
    rw [undisturbed_cons_iff, reports]
    rcases hcycle : r.cycle facts with ⟨next, e | action⟩
    · constructor
      · rintro ⟨_, _, hok, _⟩
        cases (Prod.mk.inj hok).2
      · exact nofun
    · dsimp only
      rw [List.length_cons, List.length_cons, Nat.add_right_cancel_iff, ← ih]
      constructor
      · rintro ⟨_, _, hok, hrest⟩
        exact (Prod.mk.inj hok).1 ▸ hrest
      · exact fun hrest => ⟨next, action, rfl, hrest⟩

/-- Over documents in memory every cycle is reported, with what it decides and leaves. -/
theorem reports_memory_cons (m : Regenerator Memory) (facts : Facts) (snapshots : List Facts) :
    m.reports (facts :: snapshots) =
      ⟨m.decision facts, m.cycles + 1,
        some ((m.decision facts).phaseAfter (phaseFrom m.phase m.content)),
        .ok (m.after facts).content⟩ :: (m.after facts).reports snapshots := by
  rw [reports, cycle_eq]
  rfl

theorem length_reports_memory (m : Regenerator Memory) (snapshots : List Facts) :
    (m.reports snapshots).length = snapshots.length := by
  induction snapshots generalizing m with
  | nil => rfl
  | cons facts snapshots ih =>
    rw [reports_memory_cons, List.length_cons, List.length_cons, ih]

/-! ## Regenerators in step -/

namespace Mirrors

theorem report_eq (h : Mirrors r m) (action : Action) : r.report action = m.report action := by
  unfold report
  rw [h.cycles, h.phase, h.content]
  rfl

/-- Cycle by cycle, the reports are those of the mirror, as long as there are any. -/
theorem prefix_reports [Faithful σ] (h : Mirrors r m) (snapshots : List Facts) :
    r.reports snapshots <+: m.reports snapshots := by
  induction snapshots generalizing r m with
  | nil => exact List.prefix_rfl
  | cons facts snapshots ih =>
    rw [reports, reports, cycle_eq]
    rcases hcycle : r.cycle facts with ⟨next, e | action⟩
    · exact List.nil_prefix
    · obtain ⟨rfl, hnext⟩ := h.cycle hcycle
      dsimp only
      rw [hnext.report_eq]
      exact (List.prefix_cons_inj _).mpr (ih hnext)

/-- A cycle is not disturbed if what the mirror decides can be carried out. -/
theorem undisturbed_cons [Faithful σ] {store : σ} {facts : Facts} {snapshots : List Facts}
    (h : Mirrors r m)
    (hout : carryOut r.store r.config.path (m.decision facts) = (store, .ok ()))
    (hrest : ∀ r', r'.store = store → Mirrors r' (m.after facts) → Undisturbed snapshots r') :
    Undisturbed (facts :: snapshots) r := by
  obtain ⟨r', hcycle, hstore, hr'⟩ := h.cycle_of_carryOut hout
  exact undisturbed_cons_iff.mpr ⟨r', _, hcycle, hrest r' hstore hr'⟩

end Mirrors

/-! ## Files -/

/-- **Main theorem.** Whatever is in a file tree, a plain one of directories and regular files with
one name each, below any root and at any path: if a store in memory holds at the path what is read
of the document there, then for all facts, one after the other, the cycles over files make the same
reports as those over memory until a call of the file store fails, and all of them when none
does. -/
theorem reports_directory (store : Directory) (memory : Memory) (config : Config)
    (synthesis : Synthesis.Config)
    (hcontent : DocumentStore.read store config.path = .ok (memory.get? config.path))
    (snapshots : List Facts) :
    let files := fresh store config synthesis
    let mirror := fresh memory config synthesis
    files.reports snapshots <+: mirror.reports snapshots ∧
      (Undisturbed snapshots files →
        files.reports snapshots = mirror.reports snapshots ∧
          (files.reports snapshots).length = snapshots.length) := by
  intro files mirror
  have hreports := (mirrors_fresh hcontent synthesis).prefix_reports snapshots
  refine ⟨hreports, fun hcalls => ?_⟩
  have hlength := undisturbed_iff.mp hcalls
  have hmirror := length_reports_memory mirror snapshots
  exact ⟨hreports.eq_of_length (hlength.trans hmirror.symm), hlength⟩

/-- Without a document, reserving comes first, then the text of facts, which stays when there are no
facts any more. -/
theorem decisions_written {facts : Facts} {text : String}
    (htext : synthesizeText facts .default = some text) :
    let start : Regenerator Memory := fresh .empty .default .default
    let reserved := start.after .empty
    let written := reserved.after facts
    (start.decision .empty = .createPlaceholder ∧ reserved.content = some placeholderText) ∧
      (reserved.decision facts = .write text ∧ written.content = some text) ∧
      written.decision .empty = .unchanged ∧ (written.after .empty).content = some text := by
  intro start reserved written
  have hown := isPlaceholder_synthesizeText htext
  have hreserved : reserved.content = some placeholderText :=
    content_after_fresh .default .empty (by rfl)
  have hwrite : reserved.decision facts = .write text := by
    rw [decision_of_present _ _ hreserved]
    change plan (some placeholderText) false (synthesizeText facts .default) = _
    rw [htext]
    refine if_neg fun hsame => ?_
    rw [hsame] at hown
    exact absurd hown (by decide)
  have hwritten : written.content = some text := by
    rw [content_after, hwrite]
  have hstay : written.decision .empty = .unchanged := by
    rw [decision_of_present _ _ hwritten]
    change plan (some text) false none = _
    refine if_neg ?_
    rw [Phase.classify_some, hown]
    decide
  refine ⟨⟨by rfl, hreserved⟩, ⟨hwrite, hwritten⟩, hstay, ?_⟩
  rw [content_after, hstay]
  exact hwritten

/-- The store after the document was reserved below a directory that was not there. -/
def reservedStore : Directory :=
  ((⟨"", .empty⟩ : Directory).write Config.default.path placeholderText).1

theorem undisturbed_written {facts : Facts} {text : String}
    (htext : synthesizeText facts .default = some text) :
    Undisturbed [.empty, facts, .empty]
      (fresh (⟨"", .empty⟩ : Directory) .default .default) := by
  obtain ⟨⟨hreserve, _⟩, ⟨hwrite, _⟩, hstay, _⟩ := decisions_written htext
  have hreserved : carryOut (⟨"", .empty⟩ : Directory) Config.default.path .createPlaceholder =
      (reservedStore, .ok ()) := Prod.ext rfl (by rfl)
  have hwritten : (carryOut reservedStore Config.default.path (.write text)).2 = .ok () := by rfl
  have hstart : Mirrors (fresh (⟨"", .empty⟩ : Directory) .default .default)
      (fresh Memory.empty .default .default) := mirrors_fresh (by rfl) .default
  refine hstart.undisturbed_cons (by rw [hreserve]; exact hreserved) fun r hr hm => ?_
  refine hm.undisturbed_cons (Prod.ext rfl ?_) fun r hr hm => ?_
  · rw [hwrite, hr, hm.config]
    exact hwritten
  · exact hm.undisturbed_cons (by rw [hstay]; rfl) fun _ _ _ => trivial

/-- Cycles in an empty directory: the document is reserved below a directory that is made for it,
the text of facts takes the place of the placeholder, and stays when there are no facts any more. -/
theorem reports_directory_written :
    let files : Regenerator Directory := fresh ⟨"", .empty⟩ .default .default
    let orders := Facts.empty.extend .databaseConnections [{ entityName := "Order" }]
    ∃ text, synthesizeText orders .default = some text ∧
      Undisturbed [.empty, orders, .empty] files ∧
      files.reports [.empty, orders, .empty] =
        [⟨.createPlaceholder, 1, some .placeholder, .ok (some placeholderText)⟩,
          ⟨.write text, 2, some .populated, .ok (some text)⟩,
          ⟨.unchanged, 3, some .populated, .ok (some text)⟩] := by
  intro files orders
  obtain ⟨text, htext⟩ := Option.isSome_iff_exists.mp
    (show (synthesizeText orders .default).isSome = true by decide +kernel)
  have hcalls := undisturbed_written htext
  have hreports := (reports_directory ⟨"", .empty⟩ .empty .default .default (by rfl) _).2 hcalls
  refine ⟨text, htext, hcalls, hreports.1.trans ?_⟩
  obtain ⟨⟨hreserve, hreserved⟩, ⟨hwrite, hwritten⟩, hstay, hstayed⟩ := decisions_written htext
  rw [reports_memory_cons, reports_memory_cons, reports_memory_cons, hreserve, hwrite, hstay,
    hreserved, hwritten, hstayed]
  have hpopulated : ∀ phase, phaseFrom phase (some text) = .populated := by
    intro phase
    rw [phaseFrom, if_neg fun h => Option.some_ne_none _ h.2, Phase.classify_some,
      isPlaceholder_synthesizeText htext]
    rfl
  rw [hpopulated]
  rfl

end Regenerator

end ArchDoc.Lifecycle
