import ArchDoc.Fact.Columns
import ArchDoc.Proofs.FinalDraft
import ArchDoc.Proofs.RelevantColumns
import Mathlib.Data.List.Forall2

/-!
# Empty columns and missing ones

A column that may be missing may also be an empty text, and as a rule passes take the two for the
same. Three columns are read as they are: an empty class of a database is a class without a package,
which belongs to the service registered first, and a server with an empty protocol has that one.
Clearing any other empty columns leaves the document as it is.

Main definitions:

* `Cell.Cleared`, `Facts.Cleared`: empty texts, some of which are missing afterwards.
* `Fact.Kind.verbatim`: the columns in which an empty text is not read as a missing one.
* `Facts.unowned`: facts without the classes of databases.

Results:

* `essence_of_cleared`: clearing columns that are not read as they are is not noticed in a row.
* `resolve_empty`, `effectiveProtocol_ne_of_missing`: what the others say when they are empty.
* `nodes_synthesize_unowned`: nodes do not depend on the classes of databases.
* `synthesize_of_cleared`: what becomes of the document.
* `synthesize_of_cleared_repository`: a connection may move where a class is cleared.
-/

namespace ArchDoc

open ArchDoc.Fact Record Synthesis

/-! ## Clearing columns -/

namespace Cell

/-- The cell of a column is what it was before, or was an empty text and is missing. -/
inductive Cleared : Json → Json → Prop where
  | same (cell : Json) : Cleared cell cell
  | missing : Cleared .null (.str "")

theorem Cleared.eq_or_missing {cell before : Json} (h : Cleared cell before) :
    cell = before ∨ before = .str "" ∧ cell = .null := by
  cases h with
  | same => exact .inl rfl
  | missing => exact .inr ⟨rfl, rfl⟩

theorem Cleared.text {s t : String} (h : Cleared (.str s) (.str t)) : s = t := by
  rcases h.eq_or_missing with hsame | ⟨_, hmissing⟩
  · exact Json.str.inj hsame
  · exact nomatch hmissing

theorem Cleared.port {p q : UInt16} (h : Cleared (.int p.toNat) (.int q.toNat)) : p = q := by
  rcases h.eq_or_missing with hsame | ⟨_, hmissing⟩
  · exact UInt16.toNat_inj.mp (Int.ofNat.inj (Json.int.inj hsame))
  · exact nomatch hmissing

theorem Cleared.flag {b c : Bool} (h : Cleared (.bool b) (.bool c)) : b = c := by
  rcases h.eq_or_missing with hsame | ⟨_, hmissing⟩
  · exact Json.bool.inj hsame
  · exact nomatch hmissing

/-- A text that may be missing is the same apart from being empty. -/
theorem Cleared.nonEmpty {s t : Option String} (h : Cleared (ofText? s) (ofText? t)) :
    nonEmpty s = nonEmpty t := by
  rcases h.eq_or_missing with hsame | ⟨hempty, hmissing⟩
  · cases s with
    | none =>
      cases t with
      | none => rfl
      | some t => exact nomatch hsame
    | some s =>
      cases t with
      | none => exact nomatch hsame
      | some t => rw [Json.str.inj hsame]
  · cases s with
    | none =>
      cases t with
      | none => rfl
      | some t =>
        rw [Json.str.inj hempty]
        rfl
    | some s => exact nomatch hmissing

end Cell

/-- A row in which some of the columns that were empty texts are missing. -/
def Record.Cleared {α : Type} [Record α] (row before : α) : Prop :=
  List.Forall₂ Cell.Cleared (toCells row) (toCells before)

/-- Facts with the same rows, in which some of the columns that were empty texts are missing. -/
def Facts.Cleared (cleared facts : Facts) : Prop :=
  ∀ kind, List.Forall₂ Record.Cleared (cleared.rows kind) (facts.rows kind)

/-! ## Rows -/

namespace Fact.Kind

/-- The columns that are read as they are, even when they are empty. -/
def verbatim : (kind : Kind) → kind.Row → List (Option String)
  | .databaseConnections, row => [row.repositoryClass, row.entityClass]
  | .serverConfiguration, row => [row.protocol]
  | .serviceEndpoints, _ | .externalServiceCalls, _ | .messagingConnections, _ | .dataAssets, _
  | .projectMetadata, _ | .securityConfiguration, _ | .classDescriptions, _ | .methodCalls, _ => []

end Fact.Kind

/-- Apart from the columns that are read as they are, clearing columns of a row is not noticed. The
row is taken apart cell by cell, as far as the columns that are read. -/
theorem Synthesis.essence_of_cleared {kind : Kind} {row before : kind.Row}
    (h : Record.Cleared row before) (hverbatim : kind.verbatim row = kind.verbatim before)
    (hread : kind ≠ .methodCalls) : kind.essence row = kind.essence before := by
  cases kind with
  | serviceEndpoints =>
    obtain _ | ⟨hclass, _ | ⟨hmethod, _ | ⟨hpath, _⟩⟩⟩ := h
    simp only [Kind.essence, Kind.columnsRead, Kind.withoutEmpty, hclass.text, hmethod.text,
      hpath.text]
  | databaseConnections =>
    obtain _ | ⟨hentity, _ | ⟨_, _ | ⟨_, _ | ⟨_, _ | ⟨htype, _⟩⟩⟩⟩⟩ := h
    simp only [Kind.verbatim, List.cons.injEq, and_true] at hverbatim
    simp only [Kind.essence, Kind.columnsRead, Kind.withoutEmpty, hentity.text, htype.nonEmpty,
      hverbatim.1, hverbatim.2]
  | externalServiceCalls =>
    obtain _ | ⟨hclient, _ | ⟨htarget, _ | ⟨htype, _ | ⟨hprotocol, _⟩⟩⟩⟩ := h
    simp only [Kind.essence, Kind.columnsRead, Kind.withoutEmpty, hclient.text, htarget.text,
      htype.text, hprotocol.nonEmpty]
  | messagingConnections =>
    obtain _ | ⟨hclass, _ | ⟨hdestination, _ | ⟨hrole, _ | ⟨htype, _⟩⟩⟩⟩ := h
    simp only [Kind.essence, Kind.columnsRead, Kind.withoutEmpty, hclass.text, hdestination.text,
      hrole.text, htype.text]
  | serverConfiguration =>
    obtain _ | ⟨hport, _ | ⟨hssl, _⟩⟩ := h
    simp only [Kind.verbatim, List.cons.injEq, and_true] at hverbatim
    simp only [Kind.essence, Kind.columnsRead, Kind.withoutEmpty,
      ServerConfiguration.effectiveProtocol, hport.port, hssl.flag, hverbatim]
  | dataAssets =>
    obtain _ | ⟨hname, _ | ⟨htype, _ | ⟨_, _ | ⟨hdescription, _⟩⟩⟩⟩ := h
    simp only [Kind.essence, Kind.columnsRead, Kind.withoutEmpty, hname.text, htype.text,
      hdescription.nonEmpty]
  | projectMetadata =>
    obtain _ | ⟨hartifact, _ | ⟨_, _ | ⟨hname, _ | ⟨hdescription, _⟩⟩⟩⟩ := h
    simp only [Kind.essence, Kind.columnsRead, Kind.withoutEmpty, hartifact.text, hname.nonEmpty,
      hdescription.nonEmpty]
  | securityConfiguration =>
    obtain _ | ⟨htype, _ | ⟨_, _ | ⟨horigins, _⟩⟩⟩ := h
    simp only [Kind.essence, Kind.columnsRead, Kind.withoutEmpty, htype.text, horigins.nonEmpty]
  | classDescriptions =>
    obtain _ | ⟨hclass, _ | ⟨hdescription, _⟩⟩ := h
    simp only [Kind.essence, Kind.columnsRead, Kind.withoutEmpty, hclass.text, hdescription.text]
  | methodCalls => exact absurd rfl hread

/-- Row by row, clearing is not noticed. -/
theorem Synthesis.map_essence_of_cleared {kind : Kind} (hread : kind ≠ .methodCalls)
    {rows before : List kind.Row} (h : List.Forall₂ Record.Cleared rows before)
    (hverbatim : List.Forall₂ (fun row old => kind.verbatim row = kind.verbatim old) rows before) :
    rows.map kind.essence = before.map kind.essence := by
  induction h with
  | nil => rfl
  | cons hrow _ ih =>
    obtain _ | ⟨hsame, hrest⟩ := hverbatim
    rw [List.map_cons, List.map_cons, essence_of_cleared hrow hsame hread, ih hrest]

/-- A database row that knows no classes. -/
def Fact.DatabaseConnection.unowned (row : DatabaseConnection) : DatabaseConnection :=
  { row with entityClass := none, repositoryClass := none }

theorem Record.Cleared.refl {α : Type} [Record α] (row : α) : Record.Cleared row row :=
  List.forall₂_same.mpr fun cell _ => .same cell

theorem Record.Cleared.unowned {row before : DatabaseConnection}
    (h : Record.Cleared row before) : Record.Cleared row.unowned before.unowned := by
  obtain _ | ⟨hentity, _ | ⟨_, _ | ⟨_, hrest⟩⟩⟩ := h
  exact .cons hentity (.cons (.same _) (.cons (.same _) hrest))

/-! ## Facts -/

namespace Facts

variable {facts cleared : Facts}

/-- Rows of a kind have the same in the columns that are read as they are. -/
def SameVerbatim (cleared facts : Facts) (kind : Kind) : Prop :=
  List.Forall₂ (fun row before => kind.verbatim row = kind.verbatim before)
    (cleared.rowsRead kind) (facts.rowsRead kind)

/-- It is enough to clear columns of one table. -/
theorem cleared_setTable (facts : Facts) {kind : Kind} {rows before : List kind.Row}
    (h : List.Forall₂ Record.Cleared rows before) :
    (facts.setTable kind rows).Cleared (facts.setTable kind before) := by
  intro other
  by_cases hkind : kind = other
  · subst hkind
    rw [rows_setTable_self, rows_setTable_self]
    exact h
  · rw [rows_setTable_of_ne hkind, rows_setTable_of_ne hkind]
    exact List.forall₂_same.mpr fun row _ => .refl row

theorem Cleared.rowsRead (h : cleared.Cleared facts) (kind : Kind) :
    List.Forall₂ Record.Cleared (cleared.rowsRead kind) (facts.rowsRead kind) := by
  cases kind with
  | serverConfiguration | projectMetadata => exact List.forall₂_take 1 (h _)
  | methodCalls => exact .nil
  | serviceEndpoints | databaseConnections | externalServiceCalls | messagingConnections
  | dataAssets | securityConfiguration | classDescriptions => exact h _

theorem Cleared.essence_eq (h : cleared.Cleared facts)
    (hverbatim : ∀ kind, cleared.SameVerbatim facts kind) : cleared.essence = facts.essence := by
  ext1 kind
  apply congrArg some
  by_cases hread : kind = .methodCalls
  · subst hread
    rfl
  · exact map_essence_of_cleared hread (h.rowsRead kind) (hverbatim kind)

/-- Facts without the classes of databases. -/
def unowned (facts : Facts) : Facts :=
  facts.setTable .databaseConnections
    ((facts.rows .databaseConnections).map DatabaseConnection.unowned)

theorem rows_unowned_databases (facts : Facts) :
    facts.unowned.rows .databaseConnections =
      (facts.rows .databaseConnections).map DatabaseConnection.unowned :=
  rows_setTable_self facts _ _

theorem rows_unowned_of_ne (facts : Facts) {kind : Kind} (h : kind ≠ .databaseConnections) :
    facts.unowned.rows kind = facts.rows kind :=
  rows_setTable_of_ne h.symm _

theorem Cleared.unowned (h : cleared.Cleared facts) :
    cleared.unowned.Cleared facts.unowned := by
  intro kind
  by_cases hkind : kind = .databaseConnections
  · subst hkind
    rw [rows_unowned_databases, rows_unowned_databases, List.forall₂_map_left_iff,
      List.forall₂_map_right_iff]
    exact (h .databaseConnections).imp fun _ _ => Record.Cleared.unowned
  · rw [rows_unowned_of_ne cleared hkind, rows_unowned_of_ne facts hkind]
    exact h kind

/-- Without the classes of databases, the protocol of the first server is what is left to be read as
it is. -/
theorem Cleared.sameVerbatim_unowned (h : cleared.Cleared facts)
    (hserver : cleared.SameVerbatim facts .serverConfiguration) (kind : Kind) :
    cleared.unowned.SameVerbatim facts.unowned kind := by
  cases kind with
  | serverConfiguration => exact hserver
  | databaseConnections =>
    show List.Forall₂ _ (cleared.unowned.rows _) (facts.unowned.rows _)
    rw [rows_unowned_databases, rows_unowned_databases, List.forall₂_map_left_iff,
      List.forall₂_map_right_iff]
    exact (h .databaseConnections).imp fun _ _ _ => rfl
  | serviceEndpoints | externalServiceCalls | messagingConnections | dataAssets | projectMetadata
  | securityConfiguration | classDescriptions | methodCalls =>
    exact (h.unowned.rowsRead _).imp fun _ _ _ => rfl

end Facts

/-! ## Empty columns that are read as they are -/

/-- A server with an empty protocol has another one when the protocol is missing. -/
theorem Fact.ServerConfiguration.effectiveProtocol_ne_of_missing {row before : ServerConfiguration}
    (hempty : before.protocol = some "") (hmissing : row.protocol = none) :
    row.effectiveProtocol ≠ before.effectiveProtocol := by
  rw [effectiveProtocol, effectiveProtocol, hempty, hmissing, Option.getD_some, Option.getD_none]
  cases row.sslEnabled <;> decide

namespace Synthesis

variable {facts cleared : Facts}

theorem packagesRelated_empty (p : String) : ClassName.packagesRelated p "" = true := by
  simp [ClassName.packagesRelated]

theorem ne_empty_of_mem_exposingClasses {className : String}
    (h : className ∈ exposingClasses facts) : className ≠ "" := by
  have hnamed := List.of_mem_filter (mem_of_mem_keepFirst h)
  simpa using hnamed

/-- An empty class is not registered, and it has no package, which is related to all packages. So it
belongs to the service that was registered first. -/
theorem resolve_empty (facts : Facts) :
    (registeredOwners facts).resolve "" = (exposingClasses facts).head?.map serviceId := by
  have hunknown : (registeredOwners facts).registered? "" = none := by
    rw [Owners.registered?, Option.map_eq_none_iff, List.find?_eq_none]
    intro entry hentry
    obtain ⟨className, hclass, rfl⟩ := List.mem_map.mp hentry
    simpa using ne_empty_of_mem_exposingClasses hclass
  have hpackage : ClassName.package "" = "" := by decide
  rw [Owners.resolve, hunknown, Option.none_or, Owners.byPackage?, Owners.findByPackage,
    Owners.findByPackage]
  simp only [hpackage, packagesRelated_empty, registeredOwners]
  cases exposingClasses facts <;> simp

/-! ## Documents -/

theorem isArchitectural_unowned (facts : Facts) :
    facts.unowned.isArchitectural = facts.isArchitectural := by
  apply isArchitectural_congr
  intro kind _
  by_cases hkind : kind = .databaseConnections
  · subst hkind
    rw [Facts.count, Facts.rows_unowned_databases, List.length_map, Facts.count]
  · rw [Facts.count, Facts.rows_unowned_of_ne facts hkind, Facts.count]

theorem offeredNodes_unowned (facts : Facts) (config : Config) :
    offeredNodes ⟨facts.unowned, config⟩ = offeredNodes ⟨facts, config⟩ := by
  apply List.flatMap_congr
  intro pass _
  cases pass with
  | databases =>
    rw [candidateNodes, candidateNodes, Facts.rows_unowned_databases, namedEntities,
      List.filter_map, List.map_map]
    rfl
  | system | services | dataAssets | webClient | externalServices | messaging | composition => rfl

/-- The nodes of a document do not depend on the classes of databases. -/
theorem nodes_synthesize_unowned (facts : Facts) (config : Config) :
    (synthesize facts.unowned config).map (·.nodes) =
      (synthesize facts config).map (·.nodes) := by
  unfold synthesize
  rw [isArchitectural_unowned]
  split
  · show some (finalDraft facts.unowned config).nodes = some (finalDraft facts config).nodes
    rw [nodes_finalDraft, nodes_finalDraft, offeredNodes_unowned]
  · rfl

theorem synthesize_congr_of_cleared (h : cleared.Cleared facts)
    (hverbatim : ∀ kind, cleared.SameVerbatim facts kind) (config : Config) :
    synthesize cleared config = synthesize facts config := by
  rw [← synthesize_essence cleared, h.essence_eq hverbatim, synthesize_essence]

/-- **Main theorem.** Clearing columns that were empty leaves the document as it is, unless they are
classes of a database or the protocol of the first server. Where it is classes of databases that are
cleared, the nodes at least stay as they are. -/
theorem synthesize_of_cleared (h : cleared.Cleared facts) (config : Config) :
    ((∀ kind, cleared.SameVerbatim facts kind) →
      synthesize cleared config = synthesize facts config) ∧
    (cleared.SameVerbatim facts .serverConfiguration →
      (synthesize cleared config).map (·.nodes) = (synthesize facts config).map (·.nodes)) := by
  refine ⟨fun hverbatim => synthesize_congr_of_cleared h hverbatim config, fun hserver => ?_⟩
  rw [← nodes_synthesize_unowned cleared,
    synthesize_congr_of_cleared h.unowned (h.sameVerbatim_unowned hserver),
    nodes_synthesize_unowned]

/-! ## A repository without a name -/

/-- Two services, and invoices that belong to the second one. -/
def invoices (repositoryClass databaseType : Option String) : Facts :=
  (Facts.empty.extend .serviceEndpoints
    [{ serviceClass := "shop.OrderController", httpMethod := "GET", path := "/orders",
       framework := "Spring" },
     { serviceClass := "billing.InvoiceController", httpMethod := "GET", path := "/invoices",
       framework := "Spring" }]).setTable .databaseConnections
    [{ entityName := "Invoice", entityClass := some "billing.Invoice", repositoryClass,
       databaseType }]

theorem invoices_cleared {repository repository' type type' : Option String}
    (hrepository : Cell.Cleared (Cell.ofText? repository') (Cell.ofText? repository))
    (htype : Cell.Cleared (Cell.ofText? type') (Cell.ofText? type)) :
    (invoices repository' type').Cleared (invoices repository type) :=
  Facts.cleared_setTable _
    (.cons (.cons (.same _) (.cons (.same _) (.cons hrepository (.cons (.same _)
      (.cons htype (.cons (.same _) .nil)))))) .nil)

/-- An empty type makes no difference, and an empty repository makes none to the nodes. -/
theorem synthesize_of_cleared_invoices :
    synthesize (invoices none none) .default = synthesize (invoices none (some "")) .default ∧
      ∃ document document', synthesize (invoices none none) .default = some document ∧
        synthesize (invoices (some "") none) .default = some document' ∧
        document.nodes = document'.nodes := by
  have htype : (invoices none none).Cleared (invoices none (some "")) :=
    invoices_cleared (.same _) .missing
  have hrepository : (invoices none none).Cleared (invoices (some "") none) :=
    invoices_cleared .missing (.same _)
  have hverbatim : ∀ kind, (invoices none none).SameVerbatim (invoices none (some "")) kind := by
    intro kind
    cases kind with
    | serviceEndpoints => exact .cons rfl (.cons rfl .nil)
    | databaseConnections => exact .cons rfl .nil
    | _ => exact .nil
  have harchitectural : ∀ repository, (invoices repository none).isArchitectural = true := by
    intro repository
    rfl
  have hnodes := (synthesize_of_cleared hrepository .default).2 .nil
  rw [synthesize_of_architectural (harchitectural none),
    synthesize_of_architectural (harchitectural (some ""))] at hnodes
  exact ⟨(synthesize_of_cleared htype .default).1 hverbatim, _, _,
    synthesize_of_architectural (harchitectural none),
    synthesize_of_architectural (harchitectural (some "")), Option.some.inj hnodes⟩

/-- The invoices belong to the first service when their repository has an empty name, and to their
own one when it has none. -/
theorem synthesize_of_cleared_repository :
    (invoices none none).Cleared (invoices (some "") none) ∧
      ∃ document document', synthesize (invoices (some "") none) .default = some document ∧
        synthesize (invoices none none) .default = some document' ∧
        document.relationships.map (·.id) = ["order-controller-to-invoice-db"] ∧
        document'.relationships.map (·.id) = ["invoice-controller-to-invoice-db"] := by
  refine ⟨invoices_cleared .missing (.same _), _, _,
    synthesize_of_architectural (by decide +kernel),
    synthesize_of_architectural (by decide +kernel), ?_, ?_⟩ <;>
  decide +kernel

end Synthesis

end ArchDoc
