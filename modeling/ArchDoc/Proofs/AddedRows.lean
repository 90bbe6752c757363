import ArchDoc.Proofs.Registry
import Mathlib.Algebra.BigOperators.Group.List.Basic

/-!
# Rows that are added to facts

Facts grow by additions of one row or several to the table of a kind. Whatever is added, a kind has
the rows that it had and then those that were added, in the order of the additions; and what else
facts tell, the numbers of rows and whether they justify a document, is about these rows. The
registry of the facts goes through the same additions and tells the same, so no row is lost on the
way.

Main definitions:

* `Addition`, `Facts.addAll`, `Registry.addAll`: the additions, and what they make of facts and of a
  registry.
* `Begins`: facts without tables or from a snapshot, with their registry.
* `Registry.Shows`, `Facts.TellsRows`: what a registry and facts tell.

Results:

* `rows_add`, `rows_addAll`: the rows after one addition and after all of them.
* `registry_add`, `registry_addAll`: the same for the registry.
* `tellsRows`: what facts tell is about their rows.
* `rows_kept_by_additions`: all of it, from any beginning.
-/

namespace ArchDoc

open ArchDoc.Fact

/-! ## Additions -/

/-- One row that is added to those of its kind, or a list of rows, which may be empty. It makes no
difference whether facts are still being put together or are there already. -/
inductive Addition where
  | insert (kind : Kind) (row : kind.Row)
  | extend (kind : Kind) (rows : List kind.Row)

namespace Addition

/-- The kind of the rows that are added. -/
def kind : Addition → Kind
  | insert kind _ => kind
  | extend kind _ => kind

/-- The rows that are added. -/
def rows : (a : Addition) → List a.kind.Row
  | insert _ row => [row]
  | extend _ rows => rows

/-- The rows that are added to those of a kind. -/
def rowsOf (a : Addition) (kind : Kind) : List kind.Row :=
  if h : a.kind = kind then h ▸ a.rows else []

end Addition

namespace Registry

/-- The registry after an addition. -/
def add (registry : Registry) : Addition → Registry
  | .insert kind row => registry.insert kind row
  | .extend kind rows => registry.extend kind rows

/-- The registry after additions. -/
def addAll (registry : Registry) (additions : List Addition) : Registry :=
  additions.foldl add registry

end Registry

namespace Facts

/-- The facts after an addition. -/
def add (facts : Facts) : Addition → Facts
  | .insert kind row => facts.insert kind row
  | .extend kind rows => facts.extend kind rows

/-- The facts after additions. -/
def addAll (facts : Facts) (additions : List Addition) : Facts :=
  additions.foldl add facts

/-! ## Rows -/

theorem add_eq_extend (facts : Facts) (a : Addition) :
    facts.add a = facts.extend a.kind a.rows := by
  cases a <;> rfl

/-- An addition puts its rows behind those of their kind, and none to another kind. -/
theorem rows_add (facts : Facts) (a : Addition) (kind : Kind) :
    (facts.add a).rows kind = facts.rows kind ++ a.rowsOf kind := by
  rw [add_eq_extend, extend, Addition.rowsOf]
  by_cases h : a.kind = kind
  · subst h
    rw [rows_setTable_self, dif_pos rfl]
  · rw [rows_setTable_of_ne h, dif_neg h, List.append_nil]

/-- Additions put their rows behind those that were there, in order. -/
theorem rows_addAll (facts : Facts) (additions : List Addition) (kind : Kind) :
    (facts.addAll additions).rows kind = facts.rows kind ++ additions.flatMap (·.rowsOf kind) := by
  induction additions generalizing facts with
  | nil => exact (List.append_nil _).symm
  | cons a additions ih =>
    calc ((facts.add a).addAll additions).rows kind
        = (facts.add a).rows kind ++ additions.flatMap (·.rowsOf kind) := ih _
      _ = facts.rows kind ++ (a :: additions).flatMap (·.rowsOf kind) := by
          rw [rows_add, List.flatMap_cons, List.append_assoc]

theorem registry_add (facts : Facts) (a : Addition) :
    facts.registry.add a = (facts.add a).registry := by
  cases a with
  | insert kind row => exact registry_extend facts kind [row]
  | extend kind rows => exact registry_extend facts kind rows

theorem registry_addAll (facts : Facts) (additions : List Addition) :
    facts.registry.addAll additions = (facts.addAll additions).registry := by
  induction additions generalizing facts with
  | nil => rfl
  | cons a additions ih =>
    show (facts.registry.add a).addAll additions = ((facts.add a).addAll additions).registry
    rw [registry_add, ih]

/-! ## What facts tell -/

/-- What facts tell is about their rows: which is the first of a kind, how many there are, of which
kinds there are some, and whether there are any that justify a document. -/
structure TellsRows (facts : Facts) : Prop where
  first : ∀ kind, facts.first? kind = (facts.rows kind).head?
  count : ∀ kind, facts.count kind = (facts.rows kind).length
  totalRows : facts.totalRows = (Kind.all.map fun kind => (facts.rows kind).length).sum
  counts : facts.counts = (Kind.all.filter fun kind => facts.rows kind ≠ []).map fun kind =>
    (kind, (facts.rows kind).length)
  sum_counts : (facts.counts.map Prod.snd).sum = facts.totalRows
  isEmpty : facts.isEmpty = true ↔ ∀ kind, facts.rows kind = []
  isArchitectural : facts.isArchitectural = true ↔
    facts.rows .serviceEndpoints ≠ [] ∨ facts.rows .databaseConnections ≠ [] ∨
      facts.rows .externalServiceCalls ≠ [] ∨ facts.rows .messagingConnections ≠ []

theorem counts_eq (facts : Facts) :
    facts.counts = (Kind.all.filter fun kind => facts.rows kind ≠ []).map fun kind =>
      (kind, (facts.rows kind).length) := by
  unfold counts count
  rw [List.filter_map]
  congr 1
  apply List.filter_congr
  intro kind _
  simp [List.length_pos_iff]

/-- Kinds without rows add nothing to the number of all rows. -/
theorem sum_counts (facts : Facts) : (facts.counts.map Prod.snd).sum = facts.totalRows := by
  rw [totalRows_eq_sum]
  unfold counts
  induction Kind.all with
  | nil => rfl
  | cons kind kinds ih =>
    rw [List.map_cons, List.map_cons, List.sum_cons, List.filter_cons]
    split_ifs with h
    · rw [List.map_cons, List.sum_cons, ih]
    · have hzero : facts.count kind = 0 := by simpa using h
      rw [ih, hzero, Nat.zero_add]

theorem isEmpty_iff (facts : Facts) :
    facts.isEmpty = true ↔ ∀ kind, facts.rows kind = [] := by
  unfold isEmpty
  rw [beq_iff_eq, totalRows_eq_sum, List.sum_eq_zero_iff_forall_eq_nat]
  constructor
  · intro h kind
    exact List.length_eq_zero_iff.mp (h _ (List.mem_map_of_mem kind.mem_all))
  · intro h n hn
    obtain ⟨kind, _, rfl⟩ := List.mem_map.mp hn
    exact List.length_eq_zero_iff.mpr (h kind)

theorem isArchitectural_iff_rows (facts : Facts) :
    facts.isArchitectural = true ↔
      facts.rows .serviceEndpoints ≠ [] ∨ facts.rows .databaseConnections ≠ [] ∨
        facts.rows .externalServiceCalls ≠ [] ∨ facts.rows .messagingConnections ≠ [] := by
  rw [isArchitectural_iff]
  constructor
  · rintro ⟨kind, hkind, hrows⟩
    cases kind with
    | serviceEndpoints => exact .inl hrows
    | databaseConnections => exact .inr (.inl hrows)
    | externalServiceCalls => exact .inr (.inr (.inl hrows))
    | messagingConnections => exact .inr (.inr (.inr hrows))
    | _ => exact nomatch hkind
  · rintro (h | h | h | h)
    · exact ⟨_, rfl, h⟩
    · exact ⟨_, rfl, h⟩
    · exact ⟨_, rfl, h⟩
    · exact ⟨_, rfl, h⟩

theorem tellsRows (facts : Facts) : facts.TellsRows where
  first _ := rfl
  count _ := rfl
  totalRows := totalRows_eq_sum facts
  counts := counts_eq facts
  sum_counts := sum_counts facts
  isEmpty := isEmpty_iff facts
  isArchitectural := isArchitectural_iff_rows facts

end Facts

/-! ## From the beginning -/

/-- A registry has each table under its kind and tells what facts tell. -/
structure Registry.Shows (registry : Registry) (facts : Facts) : Prop where
  keyed : registry.Keyed
  rows : ∀ kind, registry.rows kind = facts.rows kind
  count : ∀ kind, registry.count kind = facts.count kind
  totalRows : registry.totalRows = facts.totalRows
  counts : registry.counts = facts.counts

theorem Facts.registry_shows (facts : Facts) : facts.registry.Shows facts where
  keyed := keyed_registry facts
  rows := rows_registry facts
  count := count_registry facts
  totalRows := totalRows_registry facts
  counts := counts_registry facts

/-- Facts as they begin, with their registry: without tables, or as they are read from a
snapshot. -/
inductive Begins : Facts → Registry → Prop where
  | empty : Begins .empty .empty
  | snapshot {members : List (String × Json)} {facts : Facts} {report : Snapshot.Report}
      (h : Snapshot.ofJson (.obj members) = .ok (facts, report)) :
      Begins facts (.ofMembers members)

theorem Begins.eq_registry {facts : Facts} {registry : Registry} (h : Begins facts registry) :
    registry = facts.registry := by
  cases h with
  | empty => exact Facts.registry_empty.symm
  | snapshot h => exact Facts.registry_of_foldlM h

/-- **Main theorem.** Facts that begin without tables or are read from a snapshot, and then go
through any additions, have of each kind the rows that they began with and behind them those that
were added, in order. All that they tell is about these rows, and a registry that begins with them
and goes through the same additions has every table under its own kind and tells the same. -/
theorem rows_kept_by_additions {start : Facts} {registry : Registry} (h : Begins start registry)
    (additions : List Addition) :
    (∀ kind, (start.addAll additions).rows kind =
        start.rows kind ++ additions.flatMap (·.rowsOf kind)) ∧
      (start.addAll additions).TellsRows ∧
      (registry.addAll additions).Shows (start.addAll additions) := by
  refine ⟨start.rows_addAll additions, (start.addAll additions).tellsRows, ?_⟩
  rw [h.eq_registry, Facts.registry_addAll]
  exact (start.addAll additions).registry_shows

/-- A snapshot with a table without rows, one with a row that cannot be read, and a name that is no
kind. -/
def sparseSnapshot : List (String × Json) :=
  [("data-assets", .arr [.null, .obj [("asset_type", .str "Entity"), ("simple_name", .str "Order")]]),
    ("method-calls", .arr []), ("services", .null)]

/-- Rows of two kinds are added in turn, and none of a third one. -/
theorem rows_kept_by_additions_sparseSnapshot :
    ∃ start report, Snapshot.ofJson (.obj sparseSnapshot) = .ok (start, report) ∧
      Begins start (.ofMembers sparseSnapshot) ∧
      let additions : List Addition :=
        [.insert .projectMetadata { artifactId := "shop" }, .extend .messagingConnections [],
          .extend .dataAssets [{ simpleName := "Invoice", assetType := "Record" },
            { simpleName := "Order", assetType := "Record" }],
          .insert .dataAssets { simpleName := "Bill", assetType := "Entity" }]
      let facts := start.addAll additions
      let kept := (Registry.ofMembers sparseSnapshot).addAll additions
      (facts.rows .dataAssets).map (·.simpleName) = ["Order", "Invoice", "Order", "Bill"] ∧
        kept.counts = [(.dataAssets, 4), (.projectMetadata, 1)] ∧
        kept.Keyed ∧ kept.entries.length = 4 ∧ facts.isArchitectural = false := by
  have hbegins : Begins _ (.ofMembers sparseSnapshot) := .snapshot rfl
  obtain ⟨hrows, htells, hshows⟩ := rows_kept_by_additions hbegins
    [.insert .projectMetadata { artifactId := "shop" }, .extend .messagingConnections [],
      .extend .dataAssets [{ simpleName := "Invoice", assetType := "Record" },
        { simpleName := "Order", assetType := "Record" }],
      .insert .dataAssets { simpleName := "Bill", assetType := "Entity" }]
  refine ⟨_, _, rfl, hbegins, ?_, ?_, hshows.keyed, ?_, ?_⟩
  · rw [hrows]
    decide +kernel
  · decide +kernel
  · decide +kernel
  · decide +kernel

end ArchDoc
