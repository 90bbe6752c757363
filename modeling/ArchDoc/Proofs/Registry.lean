import ArchDoc.Proofs.FactTables
import ArchDoc.Snapshot
import Mathlib.Algebra.GroupWithZero.Nat
import Mathlib.Data.List.Basic

/-!
# Tables under keys

The type of facts says that the rows of a kind are rows of this kind. A registry says less: it lists
tables under keys, in the order of the keys, and a table knows by itself of which kind its rows are.
So a table could stand under the key of another kind. Read by that key it would show no rows, and
rows that are added by it would be lost without a word. It never comes to that: what is done to the
registry of facts gives the registry of the facts to which the same is done, and there each table
stands under its own kind.

Main definitions:

* `Table`, `Registry`: a table that knows its kind, and tables under keys.
* `Registry.extend`, `Registry.push`: rows that are added, and rows that are read from values.
* `Facts.registry`: the registry of facts.

Results:

* `changed_filterMap`: what the change of one table does to tables in order.
* `registry_extend`, `registry_push`, `registry_of_foldlM`: adding rows and reading a snapshot.
* `keyed_registry`: every table of the registry of facts has the kind that is its key.
* `rows_registry`, `count_registry`, `totalRows_registry`, `counts_registry`: such a registry tells
  what the facts tell.
-/

namespace ArchDoc

open ArchDoc.Fact

namespace Fact

/-! ## Tables -/

/-- A table that knows the kind of its rows. -/
structure Table where
  kind : Kind
  rows : List kind.Row

namespace Table

/-- The table of a kind without rows. -/
def empty (kind : Kind) : Table := ⟨kind, []⟩

/-- The rows of a table, if they are of a kind. -/
def rowsOf? (table : Table) (kind : Kind) : Option (List kind.Row) :=
  if h : table.kind = kind then some (h ▸ table.rows) else none

/-- A table with rows of a kind at the end. A table of another kind stays as it is. -/
def add (kind : Kind) (rows : List kind.Row) (table : Table) : Table :=
  if h : kind = table.kind then ⟨table.kind, table.rows ++ h ▸ rows⟩ else table

/-- A table with the row at the end that a value spells, if it spells one of the kind of the
table. -/
def push (table : Table) (item : Json) : Table :=
  ⟨table.kind, table.rows ++ (Record.ofJson? item).toList⟩

theorem rowsOf?_self (kind : Kind) (rows : List kind.Row) :
    rowsOf? ⟨kind, rows⟩ kind = some rows :=
  dif_pos rfl

theorem add_self (kind : Kind) (rows more : List kind.Row) :
    add kind more ⟨kind, rows⟩ = ⟨kind, rows ++ more⟩ :=
  dif_pos rfl

theorem foldl_push (kind : Kind) (rows : List kind.Row) (items : List Json) :
    items.foldl push ⟨kind, rows⟩ = ⟨kind, rows ++ Snapshot.readRows kind items⟩ := by
  induction items generalizing rows with
  | nil => rw [Snapshot.readRows, List.filterMap_nil, List.append_nil, List.foldl_nil]
  | cons item items ih =>
    rw [List.foldl_cons]
    unfold push Snapshot.readRows at ih ⊢
    rw [ih, List.filterMap_cons, List.append_assoc]
    cases (Record.ofJson? item : Option kind.Row) <;> rfl

end Table

end Fact

/-! ## Registries -/

/-- Tables under keys, in the order of the keys. -/
structure Registry where
  entries : List (Kind × Table)

namespace Registry

/-- No tables. -/
def empty : Registry := ⟨[]⟩

/-- The table under a key. -/
def table? (registry : Registry) (key : Kind) : Option Table :=
  (registry.entries.find? (·.1 == key)).map (·.2)

/-- Entries with the table under a key changed. If there is none, it is that of the key without
rows that is changed. -/
def changed (key : Kind) (f : Table → Table) : List (Kind × Table) → List (Kind × Table)
  | [] => [(key, f (.empty key))]
  | (other, table) :: rest =>
    if key.index < other.index then (key, f (.empty key)) :: (other, table) :: rest
    else if other = key then (key, f table) :: rest
    else (other, table) :: changed key f rest

/-- A registry with the table under a key changed. -/
def change (registry : Registry) (key : Kind) (f : Table → Table) : Registry :=
  ⟨changed key f registry.entries⟩

/-- A registry with rows of a kind added to the table under this kind. -/
def extend (registry : Registry) (kind : Kind) (rows : List kind.Row) : Registry :=
  registry.change kind (Table.add kind rows)

/-- A registry with one row of a kind added to the table under this kind. -/
def insert (registry : Registry) (kind : Kind) (row : kind.Row) : Registry :=
  registry.extend kind [row]

/-- A registry with the rows that values spell added to the table under a key. -/
def push (registry : Registry) (key : Kind) (items : List Json) : Registry :=
  registry.change key fun table => items.foldl Table.push table

/-- A registry with the rows of a member of a snapshot. -/
def readMember (registry : Registry) (member : String × Json) : Registry :=
  match Kind.ofName? member.1, member.2.arr? with
  | some kind, some items => registry.push kind items
  | _, _ => registry

/-- The registry of the members of a snapshot. -/
def ofMembers (members : List (String × Json)) : Registry :=
  members.foldl readMember empty

/-! ### What a registry tells -/

/-- The rows of a kind; none if the table under this kind is of another one. -/
def rows (registry : Registry) (kind : Kind) : List kind.Row :=
  ((registry.table? kind).bind (·.rowsOf? kind)).getD []

/-- The number of rows of the table under a key. -/
def count (registry : Registry) (key : Kind) : Nat :=
  ((registry.table? key).map (·.rows.length)).getD 0

/-- The number of rows of all tables. -/
def totalRows (registry : Registry) : Nat :=
  (registry.entries.map (·.2.rows.length)).sum

/-- The keys of the tables that have rows, with their numbers. -/
def counts (registry : Registry) : List (Kind × Nat) :=
  (registry.entries.map fun e => (e.1, e.2.rows.length)).filter fun c => 0 < c.2

/-- Every table has the kind under which it stands. -/
def Keyed (registry : Registry) : Prop :=
  ∀ e ∈ registry.entries, e.2.kind = e.1

/-! ## Tables in order -/

/-- A table under a key before all others is put in front of them. -/
theorem changed_of_before {key : Kind} {entries : List (Kind × Table)}
    (h : ∀ e ∈ entries, key.index < e.1.index) (f : Table → Table) :
    changed key f entries = (key, f (.empty key)) :: entries := by
  cases entries with
  | nil => rfl
  | cons e rest => exact if_pos (h e List.mem_cons_self)

/-- Of tables that stand in order under some keys, a change concerns the one under its key. -/
theorem changed_filterMap {key : Kind} {f : Table → Table} (g : Kind → Option Table)
    {keys : List Kind} (horder : keys.Pairwise (·.index < ·.index)) (hkey : key ∈ keys) :
    changed key f (keys.filterMap fun k => (g k).map (k, ·)) =
      keys.filterMap fun k =>
        (if k = key then some (f ((g key).getD (.empty key))) else g k).map (k, ·) := by
  induction keys with
  | nil => exact absurd hkey List.not_mem_nil
  | cons k keys ih =>
    obtain ⟨hbefore, horder⟩ := List.pairwise_cons.mp horder
    by_cases hk : k = key
    · subst hk
      -- behind the key nothing changes
      have hrest : (keys.filterMap fun other =>
          (if other = k then some (f ((g k).getD (.empty k))) else g other).map (other, ·)) =
            keys.filterMap fun other => (g other).map (other, ·) := by
        apply List.filterMap_congr
        intro other hother
        rw [if_neg]
        rintro rfl
        exact Nat.lt_irrefl _ (hbefore other hother)
      have hlater : ∀ e ∈ keys.filterMap fun other => (g other).map (other, ·),
          k.index < e.1.index := by
        intro e he
        obtain ⟨other, hother, hentry⟩ := List.mem_filterMap.mp he
        obtain ⟨table, _, rfl⟩ := Option.map_eq_some_iff.mp hentry
        exact hbefore other hother
      rw [List.filterMap_cons, List.filterMap_cons, if_pos rfl, hrest]
      cases g k with
      | none => exact changed_of_before hlater f
      | some table => simp [changed]
    · have hmem : key ∈ keys := (List.mem_cons.mp hkey).resolve_left (Ne.symm hk)
      have hnot : ¬ key.index < k.index := Nat.lt_asymm (hbefore key hmem)
      rw [List.filterMap_cons, List.filterMap_cons, if_neg hk, ← ih horder hmem]
      cases g k with
      | none => rfl
      | some table => simp [changed, hk, hnot]

theorem find?_filterMap (g : Kind → Option Table) {keys : List Kind} {key : Kind}
    (hkey : key ∈ keys) :
    (keys.filterMap fun k => (g k).map (k, ·)).find? (·.1 == key) = (g key).map (key, ·) := by
  induction keys with
  | nil => exact absurd hkey List.not_mem_nil
  | cons k keys ih =>
    rw [List.filterMap_cons]
    by_cases hk : k = key
    · subst hk
      cases hg : g k with
      | some table => simp
      | none =>
        dsimp only [Option.map_none]
        by_cases hagain : k ∈ keys
        · rw [ih hagain, hg, Option.map_none]
        · rw [List.find?_eq_none]
          intro e he
          obtain ⟨other, hother, hentry⟩ := List.mem_filterMap.mp he
          obtain ⟨table, _, rfl⟩ := Option.map_eq_some_iff.mp hentry
          simpa using fun heq : other = k => hagain (heq ▸ hother)
    · have hmem : key ∈ keys := (List.mem_cons.mp hkey).resolve_left (Ne.symm hk)
      cases g k with
      | none => exact ih hmem
      | some table =>
        rw [Option.map_some, List.find?_cons_of_neg (by simpa using hk)]
        exact ih hmem

end Registry

namespace Fact.Kind

theorem pairwise_index_all : all.Pairwise (·.index < ·.index) := by
  decide

end Fact.Kind

/-! ## The registry of facts -/

namespace Facts

/-- A table of facts with its kind. -/
def keptTable (facts : Facts) (kind : Kind) : Option Table :=
  (facts.table kind).map (Table.mk kind)

/-- The registry that holds each table of facts under its kind. -/
def registry (facts : Facts) : Registry :=
  ⟨Kind.all.filterMap fun kind => (facts.keptTable kind).map (kind, ·)⟩

variable {facts facts' : Facts}

theorem registry_empty : Facts.empty.registry = .empty :=
  rfl

/-- The table of a kind as it stands in a registry, or would if it were there. -/
theorem getD_keptTable (facts : Facts) (kind : Kind) :
    (facts.keptTable kind).getD (.empty kind) = ⟨kind, facts.rows kind⟩ := by
  unfold keptTable rows
  cases facts.table kind <;> rfl

/-- A change of the table under a key that gives its rows some rows at the end extends the
facts. -/
theorem registry_change (facts : Facts) (kind : Kind) (rows : List kind.Row) {f : Table → Table}
    (h : f ⟨kind, facts.rows kind⟩ = ⟨kind, facts.rows kind ++ rows⟩) :
    facts.registry.change kind f = (facts.extend kind rows).registry := by
  unfold registry Registry.change
  rw [Registry.changed_filterMap _ Kind.pairwise_index_all kind.mem_all]
  congr 1
  apply List.filterMap_congr
  intro other _
  congr 1
  split_ifs with hkind
  · subst hkind
    rw [getD_keptTable, h, keptTable, table_extend_self, Option.map_some]
  · rw [keptTable, keptTable, table_extend_of_ne (Ne.symm hkind)]

theorem registry_extend (facts : Facts) (kind : Kind) (rows : List kind.Row) :
    facts.registry.extend kind rows = (facts.extend kind rows).registry :=
  registry_change facts kind rows (Table.add_self kind _ _)

theorem registry_push (facts : Facts) (kind : Kind) (items : List Json) :
    facts.registry.push kind items =
      (facts.extend kind (Snapshot.readRows kind items)).registry :=
  registry_change facts kind _ (Table.foldl_push kind _ items)

/-- A member that is read into facts is read into their registry. -/
theorem registry_readMember {report report' : Snapshot.Report} {m : String × Json}
    (h : Snapshot.readMember (facts, report) m = .ok (facts', report')) :
    facts.registry.readMember m = facts'.registry := by
  unfold Snapshot.readMember at h
  unfold Registry.readMember
  cases hkind : Kind.ofName? m.1 with
  | none =>
    simp only [hkind, Except.ok.injEq, Prod.mk.injEq] at h
    rw [h.1]
  | some kind =>
    cases hitems : m.2.arr? with
    | none => simp [hkind, hitems] at h
    | some items =>
      simp only [hkind, hitems, Except.ok.injEq, Prod.mk.injEq] at h
      rw [← h.1]
      exact registry_push facts kind items

/-- Members that are read into facts are read into their registry. -/
theorem registry_of_foldlM {members : List (String × Json)} {report report' : Snapshot.Report}
    (h : members.foldlM Snapshot.readMember (facts, report) = .ok (facts', report')) :
    members.foldl Registry.readMember facts.registry = facts'.registry := by
  induction members generalizing facts report with
  | nil =>
    obtain ⟨rfl, -⟩ := Prod.mk.inj (Except.ok.inj h)
    rfl
  | cons m members ih =>
    rw [List.foldlM_cons] at h
    cases hread : Snapshot.readMember (facts, report) m with
    | error e =>
      rw [hread] at h
      exact nomatch h
    | ok state =>
      obtain ⟨facts₁, report₁⟩ := state
      rw [hread] at h
      rw [List.foldl_cons, registry_readMember hread]
      exact ih h

/-! ## What the registry of facts tells -/

theorem keyed_registry (facts : Facts) : facts.registry.Keyed := by
  intro e he
  obtain ⟨kind, _, hentry⟩ := List.mem_filterMap.mp he
  obtain ⟨table, htable, rfl⟩ := Option.map_eq_some_iff.mp hentry
  obtain ⟨rows, _, rfl⟩ := Option.map_eq_some_iff.mp htable
  rfl

/-- Otherwise rows could be lost: here they are added by a key under which methods stand. -/
example :
    let astray : Registry := ⟨[(.dataAssets, .empty .methodCalls)]⟩
    let row : Fact.DataAsset := { simpleName := "Order", assetType := "Entity" }
    (astray.extend .dataAssets [row]).totalRows = 0 := by
  decide

theorem table?_registry (facts : Facts) (kind : Kind) :
    facts.registry.table? kind = facts.keptTable kind := by
  unfold registry Registry.table?
  rw [Registry.find?_filterMap _ kind.mem_all, Option.map_map]
  exact Option.map_id'

theorem rows_registry (facts : Facts) (kind : Kind) :
    facts.registry.rows kind = facts.rows kind := by
  unfold Registry.rows
  rw [table?_registry, keptTable, rows]
  cases facts.table kind with
  | none => rfl
  | some rows => exact congrArg (Option.getD · []) (Table.rowsOf?_self kind rows)

theorem count_registry (facts : Facts) (kind : Kind) :
    facts.registry.count kind = facts.count kind := by
  unfold Registry.count count
  rw [table?_registry, keptTable, rows]
  cases facts.table kind <;> rfl

theorem totalRows_eq_sum (facts : Facts) :
    facts.totalRows = (Kind.all.map facts.count).sum := by
  unfold totalRows
  rw [List.sum_eq_foldl, List.foldl_map]

theorem totalRows_registry (facts : Facts) : facts.registry.totalRows = facts.totalRows := by
  rw [totalRows_eq_sum]
  unfold Registry.totalRows registry
  induction Kind.all with
  | nil => rfl
  | cons kind kinds ih =>
    rw [List.filterMap_cons, List.map_cons, List.sum_cons, ← ih, count, rows, keptTable]
    cases facts.table kind with
    | none => exact (Nat.zero_add _).symm
    | some rows => rfl

theorem counts_registry (facts : Facts) : facts.registry.counts = facts.counts := by
  unfold Registry.counts counts registry
  induction Kind.all with
  | nil => rfl
  | cons kind kinds ih =>
    rw [List.filterMap_cons, List.map_cons, List.filter_cons, ← ih, count, rows, keptTable]
    cases facts.table kind with
    | none => rfl
    | some rows => exact List.filter_cons

end Facts

end ArchDoc
