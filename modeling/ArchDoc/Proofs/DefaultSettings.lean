import ArchDoc.Proofs.DefectiveFiles
import ArchDoc.Proofs.RecordTexts
import Mathlib.Data.Finset.Dedup
import Mathlib.Data.Finset.Insert

/-!
# Settings over their defaults

A record of settings may leave out any of them, and what it leaves out is the default. So the
settings that a record stands for are the defaults overlaid with what it gives: by name in an
object, by place in an array. No default ever stands in for what is given and wrong: such a record
is refused, whether it is a value or a text.

Main definitions:

* `Synthesis.Config.overlay`, `Lifecycle.Config.overlay`: the defaults but for fields of some names.
* `Record.Gives`: the values that give some fields of a record.
* `RecordReader.Misfit`: the values with a field that is not what it should be.
* `Record.Overlays`: what all of this has to do with the columns of a type, said once for each type.
* `Record.ReadsOverDefaults`: the settings of all these values, and of the texts that spell them.

Results:

* `RecordReader.accepts_iff`: what a field accepts.
* `Record.Overlays.cells?_of_gives`: the cells of a value that gives some fields.
* `Record.Overlays.isRecord_of_gives`, `RecordReader.not_isRecord_of_misfit`: the values that can
  and cannot be read from a text.
* `configs_read_over_defaults`: settings are read over their defaults.
-/

namespace ArchDoc

/-! ## Overlays -/

/-- The defaults, but for the fields of some names. -/
def Synthesis.Config.overlay (names : Finset String) (config : Config) : Config where
  schema := if "schema" ∈ names then config.schema else default.schema
  defaultProtocol :=
    if "default_protocol" ∈ names then config.defaultProtocol else default.defaultProtocol
  defaultPort := if "default_port" ∈ names then config.defaultPort else default.defaultPort
  endpointSummaryLimit :=
    if "endpoint_summary_limit" ∈ names then config.endpointSummaryLimit
    else default.endpointSummaryLimit

/-- The defaults, but for the fields of some names. -/
def Lifecycle.Config.overlay (names : Finset String) (config : Config) : Config where
  path := if "path" ∈ names then config.path else default.path
  maxCycles := if "max_cycles" ∈ names then config.maxCycles else default.maxCycles

/-! ## What fields hold -/

namespace Cell

theorem isSome_natural_iff {bound : Nat} {v : Json} :
    (natural bound (some v)).isSome = true ↔ ∃ n : Nat, n < bound ∧ v = .int n := by
  cases v with
  | int n =>
    unfold natural
    dsimp only
    split_ifs with h
    · refine iff_of_true rfl ⟨n.toNat, by omega, ?_⟩
      rw [Int.toNat_of_nonneg h.1]
    · refine iff_of_false nofun ?_
      rintro ⟨m, hm, heq⟩
      obtain rfl := Json.int.inj heq
      omega
  | null | bool _ | real _ | str _ | arr _ | obj _ =>
    exact iff_of_false nofun fun ⟨_, _, heq⟩ => nomatch heq

theorem count_toNat (n : UInt64) : Cell.count (some (.int n.toNat)) = some n := by
  have hn : (n.toNat : Int) < UInt64.size := by exact_mod_cast n.toNat_lt
  unfold Cell.count Cell.natural
  dsimp only
  rw [if_pos ⟨Int.natCast_nonneg _, hn⟩, Int.toNat_natCast, Option.map_some, UInt64.ofNat_toNat]

/-- A cell that may have been left out is read as what it holds or as the default. -/
theorem orDefault_ite {α : Type} {read : Option Json → Option α} {v : Json} {a : α}
    (hread : read (some v) = some a) (default : α) (given : Prop) [Decidable given] :
    orDefault read default (if given then some v else none) =
      some (if given then a else default) := by
  split_ifs
  · exact hread
  · rfl

end Cell

/-- No name stands twice among the members, as is the case for every object outside of texts. -/
def Json.NamesDiffer : Json → Prop
  | .obj members => (members.map Prod.fst).Nodup
  | _ => True

namespace RecordReader

/-- The values that a column may hold: a text, or an integer within its bounds. -/
def Scalar.Allows : Scalar → Json → Prop
  | text, v => ∃ s, v = .str s
  | port, v => ∃ n : Nat, n < 2 ^ 16 ∧ v = .int n
  | count, v => ∃ n : Nat, n < 2 ^ 64 ∧ v = .int n

theorem accepts_iff {scalar : Scalar} {v : Json} : scalar.accepts v = true ↔ scalar.Allows v := by
  cases scalar with
  | text => cases v <;> simp [Scalar.accepts, Scalar.Allows, Cell.text]
  | port =>
    show (Cell.port (some v)).isSome = true ↔ _
    rw [Cell.port, Option.isSome_map, Cell.isSome_natural_iff]
    rfl
  | count =>
    show (Cell.count (some v)).isSome = true ↔ _
    rw [Cell.count, Option.isSome_map, Cell.isSome_natural_iff]
    rfl

/-- A field is there, as a member or as an item, and is not what it may be. -/
inductive Misfit (fields : List Field) : Json → Prop where
  | member {members : List (String × Json)} {field : Field} {v : Json} (hfield : field ∈ fields)
      (hmember : (field.name, v) ∈ members) (hv : ¬ field.scalar.Allows v) :
      Misfit fields (.obj members)
  | item {items : List Json} {i : Nat} {field : Field} {v : Json} (hfield : fields[i]? = some field)
      (hitem : items[i]? = some v) (hv : ¬ field.scalar.Allows v) : Misfit fields (.arr items)

variable {fields : List Field}

/-- Of fields with different names, each one is the field of its name. -/
theorem field?_of_mem (hdistinct : (fields.map (·.name)).Nodup) {field : Field}
    (h : field ∈ fields) : field? fields field.name = some field := by
  obtain ⟨found, hfound⟩ := Option.isSome_iff_exists.mp
    (isSome_field?_iff.mpr (List.mem_map_of_mem (f := (·.name)) h))
  have hname : found.name = field.name := by simpa using List.find?_some hfound
  rw [hfound, List.inj_on_of_nodup_map hdistinct (List.mem_of_find?_eq_some hfound) h hname]

theorem not_isRecord_of_misfit (hdistinct : (fields.map (·.name)).Nodup) {v : Json}
    (h : Misfit fields v) : ¬ IsRecord fields v := by
  intro hrecord
  cases h with
  | member hfield hmember hv =>
    cases hrecord with
    | object hfit =>
      exact hv (accepts_iff.mp (hfit.fit _ hmember _ (field?_of_mem hdistinct hfield)))
  | item hfield hitem hv =>
    cases hrecord with
    | array _ hfit => exact hv (accepts_iff.mp (hfit _ _ _ hfield hitem))

end RecordReader

/-! ## Records that give some fields -/

namespace Record

open RecordReader

variable {α : Type} [Record α]

/-- The cells of a record, without those of columns that are not among the names. -/
def givenCells (names : Finset String) (a : α) : List (Option Json) :=
  List.zipWith (fun column v => if column.name ∈ names then some v else none)
    (columns α) (toCells a)

/-- The cells of a record, each with the name of its column. -/
def namedCells (a : α) : List (String × Json) :=
  ((columns α).map (·.name)).zip (toCells a)

/-- The values that give the columns of some names as they are in a record and leave out all others:
an object with these members in any order and any members that are no columns, or an array of the
first columns. -/
inductive Gives (a : α) : Finset String → Json → Prop where
  | object {names : Finset String} {members : List (String × Json)}
      (h : (members.filter fun m => m.1 ∈ (columns α).map (·.name)).Perm
        ((namedCells a).filter fun m => m.1 ∈ names)) :
      Gives a names (.obj members)
  | array (k : Nat) :
      Gives a (((columns α).map (·.name)).take k).toFinset (.arr ((toCells a).take k))

variable (α) in
/-- The columns of a type are its fields, each with a default, and a record is read from some of its
cells as its overlay over the defaults. -/
structure Overlays (fields : List Field) (overlay : Finset String → α → α) : Prop
    extends Settings.Checks α fields where
  nonempty : fields ≠ []
  distinct : (fields.map (·.name)).Nodup
  hasDefault : ∀ column ∈ columns α, column.hasDefault = true
  length_toCells : ∀ a : α, (toCells a).length = (columns α).length
  ofCells_given : ∀ names (a : α), ofCells (givenCells names a) = some (overlay names a)
  overlay_all : ∀ (names : Finset String) (a : α), (∀ column ∈ columns α, column.name ∈ names) →
    overlay names a = a

variable {fields : List Field} {overlay : Finset String → α → α}

theorem Overlays.length_columns (h : Overlays α fields overlay) :
    (columns α).length = fields.length := by
  simpa using congrArg List.length h.names

theorem Overlays.distinct_columns (h : Overlays α fields overlay) :
    ((columns α).map (·.name)).Nodup :=
  h.names ▸ h.distinct

theorem Overlays.exists_column (h : Overlays α fields overlay) {i : Nat} {field : Field}
    (hfield : fields[i]? = some field) :
    ∃ column, (columns α)[i]? = some column ∧ column.name = field.name := by
  have hname := congrArg (·[i]?) h.names
  simpa [hfield] using hname

theorem getElem?_givenCells {names : Finset String} {a : α} {i : Nat} {column : Column} {v : Json}
    (hcolumn : (columns α)[i]? = some column) (hv : (toCells a)[i]? = some v) :
    (givenCells names a)[i]? = some (if column.name ∈ names then some v else none) := by
  rw [givenCells, List.getElem?_zipWith, hcolumn, hv]

theorem Overlays.length_givenCells (h : Overlays α fields overlay) (names : Finset String) (a : α) :
    (givenCells names a).length = (columns α).length := by
  rw [givenCells, List.length_zipWith, h.length_toCells, Nat.min_self]

/-- Cells that are there for the columns of some names are those of a record. -/
theorem Overlays.eq_givenCells (h : Overlays α fields overlay) {names : Finset String} {a : α}
    {cells : List (Option Json)} (hlength : cells.length = (columns α).length)
    (hcells : ∀ (i : Nat) (column : Column) (v : Json), (columns α)[i]? = some column →
      (toCells a)[i]? = some v → cells[i]? = some (if column.name ∈ names then some v else none)) :
    cells = givenCells names a := by
  apply List.ext_getElem?
  intro i
  by_cases hi : i < (columns α).length
  · have hcolumn := List.getElem?_eq_getElem hi
    have hv := List.getElem?_eq_getElem ((h.length_toCells a).symm ▸ hi)
    rw [hcells i _ _ hcolumn hv, getElem?_givenCells hcolumn hv]
  · rw [List.getElem?_eq_none (by omega),
      List.getElem?_eq_none (by rw [h.length_givenCells]; omega)]

theorem mem_namedCells_iff {a : α} {m : String × Json} :
    m ∈ namedCells a ↔ ∃ (i : Nat) (column : Column), (columns α)[i]? = some column ∧
      column.name = m.1 ∧ (toCells a)[i]? = some m.2 := by
  simp only [namedCells, List.mem_iff_getElem?, List.getElem?_zip_eq_some, List.getElem?_map,
    Option.map_eq_some_iff]
  constructor
  · rintro ⟨i, ⟨column, hcolumn, hname⟩, hv⟩
    exact ⟨i, column, hcolumn, hname, hv⟩
  · rintro ⟨i, column, hcolumn, hname, hv⟩
    exact ⟨i, ⟨column, hcolumn, hname⟩, hv⟩

theorem Overlays.map_fst_namedCells (h : Overlays α fields overlay) (a : α) :
    (namedCells a).map Prod.fst = (columns α).map (·.name) :=
  List.map_fst_zip (by rw [List.length_map, h.length_toCells])

/-- The member of a column is there if it is given, and is the cell of the column then. -/
theorem Overlays.member?_of_gives (h : Overlays α fields overlay) {a : α} {names : Finset String}
    {members : List (String × Json)}
    (hgives : (members.filter fun m => m.1 ∈ (columns α).map (·.name)).Perm
      ((namedCells a).filter fun m => m.1 ∈ names))
    {column : Column} {v : Json} (hcolumn : (column.name, v) ∈ namedCells a) :
    Json.member? column.name members = if column.name ∈ names then some v else none := by
  have hdistinct : ((namedCells a).map Prod.fst).Nodup :=
    h.map_fst_namedCells a ▸ h.distinct_columns
  have hknown : column.name ∈ (columns α).map (·.name) :=
    h.map_fst_namedCells a ▸ List.mem_map_of_mem (f := Prod.fst) hcolumn
  have hgiven : (((namedCells a).filter fun m => m.1 ∈ names).map Prod.fst).Nodup :=
    hdistinct.sublist (List.filter_sublist.map _)
  rw [← Json.member?_filter (p := fun name => decide (name ∈ (columns α).map (·.name)))
      (decide_eq_true hknown),
    ← Json.member?_perm hgives.symm hgiven]
  split_ifs with hname
  · rw [Json.member?_filter (p := fun name => decide (name ∈ names)) (decide_eq_true hname)]
    exact Json.member?_of_mem hdistinct hcolumn
  · refine Json.member?_of_not_mem fun hmem => hname ?_
    obtain ⟨m, hm, hsame⟩ := List.mem_map.mp hmem
    exact hsame ▸ of_decide_eq_true (List.mem_filter.mp hm).2

/-- Of columns with different names, one stands among the first ones exactly if its name does. -/
theorem Overlays.mem_take_iff (h : Overlays α fields overlay) {i : Nat} {column : Column}
    (hcolumn : (columns α)[i]? = some column) (k : Nat) :
    column.name ∈ ((columns α).map (·.name)).take k ↔ i < k := by
  have hname : ((columns α).map (·.name))[i]? = some column.name := by
    rw [List.getElem?_map, hcolumn, Option.map_some]
  rw [List.mem_iff_getElem?]
  constructor
  · rintro ⟨j, hj⟩
    rw [List.getElem?_take] at hj
    split_ifs at hj with hjk
    have hlt := (List.getElem?_eq_some_iff.mp hname).1
    have hsame := (List.getElem?_inj hlt h.distinct_columns).mp (hname.trans hj.symm)
    exact hsame ▸ hjk
  · intro hi
    exact ⟨i, by rw [List.getElem?_take_of_lt hi, hname]⟩

theorem cells?_array {columns : List Column} {items : List Json}
    (hlength : items.length ≤ columns.length)
    (hdefault : ∀ column ∈ columns, column.hasDefault = true) :
    cells? columns (.arr items) =
      some (items.map some ++ (columns.drop items.length).map fun _ => none) :=
  if_pos ⟨hlength, List.all_eq_true.mpr fun column h =>
    hdefault column (List.mem_of_mem_drop h)⟩

/-- The cells of a value that gives some fields. -/
theorem Overlays.cells?_of_gives (h : Overlays α fields overlay) {a : α} {names : Finset String}
    {v : Json} (hgives : Gives a names v) : cells? (columns α) v = some (givenCells names a) := by
  cases hgives with
  | object hmembers =>
    refine congrArg some (h.eq_givenCells (List.length_map _) fun i column v hcolumn hv => ?_)
    rw [List.getElem?_map, hcolumn, Option.map_some]
    refine congrArg some (h.member?_of_gives hmembers ?_)
    exact mem_namedCells_iff.mpr ⟨i, column, hcolumn, rfl, hv⟩
  | array k =>
    have hlength : ((toCells a).take k).length = min k (columns α).length := by
      rw [List.length_take, h.length_toCells]
    rw [cells?_array (by omega) h.hasDefault]
    refine congrArg some (h.eq_givenCells ?_ fun i column v hcolumn hv => ?_)
    · rw [List.length_append, List.length_map, List.length_map, List.length_drop]
      omega
    · simp only [List.mem_toFinset, h.mem_take_iff hcolumn]
      have hi := (List.getElem?_eq_some_iff.mp hcolumn).1
      rw [List.getElem?_append, List.length_map, hlength]
      split_ifs with hbefore hk hk
      · rw [List.getElem?_map, List.getElem?_take_of_lt hk, hv, Option.map_some]
      · omega
      · omega
      · rw [List.getElem?_map, List.getElem?_drop, Nat.add_sub_cancel' (Nat.le_of_not_lt hbefore),
          hcolumn, Option.map_some]

/-- Cells that are there are accepted by their fields, or no record is read. -/
theorem Overlays.accepts_of_ofCells (h : Overlays α fields overlay) {cells : List (Option Json)}
    (hlength : cells.length = (columns α).length) {a : α} (hcells : ofCells cells = some a)
    {i : Nat} {field : Field} {v : Json} (hfield : fields[i]? = some field)
    (hcell : cells[i]? = some (some v)) : field.scalar.accepts v = true := by
  have hsome := h.read cells (hlength.trans h.length_columns)
  rw [hcells, Option.isSome_some, eq_comm, List.all_eq_true] at hsome
  exact hsome (field, some v)
    (List.mem_of_getElem? (List.getElem?_zip_eq_some.mpr ⟨hfield, hcell⟩))

/-- The cells of a record are accepted by its fields. -/
theorem Overlays.accepts_toCells (h : Overlays α fields overlay) {a : α} {i : Nat} {field : Field}
    {v : Json} (hfield : fields[i]? = some field) (hv : (toCells a)[i]? = some v) :
    field.scalar.accepts v = true := by
  obtain ⟨column, hcolumn, _⟩ := h.exists_column hfield
  refine h.accepts_of_ofCells (h.length_givenCells {column.name} a)
    (h.ofCells_given {column.name} a) hfield ?_
  rw [getElem?_givenCells hcolumn hv, if_pos (Finset.mem_singleton_self _)]

/-! ## What can be read -/

theorem Overlays.accepts_of_mem_namedCells (h : Overlays α fields overlay) {a : α}
    {m : String × Json} (hm : m ∈ namedCells a) {field : Field}
    (hfield : field? fields m.1 = some field) : field.scalar.accepts m.2 = true := by
  obtain ⟨i, column, hcolumn, hname, hv⟩ := mem_namedCells_iff.mp hm
  obtain ⟨other, hother, hsame⟩ : ∃ other, fields[i]? = some other ∧ other.name = m.1 := by
    have hnames := congrArg (·[i]?) h.names
    simpa [hcolumn, hname, eq_comm] using hnames
  have hfound := field?_of_mem h.distinct (List.mem_of_getElem? hother)
  rw [hsame, hfield] at hfound
  obtain rfl := Option.some.inj hfound
  exact h.accepts_toCells hother hv

theorem Overlays.knownMembers_eq (h : Overlays α fields overlay) (members : List (String × Json)) :
    knownMembers fields members = members.filter fun m => m.1 ∈ (columns α).map (·.name) := by
  refine List.filter_congr fun m _ => ?_
  rw [h.names, Bool.eq_iff_iff, isSome_field?_iff, decide_eq_true_iff]

/-- What gives some fields of a record is a record. -/
theorem Overlays.isRecord_of_gives (h : Overlays α fields overlay) {a : α} {names : Finset String}
    {v : Json} (hgives : Gives a names v) : IsRecord fields v := by
  cases hgives with
  | object hmembers =>
    rw [← h.knownMembers_eq] at hmembers
    refine .object ⟨fun m hm field hfield => ?_, ?_⟩
    · have hknown := mem_knownMembers.mpr ⟨hm, Option.isSome_iff_exists.mpr ⟨field, hfield⟩⟩
      exact h.accepts_of_mem_namedCells (List.mem_filter.mp (hmembers.mem_iff.mp hknown)).1 hfield
    · rw [(hmembers.map Prod.fst).nodup_iff]
      refine List.Nodup.sublist (List.filter_sublist.map _) ?_
      exact h.map_fst_namedCells a ▸ h.distinct_columns
  | array k =>
    refine .array ?_ fun i field v hfield hv => ?_
    · rw [List.length_take, h.length_toCells, h.length_columns]
      exact Nat.min_le_right ..
    · rw [List.getElem?_take] at hv
      split_ifs at hv
      exact h.accepts_toCells hfield hv

theorem length_of_cells? {columns : List Column} {v : Json} {cells : List (Option Json)}
    (h : cells? columns v = some cells) : cells.length = columns.length := by
  cases v with
  | obj members =>
    obtain rfl := Option.some.inj h
    exact List.length_map _
  | arr items =>
    obtain ⟨⟨hlength, _⟩, hcells⟩ := Option.ite_none_right_eq_some.mp h
    obtain rfl := Option.some.inj hcells
    rw [List.length_append, List.length_map, List.length_map, List.length_drop]
    omega
  | null | bool _ | int _ | real _ | str _ => exact nomatch h

/-- A value with a misfit is no record. -/
theorem Overlays.ofJson?_of_misfit (h : Overlays α fields overlay) {v : Json}
    (hnames : v.NamesDiffer) (hv : Misfit fields v) : (ofJson? v : Option α) = none := by
  rw [Option.eq_none_iff_forall_ne_some]
  intro a ha
  obtain ⟨cells, hcells, hrecord⟩ := Option.bind_eq_some_iff.mp ha
  have hlength := length_of_cells? hcells
  cases hv with
  | member hfield hmember hw =>
    obtain ⟨i, hi⟩ := List.mem_iff_getElem?.mp hfield
    obtain ⟨column, hcolumn, hname⟩ := h.exists_column hi
    refine hw (accepts_iff.mp (h.accepts_of_ofCells hlength hrecord hi ?_))
    obtain rfl := Option.some.inj hcells
    rw [List.getElem?_map, hcolumn, Option.map_some, hname, Json.member?_of_mem hnames hmember]
  | item hfield hitem hw =>
    refine hw (accepts_iff.mp (h.accepts_of_ofCells hlength hrecord hfield ?_))
    obtain ⟨_, hcells⟩ := Option.ite_none_right_eq_some.mp hcells
    obtain rfl := Option.some.inj hcells
    have hi := (List.getElem?_eq_some_iff.mp hitem).1
    rw [List.getElem?_append_left (by rwa [List.length_map]), List.getElem?_map, hitem,
      Option.map_some]

/-! ## Reading over defaults -/

/-- The settings of all values that give some of them, and of all texts that spell such a value, are
the defaults overlaid with what is given. When all are given, by name or as an array of full length,
nothing of the defaults is left. A value or a text with a misfit is refused. -/
structure ReadsOverDefaults (fields : List Field) (overlay : Finset String → α → α)
    (read : String → Except Fault α) : Prop where
  value : ∀ {a : α} {names v}, Gives a names v → ofJson? v = some (overlay names a)
  text : ∀ {a : α} {names v text}, Gives a names v → Denotes fields text v →
    read text = .ok (overlay names a)
  whole : ∀ {a : α} {names : Finset String}, (∀ column ∈ columns α, column.name ∈ names) →
    overlay names a = a
  misfit_value : ∀ {v}, v.NamesDiffer → Misfit fields v → (ofJson? v : Option α) = none
  misfit_text : ∀ {v text}, Misfit fields v → Denotes fields text v →
    ∃ fault, read text = .error fault

theorem Overlays.ofJson?_of_gives (h : Overlays α fields overlay) {a : α} {names : Finset String}
    {v : Json} (hgives : Gives a names v) : ofJson? v = some (overlay names a) := by
  rw [ofJson?, h.cells?_of_gives hgives, Option.bind_some, h.ofCells_given]

theorem Overlays.readsOverDefaults (h : Overlays α fields overlay) :
    ReadsOverDefaults fields overlay (ofText? fields : String → Except Fault α) where
  value := h.ofJson?_of_gives
  text hgives hdenotes := (ofText?_eq_ok_iff h.nonempty h.names hdenotes).mpr
    ⟨h.isRecord_of_gives hgives, h.ofJson?_of_gives hgives⟩
  whole := h.overlay_all _ _
  misfit_value := h.ofJson?_of_misfit
  misfit_text {v text} hv hdenotes := by
    cases hread : (ofText? fields text : Except Fault α) with
    | error fault => exact ⟨fault, rfl⟩
    | ok a =>
      have hrecord := ((ofText?_eq_ok_iff h.nonempty h.names hdenotes).mp hread).1
      exact absurd hrecord (not_isRecord_of_misfit h.distinct hv)

end Record

/-! ## Settings -/

open Record

theorem Synthesis.Config.overlays : Overlays Synthesis.Config fields overlay where
  toChecks := Settings.checks_synthesis
  nonempty := List.cons_ne_nil _ _
  distinct := by decide
  hasDefault := by decide
  length_toCells _ := rfl
  ofCells_given names config := by
    have htext : ∀ s, Cell.text (some (.str s)) = some s := fun _ => rfl
    simp only [givenCells, columns, toCells, List.zipWith_cons_cons, List.zipWith_nil_left, ofCells,
      Cell.orDefault_ite (htext _), Cell.orDefault_ite (port_toNat _),
      Cell.orDefault_ite (Cell.count_toNat _)]
    rfl
  overlay_all names config h := by
    simp only [columns, List.forall_mem_cons] at h
    simp [overlay, h]

/-- Of all settings, this value only gives the port. -/
example : Gives ({ defaultPort := 9090 } : Synthesis.Config) {"default_port"}
    (.obj [("other", .null), ("default_port", .int 9090)]) :=
  .object (.of_eq rfl)

theorem Lifecycle.Config.overlays : Overlays Lifecycle.Config fields overlay where
  toChecks := Settings.checks_regeneration
  nonempty := List.cons_ne_nil _ _
  distinct := by decide
  hasDefault := by decide
  length_toCells _ := rfl
  ofCells_given names config := by
    have htext : ∀ s, Cell.text (some (.str s)) = some s := fun _ => rfl
    simp only [givenCells, columns, toCells, List.zipWith_cons_cons, List.zipWith_nil_left, ofCells,
      Cell.orDefault_ite (htext _), Cell.orDefault_ite (Cell.count_toNat _)]
    rfl
  overlay_all names config h := by
    simp only [columns, List.forall_mem_cons] at h
    simp [overlay, h]

/-- **Main theorem.** Settings of the synthesis and settings of the regeneration are read over their
defaults, from values and from texts. -/
theorem configs_read_over_defaults :
    ReadsOverDefaults Synthesis.Config.fields Synthesis.Config.overlay Synthesis.Config.ofText? ∧
      ReadsOverDefaults Lifecycle.Config.fields Lifecycle.Config.overlay
        Lifecycle.Config.ofText? :=
  ⟨Synthesis.Config.overlays.readsOverDefaults, Lifecycle.Config.overlays.readsOverDefaults⟩

end ArchDoc
