import ArchDoc.Fact.Columns
import ArchDoc.Proofs.DocumentText
import Mathlib.Data.List.Forall2
import Mathlib.Data.List.Nodup

/-!
# The forms of a record

A record may be written in many ways: as the array of its columns, or as an object that names them
in any order, among members of other names, and that may leave out a column that is `null`. All of
them are read as the same record. What the columns of a type have to do with this is said once for
each type (`Record.Lawful`): whatever cells hold the columns of a record, the record is read from
them.

Main definitions:

* `Cell.Holds`: the cells that a column may be read from.
* `Record.Lawful`: a type whose records are read from all such cells.
* `Record.Spells`: the values that a record may be written as.

Results:

* `Cell.Holds.text`, `Cell.Holds.text?`, …: what is read from a cell that holds a column.
* `Record.ofJson?_of_spells`: every form of a record is read as the record.
-/

namespace ArchDoc

/-! ## Cells -/

namespace Cell

/-- A cell holds a value, or is missing where the value is `null`. -/
def Holds (v : Json) (cell : Option Json) : Prop :=
  cell = some v ∨ v = .null ∧ cell = none

variable {cell : Option Json}

/-- Only `null` may be missing. -/
theorem Holds.eq_some {v : Json} (h : Holds v cell) (hv : v ≠ .null) : cell = some v := by
  rcases h with hsome | ⟨hnull, _⟩
  · exact hsome
  · exact absurd hnull hv

theorem Holds.text {s : String} (h : Holds (.str s) cell) : Cell.text cell = some s := by
  rw [h.eq_some (by simp)]
  rfl

theorem Holds.text? {s : Option String} (h : Holds (ofText? s) cell) :
    Cell.text? cell = some s := by
  cases s with
  | some s =>
    rw [h.eq_some (by simp [ofText?, Json.ofOption])]
    rfl
  | none =>
    rcases h with hnull | ⟨_, hmissing⟩
    · rw [hnull]
      rfl
    · rw [hmissing]
      rfl

theorem Holds.port {p : UInt16} (h : Holds (.int p.toNat) cell) : Cell.port cell = some p := by
  rw [h.eq_some (by simp)]
  exact port_toNat p

theorem Holds.flag {b : Bool} (h : Holds (.bool b) cell) : Cell.flag cell = some b := by
  rw [h.eq_some (by simp)]
  rfl

theorem Holds.texts {ts : List String} (h : Holds (.arr (ts.map .str)) cell) :
    Cell.texts cell = some ts := by
  have hstr : ∀ s, Json.str? (Json.str s) = some s := fun _ => rfl
  rw [h.eq_some (by simp)]
  exact readList_map hstr ts

end Cell

/-! ## Members -/

namespace Json

variable {members : List (String × Json)} {name : String} {v : Json}

theorem member?_of_mem (hdistinct : (members.map Prod.fst).Nodup) (h : (name, v) ∈ members) :
    member? name members = some v := by
  obtain ⟨m, hm⟩ : ∃ m, members.find? (·.1 == name) = some m :=
    Option.isSome_iff_exists.mp (List.find?_isSome.mpr ⟨(name, v), h, beq_self_eq_true name⟩)
  have hname : m.1 = name := by simpa using List.find?_some hm
  have hsame : m = (name, v) :=
    List.inj_on_of_nodup_map hdistinct (List.mem_of_find?_eq_some hm) h hname
  rw [member?, hm, hsame, Option.map_some]

theorem member?_of_not_mem (h : name ∉ members.map Prod.fst) : member? name members = none := by
  rw [member?, Option.map_eq_none_iff, List.find?_eq_none]
  intro m hm hname
  exact h (List.mem_map.mpr ⟨m, hm, by simpa using hname⟩)

end Json

/-! ## Records -/

namespace Record

open Cell

/-- A type whose records are read from all cells that hold their columns. -/
class Lawful (α : Type) [Record α] : Prop where
  length_toCells : ∀ a : α, (toCells a).length = (columns α).length
  ofCells_of_holds : ∀ (a : α) (cells : List (Option Json)),
    List.Forall₂ Holds (toCells a) cells → ofCells cells = some a

variable {α : Type} [Record α]

/-- The values that a record may be written as: an object that has every column as a member, unless
it leaves out one that is `null`, and whatever other members; or the array of all columns. -/
inductive Spells (a : α) : Json → Prop where
  | object {members : List (String × Json)} (hdistinct : (members.map Prod.fst).Nodup)
      (hcolumns : ∀ column ∈ ((columns α).map (·.name)).zip (toCells a),
        column ∈ members ∨ column.2 = .null ∧ column.1 ∉ members.map Prod.fst) :
      Spells a (.obj members)
  | array : Spells a (toArray a)

/-- The members of an object that has the columns hold them. -/
theorem holds_members {members : List (String × Json)}
    (hdistinct : (members.map Prod.fst).Nodup) :
    ∀ {names : List Column} {values : List Json}, values.length = names.length →
      (∀ column ∈ (names.map (·.name)).zip values,
        column ∈ members ∨ column.2 = .null ∧ column.1 ∉ members.map Prod.fst) →
      List.Forall₂ Holds values (names.map fun c => Json.member? c.name members) := by
  intro names
  induction names with
  | nil =>
    intro values hlength _
    rw [List.eq_nil_of_length_eq_zero hlength]
    exact .nil
  | cons c names ih =>
    intro values hlength hcolumns
    cases values with
    | nil => exact absurd hlength (Nat.succ_ne_zero _).symm
    | cons v values =>
      rw [List.map_cons, List.zip_cons_cons, List.forall_mem_cons] at hcolumns
      obtain ⟨hcolumn, hrest⟩ := hcolumns
      refine .cons ?_ (ih (Nat.succ.inj hlength) hrest)
      rcases hcolumn with hmem | ⟨hnull, hmissing⟩
      · exact Or.inl (Json.member?_of_mem hdistinct hmem)
      · exact Or.inr ⟨hnull, Json.member?_of_not_mem hmissing⟩

/-- Every form of a record is read as the record. -/
theorem ofJson?_of_spells [Lawful α] {a : α} {v : Json} (h : Spells a v) :
    ofJson? v = some a := by
  cases h with
  | object hdistinct hcolumns =>
    exact Lawful.ofCells_of_holds a _
      (holds_members hdistinct (Lawful.length_toCells a) hcolumns)
  | array =>
    have hcells : cells? (columns α) (toArray a) = some ((toCells a).map some) := by
      simp [cells?, toArray, Lawful.length_toCells a]
    rw [ofJson?, hcells, Option.bind_some]
    refine Lawful.ofCells_of_holds a _ ?_
    rw [List.forall₂_map_right_iff, List.forall₂_same]
    exact fun v _ => Or.inl rfl

end Record

/-! ## The rows of facts -/

namespace Fact

open Record

instance : Lawful ServiceEndpoint where
  length_toCells _ := rfl
  ofCells_of_holds := by
    rintro row _ (_ | ⟨ha, _ | ⟨hb, _ | ⟨hc, _ | ⟨hd, _ | ⟨he, _ | ⟨hf, _ | ⟨hg, _ | ⟨hh,
      _ | ⟨hi, _ | ⟨hj, ⟨⟩⟩⟩⟩⟩⟩⟩⟩⟩⟩⟩)
    simp [ofCells, ha.text, hb.text, hc.text, hd.text, he.text?, hf.text?, hg.text?, hh.text?,
      hi.text?, hj.text?]

instance : Lawful DatabaseConnection where
  length_toCells _ := rfl
  ofCells_of_holds := by
    rintro row _ (_ | ⟨ha, _ | ⟨hb, _ | ⟨hc, _ | ⟨hd, _ | ⟨he, _ | ⟨hf, ⟨⟩⟩⟩⟩⟩⟩⟩)
    simp [ofCells, ha.text, hb.text?, hc.text?, hd.text?, he.text?, hf.text?]

instance : Lawful ExternalServiceCall where
  length_toCells _ := rfl
  ofCells_of_holds := by
    rintro row _ (_ | ⟨ha, _ | ⟨hb, _ | ⟨hc, _ | ⟨hd, _ | ⟨he, _ | ⟨hf, ⟨⟩⟩⟩⟩⟩⟩⟩)
    simp [ofCells, ha.text, hb.text, hc.text, hd.text?, he.text?, hf.text?]

instance : Lawful MessagingConnection where
  length_toCells _ := rfl
  ofCells_of_holds := by
    rintro row _ (_ | ⟨ha, _ | ⟨hb, _ | ⟨hc, _ | ⟨hd, _ | ⟨he, _ | ⟨hf, _ | ⟨hg,
      _ | ⟨hh, ⟨⟩⟩⟩⟩⟩⟩⟩⟩⟩)
    simp [ofCells, ha.text, hb.text, hc.text, hd.text, he.text?, hf.text?, hg.text?, hh.text?]

instance : Lawful ServerConfiguration where
  length_toCells _ := rfl
  ofCells_of_holds := by
    rintro row _ (_ | ⟨ha, _ | ⟨hb, _ | ⟨hc, _ | ⟨hd, _ | ⟨he, ⟨⟩⟩⟩⟩⟩⟩)
    simp [ofCells, ha.port, hb.flag, hc.text?, hd.text?, he.text?]

instance : Lawful DataAsset where
  length_toCells _ := rfl
  ofCells_of_holds := by
    rintro row _ (_ | ⟨ha, _ | ⟨hb, _ | ⟨hc, _ | ⟨hd, _ | ⟨he, _ | ⟨hf, ⟨⟩⟩⟩⟩⟩⟩⟩)
    simp [ofCells, ha.text, hb.text, hc.text?, hd.text?, he.text?, hf.text?]

instance : Lawful ProjectMetadata where
  length_toCells _ := rfl
  ofCells_of_holds := by
    rintro row _ (_ | ⟨ha, _ | ⟨hb, _ | ⟨hc, _ | ⟨hd, _ | ⟨he, _ | ⟨hf, ⟨⟩⟩⟩⟩⟩⟩⟩)
    simp [ofCells, ha.text, hb.text?, hc.text?, hd.text?, he.text?, hf.text?]

instance : Lawful SecurityConfiguration where
  length_toCells _ := rfl
  ofCells_of_holds := by
    rintro row _ (_ | ⟨ha, _ | ⟨hb, _ | ⟨hc, _ | ⟨hd, _ | ⟨he, ⟨⟩⟩⟩⟩⟩⟩)
    simp [ofCells, ha.text, hb.text?, hc.text?, hd.text?, he.text?]

instance : Lawful ClassDescription where
  length_toCells _ := rfl
  ofCells_of_holds := by
    rintro row _ (_ | ⟨ha, _ | ⟨hb, _ | ⟨hc, _ | ⟨hd, _ | ⟨he, _ | ⟨hf, ⟨⟩⟩⟩⟩⟩⟩⟩)
    simp [ofCells, ha.text, hb.text, hc.text?, hd.texts, he.text?, hf.text?]

instance : Lawful MethodCall where
  length_toCells _ := rfl
  ofCells_of_holds := by
    rintro row _ (_ | ⟨ha, _ | ⟨hb, _ | ⟨hc, _ | ⟨hd, _ | ⟨he, _ | ⟨hf, _ | ⟨hg, ⟨⟩⟩⟩⟩⟩⟩⟩⟩)
    simp [ofCells, ha.text, hb.text, hc.text, hd.text, he.text?, hf.text?, hg.text?]

instance (kind : Kind) : Lawful kind.Row :=
  match kind with
  | .serviceEndpoints => inferInstanceAs (Lawful ServiceEndpoint)
  | .databaseConnections => inferInstanceAs (Lawful DatabaseConnection)
  | .externalServiceCalls => inferInstanceAs (Lawful ExternalServiceCall)
  | .messagingConnections => inferInstanceAs (Lawful MessagingConnection)
  | .serverConfiguration => inferInstanceAs (Lawful ServerConfiguration)
  | .dataAssets => inferInstanceAs (Lawful DataAsset)
  | .projectMetadata => inferInstanceAs (Lawful ProjectMetadata)
  | .securityConfiguration => inferInstanceAs (Lawful SecurityConfiguration)
  | .classDescriptions => inferInstanceAs (Lawful ClassDescription)
  | .methodCalls => inferInstanceAs (Lawful MethodCall)

end Fact

end ArchDoc
