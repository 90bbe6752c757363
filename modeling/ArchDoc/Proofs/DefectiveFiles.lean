import ArchDoc.Proofs.FileTrees
import ArchDoc.Proofs.SnapshotReading
import ArchDoc.Settings

/-!
# Files that cannot be loaded

What is wrong with a file from which no settings or no facts can be loaded: there is no text at its
path, the text breaks the grammar of its language, or the value of the text has another shape than
it should. These are all the ways in which loading fails.

Main definitions:

* `FileTree.Unreadable`: a path at which there is no text.
* `Settings.Mistyped`: a section that gives a setting a value of another type.
* `Settings.Defective`, `Snapshot.Defective`: files without settings, and without facts.

Results:

* `FileTree.unreadable_iff`: when no text can be read.
* `Settings.sectionCells?_eq`, `Settings.readSection_eq_none_iff`: the cells of a section, and when
  a section cannot be read.
* `Settings.defective_iff`, `Snapshot.defective_iff`: when nothing can be loaded.
-/

namespace ArchDoc

open ArchDoc.Fact

/-! ## Texts -/

namespace FileTree

/-- There is no text at a path: it cannot be followed to its end, nothing is there, it is that of a
directory, or the bytes of the file spell no text. -/
inductive Unreadable (tree : FileTree) (path : String) : Prop where
  | lost (cause : IoCause) (h : tree.status path = .error cause)
  | missing (h : tree.status path = .ok none)
  | directory (h : tree.status path = .ok (some .directory))
  | notText (content : ByteArray) (h : tree.status path = .ok (some (.file content)))
      (hbytes : ∀ text : String, content ≠ text.toUTF8)

variable {tree : FileTree} {path : String}

theorem readFile_eq (tree : FileTree) (path : String) :
    tree.readFile path =
      match tree.status path with
      | .error cause => .error cause
      | .ok none => .error (.os .notFound)
      | .ok (some .directory) => .error (.os .isDirectory)
      | .ok (some (.file content)) => .ok content := by
  unfold readFile
  rcases tree.status path with cause | _ | _ | content <;> rfl

/-- Bytes are read as a text or spell none. -/
theorem readText_of_readFile {content : ByteArray} (h : tree.readFile path = .ok content) :
    tree.readText path =
      match String.fromUTF8? content with
      | some text => .ok text
      | none => .error .notUtf8 := by
  unfold readText
  rw [h]
  dsimp only [bind, Except.bind]
  cases String.fromUTF8? content <;> rfl

theorem readText_of_readFile_error {cause : IoCause} (h : tree.readFile path = .error cause) :
    tree.readText path = .error cause := by
  unfold readText
  rw [h]
  rfl

theorem unreadable_iff : tree.Unreadable path ↔ ∃ cause, tree.readText path = .error cause := by
  have hfile := readFile_eq tree path
  constructor
  · rintro (⟨cause, h⟩ | h | h | ⟨content, h, hbytes⟩) <;> rw [h] at hfile
    · exact ⟨_, readText_of_readFile_error hfile⟩
    · exact ⟨_, readText_of_readFile_error hfile⟩
    · exact ⟨_, readText_of_readFile_error hfile⟩
    · have hnone : String.fromUTF8? content = none :=
        Option.eq_none_iff_forall_ne_some.mpr fun text htext =>
          hbytes text (fromUTF8?_eq_some_iff.mp htext)
      have hread := readText_of_readFile hfile
      rw [hnone] at hread
      exact ⟨_, hread⟩
  · rintro ⟨cause, hread⟩
    rcases h : tree.status path with cause | _ | _ | content
    · exact .lost cause h
    · exact .missing h
    · exact .directory h
    · refine .notText content h ?_
      rintro text rfl
      rw [h] at hfile
      rw [readText_eq_ok_iff.mpr hfile] at hread
      exact nomatch hread

end FileTree

/-! ## Sections of settings -/

namespace Settings

open RecordReader (Field)

/-- Whether a value can be no section: a text, a number or a truth value. -/
def isPlain : Toml → Bool
  | .text _ | .integer _ | .float | .boolean _ => true
  | .date | .array _ | .table _ _ | .elements _ => false

/-- The value that a section gives to the setting at a place: under its name in a table, at the same
place in an array. -/
def valueAt? (fields : List Field) (i : Nat) : Toml → Option Toml
  | .table _ members => fields[i]?.bind fun field => Toml.member? field.name members
  | .array items => items[i]?
  | .elements tables => tables.reverse[i]?
  | _ => none

/-- A section has another type than it should, or a value in it has. -/
inductive Mistyped (fields : List Field) (body : Toml) : Prop where
  | plain (h : isPlain body = true)
  | setting {i : Nat} {field : Field} {value : Toml} (hfield : fields[i]? = some field)
      (hvalue : valueAt? fields i body = some value)
      (htype : field.scalar.accepts (scalar value) = false)

/-! ### Cells -/

theorem sectionCells?_of_isPlain (columns : List Column) {body : Toml}
    (h : isPlain body = true) : sectionCells? columns body = none := by
  cases body with
  | text _ | integer _ | float | boolean _ => rfl
  | date | array _ | table _ _ | elements _ => exact nomatch h

theorem positional_eq (columns : List Column) (items : List Toml) :
    positional columns items =
      (List.range columns.length).map fun i => items[i]?.map scalar := by
  apply List.ext_getElem?
  intro i
  unfold positional
  simp only [List.getElem?_append, List.getElem?_map, List.length_map, List.length_take]
  grind

/-- A section has a cell for each setting, with the value that it gives to the setting. -/
theorem sectionCells?_eq {columns : List Column} {fields : List Field}
    (hnames : columns.map (·.name) = fields.map (·.name)) {body : Toml}
    (h : isPlain body = false) :
    sectionCells? columns body =
      some ((List.range fields.length).map fun i => (valueAt? fields i body).map scalar) := by
  have hlength : columns.length = fields.length := by
    simpa using congrArg List.length hnames
  cases body with
  | text _ | integer _ | float | boolean _ => exact nomatch h
  | array items => exact congrArg some (hlength ▸ positional_eq columns items)
  | elements tables => exact congrArg some (hlength ▸ positional_eq columns tables.reverse)
  | date =>
    refine congrArg some (List.ext_getElem? fun i => ?_)
    simp [valueAt?, hlength]
  | table origin members =>
    have hcells : columns.map (fun c => (Toml.member? c.name members).map scalar) =
        fields.map fun field => (Toml.member? field.name members).map scalar := by
      have hmap := congrArg
        (List.map fun name => (Toml.member? name members).map scalar) hnames
      simpa [Function.comp_def] using hmap
    refine congrArg some (hcells.trans (List.ext_getElem? fun i => ?_))
    rw [List.getElem?_map, List.getElem?_map]
    by_cases hi : i < fields.length
    · rw [List.getElem?_range hi, List.getElem?_eq_getElem hi, Option.map_some, Option.map_some,
        valueAt?, List.getElem?_eq_getElem hi, Option.bind_some]
    · rw [List.getElem?_eq_none (by simpa using hi), List.getElem?_eq_none (by simpa using hi),
        Option.map_none, Option.map_none]

/-! ### Settings from cells -/

/-- Whether a cell that is there has the type of a setting. -/
def fits (field : Field) (cell : Option Json) : Bool :=
  cell.all field.scalar.accepts

/-- A record is read from cells when all that are there have the types of its fields. -/
structure Checks (α : Type) [Record α] (fields : List Field) : Prop where
  names : (Record.columns α).map (·.name) = fields.map (·.name)
  read : ∀ cells, cells.length = fields.length → (Record.ofCells cells : Option α).isSome =
    (fields.zip cells).all fun p => fits p.1 p.2

/-- Of settings that are read one after the other, one is read if its cell fits. -/
theorem isSome_bind_orDefault {β γ : Type} {read : Option Json → Option β} (field : Field)
    (hread : ∀ v, (read (some v)).isSome = field.scalar.accepts v) (default : β)
    (cell : Option Json) {next : β → Option γ} {others : Bool}
    (hnext : ∀ b, (next b).isSome = others) :
    ((Cell.orDefault read default cell).bind next).isSome = (fits field cell && others) := by
  cases cell with
  | none => exact hnext default
  | some v =>
    rw [fits, Option.all_some, ← hread]
    show ((read (some v)).bind next).isSome = _
    cases read (some v) with
    | none => rfl
    | some b => exact hnext b

theorem checks_synthesis : Checks Synthesis.Config Synthesis.Config.fields where
  names := rfl
  read cells hlength :=
    match cells, hlength with
    | [a, b, c, d], _ =>
      isSome_bind_orDefault ⟨"schema", .text⟩ (fun _ => rfl) _ a fun _ =>
        isSome_bind_orDefault ⟨"default_protocol", .text⟩ (fun _ => rfl) _ b fun _ =>
          isSome_bind_orDefault ⟨"default_port", .port⟩ (fun _ => rfl) _ c fun _ =>
            isSome_bind_orDefault ⟨"endpoint_summary_limit", .count⟩ (fun _ => rfl) _ d fun _ =>
              rfl

theorem checks_regeneration : Checks Lifecycle.Config Lifecycle.Config.fields where
  names := rfl
  read cells hlength :=
    match cells, hlength with
    | [a, b], _ =>
      isSome_bind_orDefault ⟨"path", .text⟩ (fun _ => rfl) _ a fun _ =>
        isSome_bind_orDefault ⟨"max_cycles", .count⟩ (fun _ => rfl) _ b fun _ => rfl

/-- A section cannot be read exactly when it is mistyped. -/
theorem readSection_eq_none_iff {α : Type} [Record α] {fields : List Field}
    (hchecks : Checks α fields) (name : String) (default : α) (members : Toml.Members) :
    readSection name default members = none ↔
      ∃ body, Toml.member? name members = some body ∧ Mistyped fields body := by
  unfold readSection
  cases hbody : Toml.member? name members with
  | none => simp
  | some body =>
    simp only [Option.some.injEq, exists_eq_left']
    cases hplain : isPlain body with
    | true =>
      rw [sectionCells?_of_isPlain _ hplain]
      exact iff_of_true rfl (.plain hplain)
    | false =>
      rw [sectionCells?_eq hchecks.names hplain, Option.bind_some, ← Option.not_isSome_iff_eq_none,
        hchecks.read _ (by simp), List.zip_map_right, List.range_eq_range',
        ← List.zipIdx_eq_zip_range', List.all_map, List.all_eq_true]
      constructor
      · intro h
        obtain ⟨⟨field, i⟩, hfield, hfits⟩ : ∃ p ∈ fields.zipIdx,
            fits p.1 ((valueAt? fields p.2 body).map scalar) = false := by
          simpa using h
        cases hvalue : valueAt? fields i body with
        | none => simp [fits, hvalue] at hfits
        | some value =>
          exact .setting (List.mem_zipIdx_iff_getElem?.mp hfield) hvalue
            (by simpa [fits, hvalue] using hfits)
      · rintro (hplain' | ⟨hfield, hvalue, htype⟩) hall
        · exact absurd hplain' (by simp [hplain])
        · have hfits := hall (_, _) (List.mem_zipIdx_iff_getElem?.mpr hfield)
          simp [fits, hvalue, htype] at hfits

/-! ## Files of settings -/

/-- No settings can be loaded, and what is reported: there is no text, it is not TOML, or one of the
two sections in it is mistyped. -/
inductive Defective (tree : FileTree) : Option String → Error → Prop where
  | unreadable {path : String} (h : tree.Unreadable path) :
      Defective tree (some path) (.unreadable path)
  | malformed {path text : String} (hread : tree.readText path = .ok text)
      (h : Toml.parse? text = none) : Defective tree (some path) (.invalid path)
  | synthesis {path text : String} {members : Toml.Members} {body : Toml}
      (hread : tree.readText path = .ok text) (hparse : Toml.parse? text = some members)
      (hbody : Toml.member? "synthesis" members = some body)
      (h : Mistyped Synthesis.Config.fields body) : Defective tree (some path) (.invalid path)
  | regeneration {path text : String} {members : Toml.Members} {body : Toml}
      (hread : tree.readText path = .ok text) (hparse : Toml.parse? text = some members)
      (hbody : Toml.member? "regen" members = some body)
      (h : Mistyped Lifecycle.Config.fields body) : Defective tree (some path) (.invalid path)

theorem ofText?_eq_none_iff {text : String} :
    ofText? text = none ↔ Toml.parse? text = none ∨ ∃ members, Toml.parse? text = some members ∧
      ((∃ body, Toml.member? "synthesis" members = some body ∧
          Mistyped Synthesis.Config.fields body) ∨
        ∃ body, Toml.member? "regen" members = some body ∧
          Mistyped Lifecycle.Config.fields body) := by
  unfold ofText?
  cases Toml.parse? text with
  | none => simp
  | some members =>
    simp only [← readSection_eq_none_iff checks_synthesis "synthesis" .default,
      ← readSection_eq_none_iff checks_regeneration "regen" .default, Option.some.injEq,
      exists_eq_left', reduceCtorEq, false_or, Option.bind_eq_bind, Option.bind_some]
    cases (readSection "synthesis" .default members : Option Synthesis.Config) with
    | none => simp
    | some synthesis =>
      cases (readSection "regen" .default members : Option Lifecycle.Config) <;> simp

theorem load_of_ofText?_eq_none {tree : FileTree} {path text : String}
    (hread : tree.readText path = .ok text) (h : ofText? text = none) :
    load tree (some path) = .error (.invalid path) := by
  rw [load, hread]
  dsimp only
  rw [h]

/-- These are all the ways in which settings cannot be loaded. -/
theorem defective_iff {tree : FileTree} {path : Option String} {e : Error} :
    Defective tree path e ↔ load tree path = .error e := by
  constructor
  · rintro (⟨hfile⟩ | ⟨hread, hparse⟩ | ⟨hread, hparse, hbody, h⟩ | ⟨hread, hparse, hbody, h⟩)
    · obtain ⟨cause, hread⟩ := FileTree.unreadable_iff.mp hfile
      rw [load, hread]
    · exact load_of_ofText?_eq_none hread (ofText?_eq_none_iff.mpr (.inl hparse))
    · exact load_of_ofText?_eq_none hread
        (ofText?_eq_none_iff.mpr (.inr ⟨_, hparse, .inl ⟨_, hbody, h⟩⟩))
    · exact load_of_ofText?_eq_none hread
        (ofText?_eq_none_iff.mpr (.inr ⟨_, hparse, .inr ⟨_, hbody, h⟩⟩))
  · intro h
    cases path with
    | none => exact nomatch h
    | some path =>
      unfold load at h
      dsimp only at h
      cases hread : tree.readText path with
      | error cause =>
        rw [hread] at h
        obtain rfl := Except.error.inj h
        exact .unreadable (FileTree.unreadable_iff.mpr ⟨cause, hread⟩)
      | ok text =>
        rw [hread] at h
        dsimp only at h
        cases htext : ofText? text with
        | some settings =>
          rw [htext] at h
          exact nomatch h
        | none =>
          rw [htext] at h
          obtain rfl := Except.error.inj h
          obtain hparse | ⟨members, hparse, ⟨body, hbody, h⟩ | ⟨body, hbody, h⟩⟩ :=
            ofText?_eq_none_iff.mp htext
          · exact .malformed hread hparse
          · exact .synthesis hread hparse hbody h
          · exact .regeneration hread hparse hbody h

end Settings

/-! ## Files of facts -/

namespace Snapshot

/-- No facts can be loaded: there is no text, it is not JSON, its value is no object, or one of the
members that should be tables is no array. -/
inductive Defective (tree : FileTree) (path : String) : Prop where
  | unreadable (h : tree.Unreadable path)
  | malformed {text : String} {fault : Fault} (hread : tree.readText path = .ok text)
      (h : Json.parse text = .error fault)
  | noObject {text : String} {v : Json} (hread : tree.readText path = .ok text)
      (hparse : Json.parse text = .ok v) (h : ∀ members, v ≠ .obj members)
  | noTable {text : String} {v : Json} {members : List (String × Json)} {m : String × Json}
      (hread : tree.readText path = .ok text) (hparse : Json.parse text = .ok v)
      (hmembers : v.canonical = .obj members) (hm : m ∈ members) (h : Misshapen m)

theorem ofJson_isError_iff {v : Json} :
    (∃ e, ofJson v.canonical = .error e) ↔ (∀ members, v ≠ .obj members) ∨
      ∃ members, v.canonical = .obj members ∧ ∃ m ∈ members, Misshapen m := by
  have hascending := Json.ascending_canonical v
  cases v with
  | null | bool _ | int _ | real _ | str _ | arr _ =>
    exact iff_of_true ⟨_, rfl⟩ (.inl fun _ h => Json.noConfusion h)
  | obj members =>
    have hobject : ∃ sorted, (Json.obj members).canonical = .obj sorted := ⟨_, by
      unfold Json.canonical
      rfl⟩
    obtain ⟨sorted, hsorted⟩ := hobject
    rw [hsorted] at hascending ⊢
    have hnames : (sorted.map Prod.fst).Nodup := List.Pairwise.imp ne_of_lt hascending
    constructor
    · rintro ⟨e, he⟩
      right
      by_contra hnone
      obtain ⟨facts, report, hread, _⟩ := ofJson_of_shapely hnames fun m hm hmisshapen =>
        hnone ⟨sorted, rfl, m, hm, hmisshapen⟩
      cases he.symm.trans hread
    · rintro (hnone | ⟨members', hmembers, m, hm, hmisshapen⟩)
      · exact absurd rfl (hnone members)
      · obtain rfl := Json.obj.inj hmembers
        obtain ⟨before, first, after, rfl, hbefore, hfirst⟩ :=
          exists_first_misshapen hm hmisshapen
        exact ⟨_, ofJson_of_misshapen hnames hbefore hfirst⟩

theorem load_of_readText {tree : FileTree} {path text : String}
    (h : tree.readText path = .ok text) : load tree path = (ofText text).mapError .text := by
  rw [load, h]
  rfl

theorem ofText_of_parse {text : String} {v : Json} (h : Json.parse text = .ok v) :
    ofText text = (ofJson v.canonical).mapError .shape := by
  rw [ofText, valueOfText, h]
  rfl

/-- These are all the ways in which facts cannot be loaded. -/
theorem defective_iff {tree : FileTree} {path : String} :
    Defective tree path ↔ ∃ e, load tree path = .error e := by
  constructor
  · rintro (hfile | ⟨hread, hparse⟩ | ⟨hread, hparse, h⟩ | ⟨hread, hparse, hmembers, hm, h⟩)
    · obtain ⟨cause, hread⟩ := FileTree.unreadable_iff.mp hfile
      rw [load, hread]
      exact ⟨_, rfl⟩
    · rw [load_of_readText hread, ofText, valueOfText, hparse]
      exact ⟨_, rfl⟩
    · obtain ⟨e, he⟩ := ofJson_isError_iff.mpr (.inl h)
      rw [load_of_readText hread, ofText_of_parse hparse, he]
      exact ⟨_, rfl⟩
    · obtain ⟨e, he⟩ := ofJson_isError_iff.mpr (.inr ⟨_, hmembers, _, hm, h⟩)
      rw [load_of_readText hread, ofText_of_parse hparse, he]
      exact ⟨_, rfl⟩
  · rintro ⟨e, he⟩
    cases hread : tree.readText path with
    | error cause => exact .unreadable (FileTree.unreadable_iff.mpr ⟨cause, hread⟩)
    | ok text =>
      cases hparse : Json.parse text with
      | error fault => exact .malformed hread hparse
      | ok v =>
        rw [load_of_readText hread, ofText_of_parse hparse] at he
        cases hjson : ofJson v.canonical with
        | ok read =>
          rw [hjson] at he
          exact nomatch he
        | error e =>
          rcases ofJson_isError_iff.mp ⟨e, hjson⟩ with h | ⟨members, hmembers, m, hm, h⟩
          · exact .noObject hread hparse h
          · exact .noTable hread hparse hmembers hm h

end Snapshot

end ArchDoc
