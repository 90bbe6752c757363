import ArchDoc.Document
import ArchDoc.Proofs.JsonRoundTrip
import ArchDoc.Record

/-!
# Documents are told apart by their texts

The text of a document spells a JSON value from which the document is read back, whatever texts and
lists it holds. So two documents with one text are equal: when regeneration compares texts, it
compares documents.

Main definitions:

* `Document.ofJson?`: the document of a value, read by the names of its members.
* `Json.NullFree`, `Json.keys`: what is said about the value besides.

Results:

* `Document.ofJson?_toJson`: the document of the object of a document.
* `Json.Inherited.document`: what may be said of the object of a document by looking at its parts.
* `Document.parse_render`, `Document.parse_renderCompact`: both texts spell this object.
* `Document.render_spells_document`: all that is said of the value of a text.
-/

namespace ArchDoc

/-! ## Values without nulls -/

namespace Json

mutual

/-- A value that holds no null at any depth. -/
def NullFree : Json → Prop
  | null => False
  | bool _ | int _ | real _ | str _ => True
  | arr items => NullFreeItems items
  | obj members => NullFreeMembers members

/-- Items without nulls. -/
def NullFreeItems : List Json → Prop
  | [] => True
  | v :: rest => NullFree v ∧ NullFreeItems rest

/-- Members without nulls. -/
def NullFreeMembers : List (String × Json) → Prop
  | [] => True
  | (_, v) :: rest => NullFree v ∧ NullFreeMembers rest

end

theorem nullFreeItems_iff {items : List Json} :
    NullFreeItems items ↔ ∀ v ∈ items, NullFree v := by
  induction items with
  | nil => simp [NullFreeItems]
  | cons v rest ih => simp [NullFreeItems, ih]

theorem nullFreeMembers_iff {members : List (String × Json)} :
    NullFreeMembers members ↔ ∀ m ∈ members, NullFree m.2 := by
  induction members with
  | nil => simp [NullFreeMembers]
  | cons m rest ih => simp [NullFreeMembers, ih]

/-- The names of the members of an object, in order. -/
def keys : Json → List String
  | obj members => members.map (·.1)
  | _ => []

end Json

/-! ## Reading documents -/

/-- A member that may be left out, read when it is there. -/
def readOptional {α : Type} (read : Json → Option α) : Option Json → Option (Option α)
  | none => some none
  | some v => (read v).map some

/-- A list, read item by item. -/
def readList {α : Type} (read : Json → Option α) (v : Json) : Option (List α) :=
  v.arr?.bind (·.mapM read)

/-- The interface of a value. -/
def Interface.ofJson? (v : Json) : Option Interface := do
  return {
    id := ← (v.get? "unique-id").bind Json.str?
    protocol := ← readOptional Json.str? (v.get? "protocol")
    port := ← readOptional (fun p => Cell.port (some p)) (v.get? "port") }

/-- The node of a value. -/
def Node.ofJson? (v : Json) : Option Node := do
  return {
    id := ← (v.get? "unique-id").bind Json.str?
    kind := ← ((v.get? "node-type").bind Json.str?).bind NodeKind.ofName?
    name := ← (v.get? "name").bind Json.str?
    description := ← (v.get? "description").bind Json.str?
    interfaces := ← readOptional (readList Interface.ofJson?) (v.get? "interfaces") }

/-- The end of a relationship in a value. -/
def Endpoint.ofJson? (v : Json) : Option Endpoint := do
  return {
    node := ← (v.get? "node").bind Json.str?
    interface := ← readOptional Json.str? (v.get? "interface") }

/-- The relationship of a value: its kind says under which name its ends stand. -/
def Relationship.ofJson? (v : Json) : Option Relationship := do
  let kind ← ((v.get? "relationship-type").bind Json.str?).bind RelationshipKind.ofName?
  let ends ← v.get? kind.name
  return {
    id := ← (v.get? "unique-id").bind Json.str?
    kind := kind
    source := ← (ends.get? "source").bind Endpoint.ofJson?
    destination := ← (ends.get? "destination").bind Endpoint.ofJson?
    protocol := ← readOptional Json.str? (v.get? "protocol") }

/-- The document of a value. -/
def Document.ofJson? (v : Json) : Option Document := do
  return {
    nodes := ← (v.get? "nodes").bind (readList Node.ofJson?)
    relationships := ← (v.get? "relationships").bind (readList Relationship.ofJson?)
    schema := ← (v.get? "$schema").bind Json.str? }

theorem readList_map {α : Type} {read : Json → Option α} {write : α → Json}
    (h : ∀ a, read (write a) = some a) (as : List α) :
    readList read (.arr (as.map write)) = some as := by
  show (as.map write).mapM read = some as
  induction as with
  | nil => rfl
  | cons a as ih => simp [h, ih]

theorem NodeKind.ofName?_name (kind : NodeKind) : ofName? kind.name = some kind := by
  cases kind <;> decide

theorem RelationshipKind.ofName?_name (kind : RelationshipKind) :
    ofName? kind.name = some kind := by
  cases kind <;> decide

/-- The name under which the ends of a relationship stand is none of its other names. -/
theorem RelationshipKind.name_ne (kind : RelationshipKind) :
    "unique-id" ≠ kind.name ∧ "relationship-type" ≠ kind.name ∧ kind.name ≠ "protocol" := by
  cases kind <;> decide

theorem port_toNat (p : UInt16) : Cell.port (some (.int p.toNat)) = some p := by
  have hp : (p.toNat : Int) < UInt16.size := by exact_mod_cast p.toNat_lt
  unfold Cell.port Cell.natural
  dsimp only
  rw [if_pos ⟨Int.natCast_nonneg _, hp⟩, Int.toNat_natCast, Option.map_some, UInt16.ofNat_toNat]

theorem Interface.ofJson?_toJson (i : Interface) : ofJson? i.toJson = some i := by
  obtain ⟨id, protocol, port⟩ := i
  cases protocol <;> cases port <;>
    simp [ofJson?, toJson, optionalMember, readOptional, Json.get?, Json.member?, Json.str?,
      port_toNat]

theorem Node.ofJson?_toJson (n : Node) : ofJson? n.toJson = some n := by
  obtain ⟨id, kind, name, description, interfaces⟩ := n
  cases interfaces <;>
    simp [ofJson?, toJson, optionalMember, readOptional, Json.get?, Json.member?, Json.str?,
      NodeKind.ofName?_name, readList_map Interface.ofJson?_toJson]

theorem Endpoint.ofJson?_toJson (e : Endpoint) : ofJson? e.toJson = some e := by
  obtain ⟨node, interface⟩ := e
  cases interface <;>
    simp [ofJson?, toJson, optionalMember, readOptional, Json.get?, Json.member?, Json.str?]

theorem Relationship.ofJson?_toJson (r : Relationship) : ofJson? r.toJson = some r := by
  obtain ⟨id, kind, source, destination, protocol⟩ := r
  obtain ⟨hid, htype, hprotocol⟩ := kind.name_ne
  cases protocol <;>
    simp [ofJson?, toJson, optionalMember, readOptional, Json.get?, Json.member?, Json.str?,
      RelationshipKind.ofName?_name, Endpoint.ofJson?_toJson, hid, htype, hprotocol]

/-- The document of the object of a document. -/
theorem Document.ofJson?_toJson (document : Document) :
    ofJson? document.toJson = some document := by
  simp [ofJson?, toJson, Json.get?, Json.member?, Json.str?, readList_map Node.ofJson?_toJson,
    readList_map Relationship.ofJson?_toJson]

/-! ## The object of a document -/

/-- A property of values, by how deep they may nest, that texts and ports have and that arrays and
objects have when their parts do. -/
structure Json.Inherited (p : Nat → Json → Prop) : Prop where
  str : ∀ room s, p room (.str s)
  port : ∀ room (n : UInt16), p room (.int n.toNat)
  arr : ∀ room items, (∀ v ∈ items, p room v) → p (room + 1) (.arr items)
  obj : ∀ room members, (∀ m ∈ members, p room m.2) → p (room + 1) (.obj members)

theorem Json.inherited_fits : Inherited fun room v => v.Fits room where
  str _ _ := trivial
  port room n := by
    have hn := n.toNat_lt
    constructor
    · simp
    · simp
      omega
  arr room _ h := ⟨Nat.succ_pos room, fitsItems_iff.mpr h⟩
  obj room _ h := ⟨Nat.succ_pos room, fitsMembers_iff.mpr h⟩

theorem Json.inherited_nullFree : Inherited fun _ v => v.NullFree where
  str _ _ := trivial
  port _ _ := trivial
  arr _ _ h := nullFreeItems_iff.mpr h
  obj _ _ h := nullFreeMembers_iff.mpr h

section

variable {p : Nat → Json → Prop} {α : Type}

theorem forall_optionalMember {room : Nat} {name : String} {write : α → Json}
    (h : ∀ a, p room (write a)) (a : Option α) :
    ∀ m ∈ optionalMember name write a, p room m.2 := by
  cases a with
  | none => exact fun _ hm => absurd hm List.not_mem_nil
  | some a => simpa [optionalMember] using h a

theorem Json.Inherited.list (hp : Json.Inherited p) {room : Nat} {write : α → Json}
    (h : ∀ a, p room (write a)) (as : List α) : p (room + 1) (.arr (as.map write)) := by
  apply hp.arr
  intro v hv
  obtain ⟨a, _, rfl⟩ := List.mem_map.mp hv
  exact h a

theorem Json.Inherited.interface (hp : Json.Inherited p) (i : Interface) : p 1 i.toJson := by
  apply hp.obj
  rw [List.forall_mem_cons, List.forall_mem_append]
  exact ⟨hp.str 0 i.id, forall_optionalMember (hp.str 0) i.protocol,
    forall_optionalMember (hp.port 0) i.port⟩

theorem Json.Inherited.node (hp : Json.Inherited p) (n : Node) : p 3 n.toJson := by
  apply hp.obj
  rw [List.forall_mem_append]
  refine ⟨?_, forall_optionalMember (hp.list hp.interface) n.interfaces⟩
  simp [hp.str]

theorem Json.Inherited.endpoint (hp : Json.Inherited p) (e : Endpoint) : p 1 e.toJson := by
  apply hp.obj
  rw [List.forall_mem_cons]
  exact ⟨hp.str 0 e.node, forall_optionalMember (hp.str 0) e.interface⟩

theorem Json.Inherited.relationship (hp : Json.Inherited p) (r : Relationship) :
    p 3 r.toJson := by
  have hends : p 2 (.obj [("source", r.source.toJson), ("destination", r.destination.toJson)]) := by
    apply hp.obj
    simp [hp.endpoint]
  apply hp.obj
  rw [List.forall_mem_append]
  refine ⟨?_, forall_optionalMember (hp.str 2) r.protocol⟩
  simp [hp.str, hends]

/-- What texts and ports have, and arrays and objects inherit, the object of a document has. -/
theorem Json.Inherited.document (hp : Json.Inherited p) (document : Document) :
    p 5 document.toJson := by
  apply hp.obj
  simp [hp.str, hp.list hp.node, hp.list hp.relationship]

end

/-- The name of the kind of a relationship is the only name of a kind in its object. -/
theorem Relationship.keys_toJson (r : Relationship) :
    r.toJson.keys.filter (· ∈ RelationshipKind.all.map (·.name)) = [r.kind.name] := by
  obtain ⟨id, kind, source, destination, protocol⟩ := r
  cases kind <;> cases protocol <;> rfl

/-! ## Texts -/

theorem Document.parse_render (document : Document) :
    Json.parse document.render = .ok document.toJson :=
  Json.parse_pretty (by decide) (Json.inherited_fits.document document)

theorem Document.parse_renderCompact (document : Document) :
    Json.parse document.renderCompact = .ok document.toJson :=
  Json.parse_compact (by decide) (Json.inherited_fits.document document)

theorem Document.render_injective : Function.Injective Document.render := by
  intro document other h
  have hvalue : document.toJson = other.toJson := by
    have hparse := document.parse_render
    rw [h, other.parse_render] at hparse
    exact (Except.ok.inj hparse).symm
  have hdocument := document.ofJson?_toJson
  rw [hvalue, other.ofJson?_toJson] at hdocument
  exact (Option.some.inj hdocument).symm

/-- **Main theorem.** The text of a document, on many lines or on one, spells a value without
nulls. Its members are the nodes, the relationships and the schema; of the names of kinds, each
relationship has the one that its type says; and the document is read back from it. So documents
with the same text are equal. -/
theorem Document.render_spells_document (document : Document) :
    ∃ v, Json.parse document.render = .ok v ∧ Json.parse document.renderCompact = .ok v ∧
      v.NullFree ∧ v.keys = ["nodes", "relationships", "$schema"] ∧
      (∃ items, v.get? "relationships" = some (.arr items) ∧ ∀ item ∈ items,
        ∃ kind : RelationshipKind, item.get? "relationship-type" = some (.str kind.name) ∧
          item.keys.filter (· ∈ RelationshipKind.all.map (·.name)) = [kind.name]) ∧
      ofJson? v = some document ∧
      ∀ other : Document, other.render = document.render → other = document := by
  refine ⟨document.toJson, document.parse_render, document.parse_renderCompact,
    Json.inherited_nullFree.document document, rfl, ?_, document.ofJson?_toJson, ?_⟩
  · refine ⟨_, rfl, fun item hitem => ?_⟩
    obtain ⟨r, _, rfl⟩ := List.mem_map.mp hitem
    exact ⟨r.kind, rfl, r.keys_toJson⟩
  · intro other h
    exact Document.render_injective h

end ArchDoc
