import ArchDoc.Proofs.FactTables
import ArchDoc.Proofs.NodeIdentifiers

/-!
# The order of facts and the nodes of a document

Whether facts make a document does not depend on the order of their rows, and hardly any identifier
of a node does: the first project is the system, and every other name gives its identifier wherever
its row stands. The one exception is the node of a messaging destination. Its identifier is tagged
with the messaging system of the first row that names the destination, so when rows of one
destination name different systems, their order decides which identifier the document has.

Main definitions:

* `Facts.Reordered`: facts with the rows of every table in some other order.
* `Contested`: an identifier that some rows of a destination give to it and others do not.

Results:

* `Reordered.nodeIds_subset`: the nodes of every pass but messaging.
* `Reordered.mem_nodeIds_messaging`: the nodes of messaging, as far as they are not contested.
* `synthesize_of_reordered`: what becomes of the document.
* `synthesize_of_reordered_contested`: contested identifiers may get lost.
-/

namespace ArchDoc

open ArchDoc.Fact Identifier Synthesis

/-! ## Reordering -/

/-- Facts that have the rows of others in any order, up to the first project. -/
structure Facts.Reordered (other facts : Facts) : Prop where
  rows : ∀ kind, (facts.rows kind).Perm (other.rows kind)
  project : facts.first? .projectMetadata = other.first? .projectMetadata

namespace Synthesis

/-- An identifier that one row gives to its destination, while another row with this destination
gives it a different one. -/
def Contested (facts : Facts) (id : String) : Prop :=
  ∃ row ∈ namedDestinations (facts.rows .messagingConnections),
    ∃ rival ∈ namedDestinations (facts.rows .messagingConnections),
      rival.destination = row.destination ∧ destinationId row = id ∧ destinationId rival ≠ id

end Synthesis

namespace Facts.Reordered

variable {facts other : Facts}

theorem symm (h : other.Reordered facts) : facts.Reordered other where
  rows kind := (h.rows kind).symm
  project := h.project.symm

theorem includes (h : other.Reordered facts) : other.Includes facts :=
  fun kind => (h.rows kind).subset

theorem mem_namedDestinations (h : other.Reordered facts) {row : MessagingConnection} :
    row ∈ namedDestinations (facts.rows .messagingConnections) ↔
      row ∈ namedDestinations (other.rows .messagingConnections) :=
  ((h.rows .messagingConnections).filter _).mem_iff

theorem contested (h : other.Reordered facts) {id : String} (hid : Contested facts id) :
    Contested other id := by
  obtain ⟨row, hrow, rival, hrival, hsame⟩ := hid
  exact ⟨row, h.mem_namedDestinations.mp hrow, rival, h.mem_namedDestinations.mp hrival, hsame⟩

/-! ## Nodes -/

/-- Every pass but messaging has the same nodes. -/
theorem nodeIds_subset (h : other.Reordered facts) {pass : Pass} (hpass : pass ≠ .messaging) :
    nodeIds facts pass ⊆ nodeIds other pass := by
  by_cases hsystem : pass = .system
  · subst hsystem
    have hproject : projectId facts = projectId other := by
      unfold projectId namedProject
      rw [h.project]
    simp only [nodeIds, hproject, List.Subset.refl]
  · exact h.includes.nodeIds_subset hsystem hpass

/-- Each destination has a node in any order of the rows, and unless its identifier is contested, it
has the same one. -/
theorem mem_nodeIds_messaging (h : other.Reordered facts) {id : String}
    (hcontested : ¬ Contested facts id) (hid : id ∈ nodeIds facts .messaging) :
    id ∈ nodeIds other .messaging := by
  obtain ⟨row, hkept, rfl⟩ := List.mem_map.mp hid
  have hrow := mem_of_mem_keepFirst hkept
  have hmem : row.destination ∈ (keepFirst (·.destination)
      (namedDestinations (other.rows .messagingConnections))).map (·.destination) :=
    mem_map_keepFirst.mpr (List.mem_map_of_mem (h.mem_namedDestinations.mp hrow))
  obtain ⟨first, hfirst, hsame⟩ := List.mem_map.mp hmem
  have hfirst' := h.mem_namedDestinations.mpr (mem_of_mem_keepFirst hfirst)
  have hid : destinationId first = destinationId row := by
    by_contra hne
    exact hcontested ⟨row, hrow, first, hfirst', hsame, rfl, hne⟩
  exact hid ▸ List.mem_map_of_mem hfirst

end Facts.Reordered

namespace Synthesis

variable {facts other : Facts} {config : Config} {document : Document}

theorem mem_ids_of_reordered (h : other.Reordered facts)
    (hdocument : synthesize facts config = some document) {document' : Document}
    (hdocument' : synthesize other config = some document') {id : String}
    (hcontested : ¬ Contested facts id) (hid : id ∈ document.nodes.map Node.id) :
    id ∈ document'.nodes.map Node.id := by
  obtain ⟨pass, hpass⟩ := (mem_ids_iff hdocument).mp hid
  refine (mem_ids_iff hdocument').mpr ⟨pass, ?_⟩
  by_cases hmessaging : pass = .messaging
  · subst hmessaging
    exact h.mem_nodeIds_messaging hcontested hpass
  · exact h.nodeIds_subset hmessaging hpass

/-- **Main theorem.** Facts in another order make a document if and only if they made one before,
and the two documents have the same identifiers of nodes, apart from identifiers that rows of one
destination do not agree on. -/
theorem synthesize_of_reordered (h : other.Reordered facts) (config : Config) :
    (synthesize facts config).isSome = (synthesize other config).isSome ∧
      ∀ document document', synthesize facts config = some document →
        synthesize other config = some document' →
        ∀ id, ¬ Contested facts id →
          (id ∈ document.nodes.map Node.id ↔ id ∈ document'.nodes.map Node.id) := by
  constructor
  · rw [Bool.eq_iff_iff, Option.isSome_iff_exists, Option.isSome_iff_exists]
    constructor
    · rintro ⟨document, hdocument⟩
      exact h.includes.exists_synthesize hdocument
    · rintro ⟨document, hdocument⟩
      exact h.symm.includes.exists_synthesize hdocument
  · intro document document' hdocument hdocument' id hcontested
    exact ⟨mem_ids_of_reordered h hdocument hdocument' hcontested,
      mem_ids_of_reordered h.symm hdocument' hdocument fun hid => hcontested (h.symm.contested hid)⟩

/-! ## Rivals -/

/-- A listener's row about a destination in a messaging system. -/
def hears (destination messagingType : String) : MessagingConnection :=
  { className := "shop.Listener", destination, role := "consumer", messagingType }

/-- Two systems contend for the orders, and one has the bills. -/
def rivals (first second : String) : Facts :=
  Facts.empty.extend .messagingConnections
    [hears "orders" first, hears "orders" second, hears "bills" "Kafka"]

theorem reordered_rivals (first second : String) :
    (rivals second first).Reordered (rivals first second) where
  rows kind := by
    cases kind with
    | messagingConnections => exact .swap _ _ _
    | _ => exact .refl _
  project := rfl

/-- The bills keep their identifier. -/
theorem synthesize_of_reordered_bills :
    (rivals "RabbitMQ" "Kafka").Reordered (rivals "Kafka" "RabbitMQ") ∧
      ¬ Contested (rivals "Kafka" "RabbitMQ") "bills-kafka" ∧
      ∃ document', synthesize (rivals "RabbitMQ" "Kafka") .default = some document' ∧
        "bills-kafka" ∈ document'.nodes.map Node.id := by
  have hreordered := reordered_rivals "Kafka" "RabbitMQ"
  have hcontested : ¬ Contested (rivals "Kafka" "RabbitMQ") "bills-kafka" := by
    unfold Contested
    decide +kernel
  have hdocument : synthesize (rivals "Kafka" "RabbitMQ") .default = some _ :=
    synthesize_of_architectural (by decide +kernel)
  obtain ⟨hsome, hids⟩ := synthesize_of_reordered hreordered .default
  rw [hdocument, Option.isSome_some, eq_comm, Option.isSome_iff_exists] at hsome
  obtain ⟨document', hdocument'⟩ := hsome
  exact ⟨hreordered, hcontested, document', hdocument',
    (hids _ document' hdocument hdocument' _ hcontested).mp (by decide +kernel)⟩

/-- The orders lose theirs when a row of the other system comes first. -/
theorem synthesize_of_reordered_contested :
    (rivals "RabbitMQ" "Kafka").Reordered (rivals "Kafka" "RabbitMQ") ∧
      ∃ document document', synthesize (rivals "Kafka" "RabbitMQ") .default = some document ∧
        synthesize (rivals "RabbitMQ" "Kafka") .default = some document' ∧
        "orders-kafka" ∈ document.nodes.map Node.id ∧
        "orders-kafka" ∉ document'.nodes.map Node.id := by
  refine ⟨reordered_rivals _ _, _, _, synthesize_of_architectural (by decide +kernel),
    synthesize_of_architectural (by decide +kernel), ?_, ?_⟩ <;>
  decide +kernel

end Synthesis

end ArchDoc
