import ArchDoc.Proofs.FinalDraft
import ArchDoc.Proofs.PathParts

/-!
# Identifiers of relationships

The identifier of a relationship is spelled from its ends: the identifier of the source, a word or
two for what the relationship does, the identifier of the destination, with hyphens between them.
A relationship is absorbed when its identifier is taken, so an edge survives as long as no other
edge is spelled the same way. The identifiers of the ends are free, and they may contain the words
that stand between them: `order` connected to `cash-to-ledger-db` and `order-to-cash` connected to
`ledger-db` are spelled the same. Sources without such words are read off the identifier.

Main definitions:

* `Link`, `Link.spell`: what stands between two ends, and the identifier that it makes of them.
* `Identifier.Plain`: none of the words of an identifier begins a link.
* `Due`: the edges that the rows of the facts ask for.

Results:

* `Link.spell_injective`: plain sources, links and destinations are read off the spelling.
* `same_ends_of_same_id`: relationships with plain sources and one identifier have the same ends.
* `synthesize_keeps_due`: the identifier of every edge that is due is in the document, and between
  the right ends when the sources are plain.
* `synthesize_loses_due`: otherwise the edge may be lost.
-/

namespace ArchDoc

/-! ## Words -/

namespace Identifier

/-- The words of an identifier. -/
def words (id : String) : List String :=
  (Path.splitChars '-' id.toList).map String.ofList

/-- A hyphen keeps words apart. -/
theorem words_append (a b : String) : words (a ++ "-" ++ b) = words a ++ words b := by
  have hchars : (a ++ "-" ++ b).toList = a.toList ++ '-' :: b.toList := by
    simp [String.toList_append]
  unfold words
  rw [hchars, Path.splitChars_append, List.map_append]

theorem words_injective : Function.Injective words := by
  intro a b h
  have hblocks : Path.splitChars '-' a.toList = Path.splitChars '-' b.toList :=
    List.map_injective_iff.mpr (fun _ _ => String.ofList_injective) h
  have hchars : a.toList = b.toList := by
    rw [← Path.intercalate_splitChars '-' a.toList, hblocks, Path.intercalate_splitChars]
  exact String.toList_injective hchars

end Identifier

open Identifier

/-! ## Links -/

/-- What a relationship does between its ends, as its identifier spells it. -/
inductive Link where
  | interacts
  | leadsTo
  | publishesTo
  | consumedBy
  | contains
  deriving DecidableEq

namespace Link

/-- The words of a link, with hyphens between them. -/
def name : Link → String
  | interacts => "interacts"
  | leadsTo => "to"
  | publishesTo => "publishes-to"
  | consumedBy => "consumed-by"
  | contains => "contains"

/-- What an identifier has between the ends. -/
def text : Link → String
  | interacts => "-interacts-"
  | leadsTo => "-to-"
  | publishesTo => "-publishes-to-"
  | consumedBy => "-consumed-by-"
  | contains => "-contains-"

/-- The first word of a link. -/
def opening : Link → String
  | interacts => "interacts"
  | leadsTo => "to"
  | publishesTo => "publishes"
  | consumedBy => "consumed"
  | contains => "contains"

/-- The first words of all links. -/
def openings : List String :=
  [interacts, leadsTo, publishesTo, consumedBy, contains].map opening

/-- The kind of the relationships with a link. -/
def kind : Link → RelationshipKind
  | interacts => .interacts
  | leadsTo | publishesTo | consumedBy => .connects
  | contains => .composedOf

/-- The identifier of a relationship. -/
def spell (link : Link) (source destination : String) : String :=
  source ++ link.text ++ destination

theorem text_eq (link : Link) : link.text = "-" ++ link.name ++ "-" := by
  cases link <;> decide

theorem opening_mem (link : Link) : link.opening ∈ openings := by
  cases link <;> decide

theorem opening_injective : Function.Injective opening := by
  intro a b h
  cases a <;> cases b <;> first | rfl | exact absurd h (by decide)

theorem words_name (link : Link) : ∃ rest, words link.name = link.opening :: rest := by
  cases link with
  | interacts | leadsTo | contains => exact ⟨[], by decide⟩
  | publishesTo => exact ⟨["to"], by decide⟩
  | consumedBy => exact ⟨["by"], by decide⟩

theorem words_spell (link : Link) (source destination : String) :
    words (link.spell source destination) =
      words source ++ (words link.name ++ words destination) := by
  have hspell :
      link.spell source destination = source ++ "-" ++ (link.name ++ "-" ++ destination) := by
    simp [spell, text_eq, String.append_assoc]
  rw [hspell, words_append, words_append]

end Link

/-- None of the words of an identifier begins a link. -/
def Identifier.Plain (id : String) : Prop :=
  ∀ word ∈ words id, word ∉ Link.openings

instance (id : String) : Decidable (Plain id) :=
  inferInstanceAs (Decidable (∀ word ∈ words id, word ∉ Link.openings))

namespace Link

/-- The words before the first opening are those of a plain source. -/
theorem takeWhile_words_spell {source : String} (h : Plain source) (link : Link)
    (destination : String) :
    (words (link.spell source destination)).takeWhile (· ∉ openings) = words source := by
  obtain ⟨rest, hname⟩ := link.words_name
  have hstop : (link.opening :: (rest ++ words destination)).takeWhile (· ∉ openings) = [] := by
    simp [link.opening_mem]
  rw [words_spell, hname, List.cons_append, List.takeWhile_append_of_pos, hstop, List.append_nil]
  intro word hword
  simpa using h word hword

/-- What is spelled from a plain source is read off the spelling. -/
theorem spell_injective {a b : Link} {source source' destination destination' : String}
    (hplain : Plain source) (hplain' : Plain source')
    (h : a.spell source destination = b.spell source' destination') :
    a = b ∧ source = source' ∧ destination = destination' := by
  have hsource : words source = words source' := by
    rw [← takeWhile_words_spell hplain a destination, h, takeWhile_words_spell hplain']
  have hrest : words a.name ++ words destination = words b.name ++ words destination' := by
    have hwords := congrArg words h
    rw [words_spell, words_spell, hsource] at hwords
    exact List.append_cancel_left hwords
  obtain ⟨rest, hname⟩ := a.words_name
  obtain ⟨rest', hname'⟩ := b.words_name
  have hlink : a = b := by
    rw [hname, hname'] at hrest
    exact opening_injective (List.cons.inj hrest).1
  subst hlink
  exact ⟨rfl, words_injective hsource, words_injective (List.append_cancel_left hrest)⟩

end Link

/-- A relationship is of the kind of a link, and its identifier is spelled with it. -/
structure Relationship.SpelledBy (r : Relationship) (link : Link) : Prop where
  kind : r.kind = link.kind
  id : r.id = link.spell r.source.node r.destination.node

/-- Relationships with plain sources and one identifier have the same kind and the same ends. -/
theorem Relationship.same_ends_of_same_id {r r' : Relationship} {link link' : Link}
    (h : r.SpelledBy link) (h' : r'.SpelledBy link') (hplain : Plain r.source.node)
    (hplain' : Plain r'.source.node) (hid : r.id = r'.id) :
    r.kind = r'.kind ∧ r.source.node = r'.source.node ∧
      r.destination.node = r'.destination.node := by
  rw [h.id, h'.id] at hid
  obtain ⟨hlink, hsource, hdestination⟩ := Link.spell_injective hplain hplain' hid
  exact ⟨by rw [h.kind, h'.kind, hlink], hsource, hdestination⟩

namespace Synthesis

open ArchDoc.Fact

/-! ## Spelling what is offered -/

theorem spelledBy_of_offered {input : Input} {r : Relationship}
    (h : r ∈ offeredRelationships input) : ∃ link, r.SpelledBy link := by
  cases form_of_offered h with
  | interaction hprimary => exact ⟨.interacts, rfl, rfl⟩
  | database owner id => exact ⟨.leadsTo, rfl, rfl⟩
  | externalService caller call => exact ⟨.leadsTo, rfl, rfl⟩
  | producer service node protocol => exact ⟨.publishesTo, rfl, rfl⟩
  | consumer service node protocol => exact ⟨.consumedBy, rfl, rfl⟩
  | composition hroot hservice => exact ⟨.contains, rfl, rfl⟩

/-! ## Edges that are due -/

/-- The edges that facts ask for: the first row of each database and the first call of each target
with an owner, every messaging row with an owner and a role, to the node that the first row of its
destination names, and the composition of the system from each registered service. -/
inductive Due (facts : Facts) (owners : Owners) (system : Option String) : Relationship → Prop where
  | database {row : DatabaseConnection} {owner : String}
      (hrow : FirstOf (fun row => databaseId row.entityName)
        (namedEntities (facts.rows .databaseConnections)) row)
      (howner : databaseOwner owners row = some owner) :
      Due facts owners system (databaseRelationship owner (databaseId row.entityName))
  | externalService {call : ExternalServiceCall} {caller : String}
      (hcall : FirstOf (fun call => slug call.targetService)
        (namedTargets (facts.rows .externalServiceCalls)) call)
      (hcaller : owners.resolve call.clientClass = some caller) :
      Due facts owners system (externalServiceRelationship caller call)
  | producer {row naming : MessagingConnection} {service : String}
      (hrow : row ∈ namedDestinations (facts.rows .messagingConnections))
      (hnaming : FirstOf (·.destination)
        (namedDestinations (facts.rows .messagingConnections)) naming)
      (hsame : naming.destination = row.destination)
      (hservice : owners.resolve row.className = some service)
      (hrole : row.messagingRole = .producer) :
      Due facts owners system (producerRelationship service (messagingNode naming).id
        (messagingProtocol row.messagingType))
  | consumer {row naming : MessagingConnection} {service : String}
      (hrow : row ∈ namedDestinations (facts.rows .messagingConnections))
      (hnaming : FirstOf (·.destination)
        (namedDestinations (facts.rows .messagingConnections)) naming)
      (hsame : naming.destination = row.destination)
      (hservice : owners.resolve row.className = some service)
      (hrole : row.messagingRole = .consumer) :
      Due facts owners system (consumerRelationship service (messagingNode naming).id
        (messagingProtocol row.messagingType))
  | composition {root service : String} (hroot : system = some root)
      (hservice : service ∈ owners.serviceIds) :
      Due facts owners system (compositionRelationship root service)

theorem namingRow_of_firstOf {rows : List MessagingConnection} {row naming : MessagingConnection}
    (hnaming : FirstOf (·.destination) rows naming)
    (hsame : naming.destination = row.destination) : namingRow rows row = naming := by
  rw [namingRow, ← hsame, hnaming.find?_eq]
  rfl

/-- Every edge that is due is offered. -/
theorem Due.offered {facts : Facts} {edge : Relationship}
    (h : Due facts (registeredOwners facts) (projectId facts) edge) (config : Config) :
    edge ∈ offeredRelationships ⟨facts, config⟩ := by
  cases h with
  | database hrow howner =>
    refine List.mem_flatMap.mpr ⟨.databases, by decide, ?_⟩
    refine List.mem_filterMap.mpr ⟨_, hrow.mem_keepFirst, ?_⟩
    rw [howner]
    rfl
  | externalService hcall hcaller =>
    refine List.mem_flatMap.mpr ⟨.externalServices, by decide, ?_⟩
    refine List.mem_filterMap.mpr ⟨_, hcall.mem_keepFirst, ?_⟩
    rw [hcaller]
    rfl
  | producer hrow hnaming hsame hservice hrole =>
    refine List.mem_flatMap.mpr ⟨.messaging, by decide, ?_⟩
    refine List.mem_filterMap.mpr ⟨_, hrow, ?_⟩
    rw [namingRow_of_firstOf hnaming hsame, messagingEdge, hservice, Option.bind_some, hrole]
  | consumer hrow hnaming hsame hservice hrole =>
    refine List.mem_flatMap.mpr ⟨.messaging, by decide, ?_⟩
    refine List.mem_filterMap.mpr ⟨_, hrow, ?_⟩
    rw [namingRow_of_firstOf hnaming hsame, messagingEdge, hservice, Option.bind_some, hrole]
  | composition hroot hservice =>
    refine List.mem_flatMap.mpr ⟨.composition, by decide, ?_⟩
    refine List.mem_flatMap.mpr ⟨_, Option.mem_toList.mpr hroot, List.mem_map_of_mem ?_⟩
    rw [← eraseDups_eq_keepFirst]
    exact hservice

/-! ## What becomes of them -/

/-- **Main theorem.** The identifier of every edge that is due is in the document of the facts. The
relationship that has it is the edge or one between the same ends and of the same kind, unless the
identifier of one of the two sources has a word that begins a link. -/
theorem synthesize_keeps_due {facts : Facts} {config : Config} {document : Document}
    (h : synthesize facts config = some document) {edge : Relationship}
    (hdue : Due facts (finalDraft facts config).owners (finalDraft facts config).systemId edge) :
    ∃ kept ∈ document.relationships, kept.id = edge.id ∧
      (Plain edge.source.node → Plain kept.source.node →
        kept.kind = edge.kind ∧ kept.source.node = edge.source.node ∧
          kept.destination.node = edge.destination.node) := by
  rw [owners_finalDraft, systemId_finalDraft] at hdue
  have hoffered : edge ∈ offeredRelationships ⟨facts, config⟩ := hdue.offered config
  obtain ⟨kept, hkept, hid⟩ := kept_of_offered h hoffered
  refine ⟨kept, hkept, hid, ?_⟩
  intro hplain hplain'
  obtain ⟨link, hedge⟩ := spelledBy_of_offered hoffered
  obtain ⟨link', hkept'⟩ := spelledBy_of_offered (offered_of_mem h hkept)
  exact Relationship.same_ends_of_same_id hkept' hedge hplain' hplain hid

/-- The database that the service of orders keeps. -/
def cashToLedger : DatabaseConnection :=
  { entityName := "CashToLedger", repositoryClass := some "shop.Order" }

/-- The database that the service from order to cash keeps. -/
def ledger : DatabaseConnection :=
  { entityName := "Ledger", repositoryClass := some "cash.OrderToCash" }

/-- Two services with a database each, whose connections are spelled the same. -/
def ledgers : Facts :=
  ((Facts.empty.insert .serviceEndpoints
      { serviceClass := "shop.Order", httpMethod := "GET", path := "/o", framework := "" }).insert
    .serviceEndpoints
      { serviceClass := "cash.OrderToCash", httpMethod := "GET", path := "/c",
        framework := "" }).extend .databaseConnections [cashToLedger, ledger]

theorem namedEntities_ledgers :
    namedEntities (ledgers.rows .databaseConnections) = [cashToLedger, ledger] := by
  decide

set_option maxRecDepth 20000 in
theorem due_cashToLedger :
    Due ledgers (finalDraft ledgers .default).owners (finalDraft ledgers .default).systemId
      (databaseRelationship "order" (databaseId cashToLedger.entityName)) := by
  rw [owners_finalDraft]
  refine .database ⟨[], [ledger], namedEntities_ledgers, ?_⟩ (by decide)
  intro other hother
  exact absurd hother List.not_mem_nil

set_option maxRecDepth 20000 in
theorem due_ledger :
    Due ledgers (finalDraft ledgers .default).owners (finalDraft ledgers .default).systemId
      (databaseRelationship "order-to-cash" (databaseId ledger.entityName)) := by
  rw [owners_finalDraft]
  refine .database ⟨[cashToLedger], [], namedEntities_ledgers, ?_⟩ (by decide)
  intro other hother
  rw [List.mem_singleton.mp hother]
  decide

/-- The edge that comes first is in the document. -/
theorem synthesize_keeps_cashToLedger :
    ∃ document, synthesize ledgers .default = some document ∧
      ∃ kept ∈ document.relationships, kept.kind = .connects ∧ kept.source.node = "order" ∧
        kept.destination.node = "cash-to-ledger-db" := by
  obtain ⟨document, hdocument⟩ : ∃ document, synthesize ledgers .default = some document :=
    ⟨_, synthesize_of_architectural (by decide +kernel)⟩
  have hplain : ∀ r ∈ document.relationships, r.id = "order-to-cash-to-ledger-db" →
      Plain r.source.node := by
    rw [eq_of_synthesize hdocument]
    decide +kernel
  have hspelled : (databaseRelationship "order" (databaseId cashToLedger.entityName)).id =
      "order-to-cash-to-ledger-db" := by decide +kernel
  obtain ⟨kept, hkept, hid, hends⟩ := synthesize_keeps_due hdocument due_cashToLedger
  obtain ⟨hkind, hsource, hdestination⟩ :=
    hends (by decide +kernel) (hplain kept hkept (hid.trans hspelled))
  refine ⟨document, hdocument, kept, hkept, hkind, hsource, ?_⟩
  rw [hdestination]
  decide +kernel

/-- The edge that comes second is spelled like the first one and is lost. -/
theorem synthesize_loses_due :
    Due ledgers (finalDraft ledgers .default).owners (finalDraft ledgers .default).systemId
        (databaseRelationship "order-to-cash" (databaseId ledger.entityName)) ∧
      ∃ document, synthesize ledgers .default = some document ∧
        ∀ r ∈ document.relationships,
          ¬(r.kind = .connects ∧ r.source.node = "order-to-cash" ∧
            r.destination.node = databaseId ledger.entityName) := by
  refine ⟨due_ledger, _, synthesize_of_architectural (by decide +kernel), ?_⟩
  decide +kernel

end Synthesis

end ArchDoc
