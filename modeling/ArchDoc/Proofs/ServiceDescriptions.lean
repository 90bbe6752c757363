import ArchDoc.Proofs.PassRuns

/-!
# What services are called and how they are described

The services pass gathers the rows by class, with a group for each class in the order in which the
classes appear. Classes come first come first served, while of the descriptions given for a class
the last one counts.

Main definitions:

* `InOrderOfAppearance`: the classes of rows, each once, in the order of their first rows.
* `Describes`: the description of a class, by the three ways to get it.

Results:

* `describes_serviceNode`: the node of a service has the description of its class.
* `services_described`: what the services pass registers and how it describes the services.
-/

namespace ArchDoc

/-! ## First appearances -/

/-- The first elements of a list stand in the order in which they appear in it. -/
theorem pairwise_idxOf_keepFirst {κ : Type} [DecidableEq κ] (as : List κ) :
    (keepFirst id as).Pairwise fun a b => as.idxOf a < as.idxOf b := by
  induction as with
  | nil => exact List.Pairwise.nil
  | cons a rest ih =>
    rw [keepFirst_cons, List.pairwise_cons]
    constructor
    · intro b hb
      have hne : b ≠ a := by simpa using (List.mem_filter.mp hb).2
      rw [List.idxOf_cons_self, List.idxOf_cons_ne _ hne.symm]
      exact Nat.succ_pos _
    · refine (ih.filter _).imp_of_mem fun {b c} hb hc hlt => ?_
      have hb : b ≠ a := by simpa using (List.mem_filter.mp hb).2
      have hc : c ≠ a := by simpa using (List.mem_filter.mp hc).2
      rw [List.idxOf_cons_ne _ hb.symm, List.idxOf_cons_ne _ hc.symm]
      exact Nat.succ_lt_succ hlt

namespace Synthesis

open ArchDoc.Fact Identifier

/-! ## Classes in the order of their rows -/

/-- The classes of rows, each once and in the order of their first rows; the empty class is none
of them. -/
structure InOrderOfAppearance (rows : List ServiceEndpoint) (classes : List String) : Prop where
  mem_iff : ∀ {className},
    className ∈ classes ↔ className ≠ "" ∧ ∃ row ∈ rows, row.serviceClass = className
  ascending : classes.Pairwise fun a b =>
    (rows.map (·.serviceClass)).idxOf a < (rows.map (·.serviceClass)).idxOf b

theorem inOrderOfAppearance_classesOf (rows : List ServiceEndpoint) :
    InOrderOfAppearance rows (classesOf rows) where
  mem_iff := mem_classesOf
  ascending := by
    have hfilter := filter_keepFirst id (fun className : String => !className.isEmpty)
      (rows.map (·.serviceClass))
    rw [classesOf]
    exact hfilter ▸ (pairwise_idxOf_keepFirst _).filter _

/-! ## Descriptions -/

/-- The endpoints of rows in words. -/
def listing (rows : List ServiceEndpoint) : String :=
  "REST API with endpoints: " ++
    ", ".intercalate (rows.map fun row => row.httpMethod ++ " " ++ row.path)

/-- Up to the limit, all endpoints are listed. -/
theorem endpointSummary_of_le {limit : Nat} {rows : List ServiceEndpoint}
    (h : rows.length ≤ limit) : endpointSummary limit rows = listing rows := by
  unfold endpointSummary listing
  dsimp only
  rw [if_neg (Nat.not_lt_of_le h), List.take_of_length_le h, String.append_empty]

/-- Beyond the limit, the endpoints that are left out are counted. -/
theorem endpointSummary_of_lt {limit : Nat} {rows : List ServiceEndpoint}
    (h : limit < rows.length) :
    endpointSummary limit rows = listing (rows.take limit) ++ " and " ++
      toString (rows.drop limit).length ++ " more" := by
  unfold endpointSummary listing
  dsimp only
  simp only [if_pos h, List.length_drop, String.append_assoc]

/-- No description is given for a class, or only empty ones. -/
def Undescribed (input : Input) (className : String) : Prop :=
  ∀ row ∈ input.facts.rows .classDescriptions, row.className = className → row.description = ""

/-- How a class is described: by the last description given for it that is not empty, else by its
endpoints, of which no more than the limit are listed and the others counted. -/
inductive Describes (input : Input) (className : String) : String → Prop where
  | given {before after : List ClassDescription} {row : ClassDescription}
      (hrows : input.facts.rows .classDescriptions = before ++ row :: after)
      (hclass : row.className = className) (hdescription : row.description ≠ "")
      (hlast : ∀ later ∈ after, later.className = className → later.description = "") :
      Describes input className row.description
  | complete (hnone : Undescribed input className)
      (hlimit : (rowsOf (input.facts.rows .serviceEndpoints) className).length ≤
        input.config.endpointSummaryLimit.toNat) :
      Describes input className
        (listing (rowsOf (input.facts.rows .serviceEndpoints) className))
  | abridged {listed more : List ServiceEndpoint} (hnone : Undescribed input className)
      (hrows : rowsOf (input.facts.rows .serviceEndpoints) className = listed ++ more)
      (hlimit : listed.length = input.config.endpointSummaryLimit.toNat) (hmore : more ≠ []) :
      Describes input className (listing listed ++ " and " ++ toString more.length ++ " more")

/-- A description that is found is the last one of the class that is not empty. -/
theorem describes_of_description? {input : Input} {className description : String}
    (h : input.description? className = some description) :
    Describes input className description := by
  obtain ⟨row, hfind, rfl⟩ := Option.map_eq_some_iff.mp h
  obtain ⟨hrow, after, before, hreverse, hlast⟩ := List.find?_eq_some_iff_append.mp hfind
  have hrows : input.facts.rows .classDescriptions = before.reverse ++ row :: after.reverse := by
    rw [← List.reverse_reverse (input.facts.rows .classDescriptions), hreverse]
    simp
  simp only [Bool.and_eq_true, beq_iff_eq, Bool.not_eq_true', String.isEmpty_eq_false_iff] at hrow
  refine .given hrows hrow.1 hrow.2 fun later hlater hclass => ?_
  simpa [hclass] using hlast later (List.mem_reverse.mp hlater)

theorem undescribed_of_description? {input : Input} {className : String}
    (h : input.description? className = none) : Undescribed input className := by
  intro row hrow hclass
  have hnone := List.find?_eq_none.mp (Option.map_eq_none_iff.mp h) row (List.mem_reverse.mpr hrow)
  simpa [hclass] using hnone

/-- The summary of endpoints describes a class that has no description. -/
theorem describes_endpointSummary {input : Input} {className : String}
    (hnone : Undescribed input className) :
    Describes input className (endpointSummary input.config.endpointSummaryLimit.toNat
      (rowsOf (input.facts.rows .serviceEndpoints) className)) := by
  by_cases hfew : (rowsOf (input.facts.rows .serviceEndpoints) className).length ≤
      input.config.endpointSummaryLimit.toNat
  · rw [endpointSummary_of_le hfew]
    exact .complete hnone hfew
  · have hmany := Nat.lt_of_not_le hfew
    rw [endpointSummary_of_lt hmany]
    refine .abridged hnone (List.take_append_drop _ _).symm ?_ ?_
    · rw [List.length_take, Nat.min_eq_left (Nat.le_of_lt hmany)]
    · rwa [Ne, List.drop_eq_nil_iff]

/-- The node of a service has the description of its class. -/
theorem describes_serviceNode (input : Input) (className : String) :
    Describes input className (serviceNode input className).description := by
  unfold serviceNode exposingNode
  cases hdescription : input.description? className with
  | some description => exact describes_of_description? hdescription
  | none => exact describes_endpointSummary (undescribed_of_description? hdescription)

/-! ## The services pass -/

/-- The services pass offers a node for each class, so a class whose identifier is new has its
node. -/
theorem find?_nodes_services {input : Input} {before after : List String} {className : String}
    (hclasses : classesOf (input.facts.rows .serviceEndpoints) = before ++ className :: after)
    (hnew : ∀ earlier ∈ before, serviceId earlier ≠ serviceId className) :
    (runPass input .empty .services).nodes.find? (fun node => node.id = serviceId className) =
      some (serviceNode input className) := by
  have hcandidates : candidateNodes input Draft.empty.owners .services =
      (before ++ className :: after).map (serviceNode input) := by
    rw [← hclasses]
    rfl
  have hfirst : FirstOf Node.id (candidateNodes input Draft.empty.owners .services)
      (serviceNode input className) := by
    rw [hcandidates]
    refine ⟨before.map (serviceNode input), after.map (serviceNode input), by simp, ?_⟩
    intro node hnode
    obtain ⟨earlier, hearlier, rfl⟩ := List.mem_map.mp hnode
    exact hnew earlier hearlier
  rw [nodes_runPass input Draft.distinct_empty, find?_keepFirst]
  exact hfirst.find?_eq

/-- **Main theorem.** The services pass on an empty draft registers every class that exposes
endpoints once, in the order in which the classes appear, for the service named by the simple name
of the class; its loop over the rows gathers for each of them the rows of that class. If no earlier
class has the identifier of a class, then the node of that identifier has the description of the
class. -/
theorem services_described (input : Input) :
    ∃ classes, InOrderOfAppearance (input.facts.rows .serviceEndpoints) classes ∧
      grouped (input.facts.rows .serviceEndpoints) = classes.map (fun className =>
        (className, (input.facts.rows .serviceEndpoints).filter (·.serviceClass == className))) ∧
      (Pass.services.steps input .empty).filterMap Step.owner? =
        classes.map (fun className => (className, slug (ClassName.simpleName className))) ∧
      (runPass input .empty .services).owners.entries =
        classes.map (fun className => (className, slug (ClassName.simpleName className))) ∧
      ∀ before className after, classes = before ++ className :: after →
        (∀ earlier ∈ before,
          slug (ClassName.simpleName earlier) ≠ slug (ClassName.simpleName className)) →
        ∃ node, ((runPass input .empty .services).toDocument input.config.schema).node?
            (slug (ClassName.simpleName className)) = some node ∧
          Describes input className node.description := by
  refine ⟨classesOf (input.facts.rows .serviceEndpoints), inOrderOfAppearance_classesOf _,
    grouped_eq _, ?_, ?_, ?_⟩
  · exact owners_steps input .empty .services
  · rw [entries_runPass input Draft.distinct_empty, if_pos rfl]
    exact keepFirst_eq_self (nodup_registeredOwners input.facts)
  · intro before className after hclasses hnew
    exact ⟨serviceNode input className, find?_nodes_services hclasses hnew,
      describes_serviceNode input className⟩

/-- Rows of two classes in turn and one without a class: of the first class one endpoint is listed,
and the second one has two descriptions. -/
example :
    let endpoint (className path : String) : ServiceEndpoint :=
      { serviceClass := className, httpMethod := "GET", path, framework := "" }
    let facts := (Facts.empty.extend .serviceEndpoints
      [endpoint "shop.Orders" "/a", endpoint "" "/b", endpoint "shop.Users" "/c",
        endpoint "shop.Orders" "/d"]).extend .classDescriptions
      [{ className := "shop.Users", description := "Old" },
        { className := "shop.Users", description := "New" },
        { className := "shop.Users", description := "" }]
    (runPass ⟨facts, { endpointSummaryLimit := 1 }⟩ .empty .services).nodes.map (fun node =>
      (node.id, node.description)) =
        [("orders", "REST API with endpoints: GET /a and 1 more"), ("users", "New")] := by
  decide +kernel

end Synthesis

end ArchDoc
