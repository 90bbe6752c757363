import ArchDoc.Synthesis.Pass

/-!
# Synthesis

The architecture document of a set of facts. Facts that only decorate a graph, such as data
assets and server settings, make no document on their own.

Main definitions:

* `synthesize`: the document of facts, if there is one.
* `synthesizeText`: its text.
* `remarks`: what is reported meanwhile.
-/

namespace ArchDoc.Synthesis

/-- The draft that all passes leave. -/
def finalDraft (facts : Facts) (config : Config) : Draft :=
  runPasses ⟨facts, config⟩ .empty Pass.inOrder

/-- The document of facts, unless none of them justifies one. -/
def synthesize (facts : Facts) (config : Config) : Option Document :=
  if facts.isArchitectural then some ((finalDraft facts config).toDocument config.schema)
  else none

/-- The text of the document of facts. -/
def synthesizeText (facts : Facts) (config : Config) : Option String :=
  (synthesize facts config).map Document.render

/-- What is reported when a draft is complete. -/
def draftSummary (draft : Draft) : Journal.Entry :=
  ⟨.info, .graph, "architecture graph built",
    [("nodes", .number draft.nodes.length), ("relationships", .number draft.relationships.length),
      ("services", .number draft.owners.count)]⟩

/-- What is reported during the synthesis. -/
def remarks (facts : Facts) (config : Config) : List Journal.Entry :=
  if facts.isArchitectural then
    passRemarks ⟨facts, config⟩ .empty Pass.inOrder ++ [draftSummary (finalDraft facts config)]
  else
    [⟨.debug, .synthesis, "no architectural facts, nothing to synthesize",
      [("rows", .number facts.totalRows)]⟩]

end ArchDoc.Synthesis
