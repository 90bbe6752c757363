import ArchDoc.Document
import ArchDoc.Json.RecordReader

/-!
# Settings of the synthesis

The values that facts do not determine. Every field has a default, so a record may leave any of
them out.
-/

namespace ArchDoc.Synthesis

/-- What the facts leave open: the schema of the document, the protocol and the port of services
when no server is configured, and how many endpoints a description lists. -/
structure Config where
  schema : String := Document.defaultSchema
  defaultProtocol : String := "HTTP"
  defaultPort : UInt16 := 8080
  endpointSummaryLimit : UInt64 := 5
  deriving DecidableEq

namespace Config

/-- The defaults. -/
def default : Config := {}

instance : Record Config where
  columns :=
    [⟨"schema", true⟩, ⟨"default_protocol", true⟩, ⟨"default_port", true⟩,
      ⟨"endpoint_summary_limit", true⟩]
  ofCells
    | [a, b, c, d] => do
      return {
        schema := ← Cell.orDefault Cell.text default.schema a
        defaultProtocol := ← Cell.orDefault Cell.text default.defaultProtocol b
        defaultPort := ← Cell.orDefault Cell.port default.defaultPort c
        endpointSummaryLimit := ← Cell.orDefault Cell.count default.endpointSummaryLimit d }
    | _ => none
  toCells config :=
    [.str config.schema, .str config.defaultProtocol, .int config.defaultPort.toNat,
      .int config.endpointSummaryLimit.toNat]

/-- What the fields hold. -/
def fields : List RecordReader.Field :=
  [⟨"schema", .text⟩, ⟨"default_protocol", .text⟩, ⟨"default_port", .port⟩,
    ⟨"endpoint_summary_limit", .count⟩]

/-- The settings of a JSON text. -/
def ofText? (text : String) : Except Fault Config :=
  Record.ofText? fields text

end Config

end ArchDoc.Synthesis
