import ArchDoc.Main
import ArchDoc.Proofs.Absorption
import ArchDoc.Proofs.Candidates
import ArchDoc.Store.Memory
import ArchDoc.Proofs.Offers
import ArchDoc.Proofs.PassRuns
import ArchDoc.Proofs.Links
import ArchDoc.Proofs.Cycles
import ArchDoc.Proofs.PlaceholderText
import ArchDoc.Proofs.ChangingFacts
import ArchDoc.Proofs.ServiceDescriptions
import ArchDoc.Proofs.Stability
import ArchDoc.Proofs.Uniqueness
import ArchDoc.Proofs.Failures
import ArchDoc.Proofs.Histories
import ArchDoc.Proofs.Preservation
import ArchDoc.Proofs.PhaseTracking
import ArchDoc.Proofs.JsonRoundTrip
import ArchDoc.Proofs.DocumentText
import ArchDoc.Proofs.FinalDraft
import ArchDoc.Proofs.EdgeIdentifiers
import ArchDoc.Proofs.EndKinds
import ArchDoc.Proofs.FileTrees
import ArchDoc.Proofs.DirectoryStore
import ArchDoc.Proofs.FaithfulRuns
import ArchDoc.Proofs.CommandAgreement
import ArchDoc.Proofs.FactTables
import ArchDoc.Proofs.SnapshotReading
import ArchDoc.Proofs.RecordForms
import ArchDoc.Proofs.SnapshotRoundTrip
import ArchDoc.Proofs.NodeIdentifiers
import ArchDoc.Proofs.GrowingFacts
import ArchDoc.Proofs.ReorderedFacts
import ArchDoc.Proofs.RelevantColumns
import ArchDoc.Proofs.EmptyColumns
import ArchDoc.Proofs.PassOrders
import ArchDoc.Proofs.FileReports
import ArchDoc.Proofs.Registry
import ArchDoc.Proofs.AddedRows
import ArchDoc.Proofs.DefectiveFiles
import ArchDoc.Proofs.RefusedCommands
import ArchDoc.Proofs.RepeatedPasses
import ArchDoc.Proofs.Slugs
import ArchDoc.Proofs.WellFormedIdentifiers
import ArchDoc.Proofs.Ownership
import ArchDoc.Proofs.StableSlugs
import ArchDoc.Proofs.SlugSegments
import ArchDoc.Proofs.MemoryRuns
import ArchDoc.Proofs.IndependentDocuments
import ArchDoc.Proofs.AllOrNothing
import ArchDoc.Proofs.PlainVolumes
import ArchDoc.Proofs.DefaultSettings
