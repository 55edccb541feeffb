import Dataflow.CommandLine.Run
import Dataflow.CommandLine.World
import Dataflow.Main
import Dataflow.Primitives.Scripted
import Dataflow.Proofs.ReferenceLedger
import Dataflow.Proofs.CommandAccounts
import Dataflow.Proofs.CommandSafety
import Dataflow.Proofs.EngineAccounts
import Dataflow.Proofs.ReferenceCounts
import Dataflow.Proofs.CellSafety
import Dataflow.Proofs.JsonLayout
import Dataflow.Proofs.LawfulEncoding
import Dataflow.Proofs.SnapshotRoundTrip
import Dataflow.Proofs.CheckpointFidelity
import Dataflow.Proofs.CommandRules
import Dataflow.Proofs.StepEffects
import Dataflow.Proofs.Readiness
import Dataflow.Proofs.IdleStore
import Dataflow.Proofs.StalledTasks
import Dataflow.Proofs.LeakReport
import Dataflow.Proofs.Interleaving
import Dataflow.Proofs.StoreUnion
import Dataflow.Proofs.RenamedCommands
import Dataflow.Proofs.IndependentRuns
import Dataflow.Proofs.BlockGrammar
import Dataflow.Proofs.ListingRoundTrip
import Dataflow.Proofs.ReadPolicies
import Dataflow.Proofs.TaskConservation
import Dataflow.Proofs.StepFailures
import Dataflow.Proofs.NameProvenance
import Dataflow.Proofs.RunTermination
import Dataflow.Proofs.FileWrites
import Dataflow.Proofs.PacedSteps
import Dataflow.Proofs.BudgetedRuns
import Dataflow.Proofs.StoreSweep
import Dataflow.Proofs.FailedSteps
import Dataflow.Proofs.PrimitiveSteps
import Dataflow.Proofs.FunctionRuns
import Dataflow.Proofs.RunAccounts
import Dataflow.Proofs.ProgramIdentity
import Dataflow.Proofs.SourceLayout
import Dataflow.Proofs.ErrorPlaces
import Dataflow.Proofs.FunctionTable
import Dataflow.Proofs.FlagPlacement
import Dataflow.Proofs.StoreHistory
import Dataflow.Proofs.TokenFidelity
import Dataflow.Proofs.CommandDecoding
