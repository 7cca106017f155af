import Monik.Runs
import Monik.Tables
import Monik.Persistence
import Monik.Protocol
import Monik.ControllerStore
import Monik.Operations
import Monik.Rollouts
import Monik.Submission
import Monik.JobEvolution
import Monik.JobSteps
import Monik.RolloutSteps
import Monik.SubmissionSteps
import Monik.ServerSteps
import Monik.DispatchSafety
import Monik.RolloutInvariant
import Monik.RolloutSafety
import Monik.WaveSafety
import Monik.RolloutBound
import Monik.Ingestion
import Monik.IngestionSafety
import Monik.AgentRuntime
import Monik.ReportHandler
import Monik.ControllerRule
import Monik.StatusAgreement
import Monik.JobPermanence
import Monik.ResultSteps
import Monik.CollectionEvidence
import Monik.ReceiptDrain
import Monik.LossyReports
import Monik.RestoredDatabase
import Monik.Credentials
import Monik.CredentialRotation
import Monik.SparkPolicy
import Monik.SparkCoordinator
import Monik.SparkExecute
import Monik.SparkExisting
import Monik.SparkProjection
import Monik.ReservationSafety
import Monik.Lifecycle
import Monik.WorkerJournal
import Monik.EffectOnce
import Monik.EncodedText
import Monik.CrashPoints
import Monik.ServiceHost
import Monik.WorkerReplacement
import Monik.IntentResolution
import Monik.Migration
import Monik.MigrationDecision
import Monik.KeyedMerge
import Monik.SparkIngestion
import Monik.SparkBudget
import Monik.SparkReceipts
import Monik.ModelEvidence
import Monik.EvidenceKept
import Monik.ReceiptOrder
import Monik.StageAuthority
import Monik.AgentRows
import Monik.CredentialSafety
import Monik.CandidateAdmission
import Monik.Enrollment
import Monik.ReleaseMetadata
import Monik.ReleaseRollback
import Monik.AppliedConfig
import Monik.Spool
import Monik.SpoolAccounting
import Monik.SpoolRuns
import Monik.LifecycleExclusion
import Monik.OperationAttention
import Monik.LiveReports
import Monik.NamedGenerations
import Monik.SparkBroker
import Monik.SparkGenerations
import Monik.SparkCapacity
import Monik.SparkRequests
import Monik.SparkLeases
import Monik.ControlJournal
import Monik.Incidents
import Monik.Streaks
import Monik.IncidentRuns
import Monik.HostRules
import Monik.ServiceAbsence
import Monik.ExpiryProgress
import Monik.StoreWrites
import Monik.Idempotency
import Monik.ConsoleFrames
import Monik.PasswordSessions
import Monik.StrictJson
import Monik.LogBatches
import Monik.Redaction
import Monik.HealthAdvice
import Monik.InstallerBundle
import Monik.BaselineChecks
import Monik.LogViewers
