import Mathlib.Data.List.Basic

/-! Words of the controller/agent protocol: statuses, the action registry, receipts and job
envelopes. JSON objects are association lists of scalars; time stamps are nanoseconds, as their
fixed-width text orders them. -/

namespace Monik.Protocol

abbrev Time := Int

def schemaVersion : Nat := 3

def second : Time := 1000000000
def minute : Time := 60 * second
def hour : Time := 60 * minute

/-- Default lifetime of a dispatched job. -/
def oneShotExpiry : Time := 10 * minute
/-- After this silence a target waits for its agent. -/
def unreachableContact : Time := 30 * second
/-- A report older than this is not a current one. -/
def staleContact : Time := 20 * second
/-- Contact age and tick distance a rollout observation tolerates. -/
def rolloutFreshContact : Time := 15 * second
/-- Age up to which raw observations are admitted and kept. -/
def rawRetention : Time := 48 * hour

inductive TargetStatus
  | queued | waitingOffline | accepted | running | awaitingConfirmation | succeeded
  | rejected | failed | rolledBack | unsupported | expired | cancelledBeforeExec
  | unknownResult
  deriving DecidableEq

def TargetStatus.terminal : TargetStatus → Bool
  | .succeeded | .failed | .rejected | .unsupported | .expired | .cancelledBeforeExec
  | .rolledBack => true
  | _ => false

def TargetStatus.workerReported : TargetStatus → Bool
  | .accepted | .running | .awaitingConfirmation | .succeeded | .failed | .rejected
  | .unsupported | .expired | .unknownResult | .rolledBack => true
  | _ => false

def TargetStatus.rank : TargetStatus → Nat
  | .accepted => 1
  | .running => 2
  | .awaitingConfirmation => 3
  | _ => 0

/-- `agent_jobs.status`: a target status, or one of three states only the controller uses. -/
inductive JobStatus
  | preparing | rolloutHeld | delivered
  | of (status : TargetStatus)
  deriving DecidableEq

def JobStatus.dispatchable : JobStatus → Bool
  | .delivered | .of .queued | .of .waitingOffline => true
  | _ => false

def JobStatus.unclaimed : JobStatus → Bool
  | .preparing | .rolloutHeld | .of .queued | .of .waitingOffline => true
  | _ => false

def JobStatus.guarded : JobStatus → Bool
  | .preparing | .delivered | .of .queued | .of .waitingOffline | .of .accepted
  | .of .running | .of .awaitingConfirmation => true
  | _ => false

def JobStatus.terminal : JobStatus → Bool
  | .of status => status.terminal
  | _ => false

def JobStatus.rank : JobStatus → Nat
  | .of status => status.rank
  | _ => 0

theorem terminal_not_dispatchable {status : JobStatus} (h : status.terminal) : status.dispatchable = false := by
  cases status with
  | of target =>
    cases target <;> simp_all [JobStatus.terminal, TargetStatus.terminal, JobStatus.dispatchable]
  | _ => cases h

inductive Scope
  | server | agents | serverJob
  deriving DecidableEq

inductive Action
  | modelStart | modelStop | modelRestart
  | sessionRevokeOthers | maintenanceCancel | enrollmentWindowSet | incidentUnacknowledge
  | enrollmentApprove | enrollmentReject | preferenceSave | profileApply | ruleSave
  | maintenanceSet | incidentAcknowledge | agentCollectNow | agentDiscoverNow
  | agentDiagnostics | agentRestart | checkApply | checkTrial | secretReplace
  | updateImport | updateRollout | updateRollback | updatePause | updateResume
  | operationCancelPending | operationRetrySelected
  | rebindPrepare | rebindArm | rebindActivate | rebindRetire
  | credentialRotate | credentialRevoke | trustStage | trustRetire
  | backupCreate | historyExport | agentArchive | enrollmentCreate
  | servicePin | serviceHide | servicePause | serviceIgnore | serviceRename
  | agentRename | agentPin
  deriving DecidableEq

def Action.scope : Action → Scope
  | .modelStart | .modelStop | .modelRestart | .profileApply | .agentCollectNow
  | .agentDiscoverNow | .agentDiagnostics | .agentRestart | .checkApply | .checkTrial
  | .secretReplace | .updateRollout | .updateRollback | .operationRetrySelected
  | .rebindPrepare | .rebindArm | .rebindActivate | .rebindRetire | .credentialRotate
  | .trustStage | .trustRetire | .servicePause | .serviceIgnore => .agents
  | .updateImport | .updatePause | .updateResume | .operationCancelPending | .backupCreate
  | .historyExport => .serverJob
  | _ => .server

def Action.isModel : Action → Bool
  | .modelStart | .modelStop | .modelRestart => true
  | _ => false

def Action.isUpdate : Action → Bool
  | .updateRollout | .updateRollback => true
  | _ => false

def Action.unavailable : Action → Bool
  | .operationRetrySelected => true
  | _ => false

def Action.lifecycleConflict : Action → Bool
  | .updateRollout | .updateRollback | .rebindActivate | .agentRestart | .credentialRotate
  | .trustRetire => true
  | _ => false

def Action.lifecycleId : Action → String
  | .updateRollout => "update.rollout"
  | .updateRollback => "update.rollback"
  | .rebindActivate => "rebind.activate"
  | .agentRestart => "agent.restart"
  | .credentialRotate => "credential.rotate"
  | .trustRetire => "trust.retire"
  | _ => ""

inductive Value
  | null
  | bool (b : Bool)
  | int (n : Int)
  | str (s : String)
  | raw (text : String)
  deriving DecidableEq

def Value.sprint : Value → String
  | .null => "<nil>"
  | .bool b => toString b
  | .int n => toString n
  | .str s => s
  | .raw text => text

def Value.text : Value → String
  | .str s => s
  | _ => ""

abbrev Fields := List (String × Value)

def Fields.get (fields : Fields) (key : String) : Value :=
  ((fields.find? fun f => f.1 == key).map Prod.snd).getD .null

def Fields.set (fields : Fields) (key : String) (value : Value) : Fields :=
  (key, value) :: fields.filter fun f => f.1 != key

def Fields.setAll (fields extra : Fields) : Fields :=
  extra.foldl (fun acc f => acc.set f.1 f.2) fields

structure JobReceipt where
  jobId : String
  operationId : String
  status : TargetStatus
  stage : String
  message : String
  errorCode : String
  retryable : Bool
  evidence : Fields
  (acceptedAt appliedAt verifiedAt : Option Time)
  deriving DecidableEq

structure JobEnvelope where
  jobId : String
  operationId : String
  action : Action
  schemaVersion : Nat
  notBefore : Time
  deadline : Option Time
  params : Fields
  deriving DecidableEq

/-- `HostMetrics`: the fields the agent row takes over, and the rest of the object. -/
structure Host where
  os : String
  arch : String
  body : String
  deriving DecidableEq

structure CheckObservation where
  serviceId : String
  checkId : String
  intervalSeconds : Int
  observedAt : Time
  vantage : String
  body : String
  deriving DecidableEq

/-- `DiscoveryDelta`: its start, the gaps it met, how many endpoints it lists, and the rest of
the object. -/
structure Discovery where
  startedAt : Time
  permissionGaps : List String
  confirmed : Nat
  unresolved : Nat
  body : String
  deriving DecidableEq

/-- `rest` stands for the fields that ingestion only stores. -/
structure AgentReport where
  agentFlavor : String
  schemaVersion : Nat
  agentId : String
  sessionId : String
  sequence : Int
  observedAt : Time
  reportedAt : Time
  configRevision : Int
  configHash : String
  endpointGeneration : Int
  workerDigest : String
  managedReady : Bool
  immutableRelease : Bool
  host : Option Host
  checks : List CheckObservation
  discovery : Option Discovery
  spark : Option String
  jobReceipts : List JobReceipt
  isLive : Bool
  rest : String
  deriving DecidableEq

def zeroTime : Time := -62135596800 * second

/-- The part of a report that `ObservationPayload` encodes: what may change between two sends
is cleared. -/
def AgentReport.observation (r : AgentReport) : AgentReport :=
  { r with isLive := false, reportedAt := zeroTime, jobReceipts := [] }

def AgentReport.key (r : AgentReport) : String × String × Int := (r.agentId, r.sessionId, r.sequence)

end Monik.Protocol
