import Monik.Protocol
import Monik.Tables

/-! The tables that operations, jobs, rollouts and reports live in, with their primary keys, and the
small transactions. A failed transaction is rolled back by `WithTx`; columns that nothing reads are
left out. -/

namespace Monik.ControllerStore
open Protocol Tables

inductive StoreError
  | notFound
  | conflict
  | refused (reason : String)

inductive OperationStatus
  | queued | running | attentionRequired | completed | completedWithErrors | cancelled
  deriving DecidableEq

structure OperationRow where
  id : String
  action : Action
  status : OperationStatus
  revision : Int
  actor : String
  clientRequestKey : String
  requestHash : String
  createdAt : Time
  deadline : Option Time
  deriving DecidableEq

structure TargetRow where
  operationId : String
  agentId : String
  status : TargetStatus
  stage : String
  message : String
  errorCode : String
  retryable : Bool
  evidence : Fields
  jobId : String

def TargetRow.key (t : TargetRow) : String × String := (t.operationId, t.agentId)

structure JobRow where
  jobId : String
  operationId : String
  agentId : String
  action : Action
  envelope : JobEnvelope
  status : JobStatus
  createdAt : Time
  deadline : Time
  deliveredAt : Option Time
  result : Option JobReceipt
  deriving DecidableEq

def JobRow.key (j : JobRow) : String × String := (j.operationId, j.agentId)

inductive RolloutState
  | running | paused | blocked | cancelling | cancelled | completed
  deriving DecidableEq

structure RolloutRow where
  operationId : String
  releaseId : String
  state : RolloutState
  revision : Int
  batchSize : Nat
  observeSeconds : Nat
  wave : Nat
  canaryWaves : Nat
  stableSince : Option Time
  lastTick : Option Time
  reason : String
  deadline : Time
  createdAt : Time

structure MemberRow where
  operationId : String
  agentId : String
  platform : String
  wave : Nat
  releasedAt : Option Time

def MemberRow.key (m : MemberRow) : String × String := (m.operationId, m.agentId)

structure AgentRow where
  id : String
  revoked : Bool
  archived : Bool
  managedReady : Bool
  flavor : String
  os : String
  arch : String
  /-- The capability `immutable_release_v1` is reported as supported. -/
  immutableRelease : Bool
  sessionId : String
  workerDigest : String
  lastLiveAt : Option Time
  appliedRevision : Int
  appliedHash : String
  desiredRevision : Int
  credentialHash : String
  endpointGeneration : Int
  lastSeq : Int

structure IngestRow where
  agentId : String
  sessionId : String
  seq : Int
  observedAt : Time
  receivedAt : Time
  payloadHash : String
  hasHost : Bool
  hasDiscovery : Bool
  deriving DecidableEq

def IngestRow.key (r : IngestRow) : String × String × Int := (r.agentId, r.sessionId, r.seq)

structure HostSampleRow where
  agentId : String
  sessionId : String
  seq : Int
  observedAt : Time
  receivedAt : Time
  payload : Host
  deriving DecidableEq

structure ObservationRow where
  agentId : String
  receivedAt : Time
  payload : CheckObservation
  deriving DecidableEq

structure SparkSampleRow where
  agentId : String
  sessionId : String
  seq : Int
  observedAt : Time
  payload : String
  deriving DecidableEq

def SparkSampleRow.key (r : SparkSampleRow) : String × String × Int := (r.agentId, r.sessionId, r.seq)

structure ServiceRow where
  id : String
  agentId : String

structure SecretRow where
  id : String
  agentId : String
  version : Int

/-- A row of `spark_intents`; the start stage of a restart is unissued while the
authorization is empty. -/
structure IntentRow where
  (operationId agentId profileId profileRevision controlEpoch agentSession stageId stageAuthorization : String)

structure PublicationRow where
  releaseId : String
  expiresAt : Time

/-- A row of `agent_credential_overlap`: a registered verifier that no request has proven yet. -/
structure OverlapRow where
  agentId : String
  pendingHash : String
  jobId : String
  expiresAt : Time

structure Store where
  operations : Table OperationRow OperationRow.id
  targets : Table TargetRow TargetRow.key
  jobs : Table JobRow JobRow.jobId
  rollouts : Table RolloutRow RolloutRow.operationId
  members : Table MemberRow MemberRow.key
  agents : Table AgentRow AgentRow.id
  ingests : Table IngestRow IngestRow.key
  secrets : Table SecretRow SecretRow.id
  intents : Table IntentRow IntentRow.operationId
  publications : Table PublicationRow PublicationRow.releaseId
  services : Table ServiceRow ServiceRow.id
  hostSamples : List HostSampleRow
  observations : List ObservationRow
  sparkSamples : Table SparkSampleRow SparkSampleRow.key
  overlaps : Table OverlapRow OverlapRow.agentId

def Store.empty : Store :=
  ⟨.empty, .empty, .empty, .empty, .empty, .empty, .empty, .empty, .empty, .empty, .empty, [], [],
    .empty, .empty⟩

abbrev Tx := Except StoreError Store

def Store.agent (s : Store) (id : String) : Option AgentRow := s.agents.find? fun a => a.id == id

variable {s : Store}

theorem agent_eq_some {id : String} {a : AgentRow} : s.agent id = some a ↔ a ∈ s.agents ∧ a.id = id :=
  Table.find?_key

def Store.overlap (s : Store) (agentId : String) : Option OverlapRow :=
  s.overlaps.find? fun o => o.agentId == agentId

theorem overlap_eq_some {id : String} {o : OverlapRow} : s.overlap id = some o ↔ o ∈ s.overlaps ∧ o.agentId = id :=
  Table.find?_key

def Store.operation (s : Store) (id : String) : Option OperationRow :=
  s.operations.find? fun o => o.id == id

def Store.rollout (s : Store) (id : String) : Option RolloutRow :=
  s.rollouts.find? fun r => r.operationId == id

structure TargetWrite where
  status : TargetStatus
  stage : String
  message : String
  errorCode : String
  retryable : Bool
  evidence : Fields

def TargetWrite.apply (w : TargetWrite) (t : TargetRow) : TargetRow :=
  { t with status := w.status, stage := w.stage, message := w.message,
           errorCode := w.errorCode, retryable := w.retryable, evidence := w.evidence }

def Store.setTargets (s : Store) (p : TargetRow → Bool) (f : TargetRow → TargetRow)
    (keep : ∀ t, (f t).key = t.key) : Store :=
  { s with targets := s.targets.update p f keep }

def Store.setJobs (s : Store) (p : JobRow → Bool) (f : JobRow → JobRow)
    (keep : ∀ j, (f j).jobId = j.jobId) : Store :=
  { s with jobs := s.jobs.update p f keep }

def Store.setJobStatus (s : Store) (p : JobRow → Bool) (status : JobStatus) : Store :=
  s.setJobs p (fun j => { j with status := status }) fun _ => rfl

theorem mem_setTargets {p : TargetRow → Bool} {f : TargetRow → TargetRow}
    (keep : ∀ t, (f t).key = t.key) {t : TargetRow} :
    t ∈ (s.setTargets p f keep).targets ↔ ∃ t₀ ∈ s.targets, (if p t₀ then f t₀ else t₀) = t :=
  Table.mem_update keep

variable {p : JobRow → Bool}

theorem mem_setJobs {f : JobRow → JobRow} (keep : ∀ j, (f j).jobId = j.jobId) {j : JobRow} :
    j ∈ (s.setJobs p f keep).jobs ↔ ∃ j₀ ∈ s.jobs, (if p j₀ then f j₀ else j₀) = j :=
  Table.mem_update keep

theorem mem_setJobStatus {status : JobStatus} {j : JobRow} : j ∈ (s.setJobStatus p status).jobs ↔
      ∃ j₀ ∈ s.jobs, (if p j₀ then { j₀ with status := status } else j₀) = j :=
  mem_setJobs (f := fun j => { j with status := status }) fun _ => rfl

def hasKey (op agent : String) (t : TargetRow) : Bool := t.operationId == op && t.agentId == agent

def updateTarget (s : Store) (op agent : String) (w : TargetWrite) : Tx :=
  if s.targets.count (hasKey op agent) ≠ 1 then .error .notFound
  else .ok (s.setTargets (hasKey op agent) w.apply fun _ => rfl)

def aggregate (statuses : List TargetStatus) (rollout : Option RolloutState) : OperationStatus :=
  let running := statuses.countP fun st =>
    st == .queued || st == .accepted || st == .running || st == .awaitingConfirmation
  let wait := statuses.countP fun st => st == .waitingOffline
  let fail := statuses.countP fun st =>
    st == .failed || st == .rejected || st == .expired || st == .unknownResult || st == .rolledBack
  let attn := statuses.countP fun st => st == .unsupported
  let cancelled := statuses.countP fun st => st == .cancelledBeforeExec
  let agg : OperationStatus :=
    if running > 0 then .running
    else if wait > 0 then .attentionRequired
    else if fail > 0 then .completedWithErrors
    else if statuses.length > 0 ∧ cancelled = statuses.length then .cancelled
    else if attn > 0 ∨ cancelled > 0 then .attentionRequired
    else .completed
  match rollout with
  | some .running => .running
  | some .paused | some .blocked => .attentionRequired
  | some .cancelling => if running > 0 ∨ wait > 0 then .running else agg
  | _ => agg

def refreshOperation (s : Store) (op : String) : Tx :=
  if s.operations.count (fun o => o.id == op) ≠ 1 then .error .notFound
  else
    let statuses := (s.targets.rows.filter fun t => t.operationId == op).map TargetRow.status
    let agg := aggregate statuses ((s.rollout op).map RolloutRow.state)
    let refreshed := s.operations.update (fun o => o.id == op)
      (fun o => { o with status := agg, revision := o.revision + 1 }) fun _ => rfl
    .ok { s with operations := refreshed }

end Monik.ControllerStore
