import Mathlib.Data.List.Sort
import Monik.ControllerStore

/-! Transactions of `storage/ops.go` and its neighbours. Decisions taken over Spark tables are
inputs, so every answer is covered; the clock is read once per transaction. -/

namespace Monik.Operations
open Protocol Tables ControllerStore

structure TargetResult where
  agentId : String
  status : TargetStatus
  stage : String
  message : String
  retryable : Bool

structure NewOperation where
  id : String
  action : Action
  actor : String
  clientRequestKey : String
  requestHash : String
  createdAt : Time
  deadline : Option Time
  params : Fields
  targets : List (TargetResult × String)

/-- Whether session, parameters and live state admit a model action, and which restarts it supersedes. -/
structure ModelIntent where
  (profileId profileRevision controlEpoch agentSession stageId : String)
  admitted : Bool
  superseded : List String

def newIntent (op agent : String) (m : ModelIntent) : IntentRow :=
  ⟨op, agent, m.profileId, m.profileRevision, m.controlEpoch, m.agentSession, m.stageId, ""⟩

def storedParams (op : NewOperation) : Fields :=
  if op.action = .secretReplace then
    Fields.set (op.params.filter fun f => f.1 != "value") "redacted" (.bool true)
  else op.params

def newJobStatus (action : Action) (status : TargetStatus) : JobStatus :=
  if action.isUpdate then .preparing else .of status

variable (s : Store) (agent : String) (now : Time) (j : JobRow) (op : NewOperation) (r : JobReceipt)

def newJob (t : TargetResult) (jobId : String) : JobRow :=
  let deadline := op.deadline.getD (op.createdAt + oneShotExpiry)
  { jobId, operationId := op.id, agentId := t.agentId, action := op.action
    envelope :=
      { jobId, operationId := op.id, action := op.action, schemaVersion := schemaVersion
        notBefore := op.createdAt, deadline := some deadline, params := storedParams op }
    status := newJobStatus op.action t.status
    createdAt := op.createdAt, deadline, deliveredAt := none, result := none }

def newTarget (t : TargetResult) (jobId : String) : TargetRow :=
  { operationId := op.id, agentId := t.agentId, status := t.status, stage := t.stage
    message := t.message, errorCode := "", retryable := t.retryable, evidence := [], jobId }

def needsJob (t : TargetResult) : Bool :=
  op.action.scope == .agents && (t.status == .queued || t.status == .waitingOffline)

def insertTarget (s : Store) (t : TargetResult × String) : Tx :=
  match s.targets.insert (newTarget op t.1 t.2) with
  | none => .error (.refused "operation_targets key")
  | some targets =>
    if needsJob op t.1 then
      match s.jobs.insert (newJob op t.1 t.2) with
      | none => .error (.refused "agent_jobs key")
      | some jobs => .ok { s with targets, jobs }
    else .ok { s with targets }

def supersedeSparkRestart (parent stop : String) : Tx :=
  match s.targets.find? (hasKey parent agent) with
  | none => .error .notFound
  | some t => do
    let evidence := Fields.set t.evidence "reason"
      (.str ("superseded by safety stop operation " ++ stop))
    let s ← updateTarget s parent agent
      ⟨.failed, "restart_start_superseded",
        "Restart start stage superseded by a safety stop; its separate operation determines the stop outcome",
        "superseded_by_stop", false, evidence⟩
    let s := s.setJobStatus (fun j => j.operationId == parent && j.agentId == agent) (.of .failed)
    refreshOperation s parent

def unresolved (t : TargetRow) : Bool :=
  t.status == .queued || t.status == .accepted || t.status == .running ||
    t.status == .awaitingConfirmation || t.status == .unknownResult

def supersedable (profile parent : String) : Bool :=
  (s.operations.count fun o => o.id == parent && o.action == .modelRestart) == 1 &&
    (s.targets.count fun t => hasKey parent agent t && unresolved t) == 1 &&
    (s.intents.count fun i => i.operationId == parent && i.agentId == agent &&
      i.profileId == profile && i.stageAuthorization != "") == 1

def insertIntent (model : ModelIntent) : Tx :=
  match op.targets with
  | [t] =>
    match s.intents.insert (newIntent op.id t.1.agentId model) with
    | none => .error (.refused "spark_intents key")
    | some intents =>
      (model.superseded.filter fun parent =>
          op.action == .modelStop && supersedable s t.1.agentId model.profileId parent).foldlM
        (fun s parent => supersedeSparkRestart s t.1.agentId parent op.id) { s with intents }
  | _ => .error .conflict

/-- `model` is present exactly for an owner-authenticated model action. -/
def insertOperation (model : Option ModelIntent) : Tx :=
  if op.action.isModel && model.isNone then
    .error (.refused "model operation requires an authenticated frozen intent")
  else if model.any (fun m => !m.admitted) then .error .conflict
  else if s.operations.count (fun o =>
      o.actor == op.actor && o.clientRequestKey == op.clientRequestKey) ≠ 0 then
    .error (.refused "operations client_request_key")
  else
    match s.operations.insert ⟨op.id, op.action, .queued, 1, op.actor, op.clientRequestKey,
        op.requestHash, op.createdAt, op.deadline⟩ with
    | none => .error (.refused "operations key")
    | some operations => do
      let s ← op.targets.foldlM (insertTarget op) { s with operations }
      match model with
      | none => .ok s
      | some m => insertIntent s op m

def updateTargetAndRefresh (op agent : String) (w : TargetWrite) : Tx := do
  let s ← updateTarget s op agent w
  refreshOperation s op

/-- Target and job take one status together. -/
def markTargetAndJob (op agent : String) (w : TargetWrite) : Tx := do
  let s ← updateTarget s op agent w
  refreshOperation
    (s.setJobStatus (fun j => j.operationId == op && j.agentId == agent) (.of w.status)) op

def selectable : Bool :=
  j.agentId == agent && j.status.dispatchable && decide (now < j.deadline) &&
    (j.status == .delivered || ((s.rollout j.operationId).all fun r => r.state == .running))

def byCreation (a b : JobRow) : Prop :=
  a.createdAt < b.createdAt ∨ a.createdAt = b.createdAt ∧ a.jobId ≤ b.jobId

instance : DecidableRel byCreation := fun _ _ =>
  inferInstanceAs (Decidable (_ ∨ _ ∧ _))

def intact (j : JobRow) : Bool :=
  j.envelope.jobId == j.jobId && j.envelope.operationId == j.operationId &&
    j.envelope.action == j.action && j.envelope.schemaVersion == schemaVersion &&
    j.envelope.deadline.isSome

def collect (authority : JobEnvelope → Except StoreError Bool) (limit : Nat) : List JobRow → List
    JobEnvelope → Except StoreError (List JobEnvelope)
  | [], out => .ok out
  | j :: js, out =>
    if !intact j then .error (.refused "stored job envelope identity or schema mismatch")
    else if decide (now < j.envelope.notBefore) || j.envelope.deadline.all (fun d => decide (d ≤ now))
    then collect authority limit js out
    else
      match (if j.action.isModel then authority j.envelope else .ok true) with
      | .error e => .error e
      | .ok false => collect authority limit js out
      | .ok true =>
        let out := out ++ [j.envelope]
        if out.length ≥ limit then .ok out else collect authority limit js out

def pendingJobs (limit : Int) (now : Time) (authority : JobEnvelope → Except StoreError Bool) :
    Except StoreError (List JobEnvelope) :=
  let limit := if limit < 1 ∨ limit > 32 then 8 else limit.toNat
  let rows := ((s.jobs.rows.filter (selectable s agent now)).insertionSort byCreation).take 1000
  collect now authority limit rows []

def deliver (s : Store) (env : JobEnvelope) : Store :=
  s.setJobs
    (fun j => j.jobId == env.jobId && j.agentId == agent &&
      (j.status == .of .queued || j.status == .of .waitingOffline))
    (fun j => { j with status := .delivered, deliveredAt := some (j.deliveredAt.getD now) })
    fun _ => rfl

def claimJobs (limit : Int) (now : Time) (authority : JobEnvelope → Except StoreError Bool) :
    Except StoreError (Store × List JobEnvelope) := do
  let out ← pendingJobs s agent limit now authority
  .ok (out.foldl (deliver agent now) s, out)

/-- The proof `ApplyReceipt` asks for before it records a success. `spark` answers
`sparkReceiptProven`. -/
def proven (spark : Bool) : Bool :=
  let evidence := r.evidence
  let params := j.envelope.params
  let row := s.agent agent
  let samePlan := params.get "plan_id" != .null && evidence.get "plan_id" == params.get "plan_id"
  match j.action with
  | .agentCollectNow | .agentDiscoverNow =>
    match s.ingests.find? (fun i => i.agentId == agent &&
        i.sessionId == (evidence.get "session_id").text && .int i.seq == evidence.get "sequence"),
      r.acceptedAt with
    | some i, some accepted =>
      decide (accepted ≤ i.observedAt) && decide (j.createdAt ≤ i.receivedAt) &&
        (if j.action = .agentCollectNow then i.hasHost else i.hasDiscovery)
    | _, _ => false
  | .profileApply | .checkApply | .servicePause | .serviceIgnore =>
    match s.targets.find? (hasKey j.operationId agent), row with
    | some t, some a =>
      (t.evidence.get "revision").sprint == toString a.appliedRevision &&
        t.evidence.get "hash" == .str a.appliedHash &&
        (evidence.get "revision").sprint == toString a.appliedRevision &&
        evidence.get "hash" == .str a.appliedHash
    | _, _ => false
  | .agentDiagnostics => r.stage == "diagnostics" && evidence.get "os" != .null
  | .modelStart | .modelStop | .modelRestart => spark
  | .secretReplace =>
    let id := (params.get "secret_id").text
    match s.secrets.find? (fun c => c.id == id && c.agentId == agent) with
    | some c => id != "" && evidence.get "secret_id" == .str id &&
        (evidence.get "version").sprint == toString c.version && evidence.get "value" == .null
    | none => false
  | .checkTrial =>
    r.stage == "redacted_trial_result" && evidence.get "trial" == .bool true &&
      evidence.get "vantage" == .str "agent/local" && evidence.get "quality" != .null &&
      evidence.get "transport" != .null
  | .credentialRotate =>
    match row with
    | some a => a.credentialHash != "" && evidence.get "verifier_sha256" == .str a.credentialHash &&
        r.stage == "new_credential_authentication_receipt"
    | none => false
  | .trustStage | .trustRetire =>
    let fingerprint := (params.get "fingerprint").text
    fingerprint != "" && evidence.get "fingerprint" == .str fingerprint &&
      evidence.get "roots" != .null &&
      (if j.action = .trustStage then r.stage == "persisted_scoped_trust"
        else r.stage == "acknowledged_trust_removal")
  | .agentRestart =>
    let session := (evidence.get "session_id").text
    let previous := (params.get "previous_session").text
    session != "" && session == (row.map AgentRow.sessionId).getD "" && previous != "" &&
      session != previous
  | .updateRollout | .updateRollback =>
    let digest := (evidence.get "worker_digest").text
    let session := (evidence.get "session_id").text
    let previous := (params.get "previous_session").text
    let pinned := (params.get "sha256").text
    let expected :=
      if j.action = .updateRollback && pinned == "" && evidence.get "rollback_tx_id" != .null &&
        evidence.get "previous_good_digest" == .str digest then digest else pinned
    digest != "" && digest == (row.map AgentRow.workerDigest).getD "" && expected != "" &&
      digest == expected && session != "" && session == (row.map AgentRow.sessionId).getD "" &&
      previous != "" && session != previous
  | .rebindPrepare =>
    r.stage == "rebind.prepared" && samePlan &&
      (evidence.get "generation").sprint == (params.get "generation").sprint
  | .rebindArm => r.stage == "rebind.armed" && samePlan
  | .rebindActivate =>
    r.stage == "rebind.confirmed" && samePlan &&
      (evidence.get "generation").sprint == (params.get "generation").sprint &&
      toString ((row.map AgentRow.endpointGeneration).getD 0) == (evidence.get "generation").sprint &&
      evidence.get "candidate_url" == params.get "candidate_url"
  | .rebindRetire => r.stage == "rebind.retired" && samePlan
  | _ => false

/-- For model actions: the receipt has the typed form, it quotes the stop receipt, its success is proven. -/
structure SparkAnswers where
  valid : Bool
  quotesStop : Bool
  proven : Bool

def judge (spark : SparkAnswers) : JobReceipt :=
  if r.status = .succeeded ∧ proven s agent j r spark.proven = false then
    { r with
      status := if j.action.isModel then .unknownResult else .rejected
      stage := "unverified_result"
      errorCode := "missing_evidence"
      message :=
        "Agent reported success without matching committed observation/configuration evidence" }
  else r

def supersededRestart : Bool :=
  j.action == .modelRestart && j.status == .of .failed &&
    ((s.targets.find? (hasKey j.operationId agent)).any fun t =>
      t.status == .failed && t.stage == "restart_start_superseded" &&
        t.errorCode == "superseded_by_stop")

def writeOf (r : JobReceipt) : TargetWrite :=
  ⟨r.status, r.stage, r.message, r.errorCode, r.retryable, r.evidence⟩

/-- The writes of `ApplyReceipt`: the raw receipt stays the deduplication token. -/
def recordReceipt (outcome : JobReceipt) : Tx :=
  let s := s.setJobs (fun k => k.jobId == j.jobId && k.agentId == agent)
    (fun k => { k with status := .of outcome.status, result := some r }) fun _ => rfl
  let s := s.setTargets (hasKey j.operationId agent) (writeOf outcome).apply fun _ => rfl
  refreshOperation s j.operationId

def applyReceipt (spark : SparkAnswers) : Tx :=
  if !r.status.workerReported then .error (.refused "invalid receipt status")
  else
    match s.jobs.find? (fun j => j.jobId == r.jobId && j.agentId == agent) with
    | none => .error .notFound
    | some j =>
      if r.operationId ≠ "" ∧ r.operationId ≠ j.operationId then .error .conflict
      else if j.action.isModel ∧ spark.valid = false then .error (.refused "invalid model receipt")
      else if j.action.isModel ∧ r.stage = "restart_start_not_attempted" ∧
          ¬(j.action = .modelRestart ∧ spark.quotesStop) ∧ j.result ≠ some r then .error .conflict
      else if j.status = .preparing ∨ j.status = .rolloutHeld then
        .error (.refused "receipt for unpublished or held job")
      else if j.result = some r ∧
          ¬(j.action.isModel ∧ j.status = .of .unknownResult ∧ r.status = .succeeded) then .ok s
      else if supersededRestart s agent j then .ok s
      else if j.status.terminal then .error .conflict
      else if 0 < r.status.rank ∧ r.status.rank < j.status.rank then .ok s
      else recordReceipt s agent j r (judge s agent j r spark)

def unissuedRestart (op agent : String) : Bool :=
  (s.intents.count fun i => i.operationId == op && i.agentId == agent &&
    i.stageAuthorization == "") != 0

def restartTarget (op : String) (t : TargetRow) : Bool :=
  t.operationId == op && t.status == .awaitingConfirmation && unissuedRestart s op t.agentId &&
    (s.operations.count fun o => o.id == op && o.action == .modelRestart) != 0

def restartJob (op : String) (j : JobRow) : Bool :=
  j.operationId == op && j.action == .modelRestart && j.status == .of .awaitingConfirmation &&
    unissuedRestart s op j.agentId

def undispatched (op : String) (t : TargetRow) : Bool :=
  t.operationId == op && (t.status == .queued || t.status == .waitingOffline) &&
    (s.jobs.count fun j => j.operationId == op && j.agentId == t.agentId &&
      !j.status.unclaimed) == 0

def cancelTarget (stage message : String) (t : TargetRow) : TargetRow :=
  { t with status := .cancelledBeforeExec, stage, message }

def cancelRollouts (op : String) : Store :=
  let rollouts := s.rollouts.update
    (fun r => r.operationId == op && r.state != .completed && r.state != .cancelled)
    (fun r => { r with
      state := .cancelling
      reason := "Undispatched targets cancelled; waiting for already claimed work"
      stableSince := none
      revision := r.revision + 1 }) fun _ => rfl
  { s with rollouts }

/-- Its five updates in their order, then the aggregate. -/
def cancelPending (op : String) : Tx :=
  if (s.operation op).isNone then .error .notFound
  else
    let s := s.setTargets (restartTarget s op)
      (cancelTarget "restart_stopped_cancelled"
        "Stop observed; later start cancelled before stage authorization") fun _ => rfl
    let s := s.setJobStatus (restartJob s op) (.of .cancelledBeforeExec)
    let s := s.setTargets (undispatched s op)
      (cancelTarget "cancelled" "cancelled before dispatch") fun _ => rfl
    let s := s.setJobStatus (fun j => j.operationId == op && j.status.unclaimed)
      (.of .cancelledBeforeExec)
    refreshOperation (cancelRollouts s op) op

def guardOutcome (now : Time) (j : JobRow) : Option TargetStatus :=
  if j.action.unavailable then some .unsupported
  else if now < j.deadline then none
  else if j.action.isModel then
    match j.status with
    | .of .accepted | .of .running | .of .awaitingConfirmation => none
    | .delivered => some .unknownResult
    | _ => some .expired
  else if j.action.isUpdate && j.status != .preparing && j.status != .of .queued &&
      j.status != .of .waitingOffline then some .unknownResult
  else some .expired

def guardMessage (now : Time) (j : JobRow) : String :=
  if j.action.unavailable then
    "Retry orchestration is not implemented; explicitly review and submit a new eligible operation."
  else if j.action.isModel && j.status == .delivered then
    "Model dispatch expired after delivery; reconcile the original attempt without replay"
  else if guardOutcome now j = some .unknownResult then
    "Delivered update deadline expired; the remote effect is unknown and must be reconciled"
  else "job deadline expired; result was not confirmed"

def guardJob (s : Store) (j : JobRow) : Store :=
  match guardOutcome now j with
  | none => s
  | some status =>
    let s := s.setJobStatus (fun k => k.jobId == j.jobId) (.of status)
    s.setTargets (hasKey j.operationId j.agentId)
      (fun t => { t with status, stage := "server_guard", message := guardMessage now j,
                         errorCode := "blocked_or_expired" }) fun _ => rfl

/-- `ORDER BY` a time, then the job id. -/
def inOrder (time : JobRow → Time) (a b : JobRow) : Prop :=
  time a < time b ∨ time a = time b ∧ a.jobId ≤ b.jobId

instance (time : JobRow → Time) : DecidableRel (inOrder time) := fun _ _ =>
  inferInstanceAs (Decidable (_ ∨ _ ∧ _))

instance inOrder_total (time : JobRow → Time) : Std.Total (inOrder time) := by
  refine ⟨fun a b => ?_⟩
  rcases lt_trichotomy (time a) (time b) with h | h | h
  · exact .inl (.inl h)
  · exact (String.le_total a.jobId b.jobId).imp (fun le => .inr ⟨h, le⟩) fun le => .inr ⟨h.symm, le⟩
  · exact .inr (.inl h)

instance inOrder_trans (time : JobRow → Time) : IsTrans JobRow (inOrder time) := by
  refine ⟨fun a b c first second => ?_⟩
  rcases first with h | ⟨h, le⟩
  · rcases second with h' | ⟨h', -⟩
    · exact .inl (lt_trans h h')
    · exact .inl (h' ▸ h)
  · rcases second with h' | ⟨h', le'⟩
    · exact .inl (h ▸ h')
    · exact .inr ⟨h.trans h', String.le_trans le le'⟩

abbrev byDeadline := inOrder JobRow.deadline

def guardedJobs (s : Store) : List JobRow :=
  ((s.jobs.rows.filter fun j => j.status.guarded).insertionSort byDeadline).take 1000

def expireAndBlockJobs (s : Store) (now : Time) : Tx :=
  let items := guardedJobs s
  let ops := ((items.filter fun j => (guardOutcome now j).isSome).map JobRow.operationId).dedup
  ops.foldlM refreshOperation (items.foldl (guardJob now) s)

end Monik.Operations
