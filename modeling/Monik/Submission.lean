import Monik.Rollouts

/-! `processSubmit`: the operation is inserted, its server-side part runs, and if that fails every
target not rejected is closed. What handlers learn outside the job tables is an input. -/

namespace Monik.Submission
open Protocol Tables ControllerStore Operations Rollouts

/-- How `executeServerSide` fails; `unconfirmed`: the effect is committed, its result not written. -/
inductive ServerError
  | failed (message : String)
  | unconfirmed (message : String)

def ServerError.message : ServerError → String
  | .failed message => message
  | .unconfirmed message => message

structure Artifact where
  name : String
  sha256 : String
  length : Int

structure Request where
  id : String
  action : Action
  actor : String
  clientRequestKey : String
  requestHash : String
  now : Time
  params : Fields
  targetIds : List String
  jobId : String → String
  refusal : Option ServerError
  desiredHash : String → String
  /-- Parameters a handler adds to the job of an agent, and the evidence of the queued target. -/
  patch : Fields
  evidence : Fields
  secretId : String
  prepared : String → Bool
  flavorReadable : String → Bool
  artifact : AgentRow → Option Artifact
  releaseId : String
  releaseDigest : String
  options : RolloutOptions
  subject : String
  subjectRevision : Int

def eligible (t : TargetResult) : Bool := t.agentId != "server" && t.status != .rejected

def eligibleTargets (op : NewOperation) : List TargetResult := (op.targets.map Prod.fst).filter eligible

variable (s : Store) (op : NewOperation) (req : Request)

def patchJobParams (op agent : String) (extra : Fields) : Store :=
  match s.targets.find? (hasKey op agent) with
  | none => s
  | some t => s.setJobs (fun j => j.jobId == t.jobId)
      (fun j => { j with envelope := { j.envelope with params := j.envelope.params.setAll extra } })
      fun _ => rfl

def queueTarget (extra : Fields) (w : TargetWrite) (s : Store) (agent : String) : Store :=
  let s := patchJobParams s op.id agent extra
  commit s (updateTargetAndRefresh s op.id agent w)

/-- An action confirmed on its `server` target; the last component is what an unwritten one becomes. -/
structure Confirmation where
  stage : String
  message : String
  unwritten : Option ServerError

def confirmation : Action → Option Confirmation
  | .sessionRevokeOthers =>
    some ⟨"revoked", "Other browser sessions revoked", some (.unconfirmed "result_write")⟩
  | .enrollmentCreate => some ⟨"commit", "enrollment code created", none⟩
  | .preferenceSave | .agentRename | .serviceRename | .agentPin | .servicePin | .serviceHide
  | .agentArchive => some ⟨"commit", "saved", some (.unconfirmed "result_write")⟩
  | .enrollmentApprove | .enrollmentReject =>
    some ⟨"commit_decision", "Registration decision saved; fresh agent telemetry is still required",
      some (.failed "result_write")⟩
  | .incidentAcknowledge => some ⟨"commit_ack", "acknowledged", none⟩
  | .incidentUnacknowledge =>
    some ⟨"commit_unread", "Marked unread; health was not changed", some (.failed "result_write")⟩
  | .backupCreate =>
    some ⟨"database_snapshot_written",
      "database snapshot written; complete controller restore has not been verified", none⟩
  | .updateImport =>
    some ⟨"verified_catalog_commit", "immutable release verified and published",
      some (.failed "result_write")⟩
  | .ruleSave | .maintenanceSet | .maintenanceCancel | .enrollmentWindowSet =>
    some ⟨"committed", "Policy committed; measurements and history are preserved",
      some (.unconfirmed "result_write")⟩
  | .historyExport =>
    some ⟨"bounded_artifact_ready",
      "Historical observations exported; download is available for 24 hours",
      some (.failed "result_write")⟩
  | _ => none

def confirmServer (c : Confirmation) : Store × Option ServerError :=
  match updateTargetAndRefresh s op.id "server" ⟨.succeeded, c.stage, c.message, "", false, []⟩ with
  | .ok s => (s, none)
  | .error _ => (s, c.unwritten)

def orFail (s : Store) : Tx → Store × Option ServerError
  | .ok s => (s, none)
  | .error _ => (s, some (.failed "storage"))

def revokeAgent (op : String) (s : Store) (t : TargetRow) : Tx :=
  if t.agentId = "server" ∨ t.status = .rejected then .ok s
  else if s.agents.count (fun a => a.id == t.agentId) ≠ 1 then .error .notFound
  else
    let agents := s.agents.update (fun a => a.id == t.agentId)
      (fun a => { a with revoked := true, credentialHash := "" }) fun _ => rfl
    let overlaps := s.overlaps.delete fun o => o.agentId == t.agentId
    updateTarget { s with agents, overlaps } op t.agentId
      ⟨.succeeded, "revoked",
        "Credential revoked on controller; live channels close on their next authorization check",
        "", false, []⟩

def revokeOperationAgents (op : String) : Tx :=
  if (s.operations.count fun o => o.id == op && o.action == .credentialRevoke) ≠ 1 then
    .error .conflict
  else
    let targets := s.targets.rows.filter fun t => t.operationId == op
    if targets.length = 0 then .error .notFound
    else do
      let s ← targets.foldlM (revokeAgent op) s
      refreshOperation s op

/-- One agent of `bumpDesired`'s transaction; the target's status is not written. -/
def bumpAgent (hash : String → String) (s : Store) (t : TargetResult) : Tx :=
  match s.agent t.agentId with
  | none => .error .conflict
  | some a =>
    let revision := a.desiredRevision + 1
    let agents := s.agents.update (fun b => b.id == t.agentId)
      (fun b => { b with desiredRevision := revision }) fun _ => rfl
    let evidence : Fields := [("revision", .int revision), ("hash", .str (hash t.agentId))]
    let s := { s with agents }
    .ok (s.setTargets (hasKey op.id t.agentId)
      (fun row => { row with
        stage := "desired_committed"
        message := "Desired configuration committed; waiting for agent"
        evidence }) fun _ => rfl)

def bumpDesired (hash : String → String) : Tx := do
  let s ← (eligibleTargets op).foldlM (bumpAgent op hash) s
  refreshOperation s op.id

def replaceSecret : Store × Option ServerError :=
  match eligibleTargets op with
  | [t] =>
    if (s.agent t.agentId).isNone then (s, some (.failed "unknown agent"))
    else
      match s.secrets.insert ⟨req.secretId, t.agentId, 1⟩ with
      | none => (s, some (.failed "check_secrets key"))
      | some secrets =>
        let extra := Fields.setAll req.patch [("secret_id", .str req.secretId), ("version", .int 1)]
        (queueTarget op extra
          ⟨.queued, "secret_version_committed", "secret stored; waiting for agent apply", "", true, extra⟩
          { s with secrets } t.agentId, none)
  | _ => (s, some (.failed "secret delivery requires exactly its selected agent"))

def queueAll (stage message : String) (status : TargetResult → TargetStatus) : Store :=
  (eligibleTargets op).foldl (fun s t =>
    queueTarget op req.patch ⟨status t, stage, message, "", true, req.evidence⟩ s t.agentId) s

def activateTarget (s : Store) (t : TargetResult) : Store :=
  if req.prepared t.agentId then
    queueTarget op req.patch
      ⟨.queued, "rebind.activating",
        "waiting for candidate identity verification and committed generation", "", true, req.evidence⟩
      s t.agentId
  else
    commit s (markTargetAndJob s op.id t.agentId
      ⟨.rejected, "rebind.unprepared",
        "agent has no prepared plan for this candidate; offline discovery of an unknown address is refused",
        "", false, req.evidence⟩)

def restartTargets (op : NewOperation) (req : Request) :
    List TargetResult → Store → Store × Option ServerError
  | [], s => (s, none)
  | t :: ts, s =>
    match s.agent t.agentId with
    | none => restartTargets op req ts s
    | some a =>
      if !req.flavorReadable t.agentId then (s, some (.failed "agent flavor"))
      else if a.flavor = "spark-light" then
        match markTargetAndJob s op.id t.agentId
            ⟨.unsupported, "direct_restart_unsupported",
              "Restart the direct Spark-light monitoring service locally; model lifetimes are independent",
              "", false, []⟩ with
        | .error _ => (s, some (.failed "storage"))
        | .ok s => restartTargets op req ts s
      else if !a.managedReady then
        restartTargets op req ts (commit s (markTargetAndJob s op.id t.agentId
          ⟨.unsupported, "unmanaged",
            "unmanaged worker cannot restart itself; install the service host first", "", false, []⟩))
      else
        restartTargets op req ts (queueTarget op [("previous_session", .str a.sessionId)]
          ⟨t.status, "restart.queued", "managed restart authorized", "", true, []⟩ s t.agentId)

def planTarget (t : TargetResult) : Except ServerError PreparedUpdateTarget :=
  match s.agent t.agentId with
  | none => .error (.failed "agent")
  | some a =>
    let unsupported (stage message : String) : PreparedUpdateTarget :=
      ⟨t.agentId, .unsupported, stage, message, []⟩
    if !req.flavorReadable t.agentId then .error (.failed "agent flavor")
    else if a.flavor = "spark-light" then
      .ok (unsupported "direct_update_unsupported"
        "Spark-light direct worker requires local monitoring-only upgrade; general service-host updates are not compatible")
    else if !a.managedReady then
      .ok (unsupported "unmanaged" "install a managed service before updating")
    else if op.action = .updateRollback then
      .ok ⟨t.agentId, t.status, "update.rollback_queued",
        "verified release pinned; waiting for agent execution",
        [("component", .str "worker"), ("previous_session", .str a.sessionId)]⟩
    else if !a.immutableRelease then
      .ok (unsupported "upgrade_required"
        "agent must advertise immutable_release_v1; upgrade this older agent locally once")
    else
      match req.artifact a with
      | none => .ok (unsupported "no_artifact" "release has no signed worker for this platform")
      | some art =>
        .ok ⟨t.agentId, t.status, "update.queued",
          "verified release pinned; waiting for agent execution",
          [("agent_flavor", .str a.flavor), ("release_id", .str req.releaseId),
            ("release_digest", .str req.releaseDigest), ("os", .str a.os), ("arch", .str a.arch),
            ("name", .str art.name), ("sha256", .str art.sha256), ("length", .int art.length),
            ("component", .str "worker"), ("previous_session", .str a.sessionId)]⟩

def waiting (status : TargetStatus) : Bool := status == .queued || status == .waitingOffline

def blockPreflight (p : PreparedUpdateTarget) : PreparedUpdateTarget :=
  if waiting p.status then
    { p with status := .rejected, stage := "rollout.preflight_blocked",
             message := "Another frozen target failed preflight; review an entirely eligible selection" }
  else p

def handleRollout : Store × Option ServerError :=
  match eligibleTargets op with
  | [] => orFail s (publishUpdatePlan s op.id [])
  | ts =>
    match ts.mapM (planTarget s op req) with
    | .error e => (s, some e)
    | .ok plan =>
      if op.action = .updateRollout then
        if plan.length ≠ op.targets.length ∨ plan.any fun p => !waiting p.status then
          orFail s (publishUpdatePlan s op.id (plan.map blockPreflight))
        else
          orFail s (publishBatchedUpdatePlan s op.id req.releaseId plan req.options req.now)
      else orFail s (publishUpdatePlan s op.id plan)

/-- `executeServerSide` once the handler's own checks have passed. -/
def serverEffect : Store × Option ServerError :=
  match op.action with
  | .credentialRevoke => orFail s (revokeOperationAgents s op.id)
  | .operationCancelPending =>
    let id := if req.subject = "" then op.id else req.subject
    match cancelPending s id with
    | .error _ => (s, some (.failed "storage"))
    | .ok s => confirmServer s op ⟨"commit",
        "cancelled only targets not yet dispatched; delivered targets remain unresolved", none⟩
  | .profileApply | .checkApply | .servicePause | .serviceIgnore =>
    orFail s (bumpDesired s op req.desiredHash)
  | .secretReplace => replaceSecret s op req
  | .rebindPrepare =>
    (queueAll s op req "rebind.prepared"
      "plan saved on controller; awaiting agent persistence; URL unchanged"
      (fun t => if t.status = .waitingOffline then .waitingOffline else .queued), none)
  | .rebindArm =>
    (queueAll s op req "rebind.armed" "fallback trigger queued; awaiting agent persistence"
      fun _ => .queued, none)
  | .rebindActivate => ((eligibleTargets op).foldl (activateTarget op req) s, none)
  | .rebindRetire =>
    (queueAll s op req "rebind.retire_queued" "waiting for endpoint retirement receipt"
      fun _ => .queued, none)
  | .updateRollout | .updateRollback => handleRollout s op req
  | .updatePause => orFail s (controlRollout s req.subject req.subjectRevision true op.id req.now)
  | .updateResume => orFail s (controlRollout s req.subject req.subjectRevision false op.id req.now)
  | .agentRestart => restartTargets op req (eligibleTargets op) s
  | .checkTrial =>
    (queueAll s op req "trial.queued" "one-shot trial queued on the agent; definition is not saved"
      TargetResult.status, none)
  | .credentialRotate =>
    (queueAll s op { req with patch := [], evidence := [] } "credential.rotate_queued"
      "agent will generate the next credential, register its verifier, then prove the new token"
      TargetResult.status, none)
  | .trustStage =>
    (queueAll s op req "trust.staged" "additional controller trust queued for the agent"
      TargetResult.status, none)
  | .trustRetire =>
    (queueAll s op req "trust.retire_queued"
      "trust retirement queued; last remaining root cannot be removed" TargetResult.status, none)
  | action =>
    match confirmation action with
    | some c => confirmServer s op c
    | none => (s, none)

def requireBool (params : Fields) (name : String) : Option ServerError :=
  match params.get name with
  | .bool _ => none
  | _ => some (.failed (name ++ " must be a boolean"))

/-- What `applyConfigPatch` refuses for the parameters alone; the check of a `check.apply` has been
decoded with the request, and the configured checks are outside the job tables. -/
def applyConfigPatch (req : Request) : Option ServerError :=
  if req.params.any fun f => f.1 == "collect_seconds" && f.2.sprint != "5" then
    some (.failed "this worker supports exactly five-second host collection")
  else
    match req.action with
    | .servicePause => requireBool req.params "paused"
    | .serviceIgnore => requireBool req.params "ignored"
    | _ => none

/-- `bumpDesired` patches the configuration of each target before it writes any. -/
def handlerRefusal (op : NewOperation) (req : Request) : Option ServerError :=
  match req.action with
  | .profileApply | .checkApply | .servicePause | .serviceIgnore =>
    if eligibleTargets op = [] then req.refusal else req.refusal.or (applyConfigPatch req)
  | _ => req.refusal

def executeServerSide : Store × Option ServerError :=
  match handlerRefusal op req with
  | some e => (s, some e)
  | none => serverEffect s op req

/-- What the error branch of `processSubmit` writes for one target. Only the two update
actions close the job together with the target. -/
def closeTarget (e : ServerError) (s : Store) (t : TargetResult) : Store :=
  if t.status = .rejected then s
  else
    match e with
    | .unconfirmed message => commit s (updateTargetAndRefresh s op.id t.agentId
        ⟨.unknownResult, "result_unconfirmed", message, "result_write", false, []⟩)
    | .failed message =>
      if op.action.isUpdate then
        commit s (markTargetAndJob s op.id t.agentId
          ⟨.failed, "preparation_failed", message, "", true, []⟩)
      else
        commit s (updateTargetAndRefresh s op.id t.agentId
          ⟨.failed, "failed", message, "exec", true, []⟩)

def closeTargets (e : ServerError) : Store :=
  (op.targets.map Prod.fst).foldl (closeTarget op e) s

def initialTarget (now : Time) (id : String) : TargetResult :=
  match s.agent id with
  | none => ⟨id, .rejected, "rejected", "unknown agent", false⟩
  | some a =>
    if a.revoked then ⟨id, .rejected, "rejected", "credential revoked", false⟩
    else if a.lastLiveAt.all fun live => decide (now - live > unreachableContact) then
      ⟨id, .waitingOffline, "waiting_offline", "agent offline", true⟩
    else ⟨id, .queued, "queued", "queued", false⟩

def serverTarget : TargetResult :=
  ⟨"server", .accepted, "accepted", "Saved; waiting for the server-side effect", false⟩

/-- A lifecycle job of the agent that has no final result. -/
def hasActiveLifecycle (agent : String) : Option JobRow :=
  s.jobs.find? fun j => j.agentId == agent && j.action.lifecycleConflict && !j.status.terminal

def lifecycleGate (action : Action) (t : TargetResult) : TargetResult :=
  match hasActiveLifecycle s t.agentId with
  | none => t
  | some other =>
    if action.lifecycleConflict && eligible t then
      { t with status := .rejected, stage := "conflict", retryable := true,
               message := "another lifecycle transaction is active: " ++ other.action.lifecycleId }
    else t

/-- `expandTargets` for a selected list: empty and repeated ids are dropped. -/
def expandTargets (ids : List String) : List String := (ids.filter (· != "")).eraseDups

def submittedTargets (s : Store) (req : Request) : List TargetResult :=
  let targets := (expandTargets req.targetIds).map (initialTarget s req.now)
  let targets :=
    if req.action.scope = .agents then targets
    else if req.action = .credentialRevoke ∧ targets ≠ [] then targets
    else [serverTarget]
  targets.map (lifecycleGate s req.action)

def submittedDeadline (req : Request) : Option Time :=
  match req.action.scope with
  | .server => none
  | _ =>
    match req.action with
    | .profileApply | .checkApply | .servicePause | .serviceIgnore | .updateRollout =>
      some (req.now + 24 * hour)
    | _ => some (req.now + oneShotExpiry)

def newOperation (s : Store) (req : Request) : NewOperation :=
  { id := req.id, action := req.action, actor := req.actor
    clientRequestKey := req.clientRequestKey, requestHash := req.requestHash
    createdAt := req.now, deadline := submittedDeadline req, params := req.params
    targets := (submittedTargets s req).map fun t => (t, req.jobId t.agentId) }

def profileParam : String × Value → Option String
  | (key, value) =>
    if ["auto_monitor_new", "pause_all_services", "paused"].contains key then
      match value with
      | .bool _ => none
      | _ => some (key ++ " must be a boolean")
    else if ["collect_seconds", "ping_target", "display_name", "base_revision"].contains key then none
    else some ("unknown profile parameter: " ++ key)

/-- Of `profile.apply`; the parameters of other actions are taken as checked. -/
def validateLifecycleParams (req : Request) : Option String :=
  match req.action with
  | .profileApply => req.params.findSome? profileParam
  | _ => none

/-- `processSubmit` of an action that is not a model action, past its other request checks. -/
def processSubmit (s : Store) (req : Request) : Store :=
  if req.action.isModel || req.action.unavailable then s
  else if (validateLifecycleParams req).isSome then s
  else if (req.action.scope = .agents ∨ req.action = .credentialRevoke) ∧
      expandTargets req.targetIds = [] then s
  else
    let op := newOperation s req
    match insertOperation s op none with
    | .error _ => s
    | .ok s =>
      match executeServerSide s op req with
      | (s, none) => s
      | (s, some e) => closeTargets s op e

def sparkDispatchLease : Time := 30 * second

/-- One explicit agent, online only. -/
def processSparkSubmit (model : ModelIntent) : Store :=
  match req.targetIds with
  | [agent] =>
    if !req.action.isModel || agent == "" then s
    else
      let target : TargetResult := ⟨agent, .queued, "queued", "fresh online-only model dispatch", false⟩
      let op : NewOperation :=
        { id := req.id, action := req.action, actor := req.actor
          clientRequestKey := req.clientRequestKey, requestHash := req.requestHash
          createdAt := req.now, deadline := some (req.now + sparkDispatchLease)
          params := req.params, targets := [(target, req.jobId agent)] }
      commit s (insertOperation s op (some model))
  | _ => s

end Monik.Submission
