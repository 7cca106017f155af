import Monik.Runs
import Monik.SparkCoordinator
import Monik.SparkReceipts

/-! The direct worker: accepted jobs, the local requests for them, and their journal. Code under the
mutex is one section; what waits between sections is a task. Digests are compared as the values
themselves; what does not touch jobs is left out. -/

namespace Monik.SparkWorker
open Protocol Tables Persistence SparkPolicy SparkCoordinator SparkProjection SparkReservation SparkReceipts

/-- `running` and `stageRenewing` are not saved. -/
structure WorkerJob where
  envelope : JobEnvelope
  controllerId : String
  request : Option ActionRequest
  receipt : JobReceipt
  stage : Option StageAuthorization
  stageRequest : Option ActionRequest
  (renewalAttempted stageSnapshotAcked acked running stageRenewing : Bool)

abbrev Jobs := Map String WorkerJob

def WorkerJob.saved (j : WorkerJob) : WorkerJob := { j with running := false, stageRenewing := false }

structure Worker where
  controllerId : String
  session : String
  control : Bool
  jobs : Jobs

structure Holder where
  worker : Worker
  disk : Jobs

def Holder.withJobs (h : Holder) (jobs : Jobs) : Holder := { h with worker := { h.worker with jobs } }

def Holder.put (h : Holder) (id : String) (j : WorkerJob) : Holder := h.withJobs (h.worker.jobs.put id j)

structure Encoding where
  bytes : Jobs → Nat
  receipt : JobReceipt → String

def jobLimit : Nat := 2048

def byteLimit : Nat := 4194304

variable (enc : Encoding) (h : Holder) (id : String) (job : JobEnvelope)

/-- Whether the journal was published. -/
def saveJobsLocked (w : WriteOutcome) : Holder × Bool :=
  if h.worker.jobs.size > jobLimit ∨ enc.bytes h.worker.jobs > byteLimit then (h, false)
  else ({ h with disk := w.write h.disk (h.worker.jobs.mapValues fun _ => WorkerJob.saved) }, w == .done)

/-! Jobs of a control response. -/

def unsupportedJob (controllerId : String) : WorkerJob :=
  { envelope := job, controllerId, request := none
    receipt := ⟨job.jobId, job.operationId, .unsupported, "unsupported", "action unavailable in spark-light", "",
      false, [], none, none, none⟩
    stage := none, stageRequest := none, renewalAttempted := false, stageSnapshotAcked := false, acked := false
    running := false, stageRenewing := false }

def WorkerJob.refuse (j : WorkerJob) (status : TargetStatus) (code : String) : WorkerJob :=
  { j with receipt := { j.receipt with status, errorCode := code } }

/-- What is left of the controller's lease: `issuedBudget - time.Since(requestStarted)`. -/
def remainingBudget (serverTime requestStarted since : Time) : Time :=
  job.deadline.getD zeroTime - serverTime - (since - requestStarted)

def dispatchExpired (serverTime requestStarted since : Time) : Bool :=
  let issuedBudget := job.deadline.getD zeroTime - serverTime
  serverTime == zeroTime || requestStarted == zeroTime || decide (issuedBudget ≤ 0) ||
    decide (issuedBudget > sparkDispatchLease) ||
    decide (remainingBudget job serverTime requestStarted since ≤ 0)

def localRequest (params : ModelActionParams) (serverTime requestStarted since now : Time) :
    ActionRequest :=
  { jobId := job.jobId, operationId := job.operationId, action := job.action, params, issuedAt := now
    deadline := now + remainingBudget job serverTime requestStarted since, parentJobId := "", isLocal := false }

def newJob (w : Worker) (job : JobEnvelope) (controllerId : String)
    (serverTime requestStarted since now : Time) : WorkerJob :=
  let j := unsupportedJob job controllerId
  if controllerId ≠ w.controllerId ∨ job.schemaVersion ≠ schemaVersion then
    j.refuse .rejected "controller_identity_mismatch"
  else if job.action.isModel ∧ w.control then
    match decodeModelActionParams job.params with
    | none => j.refuse .rejected "invalid_model_parameters"
    | some params =>
      if dispatchExpired job serverTime requestStarted since then j.refuse .expired "dispatch_expired"
      else { j with
        request := some (localRequest job params serverTime requestStarted since now)
        receipt := { j.receipt with
          status := .accepted, stage := "prepared", message := "durably prepared typed local request" } }
  else j

def acceptJob (controllerId : String) (serverTime requestStarted since now : Time)
    (w : WriteOutcome) : Holder × Bool :=
  match h.worker.jobs.get job.jobId with
  | some existing =>
    if existing.envelope = job ∧ existing.controllerId = controllerId then (h, false)
    else
      let receipt := rejection { ActionRequest.zero with jobId := job.jobId, operationId := job.operationId }
        "idempotency_conflict"
      ((saveJobsLocked enc (h.put job.jobId { existing with receipt, acked := false }) w).1, false)
  | none =>
    if h.worker.jobs.size ≥ jobLimit then (h, false)
    else
      let j := newJob h.worker job controllerId serverTime requestStarted since now
      let saved := saveJobsLocked enc (h.put job.jobId j) w
      if saved.2 then (saved.1, j.request.isSome)
      else (saved.1.withJobs (saved.1.worker.jobs.erase job.jobId), false)

/-! Execution by the broker. -/

def executeJob (stage : Bool) : Holder × Option ActionRequest :=
  match h.worker.jobs.get id with
  | none => (h, none)
  | some j =>
    if j.running then (h, none)
    else
      let request := if stage ∧ j.request.isSome ∧ j.stage.isSome then j.stageRequest else j.request
      match request with
      | none => (h, none)
      | some request => (h.put id { j with running := true }, some request)

def brokerReceipt (stage : Bool) (request : ActionRequest) (answer : Option JobReceipt) :
    JobReceipt :=
  let receipt := answer.getD { rejection request "local_broker_unavailable" with status := .unknownResult }
  if stage = false then receipt
  else if receipt.status = .succeeded then
    { receipt with
      jobId := id, stage := "model_restarted", evidence := receipt.evidence.set "stage_id" (.str request.jobId) }
  else { receipt with jobId := id }

def recordReceipt (receipt : JobReceipt) (w : WriteOutcome) : Holder :=
  match h.worker.jobs.get id with
  | none => h
  | some j => (saveJobsLocked enc (h.put id { j with running := false, receipt, acked := false }) w).1

/-! The start stage of a restart. -/

def WorkerJob.restartStopped (j : WorkerJob) : Bool :=
  j.receipt.status == .awaitingConfirmation && j.receipt.stage == "restart_stopped"

def startNotAttempted (j : WorkerJob) (code message : String) : WorkerJob :=
  { j with
    receipt := { j.receipt with
      status := .failed, stage := "restart_start_not_attempted", message, errorCode := code, retryable := false
      evidence := [("restart_stop_receipt", .str (enc.receipt j.receipt)), ("start_stage_attempted", .bool false)] }
    acked := false }

def failUnattemptedStageLocked (code message : String) (w : WriteOutcome) : Holder :=
  match h.worker.jobs.get id with
  | none => h
  | some j =>
    if j.stageRequest.isSome ∨ j.restartStopped = false then h
    else
      let saved := saveJobsLocked enc (h.put id (startNotAttempted enc j code message)) w
      if saved.2 then saved.1 else saved.1.put id j

def renewStage (w : WriteOutcome) : Holder × Option String :=
  match h.worker.jobs.get id with
  | none => (h, none)
  | some j =>
    if j.renewalAttempted then (h, none)
    else
      let j := { j with renewalAttempted := true }
      let saved := saveJobsLocked enc (h.put id j) w
      if saved.2 then (saved.1.put id { j with stageRenewing := true }, some j.envelope.operationId)
      else (saved.1, none)

def validAuthorization (w : Worker) (operation : String) (auth : StageAuthorization) (serverTime : Time) : Bool :=
  !(decide (serverTime < auth.issuedAt)) && auth.parentOperationId == operation && auth.start &&
    sparkValidId auth.stageId && auth.params.expectedAgentSession == w.session &&
    decide (0 < auth.deadline - auth.issuedAt) && decide (auth.deadline - auth.issuedAt ≤ sparkDispatchLease)

def stageBudget (auth : StageAuthorization) (serverTime started preparedAt : Time) : Time :=
  min (auth.deadline - serverTime - (preparedAt - started)) (auth.deadline - preparedAt)

def stageRequest (operation : String) (auth : StageAuthorization)
    (serverTime started preparedAt : Time) : ActionRequest :=
  { jobId := auth.stageId, operationId := operation, action := .modelStart, params := auth.params
    issuedAt := preparedAt, deadline := preparedAt + stageBudget auth serverTime started preparedAt
    parentJobId := id, isLocal := false }

abbrev Failure := String × String

def authorizationUnavailable : Failure :=
  ("stage_authorization_unavailable",
    "Start authorization was not received; this restart's start stage was not attempted")

def authorizationInvalid : Failure :=
  ("invalid_stage_authorization",
    "Start authorization failed validation; this restart's start stage was not attempted")

def dispatchExpiredFailure : Failure :=
  ("stage_dispatch_expired",
    "Start authorization expired before preparation; this restart's start stage was not attempted")

def journalUnavailable : Failure :=
  ("stage_journal_unavailable",
    "Start request could not be durably prepared; this restart's start stage was not attempted")

/-- With a valid authorization the stage is executed next, or it failed. -/
def prepareStage (operation : String) (auth : StageAuthorization)
    (serverTime started preparedAt : Time) (w : WriteOutcome) : Holder × Option Failure :=
  match h.worker.jobs.get id with
  | none => (h, some authorizationUnavailable)
  | some j =>
    let j := { j with stage := some auth }
    if stageBudget auth serverTime started preparedAt ≤ 0 then (h.put id j, some dispatchExpiredFailure)
    else
      let prepared := { j with stageRequest := some (stageRequest id operation auth serverTime started preparedAt) }
      let saved := saveJobsLocked enc (h.put id prepared) w
      if saved.2 then (saved.1, none)
      else (saved.1.put id { prepared with stageRequest := none }, some journalUnavailable)

def endRenewal (failure : Failure) (w : WriteOutcome) : Holder :=
  match h.worker.jobs.get id with
  | none => h
  | some j => failUnattemptedStageLocked enc (h.put id { j with stageRenewing := false }) id failure.1 failure.2 w

/-! The control response of a live report. -/

structure LiveReport where
  sessionId : String
  observedAt : Time
  spark : Option SparkExtension
  jobReceipts : List JobReceipt

structure ControlResponse where
  control : Bool
  receiptAcks : List String
  jobs : List (JobEnvelope × String)
  serverTime : Time

def freshAt (observed at_ : Time) : Bool := at_ != zeroTime && fresh observed at_ sparkControlFreshness

def showsShutdown (j : WorkerJob) (state : SparkModelState) : Bool :=
  let evidence := j.receipt.evidence
  state.supervisorState == .stopped ||
    (state.supervisorState == .failed && state.readiness == .notApplicable &&
      state.reason == "failed_service_shutdown_verified" && evidence.get "shutdown_verified" == .bool true &&
      evidence.get "supervisor_state" == .str "failed" && evidence.get "readiness" == .str "not_applicable" &&
      evidence.get "reason" == .str "failed_service_shutdown_verified" &&
      match evidence.get "instance_identity" with
      | .str identity => isDigest identity
      | _ => false)

/-- The first current state of the job's profile and generation decides. -/
def restartStopCommitted (report : LiveReport) (j : WorkerJob) : Bool :=
  match report.spark, j.request with
  | some spark, some request =>
    match spark.inventory, spark.controlState with
    | some inventory, some control =>
      let p := request.params
      report.sessionId == p.expectedAgentSession && control.enabled && control.epoch == some p.controlEpoch &&
        binds p j.receipt && freshAt report.observedAt control.observedAt &&
        (inventory.profiles.any fun profile =>
          profile.profileId == p.profileId && profile.profileRevision == p.profileRevision) &&
        ((spark.modelStates.find? fun state =>
          state.profileId == p.profileId && state.quality == .ok && freshAt report.observedAt state.observedAt &&
            toString state.generation == (j.receipt.evidence.get "generation").sprint).any (showsShutdown j))
    | _, _ => false
  | _, _ => false

def acknowledge (report : LiveReport) (response : ControlResponse) (id : String) (j : WorkerJob) : WorkerJob :=
  let acked := j.acked || (response.receiptAcks.contains id &&
    report.jobReceipts.any fun sent => sent.jobId == id && decide (sent = j.receipt))
  if j.restartStopped ∧ j.renewalAttempted = false then
    { j with acked, stageSnapshotAcked := restartStopCommitted report j }
  else { j with acked }

def recordResponse (report : LiveReport) (response : ControlResponse) (w : WriteOutcome) : Holder :=
  let worker := { h.worker with
    control := response.control, jobs := h.worker.jobs.mapValues (acknowledge report response) }
  (saveJobsLocked enc { h with worker } w).1

/-! Reconciliation. -/

def WorkerJob.awaitsStage (j : WorkerJob) : Bool := j.restartStopped && j.acked

def WorkerJob.mayRenew (j : WorkerJob) : Bool := j.awaitsStage && !j.renewalAttempted && j.stageSnapshotAcked

def WorkerJob.interrupted (j : WorkerJob) : Bool :=
  j.awaitsStage && !j.mayRenew && j.renewalAttempted && j.stageRequest.isNone && !j.stageRenewing

def WorkerJob.unresolved (j : WorkerJob) : Bool :=
  !j.awaitsStage && (j.receipt.status == .accepted || j.receipt.status == .running || j.receipt.status == .unknownResult)

inductive Task
  | polling (report : LiveReport) (started : Time)
  | answered (report : LiveReport) (started : Time) (response : ControlResponse)
  | accepting (job : JobEnvelope) (controllerId : String) (serverTime started : Time)
  /-- before `executeJob`; a renewed stage ends its renewal afterwards -/
  | executing (id : String) (stage : Bool) (renewal : Option Failure)
  | waiting (id : String) (stage : Bool) (request : ActionRequest)
  /-- `reconcilePending`, before it looks at the job again -/
  | reconciling (id : String)
  | renewing (id : String)
  | requesting (id operation : String) (started : Time)
  | authorized (id operation : String) (started : Time) (auth : StageAuthorization) (serverTime : Time)
  | ending (id : String) (failure : Failure)

/-- The first section of `reconcilePending`, and the jobs that it goes on with. -/
def reconcilePending (w : String → WriteOutcome) : Holder × List Task :=
  let idle := h.worker.jobs.rows.filter fun e => e.2.request.isSome && !e.2.running
  let failed := (idle.filter fun e => e.2.interrupted).foldl (fun h e =>
    failUnattemptedStageLocked enc h e.1 "stage_authorization_interrupted"
      "Start stage was never durably prepared; no later start was attempted" (w e.1)) h
  (failed, ((idle.filter fun e => e.2.unresolved).map fun e => .reconciling e.1) ++
    (idle.filter fun e => e.2.mayRenew).map fun e => .renewing e.1)

/-! Runs. -/

structure Env where
  since : Time
  now : Time
  save : WriteOutcome
  receipt : Option JobReceipt

/-- The next section of a task, and the tasks that follow it. A report or a stage request waits for
the controller. -/
def Task.go (env : Env) : Task → Holder × List Task
  | .polling report started => (h, [.polling report started])
  | .answered report started response =>
    (recordResponse enc h report response env.save,
      response.jobs.map fun job => .accepting job.1 job.2 response.serverTime started)
  | .accepting job controllerId serverTime started =>
    let accepted := acceptJob enc h job controllerId serverTime started env.since env.now env.save
    (accepted.1, if accepted.2 then [.executing job.jobId false none] else [])
  | .executing id stage renewal =>
    let taken := executeJob h id stage
    (taken.1, (taken.2.map fun request => .waiting id stage request).toList ++ (renewal.map fun f => .ending id f).toList)
  | .waiting id stage request =>
    (recordReceipt enc h id (brokerReceipt id stage request env.receipt) env.save, [])
  | .reconciling id => (h, [.executing id ((h.worker.jobs.get id).any fun j => j.stage.isSome) none])
  | .renewing id =>
    let renewed := renewStage enc h id env.save
    (renewed.1, (renewed.2.map fun operation => .requesting id operation env.now).toList)
  | .requesting id operation started => (h, [.requesting id operation started])
  | .authorized id operation started auth serverTime =>
    if validAuthorization h.worker operation auth serverTime then
      let prepared := prepareStage enc h id operation auth serverTime started env.now env.save
      (prepared.1, match prepared.2 with
        | none => [.executing id true (some authorizationUnavailable)]
        | some failure => [.ending id failure])
    else (h, [.ending id authorizationInvalid])
  | .ending id failure => (endRenewal enc h id failure env.save, [])

structure Process where
  worker : Option Worker
  disk : Jobs
  tasks : List Task

def Process.start : Process := ⟨none, Table.empty, []⟩

inductive Event
  | openWorker (controllerId session : String)
  | send (report : LiveReport) (now : Time)
  /-- the controller answers a report; `none` is an error of the request -/
  | respond (i : Nat) (response : Option ControlResponse)
  | authorize (i : Nat) (answer : Option (StageAuthorization × Time))
  | reconcilePending (w : String → WriteOutcome)
  | go (i : Nat) (env : Env)
  | crash

def Task.respond (response : Option ControlResponse) : Task → List Task
  | .polling report started => (response.map fun response => .answered report started response).toList
  | t => [t]

def Task.authorize (answer : Option (StageAuthorization × Time)) : Task → List Task
  | .requesting id operation started =>
    match answer with
    | none => [.ending id authorizationUnavailable]
    | some (auth, serverTime) => [.authorized id operation started auth serverTime]
  | t => [t]

def Process.follow (p : Process) (i : Nat) (tasks : List Task) : Process :=
  { p with tasks := p.tasks.take i ++ tasks ++ p.tasks.drop (i + 1) }

def Process.release (p : Process) (h : Holder) : Process := { p with worker := some h.worker, disk := h.disk }

def Process.serve (p : Process) (w : Worker) : Event → Process
  | .openWorker .. => p
  | .send report now => { p with tasks := p.tasks ++ [.polling report now] }
  | .respond i response =>
    match p.tasks[i]? with
    | none => p
    | some t => p.follow i (t.respond response)
  | .authorize i answer =>
    match p.tasks[i]? with
    | none => p
    | some t => p.follow i (t.authorize answer)
  | .reconcilePending outcome =>
    let out := reconcilePending enc ⟨w, p.disk⟩ outcome
    { p.release out.1 with tasks := p.tasks ++ out.2 }
  | .go i env =>
    match p.tasks[i]? with
    | none => p
    | some t =>
      let out := t.go enc ⟨w, p.disk⟩ env
      (p.release out.1).follow i out.2
  | .crash => { p with worker := none, tasks := [] }

def step (p : Process) (e : Event) : Process :=
  match p.worker with
  | some w => p.serve enc w e
  | none =>
    match e with
    | .openWorker controllerId session => { p with worker := some ⟨controllerId, session, false, p.disk⟩ }
    | _ => p

end Monik.SparkWorker
