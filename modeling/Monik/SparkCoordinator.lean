import Mathlib.Algebra.Group.Nat.Defs
import Monik.SparkPolicy

/-! The model coordinator: its journal and the critical sections of `Execute`. What the outside
answers in a section is its `Env`. -/

namespace Monik.SparkCoordinator
open Protocol Tables Persistence SparkPolicy

def sparkDispatchLease : Time := 30 * second

/-- A start whose weights are scanned; `serial` is the identity of its pointer. -/
structure PendingStart where
  request : ActionRequest
  token : Nat
  serial : Nat

structure Coordinator where
  policy : Policy
  journal : Journal
  session : String
  preflightToken : Map String Nat
  pendingStarts : Map String PendingStart
  serial : Nat
  seen : List (String × Instance × RuntimeProfile)

inductive Entry
  /-- `Supervisor.Effect`, with what was observed under the same hold of the mutex -/
  | effect (request : ActionRequest) (profile : Profile) (action : Action)
      (seen : List (String × Instance × RuntimeProfile))
  | submit (request : ActionRequest) (profile : Profile)
  | pruned (jobId : String) (attempt : Attempt) (now : Time)
  | returned (receipt : JobReceipt)

structure Hold where
  coordinator : Coordinator
  disk : Option Journal
  log : List Entry

structure Kernel where
  digest : ActionRequest → String
  localStageId : String → String
  checks : ExistingChecks

/-- The answers of the outside to one section. `none` is an error. -/
structure Env where
  now : Time
  final : Time
  save : WriteOutcome
  inspect : String → Option Instance
  (definition finalDefinition weights : Option String)
  available : Nat
  portFree : Bool
  sharedLock : Bool
  effect : Option Instance
  timeout : Bool
  boot : Option String
  snapshot : Option ExistingSnapshot
  backend : Option ExistingReceipt

def Coordinator.attempt (c : Coordinator) (jobId : String) : Option Attempt :=
  c.journal.attempts.get jobId

def Coordinator.setAttempts (c : Coordinator) (attempts : Map String Attempt) : Coordinator :=
  { c with journal := { c.journal with attempts } }

def Coordinator.putAttempt (c : Coordinator) (jobId : String) (a : Attempt) : Coordinator :=
  c.setAttempts (c.journal.attempts.put jobId a)

def Coordinator.runtime (c : Coordinator) (profileId : String) : RuntimeProfile :=
  (c.journal.profiles.get profileId).getD .zero

def Coordinator.putRuntime (c : Coordinator) (profileId : String) (r : RuntimeProfile) : Coordinator :=
  { c with journal := { c.journal with profiles := c.journal.profiles.put profileId r } }

def Coordinator.token (c : Coordinator) (profileId : String) : Nat :=
  (c.preflightToken.get profileId).getD 0

def Hold.update (h : Hold) (f : Coordinator → Coordinator) : Hold :=
  { h with coordinator := f h.coordinator }

/-- Whether the journal was published. A failed write leaves the old or the new journal on disk. -/
def saveLocked (h : Hold) (w : WriteOutcome) : Hold × Bool :=
  ({ h with disk := w.write h.disk (some h.coordinator.journal) }, w == .done)

variable (c : Coordinator) (r : ActionRequest) (p : Profile)

def rejection (code : String) : JobReceipt :=
  { jobId := r.jobId, operationId := r.operationId, status := .rejected, stage := "model_rejected"
    message := code, errorCode := code, retryable := false
    evidence := [("profile_id", .str r.params.profileId)], acceptedAt := none, appliedAt := none
    verifiedAt := none }

def evidenceReceipt (i : Instance) (status : TargetStatus) (stage : String) (now : Time) :
    JobReceipt :=
  let session := if r.isLocal then r.params.expectedAgentSession else c.session
  let evidence : Fields :=
    [("profile_id", .str p.id), ("profile_revision", .str p.revision),
      ("generation", .int (c.runtime p.id).generation), ("control_epoch", .str c.journal.epoch),
      ("agent_session", .str session), ("supervisor_state", .str i.state.text),
      ("readiness", .str "unknown"), ("instance_identity", .str i.identity), ("observed_at", .int now)]
  let evidence := if shutdownComplete p i then
      (evidence.set "shutdown_verified" (.bool true)).set "readiness" (.str "not_applicable")
    else evidence
  let evidence := if shutdownComplete p i && i.state == .failed then
      evidence.set "reason" (.str "failed_service_shutdown_verified")
    else evidence
  { jobId := r.jobId, operationId := r.operationId, status, stage, message := stage, errorCode := ""
    retryable := false, evidence, acceptedAt := none, appliedAt := some now, verifiedAt := some now }

def observeLocked (i : Instance) (now : Time) : Coordinator × RuntimeProfile :=
  let old := c.runtime p.id
  let r := if old.identity ≠ i.identity then
      { old with generation := old.generation + 1, identity := i.identity, state := i.state }
    else { old with state := i.state }
  let r := if p.kind = .existingCoordinator then
      { r with
        backendObservedAtMs := (i.backend.map ExistingSnapshot.observedAtMs).getD r.backendObservedAtMs
        reserved := false, startingAt := zeroTime, reservationUntil := zeroTime }
    else if i.state = .stopped ∨ i.state = .failed then
      let held := shutdownComplete p i && r.reservationUntil != zeroTime && now < r.reservationUntil
      { r with reserved := !shutdownComplete p i || held, startingAt := zeroTime }
    else r
  ({ c.putRuntime p.id r with seen := (p.id, i, r) :: c.seen }, r)

def Coordinator.sessionOf (c : Coordinator) (r : ActionRequest) : String :=
  if r.isLocal then "local:" ++ c.journal.epoch else c.session

def linkedStageError (now : Time) : Option String :=
  match c.attempt r.parentJobId with
  | none => some "linked_stage_not_authorized"
  | some parent =>
    if parent.stage = .restartStopped ∧ parent.request.action = .modelRestart ∧
        parent.request.params.profileId = p.id ∧ parent.request.operationId = r.operationId ∧
        .modelRestart ∈ p.allowedActions then
      match parent.receipt.verifiedAt with
      | none => some "linked_stage_expired"
      | some verified => if now - verified > 60 * second then some "linked_stage_expired" else none
    else some "linked_stage_not_authorized"

def leaseExpired (now : Time) : Bool :=
  r.issuedAt == zeroTime || r.deadline == zeroTime || !(now < r.deadline) ||
    r.deadline - r.issuedAt > sparkDispatchLease || r.issuedAt > now + 5 * second ||
    now - r.issuedAt > sparkDispatchLease + 5 * second

def isLinked (r : ActionRequest) : Bool := r.action == .modelStart && r.parentJobId != ""

def validateLocked (i : Instance) (now : Time) : Coordinator × Option String :=
  match if isLinked r then linkedStageError c r p now else none with
  | some code => (c, some code)
  | none =>
    if c.policy.enabled = false ∨ p.observationOnly ∨ p.kind = .configuredCatalog ∨
        (isLinked r = false ∧ r.action ∉ p.allowedActions) then
      (c, some "local_action_not_approved")
    else if r.params.controlEpoch ≠ c.journal.epoch ∨ r.params.expectedAgentSession ≠ c.sessionOf r ∨
        c.sessionOf r = "" ∨ r.params.profileRevision ≠ p.revision then
      (c, some "authority_or_profile_drift")
    else
      let observed := observeLocked c p i now
      if r.params.expectedGeneration ≠ observed.2.generation then (observed.1, some "generation_drift")
      else if r.action = .modelStart ∧ (i.state = .stopped ∨ i.state = .failed) ∧
          shutdownComplete p i = false then
        (observed.1, some "service_shutdown_unverified")
      else if isLinked r ∧ shutdownComplete p i = false then
        (observed.1, some "restart_stopped_stage_identity_unavailable")
      else if leaseExpired r now then (observed.1, some "dispatch_expired")
      else if r.action ≠ .modelStart ∧ i.state ≠ .stopped ∧ r.params.confirmDisruption = false then
        (observed.1, some "disruption_confirmation_required")
      else (observed.1, none)

def sharesGroup (other : Profile) : Bool := p.exclusionGroups.any fun g => other.exclusionGroups.contains g

def preflightOthers (env : Env) (p : Profile) (replace : Bool) (need : Nat) :
    List Profile → Coordinator → Nat → Coordinator × Option String
  | [], c, _ => (c, none)
  | other :: others, c, available =>
    if other.id = p.id then preflightOthers env p replace need others c available
    else
      let conflict := sharesGroup p other
      match if conflict then (env.inspect other.id).map fun i => observeLocked c other i env.now
            else some (c, c.runtime other.id) with
      | none => (c, some "exclusion_state_unknown")
      | some (c, r) =>
        if conflict ∧ (r.reserved ∨ r.state = .running ∨ r.state = .starting ∨
            r.state = .stopping) then
          (c, some "exclusion_group_busy")
        else if r.reserved ∧ 0 < other.requiredMemoryBytes ∧ replace = false then
          if other.requiredMemoryBytes > available ∨ need > available - other.requiredMemoryBytes then
            (c, some "memory_reserved")
          else preflightOthers env p replace need others c (available - other.requiredMemoryBytes)
        else preflightOthers env p replace need others c available

def preflightLocked (env : Env) (c : Coordinator) (p : Profile) (replace : Bool) : Coordinator × Option String :=
  let need := (p.requiredMemoryBytes + p.osHeadroomBytes) % 2 ^ 64
  if p.requiredMemoryBytes = 0 ∧ p.blockUnknownMemory then (c, some "memory_estimate_unknown")
  else if need < p.requiredMemoryBytes then (c, some "memory_estimate_invalid")
  else if replace = false ∧ 0 < need ∧ (env.available = 0 ∨ env.available < need) then
    (c, some "insufficient_memory")
  else
    match preflightOthers env p replace need c.policy.profiles c env.available with
    | (c, some code) => (c, some code)
    | (c, none) =>
      if p.port ≠ 0 ∧ replace = false ∧ env.portFree = false then (c, some "launch_port_busy")
      else (c, none)

def sameStartStopAuthority (start stop : ActionRequest) : Bool :=
  start.isLocal == stop.isLocal && start.params.profileId == stop.params.profileId &&
    start.params.profileRevision == stop.params.profileRevision &&
    start.params.controlEpoch == stop.params.controlEpoch &&
    start.params.expectedAgentSession == stop.params.expectedAgentSession

def exactStartStopInstance (start : Attempt) (stop : ActionRequest) (current : Instance) : Bool :=
  let expected := stop.params.expectedGeneration
  if !(current.state == .starting || current.state == .running) || current.identity == "" ||
      start.receipt.evidence.get "instance_identity" != .str current.identity ||
      (start.receipt.evidence.get "generation").sprint != (Value.int expected).sprint then false
  else if start.before.state == .starting then
    start.before.identity == current.identity && start.request.params.expectedGeneration == expected
  else
    (start.before.state == .stopped || start.before.state == .failed) &&
      start.before.identity != current.identity && expected > 0 &&
      start.request.params.expectedGeneration == expected - 1

def isDigest (s : String) : Bool :=
  s.utf8ByteSize == 71 && s.toList.take 7 == "sha256:".toList &&
    (s.toList.drop 7).all fun c => ('0' ≤ c && c ≤ '9') || ('a' ≤ c && c ≤ 'f')

def provesShutdown (stop : Attempt) : Bool :=
  let state := stop.receipt.evidence.get "supervisor_state"
  let failedProof := state == .str "failed" &&
    stop.receipt.evidence.get "reason" == .str "failed_service_shutdown_verified" &&
    (match stop.receipt.evidence.get "instance_identity" with
      | .str identity => isDigest identity
      | _ => false)
  stop.request.action == .modelStop && stop.stage == .done && stop.receipt.status == .succeeded &&
    stop.receipt.stage == "model_stopped" &&
    stop.receipt.evidence.get "shutdown_verified" == .bool true &&
    stop.receipt.evidence.get "readiness" == .str "not_applicable" &&
    (state == .str "stopped" || failedProof)

def stoppedStart (stop start : Attempt) : Attempt :=
  { start with
    stage := .done
    receipt := { stop.receipt with
      jobId := start.request.jobId, operationId := start.request.operationId, status := .failed
      stage := "start_cancelled_after_stop", errorCode := "superseded_by_stop"
      message := "start cancelled after exact safety stop verified shutdown by operation " ++
        stop.request.operationId } }

def finishStoppedStartsLocked (stop : Attempt) : Coordinator :=
  if provesShutdown stop = false then c
  else c.setAttempts (c.journal.attempts.mapValues fun _ start =>
    if start.stoppedByJobId ≠ stop.request.jobId ∨ start.stage = .done ∨
        sameStartStopAuthority start.request stop.request = false then start
    else stoppedStart stop start)

/-- `finishParentLocked`. The parent's receipt shares the evidence of its stage. -/
def finishParentLocked (stage : Attempt) : Coordinator × Attempt :=
  if stage.request.parentJobId = "" ∨ stage.stage ≠ .done then (c, stage)
  else
    match c.attempt stage.request.parentJobId with
    | none => (c, stage)
    | some parent =>
      if parent.stage ≠ .startAttempted ∨ parent.request.operationId ≠ stage.request.operationId ∨
          parent.request.params.profileId ≠ stage.request.params.profileId then (c, stage)
      else if stage.receipt.status = .succeeded then
        let evidence := stage.receipt.evidence.set "stage_id" (.str stage.request.jobId)
        (c.putAttempt parent.request.jobId { parent with
          stage := .done
          receipt := { stage.receipt with
            jobId := parent.request.jobId, stage := "model_restarted", message := "model_restarted"
            evidence } },
          { stage with receipt := { stage.receipt with evidence } })
      else
        (c.putAttempt parent.request.jobId { parent with
          stage := .done, receipt := { stage.receipt with jobId := parent.request.jobId } }, stage)

def Coordinator.reserve (c : Coordinator) (profileId : String) (deadline : Time) : Coordinator :=
  c.putRuntime profileId { c.runtime profileId with reserved := true, reservationUntil := deadline }

/-- The attempt with the receipt that it returns. -/
def reconcileLocked (a : Attempt) (p : Profile) (i : Instance) (now : Time) :
    Coordinator × Attempt :=
  let c := (observeLocked c p i now).1
  if a.stoppedByJobId ≠ "" then
    match c.attempt a.stoppedByJobId with
    | none =>
      (c, { a with receipt := evidenceReceipt c a.request p i .unknownResult "stop_outcome_unconfirmed" now })
    | some stop =>
      let c := finishStoppedStartsLocked c stop
      let closed := (c.attempt a.request.jobId).getD .zero
      if closed.stage = .done then (c, closed)
      else
        (c, { a with receipt := evidenceReceipt c a.request p i .unknownResult "stop_outcome_unconfirmed" now })
  else if a.request.action = .modelStart ∧ i.state = .running then
    let started := { a with
      stage := .done, receipt := evidenceReceipt c a.request p i .succeeded "model_started" now }
    finishParentLocked c started
  else if (a.request.action = .modelStop ∨ a.request.action = .modelRestart) ∧
      shutdownComplete p i then
    let stopped := evidenceReceipt c a.request p i .succeeded "model_stopped" now
    if a.request.action = .modelRestart then
      let c := c.reserve p.id (now + 60 * second)
      let a := { a with
        stage := .restartStopped
        receipt := { stopped with status := .awaitingConfirmation, stage := "restart_stopped" } }
      (finishStoppedStartsLocked c a, a)
    else
      let a := { a with stage := .done, receipt := stopped }
      (finishStoppedStartsLocked c a, a)
  else (c, { a with receipt := evidenceReceipt c a.request p i .unknownResult "attempt_unresolved" now })

def rejectPreflightLocked (h : Hold) (r : ActionRequest) (code : String) (w : WriteOutcome) : Hold :=
  match h.coordinator.attempt r.jobId with
  | none => h
  | some pending =>
    if pending.stage = .preflightPending then
      (saveLocked (h.update fun c =>
        c.putAttempt r.jobId { pending with stage := .done, receipt := rejection r code }) w).1
    else h

def restoreStartLinksLocked (stopId : String) (previous : List (String × String)) : Coordinator :=
  previous.foldl (fun c link =>
    let original := (c.attempt link.1).getD .zero
    if original.stoppedByJobId = stopId then
      c.putAttempt link.1 { original with stoppedByJobId := link.2 }
    else c) c

/-- Where a call of `Execute` stands between two sections. -/
inductive Pc
  | entering (r : ActionRequest)
  | weighing (r : ActionRequest) (p : Profile) (before : Instance) (token : Nat) (serial : Option Nat)
  | armed (p : Profile) (a : Attempt) (links : List (String × String))
  | invoked (p : Profile) (a : Attempt) (after : Option Instance)
  | observing (r : ActionRequest) (p : Profile)
  | settling (r : ActionRequest) (p : Profile) (after : Instance)
  | existing (r : ActionRequest) (p : Profile)
  | existingObserving (r : ActionRequest) (p : Profile) (authority : ExistingAuthority)
  | existingSubmitting (r : ActionRequest) (p : Profile) (request : ExistingRequest)
      (authority : ExistingAuthority) (unknown : JobReceipt)
  | existingReading (r : ActionRequest) (p : Profile) (authority : ExistingAuthority) (prior : Attempt)
  | existingFinishing (r : ActionRequest) (p : Profile) (authority : ExistingAuthority)
      (backend : ExistingReceipt)
  | existingConcluding (r : ActionRequest) (p : Profile) (authority : ExistingAuthority)
      (backend : ExistingReceipt) (current : Option ExistingSnapshot)
  | existingParent (r : ActionRequest)

inductive Next
  | goto (pc : Pc)
  | returned (receipt : JobReceipt)
  /-- `executeExisting` calls itself for the start stage of the restart -/
  | callStage (parent stage : ActionRequest) (p : Profile)

end Monik.SparkCoordinator
