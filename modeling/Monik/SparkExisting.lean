import Monik.SparkCoordinator

/-! `executeExisting` and `finishExisting`: profiles whose launches an existing coordinator admits.
Requests to it are journaled and submitted without the mutex. -/

namespace Monik.SparkExisting
open Protocol Tables Persistence SparkPolicy SparkCoordinator

def existingAuthorityLocked (c : Coordinator) (boot : Option String) : Option ExistingAuthority :=
  boot.bind fun bootId => if c.session = "" then none else some ⟨c.journal.epoch, c.session, bootId⟩

def stagesOf (c : Coordinator) (r : ActionRequest) (p : Profile) : List ActionRequest :=
  (c.journal.attempts.rows.filter fun e => e.2.request.parentJobId == r.jobId &&
    e.2.request.operationId == r.operationId && e.2.request.params.profileId == p.id).map (·.2.request)

def enterExisting (k : Kernel) (h : Hold) (r : ActionRequest) (p : Profile) (env : Env) : Hold × Next :=
  let c := h.coordinator
  match existingAuthorityLocked c env.boot with
  | none => (h, .returned (rejection r "authority_changed"))
  | some authority =>
    if c.policy.enabled = false ∨ r.params.profileRevision ≠ p.revision then
      (h, .returned (rejection r "authority_changed"))
    else
      match c.attempt r.jobId with
      | none => (h, .goto (.existingObserving r p authority))
      | some prior =>
        if prior.digest ≠ k.digest r then (h, .returned (rejection r "idempotency_conflict"))
        else if prior.backendRequest.isNone then (h, .returned (rejection r "attempt_unresolved"))
        else if prior.stage = .restartStopped ∨ prior.stage = .done then (h, .returned prior.receipt)
        else if prior.stage = .startAttempted ∧ prior.request.action = .modelRestart then
          match stagesOf c r p with
          | [] => (h, .goto (.existingParent r))
          | [stage] => (h, .callStage r stage p)
          | _ => (h, .returned prior.receipt)
        else (h, .goto (.existingReading r p authority prior))

theorem enterExisting_hold (k : Kernel) (h : Hold) (r : ActionRequest) (p : Profile) (env : Env) :
    (enterExisting k h r p env).1 = h := by
  unfold enterExisting
  dsimp only
  repeat' split
  all_goals rfl

def existingStageAllowed (c : Coordinator) (r : ActionRequest) (p : Profile) (now : Time) : Bool :=
  (c.attempt r.parentJobId).any fun parent =>
    parent.stage == .restartStopped && parent.request.action == .modelRestart &&
      parent.request.operationId == r.operationId && parent.request.params.profileId == p.id &&
      parent.receipt.evidence.get "shutdown_verified" == .bool true &&
      parent.receipt.verifiedAt.any (fun verified => now - verified < 60 * second) &&
      r.action == .modelStart && p.allowedActions.contains .modelRestart

def existingAdmissionError (c : Coordinator) (r : ActionRequest) (p : Profile)
    (authority : ExistingAuthority) (snap : ExistingSnapshot) (before : Instance) (generation : Int)
    (now : Time) : Option String :=
  let allowed := if r.parentJobId ≠ "" then existingStageAllowed c r p now
    else p.allowedActions.contains r.action
  if allowed = false ∨ c.policy.enabled = false then some "local_action_not_approved"
  else if r.params.controlEpoch ≠ c.journal.epoch ∨ r.params.expectedAgentSession ≠ c.sessionOf r ∨
      r.params.profileRevision ≠ p.revision ∨ snap.authority ≠ authority then
    some "authority_or_profile_drift"
  else if r.params.expectedGeneration ≠ generation then some "generation_drift"
  else if snap.profileRevision ≠ p.backendRevision then some "effective_definition_drift"
  else if before.state = .unknown then some "supervisor_identity_unavailable"
  else if r.action = .modelRestart ∧ before.state ≠ .running then some "not_running_use_start"
  else if r.action ≠ .modelStart ∧ before.state ≠ .stopped ∧ r.params.confirmDisruption = false then
    some "disruption_confirmation_required"
  else if r.issuedAt = zeroTime ∨ ¬ now < r.deadline ∨ ¬ r.issuedAt < r.deadline ∨
      r.deadline - r.issuedAt > sparkDispatchLease ∨ r.issuedAt > now + second then
    some "dispatch_expired"
  else none

def existingAction (r : ActionRequest) : Action := if r.action = .modelStart then .modelStart else .modelStop

def recordExisting (c : Coordinator) (a : Attempt) : Coordinator :=
  let r := a.request
  let c := c.putAttempt r.jobId a
  if r.parentJobId ≠ "" then
    let parent := (c.attempt r.parentJobId).getD .zero
    c.putAttempt r.parentJobId { parent with
      stage := .startAttempted
      receipt := { parent.receipt with
        status := .running, stage := "restart_start_attempted", verifiedAt := none } }
  else c

def admitExisting (k : Kernel) (h : Hold) (r : ActionRequest) (p : Profile)
    (authority : ExistingAuthority) (env : Env) : Hold × Next :=
  match env.snapshot with
  | none => (h, .returned (rejection r "supervisor_identity_unavailable"))
  | some snap =>
    let before := snap.toInstance k.checks p
    if (h.coordinator.attempt r.jobId).isSome then (h, .goto (.existing r p))
    else
      let observed := observeLocked h.coordinator p before env.now
      let c := observed.1
      match existingAdmissionError c r p authority snap before observed.2.generation env.now with
      | some code => ({ h with coordinator := c }, .returned (rejection r code))
      | none =>
        if c.journal.attempts.size ≥ 2048 then
          ({ h with coordinator := c }, .returned (rejection r "journal_capacity"))
        else
          let request : ExistingRequest :=
            { operationId := r.jobId, profileId := p.id, action := existingAction r
              profileRevision := p.backendRevision
              expectedGeneration := snap.result.generation.getD 0
              expectedInstance := snap.result.instanceIdentity, authority, issuedAt := r.issuedAt
              deadline := r.deadline, parentOperationId := r.parentJobId }
          let a : Attempt := { Attempt.zero with
            request := r, digest := k.digest r, before, stage := .existingAttempted
            attemptedAt := env.now, backendRequest := some request
            receipt := evidenceReceipt c r p before .unknownResult "effect_attempted" env.now }
          let saved := saveLocked { h with coordinator := recordExisting c a } env.save
          if saved.2 then (saved.1, .goto (.existingSubmitting r p request authority a.receipt))
          else (saved.1, .returned (rejection r "journal_unavailable"))

def submitExisting (h : Hold) (r : ActionRequest) (p : Profile) (authority : ExistingAuthority)
    (unknown : JobReceipt) (env : Env) : Hold × Next :=
  if r.deadline ≤ env.now then (h, .returned unknown)
  else
    let h := { h with log := .submit r p :: h.log }
    match env.backend with
    | none => (h, .returned unknown)
    | some backend => (h, .goto (.existingFinishing r p authority backend))

def readExisting (h : Hold) (r : ActionRequest) (p : Profile) (authority : ExistingAuthority)
    (prior : Attempt) (env : Env) : Hold × Next :=
  match env.backend with
  | none => (h, .returned prior.receipt)
  | some backend => (h, .goto (.existingFinishing r p authority backend))

theorem readExisting_hold (h : Hold) (r : ActionRequest) (p : Profile) (authority : ExistingAuthority)
    (prior : Attempt) (env : Env) : (readExisting h r p authority prior env).1 = h := by
  unfold readExisting
  split <;> rfl

def compatible (checks : ExistingChecks) (previous : Option ExistingSnapshot) (current : ExistingSnapshot) :
    Bool :=
  previous.all fun previous => checks.compatibleExistingPhysical previous current

def needsSnapshot (backend : ExistingReceipt) : Bool :=
  backend.result.any (fun result => result.modelId != "") ||
    (backend.runId.isSome && (backend.phase == .dispatched || backend.phase == .completed) &&
      backend.result.isNone)

def finishExisting (k : Kernel) (h : Hold) (r : ActionRequest) (p : Profile)
    (authority : ExistingAuthority) (backend : ExistingReceipt) (env : Env) : Hold × Next :=
  match h.coordinator.attempt r.jobId with
  | none => (h, .returned (rejection r "backend_receipt_invalid"))
  | some a =>
    if a.backendRequest.all fun request => !k.checks.validateExistingReceipt backend request then
      (h, .returned (rejection r "backend_receipt_invalid"))
    else
      let current := env.snapshot.filter fun snap =>
        needsSnapshot backend && k.checks.validateExistingSnapshot snap p env.now &&
          snap.authority == authority && snap.profileRevision == p.backendRevision &&
          snap.result.runId == backend.runId && snap.result.attempt == backend.attempt &&
          valueGeneration snap.result.generation == backend.generation &&
          compatible k.checks a.backendSnapshot snap &&
          a.before.backend.all fun before =>
            before.result.runId != backend.runId || k.checks.compatibleExistingPhysical before snap
      (h, .goto (.existingConcluding r p authority backend current))

theorem finishExisting_hold (k : Kernel) (h : Hold) (r : ActionRequest) (p : Profile) (authority : ExistingAuthority)
    (backend : ExistingReceipt) (env : Env) : (finishExisting k h r p authority backend env).1 = h := by
  unfold finishExisting
  split
  · rfl
  · split <;> rfl

def sameExistingRun (a : Option ExistingReceipt) (b : ExistingReceipt) : Bool :=
  a.any fun a => a.runId.isSome && a.runId == b.runId && a.attempt == b.attempt &&
    a.generation == b.generation

def existingCancelledReceipt (stop : JobReceipt) (r : ActionRequest) : JobReceipt :=
  { stop with
    jobId := r.jobId, operationId := r.operationId, status := .failed
    stage := "start_cancelled_after_stop", errorCode := "superseded_by_stop" }

variable (checks : ExistingChecks) (c : Coordinator) (p : Profile) (backend : ExistingReceipt)

def existingEvidenceLocked (r : ActionRequest) (p : Profile) (i : Instance) (status : TargetStatus)
    (stage : String) (now : Time) : JobReceipt :=
  let receipt := evidenceReceipt c r p i status stage now
  let evidence := receipt.evidence.set "control_epoch" (.str r.params.controlEpoch)
  { receipt with evidence := evidence.set "agent_session" (.str r.params.expectedAgentSession) }

def provenShutdown (current : ExistingSnapshot) (result : ExistingResult) : Bool :=
  backend.phase == .completed && backend.action == .modelStop &&
    checks.validExistingShutdown result p.id backend.runId backend.generation &&
    current.result.instanceIdentity == result.instanceIdentity && result.attempt == backend.attempt &&
    current.result.attempt == backend.attempt &&
    checks.validExistingShutdown current.result p.id backend.runId backend.generation

def provenReady (current : ExistingSnapshot) (result : ExistingResult) : Bool :=
  backend.phase == .completed && backend.action == .modelStart &&
    (result.state == .ready || result.state == .starting) && current.result.state == .ready &&
    current.result.processActive && current.result.apiReady && checks.existingReadyPhysical current p

def existingOutcome (r : ActionRequest) (p : Profile) (i : Instance) (backend : ExistingReceipt)
    (current : Option ExistingSnapshot) (stage : AttemptStage) (now : Time) :
    AttemptStage × JobReceipt :=
  let unresolved := { existingEvidenceLocked c r p i .unknownResult "attempt_unresolved" now with
    verifiedAt := none }
  if backend.result.any fun result => result.effectInvoked == some false then
    (.done, rejection r "backend_effect_not_invoked")
  else
    match current, backend.result with
    | some current, some result =>
      if provenShutdown checks p backend current result then
        let stopped := existingEvidenceLocked c r p i .succeeded "model_stopped" now
        if r.action = .modelRestart then
          (.restartStopped, { stopped with
            status := .awaitingConfirmation, stage := "restart_stopped"
            message := "stopped; fresh linked start authorization required" })
        else (.done, stopped)
      else if provenReady checks p backend current result then
        let started := existingEvidenceLocked c r p i .succeeded "model_started" now
        (.done, { started with evidence := started.evidence.set "readiness" (.str "ready") })
      else if backend.action = .modelStart ∧
          (current.result.state = .starting ∨ current.result.state = .ready) then
        (stage, { unresolved with status := .running, stage := "model_starting" })
      else (stage, unresolved)
    | some current, none =>
      if backend.action = .modelStart ∧
          (current.result.state = .starting ∨ current.result.state = .ready) then
        (stage, { unresolved with status := .running, stage := "model_starting" })
      else (stage, unresolved)
    | none, _ => (stage, unresolved)

def stopOfRun (stop : Attempt) : Bool :=
  stop.request.action == .modelStop && stop.request.params.profileId == p.id && stop.stage == .done &&
    stop.receipt.status == .succeeded &&
    stop.receipt.evidence.get "shutdown_verified" == .bool true &&
    sameExistingRun stop.backendReceipt backend

def startOfRun (start : Attempt) : Bool :=
  start.request.action == .modelStart && start.stage != .done &&
    sameExistingRun start.backendReceipt backend && start.request.params.profileId == p.id

def currentSnapshot (a : Attempt) (current : Option ExistingSnapshot) : Option ExistingSnapshot :=
  current.filter fun snap =>
    let observed := c.runtime p.id
    compatible checks a.backendSnapshot snap &&
      !(observed.identity != (snap.toInstance checks p).identity &&
        observed.identity != a.before.identity && observed.backendObservedAtMs ≥ snap.observedAtMs)

def concludedAttempt (r : ActionRequest) (p : Profile) (a : Attempt) (backend : ExistingReceipt)
    (current : Option ExistingSnapshot) (now : Time) : Attempt :=
  let i := match current with
    | some snap => snap.toInstance checks p
    | none => { a.before with state := .unknown, available := false, shutdownVerified := false }
  let outcome := existingOutcome checks c r p i backend current a.stage now
  let a := { a with
    stage := outcome.1, receipt := outcome.2, backendReceipt := some backend
    backendSnapshot := current.or a.backendSnapshot }
  if backend.action = .modelStart ∧ a.stage ≠ .done then
    match c.journal.attempts.rows.find? fun e => stopOfRun p backend e.2 with
    | some stop => { a with stage := .done, receipt := existingCancelledReceipt stop.2.receipt r }
    | none => a
  else a

def concludeExisting (k : Kernel) (h : Hold) (r : ActionRequest) (p : Profile)
    (authority : ExistingAuthority) (backend : ExistingReceipt) (current : Option ExistingSnapshot)
    (env : Env) : Hold × Next :=
  let c := h.coordinator
  let a := (c.attempt r.jobId).getD .zero
  if a.stage = .done ∨ a.stage = .restartStopped ∨
      (a.stage = .startAttempted ∧ r.action = .modelRestart) then
    (h, .returned a.receipt)
  else if existingAuthorityLocked c env.boot ≠ some authority ∨ c.policy.enabled = false ∨
      (c.policy.profile p.id).all (fun q => q.revision != p.revision || q.definitionHash != p.definitionHash) then
    (h, .returned a.receipt)
  else if a.backendReceipt.any (fun old => old.runId != backend.runId || old.attempt != backend.attempt ||
      old.generation != backend.generation) then
    (h, .returned a.receipt)
  else
    let current := currentSnapshot k.checks c p a current
    let c := match current with
      | some snap => (observeLocked c p (snap.toInstance k.checks p) env.now).1
      | none => c
    let a := concludedAttempt k.checks c r p a backend current env.now
    let c := c.putAttempt r.jobId a
    let c := if backend.action = .modelStop ∧ a.receipt.status = .succeeded then
        c.setAttempts (c.journal.attempts.mapValues fun _ start =>
          if startOfRun p backend start then
            { start with stage := .done, receipt := existingCancelledReceipt a.receipt start.request }
          else start)
      else c
    let finished := finishParentLocked c a
    let c := finished.1.putAttempt r.jobId finished.2
    let saved := saveLocked { h with coordinator := c } env.save
    if saved.2 then (saved.1, .returned finished.2.receipt)
    else (saved.1, .returned (rejection r "journal_post_effect_unavailable"))

end Monik.SparkExisting
