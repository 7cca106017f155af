import Monik.SparkCoordinator

/-! `Execute`, one definition for each stretch of the function. -/

namespace Monik.SparkExecute
open Protocol Tables Persistence SparkPolicy SparkCoordinator

variable (k : Kernel) (h : Hold) (c : Coordinator) (r : ActionRequest) (p : Profile) (a : Attempt)
    (i : Instance) (env : Env)

def pendingIs (r : ActionRequest) : Bool :=
  (c.pendingStarts.get p.id).any fun pending => pending.request.jobId == r.jobId

def answerDuplicate (prior : Attempt) (env : Env) : Hold × JobReceipt :=
  let c := h.coordinator
  if prior.digest ≠ k.digest r then (h, rejection r "idempotency_conflict")
  else if c.policy.enabled = false ∨ r.params.controlEpoch ≠ c.journal.epoch ∨
      (r.isLocal = false ∧ c.session = "") ∨ r.params.profileRevision ≠ p.revision then
    (h, rejection r "authority_changed")
  else if prior.stage = .done ∨ prior.stage = .restartStopped ∨ prior.stage = .startAttempted then
    (h, prior.receipt)
  else if prior.stage = .preflightPending then
    if pendingIs c p r then (h, prior.receipt)
    else
      let closed := { prior with stage := .done, receipt := rejection r "start_preflight_interrupted" }
      let saved := saveLocked (h.update fun c => c.putAttempt r.jobId closed) env.save
      if saved.2 then (saved.1, closed.receipt) else (saved.1, rejection r "journal_unavailable")
  else
    match env.inspect p.id with
    | none => (h, rejection r "attempt_unresolved")
    | some i =>
      let reconciled := reconcileLocked c prior p i env.now
      let put := reconciled.1.putAttempt r.jobId reconciled.2
      ((saveLocked { h with coordinator := put } env.save).1, reconciled.2.receipt)

def isPrunable (now : Time) (a : Attempt) : Bool := a.stage == .done && a.attemptedAt < now - 24 * hour

def prune (now : Time) : Hold :=
  let attempts := h.coordinator.journal.attempts
  if attempts.size < 1024 then h
  else
    { h with
      coordinator := h.coordinator.setAttempts (attempts.discard fun _ a => isPrunable now a)
      log := (attempts.rows.filter fun e => isPrunable now e.2).map (fun e => .pruned e.1 e.2 now) ++ h.log }

def admissionError : Hold × Except String Instance :=
  if h.coordinator.journal.attempts.size ≥ 2048 then (h, .error "journal_capacity")
  else
    match env.inspect p.id with
    | none => (h, .error "supervisor_identity_unavailable")
    | some i =>
      let validated := validateLocked h.coordinator r p i env.now
      let h := { h with coordinator := validated.1 }
      match validated.2 with
      | some code => (h, .error code)
      | none =>
        if env.definition ≠ some p.definitionHash then (h, .error "effective_definition_drift")
        else if r.action = .modelRestart ∧ i.state ≠ .running then (h, .error "not_running_use_start")
        else (h, .ok i)

def cancelledByStop (a : Attempt) : Attempt :=
  { a with stage := .done, receipt := rejection a.request "start_cancelled_by_stop" }

def supersededByStop (a : Attempt) : Attempt :=
  { a with
    stage := .done
    receipt := { a.receipt with
      status := .failed, stage := "restart_cancelled_after_stop", errorCode := "superseded_by_stop"
      message := "restart superseded by explicit stop; stop outcome is reported separately" } }

def isPendingStartOf (p : Profile) (a : Attempt) : Bool :=
  a.request.action == .modelStart && a.request.params.profileId == p.id && a.stage == .preflightPending

def isOpenRestartOf (p : Profile) (a : Attempt) : Bool :=
  a.request.params.profileId == p.id && a.request.action == .modelRestart &&
    (a.stage == .restartStopped || a.stage == .startAttempted)

def cancelForStop (c : Coordinator) (p : Profile) : Coordinator :=
  let c := { c with
    preflightToken := c.preflightToken.put p.id (c.token p.id + 1)
    pendingStarts := c.pendingStarts.erase p.id }
  let c := c.setAttempts (c.journal.attempts.mapValues fun _ a =>
    if isPendingStartOf p a then cancelledByStop a else a)
  let attempts := c.journal.attempts
  let superseded := fun id => (attempts.get id).any (isOpenRestartOf p)
  let c := c.setAttempts (attempts.mapValues fun _ a =>
    if isOpenRestartOf p a then supersededByStop a
    else if superseded a.request.parentJobId ∧ a.stage ≠ .done then cancelledByStop a
    else a)
  c.putRuntime p.id { c.runtime p.id with reservationUntil := zeroTime }

def newAttempt (stage : AttemptStage) (before : Instance) (receipt : JobReceipt) (now : Time) :
    Attempt :=
  { Attempt.zero with request := r, digest := k.digest r, stage, before, receipt, attemptedAt := now }

def recordAlreadyDone : Hold × JobReceipt :=
  let stage := if r.action = .modelStop then "model_stopped" else "model_started"
  let rec_ := evidenceReceipt h.coordinator r p i .succeeded stage env.now
  let a := newAttempt k r .done i rec_ env.now
  let saved := saveLocked
    (h.update fun c => finishStoppedStartsLocked (c.putAttempt r.jobId a) a) env.save
  if saved.2 then (saved.1, rec_) else (saved.1, rejection r "journal_unavailable")

def recordStarting : Hold × JobReceipt :=
  let rec_ := evidenceReceipt h.coordinator r p i .running "model_starting" env.now
  let a := newAttempt k r .effectAttempted i rec_ env.now
  let saved := saveLocked (h.update fun c => c.putAttempt r.jobId a) env.save
  if saved.2 then (saved.1, rec_) else (saved.1, rejection r "journal_unavailable")

def recordPendingStart : Hold × Next :=
  let c := h.coordinator
  let token := c.token p.id
  let pending : PendingStart := ⟨r, token, c.serial⟩
  let c := { c with
    serial := c.serial + 1
    pendingStarts := if (c.pendingStarts.get p.id).isNone then c.pendingStarts.put p.id pending
      else c.pendingStarts }
  let a := newAttempt k r .preflightPending i
    (evidenceReceipt c r p i .accepted "start_preflight_pending" env.now) env.now
  let saved := saveLocked { h with coordinator := c.putAttempt r.jobId a } env.save
  if saved.2 then (saved.1, .goto (.weighing r p i token (some pending.serial)))
  else
    let undo := fun (c : Coordinator) => { c.setAttempts (c.journal.attempts.erase r.jobId) with
      pendingStarts := if (c.pendingStarts.get p.id).any fun q => q.serial == pending.serial then
        c.pendingStarts.erase p.id else c.pendingStarts }
    (saved.1.update undo, .returned (rejection r "journal_unavailable"))

def linksStart (stop : ActionRequest) (current : Instance) (a : Attempt) : Bool :=
  a.request.action == .modelStart && a.request.parentJobId == "" && a.stage == .effectAttempted &&
    sameStartStopAuthority a.request stop && exactStartStopInstance a stop current

/-- The journal with the admitted attempt: its links to the starts it cancels, the stage of its
parent, and the reservation of its profile. -/
def recordAdmitted (p : Profile) (i : Instance) (now : Time) : Coordinator :=
  let r := a.request
  let c := c.putAttempt r.jobId a
  let c := if r.action = .modelStop then
      c.setAttempts (c.journal.attempts.mapValues fun _ b =>
        if linksStart r i b then { b with stoppedByJobId := r.jobId } else b)
    else c
  let c := if r.parentJobId ≠ "" then
      let parent := (c.attempt r.parentJobId).getD .zero
      c.putAttempt r.parentJobId { parent with
        stage := .startAttempted
        receipt := { parent.receipt with status := .running, stage := "restart_start_attempted" } }
    else c
  if r.action ≠ .modelStop then
    c.putRuntime p.id { c.runtime p.id with reserved := true, startingAt := now }
  else c

def previousStartLinks : List (String × String) :=
  if a.request.action = .modelStop then
    ((c.putAttempt a.request.jobId a).journal.attempts.rows.filter fun e => linksStart a.request i e.2).map
      fun e => (e.1, e.2.stoppedByJobId)
  else []

def linkedParentStopped : Bool :=
  (c.attempt r.parentJobId).any fun parent =>
    parent.stage == .restartStopped && parent.request.operationId == r.operationId &&
      parent.request.params.profileId == p.id

def finalAdmission : Hold × Next :=
  if p.sharedLock ≠ "" ∧ env.sharedLock = false then
    (h, .returned (rejection r "shared_entrypoint_busy"))
  else if r.parentJobId ≠ "" ∧ linkedParentStopped h.coordinator r p = false then
    (h, .returned (rejection r "linked_stage_not_authorized"))
  else if env.finalDefinition ≠ some p.definitionHash then
    (rejectPreflightLocked h r "effective_definition_drift" env.save,
      .returned (rejection r "effective_definition_drift"))
  else if ¬ env.final < r.deadline then
    (rejectPreflightLocked h r "dispatch_expired" env.save, .returned (rejection r "dispatch_expired"))
  else
    let a := newAttempt k r .effectAttempted i
      (evidenceReceipt h.coordinator r p i .unknownResult "effect_attempted" env.final) env.final
    let links := previousStartLinks h.coordinator a i
    let saved := saveLocked (h.update fun c => recordAdmitted c a p i env.final) env.save
    if saved.2 then (saved.1, .goto (.armed p a links))
    else
      (saved.1.update fun c =>
        restoreStartLinksLocked (c.setAttempts (c.journal.attempts.erase r.jobId)) r.jobId links,
        .returned (rejection r "journal_unavailable"))

def enter : Hold × Next :=
  if sparkValidId r.jobId = false ∨ sparkValidId r.operationId = false ∨ r.action.isModel = false then
    (h, .returned (rejection r "invalid_action_request"))
  else
    let h := h.update fun c => { c with seen := [] }
    match h.coordinator.policy.profile r.params.profileId with
    | none => (h, .returned (rejection r "unknown_profile"))
    | some p =>
      if p.kind = .existingCoordinator then (h, .goto (.existing r p))
      else
        match h.coordinator.attempt r.jobId with
        | some prior =>
          let answered := answerDuplicate k h r p prior env
          (answered.1, .returned answered.2)
        | none =>
          match admissionError (prune h env.now) r p env with
          | (h, .error code) => (h, .returned (rejection r code))
          | (h, .ok i) =>
            let h := if r.action = .modelStop then h.update fun c => cancelForStop c p else h
            if (r.action = .modelStart ∧ i.state = .running) ∨
                (r.action = .modelStop ∧ shutdownComplete p i) then
              let answered := recordAlreadyDone k h r p i env
              (answered.1, .returned answered.2)
            else if r.action = .modelStart ∧ i.state = .starting then
              let answered := recordStarting k h r p i env
              (answered.1, .returned answered.2)
            else if r.action = .modelStart then recordPendingStart k h r p i env
            else if r.action = .modelRestart then
              (h, .goto (.weighing r p i (h.coordinator.token p.id) none))
            else finalAdmission k h r p i env

/-- `Execute` when the weights are scanned: the mutex is taken again, and everything that may have
changed is checked again. -/
def resume (before : Instance) (token : Nat) (serial : Option Nat) (env : Env) : Hold × Next :=
  let h := h.update fun c => { c with
    seen := []
    pendingStarts := if (c.pendingStarts.get p.id).any fun q => serial == some q.serial then
      c.pendingStarts.erase p.id else c.pendingStarts }
  let refuse := fun (h : Hold) code =>
    (rejectPreflightLocked h r code env.save, Next.returned (rejection r code))
  if (h.coordinator.attempt r.jobId).any fun a => a.stage != .preflightPending then
    (h, .goto (.entering r))
  else if h.coordinator.token p.id ≠ token then
    let receipt := rejection r "start_cancelled_by_stop"
    let a := newAttempt k r .done before receipt env.now
    let saved := saveLocked (h.update fun c => c.putAttempt r.jobId a) env.save
    if saved.2 then (saved.1, .returned receipt)
    else (saved.1, .returned (rejection r "journal_unavailable"))
  else
    match env.weights with
    | some code => refuse h code
    | none =>
      match env.inspect p.id with
      | none => refuse h "supervisor_identity_unavailable"
      | some i =>
        match validateLocked h.coordinator r p i env.now with
        | (c, some code) => refuse { h with coordinator := c } code
        | (c, none) =>
          match preflightLocked env c p (r.action == .modelRestart) with
          | (c, some code) => refuse { h with coordinator := c } code
          | (c, none) => finalAdmission k { h with coordinator := c } r p i env

def effectAction (r : ActionRequest) : Action := if r.action = .modelStart then .modelStart else .modelStop

def invoke (links : List (String × String)) (env : Env) : Hold × Next :=
  let r := a.request
  if r.deadline ≤ env.now then
    let expired := { a with stage := .done, receipt := rejection r "dispatch_expired" }
    let saved := saveLocked (h.update fun c =>
      restoreStartLinksLocked (c.putAttempt r.jobId expired) r.jobId links) env.save
    if saved.2 then (saved.1, .returned expired.receipt)
    else (saved.1, .returned (rejection r "journal_unavailable"))
  else
    ({ h with log := .effect r p (effectAction r) h.coordinator.seen :: h.log },
      .goto (.invoked p a env.effect))

def recordEffect (after : Option Instance) (env : Env) : Hold × Next :=
  let r := a.request
  match after with
  | none =>
    let a := { a with
      receipt := evidenceReceipt h.coordinator r p a.before .unknownResult "supervisor_effect_unconfirmed" env.now }
    ((saveLocked (h.update fun c => c.putAttempt r.jobId a) env.save).1, .returned a.receipt)
  | some after =>
    let c := (observeLocked h.coordinator p after env.now).1
    let a := { a with receipt := evidenceReceipt c r p after .running "supervisor_call_accepted" env.now }
    let finished := finishParentLocked (c.putAttempt r.jobId a) a
    let saved := saveLocked { h with coordinator := finished.1 } env.save
    if saved.2 then
      if effectAction r = .modelStop then (saved.1, .goto (.observing r p))
      else (saved.1, .goto (.settling r p after))
    else (saved.1, .returned (rejection r "journal_post_effect_unavailable"))

def observeStop : Hold × Next :=
  match env.inspect p.id with
  | some after =>
    if shutdownComplete p after then (h, .goto (.settling r p after))
    else if env.timeout then stopTimeout after
    else (h, .goto (.observing r p))
  | none => if env.timeout then stopTimeout .zero else (h, .goto (.observing r p))
where
  stopTimeout (after : Instance) : Hold × Next :=
    let a := (h.coordinator.attempt r.jobId).getD .zero
    let a := { a with
      receipt := evidenceReceipt h.coordinator r p after .unknownResult "stop_observation_timeout" env.now }
    ((saveLocked (h.update fun c => c.putAttempt r.jobId a) env.save).1, .returned a.receipt)

def supersededCode (code : String) : Bool := code == "start_cancelled_by_stop" || code == "superseded_by_stop"

def settle (after : Instance) (env : Env) : Hold × Next :=
  let c := h.coordinator
  let a := (c.attempt r.jobId).getD .zero
  if (a.stage = .done ∧ supersededCode a.receipt.errorCode) ∨ a.stoppedByJobId ≠ "" then
    (h, .returned a.receipt)
  else
    let c := (observeLocked c p after env.now).1
    let stage := if effectAction r = .modelStop then "model_stopped" else "model_started"
    let succeeded := evidenceReceipt c r p after .succeeded stage env.now
    let a := if effectAction r = .modelStart ∧ after.state ≠ .running then
        { a with
          stage := .effectAttempted
          receipt := { succeeded with
            status := .running, stage := "model_starting"
            message := "supervisor accepted; running instance not yet observed" } }
      else if r.action = .modelRestart then
        { a with
          stage := .restartStopped
          receipt := { succeeded with
            status := .awaitingConfirmation, stage := "restart_stopped"
            message := "stopped; fresh linked start authorization required" } }
      else { a with stage := .done, receipt := succeeded }
    let c := if r.action = .modelRestart then c.reserve p.id (env.now + 60 * second) else c
    let c := finishStoppedStartsLocked (c.putAttempt r.jobId a) a
    let finished := finishParentLocked c a
    let c := finished.1.putAttempt r.jobId finished.2
    let saved := saveLocked { h with coordinator := c } env.save
    if saved.2 then (saved.1, .returned finished.2.receipt)
    else (saved.1, .returned (rejection r "journal_post_effect_unavailable"))

end Monik.SparkExecute
