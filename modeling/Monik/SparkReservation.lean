import Monik.SparkProjection
import Monik.Submission

/-! The controller's side of model control: `ValidateSparkControl`, reservations, submission, and
the start stage of `AuthorizeSparkStartStage`. What other tables say comes with the call. -/

namespace Monik.SparkReservation
open Protocol Tables ControllerStore Operations Submission SparkPolicy SparkProjection

structure SparkSnapshot where
  agentSession : String
  observedAt : Time
  spark : SparkExtension

/-- What a transaction reads besides the tables of the store: two columns of the agent's row,
`SparkSnapshot` and the clock. -/
structure SparkView where
  conflict : Bool
  /-- The capability `spark_control_v1` is reported as supported; `none` if the capabilities
  cannot be decoded. -/
  controlSupported : Option Bool
  snapshot : Except StoreError SparkSnapshot
  now : Time

def sparkControlFreshness : Time := 15 * second

def sparkObservationFreshness : Time := 45 * second

def fresh (now observed limit : Time) : Bool :=
  decide (-(5 * second) ≤ now - observed) && decide (now - observed ≤ limit)

def verb : Action → Option AllowedAction
  | .modelStart => some .start
  | .modelStop => some .stop
  | .modelRestart => some .restart
  | _ => none

variable (json : StageJson) (s : Store) (view : SparkView) (agent profile : String)

def validateSparkControl (p : ModelActionParams) (action : Action) :
    Except StoreError (SparkSnapshot × SparkModelState) :=
  match s.agent agent with
  | none => .error .notFound
  | some ag =>
    if ag.revoked || ag.archived || view.conflict ||
        !(ag.lastLiveAt.any fun last => fresh view.now last sparkControlFreshness) ||
        ag.sessionId != p.expectedAgentSession then
      .error (.refused "agent_offline_or_session_changed")
    else
      match view.controlSupported with
      | none => .error (.refused "capabilities")
      | some false => .error (.refused "model_control_unsupported")
      | some true =>
        match view.snapshot with
        | .error e => .error e
        | .ok v =>
          if v.agentSession != ag.sessionId ||
              !fresh view.now v.observedAt sparkControlFreshness ||
              !(v.spark.controlState.any fun c => c.enabled && c.epoch == some p.controlEpoch &&
                fresh view.now c.observedAt sparkObservationFreshness) then
            .error (.refused "stale_or_disabled_control")
          else
            match v.spark.inventory with
            | none => .error (.refused "profile_unknown")
            | some inventory =>
              match inventory.profiles.find? fun profile => profile.profileId == p.profileId with
              | none => .error (.refused "profile_revision_changed")
              | some profile =>
                if profile.profileRevision != p.profileRevision then
                  .error (.refused "profile_revision_changed")
                else if !profile.controlAllowed ||
                    !(profile.allowedActions.any fun a => some a == verb action) then
                  .error (.refused "local_control_not_enabled")
                else
                  match v.spark.modelStates.find? fun st => st.profileId == p.profileId with
                  | none => .error (.refused "stale_generation_or_state")
                  | some state =>
                    if state.generation != p.expectedGeneration || state.quality != .ok ||
                        !fresh view.now state.observedAt sparkObservationFreshness then
                      .error (.refused "stale_generation_or_state")
                    else if action = .modelRestart ∧ state.supervisorState = .stopped then
                      .error (.refused "not_running_use_start")
                    else if action = .modelRestart ∧ state.supervisorState ≠ .running then
                      .error (.refused "model_transition_in_progress")
                    else if (action = .modelStop ∧ state.supervisorState ≠ .stopped ∨
                        action = .modelRestart) ∧ p.confirmDisruption = false then
                      .error (.refused "disruption_confirmation_required")
                    else .ok (v, state)

structure StageAuthorization where
  parentOperationId : String
  stageId : String
  start : Bool
  params : ModelActionParams
  issuedAt : Time
  deadline : Time

structure StageJson where
  marshal : StageAuthorization → String
  unmarshal : String → Option StageAuthorization

/-- The join of `sparkProfileReservation`: the intents for the profile whose target is
unresolved, each with the action of its operation. -/
def pending : List (IntentRow × Action) :=
  s.intents.rows.filterMap fun i =>
    if i.agentId == agent && i.profileId == profile then
      match s.operation i.operationId, s.targets.find? (hasKey i.operationId i.agentId) with
      | some o, some t => if unresolved t then some (i, o.action) else none
      | _, _ => none
    else none

def issuedFor (auth : StageAuthorization) (i : IntentRow) (profile : String) : Bool :=
  auth.parentOperationId == i.operationId && auth.stageId != "" && auth.stageId == i.stageId &&
    auth.start && auth.params.profileId == profile &&
    auth.params.profileRevision == i.profileRevision && auth.params.controlEpoch == i.controlEpoch &&
    auth.params.expectedAgentSession == i.agentSession && decide (0 ≤ auth.params.expectedGeneration)

def startedInstance (auth : StageAuthorization) (state : SparkModelState) : Bool :=
  (state.supervisorState == .starting || state.supervisorState == .running) &&
    decide (0 < state.generation) && state.generation - 1 == auth.params.expectedGeneration

def supersedes (i : IntentRow) : Except StoreError Bool :=
  if i.stageAuthorization = "" then .ok false
  else
    match json.unmarshal i.stageAuthorization with
    | none => .ok false
    | some auth =>
      if !issuedFor auth i profile then .ok false
      else
        match view.snapshot with
        | .error e => .error e
        | .ok snapshot =>
          match snapshot.spark.modelStates.find? fun st => st.profileId == profile with
          | none => .ok false
          | some state =>
            let p := { auth.params with expectedGeneration := state.generation }
            match validateSparkControl s view agent p .modelStop with
            | .error _ => .ok false
            | .ok _ => .ok (startedInstance auth state)

def stopReservation : List (IntentRow × Action) → Except StoreError (Option (List String))
  | [] => .ok (some [])
  | (i, action) :: rest =>
    if action = .modelStart then stopReservation rest
    else if action ≠ .modelRestart then .ok none
    else
      match supersedes json s view agent profile i with
      | .error e => .error e
      | .ok false => .ok none
      | .ok true =>
        match stopReservation rest with
        | .error e => .error e
        | .ok none => .ok none
        | .ok (some parents) => .ok (some (i.operationId :: parents))

def sparkProfileReservation (action : Action) : Except StoreError (Option (List String)) :=
  if action = .modelStop then
    stopReservation json s view agent profile (pending s agent profile)
  else if (pending s agent profile).isEmpty then .ok (some [])
  else .ok none

structure SparkSubmission where
  req : Request
  /-- The checks before the transaction, with the early reads of authority and reservation. -/
  passed : Bool
  sessionValid : Bool
  params : Option ModelActionParams
  stageId : String
  view : SparkView

def modelIntent (sub : SparkSubmission) (agent : String) : Except StoreError ModelIntent :=
  if !sub.sessionValid then .error .conflict
  else
    match sub.params with
    | none => .error (.refused "invalid model action binding")
    | some p =>
      match validateSparkControl s sub.view agent p sub.req.action with
      | .error e => .error e
      | .ok _ =>
        match sparkProfileReservation json s sub.view agent p.profileId sub.req.action with
        | .error e => .error e
        | .ok none => .error .conflict
        | .ok (some parents) =>
          .ok ⟨p.profileId, p.profileRevision, p.controlEpoch, p.expectedAgentSession, sub.stageId,
            true, parents⟩

def submitSpark (sub : SparkSubmission) : Store :=
  match sub.req.targetIds with
  | [agent] =>
    if !sub.passed then s
    else
      match modelIntent json s sub agent with
      | .error _ => s
      | .ok model => processSparkSubmit s sub.req model
  | _ => s

structure StageCall where
  agent : String
  operation : String
  job : String
  /-- `owner_authority_lost` or `reauth_required`, from the owner's session. -/
  owner : Option String
  view : SparkView
  shutdownProven : SparkModelState → JobReceipt → Bool
  failedProven : Bool

def activeStage (status : TargetStatus) : Bool :=
  status == .awaitingConfirmation || status == .running || status == .accepted

def activeJobStage : JobStatus → Bool
  | .of status => activeStage status
  | _ => false

def stoppedGeneration (states : List SparkModelState) (proven : SparkModelState → Bool)
    (profile : String) : Int :=
  states.foldl (fun g st => if st.profileId == profile && proven st then st.generation else g) (-1)

def evidenceBinds (i : IntentRow) (rec : JobReceipt) (generation : Int) : Bool :=
  rec.evidence.get "profile_id" == .str i.profileId &&
    rec.evidence.get "profile_revision" == .str i.profileRevision &&
    rec.evidence.get "control_epoch" == .str i.controlEpoch &&
    rec.evidence.get "agent_session" == .str i.agentSession &&
    (rec.evidence.get "generation").sprint == toString generation

def stopProof (c : StageCall) (i : IntentRow) (rec : JobReceipt) :
    Except StoreError ModelActionParams :=
  match c.view.snapshot with
  | .error e => .error e
  | .ok v =>
    let generation := stoppedGeneration v.spark.modelStates (c.shutdownProven · rec) i.profileId
    let p : ModelActionParams :=
      ⟨i.profileId, i.profileRevision, generation, i.controlEpoch, i.agentSession, true⟩
    match validateSparkControl s c.view c.agent p .modelStart with
    | .error e => .error e
    | .ok (current, state) =>
      if !(current.spark.controlState.any fun control =>
          fresh c.view.now control.observedAt sparkControlFreshness) then
        .error (.refused "stale_or_disabled_control")
      else if !fresh c.view.now state.observedAt sparkControlFreshness then
        .error (.refused "restart_stop_unverified")
      else if !evidenceBinds i rec generation then .error (.refused "restart_stop_unverified")
      else if (v.spark.modelStates.any fun st => st.profileId == i.profileId &&
          st.supervisorState == .failed) && !c.failedProven then
        .error (.refused "restart_stop_unverified")
      else .ok p

def issueStage (op text : String) : Store :=
  let intents := s.intents.update (fun i => i.operationId == op && i.stageAuthorization == "")
    (fun i => { i with stageAuthorization := text }) fun _ => rfl
  { s with intents }

def authorizeSparkStartStage (c : StageCall) : Except StoreError (Store × StageAuthorization) :=
  match s.intents.find? fun i => i.operationId == c.operation && i.agentId == c.agent,
      s.operation c.operation,
      s.jobs.find? fun j => j.operationId == c.operation && j.agentId == c.agent && j.jobId == c.job,
      s.targets.find? (hasKey c.operation c.agent) with
  | some i, some o, some j, some t =>
    match c.owner with
    | some reason => .error (.refused reason)
    | none =>
      if o.action ≠ .modelRestart ∨ activeJobStage j.status = false ∨ activeStage t.status = false then
        .error (.refused "restart_stage_not_ready")
      else if i.stageAuthorization ≠ "" then
        match json.unmarshal i.stageAuthorization with
        | none => .error (.refused "stage_authorization")
        | some v =>
          if v.deadline ≤ c.view.now then .error (.refused "stage_authorization_expired")
          else .ok (s, v)
      else if j.status ≠ .of .awaitingConfirmation then .error (.refused "restart_stage_not_ready")
      else
        match j.result with
        | none => .error (.refused "restart_stop_unverified")
        | some rec =>
          if rec.stage ≠ "restart_stopped" then .error (.refused "restart_stop_unverified")
          else
            match stopProof s c i rec with
            | .error e => .error e
            | .ok p =>
              let auth : StageAuthorization := ⟨c.operation, i.stageId, true, p, c.view.now,
                c.view.now + sparkDispatchLease⟩
              .ok (issueStage s c.operation (json.marshal auth), auth)
  | _, _, _, _ => .error .notFound

theorem authorizeSparkStartStage_ok {json : StageJson} {s u : Store} {c : StageCall}
    {v : StageAuthorization} (h : authorizeSparkStartStage json s c = .ok (u, v)) :
    ∃ i ∈ s.intents, ∃ j ∈ s.jobs, i.operationId = c.operation ∧ i.agentId = c.agent ∧
      j.key = (c.operation, c.agent) ∧ c.owner = none ∧
      (∃ o ∈ s.operations, o.id = c.operation ∧ o.action = .modelRestart) ∧
      activeJobStage j.status ∧
      (i.stageAuthorization ≠ "" ∧ u = s ∧ json.unmarshal i.stageAuthorization = some v ∧
          c.view.now < v.deadline ∨
        i.stageAuthorization = "" ∧ u = issueStage s c.operation (json.marshal v) ∧
          v.deadline = c.view.now + sparkDispatchLease) := by
  unfold authorizeSparkStartStage at h
  split at h
  · rename_i i o j t intent operation job target
    obtain ⟨hi, bound⟩ := Table.find?_some intent
    obtain ⟨ho, id⟩ := Table.find?_key.mp operation
    obtain ⟨hj, found⟩ := Table.find?_some job
    simp only [Bool.and_eq_true, beq_iff_eq] at bound found
    split at h
    · cases h
    rename_i owner
    split at h
    · cases h
    rename_i ready
    simp only [not_or, not_not, Bool.not_eq_false] at ready
    refine ⟨i, hi, j, hj, bound.1, bound.2, by rw [JobRow.key, found.1.1, found.1.2], owner,
      ⟨o, ho, id, ready.1⟩, ready.2.1, ?_⟩
    split at h
    · rename_i issued
      split at h
      · cases h
      · split at h
        · cases h
        · rename_i decoded inTime
          cases h
          exact .inl ⟨issued, rfl, decoded, not_le.mp inTime⟩
    · rename_i unissued
      split at h
      · cases h
      split at h
      · cases h
      split at h
      · cases h
      split at h
      · cases h
      · cases h
        exact .inr ⟨not_not.mp unissued, rfl, rfl⟩
  · cases h

end Monik.SparkReservation
