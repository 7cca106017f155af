import Monik.Operations

/-! Batched update rollouts (`storage/rollouts.go`). One clock reading serves one transaction. -/

namespace Monik.Rollouts
open Protocol Tables ControllerStore Operations

structure RolloutOptions where
  batchSize : Nat
  observeSeconds : Nat

def RolloutOptions.valid (o : RolloutOptions) : Bool :=
  decide (1 ≤ o.batchSize) && decide (o.batchSize ≤ 10) && decide (15 ≤ o.observeSeconds) &&
    decide (o.observeSeconds ≤ 300)

structure RolloutMember where
  row : MemberRow
  target : TargetRow
  job : JobRow
  agent : Option AgentRow

namespace RolloutMember

def revoked (m : RolloutMember) : Bool := m.agent.all AgentRow.revoked
def archived (m : RolloutMember) : Bool := m.agent.all AgentRow.archived
def managed (m : RolloutMember) : Bool := m.agent.any AgentRow.managedReady
def immutableRelease (m : RolloutMember) : Bool := m.agent.any AgentRow.immutableRelease
def liveAt (m : RolloutMember) : Option Time := m.agent.bind AgentRow.lastLiveAt
def digest (m : RolloutMember) : String := (m.agent.map AgentRow.workerDigest).getD ""
def session (m : RolloutMember) : String := (m.agent.map AgentRow.sessionId).getD ""

def currentPlatform (m : RolloutMember) : String :=
  (m.agent.map AgentRow.os).getD "" ++ "/" ++ (m.agent.map AgentRow.arch).getD ""

end RolloutMember

structure Rollout where
  row : RolloutRow
  members : List RolloutMember

variable (s : Store) (id op : String)

def joinMember (m : MemberRow) : Option RolloutMember := do
  let target ← s.targets.find? (hasKey m.operationId m.agentId)
  let job ← s.jobs.find? fun j =>
    j.jobId == target.jobId && j.operationId == m.operationId && j.agentId == m.agentId
  some ⟨m, target, job, s.agent m.agentId⟩

def byWave (a b : MemberRow) : Prop :=
  a.wave < b.wave ∨ a.wave = b.wave ∧
    (a.platform < b.platform ∨ a.platform = b.platform ∧ a.agentId ≤ b.agentId)

instance : DecidableRel byWave := fun _ _ =>
  inferInstanceAs (Decidable (_ ∨ _ ∧ (_ ∨ _ ∧ _)))

def memberRows (s : Store) (id : String) : List MemberRow :=
  s.members.rows.filter fun m => m.operationId == id

/-- A frozen target or job that is missing is an error, not an empty wave. -/
def readRollout (s : Store) (id : String) : Except StoreError Rollout :=
  match s.rollout id with
  | none => .error .notFound
  | some row =>
    if !(RolloutOptions.mk row.batchSize row.observeSeconds).valid then
      .error (.refused "invalid persisted rollout policy")
    else
      let rows := memberRows s id
      let members := (rows.insertionSort byWave).filterMap (joinMember s)
      if rows.length = 0 ∨ members.length ≠ rows.length ∨
          rows.length ≠ s.targets.count fun t => t.operationId == id then
        .error (.refused "corrupt rollout membership")
      else .ok ⟨row, members⟩

def setRolloutState (state : RolloutState) (reason : String) : Store :=
  let rollouts := s.rollouts.update (fun r => r.operationId == id)
    (fun r => { r with state, reason, stableSince := none, revision := r.revision + 1 })
    fun _ => rfl
  { s with rollouts }

def held (wave : Nat) (m : RolloutMember) : Bool := m.row.wave == wave && m.row.releasedAt.isNone

def releasable (m : RolloutMember) : Bool :=
  m.job.status == .rolloutHeld && !m.revoked && !m.archived && m.managed &&
    m.row.platform == m.currentPlatform && m.immutableRelease

def releasedEnvelope (m : RolloutMember) (now deadline expires : Time) : JobEnvelope :=
  let limit := min (min (now + oneShotExpiry) deadline) expires
  { m.job.envelope with
    notBefore := now
    deadline := some limit
    params := m.job.envelope.params.set "previous_session" (.str m.session) }

def releasedStatus (m : RolloutMember) (now : Time) : TargetStatus :=
  match m.liveAt with
  | some live => if now - live > rolloutFreshContact then .waitingOffline else .queued
  | none => .waitingOffline

def releaseJob (env : JobEnvelope) (status : TargetStatus) (j : JobRow) : JobRow :=
  { j with status := .of status, envelope := env, deadline := env.deadline.getD j.deadline }

def markReleased (agent : String) (now : Time) : Store :=
  let members := s.members.update (fun row => row.operationId == op && row.agentId == agent)
    (fun row => { row with releasedAt := some now }) fun _ => rfl
  { s with members }

def releasedWrite (env : JobEnvelope) (status : TargetStatus) : TargetWrite :=
  ⟨status, "rollout.released", "Wave authorized; waiting for verified worker update", "",
    status == .waitingOffline, env.params⟩

def releaseMember (r : RolloutRow) (now expires : Time) (s : Store) (m : RolloutMember) : Tx :=
  if m.job.envelope.params.get "release_id" ≠ .str r.releaseId then
    .error (.refused "corrupt pinned update job")
  else
    let env := releasedEnvelope m now r.deadline expires
    let status := releasedStatus m now
    let s := s.setJobs (fun j => j.jobId == m.job.jobId && j.status == .rolloutHeld)
      (releaseJob env status) fun _ => rfl
    updateTarget (markReleased s r.operationId m.row.agentId now) r.operationId m.row.agentId
      (releasedWrite env status)

def startWave (now : Time) : Store :=
  let rollouts := s.rollouts.update (fun row => row.operationId == id)
    (fun row => { row with stableSince := none, lastTick := some now,
                           revision := row.revision + 1 }) fun _ => rfl
  { s with rollouts }

def releaseWave (r : Rollout) (wave : Nat) (now : Time) : Tx :=
  match s.publications.find? (fun p => p.releaseId == r.row.releaseId) with
  | none => .error .notFound
  | some pub =>
    if pub.expiresAt ≤ now ∨ r.row.deadline ≤ now then
      .ok (setRolloutState s r.row.operationId .blocked
        "Release metadata or rollout deadline expired; no new wave dispatched")
    else if (r.members.filter (held wave)).any (fun m => !releasable m) then
      .ok (setRolloutState s r.row.operationId .blocked
        "Target prerequisites changed; review the frozen selection and create a new rollout")
    else do
      let s ← (r.members.filter (held wave)).foldlM (releaseMember r.row now pub.expiresAt) s
      .ok (startWave s r.row.operationId now)

def rolloutFailure : TargetStatus → Bool
  | .failed | .rejected | .unsupported | .expired | .unknownResult | .rolledBack => true
  | _ => false

def targetTerminal (st : TargetStatus) : Bool :=
  rolloutFailure st || st == .succeeded || st == .cancelledBeforeExec

def confirmed (m : RolloutMember) : Bool :=
  m.target.status == .succeeded && m.row.releasedAt.isSome

def stable (now : Time) (m : RolloutMember) (receipt : JobReceipt) : Bool :=
  !m.revoked && !m.archived &&
    (m.liveAt.any fun live =>
      decide (now - live ≤ rolloutFreshContact) && decide (live ≤ now + 5 * second)) &&
    m.digest != "" && m.job.envelope.params.get "sha256" == .str m.digest &&
    receipt.evidence.get "session_id" == .str m.session

inductive Observation
  | stable
  | lost (agent : String)
  | unreadable

def observe (now : Time) : List RolloutMember → Observation
  | [] => .stable
  | m :: ms =>
    if !confirmed m then observe now ms
    else
      match m.job.result with
      | none => .unreadable
      | some receipt => if stable now m receipt then observe now ms else .lost m.row.agentId

def windowStart (r : RolloutRow) (now : Time) : Time :=
  match r.stableSince, r.lastTick with
  | some since, some last => if now < last ∨ now - last > 15 * second then now else since
  | _, _ => now

def block (reason : String) : Tx :=
  refreshOperation (setRolloutState s id .blocked reason) id

def lastWave (r : Rollout) : Nat := (r.members.map fun m => m.row.wave).foldl max r.row.wave

def saveWindow (since now : Time) : Store :=
  let rollouts := s.rollouts.update (fun row => row.operationId == id)
    (fun row => { row with stableSince := some since, lastTick := some now }) fun _ => rfl
  { s with rollouts }

def setWave (wave : Nat) : Store :=
  let rollouts := s.rollouts.update (fun row => row.operationId == id)
    (fun row => { row with wave, stableSince := none }) fun _ => rfl
  { s with rollouts }

def advanceWindow (r : Rollout) (now : Time) : Tx :=
  let since := windowStart r.row now
  if now - since < r.row.observeSeconds * second then
    .ok (saveWindow s r.row.operationId since now)
  else if r.row.wave = lastWave r then
    refreshOperation (setRolloutState s r.row.operationId .completed
      "Every frozen target confirmed the pinned worker and passed fresh-contact observation")
      r.row.operationId
  else do
    let s ← releaseWave (setWave s r.row.operationId (r.row.wave + 1)) r (r.row.wave + 1) now
    refreshOperation s r.row.operationId

def currentWave (r : Rollout) : List RolloutMember :=
  r.members.filter fun m => m.row.wave == r.row.wave

def advanceRollout (r : Rollout) (now : Time) : Tx :=
  let id := r.row.operationId
  if r.row.state = .cancelling then
    if r.members.all fun m => targetTerminal m.target.status then
      refreshOperation (setRolloutState s id .cancelled
        "Undispatched jobs cancelled; delivered results retained") id
    else .ok s
  else if r.row.deadline ≤ now then
    block s id "Rollout deadline expired; no further jobs will be released"
  else
    match r.members.find? fun m => rolloutFailure m.target.status with
    | some m => block s id ("Update failed or result unknown for " ++ m.row.agentId ++
        "; cancel pending targets and review a new selection")
    | none =>
      if r.row.state = .paused then .ok s
      else
        match observe now r.members with
        | .unreadable => .error (.refused "invalid rollout observation evidence")
        | .lost agent => block s id
            ("Confirmed worker identity or fresh contact lost during wave observation: " ++ agent)
        | .stable =>
          if (currentWave r).length = 0 then .error (.refused "rollout has no current wave")
          else if (currentWave r).any fun m => m.target.status != .succeeded then .ok s
          else advanceWindow s r now

def active (r : RolloutRow) : Bool :=
  r.state == .running || r.state == .paused || r.state == .cancelling

def earlier (a b : RolloutRow) : Prop := a.createdAt ≤ b.createdAt

instance : DecidableRel earlier := fun a b => inferInstanceAs (Decidable (a.createdAt ≤ b.createdAt))

def activeIds (s : Store) : List String :=
  (((s.rollouts.rows.filter active).insertionSort earlier).take 16).map RolloutRow.operationId

def advanceOne (now : Time) (s : Store) (id : String) : Tx := do
  let r ← readRollout s id
  advanceRollout s r now

def advanceActive (now : Time) : Tx := (activeIds s).foldlM (advanceOne now) s

/-- Expiry is committed first, on its own. -/
def advanceRollouts (expireNow now : Time) : Store × Option StoreError :=
  match expireAndBlockJobs s expireNow with
  | .error e => (s, some e)
  | .ok s =>
    match advanceActive s now with
    | .error e => (s, some e)
    | .ok s => (s, none)

def claimPending (agent : String) (limit : Int) (expireNow tickNow now : Time)
    (authority : JobEnvelope → Except StoreError Bool) :
    Store × Except StoreError (List JobEnvelope) :=
  match advanceRollouts s expireNow tickNow with
  | (s, some e) => (s, .error e)
  | (s, none) =>
    match claimJobs s agent limit now authority with
    | .error e => (s, .error e)
    | .ok (s, out) => (s, .ok out)

def claimPendingJobs (agent : String) (limit : Int) (expireNow tickNow now : Time)
    (authority : JobEnvelope → Except StoreError Bool) : Store × List JobEnvelope :=
  match claimPending s agent limit expireNow tickNow now authority with
  | (s, .error _) => (s, [])
  | (s, .ok out) => (s, out)

/-- `controlOp` is empty for a call without a controlling operation. -/
def controlRollout (expected : Int) (pause : Bool) (controlOp : String) (now : Time) : Tx := do
  let r ← readRollout s id
  if r.row.revision ≠ expected then .error .conflict
  else if pause ∧ r.row.state ≠ .running then
    .error (.refused "only a running rollout can be paused")
  else if ¬pause ∧ r.row.state ≠ .paused then
    .error (.refused "only a manually paused rollout can resume; failed waves require a new reviewed selection")
  else if ¬pause ∧ r.row.deadline ≤ now then
    .error (.refused "rollout deadline invalid or expired")
  else if ¬pause ∧ ¬(s.publications.find? (fun p => p.releaseId == r.row.releaseId)).any
      (fun p => decide (now < p.expiresAt)) then
    .error (.refused "release metadata invalid or expired")
  else if ¬pause ∧ r.members.any (fun m => rolloutFailure m.target.status) then
    .error (.refused "failed target cannot be silently retried")
  else
    let next := if pause then RolloutState.paused else .running
    let reason := if pause then "Owner paused dispatch; already claimed jobs may still execute"
      else "Resumed original frozen rollout; no job replay"
    let s ← refreshOperation (setRolloutState s id next reason) id
    if controlOp = "" then .ok s
    else
      let evidence : Fields := [("operation_id", .str id),
        ("state", .str (if pause then "paused" else "running")),
        ("rollout_revision", .int (expected + 1))]
      let s ← updateTarget s controlOp "server"
        ⟨.succeeded, "rollout.control_committed", reason, "", false, evidence⟩
      refreshOperation s controlOp

/-- What `Open` does to rollouts: an observation window never spans a reopened database. -/
def reopen (s : Store) : Store :=
  let rollouts := s.rollouts.update (fun r => r.state == .running)
    (fun r => { r with stableSince := none, lastTick := none }) fun _ => rfl
  { s with rollouts }

structure PreparedUpdateTarget where
  agentId : String
  status : TargetStatus
  stage : String
  message : String
  evidence : Fields

def publishTarget (s : Store) (p : PreparedUpdateTarget) : Tx :=
  match s.jobs.find? fun j => j.operationId == op && j.agentId == p.agentId with
  | none => .error .notFound
  | some j =>
    if j.status ≠ .preparing ∨ !j.action.isUpdate then .error .conflict
    else if p.status ≠ .queued ∧ p.status ≠ .waitingOffline ∧ p.status ≠ .unsupported ∧
        p.status ≠ .rejected then .error (.refused "invalid update plan state")
    else if j.envelope.jobId ≠ j.jobId ∨ j.envelope.operationId ≠ op ∨
        j.envelope.action ≠ j.action then .error (.refused "invalid prepared job")
    else
      let s := s.setJobs (fun k => k.jobId == j.jobId)
        (fun k => { k with
          status := .of p.status
          envelope := { k.envelope with params := k.envelope.params.setAll p.evidence } })
        fun _ => rfl
      updateTarget s op p.agentId
        ⟨p.status, p.stage, p.message, "", p.status == .waitingOffline, p.evidence⟩

def publishUpdatePlan (plan : List PreparedUpdateTarget) : Tx := do
  let s ← plan.foldlM (publishTarget op) s
  refreshOperation s op

def byPlatform (a b : MemberRow) : Prop :=
  a.platform < b.platform ∨ a.platform = b.platform ∧ a.agentId ≤ b.agentId

instance : DecidableRel byPlatform := fun _ _ =>
  inferInstanceAs (Decidable (_ ∨ _ ∧ _))

def placeMember (acc : List MemberRow × List MemberRow) (m : MemberRow) :
    List MemberRow × List MemberRow :=
  if acc.1.any fun c => c.platform == m.platform then (acc.1, acc.2 ++ [m])
  else (acc.1 ++ [m], acc.2)

def canaries (members : List MemberRow) : List MemberRow × List MemberRow :=
  members.foldl placeMember ([], [])

/-- One canary wave per platform, then waves of `batch` members. -/
def assignWaves (members : List MemberRow) (batch : Nat) : List MemberRow × Nat :=
  let (first, rest) := canaries (members.insertionSort byPlatform)
  (first.mapIdx (fun i m => { m with wave := i }) ++
    rest.mapIdx (fun i m => { m with wave := first.length + i / batch }), first.length)

/-- One target of `PublishBatchedUpdatePlan`: its job is pinned and held. -/
def holdTarget (release : String) (s : Store) (p : PreparedUpdateTarget) : Tx :=
  if p.status ≠ .queued ∧ p.status ≠ .waitingOffline then
    .error (.refused ("all targets must support this release; " ++ p.agentId ++ ": " ++ p.message))
  else
    match s.jobs.find? fun j => j.operationId == op && j.agentId == p.agentId &&
        j.action == .updateRollout with
    | none => .error .notFound
    | some j =>
      let params := j.envelope.params.setAll p.evidence
      if j.status ≠ .preparing then .error .conflict
      else if j.envelope.jobId ≠ j.jobId ∨ j.envelope.operationId ≠ op ∨
          j.envelope.action ≠ .updateRollout then
        .error (.refused "invalid prepared update identity")
      else if params.get "release_id" ≠ .str release then .error (.refused "release mismatch")
      else
        let s := s.setJobs (fun k => k.jobId == j.jobId)
          (fun k => { k with status := .rolloutHeld, envelope := { k.envelope with params } })
          fun _ => rfl
        updateTarget s op p.agentId
          ⟨.queued, "rollout.held", "Waiting for earlier wave and fresh worker observation", "",
            false, p.evidence⟩

def plannedMember (p : PreparedUpdateTarget) : MemberRow :=
  { operationId := op, agentId := p.agentId
    platform := (p.evidence.get "os").sprint ++ "/" ++ (p.evidence.get "arch").sprint
    wave := 0, releasedAt := none }

def insertMember (m : MemberRow) : Tx :=
  match s.members.insert m with
  | none => .error (.refused "update_rollout_members key")
  | some members => .ok { s with members }

def publishBatchedUpdatePlan (release : String) (plan : List PreparedUpdateTarget)
    (opts : RolloutOptions) (now : Time) : Tx :=
  if !opts.valid || plan.length == 0 || decide (500 < plan.length) then
    .error (.refused "invalid rollout options or target count")
  else if 16 ≤ s.rollouts.count active then
    .error (.refused "at most 16 active rollouts; finish or cancel existing plans")
  else if s.targets.count (fun t => t.operationId == op) ≠ plan.length then
    .error (.refused "all frozen targets must pass preflight; submit a new eligible selection")
  else if !(plan.map PreparedUpdateTarget.agentId).Nodup then
    .error (.refused "duplicate rollout target")
  else
    match (s.operations.find? fun o => o.id == op && o.action == .updateRollout).bind
        OperationRow.deadline with
    | none => .error .notFound
    | some deadline =>
      let (waves, n) := assignWaves (plan.map (plannedMember op)) opts.batchSize
      match s.rollouts.insert ⟨op, release, .running, 1, opts.batchSize, opts.observeSeconds, 0, n,
          none, none, "", deadline, now⟩ with
      | none => .error (.refused "update_rollouts key")
      | some rollouts => do
        let s ← plan.foldlM (holdTarget op release) { s with rollouts }
        let s ← waves.foldlM insertMember s
        let r ← readRollout s op
        let s ← releaseWave s r r.row.wave now
        refreshOperation s op

end Monik.Rollouts
