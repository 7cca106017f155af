import Monik.CrashPoints
import Monik.WorkerJournal

/-! Controller migration of the worker (`agent/runtime/migration.go`, `jobRebind`, `applySwitch`): a
trial writes an intent and switches to the candidate, and is decided by committed exchanges or by
time. Files are replaced one at a time, with crashes between. Clocks, write outcomes and the
candidate's answer are inputs; removing the intent succeeds. -/

namespace Monik.Migration
open Protocol Tables Persistence CrashPoints Lifecycle
open AgentRuntime
open WorkerJournal

variable {w w' : Worker} {i : LifecycleIntent}

structure MigrationPlan where
  (planId controllerId currentUrl candidateUrl : String)
  generation : Int
  payloadHash : String
  trustPem : String
  expiresAt : Time
  armFallback : Bool
  primaryLossSeconds : Int
  confirmedAt : Option Time

structure Endpoint where
  controllerUrl : String
  caCertPem : String
  endpointGeneration : Int
  deriving DecidableEq

structure Texts where
  validateControllerUrl : String → Option String
  poolFromPem : String → Option String
  sha256 : String → String
  parseTime : String → Time
  emptyPool : poolFromPem "" ≠ none

/-- Its first intent, the committed exchanges, and whether it was confirmed, and undone after that. -/
structure Trial where
  intent : LifecycleIntent
  exchanges : List Time
  confirmed : Bool
  reversed : Bool

structure System where
  worker : Worker
  file : Endpoint
  saved : Endpoint
  plan : Option MigrationPlan
  lastContact : Time
  nextMigrationTrial : Time
  trials : List Trial
  /-- The entries of the journal that a `rebind.fallback` receipt has replaced. -/
  replaced : List Pending

structure Env where
  now : Time
  (intent config plan journal record : WriteOutcome)
  cleared : Bool
  identity : Option String
  ioError : String

def latest (f : Trial → Trial) : List Trial → List Trial
  | [] => []
  | t :: ts => f t :: ts

def System.withIntent (s : System) (intent : Option LifecycleIntent) : System :=
  { s with worker := { s.worker with intent } }

def System.began (s : System) (i : LifecycleIntent) : System :=
  { s.withIntent (some i) with trials := ⟨i, [], false, false⟩ :: s.trials }

def System.switched (s : System) (o : WriteOutcome) (next : Endpoint) : System :=
  { s with saved := o.write s.saved next, file := if o = .done then next else s.file }

def System.reverted (s : System) (o : WriteOutcome) : System :=
  { s with trials := o.write s.trials (latest (fun t => { t with reversed := t.reversed || t.confirmed }) s.trials) }

def System.confirmed (s : System) (p : MigrationPlan) : System :=
  { s with plan := some p, trials := latest (fun t => { t with confirmed := true }) s.trials }

def saveIntent (o : WriteOutcome) (i : LifecycleIntent) : Proc System Bool :=
  .replace o fun s => s.withIntent (some i)

def clearIntent : Proc System PUnit := .op fun s => s.withIntent none

def saveMigration (o : WriteOutcome) (p : MigrationPlan) : Proc System Bool :=
  .replace o fun s => { s with plan := some p }

section Plans

variable (c : Texts)

def planFromParams (p : Fields) : Except String MigrationPlan :=
  let id := (p.get "plan_id").text
  let cand := (p.get "candidate_url").text
  if id = "" ∨ cand = "" then .error "plan_id and candidate_url required"
  else
    let exp := (p.get "expires_at").text
    .ok
      { planId := id, candidateUrl := cand
        generation := match p.get "generation" with | .int v => v | _ => 0
        controllerId := (p.get "controller_id").text
        currentUrl := (p.get "current_url").text
        trustPem := (p.get "trust_pem").text
        payloadHash := (p.get "payload_hash").text
        primaryLossSeconds :=
          match p.get "primary_loss_seconds" with
          | .int n => if 15 ≤ n ∧ n ≤ 3600 then n else 30
          | _ => 30
        expiresAt := if exp = "" then zeroTime else c.parseTime exp
        armFallback := false, confirmedAt := none }

def validatePlan (s : System) (now : Time) (p : MigrationPlan) : Option String :=
  if p.planId = "" ∨ p.controllerId ≠ s.worker.agent.controllerId then
    some "plan does not identify the enrolled controller"
  else if (c.validateControllerUrl p.candidateUrl).isSome then c.validateControllerUrl p.candidateUrl
  else if p.generation < 1 ∨ p.generation < s.file.endpointGeneration then
    some "migration generation replay"
  else if p.expiresAt ≤ now then some "migration plan expired"
  else if p.payloadHash ≠ c.sha256 (p.candidateUrl ++ "|" ++ p.controllerId) then
    some "migration payload hash mismatch"
  else if p.trustPem = "" then none
  else c.poolFromPem p.trustPem

def verifyCandidate (s : System) (x : Env) (p : MigrationPlan) : Option String :=
  (validatePlan c s x.now p).or <|
    (c.poolFromPem (if p.trustPem = "" then s.file.caCertPem else p.trustPem)).or x.identity

def beginRefusal (s : System) (x : Env) (p : MigrationPlan) : Option String :=
  (validatePlan c s x.now p).or <|
    if s.worker.intent.isSome then some "another local lifecycle intent is still active"
    else verifyCandidate c s x p

def switchIntent (s : System) (now : Time) (p : MigrationPlan) (jobId operationId : String) :
    LifecycleIntent :=
  { kind := .rebindSwitch, previousSession := "", jobId, operationId, expectedDigest := ""
    candidateUrl := p.candidateUrl, trustPem := p.trustPem, generation := p.generation
    planId := p.planId, controllerId := p.controllerId, previousUrl := s.file.controllerUrl
    previousTrust := s.file.caCertPem, switchedAt := now, acknowledgements := 0 }

def target (file : Endpoint) (i : LifecycleIntent) : Endpoint :=
  { controllerUrl := i.candidateUrl
    caCertPem := if i.trustPem = "" then file.caCertPem else i.trustPem
    endpointGeneration :=
      if file.endpointGeneration < i.generation then i.generation else file.endpointGeneration }

def switchRefusal (file : Endpoint) (i : LifecycleIntent) : Option String :=
  (c.validateControllerUrl i.candidateUrl).or (c.poolFromPem (target file i).caCertPem)

end Plans

section Procedures

variable (c : Texts) (x : Env)

/-- `applySwitch`, and its error. The switch that undoes a trial is the one with `back`. -/
def applySwitch (back : Bool) (i : LifecycleIntent) : Proc System (Option String) := do
  let s ← .read id
  match switchRefusal c s.file i with
  | some error => pure (some error)
  | none =>
    .op fun s =>
      let next := s.switched x.config (target s.file i)
      if back then next.reverted x.config else next
    pure (if x.config = .done then none else some x.ioError)

def withdraw (error : Option String) : Proc System (Option String) :=
  if error.isSome then do
    clearIntent
    pure error
  else pure none

def startTrial (i : LifecycleIntent) : Proc System (Option String) := do
  let saved ← .replace x.intent fun s => s.began i
  if !saved then pure (some x.ioError) else applySwitch c x false i >>= withdraw

def beginMigration (p : MigrationPlan) (jobId operationId : String) : Proc System (Option String) := do
  let s ← .read id
  match beginRefusal c s x p with
  | some error => pure (some error)
  | none => startTrial c x (switchIntent s x.now p jobId operationId)

def confirmedReceipt (i : LifecycleIntent) (now : Time) : JobReceipt :=
  { jobId := i.jobId, operationId := i.operationId, status := .succeeded, stage := "rebind.confirmed"
    message := "candidate committed three fresh live exchanges over at least 15 seconds"
    errorCode := "", retryable := false
    evidence :=
      [("plan_id", .str i.planId), ("generation", .int i.generation),
        ("candidate_url", .str i.candidateUrl), ("committed_exchanges", .int i.acknowledgements)]
    acceptedAt := none, appliedAt := some now, verifiedAt := none }

def fallbackReceipt (i : LifecycleIntent) : JobReceipt :=
  { jobId := i.jobId, operationId := i.operationId, status := .failed, stage := "rebind.fallback"
    message := "candidate did not confirm live contact; retained the authorized previous endpoint"
    errorCode := "", retryable := true
    evidence := [("plan_id", .str i.planId), ("generation", .int i.generation)]
    acceptedAt := none, appliedAt := none, verifiedAt := none }

def saveReceipt (mark : System → System) (i : LifecycleIntent) (r : JobReceipt) : Proc System Bool :=
  if i.jobId = "" then pure true
  else do
    .op fun s => { mark s with worker := (s.worker.put ⟨.rebindActivate, r⟩).save x.journal }
    pure (x.journal == .done)

def finishConfirmed (i : LifecycleIntent) : Proc System PUnit := do
  let saved ← saveReceipt x id i (confirmedReceipt i x.now)
  if !saved then pure ⟨⟩ else clearIntent

def confirm (i : LifecycleIntent) : Option MigrationPlan → Proc System PUnit
  | none => pure ⟨⟩
  | some p => do
    if p.planId ≠ i.planId then pure ⟨⟩
    else
      let saved ← .replace x.plan fun s => s.confirmed { p with confirmedAt := some x.now }
      if !saved then pure ⟨⟩ else finishConfirmed x i

def countContact (i : LifecycleIntent) : Proc System PUnit := do
  let _ ← saveIntent x.intent i
  pure ⟨⟩

def answersTrial (sentUrl : String) (i : LifecycleIntent) : Bool :=
  i.kind == .rebindSwitch && sentUrl == i.candidateUrl

def counted (i : LifecycleIntent) : LifecycleIntent :=
  { i with acknowledgements := i.acknowledgements + 1 }

def proves (now : Time) (i : LifecycleIntent) : Bool :=
  decide (3 ≤ i.acknowledgements) && decide (15 * second ≤ now - i.switchedAt)

def recordMigrationContact (sentUrl : String) : Proc System PUnit := do
  let s ← .read id
  match s.worker.intent with
  | none => pure ⟨⟩
  | some i =>
    if !answersTrial sentUrl i then pure ⟨⟩
    else if !proves x.now (counted i) then countContact x (counted i)
    else confirm x (counted i) s.plan

def System.contacted (s : System) (now : Time) : System :=
  { s with
    lastContact := now
    trials :=
      if s.worker.intent.any (answersTrial s.file.controllerUrl) then
        latest (fun t => { t with exchanges := now :: t.exchanges }) s.trials
      else s.trials }

def contact : Proc System PUnit := do
  let s ← .read id
  .op fun s => s.contacted x.now
  recordMigrationContact x s.file.controllerUrl

def System.noted (s : System) (i : LifecycleIntent) : System :=
  { s with replaced := s.worker.agent.jobs.rows.filter (fun p => p.jobId == i.jobId) ++ s.replaced }

def finishFallback (i : LifecycleIntent) : Proc System PUnit := do
  let saved ← saveReceipt x (fun s => s.noted i) i (fallbackReceipt i)
  if !saved then pure ⟨⟩
  else
    clearIntent
    .op fun s => { s with nextMigrationTrial := x.now + minute }

def maintainTrial (file : Endpoint) (i : LifecycleIntent) : Proc System PUnit := do
  if i.kind ≠ .rebindSwitch then pure ⟨⟩
  else if file.controllerUrl ≠ i.candidateUrl ∧ file.controllerUrl = i.previousUrl then clearIntent
  else if x.now - i.switchedAt < 60 * second then pure ⟨⟩
  else
    let error ← applySwitch c x true { i with candidateUrl := i.previousUrl, trustPem := i.previousTrust }
    if error.isSome then pure ⟨⟩ else finishFallback x i

def primaryLoss (p : MigrationPlan) : Time :=
  if p.primaryLossSeconds * second < 15 * second then 30 * second else p.primaryLossSeconds * second

def due (s : System) (now : Time) (p : MigrationPlan) : Bool :=
  p.armFallback && p.confirmedAt.isNone && decide (now < p.expiresAt) &&
    decide (s.nextMigrationTrial ≤ now) && decide (primaryLoss p ≤ now - s.lastContact)

def tryPlan (p : MigrationPlan) : Proc System PUnit := do
  .op fun s => { s with nextMigrationTrial := x.now + minute }
  let _ ← beginMigration c x p "" ""
  pure ⟨⟩

def maintainMigration : Proc System PUnit := do
  let s ← .read id
  match s.worker.intent with
  | some i => maintainTrial c x s.file i
  | none =>
    match s.plan with
    | none => pure ⟨⟩
    | some p => if due s x.now p then tryPlan c x p else pure ⟨⟩

end Procedures

section Jobs

variable (c : Texts) (x : Env)

def failed (r : JobReceipt) (stage error : String) : JobReceipt :=
  { r with status := .rejected, stage, message := error, errorCode := stage }

def succeeded (r : JobReceipt) (now : Time) (stage message : String) (evidence : Fields) : JobReceipt :=
  { r with status := .succeeded, stage, message, errorCode := "", appliedAt := some now, evidence }

def preparedPlan (s : System) (params : Fields) : Except (String × String) MigrationPlan :=
  match planFromParams c params with
  | .error error => .error ("bad_plan", error)
  | .ok plan =>
    match validatePlan c s x.now plan with
    | some error => .error ("bad_plan", error)
    | none =>
      if s.plan.any fun existing => existing.planId != plan.planId &&
          (decide (plan.generation ≤ existing.generation) ||
            existing.armFallback && existing.confirmedAt.isNone && decide (x.now < existing.expiresAt)) then
        .error ("plan_conflict", "a newer or armed local plan is still active")
      else if s.plan.all (fun existing => existing.planId != plan.planId) &&
          decide (plan.generation ≤ s.file.endpointGeneration) then
        .error ("generation_reused", "a new plan requires a strictly newer endpoint generation")
      else .ok { plan with currentUrl := s.file.controllerUrl }

def jobPrepare (r : JobReceipt) : Except (String × String) MigrationPlan → Proc System JobReceipt
  | .error (stage, error) => pure (failed r stage error)
  | .ok plan => do
    let saved ← saveMigration x.plan plan
    pure <|
      if saved then
        succeeded r x.now "rebind.prepared" "plan persisted; candidate connectivity not yet verified"
          [("plan_id", .str plan.planId), ("generation", .int plan.generation)]
      else failed r "persist_failed" x.ioError

def jobRetire (s : System) (r : JobReceipt) (plan : MigrationPlan) : Proc System JobReceipt :=
  if plan.confirmedAt.isNone ∨ s.file.controllerUrl ≠ plan.candidateUrl then
    pure (failed r "unconfirmed" "candidate has not confirmed fresh durable contact")
  else if !x.cleared then pure (failed r "persist_failed" x.ioError)
  else do
    .op fun s => { s with plan := none }
    pure (succeeded r x.now "rebind.retired"
      "old endpoint retired; current confirmed endpoint retained" [("plan_id", .str plan.planId)])

def jobArm (r : JobReceipt) (plan : MigrationPlan) : Proc System JobReceipt := do
  let saved ← saveMigration x.plan { plan with armFallback := true }
  pure <|
    if saved then
      succeeded r x.now "rebind.armed" "primary-loss trigger persisted; switching is not yet confirmed"
        [("plan_id", .str plan.planId)]
    else failed r "persist_failed" x.ioError

def jobActivate (r : JobReceipt) (plan : MigrationPlan) (job : JobEnvelope) : Proc System JobReceipt := do
  let error ← beginMigration c x plan job.jobId job.operationId
  pure <|
    match error with
    | some error => failed r "candidate_unverified" error
    | none =>
      { r with
        status := .awaitingConfirmation, stage := "rebind.trial", errorCode := ""
        message := "candidate trial started; awaiting three committed live exchanges over at least 15 seconds"
        evidence := [("plan_id", .str plan.planId), ("generation", .int plan.generation)] }

def jobPlanned (s : System) (r : JobReceipt) (job : JobEnvelope) (plan : MigrationPlan) :
    Proc System JobReceipt :=
  if job.action = .rebindRetire then jobRetire x s r plan
  else
    match validatePlan c s x.now plan with
    | some error => pure (failed r "bad_plan" error)
    | none =>
      if job.action = .rebindArm then jobArm x r plan
      else if job.action = .rebindActivate then jobActivate c x r plan job
      else pure r

def jobRebind (job : JobEnvelope) : Proc System JobReceipt := do
  let s ← .read id
  let r := newReceipt job x.now
  let planId := (job.params.get "plan_id").text
  if job.action = .rebindPrepare then jobPrepare x r (preparedPlan c x s job.params)
  else
    match s.plan.filter fun plan => planId != "" && plan.planId == planId with
    | none => pure (failed r "rebind.unprepared" "matching persisted migration plan is required")
    | some plan => jobPlanned c x s r job plan

def recordJob (job : JobEnvelope) (r : JobReceipt) : Proc System PUnit :=
  .op fun s => { s with worker := s.worker.record ⟨job.action, stamped job x.now r⟩ x.record }

def rebinds : Action → Bool
  | .rebindPrepare | .rebindArm | .rebindActivate | .rebindRetire => true
  | _ => false

def handleRebind (controller : String) (job : JobEnvelope) : Proc System PUnit := do
  let s ← .read id
  if s.worker.holds job.jobId || decide (1000 ≤ s.worker.agent.jobs.rows.length) ||
      !(authorized s.worker.agent controller x.now job && rebinds job.action) then pure ⟨⟩
  else
    let r ← jobRebind c x job
    recordJob x job r

end Jobs

section Links

variable {c : Texts} {x : Env}

def Keeps {α : Type} (p : Proc System α) : Prop :=
  ∀ s, (p s).state.worker = { s.worker with intent := (p s).state.worker.intent }

namespace Keeps

variable {α β : Type}

theorem pure (a : α) : Keeps (Pure.pure a : Proc System α) := fun _ => rfl

theorem bind {p : Proc System α} {f : α → Proc System β} (hp : Keeps p) (hf : ∀ a, Keeps (f a)) : Keeps (p >>= f) := by
  intro s
  have first := hp s
  have second := hf (p s).result (p s).state
  rw [first] at second
  exact second

variable {f : System → System}

theorem op (h : ∀ s, (f s).worker = { s.worker with intent := (f s).worker.intent }) :
    Keeps (.op f) := h

theorem read (f : System → α) : Keeps (.read f) := fun _ => rfl

theorem replace {o : WriteOutcome} (h : ∀ s, (f s).worker = { s.worker with intent := (f s).worker.intent }) :
    Keeps (.replace o f) := by
  intro s
  cases o with
  | done => exact h s
  | failed => rfl
  | renamed => exact h s

end Keeps

theorem applySwitch_worker (back : Bool) (i : LifecycleIntent) (s : System) :
    (applySwitch c x back i s).state.worker = s.worker := by
  unfold applySwitch
  rw [Proc.read_bind]
  cases refused : switchRefusal c (id s).file i with
  | some error => rfl
  | none => cases back <;> rfl

theorem applySwitch_keeps (back : Bool) (i : LifecycleIntent) : Keeps (applySwitch c x back i) := by
  refine Keeps.bind (.read _) fun s => ?_
  split
  · exact .pure _
  · refine .bind (.op fun s => ?_) fun _ => .pure _
    cases back <;> rfl

theorem startTrial_keeps (i : LifecycleIntent) : Keeps (startTrial c x i) := by
  refine Keeps.bind (.replace fun _ => rfl) fun saved => ?_
  split
  · exact .pure _
  · refine .bind (applySwitch_keeps false i) fun error => ?_
    unfold withdraw
    split
    · exact .bind (.op fun _ => rfl) fun _ => .pure _
    · exact .pure _

theorem beginMigration_keeps (p : MigrationPlan) (jobId operationId : String) :
    Keeps (beginMigration c x p jobId operationId) := by
  refine Keeps.bind (.read _) fun s => ?_
  split
  · exact .pure _
  · exact startTrial_keeps _

theorem jobPlanned_keeps (s : System) (r : JobReceipt) (job : JobEnvelope) (plan : MigrationPlan) :
    Keeps (jobPlanned c x s r job plan) := by
  unfold jobPlanned jobRetire jobArm jobActivate
  split
  · split
    · exact .pure _
    split
    · exact .pure _
    · exact .bind (.op fun _ => rfl) fun _ => .pure _
  split
  · exact .pure _
  split
  · exact .bind (.replace fun _ => rfl) fun _ => .pure _
  split
  · exact .bind (beginMigration_keeps _ _ _) fun _ => .pure _
  · exact .pure _

theorem jobRebind_keeps (job : JobEnvelope) : Keeps (jobRebind c x job) := by
  refine Keeps.bind (.read _) fun s => ?_
  dsimp only
  split
  · unfold jobPrepare
    split
    · exact .pure _
    · exact .bind (.replace fun _ => rfl) fun _ => .pure _
  split
  · exact .pure _
  · exact jobPlanned_keeps _ _ _ _

/-- A rebind job is one of the jobs that `Worker.handleJob` handles, with what `jobRebind`
returns and leaves. -/
theorem handleRebind_worker (controller : String) (job : JobEnvelope) (s : System)
    (other : JobEnvelope → JobReceipt) (trialError : Option String) (trialWrite : WriteOutcome)
    (allowed : authorized s.worker.agent controller x.now job)
    (rebind : rebinds job.action) :
    let ended := jobRebind c x job s
    (handleRebind c x controller job s).state.worker =
      (s.worker.handleJob controller
        ⟨x.now, false, trialError, trialWrite, .returned ended.result ended.state.worker.intent, x.record,
          other⟩ job).1 := by
  have kept := jobRebind_keeps (c := c) (x := x) job s
  have trial : (job.action == Action.checkTrial) = false := by
    generalize job.action = action at rebind
    cases action <;> first | rfl | exact absurd rebind (by decide)
  have executes : WorkerJournal.executed job.action := by
    generalize job.action = action at rebind
    cases action <;> first | rfl | exact absurd rebind (by decide)
  unfold handleRebind Worker.handleJob
  rw [Proc.read_bind]
  simp only [id, allowed, rebind, trial, executes, Bool.and_false, Bool.and_true, Bool.not_true,
    Bool.or_false, Bool.false_eq_true, if_false, if_true, Bool.or_eq_true, decide_eq_true_eq]
  by_cases held : s.worker.holds job.jobId
  · rw [if_pos (.inl held), if_pos held]
    rfl
  by_cases full : 1000 ≤ s.worker.agent.jobs.rows.length
  · rw [if_pos (.inr full), if_neg held, if_pos full]
    rfl
  rw [if_neg (not_or.mpr ⟨held, full⟩), if_neg held, if_neg full, ← kept]
  rfl

/-- The steps of `Worker.upkeep` that lead from one worker to the other. -/
def Upkept (w w' : Worker) : Prop := ∃ us : List Upkeep, w' = us.foldl Worker.upkeep w

theorem Upkept.refl (w : Worker) : Upkept w w := ⟨[], rfl⟩

theorem Upkept.one (u : Upkeep) (h : w' = w.upkeep u) : Upkept w w' := ⟨[u], h⟩

theorem Upkept.trans {w'' : Worker} (h : Upkept w w') (h' : Upkept w' w'') : Upkept w w'' := by
  obtain ⟨us, rfl⟩ := h
  obtain ⟨vs, rfl⟩ := h'
  exact ⟨us ++ vs, by rw [List.foldl_append]⟩

theorem drop_intent (hi : w.intent = some i) (kind : i.kind = .rebindSwitch) :
    w.upkeep .drop = { w with intent := none } := by
  simp [Worker.upkeep, hi, kind, Option.filter]

theorem decide_intent {r : JobReceipt} (o : WriteOutcome)
    (hi : w.intent = some i) (kind : i.kind = .rebindSwitch) (named : r.jobId = i.jobId) :
    w.upkeep (.decide r o) =
      if i.jobId = "" then { w with intent := none }
      else { (w.put ⟨.rebindActivate, r⟩).save o with intent := if o = .done then none else some i } := by
  have same : { r with jobId := i.jobId } = r := by rw [← named]
  simp only [Worker.upkeep, hi, kind, ne_eq, not_true_eq_false, if_false, same]

variable {s : System}

theorem finishConfirmed_upkeep {j : LifecycleIntent} (hi : s.worker.intent = some i)
    (kind : i.kind = .rebindSwitch) (named : j.jobId = i.jobId) :
    Upkept s.worker (finishConfirmed x j s).state.worker := by
  refine .one (.decide (confirmedReceipt j x.now) x.journal) ?_
  rw [decide_intent x.journal hi kind named, ← named]
  unfold finishConfirmed saveReceipt
  split
  · rfl
  · cases x.journal <;> simp only [hi.symm] <;> rfl

theorem finishFallback_upkeep (hi : s.worker.intent = some i) (kind : i.kind = .rebindSwitch) :
    Upkept s.worker (finishFallback x i s).state.worker := by
  refine .one (.decide (fallbackReceipt i) x.journal) ?_
  rw [decide_intent x.journal hi kind rfl]
  unfold finishFallback saveReceipt
  split
  · rfl
  · cases x.journal <;> simp only [hi.symm] <;> rfl

/-- The worker that the procedure leaves is reached by steps of `Worker.upkeep`. -/
def Upkeeps {α : Type} (p : Proc System α) (s : System) : Prop := Upkept s.worker (p s).state.worker

theorem confirm_upkeep (hi : s.worker.intent = some i) (kind : i.kind = .rebindSwitch) (plan : Option MigrationPlan) :
    Upkeeps (confirm x (counted i) plan) s := by
  cases plan with
  | none => exact .refl _
  | some p =>
    simp only [confirm]
    split
    · exact .refl _
    cases x.plan with
    | done => exact finishConfirmed_upkeep (s := s.confirmed _) hi kind rfl
    | failed => exact .refl _
    | renamed => exact .refl _

theorem countContact_upkeep (hi : s.worker.intent = some i) (kind : i.kind = .rebindSwitch) :
    Upkeeps (countContact x (counted i)) s := by
  have counts : s.worker.upkeep (.count (counted i).acknowledgements) =
      { s.worker with intent := some (counted i) } := by
    simp only [Worker.upkeep, hi, Option.map_some]
    rw [if_pos kind]
    rfl
  unfold Upkeeps countContact saveIntent
  cases x.intent with
  | done => exact .one _ counts.symm
  | failed => exact .refl _
  | renamed => exact .one _ counts.symm

theorem answersTrial_kind {sentUrl : String} (answers : answersTrial sentUrl i) :
    i.kind = .rebindSwitch ∧ sentUrl = i.candidateUrl := by
  simpa [answersTrial] using answers

/-- What a committed exchange does to the worker's files are steps of `Worker.upkeep`. -/
theorem contact_upkeep (s : System) : Upkeeps (contact x) s := by
  suffices Upkeeps (recordMigrationContact x s.file.controllerUrl) (s.contacted x.now) from this
  have kept : (s.contacted x.now).worker = s.worker := rfl
  unfold Upkeeps recordMigrationContact
  rw [Proc.read_bind]
  cases hi : s.worker.intent with
  | none =>
    simp only [id, kept, hi]
    exact .refl _
  | some i =>
    simp only [id, kept, hi]
    by_cases answers : answersTrial s.file.controllerUrl i
    · rw [if_neg (by simp [answers])]
      have kind := (answersTrial_kind answers).1
      split
      · exact countContact_upkeep (s := s.contacted x.now) hi kind
      · exact confirm_upkeep (s := s.contacted x.now) hi kind _
    · rw [if_pos (by simp [answers])]
      exact .refl _

theorem startTrial_upkeep (idle : s.worker.intent = none) (kind : i.kind = .rebindSwitch) (own : i.jobId = "")
    : Upkeeps (startTrial c x i) s := by
  have begun : Upkept s.worker (s.began i).worker := by
    refine .one (.begin i) ?_
    simp only [Worker.upkeep, idle, if_true, ← own]
    rfl
  have switched := applySwitch_worker (c := c) (x := x) false i (s.began i)
  unfold Upkeeps startTrial
  cases x.intent with
  | failed => exact .refl _
  | renamed => exact begun
  | done =>
    refine begun.trans ?_
    rw [← switched]
    change Upkeeps (withdraw _) _
    unfold withdraw
    split
    · refine .one .drop (drop_intent ?_ kind).symm
      rw [switched]
      rfl
    · exact .refl _

theorem beginMigration_upkeep (idle : s.worker.intent = none) (p : MigrationPlan) :
    Upkeeps (beginMigration c x p "" "") s := by
  unfold Upkeeps beginMigration
  rw [Proc.read_bind]
  cases refused : beginRefusal c (id s) x p with
  | some error => exact .refl _
  | none => exact startTrial_upkeep (i := switchIntent s x.now p "" "") idle rfl rfl

theorem maintainMigration_upkeep (s : System) : Upkeeps (maintainMigration c x) s := by
  unfold Upkeeps maintainMigration
  rw [Proc.read_bind]
  cases hi : s.worker.intent with
  | some i =>
    simp only [id, hi]
    change Upkeeps (maintainTrial c x s.file i) s
    unfold maintainTrial
    split
    · exact .refl _
    rename_i kind
    have kind := not_not.mp kind
    split
    · exact .one .drop (drop_intent hi kind).symm
    split
    · exact .refl _
    have switched := applySwitch_worker (c := c) (x := x) true
      { i with candidateUrl := i.previousUrl, trustPem := i.previousTrust } s
    have pending : (applySwitch c x true
        { i with candidateUrl := i.previousUrl, trustPem := i.previousTrust } s).state.worker.intent =
          some i := by rw [switched, hi]
    unfold Upkeeps
    rw [← switched]
    change Upkeeps (if _ then _ else _) _
    split
    · exact .refl _
    · exact finishFallback_upkeep pending kind
  | none =>
    simp only [id, hi]
    cases hp : s.plan with
    | none => exact .refl _
    | some p =>
      simp only
      split
      · exact beginMigration_upkeep (s := { s with nextMigrationTrial := x.now + minute }) hi p
      · exact .refl _

end Links

end Monik.Migration
