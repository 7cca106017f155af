import Monik.AgentRuntime
import Monik.Lifecycle
import Monik.Persistence

/-! The general worker with its receipt journal and lifecycle intent: jobs, trials
(`trial_async.go`), acknowledgements, deaths and restarts. What `executeJob` returns and leaves, or
that the process dies in it, is an input. -/

namespace Monik.WorkerJournal
open Protocol Tables Persistence Lifecycle
open AgentRuntime

structure Worker where
  agent : Agent
  disk : Table Pending Pending.jobId
  intent : Option LifecycleIntent
  running : Bool
  /-- The jobs of a response that are still to be handled, with the controller they name. -/
  inbox : List (String × JobEnvelope)
  trials : List JobReceipt

def Worker.withJobs (w : Worker) (jobs : Table Pending Pending.jobId) : Worker :=
  { w with agent := { w.agent with jobs } }

def Worker.save (w : Worker) (o : WriteOutcome) : Worker :=
  { w with disk := o.write w.disk w.agent.jobs }

def Worker.put (w : Worker) (p : Pending) : Worker := w.withJobs (w.agent.jobs.upsert p)

def Worker.holds (w : Worker) (id : String) : Bool := w.agent.jobs.rows.any fun p => p.jobId == id

theorem Worker.holds_iff {w : Worker} {id : String} : w.holds id ↔ ∃ p ∈ w.agent.jobs, p.jobId = id := by
  simp only [Worker.holds, List.any_eq_true, beq_iff_eq]
  rfl

def Worker.record (w : Worker) (p : Pending) (o : WriteOutcome) : Worker :=
  let held := (w.put p).save o
  if o = .done then held else held.withJobs (held.agent.jobs.delete fun q => q.jobId == p.jobId)

theorem Worker.record_agent (w : Worker) {p : Pending} (o : WriteOutcome)
    (fresh : ∀ q ∈ w.agent.jobs, q.jobId ≠ p.jobId) : (w.record p o).agent =
      if o = .done then { w.agent with jobs := w.agent.jobs.upsert p } else w.agent := by
  unfold record
  split
  · rfl
  · simp only [put, save, withJobs, Table.delete_upsert fresh]

def executed : Action → Bool
  | .secretReplace | .agentRestart | .updateRollout | .updateRollback | .rebindPrepare | .rebindArm
  | .rebindActivate | .rebindRetire | .credentialRotate | .trustStage | .trustRetire => true
  | _ => false

inductive Execution
  | returned (receipt : JobReceipt) (intent : Option LifecycleIntent)
  | died (intent : Option LifecycleIntent)

structure Handling where
  now : Time
  stopping : Bool
  trialError : Option String
  trialWrite : WriteOutcome
  execution : Execution
  write : WriteOutcome
  other : JobEnvelope → JobReceipt

def authorized (a : Agent) (controller : String) (now : Time) (job : JobEnvelope) : Bool :=
  job.schemaVersion == schemaVersion && controller == a.controllerId &&
    (job.deadline.any fun d => decide (now < d)) && decide (job.notBefore ≤ now)

def rejectedTrial (job : JobEnvelope) (now : Time) (error : String) : JobReceipt :=
  { newReceipt job now with
    status := .rejected, stage := "rejected", message := error, errorCode := "bad_check" }

def pendingTrial (job : JobEnvelope) (now : Time) : JobReceipt :=
  { newReceipt job now with
    status := .accepted, stage := "trial_pending", message := "bounded trial running on agent"
    errorCode := "" }

def busyTrial (job : JobEnvelope) (now : Time) : JobReceipt :=
  { newReceipt job now with
    status := .rejected, message := "trial concurrency limit reached; retry explicitly"
    errorCode := "busy" }

/-- `startTrialLocked`; the flags say that it took the job and that the trial was started. -/
def Worker.startTrial (w : Worker) (h : Handling) (job : JobEnvelope) : Worker × Bool × Bool :=
  if 2 ≤ w.trials.length then (w, false, false)
  else
    match h.trialError with
    | some error => ((w.put ⟨job.action, rejectedTrial job h.now error⟩).save h.trialWrite, true, false)
    | none =>
      let held := w.record ⟨job.action, pendingTrial job h.now⟩ h.trialWrite
      if h.trialWrite = .done then
        ({ held with trials := held.trials ++ [pendingTrial job h.now] }, true, true)
      else (held, false, false)

def stamped (job : JobEnvelope) (now : Time) (r : JobReceipt) : JobReceipt :=
  { r with
    jobId := job.jobId
    appliedAt := if r.status = .succeeded then some now else r.appliedAt }

def Worker.handleJob (w : Worker) (controller : String) (h : Handling) (job : JobEnvelope) :
    Worker × Bool :=
  if h.stopping then (w, false)
  else if w.holds job.jobId then (w, false)
  else if 1000 ≤ w.agent.jobs.rows.length then (w, false)
  else if authorized w.agent controller h.now job && job.action == .checkTrial then
    match w.startTrial h job with
    | (w, true, started) => (w, started)
    | (w, false, _) => (w.record ⟨job.action, busyTrial job h.now⟩ h.write, false)
  else if authorized w.agent controller h.now job && executed job.action then
    match h.execution with
    | .died intent => ({ w with intent, running := false, inbox := [], trials := [] }, true)
    | .returned receipt intent =>
      (Worker.record { w with intent } ⟨job.action, stamped job h.now receipt⟩ h.write, true)
  else
    let receipt := answer w.agent controller ⟨h.now, h.stopping, true, h.other⟩ job
    (w.record ⟨job.action, receipt⟩ h.write, false)

/-- A job without effect is answered as `AgentRuntime.handleJob` answers it. -/
theorem Worker.handleJob_plain (w : Worker) (controller : String) (h : Handling) (job : JobEnvelope)
    (trial : job.action ≠ .checkTrial) (plain : executed job.action = false) : (w.handleJob controller h job).1.agent =
      AgentRuntime.handleJob controller ⟨h.now, h.stopping, h.write = .done, h.other⟩ w.agent job := by
  have same : ∀ saved, answer w.agent controller ⟨h.now, h.stopping, saved, h.other⟩ job =
      answer w.agent controller ⟨h.now, h.stopping, true, h.other⟩ job := fun _ => rfl
  have id := AgentRuntime.answer_jobId w.agent controller ⟨h.now, h.stopping, true, h.other⟩ job
  unfold handleJob AgentRuntime.handleJob
  simp only [same, beq_eq_false_iff_ne.mpr trial, plain, Bool.and_false, Bool.false_eq_true, if_false]
  split
  · rfl
  split
  · -- the entry stands already: neither inserts another one
    rename_i held
    obtain ⟨p, hp, pid⟩ := holds_iff.mp held
    split
    · rfl
    split
    · rfl
    split
    · rfl
    · rename_i inserted
      exact absurd (pid.trans id.symm) ((Table.insert_some inserted).1 p hp)
  · rename_i absent
    have fresh : ∀ q ∈ w.agent.jobs, q.jobId ≠
        (Pending.mk job.action (answer w.agent controller ⟨h.now, h.stopping, true, h.other⟩ job)).jobId :=
      fun q hq taken => absent (holds_iff.mpr ⟨q, hq, taken.trans id⟩)
    split
    · rfl
    · rw [record_agent w h.write fresh, Table.insert_eq_upsert fresh]
      cases h.write <;> rfl

structure TrialResult where
  observedAt : Time
  evidence : Fields
  interrupted : Bool

def trialReceipt (r : JobReceipt) (x : TrialResult) : JobReceipt :=
  let done : JobReceipt := { r with
    status := .succeeded, stage := "redacted_trial_result", errorCode := ""
    message := "trial completed; definition not saved", appliedAt := some x.observedAt
    evidence := x.evidence }
  if x.interrupted then
    { done with
      status := .failed, stage := "trial_interrupted", errorCode := "outcome_unknown"
      message := "worker stopped during trial; actual outcome unknown; not replayed" }
  else done

def Worker.finishTrial (w : Worker) (i : Nat) (x : TrialResult) (o : WriteOutcome) : Worker :=
  match w.trials[i]? with
  | none => w
  | some r =>
    { (w.put ⟨.checkTrial, trialReceipt r x⟩).save o with trials := w.trials.eraseIdx i }

/-- `applyControl` up to its job loop: a newer configuration is adopted, acknowledged receipts
are removed. -/
def Worker.applyControl (w : Worker) (sent : List JobReceipt) (r : ControlResponse)
    (paused : Option Bool) (o : WriteOutcome) : Worker :=
  let removed := (w.withJobs (w.agent.jobs.delete (acked sent r))).save o
  let kept := if o = .done then removed else removed.withJobs w.agent.jobs
  { kept with
    agent := { kept.agent with paused := paused.getD kept.agent.paused }
    inbox := r.jobs.map fun job => (r.controllerId, job) }

/-- The report of a tick, without receipts that could not be saved. Intents and trials rewrite receipts
elsewhere. -/
def Worker.prepare (w : Worker) (t : Tick) (o : WriteOutcome) : Worker × AgentReport :=
  let prepared := AgentRuntime.prepare w.agent { t with reconciled := id, saved := o = .done }
  (Worker.save { w with agent := prepared.1 } o, prepared.2)

def lifecycleAction : IntentKind → Action
  | .restart => .agentRestart
  | .update => .updateRollout
  | .rollback => .updateRollback
  | .rebindSwitch => .rebindActivate

def Worker.reconcileIntents (w : Worker) (e : Evidence) (o : WriteOutcome) : Worker :=
  match w.intent with
  | none => w
  | some i =>
    match outcome { e with session := w.agent.session } i with
    | none => w
    | some r =>
      let held := (w.put ⟨lifecycleAction i.kind, r⟩).save o
      { held with intent := if o = .done then none else w.intent }

inductive Upkeep
  | begin (i : LifecycleIntent)
  | count (acknowledgements : Int)
  | decide (r : JobReceipt) (o : WriteOutcome)
  | drop

def Worker.upkeep (w : Worker) : Upkeep → Worker
  | .begin i => if w.intent = none then { w with intent := some { i with jobId := "" } } else w
  | .count acknowledgements =>
    { w with intent := w.intent.map fun i =>
        if i.kind = .rebindSwitch then { i with acknowledgements } else i }
  | .decide r o =>
    match w.intent with
    | none => w
    | some i =>
      if i.kind ≠ .rebindSwitch then w
      else if i.jobId = "" then { w with intent := none }
      else
        let held := (w.put ⟨.rebindActivate, { r with jobId := i.jobId }⟩).save o
        { held with intent := if o = .done then none else w.intent }
  | .drop => { w with intent := w.intent.filter fun i => i.kind != .rebindSwitch }

def Worker.crash (w : Worker) : Worker := { w with running := false, inbox := [], trials := [] }

def loaded (p : Pending) : Pending :=
  if p.receipt.stage = "trial_pending" then
    { p with receipt :=
        { p.receipt with
          status := .failed, stage := "trial_interrupted"
          message := "worker restarted during trial; actual outcome unknown; no automatic repeat"
          errorCode := "outcome_unknown" } }
  else p

theorem loaded_jobId (p : Pending) : (loaded p).jobId = p.jobId := by
  unfold loaded
  split <;> rfl

def lifecyclePending (i : LifecycleIntent) : JobReceipt :=
  { jobId := i.jobId, operationId := i.operationId, status := .awaitingConfirmation
    stage := "lifecycle_pending"
    message := "durable lifecycle request exists; awaiting supervisor evidence; not repeated"
    errorCode := "", retryable := false, evidence := [], acceptedAt := none, appliedAt := none
    verifiedAt := none }

/-- The worker runs if it finds no error. -/
def Worker.restoreIntentReceipt (w : Worker) (o : WriteOutcome) : Worker :=
  match w.intent with
  | none => { w with running := true }
  | some i =>
    if i.kind = .rebindSwitch then
      { w with running := i.candidateUrl != "" && i.planId != "" && decide (0 < i.generation) }
    else if !i.complete then w
    else if w.holds i.jobId then { w with running := true }
    else { (w.put ⟨lifecycleAction i.kind, lifecyclePending i⟩).save o with running := o = .done }

/-- `Open` up to `reconcileIntents`: a process with a new session reads both files. -/
def Worker.open (w : Worker) (session : String) (o : WriteOutcome) : Worker :=
  if w.disk.rows.any (fun p => p.jobId == "") || decide (1000 < w.disk.rows.length) then w
  else
    let jobs := w.disk.update (fun _ => true) loaded loaded_jobId
    Worker.restoreIntentReceipt
      { w with
        agent := { w.agent with session, sequence := 0, jobs, receiptCursor := "" }
        inbox := [], trials := [] } o

end Monik.WorkerJournal
