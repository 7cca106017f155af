import Monik.AgentRuntime
import Monik.Rollouts

/-! The controller's answer to a report (`handleReport`): commit, receipts, acknowledgements,
pending jobs. Authentication, configuration and Spark tables are inputs; incidents, migration status
and published checks write no job and are left out. -/

namespace Monik.ReportHandler
open Protocol Tables ControllerStore Operations Rollouts Ingestion AgentRuntime

structure Request where
  authorized : Bool
  call : Call
  spark : JobReceipt → SparkAnswers
  /-- `operation_targets.updated_at` of the job's target, a column that the target rows here leave out. -/
  updatedAt : JobRow → Time
  now : Time
  configReadable : Bool
  restoreMode : Bool
  expireNow : Time
  tickNow : Time
  claimNow : Time
  authority : JobEnvelope → Except StoreError Bool

def unverifiedModel (s : Store) (agent : String) (j : JobRow) : Bool :=
  j.agentId == agent && j.action.isModel && j.status == .of .unknownResult &&
    ((s.targets.find? (hasKey j.operationId agent)).any fun t =>
      t.jobId == j.jobId && t.status == .unknownResult && t.stage == "unverified_result" &&
        t.errorCode == "missing_evidence") &&
    j.result.any fun r => r.status == .succeeded

/-- The rows of `ReconcileUnverifiedModelReceipts`: the sixteen that waited longest. -/
def unverifiedJobs (s : Store) (agent : String) (updatedAt : JobRow → Time) : List JobRow :=
  ((s.jobs.rows.filter (unverifiedModel s agent)).insertionSort (inOrder updatedAt)).take 16

def ownReceipt (j : JobRow) : Bool :=
  j.result.any fun r => r.jobId == j.jobId && (r.operationId == "" || r.operationId == j.operationId)

section
variable {σ : Type} (apply : σ → JobReceipt → Except StoreError σ)

/-- An error other than a conflict or a missing row ends the loop. -/
def applyStored : List JobReceipt → σ → σ
  | [], s => s
  | r :: rs, s =>
    match apply s r with
    | .ok s => applyStored rs s
    | .error (.refused _) => s
    | .error _ => applyStored rs s

/-- The receipts are read before the first is applied; a foreign one among them ends the pass. -/
def reconcileReceipts (jobs : List JobRow) (s : σ) : σ :=
  if jobs.all ownReceipt then applyStored apply (jobs.filterMap JobRow.result) s else s

variable {apply} {s : σ}

theorem applyStored_invariant (inv : σ → Prop) {rs : List JobReceipt} (start : inv s)
    (preserved : ∀ r ∈ rs, ∀ u v, apply u r = .ok v → inv u → inv v) : inv (applyStored apply rs s) := by
  induction rs generalizing s with
  | nil => exact start
  | cons r rs ih =>
    have rest := fun {u} (h : inv u) => ih h fun r hr => preserved r (by simp [hr])
    unfold applyStored
    split
    · rename_i u hu
      exact rest (preserved r (by simp) s u hu start)
    · exact start
    · exact rest start

theorem reconcileReceipts_invariant (inv : σ → Prop) {jobs : List JobRow} (start : inv s)
    (preserved : ∀ j ∈ jobs, ∀ r, j.result = some r → r.jobId = j.jobId →
      ∀ u v, apply u r = .ok v → inv u → inv v) : inv (reconcileReceipts apply jobs s) := by
  unfold reconcileReceipts
  split
  · rename_i own
    refine applyStored_invariant inv start fun r hr => ?_
    obtain ⟨j, hj, result⟩ := List.mem_filterMap.mp hr
    have its := List.all_eq_true.mp own j hj
    simp only [ownReceipt, result, Option.any_some, Bool.and_eq_true, beq_iff_eq] at its
    exact preserved j hj r result its.1
  · exact start

end

theorem mem_unverifiedJobs {s : Store} {agent : String} {updatedAt : JobRow → Time} {j : JobRow}
    (h : j ∈ unverifiedJobs s agent updatedAt) : j ∈ s.jobs ∧ unverifiedModel s agent j :=
  List.mem_filter.mp ((List.mem_insertionSort _).mp (List.mem_of_mem_take h))

def reconcileUnverified (s : Store) (agent : String) (x : Request) : Store :=
  reconcileReceipts (fun s r => applyReceipt s agent r (x.spark r)) (unverifiedJobs s agent x.updatedAt) s

/-- An applied success is acknowledged once its job and target can be read back and it is not
an unproven model success. -/
def acknowledges (s : Store) (agent : String) (r : JobReceipt) : Bool :=
  r.status != .succeeded ||
    match s.jobs.find? fun j => j.jobId == r.jobId && j.agentId == agent with
    | none => false
    | some j =>
      match s.targets.find? fun t => hasKey j.operationId agent t && t.jobId == j.jobId with
      | none => false
      | some t => !(j.action.isModel && t.status == .unknownResult)

def applyReceipts (agent : String) (spark : JobReceipt → SparkAnswers) :
    List JobReceipt → Store → Store × List String
  | [], s => (s, [])
  | r :: rs, s =>
    match applyReceipt s agent r (spark r) with
    | .error _ => applyReceipts agent spark rs s
    | .ok u =>
      let (v, acks) := applyReceipts agent spark rs u
      (v, if acknowledges u agent r then r.jobId :: acks else acks)

def controlReport (fresh : AgentRow) (rep : AgentReport) (accepted : AcceptedReport) (now : Time) :
    Bool :=
  rep.sessionId == fresh.sessionId && decide (-(5 * second) ≤ now - rep.observedAt) &&
    decide (now - rep.observedAt ≤ staleContact) &&
    (accepted.live || accepted.duplicate && rep.sequence == fresh.lastSeq)

def poll (controller : String) (s : Store) (rep : AgentReport) (accepted : AcceptedReport)
    (acks : List String) (x : Request) : Store × Option ControlResponse :=
  match s.agent rep.agentId with
  | none => (s, none)
  | some fresh =>
    if !controlReport fresh rep accepted x.now then
      (s, some ⟨controller, rep.sequence, [], acks⟩)
    else if !x.configReadable then (s, none)
    else if x.restoreMode then (s, some ⟨controller, rep.sequence, [], acks⟩)
    else
      match claimPending s rep.agentId 8 x.expireNow x.tickNow x.claimNow x.authority with
      | (s, .error _) => (s, none)
      | (s, .ok jobs) => (s, some ⟨controller, rep.sequence, jobs, acks⟩)

/-- No response stands for every status other than 200. -/
def handleReport (c : Codec) (controller : String) (s : Store) (rep : AgentReport) (x : Request) :
    Store × Option ControlResponse :=
  if !x.authorized then (s, none)
  else
    match acceptReport c s rep x.call with
    | .error _ => (s, none)
    | .ok (s, accepted) =>
      let s := if accepted.live then reconcileUnverified s rep.agentId x else s
      if !rep.isLive then (s, some ⟨controller, rep.sequence, [], []⟩)
      else
        let (s, acks) := applyReceipts rep.agentId x.spark rep.jobReceipts s
        poll controller s rep accepted acks x

end Monik.ReportHandler
