import Monik.Protocol

/-! What worker and supervisor leave for each other across a restart: the lifecycle intent
(`agent/runtime/jobs.go`) and the update journal (`update/tx.go`), without paths and times that
nothing reads. -/

namespace Monik.Lifecycle
open Protocol

inductive IntentKind
  | restart | update | rollback | rebindSwitch
  deriving DecidableEq

structure LifecycleIntent where
  kind : IntentKind
  (previousSession jobId operationId expectedDigest candidateUrl trustPem : String)
  generation : Int
  (planId controllerId previousUrl previousTrust : String)
  switchedAt : Time
  acknowledgements : Int

def jobIntent (kind : IntentKind) (session : String) (job : JobEnvelope) (digest : String) :
    LifecycleIntent :=
  { kind, previousSession := session, jobId := job.jobId, operationId := job.operationId
    expectedDigest := digest, candidateUrl := "", trustPem := "", generation := 0, planId := ""
    controllerId := "", previousUrl := "", previousTrust := "", switchedAt := 0
    acknowledgements := 0 }

def LifecycleIntent.complete (i : LifecycleIntent) : Bool :=
  i.kind != .rebindSwitch && i.jobId != "" && i.operationId != "" && i.previousSession != ""

inductive Stage
  | idle | staged | switching | probation | confirmed | rolledBack
  deriving DecidableEq

structure Journal where
  txId : String
  stage : Stage
  (current prevPath oldSha newSha reason : String)

def Journal.absent : Journal := ⟨"", .idle, "", "", "", "", ""⟩

structure Evidence where
  now : Time
  session : String
  digest : String
  selfBin : String
  journal : Option Journal

def Evidence.receipt (e : Evidence) (i : LifecycleIntent) : JobReceipt :=
  { jobId := i.jobId, operationId := i.operationId, status := .succeeded, stage := "", message := ""
    errorCode := "", retryable := false
    evidence := [("worker_digest", .str e.digest), ("session_id", .str e.session)]
    acceptedAt := none, appliedAt := some e.now, verifiedAt := none }

def journaled (e : Evidence) (i : LifecycleIntent) (j : Journal) : Option JobReceipt :=
  let rec' := e.receipt i
  if j.txId = "" ∨ j.current ≠ e.selfBin then none
  else if i.kind = .update ∧ j.stage = .rolledBack ∧ j.newSha = i.expectedDigest ∧ e.digest = j.oldSha then
    some { rec' with
      status := .rolledBack, stage := "restored_previous_worker"
      message := "update failed; supervisor restored the previous worker"
      evidence := rec'.evidence ++ [("rollback_tx_id", .str j.txId)] }
  else if i.kind = .update ∧ j.stage = .confirmed ∧ j.newSha = i.expectedDigest ∧
      e.digest = i.expectedDigest then
    some { rec' with
      stage := "build_digest_session"
      message := "new worker passed supervisor probation and reports its authorized digest"
      evidence := rec'.evidence ++ [("update_tx_id", .str j.txId)] }
  else if i.kind = .rollback ∧ j.stage = .rolledBack ∧ j.oldSha = i.expectedDigest ∧
      e.digest = i.expectedDigest then
    some { rec' with
      stage := "build_digest_session"
      message := "previous worker restored and reports the journaled digest"
      evidence := rec'.evidence ++
        [("rollback_tx_id", .str j.txId), ("previous_good_digest", .str j.oldSha)] }
  else none

/-- The receipt with which `reconcileIntents` ends the intent; `none` if it returns early. -/
def outcome (e : Evidence) (i : LifecycleIntent) : Option JobReceipt :=
  if i.jobId = "" ∨ i.kind = .rebindSwitch ∨ i.previousSession = "" ∨ i.previousSession = e.session then
    none
  else if i.kind = .restart then
    some { e.receipt i with
      stage := "new_worker_session", message := "new worker session after managed restart" }
  else e.journal.bind (journaled e i)

theorem journaled_jobId {e : Evidence} {i : LifecycleIntent} {j : Journal} {r : JobReceipt}
    (h : journaled e i j = some r) : r.jobId = i.jobId := by
  unfold journaled at h
  split_ifs at h <;> cases h <;> rfl

theorem outcome_jobId {e : Evidence} {i : LifecycleIntent} {r : JobReceipt} (h : outcome e i = some r) :
    r.jobId = i.jobId := by
  unfold outcome at h
  split_ifs at h
  · cases h
    rfl
  · obtain ⟨j, -, hj⟩ := Option.bind_eq_some_iff.mp h
    exact journaled_jobId hj

end Monik.Lifecycle
