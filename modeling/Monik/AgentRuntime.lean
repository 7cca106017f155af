import Mathlib.Data.List.Rotate
import Monik.Ingestion

/-! The general worker (`agent/runtime/runtime.go`) as far as it reports: receipts in its journal,
the live report of a tick, the spool, and a control response. Measurements, discovery, file writes,
clocks and the receipts of other handlers are inputs. -/

namespace Monik.AgentRuntime
open Protocol Tables Ingestion

variable {limit : Nat} {digest : String × String × Int → String} {spool : List AgentReport} {r : AgentReport}

structure Pending where
  action : Action
  receipt : JobReceipt
  deriving DecidableEq

def Pending.jobId (p : Pending) : String := p.receipt.jobId

structure Agent where
  agentId : String
  controllerId : String
  session : String
  sequence : Int
  paused : Bool
  jobs : Table Pending Pending.jobId
  receiptCursor : String
  spool : List AgentReport

def collects : Action → Bool
  | .agentCollectNow | .agentDiscoverNow => true
  | _ => false

structure Handling where
  now : Time
  stopping : Bool
  saved : Bool
  other : JobEnvelope → JobReceipt

def newReceipt (job : JobEnvelope) (now : Time) : JobReceipt :=
  { jobId := job.jobId, operationId := job.operationId, status := .unsupported
    stage := "unsupported", message := "action is not implemented by this worker"
    errorCode := "not_implemented", retryable := false, evidence := []
    acceptedAt := some now, appliedAt := none, verifiedAt := none }

def answer (a : Agent) (controller : String) (h : Handling) (job : JobEnvelope) : JobReceipt :=
  let receipt := newReceipt job h.now
  if job.schemaVersion ≠ schemaVersion ∨ controller ≠ a.controllerId then
    { receipt with status := .rejected, message := "controller/schema mismatch" }
  else if job.deadline.all (fun d => decide (d ≤ h.now)) ∨ h.now < job.notBefore then
    { receipt with status := .expired, message := "job is outside its authorized time window" }
  else
    match job.action with
    | .agentCollectNow =>
      { receipt with
        status := .accepted, stage := "collect_pending"
        message := "waiting for a fresh measurement", errorCode := "" }
    | .agentDiscoverNow =>
      if a.paused then { receipt with status := .rejected, message := "discovery is paused" }
      else
        { receipt with
          status := .accepted, stage := "discover_pending"
          message := "waiting for a new discovery pass", errorCode := "" }
    | _ => { h.other job with jobId := job.jobId }

theorem answer_jobId (a : Agent) (controller : String) (h : Handling) (job : JobEnvelope) :
    (answer a controller h job).jobId = job.jobId := by
  unfold answer
  repeat' split
  all_goals rfl

def handleJob (controller : String) (h : Handling) (a : Agent) (job : JobEnvelope) : Agent :=
  if h.stopping then a
  else if 1000 ≤ a.jobs.rows.length then a
  else if !h.saved then a
  else
    match a.jobs.insert ⟨job.action, answer a controller h job⟩ with
    | none => a
    | some jobs => { a with jobs }

structure Tick where
  now : Time
  reportedAt : Time
  snapshot : Option Host
  discovery : Option Discovery
  checks : List CheckObservation
  configRevision : Int
  configHash : String
  endpointGeneration : Int
  workerDigest : String
  managedReady : Bool
  rest : String
  reconciled : JobReceipt → JobReceipt
  saved : Bool

def collectRequested (a : Agent) : Bool :=
  a.jobs.rows.any fun p => p.receipt.status == .accepted && p.receipt.stage == "collect_pending"

def hostOf (a : Agent) (t : Tick) : Option Host :=
  if !a.paused || collectRequested a then t.snapshot else none

def completes (t : Tick) (host : Option Host) (r : JobReceipt) : Bool :=
  r.status == .accepted &&
    (r.stage == "collect_pending" && host.isSome ||
      r.stage == "discover_pending" && t.discovery.any fun d =>
        r.acceptedAt.any fun accepted => decide (accepted ≤ d.startedAt))

def completedReceipt (session : String) (seq : Int) (t : Tick) (r : JobReceipt) : JobReceipt :=
  let failed := r.stage == "discover_pending" && t.discovery.any fun d => !d.permissionGaps.isEmpty
  { r with
    status := if failed then .failed else .succeeded
    stage := "fresh_result"
    message := if failed then "discovery failed" else "fresh observation committed with this receipt"
    appliedAt := some t.now
    evidence := [("sequence", .int seq), ("session_id", .str session), ("observed_at", .int t.now)] }

def complete (session : String) (seq : Int) (t : Tick) (host : Option Host) (r : JobReceipt) :
    JobReceipt :=
  if completes t host r then completedReceipt session seq t r else r

def settle (session : String) (seq : Int) (t : Tick) (host : Option Host) (p : Pending) : Pending :=
  let r := if collects p.action then p.receipt else { t.reconciled p.receipt with jobId := p.jobId }
  { p with receipt := complete session seq t host r }

theorem settle_jobId (session : String) (seq : Int) (t : Tick) (host : Option Host) (p : Pending) :
    (settle session seq t host p).jobId = p.jobId := by
  unfold settle complete Pending.jobId
  dsimp only
  split <;> split <;> rfl

theorem settle_observation (session : String) (seq : Int) (t : Tick) (host : Option Host) {p : Pending}
    (h : collects p.action) : settle session seq t host p = p ∨ completes t host p.receipt ∧
      settle session seq t host p = { p with receipt := completedReceipt session seq t p.receipt } := by
  by_cases done : completes t host p.receipt
  · exact .inr ⟨done, by simp [settle, complete, h, done]⟩
  · exact .inl (by simp [settle, complete, h, done])

def settleJobs (a : Agent) (t : Tick) : Table Pending Pending.jobId :=
  a.jobs.update (fun _ => true) (settle a.session (a.sequence + 1) t (hostOf a t))
    (settle_jobId a.session (a.sequence + 1) t (hostOf a t))

def receiptBatch (jobs : List Pending) (cursor : String) (limit : Nat) : List JobReceipt :=
  let sorted := (jobs.map Pending.receipt).insertionSort fun x y => x.jobId ≤ y.jobId
  (sorted.rotate (sorted.countP fun r => decide (r.jobId ≤ cursor))).take limit

theorem mem_receiptBatch {jobs : List Pending} {cursor : String} {r : JobReceipt}
    (h : r ∈ receiptBatch jobs cursor limit) : ∃ p ∈ jobs, p.receipt = r := by
  have listed := List.mem_of_mem_take h
  rw [List.mem_rotate, List.mem_insertionSort] at listed
  exact List.mem_map.mp listed

def prepare (a : Agent) (t : Tick) : Agent × AgentReport :=
  let jobs := settleJobs a t
  let batch := receiptBatch jobs.rows a.receiptCursor 64
  let a' := { a with
    sequence := a.sequence + 1
    jobs
    receiptCursor := (batch.getLast?.map JobReceipt.jobId).getD a.receiptCursor }
  (a', { agentFlavor := "", schemaVersion := schemaVersion, agentId := a.agentId
         sessionId := a.session, sequence := a.sequence + 1, observedAt := t.now
         reportedAt := t.reportedAt, configRevision := t.configRevision
         configHash := t.configHash, endpointGeneration := t.endpointGeneration
         workerDigest := t.workerDigest, managedReady := t.managedReady
         immutableRelease := true, host := hostOf a t, checks := t.checks
         discovery := t.discovery, spark := none
         jobReceipts := if t.saved then batch else [], isLive := true, rest := t.rest })

def recordName (digest : String × String × Int → String) (r : AgentReport) : Time × String :=
  (r.observedAt, digest r.key)

def sameReport (a b : AgentReport) : Bool := a.key == b.key && a.observedAt == b.observedAt

/-- A spooled report is kept; the file may not be written, and retention retires the oldest. -/
def push (c : Codec) (digest : String × String × Int → String) (spool : List AgentReport)
    (rep : AgentReport) (written : Bool) (retired : Nat) : List AgentReport :=
  match spool.find? fun r => recordName digest r == recordName digest rep with
  | some old =>
    if sameReport old rep && observationPayload c old == observationPayload c rep then
      spool.drop retired
    else spool
  | none => if written then (spool ++ [rep]).drop retired else spool

theorem mem_push {c : Codec} {rep : AgentReport} {written : Bool} {retired : Nat}
    (h : r ∈ push c digest spool rep written retired) : r ∈ spool ∨ r = rep := by
  unfold push at h
  split at h
  · split at h
    · exact .inl (List.mem_of_mem_drop h)
    · exact .inl h
  · split at h
    · have mem := List.mem_of_mem_drop h
      simpa using mem
    · exact .inl h

def byName (digest : String × String × Int → String) (a b : AgentReport) : Prop :=
  a.observedAt < b.observedAt ∨ a.observedAt = b.observedAt ∧ digest a.key ≤ digest b.key

instance (digest : String × String × Int → String) : DecidableRel (byName digest) := fun _ _ =>
  inferInstanceAs (Decidable (_ ∨ _ ∧ _))

def listLimit (digest : String × String × Int → String) (spool : List AgentReport) (limit : Nat) :
    List AgentReport :=
  (spool.insertionSort (byName digest)).take limit

theorem mem_listLimit (h : r ∈ listLimit digest spool limit) : r ∈ spool := by
  have listed := List.mem_of_mem_take h
  rwa [List.mem_insertionSort] at listed

def dropReport (digest : String × String × Int → String) (spool : List AgentReport)
    (rep : AgentReport) : List AgentReport :=
  spool.filter fun r => !(recordName digest r == recordName digest rep && sameReport r rep)

structure ControlResponse where
  controllerId : String
  upToSequence : Int
  jobs : List JobEnvelope
  receiptAcks : List String

def acknowledged (a : Agent) (rep : AgentReport) (r : ControlResponse) : Bool :=
  r.controllerId == a.controllerId && r.upToSequence == rep.sequence

def finished : TargetStatus → Bool
  | .succeeded | .failed | .rejected | .unsupported | .expired | .rolledBack | .unknownResult => true
  | _ => false

structure Control where
  paused : Option Bool
  saved : Bool
  handling : JobEnvelope → Handling

def acked (sent : List JobReceipt) (r : ControlResponse) (p : Pending) : Bool :=
  r.receiptAcks.contains p.jobId && sent.contains p.receipt && finished p.receipt.status

def applyControl (a : Agent) (sent : List JobReceipt) (r : ControlResponse) (x : Control) : Agent :=
  let a := { a with paused := x.paused.getD a.paused }
  let a := if x.saved then { a with jobs := a.jobs.delete (acked sent r) } else a
  r.jobs.foldl (fun a job => handleJob r.controllerId (x.handling job) a job) a

structure SameWorker (a b : Agent) : Prop where
  agentId : b.agentId = a.agentId
  session : b.session = a.session
  sequence : b.sequence = a.sequence
  spool : b.spool = a.spool

theorem handleJob_same (controller : String) (h : Handling) (a : Agent) (job : JobEnvelope) :
    SameWorker a (handleJob controller h a job) := by
  unfold handleJob
  repeat' split
  all_goals exact ⟨rfl, rfl, rfl, rfl⟩

theorem mem_handleJob {controller : String} {h : Handling} {a : Agent} {job : JobEnvelope}
    {p : Pending} (hp : p ∈ (handleJob controller h a job).jobs) :
    p ∈ a.jobs ∨ p = ⟨job.action, answer a controller h job⟩ := by
  unfold handleJob at hp
  split at hp
  · exact .inl hp
  split at hp
  · exact .inl hp
  split at hp
  · exact .inl hp
  split at hp
  · exact .inl hp
  · rename_i jobs inserted
    exact ((Table.insert_some inserted).2 p).mp hp

theorem SameWorker.trans {a b c : Agent} (h : SameWorker a b) (h' : SameWorker b c) : SameWorker a c :=
  ⟨h'.agentId.trans h.agentId, h'.session.trans h.session, h'.sequence.trans h.sequence,
    h'.spool.trans h.spool⟩

theorem handleJobs_spec (controller : String) (handling : JobEnvelope → Handling)
    (jobs : List JobEnvelope) (a : Agent) :
    let b := jobs.foldl (fun a job => handleJob controller (handling job) a job) a
    SameWorker a b ∧ ∀ p ∈ b.jobs, p ∈ a.jobs ∨
      ∃ job ∈ jobs, ∃ c, p = ⟨job.action, answer c controller (handling job) job⟩ := by
  induction jobs generalizing a with
  | nil => exact ⟨⟨rfl, rfl, rfl, rfl⟩, fun p hp => .inl hp⟩
  | cons job jobs ih =>
    obtain ⟨same, entries⟩ := ih (handleJob controller (handling job) a job)
    refine ⟨(handleJob_same controller (handling job) a job).trans same, fun p hp => ?_⟩
    obtain earlier | ⟨next, listed, c, rfl⟩ := entries p hp
    · obtain old | rfl := mem_handleJob earlier
      · exact .inl old
      · exact .inr ⟨job, by simp, a, rfl⟩
    · exact .inr ⟨next, by simp [listed], c, rfl⟩

theorem applyControl_spec (a : Agent) (sent : List JobReceipt) (r : ControlResponse) (x : Control) :
    SameWorker a (applyControl a sent r x) ∧ ∀ p ∈ (applyControl a sent r x).jobs, p ∈ a.jobs ∨
      ∃ job ∈ r.jobs, ∃ b, p = ⟨job.action, answer b r.controllerId (x.handling job) job⟩ := by
  unfold applyControl
  split
  · obtain ⟨same, entries⟩ := handleJobs_spec r.controllerId x.handling r.jobs
      { a with paused := x.paused.getD a.paused, jobs := a.jobs.delete (acked sent r) }
    refine ⟨⟨same.agentId, same.session, same.sequence, same.spool⟩, fun p hp => ?_⟩
    exact (entries p hp).imp (fun kept => (Table.mem_delete.mp kept).1) id
  · obtain ⟨same, entries⟩ := handleJobs_spec r.controllerId x.handling r.jobs
      { a with paused := x.paused.getD a.paused }
    exact ⟨⟨same.agentId, same.session, same.sequence, same.spool⟩, entries⟩

end Monik.AgentRuntime
