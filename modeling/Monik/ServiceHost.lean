import Monik.CrashPoints
import Monik.Lifecycle

/-! The service host's update transaction (`servicehost/host.go`, `update/tx.go`) as procedures over
the installed worker, the candidate, the previous-good slot and the journal. Reads succeed; how a
write ends and whether a worker starts and survives are inputs. -/

namespace Monik.ServiceHost
open Lifecycle Persistence CrashPoints

def hexDigest (digest : String) : Bool :=
  digest.length == 64 && digest.toList.all fun c =>
    decide ('0' ≤ c ∧ c ≤ '9') || decide ('a' ≤ c ∧ c ≤ 'f') || decide ('A' ≤ c ∧ c ≤ 'F')

structure Digest (β : Type) where
  sha : β → String
  formed : ∀ b, hexDigest (sha b)

theorem Digest.length {β : Type} (d : Digest β) (b : β) : (d.sha b).length = 64 := by
  have formed := d.formed b
  rw [hexDigest, Bool.and_eq_true, beq_iff_eq] at formed
  exact formed.1

structure Installation (β : Type) where
  worker : β
  next : Option β
  prev : Option β
  journal : Journal
  alive : Bool
  staged : List (β × String)

structure Host where
  workerBin : String
  prevPath : String

structure Response where
  ok : Bool
  message : String
  stage : String

/-- The parameters of `activate_update`, and the artifact as it is read: once for its digest,
once for the copy. -/
structure Candidate (β : Type) where
  component : String
  path : String
  expect : String
  confined : Bool
  first : β
  second : β

structure TxId where
  text : String
  nonempty : text ≠ ""

structure Env where
  txId : TxId
  error : String
  next : WriteOutcome
  stagedJournal : WriteOutcome
  switchingJournal : WriteOutcome
  prev : WriteOutcome
  current : WriteOutcome
  probationJournal : WriteOutcome
  confirmedJournal : WriteOutcome
  restore : WriteOutcome
  rolledBackJournal : WriteOutcome
  started : Bool
  survives : Bool
  stopping : Bool
  restarted : Bool

section

variable {β : Type} (d : Digest β) (h : Host)

def save (j : Journal) (o : WriteOutcome) : Proc (Installation β) Bool :=
  .replace o fun f => { f with journal := j }

def stopWorker : Proc (Installation β) Unit := .op fun f => { f with alive := false }

def startWorker (started : Bool) : Proc (Installation β) Bool := do
  .op fun f => { f with alive := f.alive || started }
  return started

def stageBinary (c : Candidate β) (x : Env) : Proc (Installation β) Bool := do
  if c.expect = "" ∨ !c.confined ∨ d.sha c.first ≠ c.expect then return false
  else
    let written ← .replace x.next fun f => { f with next := some c.second }
    if !written then return false
    else if d.sha c.second ≠ d.sha c.first then return false
    else
      .op fun f => { f with staged := (c.second, c.expect) :: f.staged }
      return true

/-- The old bytes go to the slot before the candidate replaces them. -/
def activate (candidate : β) (x : Env) : Proc (Installation β) Bool := do
  let kept ← .replace x.prev fun f => { f with prev := some f.worker }
  if !kept then return false
  else .replace x.current fun f => { f with worker := candidate }

def restoreVerified (digest : String) (o : WriteOutcome) : Proc (Installation β) Bool := do
  if !hexDigest digest then return false
  else
    match ← .read Installation.prev with
    | none => return false
    | some b =>
      if d.sha b ≠ digest then return false
      else .replace o fun f => { f with worker := b }

def identifies (j : Journal) : Bool := j.current == h.workerBin && j.prevPath == h.prevPath

def restoreOld (j : Journal) (o : WriteOutcome) : Proc (Installation β) Bool := do
  let current ← .read Installation.worker
  if d.sha current = j.oldSha then return true
  else restoreVerified d j.oldSha o

def restoreJournaledWorker (j : Journal) (o : WriteOutcome) : Proc (Installation β) Bool := do
  if !identifies h j ∨ j.oldSha.length ≠ 64 then return false
  else restoreOld d j o

def failedActivation (j : Journal) (reason : String) (x : Env) : Proc (Installation β) Response := do
  stopWorker
  let restored ← restoreJournaledWorker d h j x.restore
  if !restored then
    return ⟨false, reason ++ "; recovery could not be verified: " ++ x.error, "recovery_failed"⟩
  else
    let saved ← save { j with stage := .rolledBack, reason } x.rolledBackJournal
    if !saved then
      let _ ← startWorker x.restarted
      return ⟨false, reason ++ "; recovery journal could not be persisted", "recovery_failed"⟩
    else if x.stopping then return ⟨false, reason, "rolled_back"⟩
    else
      let started ← startWorker x.restarted
      if !started then
        return ⟨false, reason ++ "; previous worker did not start: " ++ x.error, "recovery_failed"⟩
      else return ⟨false, reason, "rolled_back"⟩

def probation (j : Journal) (x : Env) : Proc (Installation β) Response := do
  let saved ← save { j with stage := .probation } x.probationJournal
  if !saved then
    failedActivation d h { j with stage := .probation } "probation journal could not be persisted" x
  else
    let started ← startWorker x.started
    if !started then
      failedActivation d h { j with stage := .probation } ("candidate start failed: " ++ x.error) x
    else if !x.survives then
      failedActivation d h { j with stage := .probation } "new worker failed local probation" x
    else
      let confirmed ← save { j with stage := .confirmed } x.confirmedJournal
      if !confirmed then return ⟨false, x.error, "local_probation"⟩
      else return ⟨true, "activated", "confirmed"⟩

def switchOver (candidate : β) (x : Env) : Proc (Installation β) Response := do
  let old ← .read Installation.worker
  let j : Journal :=
    { txId := x.txId.text, stage := .staged, current := h.workerBin, prevPath := h.prevPath
      oldSha := d.sha old, newSha := d.sha candidate, reason := "" }
  let saved ← save j x.stagedJournal
  if !saved then return ⟨false, x.error, ""⟩
  else
    let switching ← save { j with stage := .switching } x.switchingJournal
    if !switching then return ⟨false, x.error, ""⟩
    else
      stopWorker
      let activated ← activate candidate x
      if !activated then
        failedActivation d h { j with stage := .switching } ("activation failed: " ++ x.error) x
      else probation d h j x

def activateUpdate (c : Candidate β) (x : Env) : Proc (Installation β) Response := do
  if c.component ≠ "" ∧ c.component ≠ "worker" then
    return ⟨false, "service-host self replacement requires an independent native recovery installer; only worker activation is supported", "unsupported_component"⟩
  else if c.path = "" ∨ c.expect = "" then return ⟨false, "path and sha256 are required", "blocked"⟩
  else if h.workerBin = "" then return ⟨false, "target binary path is not configured", "blocked"⟩
  else
    let staged ← stageBinary d c x
    if !staged then return ⟨false, x.error, "idle"⟩
    else switchOver d h c.second x

/-- Why `rollbackUpdate` refuses, from the journal and the slot. -/
def rollbackRefusal (component expect error : String) (f : Installation β) : Option Response :=
  let j := f.journal
  if component ≠ "" ∧ component ≠ "worker" then some ⟨false, "unsupported rollback component", ""⟩
  else if !identifies h j then
    some ⟨false, "recovery journal does not identify this managed worker", ""⟩
  else if j.prevPath = "" ∨ j.stage = .idle ∨ j.oldSha.length ≠ 64 then
    some ⟨false, "no previous-good slot in the recovery journal", ""⟩
  else if expect ≠ "" ∧ expect ≠ j.oldSha then
    some ⟨false, "rollback digest is not the journaled previous-good build", ""⟩
  else
    match f.prev with
    | none => some ⟨false, error, ""⟩
    | some b => if d.sha b ≠ j.oldSha then some ⟨false, "previous-good slot digest mismatch", ""⟩ else none

def finishRollback (j : Journal) (x : Env) (restored : Bool) : Proc (Installation β) Response := do
  if !restored then
    let _ ← startWorker x.restarted
    return ⟨false, x.error, ""⟩
  else
    let saved ← save { j with stage := .rolledBack } x.rolledBackJournal
    if !saved then
      let _ ← startWorker x.restarted
      return ⟨false, "previous bytes restored but recovery journal was not persisted", "recovery_failed"⟩
    else
      let started ← startWorker x.restarted
      if !started then return ⟨false, x.error, "rolled_back"⟩
      else return ⟨true, "rolled back", "rolled_back"⟩

def rollbackUpdate (component expect : String) (x : Env) : Proc (Installation β) Response := do
  match ← .read (rollbackRefusal d h component expect x.error) with
  | some refusal => return refusal
  | none =>
    let j ← .read Installation.journal
    stopWorker
    let restored ← restoreVerified d j.oldSha x.restore
    finishRollback j x restored

def incomplete : Stage → Bool
  | .switching | .probation => true
  | _ => false

/-- The result says that it found no error. -/
def recoverJournal (x : Env) : Proc (Installation β) Bool := do
  let j ← .read Installation.journal
  if !incomplete j.stage then return true
  else if !identifies h j ∨ j.oldSha = "" then return false
  else
    let restored ← restoreOld d j x.restore
    if !restored then return false
    else
      save { j with
        stage := .rolledBack, reason := "recovered incomplete transaction on service-host start" }
        x.rolledBackJournal

end

end Monik.ServiceHost
