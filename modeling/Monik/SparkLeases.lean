import Mathlib.Tactic.Linarith
import Monik.SparkRequests
import Monik.SparkWorker

/-! Dispatch leases between two clocks that differ from real time by constants. Time passes between
any two sections; a stretch of code that does not wait reads one time. A job has one deadline, a
restart one start authorization. -/

namespace Monik.SparkLeases
open Runs Protocol Tables Persistence SparkPolicy SparkCoordinator SparkReservation SparkWorker SparkSections SparkRequests

variable {serverTime started clock' : Time} {job : JobEnvelope} {id operation : String} {w : Worker} {jobs : Jobs}
    {j j' : WorkerJob} {t : Task}

structure Setting where
  controller : Time
  host : Time
  deadline : String → Time
  stage : String → StageAuthorization

def Setting.due (K : Setting) (r : ActionRequest) : Time :=
  if r.parentJobId = "" then K.deadline r.jobId else (K.stage r.parentJobId).deadline

/-- A response as the controller sends it at the real time: with its own time, under ids that are not
empty, and with the deadlines of its jobs. -/
def Setting.answer (K : Setting) (clock : Time) (response : ControlResponse) : ControlResponse :=
  { response with
    serverTime := clock + K.controller
    jobs := (response.jobs.filter fun job => job.1.jobId != "").map fun job =>
      ({ job.1 with deadline := some (K.deadline job.1.jobId) }, job.2) }

structure System where
  clock : Time
  process : Process
  socket : List ActionRequest
  broker : SparkBroker.Broker
  begun : List (Time × ActionRequest)

def System.start (clock : Time) : System := ⟨clock, .start, [], .start, []⟩

inductive Event
  | pass (d : Nat)
  | worker (e : SparkWorker.Event)
  | call (i : Nat)
  | deliver (i : Nat)
  | broker (e : SparkBroker.Event)

def System.now (K : Setting) (s : System) : Time := s.clock + K.host

def System.timed (K : Setting) (s : System) : SparkWorker.Event → SparkWorker.Event
  | .send report _ => .send report (s.now K)
  | .respond i response => .respond i (response.map (K.answer s.clock))
  | .authorize i answer =>
    match s.process.tasks[i]? with
    | some (.requesting id _ _) => .authorize i (answer.map fun _ => (K.stage id, s.clock + K.controller))
    | _ => .authorize i answer
  | .go i env => .go i { env with since := s.now K, now := s.now K }
  | e => e

def System.serve (k : Kernel) (s : System) (e : SparkBroker.Event) : System :=
  let b := SparkBroker.step k s.broker e
  let added := b.log.take (b.log.length - s.broker.log.length)
  { s with broker := b, begun := (added.filterMap begins).map (fun r => (s.clock, r)) ++ s.begun }

def step (K : Setting) (k : Kernel) (enc : Encoding) (s : System) : Event → System
  | .pass d => { s with clock := s.clock + d }
  | .worker e => { s with process := SparkWorker.step enc s.process (s.timed K e) }
  | .call i =>
    match s.process.tasks[i]? with
    | some (.waiting _ _ request) => { s with socket := s.socket ++ [request] }
    | _ => s
  | .deliver i =>
    match s.socket[i]? with
    | some request => s.serve k (.execute request)
    | none => s
  | .broker (.execute _) => s
  | .broker (.go i pick env) => s.serve k (.go i pick { env with now := s.now K })
  | .broker e => s.serve k e

variable {K : Setting} {enc : Encoding}

/-! The worker's requests. -/

def Leased (K : Setting) (r : ActionRequest) : Prop :=
  r.deadline - r.issuedAt ≤ sparkDispatchLease ∧ r.deadline + K.controller ≤ K.due r + K.host

def Heard (K : Setting) (clock started serverTime : Time) : Prop :=
  started ≤ clock + K.host ∧ started + K.controller ≤ serverTime + K.host

def Dispatched (K : Setting) (job : JobEnvelope) : Prop :=
  job.jobId ≠ "" ∧ job.deadline = some (K.deadline job.jobId)

theorem leased_localRequest {clock : Time} (dispatched : Dispatched K job) (heard : Heard K clock started serverTime)
    (budget : dispatchExpired job serverTime started (clock + K.host) = false) (params : ModelActionParams) :
    Leased K (SparkWorker.localRequest job params serverTime started (clock + K.host) (clock + K.host)) := by
  obtain ⟨past, later⟩ := heard
  obtain ⟨-, deadline⟩ := dispatched
  simp only [dispatchExpired, deadline, Option.getD_some, Bool.or_eq_false_iff, decide_eq_false_iff_not, not_lt] at budget
  obtain ⟨⟨-, short⟩, -⟩ := budget
  simp only [Leased, SparkWorker.localRequest, remainingBudget, deadline, Option.getD_some, Setting.due, if_true]
  constructor <;> linarith

theorem leased_stageRequest {clock : Time} (named : id ≠ "") (heard : Heard K clock started serverTime)
    (valid : validAuthorization w operation (K.stage id) serverTime) :
    Leased K (SparkWorker.stageRequest id operation (K.stage id) serverTime started (clock + K.host)) := by
  obtain ⟨past, later⟩ := heard
  simp only [validAuthorization, Bool.and_eq_true, Bool.not_eq_true', decide_eq_false_iff_not, decide_eq_true_eq,
    not_lt] at valid
  obtain ⟨⟨⟨⟨⟨⟨issued, -⟩, -⟩, -⟩, -⟩, -⟩, short⟩ := valid
  have budget : stageBudget (K.stage id) serverTime started (clock + K.host) ≤
      (K.stage id).deadline - serverTime - (clock + K.host - started) := min_le_left _ _
  have due : K.due (SparkWorker.stageRequest id operation (K.stage id) serverTime started (clock + K.host)) =
      (K.stage id).deadline := if_neg named
  unfold Leased
  rw [due]
  simp only [SparkWorker.stageRequest]
  constructor <;> linarith

structure JobOk (K : Setting) (id : String) (j : WorkerJob) : Prop where
  named : id ≠ ""
  request : ∀ r, j.request = some r → Leased K r
  stageRequest : ∀ r, j.stageRequest = some r → Leased K r

def JobsOk (K : Setting) (jobs : Jobs) : Prop := ∀ id j, jobs.get id = some j → JobOk K id j

theorem JobsOk.put (ok : JobsOk K jobs) (jobOk : JobOk K id j) : JobsOk K (jobs.put id j) := by
  intro id' j' found
  rw [Map.get_put] at found
  split at found
  · rename_i key
    cases found
    exact key ▸ jobOk
  · exact ok id' j' found

theorem JobsOk.mapValues (ok : JobsOk K jobs) {f : String → WorkerJob → WorkerJob}
    (request : ∀ id j, (f id j).request = j.request) (stage : ∀ id j, (f id j).stageRequest = j.stageRequest) :
    JobsOk K (jobs.mapValues f) := by
  intro id j found
  rw [Map.get_mapValues, Option.map_eq_some_iff] at found
  obtain ⟨old, found, rfl⟩ := found
  have jobOk := ok id old found
  refine ⟨jobOk.named, ?_, ?_⟩
  · rw [request]
    exact jobOk.request
  · rw [stage]
    exact jobOk.stageRequest

theorem JobsOk.erase (ok : JobsOk K jobs) (id : String) : JobsOk K (jobs.erase id) := by
  intro id' j found
  rw [Map.get_erase] at found
  split at found
  · cases found
  · exact ok id' j found

structure HolderOk (K : Setting) (h : Holder) : Prop where
  memory : JobsOk K h.worker.jobs
  disk : JobsOk K h.disk

variable {h : Holder}

theorem HolderOk.put (ok : HolderOk K h) (jobOk : JobOk K id j) : HolderOk K (h.put id j) :=
  ⟨ok.memory.put jobOk, ok.disk⟩

theorem HolderOk.update (ok : HolderOk K h) (found : h.worker.jobs.get id = some j) (request : j'.request = j.request) (stage : j'.stageRequest = j.stageRequest) :
    HolderOk K (h.put id j') := by
  have jobOk := ok.memory id j found
  refine ok.put ⟨jobOk.named, ?_, ?_⟩
  · rw [request]
    exact jobOk.request
  · rw [stage]
    exact jobOk.stageRequest

theorem HolderOk.save (ok : HolderOk K h) (enc : Encoding) (w : WriteOutcome) :
    HolderOk K (saveJobsLocked enc h w).1 := by
  unfold saveJobsLocked
  split
  · exact ok
  · refine ⟨ok.memory, ?_⟩
    rcases w.write_cases h.disk (h.worker.jobs.mapValues fun _ => WorkerJob.saved) with same | same
    · rw [same]
      exact ok.disk
    · rw [same]
      exact ok.memory.mapValues (fun _ _ => rfl) fun _ _ => rfl

theorem HolderOk.updateSave (ok : HolderOk K h)
    (found : h.worker.jobs.get id = some j) (request : j'.request = j.request)
    (stage : j'.stageRequest = j.stageRequest) (enc : Encoding) (w : WriteOutcome) :
    HolderOk K (saveJobsLocked enc (h.put id j') w).1 :=
  (ok.update found request stage).save enc w

theorem jobOk_newJob {clock : Time} (dispatched : Dispatched K job)
    (heard : Heard K clock started serverTime) (w : Worker) (controllerId : String) :
    JobOk K job.jobId (newJob w job controllerId serverTime started (clock + K.host) (clock + K.host)) := by
  have plain : ∀ j : WorkerJob, j.request = none → j.stageRequest = none → JobOk K job.jobId j := by
    intro j request stage
    refine ⟨dispatched.1, ?_, ?_⟩
    · rw [request]
      intro r found
      cases found
    · rw [stage]
      intro r found
      cases found
  unfold newJob
  split
  · exact plain _ rfl rfl
  · split
    · split
      · exact plain _ rfl rfl
      · rename_i params _
        split
        · exact plain _ rfl rfl
        · rename_i budget
          refine ⟨dispatched.1, ?_, ?_⟩
          · intro r found
            cases found
            exact leased_localRequest dispatched heard (Bool.eq_false_iff.mpr budget) params
          · intro r found
            cases found
    · exact plain _ rfl rfl

section

variable (ok : HolderOk K h)
include ok

theorem HolderOk.acceptJob {clock : Time}
    (dispatched : Dispatched K job) (heard : Heard K clock started serverTime) (controllerId : String)
    (w : WriteOutcome) : HolderOk K
      (acceptJob enc h job controllerId serverTime started (clock + K.host) (clock + K.host) w).1 := by
  unfold SparkWorker.acceptJob
  split
  · rename_i existing found
    split
    · exact ok
    · refine ok.updateSave found ?_ ?_ enc w <;> rfl
  · split
    · exact ok
    · have saved := (ok.put (jobOk_newJob dispatched heard h.worker controllerId)).save enc w
      dsimp only
      split
      · exact saved
      · exact ⟨saved.memory.erase _, saved.disk⟩

theorem HolderOk.executeJob (id : String) (stage : Bool) :
    HolderOk K (executeJob h id stage).1 ∧ ∀ r, (executeJob h id stage).2 = some r → Leased K r := by
  have none : HolderOk K h ∧ ∀ r, (Option.none : Option ActionRequest) = some r → Leased K r := by
    refine ⟨ok, fun r found => ?_⟩
    cases found
  unfold SparkWorker.executeJob
  split
  · exact none
  · rename_i j found
    have jobOk := ok.memory _ _ found
    split
    · exact none
    · dsimp only
      split
      · exact none
      · rename_i request taken
        refine ⟨ok.update found rfl rfl, ?_⟩
        intro r same
        cases same
        split at taken
        · exact jobOk.stageRequest _ taken
        · exact jobOk.request _ taken

theorem HolderOk.recordReceipt (id : String) (receipt : JobReceipt) (w : WriteOutcome) :
    HolderOk K (recordReceipt enc h id receipt w) := by
  unfold SparkWorker.recordReceipt
  split
  · exact ok
  · rename_i j found
    refine ok.updateSave found ?_ ?_ enc w <;> rfl

theorem HolderOk.failUnattemptedStageLocked (id code message : String) (w : WriteOutcome) :
    HolderOk K (failUnattemptedStageLocked enc h id code message w) := by
  unfold SparkWorker.failUnattemptedStageLocked
  split
  · exact ok
  · rename_i j found
    split
    · exact ok
    · have saved : HolderOk K (saveJobsLocked enc (h.put id (startNotAttempted enc j code message)) w).1 := by
        refine ok.updateSave found ?_ ?_ enc w <;> rfl
      dsimp only
      split
      · exact saved
      · exact saved.put (ok.memory _ _ found)

theorem HolderOk.renewStage (id : String) (w : WriteOutcome) : HolderOk K (renewStage enc h id w).1 := by
  unfold SparkWorker.renewStage
  split
  · exact ok
  · rename_i j found
    have jobOk := ok.memory _ _ found
    split
    · exact ok
    · have saved : HolderOk K (saveJobsLocked enc (h.put id { j with renewalAttempted := true }) w).1 := by
        refine ok.updateSave found ?_ ?_ enc w <;> rfl
      dsimp only
      split
      · exact saved.put ⟨jobOk.named, jobOk.request, jobOk.stageRequest⟩
      · exact saved

theorem HolderOk.prepareStage {clock : Time} (heard : Heard K clock started serverTime)
    (valid : validAuthorization h.worker operation (K.stage id) serverTime) (w : WriteOutcome) :
    HolderOk K (prepareStage enc h id operation (K.stage id) serverTime started (clock + K.host) w).1 := by
  unfold SparkWorker.prepareStage
  split
  · exact ok
  · rename_i j found
    have jobOk := ok.memory _ _ found
    dsimp only
    split
    · exact ok.update found rfl rfl
    · have leased := leased_stageRequest jobOk.named heard valid
      have prepared : ∀ r, some (SparkWorker.stageRequest id operation (K.stage id) serverTime started
          (clock + K.host)) = some r → Leased K r := by
        intro r same
        cases same
        exact leased
      have saved := (ok.put (j := { j with
        stage := some (K.stage id)
        stageRequest := some (SparkWorker.stageRequest id operation (K.stage id) serverTime started (clock + K.host)) })
        ⟨jobOk.named, jobOk.request, prepared⟩).save enc w
      split
      · exact saved
      · refine saved.put ⟨jobOk.named, jobOk.request, ?_⟩
        intro r same
        cases same

theorem HolderOk.endRenewal (id : String) (failure : Failure) (w : WriteOutcome) :
    HolderOk K (endRenewal enc h id failure w) := by
  unfold SparkWorker.endRenewal
  split
  · exact ok
  · rename_i j found
    have put : HolderOk K (h.put id { j with stageRenewing := false }) := ok.update found rfl rfl
    exact put.failUnattemptedStageLocked id failure.1 failure.2 w

theorem HolderOk.recordResponse (report : LiveReport) (response : ControlResponse) (w : WriteOutcome)
    : HolderOk K (recordResponse enc h report response w) := by
  have request : ∀ id j, (acknowledge report response id j).request = j.request := by
    intro id j
    unfold acknowledge
    split <;> rfl
  have stage : ∀ id j, (acknowledge report response id j).stageRequest = j.stageRequest := by
    intro id j
    unfold acknowledge
    split <;> rfl
  have answered : HolderOk K { h with worker := { h.worker with
      control := response.control, jobs := h.worker.jobs.mapValues (acknowledge report response) } } :=
    ⟨ok.memory.mapValues request stage, ok.disk⟩
  exact answered.save enc w

theorem HolderOk.reconcilePending (enc : Encoding) (w : String → WriteOutcome) :
    HolderOk K (reconcilePending enc h w).1 := by
  have failed : ∀ interrupted : List (String × WorkerJob), HolderOk K (interrupted.foldl (fun h e =>
      SparkWorker.failUnattemptedStageLocked enc h e.1 "stage_authorization_interrupted"
        "Start stage was never durably prepared; no later start was attempted" (w e.1)) h) := by
    intro interrupted
    induction interrupted generalizing h with
    | nil => exact ok
    | cons e rest ih => exact ih (ok.failUnattemptedStageLocked e.1 _ _ (w e.1))
  exact failed _

end

/-! The tasks of the worker. -/

def TaskOk (K : Setting) (clock : Time) : Task → Prop
  | .polling _ started | .requesting _ _ started => started ≤ clock + K.host
  | .answered _ started response =>
    Heard K clock started response.serverTime ∧ ∀ job ∈ response.jobs, Dispatched K job.1
  | .accepting job _ serverTime started => Heard K clock started serverTime ∧ Dispatched K job
  | .authorized id _ started auth serverTime => Heard K clock started serverTime ∧ auth = K.stage id
  | .waiting _ _ request => Leased K request
  | .executing .. | .reconciling .. | .renewing .. | .ending .. => True

theorem Heard.later {clock : Time} (heard : Heard K clock started serverTime) (le : clock ≤ clock') :
    Heard K clock' started serverTime :=
  ⟨by linarith [heard.1], heard.2⟩

theorem TaskOk.later {clock : Time} (ok : TaskOk K clock t) (le : clock ≤ clock') : TaskOk K clock' t := by
  cases t with
  | polling | requesting =>
    simp only [TaskOk] at ok ⊢
    linarith
  | answered | accepting | authorized => exact ⟨ok.1.later le, ok.2⟩
  | waiting => exact ok
  | executing | reconciling | renewing | ending => trivial

theorem taskOk_go (enc : Encoding) (ok : HolderOk K h) {clock : Time} (taskOk : TaskOk K clock t)
    (env : SparkWorker.Env) : HolderOk K (t.go enc h { env with since := clock + K.host, now := clock + K.host }).1 ∧
      ∀ t' ∈ (t.go enc h { env with since := clock + K.host, now := clock + K.host }).2, TaskOk K clock t' := by
  cases t with
  | polling report started =>
    refine ⟨ok, fun t' mem => ?_⟩
    rw [List.mem_singleton.mp mem]
    exact taskOk
  | answered report started response =>
    refine ⟨ok.recordResponse report response env.save, fun t' mem => ?_⟩
    obtain ⟨job, found, rfl⟩ := List.mem_map.mp mem
    exact ⟨taskOk.1, taskOk.2 job found⟩
  | accepting job controllerId serverTime started =>
    refine ⟨ok.acceptJob taskOk.2 taskOk.1 controllerId env.save, fun t' mem => ?_⟩
    simp only [Task.go] at mem
    split at mem
    · rw [List.mem_singleton.mp mem]
      trivial
    · cases mem
  | executing id stage renewal =>
    have executed := ok.executeJob id stage
    refine ⟨executed.1, fun t' mem => ?_⟩
    simp only [Task.go, List.mem_append, Option.mem_toList, Option.map_eq_some_iff] at mem
    rcases mem with ⟨request, taken, rfl⟩ | ⟨failure, -, rfl⟩
    · exact executed.2 request taken
    · trivial
  | waiting id stage request =>
    refine ⟨ok.recordReceipt id _ env.save, fun t' mem => ?_⟩
    cases mem
  | reconciling id =>
    refine ⟨ok, fun t' mem => ?_⟩
    rw [List.mem_singleton.mp mem]
    trivial
  | renewing id =>
    refine ⟨ok.renewStage id env.save, fun t' mem => ?_⟩
    simp only [Task.go, Option.mem_toList, Option.map_eq_some_iff] at mem
    obtain ⟨operation, -, rfl⟩ := mem
    exact le_refl _
  | requesting id operation started =>
    refine ⟨ok, fun t' mem => ?_⟩
    rw [List.mem_singleton.mp mem]
    exact taskOk
  | authorized id operation started auth serverTime =>
    obtain ⟨heard, rfl⟩ := taskOk
    simp only [Task.go]
    split
    · rename_i valid
      refine ⟨ok.prepareStage heard valid env.save, fun t' mem => ?_⟩
      split at mem
      · rw [List.mem_singleton.mp mem]
        trivial
      · rw [List.mem_singleton.mp mem]
        trivial
    · refine ⟨ok, fun t' mem => ?_⟩
      rw [List.mem_singleton.mp mem]
      trivial
  | ending id failure =>
    refine ⟨ok.endRenewal id failure env.save, fun t' mem => ?_⟩
    cases mem

structure ProcessOk (K : Setting) (clock : Time) (p : Process) : Prop where
  memory : ∀ w, p.worker = some w → JobsOk K w.jobs
  disk : JobsOk K p.disk
  tasks : ∀ t ∈ p.tasks, TaskOk K clock t

theorem processOk_start (clock : Time) : ProcessOk K clock .start := by
  refine ⟨?_, ?_, ?_⟩
  · intro w found
    cases found
  · intro id j found
    cases found
  · intro t mem
    cases mem

variable {clock : Time} {p : Process}

theorem ProcessOk.later (ok : ProcessOk K clock p) (le : clock ≤ clock') : ProcessOk K clock' p :=
  ⟨ok.memory, ok.disk, fun t mem => (ok.tasks t mem).later le⟩

theorem ProcessOk.follow (ok : ProcessOk K clock p) (i : Nat) {tasks : List Task}
    (tasksOk : ∀ t ∈ tasks, TaskOk K clock t) : ProcessOk K clock (p.follow i tasks) := by
  refine ⟨ok.memory, ok.disk, fun t mem => ?_⟩
  simp only [Process.follow, List.mem_append] at mem
  rcases mem with (before | new) | after
  · exact ok.tasks t (List.mem_of_mem_take before)
  · exact tasksOk t new
  · exact ok.tasks t (List.mem_of_mem_drop after)

theorem ProcessOk.release (ok : ProcessOk K clock p) (holderOk : HolderOk K h) : ProcessOk K clock (p.release h) := by
  refine ⟨fun w found => ?_, holderOk.disk, ok.tasks⟩
  cases found
  exact holderOk.memory

theorem taskOk_respond (taskOk : TaskOk K clock t) (response : Option ControlResponse) :
    ∀ t' ∈ t.respond (response.map (K.answer clock)), TaskOk K clock t' := by
  intro t' mem
  cases t with
  | polling report started =>
    simp only [Task.respond, Option.mem_toList, Option.map_eq_some_iff] at mem
    obtain ⟨_, ⟨response, -, rfl⟩, rfl⟩ := mem
    have past : started ≤ clock + K.host := taskOk
    refine ⟨⟨past, ?_⟩, ?_⟩
    · simp only [Setting.answer]
      linarith
    · intro job found
      obtain ⟨given, kept, rfl⟩ := List.mem_map.mp found
      have named := (List.mem_filter.mp kept).2
      exact ⟨by simpa using named, rfl⟩
  | answered | accepting | executing | waiting | reconciling | renewing | requesting | authorized | ending =>
    rw [List.mem_singleton.mp mem]
    exact taskOk

theorem taskOk_authorize
    (taskOk : TaskOk K clock (.requesting id operation started)) (answer : Option (StageAuthorization × Time)) :
    ∀ t ∈ (Task.requesting id operation started).authorize
      (answer.map fun _ => (K.stage id, clock + K.controller)), TaskOk K clock t := by
  intro t mem
  have past : started ≤ clock + K.host := taskOk
  cases answer with
  | none =>
    rw [List.mem_singleton.mp mem]
    trivial
  | some given =>
    rw [List.mem_singleton.mp mem]
    refine ⟨⟨past, ?_⟩, rfl⟩
    linarith

theorem ProcessOk.serve {s : System} (ok : ProcessOk K s.clock s.process)
    (alive : s.process.worker = some w) (e : SparkWorker.Event) :
    ProcessOk K s.clock (s.process.serve enc w (s.timed K e)) := by
  have holderOk : HolderOk K ⟨w, s.process.disk⟩ := ⟨ok.memory w alive, ok.disk⟩
  cases e with
  | openWorker => exact ok
  | send report now =>
    refine ⟨ok.memory, ok.disk, fun t mem => ?_⟩
    rcases List.mem_append.mp mem with old | new
    · exact ok.tasks t old
    · rw [List.mem_singleton.mp new]
      exact le_refl _
  | respond i response =>
    dsimp only [System.timed, Process.serve]
    split
    · exact ok
    · rename_i t found
      exact ok.follow i (taskOk_respond (ok.tasks t (List.mem_of_getElem? found)) response)
  | authorize i answer =>
    dsimp only [System.timed]
    split
    · rename_i id operation started found
      simp only [Process.serve, found]
      exact ok.follow i (taskOk_authorize (ok.tasks _ (List.mem_of_getElem? found)) answer)
    · rename_i other
      dsimp only [Process.serve]
      split
      · exact ok
      · rename_i t found
        refine ok.follow i fun t' mem => ?_
        have same : t.authorize answer = [t] := by
          cases t with
          | requesting id operation started => exact absurd found (other id operation started)
          | polling | answered | accepting | executing | waiting | reconciling | renewing | authorized | ending => rfl
        rw [same] at mem
        rw [List.mem_singleton.mp mem]
        exact ok.tasks t (List.mem_of_getElem? found)
  | reconcilePending outcome =>
    have released := ok.release (holderOk.reconcilePending enc outcome)
    refine ⟨released.memory, released.disk, fun t mem => ?_⟩
    rcases List.mem_append.mp mem with old | new
    · exact ok.tasks t old
    · rcases List.mem_append.mp new with unresolved | renewable
      · obtain ⟨e, -, rfl⟩ := List.mem_map.mp unresolved
        trivial
      · obtain ⟨e, -, rfl⟩ := List.mem_map.mp renewable
        trivial
  | go i env =>
    dsimp only [System.timed, Process.serve]
    split
    · exact ok
    · rename_i t found
      have gone := taskOk_go enc holderOk (ok.tasks t (List.mem_of_getElem? found)) env
      exact (ok.release gone.1).follow i gone.2
  | crash =>
    refine ⟨fun w found => ?_, ok.disk, fun t mem => ?_⟩
    · cases found
    · cases mem

theorem ProcessOk.step {s : System} (ok : ProcessOk K s.clock s.process) (e : SparkWorker.Event) :
    ProcessOk K s.clock (SparkWorker.step enc s.process (s.timed K e)) := by
  unfold SparkWorker.step
  split
  · rename_i w alive
    exact ok.serve alive e
  · split
    · refine ⟨fun w found => ?_, ok.disk, ok.tasks⟩
      cases found
      exact ok.disk
    · exact ok

/-! The whole system. -/

def Timely (K : Setting) (e : Time × ActionRequest) : Prop :=
  e.1 + K.controller < K.due e.2 ∧ e.2.deadline - e.2.issuedAt ≤ sparkDispatchLease

structure SystemOk (K : Setting) (s : System) : Prop where
  process : ProcessOk K s.clock s.process
  socket : ∀ r ∈ s.socket, Leased K r
  broker : BrokerOk (Leased K) s.broker
  begun : ∀ e ∈ s.begun, e.2.isLocal = false → Timely K e

theorem systemOk_start (clock : Time) : SystemOk K (.start clock) := by
  refine ⟨processOk_start clock, ?_, brokerOk_start, ?_⟩
  · intro r mem
    cases mem
  · intro e mem
    cases mem

variable {s : System}

theorem SystemOk.serve (ok : SystemOk K s) (k : Kernel) (e : SparkBroker.Event)
    (given : ∀ r, e = .execute r → Leased K r) (reads : ∀ i pick env, e = .go i pick env → env.now = s.now K) :
    SystemOk K (s.serve k e) := by
  have served := served_step k ok.broker e given
  obtain ⟨added, log, begins⟩ := served.log
  refine ⟨ok.process, ok.socket, served.ok, fun x mem nonlocal => ?_⟩
  simp only [System.serve, log, List.length_append, Nat.add_sub_cancel, List.take_left, List.mem_append,
    List.mem_map, List.mem_filterMap] at mem
  rcases mem with ⟨r, ⟨entry, new, began⟩, rfl⟩ | old
  · have begun := begins entry new
    cases e with
    | go i pick env =>
      obtain ⟨⟨-, live⟩, early⟩ := begun r began
      rw [reads i pick env rfl] at early
      rcases live with isLocal | leased
      · rw [isLocal] at nonlocal
        cases nonlocal
      · refine ⟨?_, leased.1⟩
        have ends := leased.2
        simp only [System.now] at early
        linarith
    | _ => exact begun.elim
  · exact ok.begun x old nonlocal

theorem SystemOk.step (ok : SystemOk K s) (k : Kernel) (e : Event) : SystemOk K (step K k enc s e) := by
  cases e with
  | pass d =>
    have later : s.clock ≤ s.clock + d := by
      have := Int.natCast_nonneg d
      linarith
    exact ⟨ok.process.later later, ok.socket, ok.broker, ok.begun⟩
  | worker e => exact ⟨ok.process.step e, ok.socket, ok.broker, ok.begun⟩
  | call i =>
    dsimp only [SparkLeases.step]
    split
    · rename_i id stage request found
      refine ⟨ok.process, fun r mem => ?_, ok.broker, ok.begun⟩
      rcases List.mem_append.mp mem with old | new
      · exact ok.socket r old
      · rw [List.mem_singleton.mp new]
        exact ok.process.tasks _ (List.mem_of_getElem? found)
    · exact ok
  | deliver i =>
    dsimp only [SparkLeases.step]
    split
    · rename_i request found
      refine ok.serve k _ (fun r same => ?_) fun i pick env same => ?_
      · cases same
        exact ok.socket _ (List.mem_of_getElem? found)
      · cases same
    · exact ok
  | broker e =>
    cases e with
    | execute r => exact ok
    | go i pick env =>
      refine ok.serve k _ (fun r same => ?_) fun i pick env same => ?_
      · cases same
      · cases same
        rfl
    | _ =>
      refine ok.serve k _ (fun r same => ?_) fun i pick env same => ?_
      · cases same
      · cases same

/-- For any offsets of the clocks, whatever begins for the controller begins before its clock reaches the
deadline of the job or stage. -/
theorem effects_begin_before_deadline (K : Setting) (k : Kernel) (enc : Encoding) (clock : Time) (events : List Event) :
    ∀ e ∈ (run (step K k enc) (.start clock) events).begun, e.2.isLocal = false →
      e.1 + K.controller < K.due e.2 ∧ e.2.deadline - e.2.issuedAt ≤ sparkDispatchLease := by
  have ok : SystemOk K (run (step K k enc) (.start clock) events) :=
    run_preserves (SystemOk K) (fun _ e ok => ok.step k e) (systemOk_start clock) events
  exact ok.begun

/-! A stop that crosses two clocks: the controller is an hour ahead of the host, the response takes ten
seconds, and five more pass before the broker reads its request. -/

def aheadByAnHour : Setting :=
  ⟨2 * hour, hour, fun _ => 12 * hour + 30 * second, fun _ => ⟨"", "", true, ⟨"", "", 0, "", "", false⟩, 0, 0⟩⟩

def stopEnvelope : JobEnvelope where
  jobId := "job"
  operationId := "op"
  action := .modelStop
  schemaVersion := schemaVersion
  notBefore := 0
  deadline := none
  params := [("profile_id", .str "model"),
    ("profile_revision", .str "sha256:0000000000000000000000000000000000000000000000000000000000000000"),
    ("expected_generation", .int 1), ("control_epoch", .str "epoch"), ("expected_agent_session", .str "session"),
    ("confirm_disruption", .bool true)]

def runningModel : Instance := ⟨.running, "instance", 7, true, false, none⟩

def stopPolicy : Policy where
  enabled := true
  profiles := [{ id := "model", allowedActions := [.modelStop], observationOnly := false, kind := .systemdSystem
                 definitionHash := "definition", sharedLock := "", backendRevision := "", exclusionGroups := []
                 requiredMemoryBytes := 0, osHeadroomBytes := 0, blockUnknownMemory := false, port := 0
                 revision := "sha256:0000000000000000000000000000000000000000000000000000000000000000" }]
  hash := "policy"
  existing_ungrouped := by decide

def runningAnswers : SparkCoordinator.Env where
  now := 0
  final := 11 * hour
  save := .done
  inspect _ := some runningModel
  definition := some "definition"
  finalDefinition := some "definition"
  weights := none
  available := 0
  portFree := true
  sharedLock := true
  effect := some runningModel
  timeout := false
  boot := none
  snapshot := none
  backend := none

def stopAcrossClocks : List Event :=
  [.worker (.openWorker "controller" "session"), .broker (.openCoordinator stopPolicy "epoch" .done),
    .broker (.bind "session"), .worker (.send ⟨"session", 0, none, []⟩ 0), .pass 10000000000,
    .worker (.respond 0 (some ⟨true, [], [(stopEnvelope, "controller")], 0⟩)),
    .worker (.go 0 ⟨0, 0, .done, none⟩), .worker (.go 0 ⟨0, 0, .done, none⟩), .worker (.go 0 ⟨0, 0, .done, none⟩),
    .call 0, .pass 5000000000, .deliver 0, .broker (.go 0 0 runningAnswers), .broker (.go 0 0 runningAnswers)]

def plainTexts : Encoding := ⟨fun _ => 0, fun _ => ""⟩

def stopKernel : Kernel :=
  ⟨fun r => r.jobId, fun id => id,
    ⟨fun _ _ i => i, fun _ _ => true, fun _ _ _ => true, fun _ _ _ _ => true, fun _ _ => true, fun _ _ => true⟩⟩

def stopRequest : ActionRequest :=
  ⟨"job", "op", .modelStop,
    ⟨"model", "sha256:0000000000000000000000000000000000000000000000000000000000000000", 1, "epoch", "session", true⟩,
    11 * hour + 10 * second, 11 * hour + 20 * second, "", false⟩

theorem stopAcrossClocks_begun :
    (run (step aheadByAnHour stopKernel plainTexts) (.start (10 * hour)) stopAcrossClocks).begun =
      [(10 * hour + 15 * second, stopRequest)] := by
  decide +kernel

theorem effects_begin_before_deadline_of_stop :
    (run (step aheadByAnHour stopKernel plainTexts) (.start (10 * hour)) stopAcrossClocks).begun =
      [(10 * hour + 15 * second, stopRequest)] ∧
    10 * hour + 15 * second + aheadByAnHour.controller < aheadByAnHour.due stopRequest := by
  refine ⟨stopAcrossClocks_begun, ?_⟩
  have mem : (10 * hour + 15 * second, stopRequest) ∈
      (run (step aheadByAnHour stopKernel plainTexts) (.start (10 * hour)) stopAcrossClocks).begun := by
    exact List.mem_singleton.mpr rfl
  exact (effects_begin_before_deadline aheadByAnHour stopKernel plainTexts (10 * hour) stopAcrossClocks _ mem rfl).1

end Monik.SparkLeases
