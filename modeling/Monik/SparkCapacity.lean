import Mathlib.Data.Nat.Digits.Defs
import Monik.SparkBroker
import Monik.SparkWorker

/-! Room in the two control journals: the worker keeps every accepted job, up to 2048; the
coordinator forgets completed attempts of the day before, where `Execute` admits an attempt itself.
-/

namespace Monik.SparkCapacity
open Runs Protocol Tables Persistence SparkPolicy SparkReceipts SparkWorker

variable {w : Worker} {job : JobEnvelope} {controllerId : String} {serverTime started since now t : Time}
    {enc : Encoding} {h : Holder} {p : Process} {i n : Nat} {jobs : Jobs} {k : Kernel} {r : ActionRequest}
    {env : SparkCoordinator.Env}

/-! The worker. -/

def Prepared (p : Process) (id : String) : Prop :=
  ∃ w j, p.worker = some w ∧ w.jobs.get id = some j ∧ j.request.isSome ∧ p.disk.get id = some j.saved

structure Acceptable (w : Worker) (job : JobEnvelope) (controllerId : String)
    (serverTime started since : Time) : Prop where
  fresh : w.jobs.get job.jobId = none
  controller : controllerId = w.controllerId
  version : job.schemaVersion = schemaVersion
  model : job.action.isModel
  control : w.control
  params : (decodeModelActionParams job.params).isSome
  budget : dispatchExpired job serverTime started since = false

theorem Acceptable.newJob_request (h : Acceptable w job controllerId serverTime started since) (now : Time) :
    (newJob w job controllerId serverTime started since now).request.isSome := by
  obtain ⟨params, decoded⟩ := Option.isSome_iff_exists.mp h.params
  simp [newJob, h.controller, h.version, h.model, h.control, decoded, h.budget]

def Room (enc : Encoding) (w : Worker) (id : String) (j : WorkerJob) : Prop :=
  w.jobs.size < jobLimit ∧ enc.bytes (w.jobs.put id j) ≤ byteLimit

theorem saveJobsLocked_room (size : h.worker.jobs.size ≤ jobLimit)
    (bytes : enc.bytes h.worker.jobs ≤ byteLimit) (w : WriteOutcome) : saveJobsLocked enc h w =
      ({ h with disk := w.write h.disk (h.worker.jobs.mapValues fun _ => WorkerJob.saved) }, w == .done) := by
  rw [saveJobsLocked, if_neg]
  simp only [not_or, not_lt]
  exact ⟨size, bytes⟩

theorem saveJobsLocked_full (bytes : byteLimit < enc.bytes h.worker.jobs) (w : WriteOutcome) :
    saveJobsLocked enc h w = (h, false) := by
  rw [saveJobsLocked, if_pos (.inr bytes)]

@[simp] theorem saveJobsLocked_worker (enc : Encoding) (h : Holder) (w : WriteOutcome) :
    (saveJobsLocked enc h w).1.worker = h.worker := by
  unfold saveJobsLocked
  split <;> rfl

theorem acceptJob_room (job : JobEnvelope) (fresh : h.worker.jobs.get job.jobId = none)
    (room : Room enc h.worker job.jobId (newJob h.worker job controllerId serverTime started since now)) :
    acceptJob enc h job controllerId serverTime started since now .done =
      (let j := newJob h.worker job controllerId serverTime started since now
       let jobs := h.worker.jobs.put job.jobId j
       (⟨{ h.worker with jobs }, jobs.mapValues fun _ => WorkerJob.saved⟩, j.request.isSome)) := by
  have size : (h.worker.jobs.put job.jobId
      (newJob h.worker job controllerId serverTime started since now)).size ≤ jobLimit := by
    rw [Map.size_put fresh]
    exact room.1
  have saved := saveJobsLocked_room (h := h.put job.jobId _) size room.2 .done
  simp only [acceptJob, fresh, ge_iff_le, Nat.not_le.mpr room.1, if_false, saved]
  rfl

theorem acceptJob_dropped (fresh : h.worker.jobs.get job.jobId = none)
    (full : ¬ Room enc h.worker job.jobId (newJob h.worker job controllerId serverTime started since now))
    (w : WriteOutcome) :
    (acceptJob enc h job controllerId serverTime started since now w).1.worker.jobs.get job.jobId = none ∧
      (acceptJob enc h job controllerId serverTime started since now w).2 = false := by
  by_cases many : h.worker.jobs.size ≥ jobLimit
  · simp [acceptJob, fresh, if_pos many]
  · have bytes : byteLimit < enc.bytes (h.worker.jobs.put job.jobId
        (newJob h.worker job controllerId serverTime started since now)) := by
      by_contra small
      exact full ⟨not_le.mp many, not_lt.mp small⟩
    have failed := saveJobsLocked_full (h := h.put job.jobId _) bytes w
    simp only [acceptJob, fresh, if_neg many, failed]
    refine ⟨?_, rfl⟩
    simp [Holder.withJobs, Holder.put, Map.get_erase]

theorem step_accepting (enc : Encoding) (running : p.worker = some w)
    (task : p.tasks[i]? = some (.accepting job controllerId serverTime started)) (env : SparkWorker.Env) :
    let accepted := acceptJob enc ⟨w, p.disk⟩ job controllerId serverTime started env.since env.now env.save
    (step enc p (.go i env)).worker = some accepted.1.worker ∧ (step enc p (.go i env)).disk = accepted.1.disk := by
  simp only [step, running, Process.serve, task, Task.go]
  exact ⟨rfl, rfl⟩

theorem prepared_iff_room (running : p.worker = some w)
    (task : p.tasks[i]? = some (.accepting job controllerId serverTime started)) {env : SparkWorker.Env}
    (written : env.save = .done) (acceptable : Acceptable w job controllerId serverTime started env.since) :
    Prepared (step enc p (.go i env)) job.jobId ↔
      Room enc w job.jobId (newJob w job controllerId serverTime started env.since env.now) := by
  obtain ⟨memory, disk⟩ := step_accepting enc running task env
  rw [written] at memory disk
  constructor
  · rintro ⟨w', j, running', found, -, -⟩
    by_contra full
    have dropped := (acceptJob_dropped (h := ⟨w, p.disk⟩) acceptable.fresh full .done).1
    rw [memory, Option.some.injEq] at running'
    rw [running', found] at dropped
    cases dropped
  · intro room
    rw [acceptJob_room (h := ⟨w, p.disk⟩) job acceptable.fresh room] at memory disk
    refine ⟨_, newJob w job controllerId serverTime started env.since env.now, memory, ?_,
      acceptable.newJob_request env.now, ?_⟩
    · exact Map.get_put_self _ _ _
    · rw [disk, Map.get_mapValues, Map.get_put_self]
      rfl

/-! A history that fills the worker's journal: one stop after another is delivered, executed and
acknowledged. -/

def jobName (n : Nat) : String := String.ofList ('j' :: (Nat.digits 2 n).map fun d => Char.ofNat (48 + d))

theorem jobName_injective : Function.Injective jobName := by
  have digits : ∀ n, ((jobName n).toList.tail.map fun c => c.toNat - 48) = Nat.digits 2 n := by
    intro n
    simp only [jobName, String.toList_ofList, List.tail_cons, List.map_map]
    refine (List.map_congr_left fun d mem => ?_).trans (List.map_id _)
    have small : d < 2 := Nat.digits_lt_base (by decide) mem
    have digit : d = 0 ∨ d = 1 := by omega
    obtain rfl | rfl := digit <;> rfl
  intro n m same
  rw [← Nat.digits_inj_iff (b := 2), ← digits n, ← digits m, same]

def stopParams : Fields :=
  [("profile_id", .str "model"),
    ("profile_revision", .str "sha256:0000000000000000000000000000000000000000000000000000000000000000"),
    ("expected_generation", .int 1), ("control_epoch", .str "epoch"), ("expected_agent_session", .str "session"),
    ("confirm_disruption", .bool true)]

def stopJob (n : Nat) (issued : Time) : JobEnvelope :=
  ⟨jobName n, jobName n, .modelStop, schemaVersion, issued, some (issued + 30 * second), stopParams⟩

def stopReceipt (n : Nat) : JobReceipt :=
  ⟨jobName n, jobName n, .succeeded, "model_stopped", "model_stopped", "", false, [], none, none, none⟩

def kilobytes : Encoding := ⟨fun jobs => 1024 * jobs.size, fun _ => ""⟩

def envAt (t : Time) (receipt : Option JobReceipt) : SparkWorker.Env := ⟨t, t, .done, receipt⟩

def exchange (t : Time) (receipts : List JobReceipt) (jobs : List JobEnvelope) : List SparkWorker.Event :=
  [.send ⟨"session", t, none, receipts⟩ t,
    .respond 0 (some ⟨true, receipts.map JobReceipt.jobId, jobs.map fun job => (job, "controller"), t⟩),
    .go 0 (envAt t none)]

def stopCycle (t : Time) (n : Nat) : List SparkWorker.Event :=
  exchange t [] [stopJob n t] ++
    [.go 0 (envAt t none), .go 0 (envAt t none), .go 0 (envAt t (some (stopReceipt n)))] ++
    exchange t [stopReceipt n] []

def stopHistory (t : Time) : Nat → List SparkWorker.Event
  | 0 => [.openWorker "controller" "session"]
  | n + 1 => stopHistory t n ++ stopCycle t n

theorem stopParams_decode : decodeModelActionParams stopParams =
    some ⟨"model", "sha256:0000000000000000000000000000000000000000000000000000000000000000", 1, "epoch", "session",
      true⟩ := by decide

def Settled (t : Time) (j : WorkerJob) : Prop :=
  j.receipt.status.terminal ∧ j.acked ∧ j.envelope.deadline = some t

def Stands (p : Process) (w : Worker) (tasks : List Task) : Prop := p.worker = some w ∧ p.tasks = tasks

theorem Stands.go {t : Task} {rest : List Task} (h : Stands p w (t :: rest))
    (enc : Encoding) (env : SparkWorker.Env) (w' : Worker) (next : List Task)
    (section_ : (t.go enc ⟨w, p.disk⟩ env).1.worker = w' ∧ (t.go enc ⟨w, p.disk⟩ env).2 = next) :
    Stands (step enc p (.go 0 env)) w' (next ++ rest) := by
  obtain ⟨running, tasks⟩ := h
  obtain ⟨worker, next⟩ := section_
  simp [Stands, step, running, Process.serve, tasks, Process.follow, Process.release, worker, next]

theorem stands_exchange (h : Stands p w []) (t : Time) (receipts : List JobReceipt) (jobs : List JobEnvelope) :
    ∃ w', Stands (run (step kilobytes) p (exchange t receipts jobs)) w'
        (jobs.map fun job => .accepting job "controller" t t) ∧
      w'.controllerId = w.controllerId ∧ w'.control ∧
      w'.jobs = w.jobs.mapValues (acknowledge ⟨"session", t, none, receipts⟩
        ⟨true, receipts.map JobReceipt.jobId, jobs.map fun job => (job, "controller"), t⟩) := by
  let report : LiveReport := ⟨"session", t, none, receipts⟩
  let response : ControlResponse :=
    ⟨true, receipts.map JobReceipt.jobId, jobs.map fun job => (job, "controller"), t⟩
  have sent : Stands (run (step kilobytes) p [.send report t, .respond 0 (some response)]) w
      [.answered report t response] := by
    simp [Stands, run, step, h.1, h.2, Process.serve, Process.follow, Task.respond]
  have answered := sent.go kilobytes (envAt t none)
    { w with control := true, jobs := w.jobs.mapValues (acknowledge report response) }
    (jobs.map fun job => .accepting job "controller" t t) (by simp [Task.go, recordResponse, response])
  rw [List.append_nil] at answered
  exact ⟨_, answered, rfl, rfl, rfl⟩

def stoppedJob (w : Worker) (t : Time) (n : Nat) : WorkerJob :=
  { newJob w (stopJob n t) "controller" t t t t with receipt := stopReceipt n }

theorem newJob_stop (n : Nat) (control : w.control)
    (controller : w.controllerId = "controller") (valid : t ≠ zeroTime) :
    ∃ request, newJob w (stopJob n t) "controller" t t t t =
      { unsupportedJob (stopJob n t) "controller" with
        request := some request
        receipt := ⟨jobName n, jobName n, .accepted, "prepared", "durably prepared typed local request", "", false, [],
          none, none, none⟩ } := by
  have budget : dispatchExpired (stopJob n t) t t t = false := by
    simp [dispatchExpired, remainingBudget, stopJob, valid, second, SparkCoordinator.sparkDispatchLease]
  have params : decodeModelActionParams (stopJob n t).params = _ := stopParams_decode
  have model : (stopJob n t).action.isModel := rfl
  have version : (stopJob n t).schemaVersion = schemaVersion := rfl
  simp [newJob, controller, control, params, budget, model, version, unsupportedJob]
  exact ⟨rfl, rfl⟩

theorem stands_stop (h : Stands p w [.accepting (stopJob n t) "controller" t t]) (control : w.control)
    (controller : w.controllerId = "controller") (valid : t ≠ zeroTime) (fresh : w.jobs.get (jobName n) = none)
    (room : w.jobs.size < jobLimit) :
    Stands (run (step kilobytes) p
        [.go 0 (envAt t none), .go 0 (envAt t none), .go 0 (envAt t (some (stopReceipt n)))])
      { w with jobs := w.jobs.put (jobName n) (stoppedJob w t n) } [] := by
  obtain ⟨request, prepared⟩ := newJob_stop n control controller valid
  have enough : Room kilobytes w (jobName n) (newJob w (stopJob n t) "controller" t t t t) := by
    refine ⟨room, ?_⟩
    simp only [kilobytes, Map.size_put fresh, byteLimit, jobLimit] at room ⊢
    omega
  have accepted := h.go kilobytes (envAt t none)
    { w with jobs := w.jobs.put (jobName n) (newJob w (stopJob n t) "controller" t t t t) }
    [.executing (jobName n) false none] (by
      simp only [Task.go, envAt, acceptJob_room (h := ⟨w, p.disk⟩) (stopJob n t) fresh enough]
      exact ⟨rfl, by rw [prepared]; rfl⟩)
  have taken := accepted.go kilobytes (envAt t none)
    { w with jobs := w.jobs.put (jobName n) { newJob w (stopJob n t) "controller" t t t t with running := true } }
    [.waiting (jobName n) false request] (by
      simp [Task.go, executeJob, prepared, Holder.put, Holder.withJobs, Map.put_put, unsupportedJob])
  have executed := taken.go kilobytes (envAt t (some (stopReceipt n)))
    { w with jobs := w.jobs.put (jobName n) (stoppedJob w t n) } [] (by
      simp [Task.go, recordReceipt, Holder.put, Holder.withJobs, Map.put_put, brokerReceipt, envAt, stoppedJob, prepared,
        unsupportedJob])
  exact executed

structure Filled (t : Time) (n : Nat) (jobs : Jobs) : Prop where
  size : jobs.size = n
  named : ∀ e ∈ jobs, ∃ m < n, e.1 = jobName m
  settled : ∀ e ∈ jobs, Settled (t + 30 * second) e.2

theorem Filled.fresh (h : Filled t n jobs) : jobs.get (jobName n) = none := by
  refine Option.eq_none_iff_forall_ne_some.mpr fun j found => ?_
  obtain ⟨m, small, name⟩ := h.named _ (Map.get_eq_some.mp found)
  have same : n = m := jobName_injective name
  omega

theorem Settled.acknowledge {j : WorkerJob} (h : Settled t j) (report : LiveReport)
    (response : ControlResponse) (id : String) : Settled t (SparkWorker.acknowledge report response id j) := by
  obtain ⟨terminal, acked, deadline⟩ := h
  unfold SparkWorker.acknowledge
  split <;> simp [Settled, terminal, acked, deadline]

theorem Filled.acknowledge (h : Filled t n jobs) (report : LiveReport) (response : ControlResponse) :
    Filled t n (jobs.mapValues (SparkWorker.acknowledge report response)) where
  size := by rw [Map.size_mapValues, h.size]
  named e mem := by
    obtain ⟨j, old, -⟩ := Map.mem_mapValues mem
    exact h.named (e.1, j) old
  settled e mem := by
    obtain ⟨j, old, new⟩ := Map.mem_mapValues mem
    rw [new]
    exact (h.settled _ old).acknowledge report response e.1

theorem acknowledge_stopped (control : w.control)
    (controller : w.controllerId = "controller") (valid : t ≠ zeroTime) :
    Settled (t + 30 * second) (acknowledge ⟨"session", t, none, [stopReceipt n]⟩ ⟨true, [jobName n], [], t⟩ (jobName n)
      (stoppedJob w t n)) := by
  obtain ⟨request, prepared⟩ := newJob_stop n control controller valid
  rw [stoppedJob, prepared]
  simp [acknowledge, unsupportedJob, stopReceipt, WorkerJob.restartStopped, Settled, stopJob, TargetStatus.terminal]

theorem Filled.stopped (h : Filled t n jobs) (control : w.control)
    (controller : w.controllerId = "controller") (valid : t ≠ zeroTime) :
    Filled t (n + 1) ((jobs.put (jobName n) (stoppedJob w t n)).mapValues
      (SparkWorker.acknowledge ⟨"session", t, none, [stopReceipt n]⟩ ⟨true, [jobName n], [], t⟩)) where
  size := by rw [Map.size_mapValues, Map.size_put h.fresh, h.size]
  named e mem := by
    obtain ⟨j, old, -⟩ := Map.mem_mapValues mem
    rcases Table.mem_upsert.mp old with ⟨old, -⟩ | new
    · obtain ⟨m, small, name⟩ := h.named _ old
      exact ⟨m, small.trans n.lt_succ_self, name⟩
    · exact ⟨n, n.lt_succ_self, congrArg Prod.fst new⟩
  settled e mem := by
    obtain ⟨j, old, new⟩ := Map.mem_mapValues mem
    rw [new]
    rcases Table.mem_upsert.mp old with ⟨old, -⟩ | same
    · exact (h.settled _ old).acknowledge _ _ _
    · obtain ⟨name, rfl⟩ := Prod.mk.inj same
      rw [name]
      exact acknowledge_stopped control controller valid

theorem Filled.cycle (h : Filled t n w.jobs) (stands : Stands p w [])
    (controller : w.controllerId = "controller") (valid : t ≠ zeroTime) (room : n < jobLimit) :
    ∃ w', Stands (run (step kilobytes) p (stopCycle t n)) w' [] ∧ w'.controllerId = "controller" ∧
      Filled t (n + 1) w'.jobs := by
  obtain ⟨w₁, delivered, controller₁, control₁, jobs₁⟩ := stands_exchange stands t [] [stopJob n t]
  have filled : Filled t n w₁.jobs := jobs₁ ▸ h.acknowledge _ _
  have stopped := stands_stop delivered control₁ (controller₁.trans controller) valid filled.fresh
    (filled.size.trans_lt room)
  obtain ⟨w₂, settled, controller₂, -, jobs₂⟩ := stands_exchange stopped t [stopReceipt n] []
  refine ⟨w₂, ?_, controller₂.trans (controller₁.trans controller), ?_⟩
  · exact settled
  · rw [jobs₂]
    exact filled.stopped control₁ (controller₁.trans controller) valid

theorem stopHistory_filled (valid : t ≠ zeroTime) (n : Nat) (room : n ≤ jobLimit) :
    ∃ w, Stands (run (step kilobytes) .start (stopHistory t n)) w [] ∧ w.controllerId = "controller" ∧
      Filled t n w.jobs := by
  induction n with
  | zero =>
    refine ⟨⟨"controller", "session", false, Table.empty⟩, ⟨rfl, rfl⟩, rfl, rfl, ?_, ?_⟩
    · intro e mem
      cases mem
    · intro e mem
      cases mem
  | succ n ih =>
    obtain ⟨w, stands, controller, filled⟩ := ih (Nat.le_of_succ_le room)
    rw [stopHistory, run_append]
    exact filled.cycle stands controller valid room

theorem Filled.dropped (h : Filled t jobLimit w.jobs) (stands : Stands p w []) (later : Time) :
    ∃ w', Stands (run (step kilobytes) p (exchange later [] [stopJob jobLimit later] ++ [.go 0 (envAt later none)])) w' [] ∧
      w'.jobs.get (jobName jobLimit) = none := by
  obtain ⟨w', delivered, -, -, jobs⟩ := stands_exchange stands later [] [stopJob jobLimit later]
  have full : Filled t jobLimit w'.jobs := jobs ▸ h.acknowledge _ _
  have dropped : ∀ disk, acceptJob kilobytes ⟨w', disk⟩ (stopJob jobLimit later) "controller" later later later later
      .done = (⟨w', disk⟩, false) := by
    intro disk
    have fresh : w'.jobs.get (stopJob jobLimit later).jobId = none := full.fresh
    have many : w'.jobs.size ≥ jobLimit := full.size.ge
    simp only [acceptJob, fresh, if_pos many]
  have last := delivered.go kilobytes (envAt later none) w' [] (by simp [Task.go, envAt, dropped])
  exact ⟨w', last, full.fresh⟩

theorem next_job_is_dropped :
    let p := run (step kilobytes) .start (stopHistory 0 jobLimit)
    let later := 25 * hour
    (∃ w, p.worker = some w ∧ ∀ e ∈ w.jobs, e.2.receipt.status.terminal ∧ e.2.acked ∧
      ∃ deadline, e.2.envelope.deadline = some deadline ∧ deadline + 24 * hour < later) ∧
    let q := run (step kilobytes) p (exchange later [] [stopJob jobLimit later] ++ [.go 0 (envAt later none)])
    q.tasks = [] ∧ ∃ w, q.worker = some w ∧ w.jobs.get (jobName jobLimit) = none := by
  obtain ⟨w, stands, -, filled⟩ := stopHistory_filled (t := 0) (by decide) jobLimit le_rfl
  obtain ⟨w', last, fresh⟩ := filled.dropped stands (25 * hour)
  refine ⟨⟨w, stands.1, fun e mem => ?_⟩, last.2, w', last.1, fresh⟩
  obtain ⟨terminal, acked, deadline⟩ := filled.settled e mem
  exact ⟨terminal, acked, _, deadline, by decide⟩

/-! The coordinator. -/

section Coordinator
open SparkCoordinator SparkExecute SparkExisting SparkBroker

def AllOld (c : Coordinator) (now : Time) : Prop := ∀ e ∈ c.journal.attempts, isPrunable now e.2

def capacityRefusal (r : ActionRequest) : Next := .returned (rejection r "journal_capacity")

theorem prune_size {h : Hold} (old : AllOld h.coordinator now) :
    (prune h now).coordinator.journal.attempts.size < 1024 := by
  dsimp only [prune]
  split
  · assumption
  · have none_left := Map.size_discard_all (m := h.coordinator.journal.attempts)
      (p := fun _ a => isPrunable now a) old
    simp only [Coordinator.setAttempts]
    omega

theorem linkedStageError_code (c : Coordinator) (r : ActionRequest) (p : Profile) (now : Time) :
    linkedStageError c r p now ≠ some "journal_capacity" := by
  unfold linkedStageError
  split
  · simp
  · split
    · split
      · simp
      · split <;> simp
    · simp

theorem validateLocked_code (c : Coordinator) (r : ActionRequest) (p : Profile) (i : Instance) (now : Time) :
    (validateLocked c r p i now).2 ≠ some "journal_capacity" := by
  unfold validateLocked
  split
  · rename_i code found
    split at found
    · exact found ▸ linkedStageError_code c r p now
    · cases found
  · dsimp only
    split_ifs <;> simp

theorem admissionError_code {h : Hold} (room : h.coordinator.journal.attempts.size < 2048) (r : ActionRequest)
    (p : Profile) (env : SparkCoordinator.Env) : (admissionError h r p env).2 ≠ .error "journal_capacity" := by
  rw [admissionError, if_neg (Nat.not_le.mpr room)]
  split
  · simp
  · dsimp only
    split
    · rename_i code found
      intro same
      rw [Except.error.injEq] at same
      exact validateLocked_code _ _ _ _ _ (same ▸ found)
    · split_ifs <;> simp

theorem finalAdmission_code (k : Kernel) (h : Hold) (r : ActionRequest) (p : Profile) (i : Instance)
    (env : SparkCoordinator.Env) : (finalAdmission k h r p i env).2 ≠ capacityRefusal r := by
  unfold finalAdmission capacityRefusal
  dsimp only
  split_ifs <;> simp [rejection]

theorem recordPendingStart_code (k : Kernel) (h : Hold) (r : ActionRequest) (p : Profile) (i : Instance)
    (env : SparkCoordinator.Env) : (recordPendingStart k h r p i env).2 ≠ capacityRefusal r := by
  unfold recordPendingStart capacityRefusal
  dsimp only
  split_ifs <;> simp [rejection]

theorem recordAlreadyDone_code (k : Kernel) (h : Hold) (r : ActionRequest) (p : Profile) (i : Instance)
    (env : SparkCoordinator.Env) : (recordAlreadyDone k h r p i env).2 ≠ rejection r "journal_capacity" := by
  unfold recordAlreadyDone
  dsimp only
  split_ifs <;> simp [rejection, evidenceReceipt]

theorem recordStarting_code (k : Kernel) (h : Hold) (r : ActionRequest) (p : Profile) (i : Instance)
    (env : SparkCoordinator.Env) : (recordStarting k h r p i env).2 ≠ rejection r "journal_capacity" := by
  unfold recordStarting
  dsimp only
  split_ifs <;> simp [rejection, evidenceReceipt]

theorem enter_admits {h : Hold} {p : Profile}
    (old : AllOld h.coordinator env.now) (fresh : h.coordinator.attempt r.jobId = none)
    (known : h.coordinator.policy.profile r.params.profileId = some p) (direct : p.kind ≠ .existingCoordinator) :
    (enter k h r env).2 ≠ capacityRefusal r := by
  unfold enter
  split
  · simp [capacityRefusal, rejection]
  · have room : (prune (h.update fun c => { c with seen := [] }) env.now).coordinator.journal.attempts.size < 2048 :=
      lt_trans (prune_size old) (by decide)
    simp only [Hold.update, known, if_neg direct]
    have fresh' : ({ h.coordinator with seen := [] } : Coordinator).attempt r.jobId = none := fresh
    simp only [fresh']
    have code := admissionError_code room r p env
    simp only [Hold.update] at code
    split
    · rename_i code' found
      rw [found] at code
      intro same
      have codes : code' = "journal_capacity" := by
        simpa [capacityRefusal, rejection] using same
      exact code (congrArg Except.error codes)
    · rename_i i found
      generalize (if r.action = .modelStop then _ else _ : Hold) = h'
      split_ifs
      · simpa [capacityRefusal] using recordAlreadyDone_code k h' r p i env
      · simpa [capacityRefusal] using recordStarting_code k h' r p i env
      · exact recordPendingStart_code k h' r p i env
      · simp [capacityRefusal]
      · exact finalAdmission_code k h' r p i env

def ExistingAcceptable (k : Kernel) (c : Coordinator) (r : ActionRequest) (p : Profile) (authority : ExistingAuthority)
    (env : SparkCoordinator.Env) : Prop :=
  ∃ snap, env.snapshot = some snap ∧
    let before := snap.toInstance k.checks p
    let observed := observeLocked c p before env.now
    existingAdmissionError observed.1 r p authority snap before observed.2.generation env.now = none

theorem existingAdmissionError_code (c : Coordinator) (r : ActionRequest) (p : Profile)
    (authority : ExistingAuthority) (snap : ExistingSnapshot) (before : Instance) (generation : Int) (now : Time) :
    existingAdmissionError c r p authority snap before generation now ≠ some "journal_capacity" := by
  unfold existingAdmissionError
  dsimp only
  split_ifs <;> simp

theorem admitExisting_capacity {h : Hold} {p : Profile}
    {authority : ExistingAuthority} (fresh : h.coordinator.attempt r.jobId = none) :
    (admitExisting k h r p authority env).2 = capacityRefusal r ↔
      ExistingAcceptable k h.coordinator r p authority env ∧ 2048 ≤ h.coordinator.journal.attempts.size := by
  have size : ∀ before, (observeLocked h.coordinator p before env.now).1.journal.attempts =
      h.coordinator.journal.attempts := fun _ => rfl
  unfold admitExisting ExistingAcceptable capacityRefusal
  cases snapshot : env.snapshot with
  | none => simp [rejection]
  | some snap =>
    dsimp only
    rw [if_neg (by simp [fresh])]
    split
    · rename_i code refused
      have other := existingAdmissionError_code (observeLocked h.coordinator p (snap.toInstance k.checks p) env.now).1
        r p authority snap (snap.toInstance k.checks p)
        (observeLocked h.coordinator p (snap.toInstance k.checks p) env.now).2.generation env.now
      rw [refused] at other
      have codes : code ≠ "journal_capacity" := fun same => other (congrArg some same)
      simp [refused, rejection, codes]
    · rename_i passed
      simp only [size, ge_iff_le]
      split_ifs with full saved
      · simp [passed, full]
      · simp [full]
      · simp [full, rejection]

/-- The worker prepares the next model job if and only if its journal has room; the coordinator refuses it
if and only if the profile is of an existing coordinator and the journal has 2048 attempts. -/
theorem next_job_needs_room (enc : Encoding) (k : Kernel) (process : Process) {w : Worker} {i : Nat} {job : JobEnvelope}
    {controllerId : String} {serverTime started : Time} (env : SparkWorker.Env) (h : Hold) (r : ActionRequest)
    {p : Profile} (answers : SparkCoordinator.Env) (authority : ExistingAuthority) (running : process.worker = some w)
    (task : process.tasks[i]? = some (.accepting job controllerId serverTime started))
    (written : env.save = .done) (acceptable : Acceptable w job controllerId serverTime started env.since)
    (old : AllOld h.coordinator answers.now) (fresh : h.coordinator.attempt r.jobId = none)
    (known : h.coordinator.policy.profile r.params.profileId = some p) :
    (Prepared (SparkWorker.step enc process (.go i env)) job.jobId ↔
      Room enc w job.jobId (newJob w job controllerId serverTime started env.since env.now)) ∧
    (p.kind ≠ .existingCoordinator → (enter k h r answers).2 ≠ capacityRefusal r) ∧
    (p.kind = .existingCoordinator → ExistingAcceptable k h.coordinator r p authority answers →
      ((admitExisting k h r p authority answers).2 ≠ capacityRefusal r ↔
        h.coordinator.journal.attempts.size < 2048)) := by
  refine ⟨prepared_iff_room running task written acceptable, enter_admits old fresh known, fun _ passed => ?_⟩
  rw [Ne, admitExisting_capacity fresh, not_and, not_le]
  exact ⟨fun h => h passed, fun h _ => h⟩

/-- One place is left beside settled jobs of the day before, and the next job is delivered. -/
def busyWorker : Process :=
  run (SparkWorker.step kilobytes) .start
    (stopHistory 0 2047 ++ exchange (25 * hour) [] [stopJob 2047 (25 * hour)])

def stopRequest : ActionRequest :=
  ⟨jobName 2048, "op", .modelStop, ⟨"model", "rev", 1, "epoch", "session", true⟩, 0, 30 * second, "", false⟩

def systemProfile : Profile :=
  ⟨"model", [.modelStop], false, .systemdSystem, "hash", "", "", [], 0, 0, false, 0, "rev"⟩

def doneAttempts (n : Nat) : Map String Attempt where
  rows := (List.range n).map fun m => (jobName m, { Attempt.zero with stage := .done, attemptedAt := 0 })
  unique := by
    rw [List.map_map]
    exact List.nodup_range.map jobName_injective

def holdAfter (n : Nat) : Hold :=
  ⟨openCoordinator ⟨true, [systemProfile], "hash", by decide⟩
    (some { Journal.empty with attempts := doneAttempts n }) "epoch", none, []⟩

theorem holdAfter_old (n : Nat) : AllOld (holdAfter n).coordinator (25 * hour) := by
  intro e mem
  obtain ⟨m, -, rfl⟩ := List.mem_map.mp mem
  simp [isPrunable, hour, minute, second]

theorem holdAfter_fresh (n : Nat) : (holdAfter n).coordinator.attempt (jobName n) = none := by
  refine Option.eq_none_iff_forall_ne_some.mpr fun a found => ?_
  obtain ⟨m, small, same⟩ := List.mem_map.mp (Map.get_eq_some.mp found)
  obtain rfl : m = n := jobName_injective (congrArg Prod.fst same)
  exact Nat.lt_irrefl _ (List.mem_range.mp small)

def laterAnswers : SparkCoordinator.Env :=
  ⟨25 * hour, 0, .done, fun _ => none, none, none, none, 0, true, true, none, false, none, none, none⟩

def nameKernel : Kernel :=
  ⟨fun r => r.jobId, fun id => id,
    ⟨fun _ _ i => i, fun _ _ => true, fun _ _ _ => true, fun _ _ _ _ => true, fun _ _ => true, fun _ _ => true⟩⟩

theorem old_jobs_leave_room :
    Prepared (SparkWorker.step kilobytes busyWorker (.go 0 (envAt (25 * hour) none))) (jobName 2047) ∧
      (enter nameKernel (holdAfter 2048) stopRequest laterAnswers).2 ≠ capacityRefusal stopRequest := by
  obtain ⟨w, stands, controller, filled⟩ := stopHistory_filled (t := 0) (by decide) 2047 (by decide)
  obtain ⟨w', delivered, controller', control, jobs⟩ :=
    stands_exchange stands (25 * hour) [] [stopJob 2047 (25 * hour)]
  rw [← run_append] at delivered
  have settled : Filled 0 2047 w'.jobs := jobs ▸ filled.acknowledge _ _
  have task : busyWorker.tasks[0]? =
      some (.accepting (stopJob 2047 (25 * hour)) "controller" (25 * hour) (25 * hour)) := by
    rw [busyWorker, delivered.2]
    rfl
  have both := next_job_needs_room kilobytes nameKernel busyWorker (envAt (25 * hour) none) (holdAfter 2048)
    stopRequest (p := systemProfile) laterAnswers ⟨"", "", ""⟩ delivered.1 task rfl
    ⟨settled.fresh, (controller'.trans controller).symm, rfl, rfl, control, by decide, by decide⟩
    (holdAfter_old _) (holdAfter_fresh _) rfl
  refine ⟨both.1.mpr ⟨settled.size.trans_lt (by decide), ?_⟩, both.2.1 (by decide)⟩
  have size := Map.size_put settled.fresh (newJob w' (stopJob 2047 (25 * hour)) "controller" (25 * hour)
    (25 * hour) (25 * hour) (25 * hour))
  exact (congrArg (1024 * ·) (size.trans (congrArg (· + 1) settled.size))).le.trans (by decide)

end Coordinator

end Monik.SparkCapacity
