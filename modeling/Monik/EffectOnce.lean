import Monik.LossyReports
import Monik.ReceiptDrain
import Monik.WorkerJournal

/-! How often a general worker starts the effect of a job. It writes its journal after the effect
and forgets the receipt if that fails, while the controller hands the job out until it has a
receipt. -/

namespace Monik.EffectOnce
open Protocol Tables ControllerStore Operations JobSteps JobPermanence Runs Persistence Lifecycle
open AgentRuntime (Agent Pending ControlResponse Tick finished acked acknowledged)
open Ingestion
open ReportHandler
open ReceiptDrain
open WorkerJournal

variable {c : Codec} {controller : String} {s s' : Store}

variable {agent : String} {rep : AgentReport} {x : Request} {resp : ControlResponse} {w w' : Worker}
    {job : JobEnvelope}

def Decided (s : Store) (id : String) : Prop := ∃ j ∈ s.jobs, j.jobId = id ∧ answered j.status

theorem Decided.later {id : String} (h : Decided s id) (later : Later s s') : Decided s' id := by
  obtain ⟨j, hj, jid, done⟩ := h
  obtain ⟨j', hj', step⟩ := later.jobs j hj
  exact ⟨j', hj', step.jobId.trans jid, step.answered done⟩

theorem answered_not_dispatchable {status : JobStatus} (h : answered status) : status.dispatchable = false := by
  cases status with
  | of target => cases target <;> first | rfl | cases h
  | _ => cases h

theorem applyReceipt_decides (hs : Served s) {r : JobReceipt} {spark : SparkAnswers}
    (final : finished r.status) (h : applyReceipt s agent r spark = .ok s') : Decided s' r.jobId := by
  have reported := applyReceipt_reported h
  have rank := (finished_reported final).2
  unfold applyReceipt at h
  split at h
  · cases h
  split at h
  · cases h
  rename_i j found
  obtain ⟨hj, met⟩ := Table.find?_some found
  rw [Bool.and_eq_true, beq_iff_eq, beq_iff_eq] at met
  split_ifs at h with _ _ _ _ known superseded _ lower
  · cases h
    exact ⟨j, hj, met.1, hs.replied j hj (by simp [known.1])⟩
  · cases h
    simp only [supersededRestart, Bool.and_eq_true, beq_iff_eq] at superseded
    exact ⟨j, hj, met.1, by rw [superseded.1.2]; rfl⟩
  · rw [rank] at lower
    exact absurd lower.1 (lt_irrefl 0)
  · obtain ⟨rows, -⟩ := recordReceipt_rows h
    refine ⟨{ j with status := .of (judge s agent j r spark).status, result := some r }, ?_, met.1,
      judge_answered reported⟩
    rw [← Table.mem_rows, rows, List.mem_map]
    exact ⟨j, hj, if_pos (by simp [met.2])⟩

theorem applyReceipts_decides (hs : Served s) {spark : JobReceipt → SparkAnswers}
    {rs : List JobReceipt} {id : String} (final : ∀ r ∈ rs, r.jobId = id → finished r.status)
    (h : id ∈ (applyReceipts agent spark rs s).2) : Decided (applyReceipts agent spark rs s).1 id := by
  induction rs generalizing s with
  | nil => cases h
  | cons r rs ih =>
    have rest : ∀ r ∈ rs, r.jobId = id → finished r.status :=
      fun r hr => final r (List.mem_cons_of_mem _ hr)
    unfold applyReceipts at h ⊢
    cases applied : applyReceipt s agent r (spark r) with
    | error e =>
      rw [applied] at h
      exact ih hs rest h
    | ok u =>
      rw [applied] at h
      dsimp only at h ⊢
      have served := (jobs_rule.receipt applied).later.served hs
      split at h
      · obtain rfl | later := List.mem_cons.mp h
        · exact (applyReceipt_decides hs (final r (by simp) rfl) applied).later
            (later_rule.applyReceipts agent spark rs u)
        · exact ih served rest later
      · exact ih served rest h

theorem poll_undecided {accepted : Ingestion.AcceptedReport} {acks : List String}
    (h : (ReportHandler.poll controller s rep accepted acks x).2 = some resp) {env : JobEnvelope}
    (he : env ∈ resp.jobs) : ¬Decided s env.jobId := by
  unfold ReportHandler.poll at h
  split at h
  · cases h
  split_ifs at h
  · cases h
    cases he
  · cases h
    cases he
  split at h
  · cases h
  rename_i v jobs claimed
  cases h
  have mem : env ∈ (Rollouts.claimPendingJobs s rep.agentId 8 x.expireNow x.tickNow x.claimNow
      x.authority).2 := by
    unfold Rollouts.claimPendingJobs
    rwa [claimed]
  obtain ⟨j, hj, selected, whole, rfl⟩ := RolloutSteps.claimPendingJobs_mem mem
  intro decided
  obtain ⟨k, hk, kid, done⟩ := decided.later (later_rule.advanceRollouts s x.expireNow x.tickNow)
  simp only [intact, selectable, Bool.and_eq_true, beq_iff_eq] at whole selected
  have same : k = j := Table.eq_of_key _ hk hj (kid.trans whole.1.1.1.1)
  have still := answered_not_dispatchable done
  rw [same, selected.1.1.2] at still
  cases still

theorem handleReport_live (live : rep.isLive) (h : (handleReport c controller s rep x).2 = some resp) :
    ∃ u accepted, Later s u ∧ handleReport c controller s rep x =
      ReportHandler.poll controller (applyReceipts rep.agentId x.spark rep.jobReceipts u).1 rep accepted
        (applyReceipts rep.agentId x.spark rep.jobReceipts u).2 x := by
  unfold handleReport at h ⊢
  split at h
  · cases h
  rename_i granted
  split at h
  · cases h
  rename_i v accepted hv
  refine ⟨if accepted.live then ReportHandler.reconcileUnverified v rep.agentId x else v, accepted, ?_, ?_⟩
  · split
    · exact (acceptReport_later hv).trans (later_rule.reconcileUnverified rep.agentId x v)
    · exact acceptReport_later hv
  · simp only [live, Bool.not_true, Bool.false_eq_true, if_false, if_neg granted]

/-- In one state of the controller the acknowledged jobs are decided and the carried ones are not. -/
theorem handleReport_splits (hs : Served s)
    (live : rep.isLive) (h : (handleReport c controller s rep x).2 = some resp) :
    ∃ v, Later s v ∧ Later v (handleReport c controller s rep x).1 ∧
      (∀ id ∈ resp.receiptAcks, (∀ r ∈ rep.jobReceipts, r.jobId = id → finished r.status) →
        Decided v id) ∧ ∀ env ∈ resp.jobs, ¬Decided v env.jobId := by
  obtain ⟨u, accepted, first, same⟩ := handleReport_live live h
  rw [same] at h ⊢
  have acks := ReceiptDrain.poll_acks h
  refine ⟨_, first.trans (later_rule.applyReceipts rep.agentId x.spark rep.jobReceipts u),
    later_rule.poll .., fun id hid final => ?_, fun env he => poll_undecided h he⟩
  rw [acks] at hid
  exact applyReceipts_decides (first.served hs) final hid

def Held (jobs : Table Pending Pending.jobId) (id : String) : Prop := ∃ p ∈ jobs, p.jobId = id

section Journal

variable {jobs : Table Pending Pending.jobId} {id : String}

theorem held_upsert (p : Pending) : Held (jobs.upsert p) id ↔ Held jobs id ∨ p.jobId = id := by
  constructor
  · rintro ⟨q, hq, rfl⟩
    obtain ⟨old, -⟩ | rfl := Table.mem_upsert.mp hq
    · exact .inl ⟨q, old, rfl⟩
    · exact .inr rfl
  · rintro (⟨q, hq, rfl⟩ | rfl)
    · by_cases same : q.jobId = p.jobId
      · exact ⟨p, Table.mem_upsert.mpr (.inr rfl), same.symm⟩
      · exact ⟨q, Table.mem_upsert.mpr (.inl ⟨hq, same⟩), rfl⟩
    · exact ⟨p, Table.mem_upsert.mpr (.inr rfl), rfl⟩

theorem held_delete {p : Pending → Bool} (h : Held (jobs.delete p) id) : Held jobs id := by
  obtain ⟨q, hq, same⟩ := h
  exact ⟨q, (Table.mem_delete.mp hq).1, same⟩

theorem held_update {f : Pending → Pending} (keep : ∀ p, (f p).jobId = p.jobId) :
    Held (jobs.update (fun _ => true) f keep) id ↔ Held jobs id := by
  constructor
  · rintro ⟨q, hq, rfl⟩
    obtain ⟨p, hp, rfl⟩ := (Table.mem_update keep).mp hq
    exact ⟨p, hp, (keep p).symm⟩
  · rintro ⟨p, hp, rfl⟩
    exact ⟨f p, (Table.mem_update keep).mpr ⟨p, hp, rfl⟩, keep p⟩

end Journal

structure System where
  store : Store
  worker : Worker
  started : List String

inductive Event
  /-- The controller on its own, or with a report whose answer the worker does not read. -/
  | controller (e : ReceiptDrain.Event)
  | tick (t : Tick) (o : WriteOutcome)
  | exchange (t : Tick) (o : WriteOutcome) (x : Request) (paused : Option Bool) (acks : WriteOutcome)
  | handle (h : Handling)
  | finishTrial (i : Nat) (r : TrialResult) (o : WriteOutcome)
  | reconcile (e : Evidence) (o : WriteOutcome)
  | upkeep (u : Upkeep)
  | crash
  | reopen (session : String) (o : WriteOutcome)

def idle (w : Worker) : Bool := w.running && w.inbox.isEmpty

def exchange (c : Codec) (controller : String) (m : System) (t : Tick) (o : WriteOutcome) (x : Request)
    (paused : Option Bool) (acks : WriteOutcome) : System :=
  let (w, rep) := m.worker.prepare t o
  let store := (handleReport c controller m.store rep x).1
  match (handleReport c controller m.store rep x).2.filter (acknowledged w.agent rep) with
  | none => { m with store, worker := w }
  | some r => { m with store, worker := w.applyControl rep.jobReceipts r paused acks }

def handle (m : System) (h : Handling) : System :=
  match m.worker.inbox with
  | [] => m
  | (controller, job) :: rest =>
    let (w, began) := Worker.handleJob { m.worker with inbox := rest } controller h job
    { m with worker := w, started := if began then job.jobId :: m.started else m.started }

def step (c : Codec) (controller : String) (m : System) : Event → System
  | .controller e => { m with store := ReceiptDrain.step c controller m.store e }
  | .tick t o => if idle m.worker then { m with worker := (m.worker.prepare t o).1 } else m
  | .exchange t o x paused acks =>
    if idle m.worker then exchange c controller m t o x paused acks else m
  | .handle h => if m.worker.running then handle m h else m
  | .finishTrial i r o => if m.worker.running then { m with worker := m.worker.finishTrial i r o } else m
  | .reconcile e o => if idle m.worker then { m with worker := m.worker.reconcileIntents e o } else m
  | .upkeep u => if idle m.worker then { m with worker := m.worker.upkeep u } else m
  | .crash => { m with worker := m.worker.crash }
  | .reopen session o => if m.worker.running then m else { m with worker := m.worker.open session o }

def initial (agentId controllerId : String) : System :=
  { store := .empty
    worker := { agent := ⟨agentId, controllerId, "", 0, false, .empty, "", []⟩, disk := .empty
                intent := none, running := false, inbox := [], trials := [] }
    started := [] }

def Intended (w : Worker) (id : String) : Prop := ∃ i ∈ w.intent, i.complete ∧ i.jobId = id

structure Guarded (m : System) : Prop where
  served : Served m.store
  once : m.started.Nodup
  /-- While the worker runs, its memory holds the job or the controller has decided it. -/
  memory : m.worker.running → ∀ id ∈ m.started, Held m.worker.agent.jobs id ∨ Decided m.store id
  disk : ∀ id ∈ m.started, Held m.worker.disk id ∨ Decided m.store id ∨
    m.worker.running = false ∧ Intended m.worker id
  inbox : ∀ e ∈ m.worker.inbox, e.2.jobId ∈ m.started → Held m.worker.agent.jobs e.2.jobId

structure Wider (w w' : Worker) : Prop where
  memory : ∀ id, Held w.agent.jobs id → Held w'.agent.jobs id
  disk : (∀ id, Held w.disk id → Held w'.disk id) ∨ ∀ id, Held w.agent.jobs id → Held w'.disk id
  inbox : ∀ e ∈ w'.inbox, e ∈ w.inbox
  running : w'.running = w.running

theorem Wider.refl (w : Worker) : Wider w w :=
  ⟨fun _ => id, .inl fun _ => id, fun _ => id, rfl⟩

theorem Wider.trans {w'' : Worker} (h : Wider w w') (h' : Wider w' w'') : Wider w w'' := by
  refine ⟨fun id held => h'.memory id (h.memory id held), ?_, fun e he => h.inbox e (h'.inbox e he),
    h'.running.trans h.running⟩
  obtain file | file := h'.disk
  · exact h.disk.imp (fun old id held => file id (old id held)) fun old id held => file id (old id held)
  · exact .inr fun id held => file id (h.memory id held)

theorem save_wider (o : WriteOutcome) (disk : w'.disk = w.disk)
    (memory : ∀ id, Held w.agent.jobs id → Held w'.agent.jobs id) (inbox : ∀ e ∈ w'.inbox, e ∈ w.inbox)
    (running : w'.running = w.running) : Wider w (w'.save o) := by
  refine ⟨memory, ?_, inbox, running⟩
  simp only [Worker.save]
  obtain old | new := o.write_cases w'.disk w'.agent.jobs
  · exact .inl fun id held => by rwa [old, disk]
  · exact .inr fun id held => by
      rw [new]
      exact memory id held

theorem put_held (p : Pending) (id : String) (h : Held w.agent.jobs id) : Held (w.put p).agent.jobs id :=
  (held_upsert p).mpr (.inl h)

theorem put_wider (w : Worker) (p : Pending) (o : WriteOutcome) : Wider w ((w.put p).save o) :=
  save_wider o rfl (put_held p) (fun _ => id) rfl

theorem not_held {id : String} (h : w.holds id = false) : ¬Held w.agent.jobs id := by
  intro held
  rw [Worker.holds_iff.mpr held] at h
  cases h

theorem record_wider {p : Pending} (o : WriteOutcome) (fresh : w.holds p.jobId = false) : Wider w (w.record p o) := by
  obtain ⟨-, disk, inbox, running⟩ := put_wider w p o
  have absent : ∀ q ∈ w.agent.jobs, q.jobId ≠ p.jobId := fun q hq same => not_held fresh ⟨q, hq, same⟩
  have same : (w.record p o).disk = ((w.put p).save o).disk ∧ (w.record p o).inbox = w.inbox ∧
      (w.record p o).running = w.running := by
    unfold Worker.record
    split <;> exact ⟨rfl, rfl, rfl⟩
  refine ⟨fun id held => ?_, by rwa [same.1], by rw [same.2.1]; exact fun _ => id, same.2.2⟩
  rw [Worker.record_agent w o absent]
  split
  · exact put_held p id held
  · exact held

theorem record_done (w : Worker) (p : Pending) :
    Held (w.record p .done).agent.jobs p.jobId ∧ Held (w.record p .done).disk p.jobId := by
  have held : Held (w.agent.jobs.upsert p) p.jobId := (held_upsert p).mpr (.inr rfl)
  exact ⟨held, held⟩

section Invariant

variable {m : System}

theorem Guarded.later (h : Guarded m) {s : Store} (later : Later m.store s) : Guarded { m with store := s } where
  served := later.served h.served
  once := h.once
  memory := fun running id hid => (h.memory running id hid).imp_right fun d => d.later later
  disk := fun id hid => (h.disk id hid).imp_right fun rest => rest.imp_left fun d => d.later later
  inbox := h.inbox

theorem Guarded.file (h : Guarded m) (running : m.worker.running) {id : String}
    (hid : id ∈ m.started) : Held m.worker.disk id ∨ Decided m.store id := by
  refine (h.disk id hid).imp_right fun rest => rest.elim (fun d => d) fun down => ?_
  rw [running] at down
  cases down.1

theorem Guarded.wider (h : Guarded m) (running : m.worker.running) (wider : Wider m.worker w) :
    Guarded { m with worker := w } := by
  have kept : ∀ id ∈ m.started, Held w.agent.jobs id ∨ Decided m.store id :=
    fun id hid => (h.memory running id hid).imp_left (wider.memory id)
  refine ⟨h.served, h.once, fun _ => kept, fun id hid => ?_, fun e he begun => ?_⟩
  · obtain file | memory := wider.disk
    · exact (h.file running hid).imp (file id) .inl
    · exact (h.memory running id hid).imp (memory id) .inl
  · exact wider.memory _ (h.inbox e (wider.inbox e he) begun)

theorem Guarded.start (h : Guarded m) {id : String} (fresh : id ∉ m.started)
    (memory : Held m.worker.agent.jobs id) (disk : Held m.worker.disk id) :
    Guarded { m with started := id :: m.started } := by
  refine ⟨h.served, List.nodup_cons.mpr ⟨fresh, h.once⟩, fun running x hx => ?_, fun x hx => ?_,
    fun e he begun => ?_⟩
  · obtain rfl | old := List.mem_cons.mp hx
    · exact .inl memory
    · exact h.memory running x old
  · obtain rfl | old := List.mem_cons.mp hx
    · exact .inl disk
    · exact h.disk x old
  · obtain same | old := List.mem_cons.mp begun
    · rw [same]
      exact memory
    · exact h.inbox e he old

theorem crash_guarded (h : Guarded m) : Guarded { m with worker := m.worker.crash } := by
  refine ⟨h.served, h.once, nofun, fun id hid => ?_, nofun⟩
  exact (h.disk id hid).imp_right fun rest => rest.imp_right fun down => ⟨rfl, down.2⟩

theorem Guarded.of_file (h : Guarded m) (inbox : w.inbox = []) (memory : ∀ id, Held w.disk id → Held w.agent.jobs id)
    (file : ∀ id ∈ m.started, Held w.disk id ∨ Decided m.store id) : Guarded { m with worker := w } := by
  refine ⟨h.served, h.once, fun _ id hid => (file id hid).imp_left (memory id),
    fun id hid => (file id hid).imp_right .inl, ?_⟩
  rw [inbox]
  nofun

theorem Guarded.of_down (h : Guarded m)
    (inbox : w.inbox = []) (running : w.running = false) (intent : w.intent = m.worker.intent)
    (disk : ∀ id, Held m.worker.disk id → Held w.disk id) : Guarded { m with worker := w } := by
  refine ⟨h.served, h.once, fun up => ?_, fun id hid => ?_, ?_⟩
  · rw [running] at up
    cases up
  · refine (h.disk id hid).imp (disk id) fun rest => rest.imp_right fun left => ⟨running, ?_⟩
    rw [Intended, intent]
    exact left.2
  · rw [inbox]
    nofun

theorem intended_iff {i : LifecycleIntent} (h : w.intent = some i) {id : String} :
    Intended w id ↔ i.complete ∧ i.jobId = id := by
  simp [Intended, h]

theorem open_guarded (h : Guarded m) (down : m.worker.running = false) (session : String)
    (o : WriteOutcome) : Guarded { m with worker := m.worker.open session o } := by
  unfold Worker.open
  split
  · exact h
  dsimp only [Worker.restoreIntentReceipt]
  have loads : ∀ id, Held m.worker.disk id →
      Held (m.worker.disk.update (fun _ => true) loaded loaded_jobId) id :=
    fun id => (held_update loaded_jobId).mpr
  -- the started jobs that are not named by the intent
  have file : ∀ id ∈ m.started, Held m.worker.disk id ∨ Decided m.store id ∨ Intended m.worker id :=
    fun id hid => (h.disk id hid).imp_right fun rest => rest.imp_right And.right
  split
  · rename_i absent
    refine h.of_file rfl loads fun id hid => (file id hid).imp_right fun rest => rest.elim (fun d => d) ?_
    simp [Intended, absent]
  rename_i i present
  simp only [intended_iff present] at file
  split
  · rename_i kind
    refine h.of_file rfl loads fun id hid => (file id hid).imp_right fun rest => rest.elim (fun d => d) ?_
    simp [LifecycleIntent.complete, kind]
  split
  · exact h.of_down rfl down rfl fun _ => id
  split
  · rename_i held
    obtain ⟨p, hp, named⟩ := Worker.holds_iff.mp held
    refine h.of_file rfl loads fun id hid => (file id hid).elim .inl fun rest =>
      rest.elim .inr fun intended => .inl ?_
    exact (held_update loaded_jobId).mp ⟨p, hp, named.trans intended.2⟩
  · -- the intent becomes an entry, and the process runs once that is saved
    have kept : ∀ id ∈ m.started, Held ((m.worker.disk.update (fun _ => true) loaded loaded_jobId).upsert
        ⟨lifecycleAction i.kind, lifecyclePending i⟩) id ∨ Decided m.store id := by
      intro id hid
      rw [held_upsert]
      exact (file id hid).elim (fun old => .inl (.inl (loads id old))) fun rest =>
        rest.elim .inr fun intended => .inl (.inr intended.2)
    cases o with
    | done => exact h.of_file rfl (fun _ => id) kept
    | failed => exact h.of_down rfl rfl rfl fun _ => id
    | renamed => exact h.of_file rfl (fun _ => id) kept

theorem prepare_wider (w : Worker) (t : Tick) (o : WriteOutcome) : Wider w (w.prepare t o).1 := by
  refine save_wider o rfl (fun id held => ?_) (fun _ => id) rfl
  exact (held_update (AgentRuntime.settle_jobId _ _ _ _)).mpr held

theorem finishTrial_wider (w : Worker) (i : Nat) (r : TrialResult) (o : WriteOutcome) :
    Wider w (w.finishTrial i r o) := by
  unfold Worker.finishTrial
  split
  · exact .refl w
  · obtain ⟨memory, disk, inbox, running⟩ := put_wider w _ o
    exact ⟨memory, disk, inbox, running⟩

theorem reconcileIntents_wider (w : Worker) (e : Evidence) (o : WriteOutcome) : Wider w (w.reconcileIntents e o) := by
  unfold Worker.reconcileIntents
  split
  · exact .refl w
  split
  · exact .refl w
  · obtain ⟨memory, disk, inbox, running⟩ := put_wider w _ o
    exact ⟨memory, disk, inbox, running⟩

theorem upkeep_wider (w : Worker) (u : Upkeep) : Wider w (w.upkeep u) := by
  obtain ⟨memory, disk, inbox, running⟩ := Wider.refl w
  unfold Worker.upkeep
  split
  · split <;> exact ⟨memory, disk, inbox, running⟩
  · exact ⟨memory, disk, inbox, running⟩
  · split
    · exact .refl w
    split
    · exact .refl w
    split
    · exact ⟨memory, disk, inbox, running⟩
    · obtain ⟨memory, disk, inbox, running⟩ := put_wider w _ _
      exact ⟨memory, disk, inbox, running⟩
  · exact ⟨memory, disk, inbox, running⟩

theorem applyControl_guarded (h : Guarded m) (idle : idle m.worker) {v s : Store}
    {sent : List JobReceipt} {r : ControlResponse} (first : Later m.store v) (second : Later v s)
    (acks : ∀ p ∈ m.worker.agent.jobs, acked sent r p → Decided v p.jobId)
    (jobs : ∀ env ∈ r.jobs, ¬Decided v env.jobId) (paused : Option Bool) (o : WriteOutcome) :
    Guarded { m with store := s, worker := m.worker.applyControl sent r paused o } := by
  have running : m.worker.running := (Bool.and_eq_true_iff.mp idle).1
  have held : ∀ id, Held m.worker.agent.jobs id →
      Held (m.worker.agent.jobs.delete (acked sent r)) id ∨ Decided v id := by
    rintro id ⟨p, hp, rfl⟩
    cases gone : acked sent r p with
    | false => exact .inl ⟨p, Table.mem_delete.mpr ⟨hp, gone⟩, rfl⟩
    | true => exact .inr (acks p hp gone)
  have begun : ∀ id ∈ m.started, Held (m.worker.agent.jobs.delete (acked sent r)) id ∨ Decided v id := by
    intro id hid
    exact (h.memory running id hid).elim (held id) fun d => .inr (d.later first)
  have memory : ∀ id, Held (m.worker.agent.jobs.delete (acked sent r)) id →
      Held (m.worker.applyControl sent r paused o).agent.jobs id := by
    intro id kept
    unfold Worker.applyControl
    split
    · exact kept
    · exact held_delete kept
  have disk : (m.worker.applyControl sent r paused o).disk =
      o.write m.worker.disk (m.worker.agent.jobs.delete (acked sent r)) := by
    unfold Worker.applyControl
    split <;> rfl
  refine ⟨(first.trans second).served h.served, h.once, fun _ id hid => ?_, fun id hid => ?_,
    fun e he hid => ?_⟩
  · exact (begun id hid).imp (memory id) fun d => d.later second
  · rw [disk]
    obtain old | new := o.write_cases m.worker.disk (m.worker.agent.jobs.delete (acked sent r))
    · rw [old]
      exact (h.file running hid).imp_right fun d => .inl (d.later (first.trans second))
    · rw [new]
      exact (begun id hid).imp_right fun d => .inl (d.later second)
  · obtain ⟨env, listed, rfl⟩ := List.mem_map.mp he
    exact (begun env.jobId hid).elim (memory env.jobId) fun d => absurd d (jobs env listed)

theorem exchange_guarded (h : Guarded m) (ready : idle m.worker) (t : Tick) (o : WriteOutcome)
    (x : Request) (paused : Option Bool) (acks : WriteOutcome) :
    Guarded (exchange c controller m t o x paused acks) := by
  have running : m.worker.running := (Bool.and_eq_true_iff.mp ready).1
  have prepared := h.wider running (prepare_wider m.worker t o)
  have live : (m.worker.prepare t o).2.isLive := rfl
  have distinct : ((m.worker.prepare t o).2.jobReceipts.map JobReceipt.jobId).Nodup := by
    simp only [Worker.prepare, AgentRuntime.prepare]
    split
    · exact ReceiptDrain.receiptBatch_distinct _ _ _
    · simp
  unfold exchange
  dsimp only
  split
  · exact prepared.later (handleReport_later controller _ x)
  · rename_i r answered
    obtain ⟨answer, -⟩ := Option.filter_eq_some_iff.mp answered
    obtain ⟨v, first, second, decided, fresh⟩ := handleReport_splits h.served live answer
    refine applyControl_guarded prepared ready first second (fun p _ gone => ?_) fresh paused acks
    simp only [acked, Bool.and_eq_true, List.contains_iff_mem] at gone
    refine decided p.jobId gone.1.1 fun r' hr' same => ?_
    rw [List.inj_on_of_nodup_map distinct hr' gone.1.2 same]
    exact gone.2

def effectJournaled (h : Handling) (job : JobEnvelope) : Bool :=
  match h.execution with
  | .returned _ _ => h.write == .done
  | .died intent => intent.any fun i => i.complete && i.jobId == job.jobId

def journaled (m : System) : Event → Bool
  | .handle h =>
    match m.worker.inbox with
    | [] => true
    | (controller, job) :: rest =>
      !(executed job.action && (Worker.handleJob { m.worker with inbox := rest } controller h job).2) ||
        effectJournaled h job
  | _ => true

def Recorded (w : Worker) (id : String) : Prop := Held w.agent.jobs id ∧ Held w.disk id

/-- `startTrialLocked` starts a trial only with its entry saved, and leaves no entry in memory
if it does not take the job. -/
theorem startTrial_cases (h : Handling) (fresh : w.holds job.jobId = false) : Wider w (w.startTrial h job).1 ∧
      ((w.startTrial h job).2 = (true, true) ∧ Recorded (w.startTrial h job).1 job.jobId ∨
        (w.startTrial h job).2 = (true, false) ∨
        (w.startTrial h job).2 = (false, false) ∧ (w.startTrial h job).1.holds job.jobId = false) := by
  have absent : ∀ q ∈ w.agent.jobs, q.jobId ≠
      (Pending.mk job.action (pendingTrial job h.now)).jobId :=
    fun q hq same => not_held fresh ⟨q, hq, same⟩
  unfold Worker.startTrial
  split
  · exact ⟨.refl w, .inr (.inr ⟨rfl, fresh⟩)⟩
  split
  · exact ⟨put_wider w _ _, .inr (.inl rfl)⟩
  obtain ⟨memory, disk, inbox, running⟩ :=
    record_wider (p := ⟨job.action, pendingTrial job h.now⟩) h.trialWrite fresh
  split
  · rename_i saved
    have recorded : Recorded (w.record ⟨job.action, pendingTrial job h.now⟩ h.trialWrite) job.jobId := by
      rw [saved]
      exact record_done w ⟨job.action, pendingTrial job h.now⟩
    exact ⟨⟨memory, disk, inbox, running⟩, .inl ⟨rfl, recorded⟩⟩
  · rename_i unsaved
    refine ⟨⟨memory, disk, inbox, running⟩, .inr (.inr ⟨rfl, ?_⟩)⟩
    rw [Worker.holds, Worker.record_agent w h.trialWrite absent, if_neg unsaved]
    exact fresh

/-- `handleJob` leaves the job, answers it, or starts its effect with a journal entry or an intent of the
dying process. -/
theorem handleJob_cases {controller : String} {h : Handling}
    {began : Bool} (result : w.handleJob controller h job = (w', began))
    (ok : executed job.action → began → effectJournaled h job) : began = false ∧ Wider w w' ∨
      began ∧ w.holds job.jobId = false ∧ (Wider w w' ∧ Recorded w' job.jobId ∨
        ∃ intent, w' = Worker.crash { w with intent } ∧ Intended w' job.jobId) := by
  unfold Worker.handleJob at result
  split at result
  · cases result
    exact .inl ⟨rfl, .refl w⟩
  split at result
  · cases result
    exact .inl ⟨rfl, .refl w⟩
  rename_i absent
  rw [Bool.not_eq_true] at absent
  split at result
  · cases result
    exact .inl ⟨rfl, .refl w⟩
  split at result
  · -- a trial
    obtain ⟨wider, cases'⟩ := startTrial_cases h absent
    split at result
    · rename_i v started tried
      cases result
      rw [tried] at wider cases'
      obtain ⟨taken, recorded⟩ | taken | ⟨taken, -⟩ := cases'
      · cases taken
        exact .inr ⟨rfl, absent, .inl ⟨wider, recorded⟩⟩
      · cases taken
        exact .inl ⟨rfl, wider⟩
      · cases taken
    · rename_i v started tried
      cases result
      rw [tried] at wider cases'
      obtain ⟨taken, -⟩ | taken | ⟨-, fresh⟩ := cases'
      · cases taken
      · cases taken
      · exact .inl ⟨rfl, wider.trans (record_wider h.write fresh)⟩
  split at result
  · -- an effect of executeJob
    rename_i effect
    have action := (Bool.and_eq_true_iff.mp effect).2
    unfold effectJournaled at ok
    split at result
    · rename_i intent died
      cases result
      refine .inr ⟨rfl, absent, .inr ⟨intent, rfl, ?_⟩⟩
      have named := ok action rfl
      simp only [died, Option.any_eq_true, Bool.and_eq_true, beq_iff_eq] at named
      exact named
    · rename_i receipt intent returned
      cases result
      have saved := ok action rfl
      simp only [returned, beq_iff_eq] at saved
      have begun : Wider w { w with intent } := ⟨fun _ => id, .inl fun _ => id, fun _ => id, rfl⟩
      refine .inr ⟨rfl, absent, .inl ⟨begun.trans (record_wider h.write absent), ?_⟩⟩
      rw [saved]
      exact record_done { w with intent } ⟨job.action, stamped job h.now receipt⟩
  · cases result
    refine .inl ⟨rfl, record_wider h.write ?_⟩
    rw [Pending.jobId, AgentRuntime.answer_jobId]
    exact absent

theorem handle_guarded (h : Guarded m) (running : m.worker.running) {x : Handling}
    (ok : journaled m (.handle x)) : Guarded (handle m x) := by
  unfold handle
  simp only [journaled] at ok
  split
  · exact h
  rename_i controller job rest listed
  simp only [listed] at ok
  have dropped : Wider m.worker { m.worker with inbox := rest } :=
    ⟨fun _ => id, .inl fun _ => id, fun e he => by rw [listed]; exact List.mem_cons_of_mem _ he, rfl⟩
  have waiting : job.jobId ∈ m.started → Held m.worker.agent.jobs job.jobId :=
    h.inbox (controller, job) (by rw [listed]; exact List.mem_cons_self ..)
  rcases result : Worker.handleJob { m.worker with inbox := rest } controller x job with ⟨w, began⟩
  rw [result] at ok
  have saved : executed job.action → began → effectJournaled x job := by
    intro action effect
    simpa [action, effect] using ok
  obtain ⟨rfl, wider⟩ | ⟨rfl, absent, outcome⟩ := handleJob_cases result saved
  · exact h.wider running (dropped.trans wider)
  -- the effect is new: a started job at the head of the response is still held
  have fresh : job.jobId ∉ m.started := fun begun => not_held absent (waiting begun)
  obtain ⟨wider, memory, disk⟩ | ⟨intent, rfl, named⟩ := outcome
  · exact (h.wider running (dropped.trans wider)).start fresh memory disk
  · refine ⟨h.served, List.nodup_cons.mpr ⟨fresh, h.once⟩, nofun, fun id hid => ?_, nofun⟩
    obtain rfl | old := List.mem_cons.mp hid
    · exact .inr (.inr ⟨rfl, named⟩)
    · exact (h.file running old).imp_right .inl

theorem step_guarded (h : Guarded m) (e : Event) (ok : journaled m e) : Guarded (step c controller m e) := by
  have wider : ∀ {w}, m.worker.running → Wider m.worker w → Guarded { m with worker := w } :=
    fun running => h.wider running
  have runs : idle m.worker → m.worker.running := fun ready =>
    (Bool.and_eq_true_iff.mp ready).1
  cases e <;> simp only [step]
  case controller e => exact h.later (ReceiptDrain.step_later m.store e)
  case tick t o =>
    split
    · rename_i ready
      exact wider (runs ready) (prepare_wider m.worker t o)
    · exact h
  case exchange t o x paused acks =>
    split
    · rename_i ready
      exact exchange_guarded h ready t o x paused acks
    · exact h
  case handle x =>
    split
    · rename_i running
      exact handle_guarded h running ok
    · exact h
  case finishTrial i r o =>
    split
    · rename_i running
      exact wider running (finishTrial_wider m.worker i r o)
    · exact h
  case reconcile e o =>
    split
    · rename_i ready
      exact wider (runs ready) (reconcileIntents_wider m.worker e o)
    · exact h
  case upkeep u =>
    split
    · rename_i ready
      exact wider (runs ready) (upkeep_wider m.worker u)
    · exact h
  case crash => exact crash_guarded h
  case reopen session o =>
    split
    · exact h
    · exact open_guarded h (Bool.eq_false_iff.mpr (by assumption)) session o

end Invariant

theorem initial_guarded (agentId controllerId : String) : Guarded (initial agentId controllerId) :=
  ⟨Served.empty, .nil, nofun, nofun, nofun⟩

def rotated (now : Time) : JobReceipt :=
  { jobId := "j1", operationId := "op1", status := .succeeded
    stage := "new_credential_authentication_receipt"
    message := "next credential stored and verifier registered; subsequent reports use the new token"
    errorCode := "", retryable := false, evidence := [("verifier_sha256", .str "v1")]
    acceptedAt := some now, appliedAt := some now, verifiedAt := none }

def rotating (now : Time) (write : WriteOutcome) : Handling :=
  { now, stopping := false, trialError := none, trialWrite := .done
    execution := .returned (rotated now) none, write, other := fun job => AgentRuntime.newReceipt job now }

def pollAt (now : Time) : Event :=
  .exchange (LossyReports.tickAt now) .done (LossyReports.requestAt now) none .done

def rotation (write : WriteOutcome) : List Event :=
  [.reopen "s1" .done, .controller (.control (.world DispatchSafety.oneAgent)),
    .controller (.control (.submit (DispatchSafety.request .credentialRotate []))),
    pollAt (2 * second), .handle (rotating (3 * second) write), .crash, .reopen "s2" .done,
    pollAt (7 * second), .handle (rotating (8 * second) .done)]

def reports : Codec := ⟨AgentReport.rest, id⟩

/-- No effect is started twice while every effect of `executeJob` gets into the journal or into the intent
of the dying process. -/
theorem effect_started_once (c : Codec) (controller agentId controllerId : String) (events : List Event)
    (ok : Meets (step c controller) (fun m e => journaled m e) (initial agentId controllerId) events) :
    (run (step c controller) (initial agentId controllerId) events).started.Nodup :=
  (run_invariant Guarded (fun _ e h ok => step_guarded h e ok) (initial_guarded agentId controllerId) ok).once

theorem effect_started_once_rotation :
    (run (step reports "c1") (initial "a1" "c1") (rotation .done)).started = ["j1"] ∧
      (run (step reports "c1") (initial "a1" "c1") (rotation .done)).started.Nodup :=
  ⟨by decide, effect_started_once reports "c1" "a1" "c1" (rotation .done) (by decide)⟩

/-- The journal could not be written after the rotation; the job is handed out again and the
rotation is executed again. -/
theorem unsaved_effect_repeated :
    (run (step reports "c1") (initial "a1" "c1") (rotation .failed)).started = ["j1", "j1"] := by
  decide

end Monik.EffectOnce
