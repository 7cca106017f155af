import Monik.WorkerJournal
import Monik.WorkerReplacement

/-! Worker and service host across updates and rollbacks (`jobUpdate`, `reconcileIntents`). The
worker writes its intent and calls the host, which journals the transaction and ends it; the next
worker resolves the intent. A crash before the host's journal leaves an intent that nothing
resolves. -/

namespace Monik.IntentResolution
open Tables Persistence CrashPoints Lifecycle ServiceHost WorkerReplacement Runs
open Protocol (JobEnvelope JobReceipt Time)
open AgentRuntime (Pending)
open WorkerJournal

structure System (β : Type) where
  files : Installation β
  up : Bool
  worker : Worker
  digest : String
  sessions : List String

structure Job where
  envelope : JobEnvelope
  jobId : envelope.jobId ≠ ""
  operationId : envelope.operationId ≠ ""

inductive Fate
  | completes
  | timesOut
  | worker (called : Bool)
  | host (n : Nat)
  | power (n : Nat)
  deriving DecidableEq

def Fate.cut : Fate → Option Nat
  | .completes | .timesOut | .worker true => none
  | .worker false => some 0
  | .host n | .power n => some n

def Fate.hostDies : Fate → Bool
  | .host _ | .power _ => true
  | _ => false

def Fate.workerDies : Fate → Bool
  | .worker _ | .power _ => true
  | _ => false

variable {β : Type} {d : Digest β} {h : Host} {original : β}

def kills (p : Proc (Installation β) Response) (f : Installation β) (cut : Option Nat) : Bool :=
  (p.passedBy f cut).any fun u => !u.alive

def asked (m : System β) : Installation β := { m.files with alive := true }

def after (m : System β) (p : Proc (Installation β) Response) (fate : Fate) : Installation β :=
  if m.up then p.leaves (asked m) fate.cut else m.files

def leftBehind (m : System β) (p : Proc (Installation β) Response) (fate : Fate) : Bool :=
  fate.workerDies || m.up && fate != .timesOut && kills p (asked m) fate.cut

def call (m : System β) (i : LifecycleIntent) (p : Proc (Installation β) Response) (fate : Fate) :
    System β :=
  let withdrawn : Worker := { m.worker with intent := none }
  let worker :=
    if leftBehind m p fate then Worker.crash { m.worker with intent := some i }
    else if m.up && kills p (asked m) fate.cut then withdrawn.crash
    else withdrawn
  { m with files := after m p fate, up := m.up && !fate.hostDies, worker }

def ask (m : System β) (i : LifecycleIntent) (p : Proc (Installation β) Response) (o : WriteOutcome)
    (fate : Fate) : System β :=
  match o with
  | .failed => m
  | .renamed => { m with worker := { m.worker with intent := some i } }
  | .done => call m i p fate

def jobUpdate (d : Digest β) (h : Host) (m : System β) (job : Job) (c : Candidate β) (x : Env)
    (o : WriteOutcome) (fate : Fate) : System β :=
  ask m (jobIntent .update m.worker.agent.session job.envelope c.expect) (activateUpdate d h c x) o fate

def noRollback (expect : String) (j : Journal) : Bool :=
  j.oldSha == "" || j.txId == "" || expect != "" && expect != j.oldSha

def jobRollback (d : Digest β) (h : Host) (m : System β) (job : Job) (expect : String) (x : Env)
    (o : WriteOutcome) (fate : Fate) : System β :=
  if noRollback expect m.files.journal then m
  else
    ask m (jobIntent .rollback m.worker.agent.session job.envelope m.files.journal.oldSha)
      (rollbackUpdate d h "worker" m.files.journal.oldSha x) o fate

def evidence (h : Host) (m : System β) (now : Time) : Evidence :=
  ⟨now, m.worker.agent.session, m.digest, h.workerBin, some m.files.journal⟩

inductive Event (β : Type)
  | update (job : Job) (c : Candidate β) (x : Env) (o : WriteOutcome) (fate : Fate)
  | rollback (job : Job) (expect : String) (x : Env) (o : WriteOutcome) (fate : Fate)
  | recover (x : Env) (cut : Option Nat)
  | openWorker (session : String) (o : WriteOutcome)
  | reconcile (now : Time) (o : WriteOutcome)
  | workerCrash
  | powerLoss

def step (d : Digest β) (h : Host) (m : System β) : Event β → System β
  | .update job c x o fate => if m.worker.running then jobUpdate d h m job c x o fate else m
  | .rollback job expect x o fate =>
    if m.worker.running then jobRollback d h m job expect x o fate else m
  | .recover x cut =>
    if m.up then m
    else
      { m with
        files := (recoverJournal d h x).leaves m.files cut
        up := cut.isNone && (recoverJournal d h x m.files).result
        worker := m.worker.crash }
  | .openWorker session o =>
    -- `idgen.New` returns no session twice
    if m.worker.running || !m.up || session == "" || m.sessions.contains session then m
    else
      { m with
        worker := m.worker.open session o
        digest := d.sha m.files.worker
        sessions := session :: m.sessions }
  | .reconcile now o =>
    if m.worker.running then { m with worker := m.worker.reconcileIntents (evidence h m now) o } else m
  | .workerCrash => { m with worker := m.worker.crash }
  | .powerLoss => { m with worker := m.worker.crash, up := false }

def answers (f : Installation β) (i : LifecycleIntent) : Bool :=
  match i.kind with
  | .update =>
    f.journal.newSha == i.expectedDigest && f.journal.stage != .idle && f.journal.stage != .staged
  | .rollback => f.journal.stage == .rolledBack && f.journal.oldSha == i.expectedDigest
  | _ => false

def answered (m : System β) (i : LifecycleIntent) (p : Proc (Installation β) Response)
    (o : WriteOutcome) (fate : Fate) : Bool :=
  match o with
  | .failed => true
  | .renamed => false
  | .done => !leftBehind m p fate || answers (after m p fate) i

/-- The host has journaled the transaction before the worker is gone, and no rollback is cut
between the bytes and the journal. -/
def journaledFirst (d : Digest β) (h : Host) (m : System β) : Event β → Bool
  | .update job c x o fate =>
    !m.worker.running || answered m (jobIntent .update m.worker.agent.session job.envelope c.expect)
      (activateUpdate d h c x) o fate
  | .rollback job expect x o fate =>
    !m.worker.running || noRollback expect m.files.journal ||
      answered m (jobIntent .rollback m.worker.agent.session job.envelope m.files.journal.oldSha)
        (rollbackUpdate d h "worker" m.files.journal.oldSha x) o fate &&
      !(o == .done && m.up && halfway d h (asked m) "worker" m.files.journal.oldSha x fate.cut)
  | _ => true

def initial (original : β) : System β :=
  { files := (installed original).files, up := false
    worker := { agent := ⟨"", "", "", 0, false, .empty, "", []⟩, disk := .empty, intent := none
                running := false, inbox := [], trials := [] }
    digest := "", sessions := [] }

structure Resolvable (d : Digest β) (h : Host) (original : β) (m : System β) : Prop where
  sound : Sound d h original m.files
  answers : ∀ i ∈ m.worker.intent, answers m.files i
  complete : ∀ i ∈ m.worker.intent, i.complete ∧ i.previousSession ∈ m.sessions
  session : m.worker.running → m.worker.agent.session ∈ m.sessions ∧ m.worker.agent.session ≠ ""
  other : m.worker.running → ∀ i ∈ m.worker.intent,
    m.digest = d.sha m.files.worker ∧ i.previousSession ≠ m.worker.agent.session

theorem initial_resolvable : Resolvable d h original (initial original) :=
  ⟨installed_sound, nofun, nofun, nofun, nofun⟩

theorem jobIntent_complete {kind : IntentKind} (lifecycle : kind ≠ .rebindSwitch) {session : String}
    (named : session ≠ "") (job : Job) (digest : String) :
    (jobIntent kind session job.envelope digest).complete := by
  simp [LifecycleIntent.complete, jobIntent, lifecycle, named, job.jobId, job.operationId]

variable {m : System β}

theorem Resolvable.crash (hm : Resolvable d h original m) (up : Bool) :
    Resolvable d h original { m with worker := m.worker.crash, up } :=
  ⟨hm.sound, hm.answers, hm.complete, nofun, nofun⟩

variable {f : Installation β}

theorem Resolvable.withdraw (hm : Resolvable d h original m) (sound : Sound d h original f) (up : Bool) :
    Resolvable d h original { m with files := f, up, worker := { m.worker with intent := none } } :=
  ⟨sound, nofun, nofun, hm.session, fun _ => nofun⟩

variable {i : LifecycleIntent}

theorem ask_resolvable (hm : Resolvable d h original m) (running : m.worker.running) (complete : i.complete) (mine : i.previousSession = m.worker.agent.session)
    {p : Proc (Installation β) Response} {o : WriteOutcome} {fate : Fate}
    (sound : o = .done → Sound d h original (after m p fate)) (ok : answered m i p o fate) :
    Resolvable d h original (ask m i p o fate) := by
  cases o with
  | failed => exact hm
  | renamed => cases ok
  | done =>
    have files := sound rfl
    simp only [answered, Bool.or_eq_true, Bool.not_eq_true'] at ok
    unfold ask call
    dsimp only
    split
    · rename_i behind
      rw [behind] at ok
      have known : i.previousSession ∈ m.sessions := by
        rw [mine]
        exact (hm.session running).1
      refine ⟨files, ?_, ?_, nofun, nofun⟩
      · rintro _ ⟨⟩
        simpa using ok
      · rintro _ ⟨⟩
        exact ⟨complete, known⟩
    · split
      · exact (hm.withdraw files true).crash _
      · exact hm.withdraw files _

theorem answers_recover {x : Env} (ha : answers f i) (cut : Option Nat)
    : answers ((recoverJournal d h x).leaves f cut) i := by
  have same : ∀ u : Installation β, u.journal = f.journal → answers u i := by
    intro u journal
    rw [← ha]
    simp only [answers, journal]
  have holds : Holds (fun u => answers u i) (recoverJournal d h x)
      (fun _ u => answers u i) f := by
    refine .bind (.read ?_)
    split
    · exact .pure ha
    split
    · exact .pure ha
    have restored : Holds (fun u => answers u i) (restoreOld d f.journal x.restore)
        (fun _ u => u.journal = f.journal) f := by
      refine .bind (.read ?_)
      split
      · exact .pure rfl
      · exact restoreVerified_holds ha rfl fun b _ _ => ⟨same _ rfl, rfl, rfl⟩
    refine .bind (restored.mono (fun _ => id) fun done u journal => ?_)
    split
    · exact .pure (same u journal)
    · -- only an update waits for an open transaction
      have closed : answers { u with journal := { f.journal with
          stage := .rolledBack
          reason := "recovered incomplete transaction on service-host start" } } i := by
        unfold answers at ha ⊢
        cases kind : i.kind <;> simp_all [incomplete]
      exact .replace (same u journal) closed (same u journal) closed closed
  exact holds.kept ha cut

theorem open_spec {w : Worker} (down : w.running = false) (session : String) (o : WriteOutcome) :
    (w.open session o).intent = w.intent ∧
      ((w.open session o).running → (w.open session o).agent.session = session) := by
  unfold Worker.open
  split
  · exact ⟨rfl, fun up => by rw [down] at up; cases up⟩
  unfold Worker.restoreIntentReceipt
  dsimp only
  split
  · exact ⟨rfl, fun _ => rfl⟩
  · repeat' split
    all_goals exact ⟨by simp_all [Worker.save, Worker.put, Worker.withJobs], fun _ => rfl⟩

theorem reconcileIntents_intent (w : Worker) (e : Evidence) (o : WriteOutcome) :
    ((w.reconcileIntents e o).intent = w.intent ∨ (w.reconcileIntents e o).intent = none) ∧
      (w.reconcileIntents e o).running = w.running ∧ (w.reconcileIntents e o).agent.session = w.agent.session := by
  unfold Worker.reconcileIntents
  split
  · exact ⟨.inl rfl, rfl, rfl⟩
  split
  · exact ⟨.inl rfl, rfl, rfl⟩
  · refine ⟨?_, rfl, rfl⟩
    split
    · exact .inr rfl
    · exact .inl rfl

theorem step_resolvable (hm : Resolvable d h original m) (e : Event β) (ok : journaledFirst d h m e)
    : Resolvable d h original (step d h m e) := by
  have start : Sound d h original (asked m) := hm.sound.withAlive true
  cases e with
  | update job c x o fate =>
    simp only [step]
    split
    · rename_i running
      simp only [journaledFirst, running, Bool.not_true, Bool.false_or] at ok
      have complete : (jobIntent .update m.worker.agent.session job.envelope c.expect).complete :=
        jobIntent_complete (by decide) (hm.session running).2 job _
      refine ask_resolvable hm running complete rfl ?_ ok
      intro _
      unfold after
      split
      · exact (activateUpdate_holds start).kept start fate.cut
      · exact hm.sound
    · exact hm
  | rollback job expect x o fate =>
    simp only [step]
    split
    · rename_i running
      unfold jobRollback
      split
      · exact hm
      rename_i journal
      simp only [journaledFirst, running, journal, Bool.not_true, Bool.false_or, Bool.and_eq_true] at ok
      have complete : (jobIntent .rollback m.worker.agent.session job.envelope
          m.files.journal.oldSha).complete :=
        jobIntent_complete (by decide) (hm.session running).2 job _
      refine ask_resolvable hm running complete rfl ?_ ok.1
      rintro rfl
      unfold after
      split
      · rename_i up
        exact rollbackUpdate_sound start (by simpa [up] using ok.2)
      · exact hm.sound
    · exact hm
  | recover x cut =>
    simp only [step]
    split
    · exact hm
    · refine ⟨?_, fun i hi => answers_recover (hm.answers i hi) cut, hm.complete, nofun, nofun⟩
      exact (recoverJournal_holds hm.sound).leaves hm.sound (fun _ _ held => held.1) cut
  | openWorker session o =>
    simp only [step]
    split
    · exact hm
    rename_i fresh
    simp only [Bool.or_eq_true, not_or, Bool.not_eq_true, Bool.not_eq_true', beq_iff_eq] at fresh
    obtain ⟨⟨⟨down, -⟩, named⟩, unused⟩ := fresh
    obtain ⟨intent, opened⟩ := open_spec down session o
    have unknown : session ∉ m.sessions := by simpa using unused
    refine ⟨hm.sound, by rw [intent]; exact hm.answers, ?_, fun up => ?_, fun up i hi => ?_⟩
    · rw [intent]
      exact fun i hi => ⟨(hm.complete i hi).1, List.mem_cons_of_mem _ (hm.complete i hi).2⟩
    · rw [opened up]
      exact ⟨List.mem_cons_self .., named⟩
    · rw [intent] at hi
      rw [opened up]
      exact ⟨rfl, fun same => unknown (same ▸ (hm.complete i hi).2)⟩
  | reconcile now o =>
    simp only [step]
    split
    · obtain ⟨intent, running, session⟩ := reconcileIntents_intent m.worker (evidence h m now) o
      obtain same | none' := intent
      · exact ⟨hm.sound, by rw [same]; exact hm.answers, by rw [same]; exact hm.complete,
          by rw [running, session]; exact hm.session, by rw [running, session, same]; exact hm.other⟩
      · exact ⟨hm.sound, by rw [none']; nofun, by rw [none']; nofun,
          by rw [running, session]; exact hm.session, by rw [none']; exact fun _ => nofun⟩
    · exact hm
  | workerCrash => exact hm.crash m.up
  | powerLoss => exact hm.crash false

theorem outcome_final (hm : Resolvable d h original m) (running : m.worker.running)
    (closed : incomplete m.files.journal.stage = false) (hi : m.worker.intent = some i) (now : Time) :
    ∃ r, outcome (evidence h m now) i = some r ∧ r.status.terminal := by
  have complete := (hm.complete i hi).1
  have answer := hm.answers i hi
  obtain ⟨digest, other⟩ := hm.other running i hi
  simp only [LifecycleIntent.complete, Bool.and_eq_true, bne_iff_ne] at complete
  have tells := hm.sound.tells
  have active : m.files.journal.stage ≠ .idle := by
    intro idle
    unfold answers at answer
    cases kind : i.kind <;> simp [kind, idle] at answer
  obtain ⟨named, -, tx⟩ := hm.sound.formed active
  simp only [identifies, Bool.and_eq_true, beq_iff_eq] at named
  have due : ¬(i.jobId = "" ∨ i.kind = .rebindSwitch ∨ i.previousSession = "" ∨
      i.previousSession = (evidence h m now).session) := by
    simp [complete.1.1.1, complete.1.1.2, complete.2, evidence, other]
  rw [outcome, if_neg due]
  cases kind : i.kind with
  | restart => simp [answers, kind] at answer
  | rebindSwitch => simp [answers, kind] at answer
  | update =>
    simp only [answers, kind, Bool.and_eq_true, beq_iff_eq, bne_iff_ne] at answer
    cases stage : m.files.journal.stage with
    | idle => exact absurd stage active
    | staged => exact absurd stage answer.2
    | switching => simp [stage, incomplete] at closed
    | probation => simp [stage, incomplete] at closed
    | confirmed =>
      have installed := tells.1 stage
      simp [journaled, evidence, tx, named.1, kind, stage, answer.1.1, digest, installed,
        Evidence.receipt, Protocol.TargetStatus.terminal]
    | rolledBack =>
      have installed := tells.2 stage
      simp [journaled, evidence, tx, named.1, kind, stage, answer.1.1, digest, installed,
        Evidence.receipt, Protocol.TargetStatus.terminal]
  | rollback =>
    simp only [answers, kind, Bool.and_eq_true, beq_iff_eq] at answer
    have installed := tells.2 answer.1
    simp [journaled, evidence, tx, named.1, kind, answer.1, answer.2, digest, installed,
      Evidence.receipt, Protocol.TargetStatus.terminal]

def Quiescent (m : System β) : Prop :=
  m.up ∧ m.worker.running ∧ incomplete m.files.journal.stage = false

instance (m : System β) : Decidable (Quiescent m) := inferInstanceAs (Decidable (_ ∧ _ ∧ _))

def updateJob : Job :=
  ⟨⟨"j1", "op1", .updateRollout, 3, 0, some 100, []⟩, by decide, by decide⟩

def updateRun (fate : Fate) : List (Event Bool) :=
  [.recover smooth none, .openWorker "s1" .done, .update updateJob newBuild smooth .done fate,
    .powerLoss, .recover smooth none, .openWorker "s2" .done]

/-- While the host has journaled the transaction before the worker is gone, and no rollback is cut between
bytes and journal, every intent becomes a final receipt at the next reconciliation. -/
theorem lifecycle_intents_resolve (d : Digest β) (h : Host) (original : β) (events : List (Event β))
    (ok : Meets (step d h) (fun m e => journaledFirst d h m e) (initial original) events) :
    let m := run (step d h) (initial original) events
    Quiescent m → ∀ i, m.worker.intent = some i → ∀ now, ∃ r : JobReceipt,
      r.jobId = i.jobId ∧ r.status.terminal ∧
        (m.worker.reconcileIntents (evidence h m now) .done).intent = none ∧
        ⟨lifecycleAction i.kind, r⟩ ∈ (m.worker.reconcileIntents (evidence h m now) .done).agent.jobs ∧
        ⟨lifecycleAction i.kind, r⟩ ∈ (m.worker.reconcileIntents (evidence h m now) .done).disk := by
  intro m quiescent i hi now
  have resolvable : Resolvable d h original m :=
    run_invariant (Resolvable d h original) (fun _ e hm ok => step_resolvable hm e ok)
      initial_resolvable ok
  obtain ⟨r, found, final⟩ := outcome_final resolvable quiescent.2.1 quiescent.2.2 hi now
  have same : { evidence h m now with session := m.worker.agent.session } = evidence h m now := rfl
  have reconciled : m.worker.reconcileIntents (evidence h m now) .done =
      { (m.worker.put ⟨lifecycleAction i.kind, r⟩).save .done with intent := none } := by
    simp only [Worker.reconcileIntents, hi, same, found, if_true]
  have held : (⟨lifecycleAction i.kind, r⟩ : Pending) ∈
      m.worker.agent.jobs.upsert ⟨lifecycleAction i.kind, r⟩ := Table.mem_upsert.mpr (.inr rfl)
  rw [reconciled]
  exact ⟨r, outcome_jobId found, final, rfl, held, held⟩

theorem lifecycle_intents_resolve_updated :
    let m := run (step builds host) (initial false) (updateRun .completes)
    Quiescent m ∧ ∃ i, m.worker.intent = some i ∧ ∃ r : JobReceipt, r.status.terminal ∧
      r.jobId = i.jobId ∧ (m.worker.reconcileIntents (evidence host m 5) .done).intent = none := by
  have resolve := lifecycle_intents_resolve builds host false (updateRun .completes) (by decide)
  have quiescent : Quiescent (run (step builds host) (initial false) (updateRun .completes)) := by decide
  refine ⟨quiescent, _, rfl, ?_⟩
  obtain ⟨r, named, final, cleared, -⟩ := resolve quiescent _ rfl 5
  exact ⟨r, final, named, cleared⟩

/-- Both die before the host has journaled anything: no reconciliation ever resolves the intent. -/
theorem unjournaled_intent_remains :
    let m := run (step builds host) (initial false) (updateRun (.power 0))
    Quiescent m ∧ m.worker.intent ≠ none ∧
      ∀ now o, m.worker.reconcileIntents (evidence host m now) o = m.worker := by
  refine ⟨by decide, by decide, fun now o => rfl⟩

end Monik.IntentResolution
