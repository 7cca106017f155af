import Monik.Migration
import Monik.Runs

/-! A migration is decided once. The confirmation is written to plan, journal and intent file one
after the other, while the fallback looks at the intent alone: one that is cut short can be reversed
a minute later. Jobs that change trust or applied configuration are not part of these runs. -/

namespace Monik.MigrationDecision
open Protocol Tables Persistence CrashPoints Lifecycle Migration Runs
open AgentRuntime
open WorkerJournal

variable {jobs : Table Pending Pending.jobId} {id : String} {p : Pending} {job : JobEnvelope}

def Confirmation (p : Pending) : Prop := p.action = .rebindActivate ∧ p.receipt.status = .succeeded

instance (p : Pending) : Decidable (Confirmation p) := by
  unfold Confirmation
  infer_instance

def Undecided (jobs : Table Pending Pending.jobId) (id : String) : Prop :=
  ∀ p ∈ jobs, p.jobId = id → ¬Confirmation p

/-- While an intent is pending its job has not succeeded, and a success on disk is in memory too. -/
structure Receipted (w : Worker) (replaced : List Pending) : Prop where
  memory : ∀ i, w.intent = some i → i.jobId ≠ "" → Undecided w.agent.jobs i.jobId
  disk : ∀ i, w.intent = some i → i.jobId ≠ "" → Undecided w.disk i.jobId
  held : ∀ p ∈ w.disk, Confirmation p → ∃ q ∈ w.agent.jobs, q.jobId = p.jobId
  kept : ∀ p ∈ replaced, ¬Confirmation p

theorem Undecided.upsert (h : Undecided jobs id) (other : p.jobId = id → ¬Confirmation p) :
    Undecided (jobs.upsert p) id := by
  intro q hq same
  obtain ⟨old, -⟩ | rfl := Table.mem_upsert.mp hq
  · exact h q old same
  · exact other same

theorem mem_upsert_id {q : Pending} (hq : q ∈ jobs) : ∃ q' ∈ jobs.upsert p, q'.jobId = q.jobId := by
  by_cases same : q.jobId = p.jobId
  · exact ⟨p, Table.mem_upsert.mpr (.inr rfl), same.symm⟩
  · exact ⟨q, Table.mem_upsert.mpr (.inl ⟨hq, same⟩), rfl⟩

namespace Receipted

variable {w : Worker} {replaced : List Pending}

section

variable (h : Receipted w replaced)
include h

theorem cleared : Receipted { w with intent := none } replaced :=
  { h with memory := nofun, disk := nofun }

theorem pending {i : LifecycleIntent} (memory : i.jobId ≠ "" → Undecided w.agent.jobs i.jobId)
    (disk : i.jobId ≠ "" → Undecided w.disk i.jobId) :
    Receipted { w with intent := some i } replaced where
  memory j hj := by
    cases hj
    exact memory
  disk j hj := by
    cases hj
    exact disk
  held := h.held
  kept := h.kept

theorem undecided_of_absent (absent : w.holds id = false) : Undecided w.agent.jobs id ∧ Undecided w.disk id := by
  have none : ∀ q ∈ w.agent.jobs, q.jobId ≠ id := by
    intro q hq same
    rw [Worker.holds_iff.mpr ⟨q, hq, same⟩] at absent
    exact absurd absent (by decide)
  refine ⟨fun q hq same => absurd same (none q hq), fun p hp same success => ?_⟩
  obtain ⟨q, hq, id⟩ := h.held p hp success
  exact none q hq (id.trans same)

theorem put (failed : ¬Confirmation p) : Receipted (w.put p) replaced where
  memory i hi named := (h.memory i hi named).upsert fun _ => failed
  disk := h.disk
  held q hq success := by
    obtain ⟨q', mem, id⟩ := h.held q hq success
    obtain ⟨q'', mem', id'⟩ := mem_upsert_id (p := p) mem
    exact ⟨q'', mem', id'.trans id⟩
  kept := h.kept

theorem save (o : WriteOutcome) : Receipted (w.save o) replaced := by
  have written : Receipted { w with disk := w.agent.jobs } replaced :=
    { h with disk := h.memory, held := fun p hp _ => ⟨p, hp, rfl⟩ }
  cases o with
  | done => exact written
  | failed => exact h
  | renamed => exact written

theorem record (o : WriteOutcome) (absent : w.holds p.jobId = false) (failed : ¬Confirmation p) :
    Receipted (w.record p o) replaced := by
  have saved := (h.put failed).save o
  obtain ⟨memory, disk⟩ := h.undecided_of_absent absent
  have undecided : Undecided ((w.put p).save o).disk p.jobId := by
    have written := memory.upsert (p := p) fun _ => failed
    cases o with
    | done => exact written
    | failed => exact disk
    | renamed => exact written
  unfold Worker.record
  split
  · exact saved
  · refine { saved with memory := fun i hi named q hq => ?_, held := fun q hq success => ?_ }
    · exact saved.memory i hi named q (Table.mem_delete.mp hq).1
    · -- a success on disk is an older entry, of another job than the one that is forgotten
      have other : q.jobId ≠ p.jobId := fun same => undecided q hq same success
      obtain ⟨q', mem, id⟩ := saved.held q hq success
      exact ⟨q', Table.mem_delete.mpr ⟨mem, beq_eq_false_iff_ne.mpr (id ▸ other)⟩, id⟩

theorem applyControl (sent : List JobReceipt) (r : ControlResponse) (paused : Option Bool) (o : WriteOutcome)
    : Receipted (w.applyControl sent r paused o) replaced := by
  have fewer : ∀ i, w.intent = some i → i.jobId ≠ "" →
      Undecided (w.agent.jobs.delete (acked sent r)) i.jobId :=
    fun i hi named q hq => h.memory i hi named q (Table.mem_delete.mp hq).1
  cases o with
  | done => exact ⟨fewer, fewer, fun q hq _ => ⟨q, hq, rfl⟩, h.kept⟩
  | failed => exact ⟨h.memory, h.disk, h.held, h.kept⟩
  | renamed =>
    exact ⟨h.memory, fewer, fun q hq _ => ⟨q, (Table.mem_delete.mp hq).1, rfl⟩, h.kept⟩

end

theorem not_loaded (h : ¬Confirmation p) : ¬Confirmation (loaded p) := by
  unfold loaded
  split
  · exact fun success => nomatch success.2
  · exact h

theorem restoreIntentReceipt (h : Receipted w replaced) (o : WriteOutcome) :
    Receipted (w.restoreIntentReceipt o) replaced := by
  unfold Worker.restoreIntentReceipt
  split
  · exact ⟨h.memory, h.disk, h.held, h.kept⟩
  rename_i i hi
  split
  · exact ⟨h.memory, h.disk, h.held, h.kept⟩
  split
  · exact h
  split
  · exact ⟨h.memory, h.disk, h.held, h.kept⟩
  · have pending : ¬Confirmation ⟨WorkerJournal.lifecycleAction i.kind, WorkerJournal.lifecyclePending i⟩ :=
      fun success => nomatch success.2
    have saved := (h.put pending).save o
    exact ⟨saved.memory, saved.disk, saved.held, saved.kept⟩

theorem reopened (h : Receipted w replaced) (session : String) (o : WriteOutcome) :
    Receipted (w.open session o) replaced := by
  unfold Worker.open
  split
  · exact h
  apply restoreIntentReceipt
  refine ⟨fun i hi named q hq same => ?_, h.disk, fun q hq _ => ?_, h.kept⟩
  · obtain ⟨p, mem, rfl⟩ := (Table.mem_update WorkerJournal.loaded_jobId).mp hq
    exact not_loaded (h.disk i hi named p mem ((WorkerJournal.loaded_jobId p).symm.trans same))
  · exact ⟨loaded q, (Table.mem_update WorkerJournal.loaded_jobId).mpr ⟨q, hq, rfl⟩, WorkerJournal.loaded_jobId q⟩

end Receipted

def AtPrevious (i : LifecycleIntent) (e : Endpoint) : Prop :=
  e.controllerUrl = i.previousUrl ∧ e.caCertPem = i.previousTrust

def AtCandidate (i : LifecycleIntent) (e : Endpoint) : Prop :=
  e.controllerUrl = i.candidateUrl ∧
    e.caCertPem = if i.trustPem = "" then i.previousTrust else i.trustPem

def Enough (t : Trial) : Prop :=
  3 ≤ t.exchanges.length ∧ ∃ now ∈ t.exchanges, 15 * second ≤ now - t.intent.switchedAt

structure OnTrial (c : Texts) (e : Endpoint) (i : LifecycleIntent) (t : Trial) : Prop where
  begun : t.intent = { i with acknowledgements := 0 }
  kind : i.kind = .rebindSwitch
  unconfirmed : t.confirmed = false
  count : i.acknowledgements ≤ t.exchanges.length
  trusted : c.poolFromPem i.previousTrust = none
  place : AtPrevious i e ∨ AtCandidate i e

inductive Settled (e : Endpoint) (t : Trial) : Prop
  | retained (confirmed : t.confirmed) (url : e.controllerUrl = t.intent.candidateUrl)
      (place : AtPrevious t.intent e ∨ AtCandidate t.intent e)
  | left (unconfirmed : t.confirmed = false) (place : AtPrevious t.intent e)

structure Placed (c : Texts) (start : Endpoint) (least : Int) (file saved : Endpoint)
    (intent : Option LifecycleIntent) (trials : List Trial) : Prop where
  synced : file = saved
  trusted : c.poolFromPem saved.caCertPem = none
  rising : least ≤ saved.endpointGeneration
  first : trials = [] → saved.controllerUrl = start.controllerUrl ∧ saved.caCertPem = start.caCertPem
  pending : ∀ i, intent = some i → ∃ t ts, trials = t :: ts ∧ OnTrial c saved i t
  settled : intent = none → ∀ t ts, trials = t :: ts → Settled saved t
  proven : ∀ t ∈ trials, t.confirmed → Enough t
  unreversed : ∀ t ∈ trials, t.reversed = false

namespace Placed

variable {c : Texts} {start file saved : Endpoint} {least : Int} {intent : Option LifecycleIntent}
  {trials : List Trial} {i : LifecycleIntent} {t : Trial}

theorem left (h : Placed c start least file saved (some i) trials) (back : AtPrevious i saved) :
    Placed c start least file saved none trials := by
  obtain ⟨t, ts, rfl, on⟩ := h.pending i rfl
  refine { h with pending := nofun, settled := fun _ t' ts' same => ?_ }
  cases same
  refine .left on.unconfirmed ?_
  rw [on.begun]
  exact back

theorem began (h : Placed c start least file saved none trials) (kind : i.kind = .rebindSwitch)
    (zero : i.acknowledgements = 0) (url : i.previousUrl = file.controllerUrl)
    (trust : i.previousTrust = file.caCertPem) :
    Placed c start least file saved (some i) (⟨i, [], false, false⟩ :: trials) := by
  have back : AtPrevious i saved := ⟨by rw [url, h.synced], by rw [trust, h.synced]⟩
  have on : OnTrial c saved i ⟨i, [], false, false⟩ :=
    { begun := by rw [← zero], kind, unconfirmed := rfl, count := by simp [zero]
      trusted := by rw [trust, h.synced, h.trusted], place := .inl back }
  refine { h with first := nofun, pending := fun j hj => ?_, settled := nofun, proven := ?_, unreversed := ?_ }
  · cases hj
    exact ⟨_, _, rfl, on⟩
  · exact List.forall_mem_cons.mpr ⟨nofun, h.proven⟩
  · exact List.forall_mem_cons.mpr ⟨rfl, h.unreversed⟩

section

variable (h : Placed c start least file saved (some i) trials)
include h

theorem moved {next : Endpoint} (trusted : c.poolFromPem next.caCertPem = none)
    (rising : saved.endpointGeneration ≤ next.endpointGeneration) (place : AtPrevious i next ∨ AtCandidate i next) :
    Placed c start least next next (some i) trials := by
  obtain ⟨t, ts, rfl, on⟩ := h.pending i rfl
  refine { h with synced := rfl, trusted, rising := h.rising.trans rising, first := nofun
                  pending := fun j hj => ?_, settled := nofun }
  cases hj
  exact ⟨t, ts, rfl, { on with place }⟩

theorem reverted : Placed c start least file saved (some i)
      (latest (fun t => { t with reversed := t.reversed || t.confirmed }) trials) := by
  obtain ⟨t, ts, rfl, on⟩ := h.pending i rfl
  have same : (t.reversed || t.confirmed) = t.reversed := by rw [on.unconfirmed, Bool.or_false]
  simp only [latest, same]
  exact h

theorem exchanged (now : Time) : Placed c start least file saved (some i)
      (latest (fun t => { t with exchanges := now :: t.exchanges }) trials) := by
  obtain ⟨t, ts, rfl, on⟩ := h.pending i rfl
  refine { h with first := nofun, pending := fun j hj => ?_, settled := nofun, proven := ?_, unreversed := ?_ }
  · cases hj
    refine ⟨_, _, rfl, { on with count := on.count.trans ?_ }⟩
    simp only [List.length_cons]
    omega
  · refine List.forall_mem_cons.mpr ⟨fun confirmed => ?_, (List.forall_mem_cons.mp h.proven).2⟩
    rw [on.unconfirmed] at confirmed
    exact absurd confirmed (by decide)
  · exact List.forall_mem_cons.mpr (List.forall_mem_cons.mp h.unreversed)

end

theorem counts (h : Placed c start least file saved (some i) (t :: trials))
    (more : i.acknowledgements + 1 ≤ t.exchanges.length) :
    Placed c start least file saved (some (counted i)) (t :: trials) := by
  obtain ⟨t, ts, same, on⟩ := h.pending i rfl
  cases same
  refine { h with first := nofun, pending := fun j hj => ?_, settled := nofun }
  cases hj
  exact ⟨_, _, rfl, on.begun, on.kind, on.unconfirmed, more, on.trusted, on.place⟩

theorem confirmed (h : Placed c start least file saved (some i) (t :: trials))
    (url : saved.controllerUrl = i.candidateUrl) (enough : Enough t) :
    Placed c start least file saved none ({ t with confirmed := true } :: trials) := by
  obtain ⟨t, ts, same, on⟩ := h.pending i rfl
  cases same
  refine { h with first := nofun, pending := nofun, settled := fun _ t' ts' same => ?_, proven := ?_, unreversed := ?_ }
  · cases same
    have begun : ({ t with confirmed := true } : Trial).intent = { i with acknowledgements := 0 } := on.begun
    refine .retained rfl ?_ ?_
    · rw [begun]
      exact url
    · rw [begun]
      exact on.place
  · exact List.forall_mem_cons.mpr ⟨fun _ => enough, (List.forall_mem_cons.mp h.proven).2⟩
  · exact List.forall_mem_cons.mpr (List.forall_mem_cons.mp h.unreversed)

end Placed

structure Sound (c : Texts) (start : Endpoint) (least : Int) (s : System) : Prop where
  placed : Placed c start least s.file s.saved s.worker.intent s.trials
  receipted : Receipted s.worker s.replaced

section Procedures

variable {c : Texts} {x : Env} {start : Endpoint} {least : Int} {s : System} {i : LifecycleIntent}

namespace Sound

section

variable (h : Sound c start least s)
include h

theorem pending (hi : s.worker.intent = some i) : Placed c start least s.file s.saved (some i) s.trials := hi ▸ h.placed

theorem idle (hi : s.worker.intent = none) : Placed c start least s.file s.saved none s.trials := hi ▸ h.placed

theorem cleared (hi : s.worker.intent = some i) (back : AtPrevious i s.saved)
    : Sound c start least (s.withIntent none) :=
  ⟨(h.pending hi).left back, h.receipted.cleared⟩

theorem switched (hi : s.worker.intent = some i) {j : LifecycleIntent} (allowed : switchRefusal c s.file j = none)
    (place : AtPrevious i (target s.file j) ∨ AtCandidate i (target s.file j)) :
    Sound c start least (s.switched .done (target s.file j)) := by
  have trusted : c.poolFromPem (target s.file j).caCertPem = none := (Option.or_eq_none_iff.mp allowed).2
  have rising : s.saved.endpointGeneration ≤ (target s.file j).endpointGeneration := by
    rw [← h.placed.synced]
    unfold target
    dsimp only
    split
    · omega
    · exact le_refl _
  refine ⟨?_, h.receipted⟩
  have moved := (h.pending hi).moved trusted rising place
  rw [← hi] at moved
  exact moved

end

end Sound

theorem target_candidate (file : Endpoint) (trust : i.previousTrust = file.caCertPem) :
    AtCandidate i (target file i) := by
  refine ⟨rfl, ?_⟩
  rw [trust]
  rfl

section

variable (h : Sound c start least s)
include h

theorem applySwitch_forward (hi : s.worker.intent = some i)
    (back : AtPrevious i s.saved) (atomic : x.config ≠ .renamed) : Holds (Sound c start least) (applySwitch c x false i)
      (fun error u => Sound c start least u ∧ u.worker.intent = some i ∧ (error.isSome → AtPrevious i u.saved)) s := by
  refine .bind (.read ?_)
  split
  · exact .pure ⟨h, hi, fun _ => back⟩
  rename_i allowed
  have trust : i.previousTrust = s.file.caCertPem := by rw [h.placed.synced, back.2]
  cases config : x.config with
  | done =>
    have switched := h.switched hi allowed (.inr (target_candidate s.file trust))
    exact .bind (.op switched (.pure ⟨switched, hi, nofun⟩))
  | failed => exact .bind (.op h (.pure ⟨h, hi, fun _ => back⟩))
  | renamed => exact absurd config atomic

theorem startTrial_sound (idle : s.worker.intent = none)
    (kind : i.kind = .rebindSwitch) (zero : i.acknowledgements = 0)
    (url : i.previousUrl = s.file.controllerUrl) (trust : i.previousTrust = s.file.caCertPem)
    (memory : i.jobId ≠ "" → Undecided s.worker.agent.jobs i.jobId)
    (disk : i.jobId ≠ "" → Undecided s.worker.disk i.jobId) (atomic : x.config ≠ .renamed) :
    Holds (Sound c start least) (startTrial c x i) (fun _ => Sound c start least) s := by
  have begun : Sound c start least (s.began i) :=
    ⟨(h.idle idle).began kind zero url trust, h.receipted.pending memory disk⟩
  have back : AtPrevious i (s.began i).saved := by
    refine ⟨?_, ?_⟩
    · rw [url, h.placed.synced]
      rfl
    · rw [trust, h.placed.synced]
      rfl
  refine .bind (.replace h begun (.pure h) (.pure begun) ?_)
  refine .bind ((applySwitch_forward begun rfl back atomic).mono (fun _ => id) ?_)
  rintro error u ⟨sound, pending, failed⟩
  unfold withdraw
  split
  · rename_i hf
    have cleared := sound.cleared pending (failed hf)
    exact .bind (.op cleared (.pure cleared))
  · exact .pure sound

theorem beginMigration_sound (p : MigrationPlan) (jobId operationId : String)
    (memory : jobId ≠ "" → Undecided s.worker.agent.jobs jobId)
    (disk : jobId ≠ "" → Undecided s.worker.disk jobId) (atomic : x.config ≠ .renamed) :
    Holds (Sound c start least) (beginMigration c x p jobId operationId) (fun _ => Sound c start least) s := by
  refine .bind (.read ?_)
  split
  · exact .pure h
  rename_i allowed
  have idle : s.worker.intent = none := by
    have second := (Option.or_eq_none_iff.mp allowed).2
    split at second
    · exact absurd second nofun
    · rename_i none
      simpa using none
  exact startTrial_sound h idle rfl rfl rfl rfl memory disk atomic

theorem Sound.noted (hi : s.worker.intent = some i) (named : i.jobId ≠ "") :
    Sound c start least
      { s.noted i with worker := (s.worker.put ⟨.rebindActivate, fallbackReceipt i⟩).save x.journal } := by
  have fallback : ¬Confirmation ⟨.rebindActivate, fallbackReceipt i⟩ := fun success => nomatch success.2
  refine ⟨h.placed, { (h.receipted.put fallback).save x.journal with kept := fun p hp => ?_ }⟩
  obtain now | before := List.mem_append.mp hp
  · obtain ⟨mem, same⟩ := List.mem_filter.mp now
    exact h.receipted.memory i hi named p mem (beq_iff_eq.mp same)
  · exact h.receipted.kept p before

theorem finishFallback_sound (hi : s.worker.intent = some i) (back : AtPrevious i s.saved) :
    Holds (Sound c start least) (finishFallback x i) (fun _ => Sound c start least) s := by
  have clear : ∀ u, Sound c start least u → u.worker.intent = some i → AtPrevious i u.saved →
      Holds (Sound c start least) (do
        clearIntent
        .op fun u => { u with nextMigrationTrial := x.now + minute })
        (fun _ => Sound c start least) u := by
    intro u hu pending place
    have cleared := hu.cleared pending place
    exact .bind (.op cleared (.op ⟨cleared.placed, cleared.receipted⟩ ⟨cleared.placed, cleared.receipted⟩))
  unfold finishFallback saveReceipt
  apply Holds.bind
  split
  · exact .pure (clear s h hi back)
  · rename_i named
    have noted := h.noted (x := x) hi named
    refine .bind (.op noted (.pure ?_))
    split
    · exact .pure noted
    · exact clear _ noted hi back

theorem maintainTrial_sound (hi : s.worker.intent = some i) (atomic : x.config ≠ .renamed) :
    Holds (Sound c start least) (maintainTrial c x s.file i) (fun _ => Sound c start least) s := by
  obtain ⟨t, ts, trials, on⟩ := h.placed.pending i hi
  unfold maintainTrial
  split
  · exact .pure h
  split
  · -- the candidate was never published
    rename_i unpublished
    rw [h.placed.synced] at unpublished
    have back : AtPrevious i s.saved := on.place.resolve_right fun there => unpublished.1 there.1
    exact .op (h.cleared hi back) (h.cleared hi back)
  split
  · exact .pure h
  have nonempty : i.previousTrust ≠ "" := fun empty => c.emptyPool (empty ▸ on.trusted)
  have back : AtPrevious i (target s.file { i with candidateUrl := i.previousUrl, trustPem := i.previousTrust }) :=
    ⟨rfl, if_neg nonempty⟩
  refine .bind (.bind (.read ?_))
  split
  · exact .pure (.pure h)
  rename_i allowed
  cases config : x.config with
  | done =>
    have switched := h.switched hi allowed (.inl back)
    have reverted : Sound c start least ((s.switched .done _).reverted .done) :=
      ⟨hi ▸ (switched.pending hi).reverted, switched.receipted⟩
    exact .bind (.op reverted (.pure (finishFallback_sound reverted hi back)))
  | failed => exact .bind (.op h (.pure (.pure h)))
  | renamed => exact absurd config atomic

theorem maintainMigration_sound (atomic : x.config ≠ .renamed) :
    Holds (Sound c start least) (maintainMigration c x) (fun _ => Sound c start least) s := by
  refine .bind (.read ?_)
  split
  · rename_i i hi
    exact maintainTrial_sound h hi atomic
  split
  · exact .pure h
  split
  · have delayed : Sound c start least { s with nextMigrationTrial := x.now + minute } :=
      ⟨h.placed, h.receipted⟩
    refine .bind (.op delayed (.bind ?_))
    exact (beginMigration_sound delayed _ "" "" (absurd rfl) (absurd rfl) atomic).mono (fun _ => id)
      fun _ _ sound => .pure sound
  · exact .pure h

end

/-- What `jobRebind` ends with: an activation does not succeed by itself. -/
def Answered (c : Texts) (start : Endpoint) (least : Int) (job : JobEnvelope) (r : JobReceipt)
    (u : System) : Prop :=
  Sound c start least u ∧ (job.action = .rebindActivate → r.status ≠ .succeeded)

section

variable (h : Sound c start least s)
include h

theorem Sound.refused (r : JobReceipt) (stage error : String) : Answered c start least job (failed r stage error) s :=
  ⟨h, fun _ => nofun⟩

theorem Sound.planned (plan : Option MigrationPlan) (r : JobReceipt) (other : job.action ≠ .rebindActivate) :
    Answered c start least job r { s with plan } :=
  ⟨⟨h.placed, h.receipted⟩, fun same => absurd same other⟩

theorem jobPlanned_sound (r : JobReceipt) (job : JobEnvelope)
    (plan : MigrationPlan) (absent : s.worker.holds job.jobId = false)
    (pending : r.status ≠ .succeeded) (atomic : x.config ≠ .renamed) :
    Holds (Sound c start least) (jobPlanned c x s r job plan) (Answered c start least job) s := by
  unfold jobPlanned
  split
  · rename_i retire
    have other : job.action ≠ .rebindActivate := by simp [retire]
    unfold jobRetire
    split
    · exact .pure (h.refused r _ _)
    split
    · exact .pure (h.refused r _ _)
    · exact .bind (.op ⟨h.placed, h.receipted⟩ (.pure (h.planned none _ other)))
  split
  · exact .pure (h.refused r _ _)
  split
  · rename_i arm
    have other : job.action ≠ .rebindActivate := by simp [arm]
    exact .bind (.replace h ⟨h.placed, h.receipted⟩ (.pure (h.refused r _ _))
      (.pure (h.planned _ _ other)) (.pure (h.planned _ _ other)))
  split
  · obtain ⟨memory, disk⟩ := h.receipted.undecided_of_absent absent
    refine .bind ((beginMigration_sound h plan job.jobId job.operationId (fun _ => memory) (fun _ => disk)
      atomic).mono (fun _ => id) fun error u sound => .pure ⟨sound, fun _ => ?_⟩)
    cases error with
    | none => exact nofun
    | some error => exact nofun
  · exact .pure ⟨h, fun _ => pending⟩

theorem jobRebind_sound (job : JobEnvelope) (absent : s.worker.holds job.jobId = false) (atomic : x.config ≠ .renamed) :
    Holds (Sound c start least) (jobRebind c x job) (Answered c start least job) s := by
  refine .bind (.read ?_)
  dsimp only [id]
  split
  · rename_i prepare
    have other : job.action ≠ .rebindActivate := by simp [prepare]
    unfold jobPrepare
    split
    · exact .pure (h.refused _ _ _)
    · exact .bind (.replace h ⟨h.placed, h.receipted⟩ (.pure (h.refused _ _ _))
        (.pure (h.planned _ _ other)) (.pure (h.planned _ _ other)))
  split
  · exact .pure (h.refused _ _ _)
  · exact jobPlanned_sound h _ job _ absent nofun atomic

theorem handleRebind_sound (controller : String) (job : JobEnvelope) (atomic : x.config ≠ .renamed) :
    Holds (Sound c start least) (handleRebind c x controller job) (fun _ => Sound c start least) s := by
  refine .bind (.read ?_)
  split
  · exact .pure h
  rename_i admitted
  have absent : s.worker.holds job.jobId = false := by
    simp only [Bool.or_eq_true, not_or, Bool.not_eq_true] at admitted
    exact admitted.1.1
  have answered := jobRebind_sound (x := x) h job absent atomic
  have kept := jobRebind_keeps (c := c) (x := x) job s
  refine .bind ⟨answered.1, ?_⟩
  obtain ⟨sound, unsucceeded⟩ := answered.2
  have unknown : (jobRebind c x job s).state.worker.holds job.jobId = false := by
    rw [kept]
    exact absent
  have recorded := sound.receipted.record x.record (p := ⟨job.action, stamped job x.now _⟩) unknown
    fun success => unsucceeded success.1 success.2
  have same : ∀ (w : Worker) (p : Pending) (o : WriteOutcome), (w.record p o).intent = w.intent := by
    intro w p o
    cases o <;> rfl
  refine .op ⟨?_, recorded⟩ ⟨?_, recorded⟩
  all_goals
    rw [same]
    exact sound.placed

theorem Sound.contacted (now : Time) : Sound c start least (s.contacted now) := by
  refine ⟨?_, h.receipted⟩
  cases hi : s.worker.intent with
  | none =>
    have same : (s.contacted now).trials = s.trials := by simp [System.contacted, hi]
    rw [same]
    exact h.placed
  | some i =>
    have exchanged := (h.pending hi).exchanged now
    rw [← hi] at exchanged
    unfold System.contacted
    split
    · exact exchanged
    · exact h.placed

theorem Sound.exchanged (hi : s.worker.intent = some i)
    (answers : answersTrial s.file.controllerUrl i) (now : Time) :
    ∃ t ts, (s.contacted now).trials = t :: ts ∧ OnTrial c s.saved i t ∧
      i.acknowledgements + 1 ≤ t.exchanges.length ∧ now ∈ t.exchanges := by
  obtain ⟨t, ts, trials, on⟩ := h.placed.pending i hi
  refine ⟨{ t with exchanges := now :: t.exchanges }, ts, ?_, ?_, ?_, ?_⟩
  · simp [System.contacted, hi, answers, trials, latest]
  · refine { on with count := on.count.trans ?_ }
    simp only [List.length_cons]
    omega
  · have count := on.count
    simp only [List.length_cons]
    omega
  · simp

end

def confirms (s : System) (now : Time) : Bool :=
  s.worker.intent.any fun i => answersTrial s.file.controllerUrl i && proves now (counted i) &&
    s.plan.any fun p => p.planId == i.planId

theorem contact_sound (h : Sound c start least s) (short : confirms s x.now = false ∨ x.plan = .failed) :
    Holds (Sound c start least) (contact x) (fun _ => Sound c start least) s := by
  have contacted := h.contacted x.now
  refine .bind (.read (.bind (.op contacted (.bind (.read ?_)))))
  dsimp only [id]
  split
  · exact .pure contacted
  rename_i i hi
  split
  · exact .pure contacted
  rename_i answers
  simp only [Bool.not_eq_true, Bool.not_eq_false'] at answers
  obtain ⟨t, ts, trials, on, more, -⟩ := h.exchanged hi answers x.now
  split
  · have pending := contacted.pending hi
    rw [trials] at pending
    have counts : Sound c start least ((s.contacted x.now).withIntent (some (counted i))) := by
      refine ⟨?_, h.receipted.pending (h.receipted.memory i hi) (h.receipted.disk i hi)⟩
      have placed := pending.counts more
      rw [← trials] at placed
      exact placed
    exact .bind (.replace contacted counts (.pure contacted) (.pure counts) (.pure counts))
  · rename_i proven
    simp only [Bool.not_eq_true, Bool.not_eq_false'] at proven
    unfold confirm
    split
    · exact .pure contacted
    split
    · exact .pure contacted
    rename_i p plan same
    have plan : s.plan = some p := plan
    have same : p.planId = i.planId := not_not.mp same
    have confirming : confirms s x.now := by
      simp [confirms, show s.worker.intent = some i from hi, answers, proven, plan, same]
    have failed : x.plan = .failed := short.resolve_left (by simp [confirming])
    rw [failed]
    exact .bind (.replace_failed contacted (.pure contacted))

theorem confirms_cases {now : Time} (confirming : confirms s now) :
    ∃ i p, s.worker.intent = some i ∧ answersTrial s.file.controllerUrl i ∧
      proves now (counted i) ∧ s.plan = some p ∧ p.planId = i.planId := by
  obtain ⟨i, hi, all⟩ := (Option.any_eq_true _ _).mp confirming
  simp only [Bool.and_eq_true] at all
  obtain ⟨p, plan, same⟩ := (Option.any_eq_true _ _).mp all.2
  exact ⟨i, p, hi, all.1.1, all.1.2, plan, beq_iff_eq.mp same⟩

theorem contact_steps {p : MigrationPlan} (hi : s.worker.intent = some i)
    (answers : answersTrial s.file.controllerUrl i) (proven : proves x.now (counted i))
    (plan : s.plan = some p) (same : p.planId = i.planId) (done : x.plan = .done) :
    let u := (s.contacted x.now).confirmed { p with confirmedAt := some x.now }
    contact x s = ⟨s.contacted x.now :: u :: (finishConfirmed x (counted i) u).passed,
      (finishConfirmed x (counted i) u).state, ⟨⟩⟩ := by
  intro u
  have recorded : recordMigrationContact x s.file.controllerUrl (s.contacted x.now) =
      ⟨u :: (finishConfirmed x (counted i) u).passed, (finishConfirmed x (counted i) u).state, ⟨⟩⟩ := by
    have pending : (s.contacted x.now).worker.intent = some i := hi
    have planned : (s.contacted x.now).plan = some p := plan
    unfold recordMigrationContact
    rw [Proc.read_bind]
    simp only [id, pending, planned, answers, proven, Bool.not_true, Bool.false_eq_true, if_false, confirm]
    have named : ¬p.planId ≠ (counted i).planId := not_not.mpr same
    rw [if_neg named, done]
    rfl
  unfold contact
  rw [Proc.read_bind, Proc.op_bind]
  simp only [id, recorded]

theorem finishConfirmed_done {u : System} (written : i.jobId = "" ∨ x.journal = .done) :
    (finishConfirmed x i u).passed.getLast? = some (finishConfirmed x i u).state ∧
      ∃ w : Worker, (finishConfirmed x i u).state = { u with worker := { w with intent := none } } ∧
        (w = u.worker ∨ w = (u.worker.put ⟨.rebindActivate, confirmedReceipt i x.now⟩).save .done) := by
  unfold finishConfirmed saveReceipt
  split
  · exact ⟨rfl, _, rfl, .inl rfl⟩
  · rename_i named
    rw [written.resolve_left named]
    exact ⟨rfl, _, rfl, .inr rfl⟩

theorem contact_confirmed (h : Sound c start least s) (confirming : confirms s x.now)
    (plan : x.plan = .done)
    (journal : x.journal = .done ∨ (s.worker.intent.any fun i => i.jobId == "")) :
    Sound c start least (contact x s).state ∧
      (contact x s).passed.getLast? = some (contact x s).state := by
  obtain ⟨i, p, hi, answers, proven, planned, same⟩ := confirms_cases confirming
  obtain ⟨t, ts, trials, on, more, latest⟩ := h.exchanged hi answers x.now
  have steps := contact_steps (x := x) hi answers proven planned same plan
  have written : (counted i).jobId = "" ∨ x.journal = .done := by
    simp only [hi, Option.any_some, beq_iff_eq] at journal
    exact journal.symm
  obtain ⟨last, w, final, worker⟩ := finishConfirmed_done (x := x)
    (u := (s.contacted x.now).confirmed { p with confirmedAt := some x.now }) written
  rw [steps]
  refine ⟨?_, ?_⟩
  · have contacted := (h.contacted x.now).pending hi
    rw [trials] at contacted
    have reached : s.saved.controllerUrl = i.candidateUrl := by
      rw [← h.placed.synced]
      exact (answersTrial_kind answers).2
    obtain ⟨third, late⟩ := Bool.and_eq_true_iff.mp proven
    have third : 3 ≤ i.acknowledgements + 1 := of_decide_eq_true third
    have late : 15 * second ≤ x.now - i.switchedAt := of_decide_eq_true late
    have enough : Enough t := by
      refine ⟨by omega, x.now, latest, ?_⟩
      rw [on.begun]
      exact late
    have placed := contacted.confirmed reached enough
    rw [final]
    refine ⟨?_, ?_⟩
    · have marked : ((s.contacted x.now).confirmed { p with confirmedAt := some x.now }).trials =
          { t with confirmed := true } :: ts := by
        simp only [System.confirmed, trials, Migration.latest]
      rw [marked]
      exact placed
    · obtain rfl | rfl := worker
      · exact h.receipted.cleared
      · exact ⟨nofun, nofun, fun q hq _ => ⟨q, hq, rfl⟩, h.receipted.kept⟩
  · rw [List.getLast?_cons, List.getLast?_cons, last]
    rfl

end Procedures

inductive Event
  | job (controller : String) (job : JobEnvelope) (x : Env) (cut : Option Nat)
  | contact (x : Env) (cut : Option Nat)
  | maintain (x : Env) (cut : Option Nat)
  | control (sent : List JobReceipt) (r : ControlResponse) (paused : Option Bool) (o : WriteOutcome)
  | crash
  | reopen (session : String) (now : Time) (o : WriteOutcome)

def ended (cut : Option Nat) (s : System) : System :=
  if cut.isSome then { s with worker := s.worker.crash } else s

def step (c : Texts) (s : System) : Event → System
  | .job controller job x cut =>
    if s.worker.running then ended cut ((handleRebind c x controller job).leaves s cut) else s
  | .contact x cut => if s.worker.running then ended cut ((contact x).leaves s cut) else s
  | .maintain x cut => if s.worker.running then ended cut ((maintainMigration c x).leaves s cut) else s
  | .control sent r paused o =>
    if s.worker.running then { s with worker := s.worker.applyControl sent r paused o } else s
  | .crash => { s with worker := s.worker.crash }
  | .reopen session now o =>
    if s.worker.running then s
    else
      { s with
        worker := s.worker.open session o, file := s.saved, lastContact := now
        nextMigrationTrial := zeroTime }

structure Enrollment (c : Texts) where
  agentId : String
  controllerId : String
  endpoint : Endpoint
  trusted : c.poolFromPem endpoint.caCertPem = none

def initial {c : Texts} (e : Enrollment c) : System where
  worker :=
    { agent :=
        { agentId := e.agentId, controllerId := e.controllerId, session := "", sequence := 0
          paused := false, jobs := .empty, receiptCursor := "", spool := [] }
      disk := .empty, intent := none, running := false, inbox := [], trials := [] }
  file := e.endpoint
  saved := e.endpoint
  plan := none
  lastContact := zeroTime
  nextMigrationTrial := zeroTime
  trials := []
  replaced := []

/-- No failing write replaces the configuration, and a confirmation goes on to the journal and the removal
of the intent. -/
def decidedWhole (s : System) : Event → Bool
  | .job _ _ x _ | .maintain x _ => x.config != .renamed
  | .contact x cut =>
    !confirms s x.now || x.plan == .failed || cut.any (fun n => decide (n ≤ 1)) ||
      (x.plan == .done && (x.journal == .done || s.worker.intent.any fun i => i.jobId == "") &&
        cut.all fun n => decide ((contact x s).passed.length ≤ n))
  | _ => true

section Runs

variable {c : Texts} {start : Endpoint} {least : Int} {s : System}

theorem Sound.ended (h : Sound c start least s) (cut : Option Nat) : Sound c start least (ended cut s) := by
  unfold MigrationDecision.ended
  split
  · exact ⟨h.placed, h.receipted.memory, h.receipted.disk, h.receipted.held, h.receipted.kept⟩
  · exact h

theorem contact_leaves (h : Sound c start least s) (x : Env) (cut : Option Nat)
    (whole : decidedWhole s (.contact x cut)) : Sound c start least ((contact x).leaves s cut) := by
  by_cases short : confirms s x.now = false ∨ x.plan = .failed
  · exact (contact_sound h short).kept h cut
  obtain ⟨confirming, written⟩ := not_or.mp short
  have confirming : confirms s x.now := by simpa using confirming
  simp only [decidedWhole, confirming, Bool.not_true, Bool.false_or, beq_eq_false_iff_ne.mpr written,
    Bool.or_eq_true, Bool.and_eq_true, beq_iff_eq] at whole
  obtain early | ⟨⟨plan, journal⟩, late⟩ := whole
  · -- the crash comes before the plan is saved
    obtain ⟨n, rfl, few⟩ := (Option.any_eq_true _ _).mp early
    have few : n ≤ 1 := of_decide_eq_true few
    obtain rfl | rfl : n = 0 ∨ n = 1 := by omega
    · exact h
    · exact h.contacted x.now
  · obtain ⟨sound, last⟩ := contact_confirmed h confirming plan journal
    cases cut with
    | none => exact sound
    | some n =>
      have behind : (contact x s).passed.length ≤ n := of_decide_eq_true late
      rw [Proc.leaves, Proc.stopAt_end last behind]
      exact sound

theorem open_intent (w : Worker) (session : String) (o : WriteOutcome) : (w.open session o).intent = w.intent := by
  unfold Worker.open Worker.restoreIntentReceipt
  dsimp only
  repeat' split
  all_goals rfl

theorem step_sound (h : Sound c start least s) (e : Event) (whole : decidedWhole s e) :
    Sound c start least (step c s e) := by
  cases e with
  | job controller job x cut =>
    simp only [step]
    split
    · have atomic : x.config ≠ .renamed := by simpa [decidedWhole] using whole
      exact ((handleRebind_sound h controller job atomic).kept h cut).ended cut
    · exact h
  | contact x cut =>
    simp only [step]
    split
    · exact (contact_leaves h x cut whole).ended cut
    · exact h
  | maintain x cut =>
    simp only [step]
    split
    · have atomic : x.config ≠ .renamed := by simpa [decidedWhole] using whole
      exact ((maintainMigration_sound h atomic).kept h cut).ended cut
    · exact h
  | control sent r paused o =>
    simp only [step]
    split
    · refine ⟨?_, h.receipted.applyControl sent r paused o⟩
      cases o <;> exact h.placed
    · exact h
  | crash => exact h.ended (some 0)
  | reopen session now o =>
    simp only [step]
    split
    · exact h
    · refine ⟨?_, h.receipted.reopened session o⟩
      rw [open_intent]
      exact { h.placed with synced := rfl }

theorem initial_sound (e : Enrollment c) : Sound c e.endpoint e.endpoint.endpointGeneration (initial e) := by
  have empty : ∀ p, p ∉ (Table.empty : Table Pending Pending.jobId) := Table.not_mem_empty
  refine ⟨⟨rfl, e.trusted, le_refl _, fun _ => ⟨rfl, rfl⟩, ?_, ?_, ?_, ?_⟩, ⟨?_, ?_, ?_, ?_⟩⟩
  · exact fun i hi => nomatch hi
  · exact fun _ t ts same => nomatch same
  · exact fun t ht => absurd ht List.not_mem_nil
  · exact fun t ht => absurd ht List.not_mem_nil
  · exact fun i hi => nomatch hi
  · exact fun i hi => nomatch hi
  · exact fun p hp => absurd hp (empty p)
  · exact fun p hp => absurd hp List.not_mem_nil

end Runs

/-- The endpoint in use belongs to one intent, a retained candidate has proved itself, no confirmed trial is
undone. -/
structure DecidedOnce (start : Endpoint) (s : System) : Prop where
  inUse : s.file = s.saved
  enrolled : s.trials = [] →
    s.saved.controllerUrl = start.controllerUrl ∧ s.saved.caCertPem = start.caCertPem
  endpoint : ∀ t ts, s.trials = t :: ts → AtPrevious t.intent s.saved ∨ AtCandidate t.intent s.saved
  retained : ∀ t ts, s.trials = t :: ts → s.worker.intent = none → AtCandidate t.intent s.saved →
    AtPrevious t.intent s.saved ∨ Enough t
  confirmed : ∀ t ts, s.trials = t :: ts → t.confirmed →
    s.saved.controllerUrl = t.intent.candidateUrl
  unreversed : ∀ t ∈ s.trials, t.reversed = false
  kept : ∀ p ∈ s.replaced, ¬Confirmation p

theorem Sound.decidedOnce {c : Texts} {start : Endpoint} {least : Int} {s : System}
    (h : Sound c start least s) : DecidedOnce start s := by
  have latest : ∀ t ts, s.trials = t :: ts →
      (∃ i, s.worker.intent = some i ∧ OnTrial c s.saved i t) ∨ (s.worker.intent = none ∧ Settled s.saved t) := by
    intro t ts trials
    cases hi : s.worker.intent with
    | none => exact .inr ⟨rfl, h.placed.settled hi t ts trials⟩
    | some i =>
      obtain ⟨t', ts', same, on⟩ := h.placed.pending i hi
      rw [trials] at same
      cases same
      exact .inl ⟨i, rfl, on⟩
  refine ⟨h.placed.synced, h.placed.first, ?_, ?_, ?_, h.placed.unreversed, h.receipted.kept⟩
  · intro t ts trials
    obtain ⟨i, -, on⟩ | ⟨-, settled⟩ := latest t ts trials
    · rw [on.begun]
      exact on.place
    · cases settled with
      | retained _ _ place => exact place
      | left _ place => exact .inl place
  · intro t ts trials idle _
    cases h.placed.settled idle t ts trials with
    | retained confirmed _ _ => exact .inr (h.placed.proven t (trials ▸ List.mem_cons_self) confirmed)
    | left _ place => exact .inl place
  · intro t ts trials confirmed
    obtain ⟨i, -, on⟩ | ⟨-, settled⟩ := latest t ts trials
    · rw [on.unconfirmed] at confirmed
      exact absurd confirmed (by decide)
    · cases settled with
      | retained _ url _ => exact url
      | left unconfirmed _ =>
        rw [unconfirmed] at confirmed
        exact absurd confirmed (by decide)

/-- While every confirmation is whole, a migration is decided once, in every state of every run,
and the generation of the endpoint never falls. -/
theorem migration_decided_once (c : Texts) (e : Enrollment c) (before after : List Event)
    (whole : Meets (step c) (fun s e => decidedWhole s e) (initial e) (before ++ after)) :
    let s := run (step c) (initial e) (before ++ after)
    DecidedOnce e.endpoint s ∧
      (run (step c) (initial e) before).saved.endpointGeneration ≤ s.saved.endpointGeneration := by
  obtain ⟨first, rest⟩ := (meets_append (initial e) before after).mp whole
  have reached := run_invariant (Sound c e.endpoint e.endpoint.endpointGeneration)
    (fun _ e h ok => step_sound h e ok) (initial_sound e) first
  -- from here on, no generation is below the one just reached
  have restarted : Sound c e.endpoint (run (step c) (initial e) before).saved.endpointGeneration
      (run (step c) (initial e) before) :=
    ⟨{ reached.placed with rising := le_refl _ }, reached.receipted⟩
  have final := run_invariant (Sound c e.endpoint _) (fun _ e h ok => step_sound h e ok) restarted rest
  rw [← run_append] at final
  exact ⟨final.decidedOnce, final.placed.rising⟩

def plain : Texts where
  validateControllerUrl _ := none
  poolFromPem text := if text = "" then some "invalid CA PEM" else none
  sha256 text := text
  parseTime _ := 3600 * second
  emptyPool := by decide

def enrolled : Enrollment plain := ⟨"a1", "c1", ⟨"https://old", "pem", 0⟩, rfl⟩

def smooth (now : Time) : Env where
  now
  intent := .done
  config := .done
  plan := .done
  journal := .done
  record := .done
  cleared := true
  identity := none
  ioError := ""

def rebindJob (jobId : String) (action : Action) (params : Fields) : JobEnvelope :=
  { jobId, operationId := "o1", action, schemaVersion := schemaVersion, notBefore := 0
    deadline := some (3600 * second), params := ("plan_id", .str "p1") :: params }

def activation (cut : Option Nat) : List Event :=
  [.reopen "s1" 0 .done,
    .job "c1" (rebindJob "j1" .rebindPrepare
      [("candidate_url", .str "https://new"), ("controller_id", .str "c1"), ("generation", .int 1),
        ("payload_hash", .str "https://new|c1"), ("expires_at", .str "later")]) (smooth second) none,
    .job "c1" (rebindJob "j2" .rebindActivate []) (smooth (2 * second)) none,
    .contact (smooth (7 * second)) none,
    .contact (smooth (12 * second)) none,
    .contact (smooth (17 * second)) cut]

theorem migration_decided_once_activated :
    let s := run (step plain) (initial enrolled) (activation none)
    s.saved = ⟨"https://new", "pem", 1⟩ ∧ s.worker.intent = none ∧ DecidedOnce ⟨"https://old", "pem", 0⟩ s :=
  ⟨by decide, by decide, (migration_decided_once plain enrolled (activation none) [] (by decide)).1⟩

/-- The worker dies before it removes the intent; started a minute after the switch, it goes back and
replaces the receipt of the success. -/
theorem confirmed_migration_reversed :
    let died := run (step plain) (initial enrolled) (activation (some 3))
    let s := run (step plain) died [.reopen "s2" (100 * second) .done, .maintain (smooth (100 * second)) none]
    (died.plan.bind (·.confirmedAt)) = some (17 * second) ∧ died.saved.controllerUrl = "https://new" ∧
      (s.plan.bind (·.confirmedAt)) = some (17 * second) ∧ s.saved.controllerUrl = "https://old" ∧
      (∃ t ∈ s.trials, t.reversed) ∧ (∃ p ∈ s.replaced, Confirmation p) ∧
      (∃ p ∈ s.worker.disk, p.jobId = "j2" ∧ p.receipt.stage = "rebind.fallback") := by
  decide

end Monik.MigrationDecision
