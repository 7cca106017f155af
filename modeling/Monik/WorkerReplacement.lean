import Monik.Runs
import Monik.ServiceHost

/-! Runs of the service host: updates and rollbacks cut short after any operation, and the recovery
at every start. Recovery leaves a confirmed journal alone, so a rollback of a confirmed update must
not be cut between the restored bytes and its journal. -/

namespace Monik.WorkerReplacement
open Lifecycle Persistence CrashPoints ServiceHost Runs

variable {β : Type} {d : Digest β} {h : Host} {original : β} {f : Installation β}

variable {j : Journal} {digest component expect : String} {o : WriteOutcome} {x : Env} {cut : Option Nat}

def Known (original : β) (f : Installation β) (b : β) : Prop :=
  b = original ∨ ∃ digest, (b, digest) ∈ f.staged

def Agrees (d : Digest β) (f : Installation β) : Prop :=
  match f.journal.stage with
  | .idle => True
  | .staged | .rolledBack => d.sha f.worker = f.journal.oldSha
  | .switching | .probation =>
    d.sha f.worker = f.journal.oldSha ∨ ∃ b ∈ f.prev, d.sha b = f.journal.oldSha
  | .confirmed => d.sha f.worker = f.journal.newSha

def Formed (h : Host) (j : Journal) : Prop :=
  identifies h j ∧ hexDigest j.oldSha ∧ j.txId ≠ ""

structure Sound (d : Digest β) (h : Host) (original : β) (f : Installation β) : Prop where
  worker : Known original f f.worker
  prev : ∀ b ∈ f.prev, Known original f b
  verified : ∀ e ∈ f.staged, d.sha e.1 = e.2
  formed : f.journal.stage ≠ .idle → Formed h f.journal
  agrees : Agrees d f

/-- The host works on the transaction `j`: its journal is on disk, cut before its result. -/
structure During (d : Digest β) (h : Host) (original : β) (j : Journal) (f : Installation β) : Prop where
  sound : Sound d h original f
  formed : Formed h j
  open' : incomplete f.journal.stage
  oldSha : f.journal.oldSha = j.oldSha

theorem Sound.withAlive (hf : Sound d h original f) (alive : Bool) : Sound d h original { f with alive } :=
  ⟨hf.worker, hf.prev, hf.verified, hf.formed, hf.agrees⟩

theorem During.withAlive (hf : During d h original j f) (alive : Bool) : During d h original j { f with alive } :=
  ⟨hf.sound.withAlive alive, hf.formed, hf.open', hf.oldSha⟩

theorem agrees_incomplete (open' : incomplete f.journal.stage) :
    Agrees d f ↔ d.sha f.worker = f.journal.oldSha ∨ ∃ b ∈ f.prev, d.sha b = f.journal.oldSha := by
  unfold Agrees
  cases stage : f.journal.stage <;> rw [stage] at open' <;> first | rfl | cases open'

theorem Sound.journal (hf : Sound d h original f) (formed : Formed h j) (agrees : Agrees d { f with journal := j }) :
    Sound d h original { f with journal := j } :=
  ⟨hf.worker, hf.prev, hf.verified, fun _ => formed, agrees⟩

theorem During.restored (hf : During d h original j f) {b : β} (known : Known original f b)
    (old : d.sha b = j.oldSha) : During d h original j { f with worker := b } := by
  refine ⟨⟨known, hf.sound.prev, hf.sound.verified, hf.sound.formed, ?_⟩, hf.formed, hf.open', hf.oldSha⟩
  rw [agrees_incomplete (by exact hf.open')]
  exact .inl (old.trans hf.oldSha.symm)

variable {post : Bool → Installation β → Prop}

section Rules

variable {inv : Installation β → Prop}

theorem restoreVerified_holds (stays : inv f) (failed : post false f)
    (restored : ∀ b ∈ f.prev, d.sha b = digest → inv { f with worker := b } ∧
    post false { f with worker := b } ∧ post true { f with worker := b }) :
    Holds inv (restoreVerified d digest o) post f := by
  unfold restoreVerified
  split
  · exact .pure failed
  refine .bind (.read ?_)
  split
  · exact .pure failed
  rename_i b found
  split
  · exact .pure failed
  · rename_i same
    obtain ⟨now, unsure, sure⟩ := restored b found (not_not.mp same)
    exact .replace stays now failed unsure sure

end Rules

theorem restoreOld_holds (hf : During d h original j f) : Holds (Sound d h original) (restoreOld d j o)
      (fun restored u => During d h original j u ∧ (restored → d.sha u.worker = j.oldSha)) f := by
  refine .bind (.read ?_)
  split
  · rename_i same
    exact .pure ⟨hf, fun _ => same⟩
  · refine restoreVerified_holds hf.sound ⟨hf, nofun⟩ fun b hb old => ?_
    have next := hf.restored (hf.sound.prev b hb) old
    exact ⟨next.sound, ⟨next, nofun⟩, next, fun _ => old⟩

theorem restoreJournaledWorker_holds (hf : During d h original j f) :
    Holds (Sound d h original) (restoreJournaledWorker d h j o)
      (fun restored u => During d h original j u ∧ (restored → d.sha u.worker = j.oldSha)) f := by
  unfold restoreJournaledWorker
  split
  · exact .pure ⟨hf, nofun⟩
  · exact restoreOld_holds hf

theorem startWorker_holds {started : Bool}
    (hf : Sound d h original f) (then' : ∀ alive, post started { f with alive }) :
    Holds (Sound d h original) (startWorker started) post f := by
  exact .bind (.op (hf.withAlive _) (.pure (then' _)))

theorem failedActivation_holds {reason : String} (hf : During d h original j f) :
    Holds (Sound d h original) (failedActivation d h j reason x) (fun _ => Sound d h original) f := by
  refine .bind (.op (hf.sound.withAlive false) ?_)
  refine .bind ((restoreJournaledWorker_holds (hf.withAlive false)).mono (fun _ => id) ?_)
  rintro restored u ⟨open', old⟩
  split
  · exact .pure open'.sound
  rename_i ok
  rw [Bool.not_eq_true', Bool.not_eq_false] at ok
  have closed : Sound d h original { u with journal := { j with stage := .rolledBack, reason } } :=
    open'.sound.journal hf.formed (old ok)
  refine .bind (.replace open'.sound closed ?_ ?_ ?_)
  · exact .bind (startWorker_holds open'.sound fun _ => .pure (open'.sound.withAlive _))
  · exact .bind (startWorker_holds closed fun _ => .pure (closed.withAlive _))
  · simp only [Bool.not_true, Bool.false_eq_true, if_false]
    split
    · exact .pure closed
    · refine .bind (startWorker_holds closed fun alive => ?_)
      split <;> exact .pure (closed.withAlive alive)

theorem During.at (stage : Stage) (hf : During d h original j f) : During d h original { j with stage } f :=
  ⟨hf.sound, hf.formed, hf.open', hf.oldSha⟩

theorem During.journal (hf : During d h original j f) {stage : Stage} (open' : incomplete stage) :
    During d h original j { f with journal := { j with stage } } := by
  refine ⟨hf.sound.journal hf.formed ?_, hf.formed, open', rfl⟩
  have agrees := (agrees_incomplete hf.open').mp hf.sound.agrees
  rw [hf.oldSha] at agrees
  exact (agrees_incomplete (by exact open')).mpr agrees

theorem probation_holds (hf : During d h original j f) (new : d.sha f.worker = j.newSha) :
    Holds (Sound d h original) (probation d h j x) (fun _ => Sound d h original) f := by
  have saved : During d h original j { f with journal := { j with stage := .probation } } :=
    hf.journal rfl
  refine .bind (.replace hf.sound saved.sound ?_ ?_ ?_)
  · exact failedActivation_holds (hf.at .probation)
  · exact failedActivation_holds (saved.at .probation)
  · refine .bind (startWorker_holds saved.sound fun alive => ?_)
    have started := saved.withAlive alive
    split
    · exact failedActivation_holds (started.at .probation)
    split
    · exact failedActivation_holds (started.at .probation)
    · have confirmed : Sound d h original { f with journal := { j with stage := .confirmed }, alive } :=
        started.sound.journal hf.formed new
      refine .bind (.replace started.sound confirmed ?_ ?_ ?_)
      · exact .pure started.sound
      · exact .pure confirmed
      · exact .pure confirmed

variable {candidate : β}

theorem activate_holds (hf : During d h original j f)
    (old : d.sha f.worker = j.oldSha) (known : Known original f candidate) :
    Holds (Sound d h original) (activate candidate x)
      (fun activated u => During d h original j u ∧ (activated → u.worker = candidate)) f := by
  have kept : During d h original j { f with prev := some f.worker } := by
    refine ⟨⟨hf.sound.worker, ?_, hf.sound.verified, hf.sound.formed, ?_⟩, hf.formed, hf.open', hf.oldSha⟩
    · rintro b ⟨⟩
      exact hf.sound.worker
    · exact (agrees_incomplete (by exact hf.open')).mpr (.inl (old.trans hf.oldSha.symm))
  have switched : During d h original j { f with prev := some f.worker, worker := candidate } := by
    refine ⟨⟨known, kept.sound.prev, hf.sound.verified, hf.sound.formed, ?_⟩, hf.formed, hf.open', hf.oldSha⟩
    exact (agrees_incomplete (by exact hf.open')).mpr
      (.inr ⟨f.worker, rfl, old.trans hf.oldSha.symm⟩)
  refine .bind (.replace hf.sound kept.sound ?_ ?_ ?_)
  · exact .pure ⟨hf, nofun⟩
  · exact .pure ⟨kept, nofun⟩
  · exact .replace kept.sound switched.sound ⟨kept, nofun⟩ ⟨switched, nofun⟩ ⟨switched, fun _ => rfl⟩

theorem switchOver_holds (hf : Sound d h original f) (known : Known original f candidate) :
    Holds (Sound d h original) (switchOver d h candidate x) (fun _ => Sound d h original) f := by
  refine .bind (.read ?_)
  have formed : ∀ stage, Formed h ⟨x.txId.text, stage, h.workerBin, h.prevPath, d.sha f.worker, d.sha candidate, ""⟩ :=
    fun _ => ⟨by simp [identifies], d.formed f.worker, x.txId.nonempty⟩
  have staged : Sound d h original { f with journal :=
      ⟨x.txId.text, .staged, h.workerBin, h.prevPath, d.sha f.worker, d.sha candidate, ""⟩ } :=
    hf.journal (formed _) rfl
  have switching : Sound d h original { f with journal :=
      ⟨x.txId.text, .switching, h.workerBin, h.prevPath, d.sha f.worker, d.sha candidate, ""⟩ } :=
    hf.journal (formed _) (.inl rfl)
  refine .bind (.replace hf staged (.pure hf) (.pure staged) ?_)
  refine .bind (.replace staged switching (.pure staged) (.pure switching) ?_)
  have begun : During d h original
      ⟨x.txId.text, .staged, h.workerBin, h.prevPath, d.sha f.worker, d.sha candidate, ""⟩
      { f with journal :=
        ⟨x.txId.text, .switching, h.workerBin, h.prevPath, d.sha f.worker, d.sha candidate, ""⟩ } :=
    ⟨switching, formed _, rfl, rfl⟩
  refine .bind (.op (switching.withAlive false) ?_)
  refine .bind ((activate_holds (begun.withAlive false) rfl known).mono (fun _ => id) ?_)
  rintro activated u ⟨open', installed⟩
  split
  · exact failedActivation_holds (open'.at .switching)
  · rename_i ok
    rw [Bool.not_eq_true', Bool.not_eq_false] at ok
    exact probation_holds open' (congrArg d.sha (installed ok))

theorem activateUpdate_holds {c : Candidate β} (hf : Sound d h original f) :
    Holds (Sound d h original) (activateUpdate d h c x) (fun _ => Sound d h original) f := by
  unfold activateUpdate
  split
  · exact .pure hf
  split
  · exact .pure hf
  split
  · exact .pure hf
  unfold stageBinary
  split
  · exact .bind (.pure (.pure hf))
  rename_i request
  simp only [not_or, not_not] at request
  have copied : Sound d h original { f with next := some c.second } :=
    ⟨hf.worker, hf.prev, hf.verified, hf.formed, hf.agrees⟩
  refine .bind (.bind (.replace hf copied (.pure (.pure hf)) (.pure (.pure copied)) ?_))
  simp only [Bool.not_true, Bool.false_eq_true, if_false]
  split
  · exact .pure (.pure copied)
  · rename_i same
    have digest : d.sha c.second = c.expect := (not_not.mp same).trans request.2.2
    have grown : ∀ b, Known original f b →
        Known original { f with staged := (c.second, c.expect) :: f.staged } b :=
      fun b known => known.imp_right fun ⟨digest, mem⟩ => ⟨digest, List.mem_cons_of_mem _ mem⟩
    have staged : Sound d h original
        { f with next := some c.second, staged := (c.second, c.expect) :: f.staged } := by
      refine ⟨grown _ hf.worker, fun b hb => grown b (hf.prev b hb), fun e he => ?_, hf.formed, hf.agrees⟩
      obtain rfl | old := List.mem_cons.mp he
      · exact digest
      · exact hf.verified e old
    refine .bind (.op staged (.pure ?_))
    exact switchOver_holds staged (.inr ⟨c.expect, List.mem_cons_self ..⟩)

theorem rollbackRefusal_none {error : String} (none' : rollbackRefusal d h component expect error f = none) :
    identifies h f.journal ∧ f.journal.stage ≠ .idle ∧ ∃ b, f.prev = some b ∧ d.sha b = f.journal.oldSha := by
  unfold rollbackRefusal at none'
  dsimp only at none'
  split_ifs at none' with _ named slot
  rw [not_or] at slot
  refine ⟨by simpa using named, (not_or.mp slot.2).1, ?_⟩
  split at none'
  · cases none'
  · rename_i b found
    split_ifs at none' with same
    exact ⟨b, found, not_not.mp same⟩

theorem restoreVerified_eq {b : β} (formed : hexDigest digest)
    (found : f.prev = some b) (same : d.sha b = digest) :
    restoreVerified d digest o f = Proc.replace o (fun u => { u with worker := b }) f := by
  have known : ¬(!hexDigest digest) := by simp [formed]
  rw [restoreVerified, if_neg known, Proc.read_bind, found]
  dsimp only
  rw [if_neg (not_not.mpr same)]

theorem rollbackUpdate_eq {b : β} (formed : Formed h f.journal)
    (none' : rollbackRefusal d h component expect x.error f = none) (found : f.prev = some b)
    (same : d.sha b = f.journal.oldSha) : rollbackUpdate d h component expect x f =
      (stopWorker >>= fun _ => Proc.replace x.restore (fun u => { u with worker := b }) >>=
        finishRollback f.journal x : Proc (Installation β) Response) f := by
  have replaced := restoreVerified_eq (o := x.restore) (f := { f with alive := false }) formed.2.1 found same
  rw [rollbackUpdate, Proc.read_bind, none']
  dsimp only
  rw [Proc.read_bind, stopWorker, Proc.op_bind, Proc.op_bind]
  simp only [bind, replaced]

theorem finishRollback_holds {restored : Bool} (hf : Sound d h original f)
    (closed : restored → Sound d h original { f with journal := { j with stage := .rolledBack } }) :
    Holds (Sound d h original) (finishRollback j x restored) (fun _ => Sound d h original) f := by
  cases restored with
  | false => exact .bind (startWorker_holds hf fun alive => .pure (hf.withAlive alive))
  | true =>
    have saved := closed rfl
    refine .bind (.replace hf saved ?_ ?_ ?_)
    · exact .bind (startWorker_holds hf fun alive => .pure (hf.withAlive alive))
    · exact .bind (startWorker_holds saved fun alive => .pure (saved.withAlive alive))
    · refine .bind (startWorker_holds saved fun alive => ?_)
      split <;> exact .pure (saved.withAlive alive)

theorem finishRollback_saved (written : x.rolledBackJournal ≠ .failed)
    (saved : Sound d h original { f with journal := { j with stage := .rolledBack } }) :
    Holds (Sound d h original) (finishRollback j x true) (fun _ => Sound d h original) f := by
  refine .bind (.replace_written written saved ?_ ?_)
  · exact .bind (startWorker_holds saved fun alive => .pure (saved.withAlive alive))
  · refine .bind (startWorker_holds saved fun alive => ?_)
    split <;> exact .pure (saved.withAlive alive)

section Rollback

variable {b : β}

theorem Sound.rolledBack (hf : Sound d h original f) (active : f.journal.stage ≠ .idle)
    (found : f.prev = some b) (same : d.sha b = f.journal.oldSha) (alive : Bool) : Sound d h original
      { f with worker := b, alive, journal := { f.journal with stage := .rolledBack } } :=
  ⟨hf.prev b found, hf.prev, hf.verified, fun _ => hf.formed active, same⟩

theorem Sound.restored (hf : Sound d h original f) (found : f.prev = some b) (same : d.sha b = f.journal.oldSha)
    (harmless : f.journal.stage ≠ .confirmed ∨ f.journal.oldSha = f.journal.newSha) :
    Sound d h original { f with worker := b } := by
  refine ⟨hf.prev b found, hf.prev, hf.verified, hf.formed, ?_⟩
  unfold Agrees
  cases stage : f.journal.stage with
  | idle => trivial
  | staged => exact same
  | switching => exact .inl same
  | probation => exact .inl same
  | confirmed => exact harmless.elim (fun other => absurd stage other) same.trans
  | rolledBack => exact same

def halfway (d : Digest β) (h : Host) (f : Installation β) (component expect : String) (x : Env)
    (cut : Option Nat) : Bool :=
  f.journal.stage == .confirmed && f.journal.oldSha != f.journal.newSha &&
    (rollbackRefusal d h component expect x.error f).isNone &&
    (x.restore != .failed && cut.all fun n => decide (2 ≤ n)) &&
    !(x.restore == .done && x.rolledBackJournal != .failed && cut.all fun n => decide (3 ≤ n))

theorem whole_cases (confirmed : f.journal.stage = .confirmed ∧ ¬f.journal.oldSha = f.journal.newSha)
    (refusal : rollbackRefusal d h component expect x.error f = none)
    (whole : halfway d h f component expect x cut = false) : x.restore = .failed ∨ (∃ n, cut = some n ∧ n < 2) ∨
      x.restore = .done ∧ x.rolledBackJournal ≠ .failed ∧ ∀ n ∈ cut, 3 ≤ n := by
  simp only [halfway, confirmed.1, bne_iff_ne.mpr confirmed.2, refusal, Option.isNone_none,
    beq_self_eq_true, Bool.and_true, Bool.true_and] at whole
  cases cut with
  | none =>
    cases outcome : x.restore <;> simp_all
  | some n =>
    by_cases early : n < 2
    · exact .inr (.inl ⟨n, rfl, early⟩)
    have late : decide (2 ≤ n) := decide_eq_true (not_lt.mp early)
    simp only [Option.all_some, late, Bool.and_true] at whole
    cases outcome : x.restore with
    | failed => exact .inl rfl
    | renamed => simp [outcome] at whole
    | done =>
      refine .inr (.inr ⟨rfl, ?_⟩)
      simpa [outcome] using whole

theorem rollbackUpdate_sound (hf : Sound d h original f) (whole : halfway d h f component expect x cut = false) :
    Sound d h original ((rollbackUpdate d h component expect x).leaves f cut) := by
  cases refusal : rollbackRefusal d h component expect x.error f with
  | some r =>
    have refused : Holds (Sound d h original) (rollbackUpdate d h component expect x)
        (fun _ => Sound d h original) f := by
      refine .bind (.read ?_)
      rw [refusal]
      exact .pure hf
    exact refused.kept hf cut
  | none =>
    obtain ⟨-, active, b, found, same⟩ := rollbackRefusal_none refusal
    have stopped := hf.withAlive false
    have closed := hf.rolledBack active found same false
    rw [Proc.leaves_congr (rollbackUpdate_eq (hf.formed active) refusal found same)]
    by_cases harmless : f.journal.stage ≠ .confirmed ∨ f.journal.oldSha = f.journal.newSha
    · have installed := stopped.restored found same harmless
      refine Holds.kept ?_ hf cut
      refine .bind (.op stopped (.bind (.replace stopped installed ?_ ?_ ?_)))
      · exact finishRollback_holds stopped nofun
      · exact finishRollback_holds installed nofun
      · exact finishRollback_holds installed fun _ => closed
    rw [not_or, not_not] at harmless
    have decided := whole_cases harmless refusal whole
    obtain failed | ⟨n, rfl, early⟩ | ⟨done, written, late⟩ := decided
    · rw [failed]
      refine Holds.kept ?_ hf cut
      exact .bind (.op stopped (.bind (.replace_failed stopped (finishRollback_holds stopped nofun))))
    · match n, early with
      | 0, _ => exact hf
      | 1, _ => exact stopped
    · have finished : Holds (Sound d h original) (finishRollback f.journal x true)
          (fun _ => Sound d h original) { f with worker := b, alive := false } :=
        finishRollback_saved written closed
      rw [done]
      match cut, late with
      | none, _ => exact finished.2
      | some n, late =>
        obtain ⟨k, rfl⟩ := Nat.exists_eq_add_of_le' (late n rfl)
        exact finished.stopAt_succ (fun _ _ => id) k

end Rollback

theorem Sound.during (hf : Sound d h original f) (open' : incomplete f.journal.stage) :
    During d h original f.journal f := by
  refine ⟨hf, hf.formed ?_, open', rfl⟩
  intro idle
  rw [idle] at open'
  cases open'

theorem recoverJournal_holds (hf : Sound d h original f) : Holds (Sound d h original) (recoverJournal d h x)
      (fun ok u => Sound d h original u ∧ (ok → incomplete u.journal.stage = false)) f := by
  refine .bind (.read ?_)
  split
  · rename_i closed
    exact .pure ⟨hf, fun _ => by simpa using closed⟩
  rename_i open'
  rw [Bool.not_eq_true', Bool.not_eq_false] at open'
  split
  · exact .pure ⟨hf, nofun⟩
  have begun := hf.during open'
  refine .bind ((restoreOld_holds begun).mono (fun _ => id) ?_)
  rintro restored u ⟨still, old⟩
  split
  · exact .pure ⟨still.sound, nofun⟩
  rename_i ok
  rw [Bool.not_eq_true', Bool.not_eq_false] at ok
  have closed := still.sound.journal (j := { f.journal with
    stage := .rolledBack, reason := "recovered incomplete transaction on service-host start" })
    begun.formed (old ok)
  exact .replace still.sound closed ⟨still.sound, nofun⟩ ⟨closed, nofun⟩ ⟨closed, fun _ => rfl⟩

theorem recoverJournal_succeeds (hf : Sound d h original f) (restore : x.restore = .done)
    (journal : x.rolledBackJournal = .done) : (recoverJournal d h x f).result := by
  have total : Holds (fun _ => True) (recoverJournal d h x) (fun ok _ => ok) f := by
    refine .bind (.read ?_)
    split
    · exact .pure rfl
    rename_i open'
    rw [Bool.not_eq_true', Bool.not_eq_false] at open'
    have begun := hf.during open'
    have named : ¬((!identifies h f.journal) ∨ f.journal.oldSha = "") := by
      rintro (unnamed | empty)
      · simp [begun.formed.1] at unnamed
      · have formed := begun.formed.2.1
        rw [empty] at formed
        exact absurd formed (by decide)
    rw [if_neg named, restore, journal, restoreOld]
    refine .bind (.bind (.read ?_))
    split
    · exact .pure (.replace_done trivial rfl)
    · rename_i other
      obtain same | ⟨b, found, same⟩ := (agrees_incomplete open').mp hf.agrees
      · exact absurd same other
      · exact .congr (restoreVerified_eq begun.formed.2.1 found same)
          (.replace_done trivial (.replace_done trivial rfl))
  exact total.2

structure System (β : Type) where
  files : Installation β
  up : Bool

inductive Event (β : Type)
  | activate (c : Candidate β) (x : Env) (cut : Option Nat)
  | rollback (component expect : String) (x : Env) (cut : Option Nat)
  | recover (x : Env) (cut : Option Nat)
  | crash

def step (d : Digest β) (h : Host) (m : System β) : Event β → System β
  | .activate c x cut =>
    if m.up then ⟨(activateUpdate d h c x).leaves m.files cut, cut.isNone⟩ else m
  | .rollback component expect x cut =>
    if m.up then ⟨(rollbackUpdate d h component expect x).leaves m.files cut, cut.isNone⟩ else m
  | .recover x cut =>
    if m.up then m
    else ⟨(recoverJournal d h x).leaves m.files cut,
      cut.isNone && (recoverJournal d h x m.files).result⟩
  | .crash => { m with up := false }

def whole (d : Digest β) (h : Host) (m : System β) : Event β → Bool
  | .rollback component expect x cut => !m.up || !halfway d h m.files component expect x cut
  | _ => true

def installed (original : β) : System β :=
  ⟨⟨original, none, none, .absent, false, []⟩, false⟩

theorem installed_sound : Sound d h original (installed original).files :=
  ⟨.inl rfl, nofun, nofun, fun active => absurd rfl active, trivial⟩

theorem step_sound {m : System β} (hm : Sound d h original m.files) (e : Event β)
    (ok : whole d h m e) : Sound d h original (step d h m e).files := by
  cases e with
  | activate c x cut =>
    simp only [step]
    split
    · exact (activateUpdate_holds hm).kept hm cut
    · exact hm
  | rollback component expect x cut =>
    simp only [step]
    split
    · rename_i up
      refine rollbackUpdate_sound hm ?_
      simpa [whole, up] using ok
    · exact hm
  | recover x cut =>
    simp only [step]
    split
    · exact hm
    · exact (recoverJournal_holds hm).leaves hm (fun _ _ held => held.1) cut
  | crash => exact hm

theorem run_sound (original : β) {events : List (Event β)}
    (ok : Meets (step d h) (fun m e => whole d h m e) (installed original) events) :
    Sound d h original (run (step d h) (installed original) events).files :=
  run_invariant (fun m => Sound d h original m.files) (fun _ e hm ok => step_sound hm e ok)
    installed_sound ok

def Tells (d : Digest β) (f : Installation β) : Prop :=
  (f.journal.stage = .confirmed → d.sha f.worker = f.journal.newSha) ∧
    (f.journal.stage = .rolledBack → d.sha f.worker = f.journal.oldSha)

theorem Sound.tells (hf : Sound d h original f) : Tells d f := by
  have agrees := hf.agrees
  constructor <;> intro stage <;> simpa [Agrees, stage] using agrees

def builds : Digest Bool where
  sha b := String.ofList (List.replicate 64 (if b then 'b' else 'a'))
  formed b := by cases b <;> decide

def host : Host := ⟨"/opt/agent", "/state/updates/prev.bin"⟩

def smooth : Env :=
  { txId := ⟨"tx1", by decide⟩, error := "", next := .done, stagedJournal := .done, switchingJournal := .done
    prev := .done, current := .done, probationJournal := .done, confirmedJournal := .done
    restore := .done, rolledBackJournal := .done, started := true, survives := true
    stopping := false, restarted := true }

def newBuild : Candidate Bool :=
  ⟨"worker", "/state/updates/incoming.bin", builds.sha true, true, true, true⟩

def updateAndRollback (cut : Option Nat) : List (Event Bool) :=
  [.recover smooth none, .activate newBuild smooth none, .rollback "worker" "" smooth cut, .crash,
    .recover smooth none]

/-- While no rollback of a confirmed update is cut between bytes and journal, the worker is the original or
a verified candidate, complete, and recovery succeeds if its writes do. -/
theorem worker_replacement_crash_safe (d : Digest β) (h : Host) (original : β) (events : List (Event β))
    (ok : Meets (step d h) (fun m e => whole d h m e) (installed original) events) :
    let f := (run (step d h) (installed original) events).files
    (f.worker = original ∨ ∃ digest, (f.worker, digest) ∈ f.staged ∧ d.sha f.worker = digest) ∧
      ∀ x : Env,
        (x.restore = .done → x.rolledBackJournal = .done → (recoverJournal d h x f).result) ∧
        ((recoverJournal d h x f).result →
          incomplete (recoverJournal d h x f).state.journal.stage = false ∧
            Tells d (recoverJournal d h x f).state) := by
  intro f
  have sound : Sound d h original f := run_sound original ok
  refine ⟨sound.worker.imp_right fun ⟨digest, staged⟩ => ⟨digest, staged, sound.verified _ staged⟩,
    fun x => ⟨recoverJournal_succeeds sound, fun success => ?_⟩⟩
  obtain ⟨recovered, closed⟩ := (recoverJournal_holds (x := x) sound).2
  exact ⟨closed success, recovered.tells⟩

theorem worker_replacement_crash_safe_rolled_back :
    let f := (run (step builds host) (installed false) (updateAndRollback none)).files
    f.journal.stage = .rolledBack ∧ f.worker = false ∧ Tells builds (recoverJournal builds host smooth f).state := by
  have safe := worker_replacement_crash_safe builds host false (updateAndRollback none) (by decide)
  have recovered := (safe.2 smooth).2 ((safe.2 smooth).1 rfl rfl)
  exact ⟨by decide, by decide, recovered.2⟩

theorem interrupted_rollback_confirmed :
    let m := run (step builds host) (installed false) (updateAndRollback (some 2))
    m.up ∧ m.files.journal.stage = .confirmed ∧ builds.sha m.files.worker = m.files.journal.oldSha ∧
      builds.sha m.files.worker ≠ m.files.journal.newSha := by
  decide

end Monik.WorkerReplacement
