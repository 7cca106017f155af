import Mathlib.Tactic.Linarith
import Monik.Incidents
import Monik.Runs
import Monik.Streaks

/-! Incidents in terms of observations: the store's counters and times stand for the longest run of
failed, and of good, observations at the end of the subject's history. -/

namespace Monik.IncidentRuns
open Protocol Tables Runs Incidents Streaks

variable {t : Thresholds} {s : IncidentStore} {o : Observation} {subject : Subject} {r : IncidentRow}

variable {w : IncidentRow} {n : Nat} {since span : Time} {counts : Observation → Bool}

/-! The open incident after a call. -/

def base (t : Thresholds) (s : IncidentStore) (o : Observation) : Streak :=
  if (s.streak o.subject).broken t o then (s.streak o.subject).reset else s.streak o.subject

def going (t : Thresholds) (s : IncidentStore) (o : Observation) : Option IncidentRow :=
  continued ((s.streak o.subject).broken t o) (s.current o.subject)

def outcome (t : Thresholds) (s : IncidentStore) (o : Observation) : Streak × Option IncidentRow :=
  respond t (base t s o) (going t s o) o s.next

def writtenRows (t : Thresholds) (s : IncidentStore) (o : Observation) : List IncidentRow :=
  ((interrupted ((s.streak o.subject).broken t o) (s.current o.subject)).map (interrupt o)).toList ++
    (outcome t s o).2.toList

theorem going_some (h : going t s o = some r) : s.current o.subject = some r := by
  unfold going at h
  rcases continuity_cases ((s.streak o.subject).broken t o) (s.current o.subject) with ⟨-, kept, -⟩ | ⟨_, -, -, -, gone⟩
  · exact kept.symm.trans h
  · rw [gone] at h
    cases h

theorem interrupted_some (h : interrupted ((s.streak o.subject).broken t o) (s.current o.subject) = some r) :
    s.current o.subject = some r ∧ going t s o = none := by
  rcases continuity_cases ((s.streak o.subject).broken t o) (s.current o.subject) with
    ⟨none, -⟩ | ⟨_, found, -, same, gone⟩
  · rw [none] at h
    cases h
  · rw [same] at h
    cases h
    exact ⟨found, gone⟩

theorem mem_writtenRows (mem : w ∈ writtenRows t s o) :
    (∃ r, s.current o.subject = some r ∧ going t s o = none ∧ w = interrupt o r) ∨ ((outcome t s o).2 = some w ∧
        ((∃ r, s.current o.subject = some r ∧ w.id = r.id ∧ w.subject = r.subject) ∨
          (going t s o = none ∧ w.id = s.next ∧ w.subject = o.subject))) := by
  rcases List.mem_append.mp mem with closed | written
  · obtain ⟨r, some, rfl⟩ := Option.map_eq_some_iff.mp (Option.mem_toList.mp closed)
    obtain ⟨found, gone⟩ := interrupted_some some
    exact .inl ⟨r, found, gone, rfl⟩
  · have some := Option.mem_toList.mp written
    refine .inr ⟨some, ?_⟩
    rcases respond_row some with ⟨r, held, same⟩ | new
    · exact .inl ⟨r, going_some held, same⟩
    · exact .inr new

theorem writtenRows_open (opened : w.isOpen) (mem : w ∈ writtenRows t s o) : (outcome t s o).2 = some w := by
  rcases mem_writtenRows mem with ⟨r, -, -, rfl⟩ | ⟨written, -⟩
  · cases opened
  · exact written

theorem writtenRows_subject (mem : w ∈ writtenRows t s o) : w.subject = o.subject := by
  rcases mem_writtenRows mem with ⟨r, found, -, rfl⟩ | ⟨-, ⟨r, found, -, same⟩ | ⟨-, -, same⟩⟩
  · exact (current_some found).2.1
  · exact same.trans (current_some found).2.1
  · exact same

theorem writtenRows_drawn (sound : Sound s) (mem : w ∈ writtenRows t s o) : w.id < s.next + 1 := by
  rcases mem_writtenRows mem with ⟨r, found, -, rfl⟩ | ⟨-, ⟨r, found, id, -⟩ | ⟨-, id, -⟩⟩
  · exact Nat.lt_succ_of_lt (sound.drawn r (current_some found).1)
  · rw [id]
    exact Nat.lt_succ_of_lt (sound.drawn r (current_some found).1)
  · rw [id]
    exact Nat.lt_succ_self _

theorem nodup_writtenRows (sound : Sound s) : ((writtenRows t s o).map IncidentRow.id).Nodup := by
  unfold writtenRows
  cases closed : interrupted ((s.streak o.subject).broken t o) (s.current o.subject) with
  | none =>
    cases (outcome t s o).2 with
    | none => simp
    | some w => simp
  | some r =>
    obtain ⟨found, gone⟩ := interrupted_some closed
    have drawn := sound.drawn r (current_some found).1
    cases written : (outcome t s o).2 with
    | none => simp
    | some w =>
      rcases respond_row written with ⟨_, held, -⟩ | ⟨-, new, -⟩
      · rw [gone] at held
        cases held
      · simp only [Option.map_some, Option.toList_some, List.map_cons, List.map_nil, List.singleton_append,
          List.nodup_cons, List.mem_singleton, List.not_mem_nil, not_false_eq_true, List.nodup_nil, and_true]
        rw [new]
        exact drawn.ne

theorem mem_observed (sound : Sound s) : r ∈ (s.observed t o).incidents ↔
    (r ∈ s.incidents ∧ ∀ w ∈ writtenRows t s o, w.id ≠ r.id) ∨ r ∈ writtenRows t s o :=
  mem_foldl_upsert (nodup_writtenRows sound) s.incidents

theorem found_written {found : IncidentRow} (written : (outcome t s o).2 = some w)
    (there : s.current o.subject = some found) : ∃ v ∈ writtenRows t s o, v.id = found.id := by
  rcases continuity_cases ((s.streak o.subject).broken t o) (s.current o.subject) with
    ⟨-, kept, -⟩ | ⟨r, same, -, closed, -⟩
  · rcases respond_row written with ⟨r, held, id, -⟩ | ⟨none, -⟩
    · rw [going_some held] at there
      cases there
      exact ⟨w, List.mem_append_right _ (by simp [written]), id⟩
    · rw [going, kept, there] at none
      cases none
  · rw [there] at same
    cases same
    refine ⟨interrupt o found, List.mem_append_left _ ?_, rfl⟩
    rw [closed]
    simp

theorem sound_observed (sound : Sound s) : Sound (s.observed t o) := by
  -- an open incident that is not written is not of this subject when another open one is written
  have apart : ∀ a ∈ s.incidents, (∀ w ∈ writtenRows t s o, w.id ≠ a.id) → a.isOpen →
      ∀ b ∈ writtenRows t s o, b.isOpen → a.subject ≠ b.subject := by
    intro a there untouched open_ b mem opened same
    have found := sound.current_eq there open_
    rw [same, writtenRows_subject mem] at found
    obtain ⟨v, touched, id⟩ := found_written (writtenRows_open opened mem) found
    exact untouched v touched id
  refine ⟨?_, ?_⟩
  · intro a mem
    rcases (mem_observed sound).mp mem with ⟨old, -⟩ | written
    · exact Nat.lt_succ_of_lt (sound.drawn a old)
    · exact writtenRows_drawn sound written
  · intro a hA b hB openA openB same
    rcases (mem_observed sound).mp hA with ⟨oldA, freeA⟩ | newA
    · rcases (mem_observed sound).mp hB with ⟨oldB, -⟩ | newB
      · exact sound.one a oldA b oldB openA openB same
      · exact absurd same (apart a oldA freeA openA b newB openB)
    · rcases (mem_observed sound).mp hB with ⟨oldB, freeB⟩ | newB
      · exact absurd same.symm (apart b oldB freeB openB a newA openA)
      · have first := writtenRows_open openA newA
        rw [writtenRows_open openB newB] at first
        exact (Option.some.inj first).symm

theorem observed_current (sound : Sound s) : (s.observed t o).current o.subject =
    (outcome t s o).2.elim (going t s o) fun w => if w.isOpen then some w else none := by
  have after := sound_observed (t := t) (o := o) sound
  have none_of : (∀ r ∈ (s.observed t o).incidents, r.subject = o.subject → r.isOpen = false) →
      (s.observed t o).current o.subject = none := by
    intro closed
    cases found : (s.observed t o).current o.subject with
    | none => rfl
    | some r =>
      obtain ⟨mem, same, opened⟩ := current_some found
      rw [closed r mem same] at opened
      cases opened
  cases written : (outcome t s o).2 with
  | some w =>
    have mem : w ∈ writtenRows t s o := List.mem_append_right _ (by simp [written])
    have there : w ∈ (s.observed t o).incidents := (mem_observed sound).mpr (.inr mem)
    rw [Option.elim_some]
    split
    · rename_i opened
      have found := after.current_eq there opened
      rwa [writtenRows_subject mem] at found
    · rename_i closed
      refine none_of fun r hr same => Bool.eq_false_iff.mpr fun opened => ?_
      rcases (mem_observed sound).mp hr with ⟨old, free⟩ | new
      · have found := sound.current_eq old opened
        rw [same] at found
        obtain ⟨v, touched, id⟩ := found_written written found
        exact free v touched id
      · have again := writtenRows_open opened new
        rw [written] at again
        cases again
        exact closed opened
  | none =>
    cases gone : going t s o with
    | some r =>
      have found := going_some gone
      obtain ⟨mem, same, opened⟩ := current_some found
      have there : r ∈ (s.observed t o).incidents := by
        refine (mem_observed sound).mpr (.inl ⟨mem, fun w touched id => ?_⟩)
        rcases mem_writtenRows touched with ⟨_, -, none, -⟩ | ⟨some, -⟩
        · rw [gone] at none
          cases none
        · rw [written] at some
          cases some
      have found := after.current_eq there opened
      rwa [same] at found
    | none =>
      refine none_of fun r hr same => Bool.eq_false_iff.mpr fun opened => ?_
      rcases (mem_observed sound).mp hr with ⟨old, free⟩ | new
      · have found := sound.current_eq old opened
        rw [same] at found
        rcases continuity_cases ((s.streak o.subject).broken t o) (s.current o.subject) with
          ⟨-, kept, -⟩ | ⟨_, there, -, closed, -⟩
        · rw [going, kept, found] at gone
          cases gone
        · rw [found] at there
          cases there
          refine free (interrupt o r) (List.mem_append_left _ ?_) rfl
          rw [closed]
          simp
      · have again := writtenRows_open opened new
        rw [written] at again
        cases again

theorem observed_streak : (s.observed t o).streak o.subject = { (outcome t s o).1 with last := o.observedAt } := by
  have found : ((s.observed t o).streaks.find? fun r => r.subject == o.subject) =
      some ⟨o.subject, { (outcome t s o).1 with last := o.observedAt }⟩ :=
    Table.find?_key.mpr ⟨Table.mem_upsert.mpr (.inr rfl), rfl⟩
  rw [IncidentStore.streak, found]
  rfl

theorem observed_other (sound : Sound s) (other : subject ≠ o.subject) :
    (s.observed t o).streak subject = s.streak subject ∧
      ∀ r, r.subject = subject → (r ∈ (s.observed t o).incidents ↔ r ∈ s.incidents) := by
  constructor
  · unfold IncidentStore.streak
    congr 2
    refine (Table.find?_upsert s.streaks _ subject).trans (if_neg ?_)
    exact other.symm
  · intro r same
    rw [mem_observed sound]
    constructor
    · rintro (⟨old, -⟩ | new)
      · exact old
      · exact absurd (same.symm.trans (writtenRows_subject new)) other
    · intro old
      refine .inl ⟨old, fun w touched id => ?_⟩
      rcases mem_writtenRows touched with ⟨_, found, -, rfl⟩ | ⟨-, ⟨_, found, sameId, -⟩ | ⟨-, sameId, -⟩⟩
      · obtain ⟨mem, subject', -⟩ := current_some found
        rw [s.incidents.eq_of_key mem old id] at subject'
        exact other (same.symm.trans subject')
      · obtain ⟨mem, subject', -⟩ := current_some found
        rw [s.incidents.eq_of_key mem old (sameId.symm.trans id)] at subject'
        exact other (same.symm.trans subject')
      · exact absurd (sound.drawn r old) (by rw [← id, sameId]; exact lt_irrefl _)

theorem observed_current_other (sound : Sound s) (other : subject ≠ o.subject) :
    (s.observed t o).current subject = s.current subject := by
  have same := (observed_other (t := t) sound other).2
  cases found : s.current subject with
  | some r =>
    obtain ⟨mem, rfl, opened⟩ := current_some found
    exact (sound_observed sound).current_eq ((same r rfl).mpr mem) opened
  | none =>
    cases after : (s.observed t o).current subject with
    | none => rfl
    | some r =>
      obtain ⟨mem, key, opened⟩ := current_some after
      rw [current_none found ((same r key).mp mem) key] at opened
      cases opened

/-! What the counters stand for. -/

def fails (o : Observation) : Bool := o.known && o.failed

def recovering (o : Observation) : Bool := o.known && !o.failed && !o.holdRecovery

def follows (t : Thresholds) (b a : Observation) : Bool := decide (a.observedAt - b.observedAt ≤ t.maxGap)

def Counts (n : Nat) (since : Time) (run : List Observation) : Prop :=
  n = run.length ∧ ∀ oldest, run.getLast? = some oldest → since = oldest.observedAt

theorem counts_nil (since : Time) : Counts 0 since [] := ⟨rfl, by simp⟩

theorem Counts.cons {run : List Observation} (h : Counts n since run) (o : Observation) :
    Counts (n + 1) (if n = 0 then o.observedAt else since) (o :: run) := by
  obtain ⟨rfl, oldest⟩ := h
  refine ⟨rfl, ?_⟩
  cases run with
  | nil => simp
  | cons a run =>
    intro first found
    simpa using oldest first found

/-- The streak stands for the history: failures while no incident is confirmed, good observations once one
is. -/
structure Tracks (t : Thresholds) (s : IncidentStore) (subject : Subject) (history : List Observation) : Prop where
  last : (s.streak subject).last = (history.head?.map Observation.observedAt).getD zeroTime
  dated : ∀ o ∈ history, o.observedAt ≠ zeroTime
  bad : (∀ r, s.current subject = some r → r.status ≠ .confirmed) →
    Counts (s.streak subject).bad (s.streak subject).badSince (latest fails (follows t) history)
  good : (∃ r, s.current subject = some r ∧ r.status = .confirmed) →
    Counts (s.streak subject).good (s.streak subject).goodSince (latest recovering (follows t) history)

variable {history : List Observation}

def extendable (t : Thresholds) (counts : Observation → Bool) (history : List Observation) (o : Observation) :
    List Observation :=
  if history.head?.all fun b => follows t b o then latest counts (follows t) history else []

theorem Tracks.gap (tracks : Tracks t s o.subject history) :
    (s.streak o.subject).gap t o = !(history.head?.all fun b => follows t b o) := by
  unfold Streak.gap
  rw [tracks.last]
  cases first : history.head? with
  | none => simp
  | some b =>
    have dated := tracks.dated b (List.mem_of_mem_head? (Option.mem_def.mpr first))
    have apart : (!follows t b o) = decide (t.maxGap < o.observedAt - b.observedAt) := by
      simp only [follows, ← decide_not, not_le]
    simp only [Option.map_some, Option.getD_some, Option.all_some, apart, ne_eq, dated, not_false_eq_true, decide_true,
      Bool.true_and]

theorem Tracks.base (tracks : Tracks t s o.subject history) (known : o.known) :
    ((∀ r, s.current o.subject = some r → r.status ≠ .confirmed) →
        Counts (base t s o).bad (base t s o).badSince (extendable t fails history o)) ∧
      ((∃ r, s.current o.subject = some r ∧ r.status = .confirmed) →
        Counts (base t s o).good (base t s o).goodSince (extendable t recovering history o)) := by
  have broken : (s.streak o.subject).broken t o = !(history.head?.all fun b => follows t b o) := by
    rw [Streak.broken, known, tracks.gap]
    rfl
  unfold IncidentRuns.base extendable
  rw [broken]
  cases history.head?.all fun b => follows t b o with
  | true => exact ⟨tracks.bad, tracks.good⟩
  | false => exact ⟨fun _ => counts_nil _, fun _ => counts_nil _⟩

theorem latest_of_not (not : counts o = false) : latest counts (follows t) (o :: history) = [] := by
  rw [latest_cons, not]
  rfl

theorem latest_of (counted : counts o) :
    latest counts (follows t) (o :: history) = o :: extendable t counts history o := by
  rw [latest_cons, counted]
  rfl

def failedRow (t : Thresholds) (s : IncidentStore) (o : Observation) : IncidentRow :=
  confirm t ((base t s o).fail o.observedAt) o (((going t s o).map (worsen o)).getD (openedBy o s.next))

theorem outcome_cases (t : Thresholds) (s : IncidentStore) (o : Observation) :
    (fails o ∧ outcome t s o = ((base t s o).fail o.observedAt, some (failedRow t s o))) ∨
    (fails o = false ∧ recovering o = false ∧ (∃ r, going t s o = some r ∧ r.status = .confirmed) ∧
      outcome t s o = ((base t s o).hold, none)) ∨ (fails o = false ∧ o.known ∧
      (recovering o ∨ ∀ r, going t s o = some r → r.status ≠ .confirmed) ∧
      outcome t s o = ((base t s o).succeed o.observedAt,
        ((going t s o).filter (recovers t ((base t s o).succeed o.observedAt) o)).map (resolve o))) ∨
    (o.known = false ∧ fails o = false ∧ recovering o = false ∧ outcome t s o = (base t s o, none)) := by
  unfold outcome respond
  by_cases known : o.known
  · by_cases failed : o.failed
    · refine .inl ⟨by simp [fails, known, failed], ?_⟩
      rw [if_pos (by simp [known, failed])]
      rfl
    · by_cases held : o.holdRecovery ∧ ∃ r, going t s o = some r ∧ r.status = .confirmed
      · refine .inr (.inl ⟨by simp [fails, failed], by simp [recovering, held.1], held.2, ?_⟩)
        obtain ⟨hold, r, there, confirmed⟩ := held
        simp [known, failed, hold, there, confirmed]
      · refine .inr (.inr (.inl ⟨by simp [fails, failed], known, ?_, ?_⟩))
        · by_cases hold : o.holdRecovery
          · exact .inr fun r there confirmed => held ⟨hold, r, there, confirmed⟩
          · exact .inl (by simp [recovering, known, failed, hold])
        · rw [if_neg (by simp [failed]), if_neg, if_pos known]
          simp only [Bool.and_eq_true, Option.any_eq_true, beq_iff_eq]
          rintro ⟨⟨-, hold⟩, r, there, confirmed⟩
          exact held ⟨hold, r, there, confirmed⟩
  · refine .inr (.inr (.inr ⟨by simpa using known, by simp [fails, known], by simp [recovering, known], ?_⟩))
    simp [known]

theorem base_unknown (unknown : o.known = false) : base t s o = (s.streak o.subject).reset := by
  unfold base Streak.broken
  simp [unknown]

theorem status_of_going (unconfirmed : ∀ r, going t s o = some r → r.status ≠ .confirmed) (found : s.current o.subject = some r) :
    r.status ≠ .confirmed := by
  unfold going at unconfirmed
  rcases continuity_cases ((s.streak o.subject).broken t o) (s.current o.subject) with
    ⟨-, kept, -⟩ | ⟨_, same, pending, -⟩
  · rw [kept] at unconfirmed
    exact unconfirmed r found
  · rw [found] at same
    cases same
    rw [pending]
    decide

theorem going_status (held : going t s o = some r) : r.status = .pending ∨ r.status = .confirmed := by
  have opened := (current_some (going_some held)).2.2
  simpa [IncidentRow.isOpen] using opened

theorem failedRow_status : (failedRow t s o).isOpen ∧ ((failedRow t s o).status = .confirmed ↔
    (∃ r, going t s o = some r ∧ r.status = .confirmed) ∨ (t.failures ≤ ((base t s o).fail o.observedAt).bad ∧
        t.persistFor ≤ o.observedAt - ((base t s o).fail o.observedAt).badSince)) := by
  unfold failedRow
  cases held : going t s o with
  | none =>
    unfold confirm
    split
    · rename_i reached
      exact ⟨rfl, by simpa using reached.2⟩
    · rename_i unreached
      have pending : (openedBy o s.next).status = .pending := rfl
      refine ⟨rfl, ?_⟩
      simp only [Option.map_none, Option.getD_none, pending, true_and, not_and] at unreached ⊢
      simpa using unreached
  | some r =>
    unfold confirm
    rcases going_status held with pending | confirmed
    · split
      · rename_i reached
        exact ⟨rfl, by simpa using .inr reached.2⟩
      · rename_i unreached
        have same : (worsen o r).status = .pending := pending
        simp only [Option.map_some, Option.getD_some, same, true_and, not_and] at unreached ⊢
        refine ⟨by simp [IncidentRow.isOpen, same], ?_⟩
        simpa [pending] using unreached
    · have same : (worsen o r).status = .confirmed := confirmed
      simp only [Option.map_some, Option.getD_some, same, reduceCtorEq, false_and, if_false]
      exact ⟨by simp [IncidentRow.isOpen, same], by simp [confirmed]⟩

theorem tracks_observed (sound : Sound s) (tracks : Tracks t s o.subject history) (dated : o.observedAt ≠ zeroTime) :
    Tracks t (s.observed t o) o.subject (o :: history) := by
  have current := observed_current (t := t) (o := o) sound
  have streak := observed_streak (t := t) (s := s) (o := o)
  have known_of : fails o → o.known := fun h => (Bool.and_eq_true _ _ ▸ h).1
  have last : ((s.observed t o).streak o.subject).last =
      ((o :: history).head?.map Observation.observedAt).getD zeroTime := by
    rw [streak]
    rfl
  have allDated : ∀ a ∈ o :: history, a.observedAt ≠ zeroTime := by
    intro a mem
    rcases List.mem_cons.mp mem with rfl | older
    · exact dated
    · exact tracks.dated a older
  rcases outcome_cases t s o with ⟨bad, out⟩ | ⟨bad, good, confirmed, out⟩ | ⟨bad, known, free, out⟩ | ⟨unknown, bad, good, out⟩
  · refine ⟨last, allDated, fun unconfirmed => ?_, fun _ => ?_⟩
    · rw [out, Option.elim_some, if_pos failedRow_status.1] at current
      have still := mt failedRow_status.2.mpr (unconfirmed _ current)
      have before : ∀ r, s.current o.subject = some r → r.status ≠ .confirmed := fun r found =>
        status_of_going (fun r held confirmed => still (.inl ⟨r, held, confirmed⟩)) found
      rw [streak, out, latest_of bad]
      exact ((tracks.base (known_of bad)).1 before).cons o
    · rw [streak, out, latest_of_not (by simp [recovering, fails] at bad ⊢; simp [bad])]
      exact counts_nil _
  · refine ⟨last, allDated, fun unconfirmed => ?_, fun _ => ?_⟩
    · obtain ⟨r, held, confirmed⟩ := confirmed
      rw [out, Option.elim_none, held] at current
      exact absurd confirmed (unconfirmed r current)
    · rw [streak, out, latest_of_not good]
      exact counts_nil _
  · refine ⟨last, allDated, fun _ => ?_, fun confirmed => ?_⟩
    · rw [streak, out, latest_of_not bad]
      exact counts_nil _
    · obtain ⟨r, found, confirmed⟩ := confirmed
      have held : going t s o = some r := by
        rw [out] at current
        cases kept : (going t s o).filter (recovers t ((base t s o).succeed o.observedAt) o) with
        | none =>
          rw [kept, Option.map_none, Option.elim_none, found] at current
          exact current.symm
        | some w =>
          rw [kept, Option.map_some, Option.elim_some, found] at current
          cases current
      have good : recovering o := by
        rcases free with good | unconfirmed
        · exact good
        · exact absurd confirmed (unconfirmed r held)
      rw [streak, out, latest_of good]
      exact ((tracks.base known).2 ⟨r, going_some held, confirmed⟩).cons o
  · refine ⟨last, allDated, fun _ => ?_, fun _ => ?_⟩
    · rw [streak, out, base_unknown unknown, latest_of_not bad]
      exact counts_nil _
    · rw [streak, out, base_unknown unknown, latest_of_not good]
      exact counts_nil _

/-! Runs of observations. -/

def Reached (counts : Observation → Bool) (t : Thresholds) (history : List Observation) (n : Int) (span : Time) : Prop :=
  ∃ run newest oldest, Maximal counts (follows t) history run ∧ run.head? = some newest ∧
    run.getLast? = some oldest ∧ n ≤ run.length ∧ span ≤ newest.observedAt - oldest.observedAt

theorem not_reached (not : counts o = false) {n : Int} : ¬Reached counts t (o :: history) n span := by
  rintro ⟨run, newest, oldest, maximal, first, -⟩
  rw [maximal_iff.mp maximal, latest_of_not not] at first
  cases first

theorem reached_iff (counted : counts o) (h : Counts n since (o :: extendable t counts history o)) {k : Int} :
    Reached counts t (o :: history) k span ↔ k ≤ n ∧ span ≤ o.observedAt - since := by
  obtain ⟨rfl, oldest⟩ := h
  constructor
  · rintro ⟨run, newest, last, maximal, first, final, long, wide⟩
    rw [maximal_iff.mp maximal, latest_of counted] at first final long
    cases first
    rw [oldest last final]
    exact ⟨long, wide⟩
  · rintro ⟨long, wide⟩
    obtain ⟨last, final⟩ : ∃ last, (o :: extendable t counts history o).getLast? = some last :=
      ⟨_, List.getLast?_eq_some_getLast (List.cons_ne_nil _ _)⟩
    refine ⟨_, o, last, maximal_iff.mpr rfl, ?_, ?_, ?_, ?_⟩
    · rw [latest_of counted]
      rfl
    · rw [latest_of counted]
      exact final
    · rwa [latest_of counted]
    · rwa [← oldest last final]

def step (t : Subject → Thresholds) (s : IncidentStore) (o : Observation) : IncidentStore :=
  commit s (observeIncident (t o.subject) s o)

def accepted (history : List Observation) (o : Observation) : Bool :=
  decide (o.observedAt ≠ zeroTime) && history.head?.all fun last => decide (last.observedAt < o.observedAt)

def historyOf (subject : Subject) (observations : List Observation) : List Observation :=
  observations.foldl (fun history o => if o.subject = subject ∧ accepted history o then o :: history else history) []

theorem step_eq {t : Subject → Thresholds} (tracks : Tracks (t o.subject) s o.subject history) :
    step t s o = if accepted history o then s.observed (t o.subject) o else s := by
  unfold step observeIncident accepted
  by_cases zero : o.observedAt = zeroTime
  · simp [zero, commit]
  · have same : (s.streak o.subject).accepts o = history.head?.all fun last => decide (last.observedAt < o.observedAt) := by
      unfold Streak.accepts
      rw [tracks.last]
      cases first : history.head? with
      | none => simp
      | some last =>
        have dated := tracks.dated last (List.mem_of_mem_head? (Option.mem_def.mpr first))
        simp [dated]
    rw [if_neg zero, same]
    simp only [ne_eq, zero, not_false_eq_true, decide_true, Bool.true_and]
    split <;> rfl

theorem run_tracks (t : Subject → Thresholds) (observations : List Observation) :
    Sound (run (step t) .empty observations) ∧ ∀ subject,
      Tracks (t subject) (run (step t) .empty observations) subject (historyOf subject observations) := by
  induction observations using List.reverseRecOn with
  | nil =>
    refine ⟨sound_empty, fun subject => ⟨rfl, ?_, fun _ => counts_nil _, fun _ => counts_nil _⟩⟩
    intro o mem
    cases mem
  | append_singleton observations o ih =>
    obtain ⟨sound, tracks⟩ := ih
    rw [run_append, run_cons, run_nil, step_eq (tracks o.subject)]
    have longer : ∀ subject, historyOf subject (observations ++ [o]) =
        if o.subject = subject ∧ accepted (historyOf subject observations) o then
          o :: historyOf subject observations else historyOf subject observations := by
      intro subject
      unfold historyOf
      rw [List.foldl_append]
      rfl
    generalize run (step t) .empty observations = s at sound tracks
    cases new : accepted (historyOf o.subject observations) o with
    | false =>
      rw [if_neg Bool.false_ne_true]
      refine ⟨sound, fun subject => ?_⟩
      rw [longer, if_neg]
      · exact tracks subject
      · rintro ⟨rfl, yes⟩
        rw [new] at yes
        cases yes
    | true =>
      rw [if_pos rfl]
      refine ⟨sound_observed sound, fun subject => ?_⟩
      rw [longer]
      by_cases same : o.subject = subject
      · subst same
        rw [if_pos ⟨rfl, new⟩]
        have dated : o.observedAt ≠ zeroTime := by
          simp only [accepted, Bool.and_eq_true, decide_eq_true_eq] at new
          exact new.1
        exact tracks_observed sound (tracks o.subject) dated
      · rw [if_neg fun both => same both.1]
        have kept := (observed_other (t := t o.subject) sound (Ne.symm same)).1
        have current := observed_current_other (t := t o.subject) sound (Ne.symm same)
        have before := tracks subject
        refine ⟨?_, before.dated, ?_, ?_⟩
        · rw [kept]
          exact before.last
        · rw [kept, current]
          exact before.bad
        · rw [kept, current]
          exact before.good

theorem going_confirmed (found : s.current o.subject = some r) (confirmed : r.status = .confirmed) :
    going t s o = some r := by
  unfold going
  rcases continuity_cases ((s.streak o.subject).broken t o) (s.current o.subject) with
    ⟨-, kept, -⟩ | ⟨_, same, pending, -⟩
  · rw [kept, found]
  · rw [found] at same
    cases same
    rw [pending] at confirmed
    cases confirmed

theorem confirmed_iff (sound : Sound s) (tracks : Tracks t s o.subject history)
    (before : ∀ r, s.current o.subject = some r → r.status ≠ .confirmed) :
    (∃ r, (s.observed t o).current o.subject = some r ∧ r.status = .confirmed) ↔
      Reached fails t (o :: history) t.failures t.persistFor := by
  have unconfirmed : ¬∃ r, going t s o = some r ∧ r.status = .confirmed := by
    rintro ⟨r, held, confirmed⟩
    exact before r (going_some held) confirmed
  rw [observed_current sound]
  rcases outcome_cases t s o with ⟨bad, out⟩ | ⟨-, -, confirmed, -⟩ | ⟨bad, -, -, out⟩ | ⟨-, bad, -, out⟩
  · have known : o.known := (Bool.and_eq_true _ _ ▸ bad).1
    have counts := ((tracks.base known).1 before).cons o
    have status := failedRow_status (t := t) (s := s) (o := o)
    rw [out, Option.elim_some, if_pos status.1, reached_iff bad counts]
    constructor
    · rintro ⟨r, same, confirmed⟩
      cases same
      exact (status.2.mp confirmed).resolve_left unconfirmed
    · intro reached
      exact ⟨_, rfl, status.2.mpr (.inr reached)⟩
  · exact absurd confirmed unconfirmed
  · refine iff_of_false ?_ (not_reached bad)
    rintro ⟨r, after, confirmed⟩
    rw [out] at after
    cases kept : (going t s o).filter (recovers t ((base t s o).succeed o.observedAt) o) with
    | none =>
      rw [kept, Option.map_none, Option.elim_none] at after
      exact unconfirmed ⟨r, after, confirmed⟩
    | some w =>
      rw [kept, Option.map_some, Option.elim_some] at after
      cases after
  · refine iff_of_false ?_ (not_reached bad)
    rintro ⟨r, after, confirmed⟩
    rw [out, Option.elim_none] at after
    exact unconfirmed ⟨r, after, confirmed⟩

theorem resolved_iff (sound : Sound s) (tracks : Tracks t s o.subject history)
    (found : s.current o.subject = some r) (confirmed : r.status = .confirmed) :
    (Reached recovering t (o :: history) t.successes t.recoverFor ∧ resolve o r ∈ (s.observed t o).incidents) ∨
      (¬Reached recovering t (o :: history) t.successes t.recoverFor ∧
        ∃ r' ∈ (s.observed t o).incidents, r'.id = r.id ∧ r'.status = .confirmed) := by
  have held := going_confirmed (t := t) found confirmed
  -- without a written row the incident stays as it is
  have stays : (outcome t s o).2 = none → r ∈ (s.observed t o).incidents := by
    intro out
    have current := observed_current (t := t) (o := o) sound
    rw [out, Option.elim_none, held] at current
    exact (current_some current).1
  have writes : ∀ w, (outcome t s o).2 = some w → w ∈ (s.observed t o).incidents := fun w out =>
    (mem_observed sound).mpr (.inr (List.mem_append_right _ (by simp [out])))
  rcases outcome_cases t s o with ⟨bad, out⟩ | ⟨-, good, -, out⟩ | ⟨-, known, free, out⟩ | ⟨-, -, good, out⟩
  · have none : recovering o = false := by
      simp only [fails, Bool.and_eq_true] at bad
      simp [recovering, bad.2]
    refine .inr ⟨not_reached none, failedRow t s o, writes _ (by rw [out]), ?_, ?_⟩
    · rcases respond_row (show (outcome t s o).2 = some (failedRow t s o) by rw [out]) with ⟨_, same, id, -⟩ | ⟨gone, -⟩
      · rw [held] at same
        cases same
        exact id
      · rw [held] at gone
        cases gone
    · exact failedRow_status.2.mpr (.inl ⟨r, held, confirmed⟩)
  · exact .inr ⟨not_reached good, r, stays (by rw [out]), rfl, confirmed⟩
  · have good : recovering o := by
      rcases free with good | unconfirmed
      · exact good
      · exact absurd confirmed (unconfirmed r held)
    have counts := ((tracks.base known).2 ⟨r, found, confirmed⟩).cons o
    have decides : recovers t ((base t s o).succeed o.observedAt) o r ↔
        Reached recovering t (o :: history) t.successes t.recoverFor := by
      rw [reached_iff good counts]
      simp only [recovers, confirmed, reduceCtorEq, beq_iff_eq, Bool.or_eq_true, Bool.and_eq_true, decide_eq_true_eq,
        false_or, true_and]
      rfl
    by_cases reached : Reached recovering t (o :: history) t.successes t.recoverFor
    · refine .inl ⟨reached, writes _ ?_⟩
      rw [out, held]
      rw [Option.filter_some, if_pos (decides.mpr reached), Option.map_some]
    · refine .inr ⟨reached, r, stays ?_, rfl, confirmed⟩
      rw [out, held]
      rw [Option.filter_some, if_neg (mt decides.mp reached), Option.map_none]
  · exact .inr ⟨not_reached good, r, stays (by rw [out]), rfl, confirmed⟩

theorem critical_kept (sound : Sound s) (mem : r ∈ s.incidents) (critical : r.severity = "critical") {r' : IncidentRow}
    (mem' : r' ∈ (s.observed t o).incidents) (same : r'.id = r.id) (opened : r'.isOpen) :
    r'.severity = "critical" := by
  rcases (mem_observed sound).mp mem' with ⟨old, -⟩ | new
  · rw [s.incidents.eq_of_key old mem same]
    exact critical
  · have written := writtenRows_open opened new
    rcases respond_row written with ⟨_, held, id, -⟩ | ⟨-, id, -⟩
    · have found := current_some (going_some held)
      cases s.incidents.eq_of_key found.1 mem (id.symm.trans same)
      rcases outcome_cases t s o with ⟨-, out⟩ | ⟨-, -, -, out⟩ | ⟨-, -, -, out⟩ | ⟨-, -, -, out⟩
      · rw [out] at written
        cases written
        unfold failedRow confirm
        rw [held]
        split <;> simp [worsen, critical]
      · rw [out] at written
        cases written
      · rw [out] at written
        obtain ⟨w, -, rfl⟩ := Option.map_eq_some_iff.mp written
        cases opened
      · rw [out] at written
        cases written
    · exact absurd (sound.drawn r mem) (by rw [← same, id]; exact lt_irrefl _)

theorem count_open_le_one (sound : Sound s) (subject : Subject) :
    (s.incidents.count fun r => r.subject == subject && r.isOpen) ≤ 1 := by
  refine countP_le_one (List.Nodup.of_map IncidentRow.id s.incidents.unique) fun a hA b hB one two => ?_
  rw [Bool.and_eq_true, beq_iff_eq] at one two
  exact sound.one a hA b hB one.2 two.2 (one.1.trans two.1.symm)

/-- Each subject has at most one open incident. An observation confirms one exactly if its run of failures
is long enough, and resolves a confirmed one exactly if its run of good ones is. -/
theorem incidents_follow_runs (t : Subject → Thresholds) (observations : List Observation) (o : Observation) :
    let s := run (step t) .empty observations
    let s' := step t s o
    let history := historyOf o.subject observations
    (∀ subject, (s.incidents.count fun r => r.subject == subject && r.isOpen) ≤ 1) ∧
    (accepted history o = false → s' = s) ∧
    (accepted history o →
      ((∀ r, s.current o.subject = some r → r.status ≠ .confirmed) →
        ((∃ r, s'.current o.subject = some r ∧ r.status = .confirmed) ↔
          Reached fails (t o.subject) (o :: history) (t o.subject).failures (t o.subject).persistFor)) ∧
      (∀ r, s.current o.subject = some r → r.status = .confirmed →
        ((∃ r' ∈ s'.incidents, r'.id = r.id ∧ r'.status = .resolved) ↔
          Reached recovering (t o.subject) (o :: history) (t o.subject).successes (t o.subject).recoverFor) ∧
        (o.known = false → ∃ r' ∈ s'.incidents, r'.id = r.id ∧ r'.status = .confirmed))) ∧
    (∀ r ∈ s.incidents, r.severity = "critical" → ∀ r' ∈ s'.incidents, r'.id = r.id → r'.isOpen →
      r'.severity = "critical") := by
  intro s s' history
  obtain ⟨sound, tracks⟩ := run_tracks t observations
  have after : s' = if accepted history o then s.observed (t o.subject) o else s := step_eq (tracks o.subject)
  refine ⟨count_open_le_one sound, fun old => ?_, fun new => ?_, fun r mem critical r' mem' same opened => ?_⟩
  · rw [after, old]
    rfl
  · rw [new, if_pos rfl] at after
    rw [after]
    refine ⟨fun before => confirmed_iff sound (tracks o.subject) before, fun r found confirmed => ?_⟩
    rcases resolved_iff sound (tracks o.subject) found confirmed with ⟨reached, mem⟩ | ⟨unreached, r', mem, id, stays⟩
    · refine ⟨⟨fun _ => reached, fun _ => ⟨_, mem, rfl, rfl⟩⟩, fun unknown => ?_⟩
      exact absurd reached (not_reached (by simp [recovering, unknown]))
    · refine ⟨⟨?_, fun reached => absurd reached unreached⟩, fun _ => ⟨r', mem, id, stays⟩⟩
      rintro ⟨r₂, mem₂, id₂, resolved⟩
      rw [(s.observed (t o.subject) o).incidents.eq_of_key mem₂ mem (id₂.trans id.symm), stays] at resolved
      cases resolved
  · rw [after] at mem'
    split at mem'
    · exact critical_kept sound mem critical mem' same opened
    · rw [s.incidents.eq_of_key mem' mem same]
      exact critical

def threeFailures : Thresholds := ⟨0, 0, minute, 3, 2⟩

def failure (n : Int) : Observation :=
  ⟨⟨"service", "s", "http"⟩, n * second, true, true, "warning", "transport_fail", 0, false, false⟩

theorem incidents_follow_three_failures :
    ∃ r, (step (fun _ => threeFailures) (run (step fun _ => threeFailures) .empty [failure 1, failure 2])
      (failure 3)).current (failure 3).subject = some r ∧ r.status = .confirmed := by
  have law := incidents_follow_runs (fun _ => threeFailures) [failure 1, failure 2] (failure 3)
  refine ((law.2.2.1 (by decide +kernel)).1 ?_).mpr ?_
  · intro r found confirmed
    have pending : (run (step fun _ => threeFailures) .empty [failure 1, failure 2]).current (failure 3).subject =
        some { openedBy (failure 1) 0 with status := .pending } := by decide +kernel
    cases found
    cases confirmed
  · refine ⟨[failure 3, failure 2, failure 1], failure 3, failure 1, maximal_iff.mpr ?_, rfl, rfl, ?_, ?_⟩
    · decide +kernel
    · decide
    · decide

end Monik.IncidentRuns
