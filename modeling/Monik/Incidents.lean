import Mathlib.Data.List.Sort
import Monik.ControllerStore

/-! `ObserveIncident` (`storage/incident_observations.go`), one transaction for each call: it moves
the streak of an entity and metric and the incident open for it. Incident ids come from a counter;
audit events are left out. -/

namespace Monik.Incidents
open Protocol Tables ControllerStore

structure Subject where
  entityType : String
  entityId : String
  metric : String
  deriving DecidableEq

inductive IncidentStatus
  | pending | confirmed | resolved | interrupted | policyChanged
  deriving DecidableEq

structure IncidentRow where
  id : Nat
  subject : Subject
  severity : String
  status : IncidentStatus
  openedAt : Time
  confirmedAt : Option Time
  resolvedAt : Option Time
  acked : Option (Time × String)
  ruleVersion : Int
  reason : String
  maintenance : Bool
  deriving DecidableEq

def IncidentRow.isOpen (r : IncidentRow) : Bool := r.status == .pending || r.status == .confirmed

structure Streak where
  last : Time
  badSince : Time
  goodSince : Time
  bad : Nat
  good : Nat

def Streak.zero : Streak := ⟨zeroTime, zeroTime, zeroTime, 0, 0⟩

structure StreakRow where
  subject : Subject
  streak : Streak

structure IncidentStore where
  incidents : Table IncidentRow IncidentRow.id
  streaks : Table StreakRow StreakRow.subject
  next : Nat

def IncidentStore.empty : IncidentStore := ⟨.empty, .empty, 0⟩

structure Thresholds where
  persistFor : Time
  recoverFor : Time
  maxGap : Time
  failures : Int
  successes : Int

structure Observation where
  subject : Subject
  observedAt : Time
  known : Bool
  failed : Bool
  severity : String
  reason : String
  ruleVersion : Int
  holdRecovery : Bool
  maintenance : Bool
  deriving DecidableEq

def IncidentStore.streak (s : IncidentStore) (subject : Subject) : Streak :=
  ((s.streaks.find? fun r => r.subject == subject).map StreakRow.streak).getD .zero

def newestFirst (a b : IncidentRow) : Prop := b.openedAt ≤ a.openedAt

instance : DecidableRel newestFirst := fun a b => inferInstanceAs (Decidable (b.openedAt ≤ a.openedAt))

def IncidentStore.current (s : IncidentStore) (subject : Subject) : Option IncidentRow :=
  ((s.incidents.rows.filter fun r => r.subject == subject && r.isOpen).insertionSort newestFirst).head?

/-! One observation. -/

def Streak.accepts (streak : Streak) (o : Observation) : Bool :=
  decide (streak.last = zeroTime) || decide (streak.last < o.observedAt)

variable (t : Thresholds) (streak : Streak) (o : Observation)

def Streak.gap : Bool :=
  decide (streak.last ≠ zeroTime) && decide (t.maxGap < o.observedAt - streak.last)

def Streak.reset (streak : Streak) : Streak :=
  { streak with bad := 0, good := 0, badSince := zeroTime, goodSince := zeroTime }

def Streak.fail (streak : Streak) (observedAt : Time) : Streak :=
  { streak with
    good := 0, goodSince := zeroTime
    badSince := if streak.bad = 0 then observedAt else streak.badSince
    bad := streak.bad + 1 }

def Streak.hold (streak : Streak) : Streak := { streak with good := 0, goodSince := zeroTime }

def Streak.succeed (streak : Streak) (observedAt : Time) : Streak :=
  { streak with
    bad := 0, badSince := zeroTime
    goodSince := if streak.good = 0 then observedAt else streak.goodSince
    good := streak.good + 1 }

def interrupt (r : IncidentRow) : IncidentRow :=
  { r with
    status := .interrupted, resolvedAt := some o.observedAt
    reason := r.reason ++ "; observation continuity interrupted" }

def openedBy (id : Nat) : IncidentRow :=
  ⟨id, o.subject, o.severity, .pending, o.observedAt, none, none, none, o.ruleVersion, o.reason, o.maintenance⟩

/-- A failed observation: an escalation takes the acknowledgement back, the peak severity is retained. -/
def worsen (r : IncidentRow) : IncidentRow :=
  { r with
    acked := if r.severity = "warning" ∧ o.severity = "critical" then none else r.acked
    severity := if r.severity = "critical" then "critical" else o.severity
    reason := o.reason
    maintenance := r.maintenance || o.maintenance }

def confirm (r : IncidentRow) : IncidentRow :=
  if r.status = .pending ∧ t.failures ≤ streak.bad ∧ t.persistFor ≤ o.observedAt - streak.badSince then
    { r with status := .confirmed, confirmedAt := some o.observedAt }
  else r

def recovers (r : IncidentRow) : Bool :=
  r.status == .pending || (r.status == .confirmed && decide (t.successes ≤ streak.good) &&
    decide (t.recoverFor ≤ o.observedAt - streak.goodSince))

def resolve (r : IncidentRow) : IncidentRow :=
  { r with status := .resolved, resolvedAt := some o.observedAt }

def Streak.broken : Bool := !o.known || streak.gap t o

def interrupted (broken : Bool) (found : Option IncidentRow) : Option IncidentRow :=
  if broken then found.filter fun r => r.status == .pending else none

def continued (broken : Bool) (found : Option IncidentRow) : Option IncidentRow :=
  if broken then found.filter fun r => r.status != .pending else found

/-- The streak after the observation, and the incident that it writes; `id` is that of a new one. -/
def respond (current : Option IncidentRow) (o : Observation) (id : Nat) :
    Streak × Option IncidentRow :=
  if o.known && o.failed then
    let streak := streak.fail o.observedAt
    let row := (current.map (worsen o)).getD (openedBy o id)
    (streak, some (confirm t streak o row))
  else if o.known && o.holdRecovery && (current.any fun r => r.status == .confirmed) then (streak.hold, none)
  else if o.known then
    let streak := streak.succeed o.observedAt
    (streak, (current.filter (recovers t streak o)).map (resolve o))
  else (streak, none)

def advance (found : Option IncidentRow) (o : Observation) (id : Nat) : Streak × List IncidentRow :=
  let broken := streak.broken t o
  let out := respond t (if broken then streak.reset else streak) (continued broken found) o id
  ({ out.1 with last := o.observedAt }, ((interrupted broken found).map (interrupt o)).toList ++ out.2.toList)

def IncidentStore.observed (s : IncidentStore) (o : Observation) : IncidentStore :=
  let out := advance t (s.streak o.subject) (s.current o.subject) o s.next
  { incidents := out.2.foldl Table.upsert s.incidents
    streaks := s.streaks.upsert ⟨o.subject, out.1⟩
    next := s.next + 1 }

def observeIncident (s : IncidentStore) (o : Observation) : Except StoreError IncidentStore :=
  if o.observedAt = zeroTime then .error .conflict
  else if (s.streak o.subject).accepts o then .ok (s.observed t o)
  else .ok s

/-! What a call finds and writes. -/

variable {t : Thresholds} {s : IncidentStore} {o : Observation} {subject : Subject} {r : IncidentRow}

theorem current_some (h : s.current subject = some r) : r ∈ s.incidents ∧ r.subject = subject ∧ r.isOpen := by
  have mem := List.mem_of_mem_head? (Option.mem_def.mpr h)
  rw [List.mem_insertionSort, List.mem_filter, Bool.and_eq_true, beq_iff_eq] at mem
  exact mem

theorem current_none (h : s.current subject = none) (mem : r ∈ s.incidents) (same : r.subject = subject) :
    r.isOpen = false := by
  have empty : (s.incidents.rows.filter fun r => r.subject == subject && r.isOpen) = [] := by
    rw [← List.length_eq_zero_iff, ← List.length_insertionSort newestFirst, List.length_eq_zero_iff]
    exact List.head?_eq_none_iff.mp h
  have out := List.filter_eq_nil_iff.mp empty r mem
  simpa [same] using out

structure Sound (s : IncidentStore) : Prop where
  drawn : ∀ r ∈ s.incidents, r.id < s.next
  one : ∀ a ∈ s.incidents, ∀ b ∈ s.incidents, a.isOpen → b.isOpen → a.subject = b.subject → a = b

theorem sound_empty : Sound .empty := by
  refine ⟨?_, ?_⟩
  · intro r mem
    cases mem
  · intro a mem
    cases mem

theorem Sound.current_eq (sound : Sound s) (mem : r ∈ s.incidents) (opened : r.isOpen) :
    s.current r.subject = some r := by
  cases found : s.current r.subject with
  | none =>
    rw [current_none found mem rfl] at opened
    cases opened
  | some a =>
    obtain ⟨there, same, open_⟩ := current_some found
    rw [sound.one a there r mem open_ opened same]

theorem continuity_cases (broken : Bool) (found : Option IncidentRow) :
    (interrupted broken found = none ∧ continued broken found = found ∧
        ∀ r, found = some r → r.status = .pending → broken = false) ∨
      ∃ r, found = some r ∧ r.status = .pending ∧ interrupted broken found = some r ∧ continued broken found = none := by
  cases broken with
  | false => exact .inl ⟨rfl, rfl, fun _ _ _ => rfl⟩
  | true =>
    cases found with
    | none => exact .inl ⟨rfl, rfl, by simp⟩
    | some r =>
      by_cases pending : r.status = .pending
      · exact .inr ⟨r, rfl, pending, by simp [interrupted, pending], by simp [continued, pending]⟩
      · exact .inl ⟨by simp [interrupted, pending], by simp [continued, pending], by simp [pending]⟩

theorem respond_row {streak : Streak} {current : Option IncidentRow} {id : Nat} {w : IncidentRow}
    (h : (respond t streak current o id).2 = some w) : (∃ r, current = some r ∧ w.id = r.id ∧ w.subject = r.subject) ∨
      current = none ∧ w.id = id ∧ w.subject = o.subject := by
  have confirmed : ∀ streak r, (confirm t streak o r).id = r.id ∧ (confirm t streak o r).subject = r.subject := by
    intro streak r
    unfold confirm
    split <;> exact ⟨rfl, rfl⟩
  unfold respond at h
  split at h
  · cases h
    cases current with
    | none => exact .inr ⟨rfl, confirmed _ _⟩
    | some r => exact .inl ⟨r, rfl, confirmed _ _⟩
  · split at h
    · cases h
    · split at h
      · obtain ⟨r, kept, rfl⟩ := Option.map_eq_some_iff.mp h
        exact .inl ⟨r, (Option.filter_eq_some_iff.mp kept).1, rfl, rfl⟩
      · cases h

theorem mem_foldl_upsert {rows : List IncidentRow} (nodup : (rows.map IncidentRow.id).Nodup)
    (table : Table IncidentRow IncidentRow.id) : r ∈ rows.foldl Table.upsert table ↔
      (r ∈ table ∧ ∀ w ∈ rows, w.id ≠ r.id) ∨ r ∈ rows := by
  induction rows generalizing table with
  | nil => simp
  | cons w rows ih =>
    rw [List.map_cons, List.nodup_cons] at nodup
    rw [List.foldl_cons, ih nodup.2, Table.mem_upsert]
    have apart : ∀ v ∈ rows, v.id ≠ w.id := fun v mem same => nodup.1 (List.mem_map.mpr ⟨v, mem, same⟩)
    simp only [List.mem_cons, forall_eq_or_imp]
    constructor
    · rintro (⟨⟨there, other⟩ | rfl, rest⟩ | written)
      · exact .inl ⟨there, Ne.symm other, rest⟩
      · exact .inr (.inl rfl)
      · exact .inr (.inr written)
    · rintro (⟨there, other, rest⟩ | rfl | written)
      · exact .inl ⟨.inl ⟨there, Ne.symm other⟩, rest⟩
      · exact .inl ⟨.inr rfl, apart⟩
      · exact .inr written

end Monik.Incidents
