import Monik.NamedGenerations
import Monik.SparkBroker

/-! What one section of a call can do: the journal holds registered requests, generations stay or
rise, what is saved was in memory, and an effect starts before its request's deadline. -/

namespace Monik.SparkSections
open Protocol Tables Persistence NamedGenerations SparkPolicy SparkCoordinator SparkExecute SparkExisting
open SparkBroker

def book (profiles : Map String RuntimeProfile) : Book String String := fun p =>
  (((profiles.get p).getD .zero).generation, ((profiles.get p).getD .zero).identity)

def bookOf (c : Coordinator) : Book String String := book c.journal.profiles

variable {c c' : Coordinator}

theorem bookOf_apply (p : String) : bookOf c p = ((c.runtime p).generation, (c.runtime p).identity) := rfl

theorem bookOf_putRuntime (p q : String) (r : RuntimeProfile) :
    bookOf (c.putRuntime p r) q = if q = p then (r.generation, r.identity) else bookOf c q := by
  rw [bookOf_apply, bookOf_apply]
  simp only [Coordinator.runtime, Coordinator.putRuntime, Map.get_put]
  split <;> rfl

theorem bookOf_putRuntime_same {p : String} {r : RuntimeProfile} (generation : r.generation = (c.runtime p).generation)
    (identity : r.identity = (c.runtime p).identity) : bookOf (c.putRuntime p r) = bookOf c := by
  funext q
  rw [bookOf_putRuntime]
  split
  · rename_i same
    rw [same, bookOf_apply, generation, identity]
  · rfl

theorem observeLocked_identity (c : Coordinator) (p : Profile) (i : Instance) (now : Time) :
    (observeLocked c p i now).2.identity = i.identity := by
  unfold observeLocked
  dsimp only
  split_ifs <;> simp_all

theorem observeLocked_generation (c : Coordinator) (p : Profile) (i : Instance) (now : Time) :
    (observeLocked c p i now).2.generation =
      if (c.runtime p.id).identity ≠ i.identity then (c.runtime p.id).generation + 1
      else (c.runtime p.id).generation := by
  unfold observeLocked
  dsimp only
  split_ifs <;> rfl

theorem bookOf_observeLocked (c : Coordinator) (p : Profile) (i : Instance) (now : Time) (q : String) :
    bookOf (observeLocked c p i now).1 q = if q = p.id then
      ((observeLocked c p i now).2.generation, i.identity) else bookOf c q := by
  have written := bookOf_putRuntime (c := c) p.id q (observeLocked c p i now).2
  rw [observeLocked_identity] at written
  exact written

theorem rises_observeLocked (c : Coordinator) (p : Profile) (i : Instance) (now : Time) :
    Rises (bookOf c) (bookOf (observeLocked c p i now).1) := by
  intro q
  rw [bookOf_observeLocked]
  split
  · rename_i same
    rw [observeLocked_generation, same, bookOf_apply]
    split
    · exact .inr (Int.lt_succ _)
    · rename_i known
      rw [not_not.mp known]
      exact .inl rfl
  · exact .inl rfl

/-! The requests of the journal. -/

variable {Granted : ActionRequest → Prop}

variable {id : String} {q r : ActionRequest} {a : Attempt} {pc : Pc} {now : Time} {e : Entry}

def Registered (Granted : ActionRequest → Prop) (id : String) (q : ActionRequest) : Prop :=
  q = .zero ∨ (q.jobId = id ∧ id ≠ "" ∧ (q.isLocal ∨ Granted q))

theorem Registered.zero (id : String) : Registered Granted id .zero := .inl rfl

def Live (Granted : ActionRequest → Prop) (r : ActionRequest) : Prop :=
  r.jobId ≠ "" ∧ (r.isLocal ∨ Granted r)

def Startable (Granted : ActionRequest → Prop) (r : ActionRequest) : Prop :=
  r = .zero ∨ r.isLocal ∨ Granted r

theorem Registered.startable (h : Registered Granted id q) : Startable Granted q :=
  h.imp_right fun registered => registered.2.2

theorem Startable.live (h : Startable Granted r) (valid : sparkValidId r.jobId) : Live Granted r := by
  rcases h with rfl | given
  · cases valid
  · refine ⟨fun empty => ?_, given⟩
    rw [empty] at valid
    cases valid

theorem Live.registered (h : Live Granted r) : Registered Granted r.jobId r :=
  .inr ⟨rfl, h.1, h.2⟩

def Filed (Granted : ActionRequest → Prop) (m : Map String Attempt) : Prop :=
  ∀ id a, m.get id = some a → Registered Granted id a.request

variable {m : Map String Attempt}

theorem filed_empty : Filed Granted (Table.empty : Map String Attempt) := by
  intro id a found
  cases found

section

variable (h : Filed Granted m)
include h

theorem Filed.put (registered : Registered Granted id q) (same : a.request = q) : Filed Granted (m.put id a) := by
  intro id' a' found
  rw [Map.get_put] at found
  split at found
  · rename_i key
    cases found
    rw [key, same]
    exact registered
  · exact h id' a' found

theorem Filed.mapValues {f : String → Attempt → Attempt} (keeps : ∀ id a, (f id a).request = a.request)
    : Filed Granted (m.mapValues f) := by
  intro id a found
  rw [Map.get_mapValues, Option.map_eq_some_iff] at found
  obtain ⟨old, found, rfl⟩ := found
  rw [keeps]
  exact h id old found

theorem Filed.erase (id : String) : Filed Granted (m.erase id) := by
  intro id' a found
  rw [Map.get_erase] at found
  split at found
  · cases found
  · exact h id' a found

theorem Filed.discard (p : String → Attempt → Bool) : Filed Granted (m.discard p) := by
  intro id a found
  rw [Map.get_discard, Option.filter_eq_some_iff] at found
  exact h id a found.1

theorem Filed.getD (id : String) : Registered Granted id ((m.get id).getD .zero).request := by
  cases found : m.get id with
  | none => exact .zero id
  | some a => exact h id a found

end

theorem Registered.own (h : Registered Granted id q) : Registered Granted q.jobId q := by
  rcases h with rfl | ⟨same, valid, granted⟩
  · exact .zero _
  · exact .inr ⟨rfl, same ▸ valid, granted⟩

theorem Registered.replace {q' : ActionRequest} (h : Registered Granted id q) (h' : Registered Granted q.jobId q') :
    Registered Granted id q' := by
  rcases h' with rfl | ⟨same', valid', granted'⟩
  · exact .zero _
  · rcases h with rfl | ⟨same, valid, granted⟩
    · exact absurd rfl valid'
    · exact .inr ⟨same'.trans same, valid, granted'⟩


/-! The parts of the sections. -/

structure Moved (Granted : ActionRequest → Prop) (c c' : Coordinator) : Prop where
  filed : Filed Granted c'.journal.attempts
  rises : Rises (bookOf c) (bookOf c')

variable {c₀ : Coordinator}

theorem Moved.refl (filed : Filed Granted c.journal.attempts) : Moved Granted c c := ⟨filed, .refl _⟩

section

variable (h : Moved Granted c₀ c)
include h

theorem Moved.trans (h' : Moved Granted c c') : Moved Granted c₀ c' :=
  ⟨h'.filed, h.rises.trans h'.rises⟩

theorem Moved.wrote (filed : Filed Granted c'.journal.attempts) (same : bookOf c' = bookOf c) : Moved Granted c₀ c' :=
  ⟨filed, same.symm ▸ h.rises⟩

theorem Moved.put (registered : Registered Granted id q) (same : a.request = q)
    : Moved Granted c₀ (c.putAttempt id a) :=
  h.wrote (h.filed.put registered same) rfl

theorem Moved.mapped {f : String → Attempt → Attempt} (keeps : ∀ id a, (f id a).request = a.request) :
    Moved Granted c₀ (c.setAttempts (c.journal.attempts.mapValues f)) :=
  h.wrote (h.filed.mapValues keeps) rfl

theorem Moved.observed (p : Profile) (i : Instance) (now : Time) : Moved Granted c₀ (observeLocked c p i now).1 :=
  ⟨h.filed, h.rises.trans (rises_observeLocked c p i now)⟩

theorem Moved.runtime {p : String} {r : RuntimeProfile} (generation : r.generation = (c.runtime p).generation)
    (identity : r.identity = (c.runtime p).identity) : Moved Granted c₀ (c.putRuntime p r) :=
  h.wrote h.filed (bookOf_putRuntime_same generation identity)

theorem Moved.validated (r : ActionRequest) (p : Profile) (i : Instance) (now : Time) :
    Moved Granted c₀ (validateLocked c r p i now).1 := by
  unfold validateLocked
  dsimp only
  split
  · exact h
  split_ifs
  · exact h
  · exact h
  all_goals exact h.observed p i now

theorem Moved.preflightOthers (env : Env) (p : Profile) (replace : Bool) (need : Nat)
    (others : List Profile) (available : Nat) :
    Moved Granted c₀ (preflightOthers env p replace need others c available).1 := by
  induction others generalizing c available with
  | nil => exact h
  | cons other others ih =>
    unfold SparkCoordinator.preflightOthers
    split
    · exact ih h available
    dsimp only
    split
    · exact h
    · rename_i c' r found
      have looked : Moved Granted c₀ c' := by
        split at found
        · cases seen : env.inspect other.id with
          | none => simp [seen] at found
          | some i =>
            rw [seen, Option.map_some, Option.some.injEq, Prod.mk.injEq] at found
            rw [← found.1]
            exact h.observed other i env.now
        · cases found
          exact h
      split_ifs
      · exact looked
      · exact looked
      · exact ih looked _
      · exact ih looked _

theorem Moved.preflight (env : Env) (p : Profile) (replace : Bool) :
    Moved Granted c₀ (preflightLocked env c p replace).1 := by
  have others := h.preflightOthers env p replace ((p.requiredMemoryBytes + p.osHeadroomBytes) % 2 ^ 64)
    c.policy.profiles env.available
  unfold preflightLocked
  dsimp only
  split
  · exact h
  split
  · exact h
  split
  · exact h
  split
  · rename_i found
    rw [found] at others
    exact others
  · rename_i found
    rw [found] at others
    split <;> exact others

theorem Moved.finishStoppedStarts (stop : Attempt) : Moved Granted c₀ (finishStoppedStartsLocked c stop) := by
  unfold finishStoppedStartsLocked
  split
  · exact h
  · refine h.mapped fun id a => ?_
    split <;> rfl

theorem Moved.finishParent (stage : Attempt) : Moved Granted c₀ (finishParentLocked c stage).1 := by
  unfold finishParentLocked
  split
  · exact h
  split
  · exact h
  · rename_i parent found
    have own := (h.filed _ _ found).own
    split
    · exact h
    split
    · exact h.put own (by rfl)
    · exact h.put own (by rfl)

end

theorem finishParentLocked_request (c : Coordinator) (stage : Attempt) :
    (finishParentLocked c stage).2.request = stage.request := by
  unfold finishParentLocked
  repeat' split
  all_goals rfl

section

variable (h : Moved Granted c₀ c)
include h

theorem Moved.restoreStartLinks (stopId : String) (previous : List (String × String)) :
    Moved Granted c₀ (restoreStartLinksLocked c stopId previous) := by
  unfold restoreStartLinksLocked
  induction previous generalizing c with
  | nil => exact h
  | cons link previous ih =>
    apply ih
    dsimp only
    split
    · exact h.put (h.filed.getD link.1) (by rfl)
    · exact h

theorem Moved.cancelForStop (p : Profile) : Moved Granted c₀ (cancelForStop c p) := by
  unfold SparkExecute.cancelForStop
  dsimp only
  have quiet : Moved Granted c₀ { c with
      preflightToken := c.preflightToken.put p.id (c.token p.id + 1), pendingStarts := c.pendingStarts.erase p.id } :=
    h.wrote h.filed rfl
  refine Moved.runtime (.mapped (quiet.mapped fun id a => ?_) fun id a => ?_) (by rfl) (by rfl)
  · split <;> rfl
  · split_ifs <;> rfl

theorem Moved.recordAdmitted (live : Live Granted a.request) (p : Profile) (i : Instance) (now : Time)
    : Moved Granted c₀ (recordAdmitted c a p i now) := by
  have linked : Moved Granted c₀ (if a.request.action = .modelStop then
      (c.putAttempt a.request.jobId a).setAttempts
        ((c.putAttempt a.request.jobId a).journal.attempts.mapValues fun _ b =>
          if linksStart a.request i b then { b with stoppedByJobId := a.request.jobId } else b)
      else c.putAttempt a.request.jobId a) := by
    split
    · refine (h.put live.registered (by rfl)).mapped fun id b => ?_
      split <;> rfl
    · exact h.put live.registered (by rfl)
  unfold SparkExecute.recordAdmitted
  dsimp only
  generalize (if a.request.action = .modelStop then _ else _ : Coordinator) = c' at linked ⊢
  split_ifs
  · exact .runtime (linked.put (linked.filed.getD _) (by rfl)) (by rfl) (by rfl)
  · exact linked.runtime (by rfl) (by rfl)
  · exact linked.put (linked.filed.getD _) (by rfl)
  · exact linked

theorem Moved.recordExisting (live : Live Granted a.request) : Moved Granted c₀ (recordExisting c a) := by
  have recorded := h.put live.registered rfl
  unfold SparkExisting.recordExisting
  dsimp only
  split
  · exact recorded.put (recorded.filed.getD _) (by rfl)
  · exact recorded

theorem Moved.reconcile (registered : Registered Granted id a.request) (p : Profile) (i : Instance) (now : Time) :
    Moved Granted c₀ ((reconcileLocked c a p i now).1.putAttempt id (reconcileLocked c a p i now).2) := by
  have seen := h.observed p i now
  unfold reconcileLocked
  dsimp only
  generalize (observeLocked c p i now).1 = c' at seen ⊢
  split_ifs
  · split
    · exact seen.put registered (by rfl)
    · rename_i stop _
      have finished := seen.finishStoppedStarts stop
      split_ifs
      · exact finished.put (registered.replace (finished.filed.getD _)) (by rfl)
      · exact finished.put registered (by rfl)
  · exact (seen.finishParent _).put registered (finishParentLocked_request c' _)
  · exact .put (.finishStoppedStarts (seen.runtime (by rfl) (by rfl)) _) registered rfl
  · exact (seen.finishStoppedStarts _).put registered (by rfl)
  · exact seen.put registered (by rfl)

theorem Moved.concluded (registered : Registered Granted id q) (a : Attempt) (same : a.request = q) :
    Moved Granted c₀ ((finishParentLocked (finishStoppedStartsLocked (c.putAttempt id a) a) a).1.putAttempt id
      (finishParentLocked (finishStoppedStartsLocked (c.putAttempt id a) a) a).2) :=
  (((h.put registered same).finishStoppedStarts a).finishParent a).put registered
    ((finishParentLocked_request _ a).trans same)

end

theorem concludedAttempt_request (checks : ExistingChecks) (c : Coordinator) (r : ActionRequest) (p : Profile)
    (a : Attempt) (backend : ExistingReceipt) (current : Option ExistingSnapshot) (now : Time) :
    (concludedAttempt checks c r p a backend current now).request = a.request := by
  unfold concludedAttempt
  cases current
  all_goals
    dsimp only
    split
    · split <;> rfl
    · rfl

theorem Moved.concludedExisting (h : Moved Granted c₀ c) (registered : Registered Granted id q)
    (same : a.request = q) (p : Profile) (backend : ExistingReceipt) :
    let closed := if backend.action = .modelStop ∧ a.receipt.status = .succeeded then
        (c.putAttempt id a).setAttempts ((c.putAttempt id a).journal.attempts.mapValues fun _ start =>
          if startOfRun p backend start then
            { start with stage := .done, receipt := existingCancelledReceipt a.receipt start.request }
          else start)
      else c.putAttempt id a
    Moved Granted c₀ ((finishParentLocked closed a).1.putAttempt id (finishParentLocked closed a).2) := by
  refine Moved.put (.finishParent ?_ a) registered ((finishParentLocked_request _ a).trans same)
  split
  · refine (h.put registered same).mapped fun id start => ?_
    split <;> rfl
  · exact h.put registered same

/-! The sections. -/

def begins : Entry → Option ActionRequest
  | .effect r .. | .submit r _ => some r
  | .pruned .. | .returned _ => none

def Begun (Granted : ActionRequest → Prop) (now : Time) (e : Entry) : Prop :=
  ∀ q, begins e = some q → Live Granted q ∧ now < q.deadline

theorem begun_of_quiet (quiet : begins e = none) : Begun Granted now e := by
  intro q begun
  rw [quiet] at begun
  cases begun

theorem begun_of_early (begun : begins e = some r) (live : Live Granted r) (early : now < r.deadline) :
    Begun Granted now e := by
  intro q same
  rw [begun, Option.some.injEq] at same
  subst same
  exact ⟨live, early⟩

structure Leaves (Granted : ActionRequest → Prop) (now : Time) (h h' : Hold) : Prop where
  memory : Moved Granted h.coordinator h'.coordinator
  disk : h'.disk = h.disk ∨
    ∃ c, h'.disk = some c.journal ∧ Moved Granted h.coordinator c ∧ Moved Granted c h'.coordinator
  log : ∃ added, h'.log = added ++ h.log ∧ ∀ e ∈ added, Begun Granted now e

variable {h₀ h h' : Hold}

theorem Leaves.refl (filed : Filed Granted h.coordinator.journal.attempts) : Leaves Granted now h h :=
  ⟨.refl filed, .inl rfl, [], rfl, by simp⟩

section

variable (before : Leaves Granted now h₀ h)
include before

theorem Leaves.moved {c : Coordinator}
    (moves : Moved Granted h.coordinator h.coordinator → Moved Granted h.coordinator c) :
    Leaves Granted now h₀ { h with coordinator := c } := by
  have last := moves (.refl before.memory.filed)
  refine ⟨before.memory.trans last, ?_, before.log⟩
  rcases before.disk with same | ⟨c', saved, first, second⟩
  · exact .inl same
  · exact .inr ⟨c', saved, first, second.trans last⟩

theorem Leaves.quiet {f : Coordinator → Coordinator} (same : (f h.coordinator).journal = h.coordinator.journal)
    : Leaves Granted now h₀ (h.update f) := by
  refine before.moved fun m => m.wrote ?_ ?_
  · rw [same]
    exact m.filed
  · rw [bookOf, same]
    rfl

theorem Leaves.saved {w : WriteOutcome} : Leaves Granted now h₀ (saveLocked h w).1 := by
  refine ⟨before.memory, ?_, before.log⟩
  rcases w.write_cases h.disk (some h.coordinator.journal) with old | new
  · rcases before.disk with same | later
    · exact .inl (old.trans same)
    · exact .inr (later.imp fun c saved => ⟨old.trans saved.1, saved.2⟩)
  · exact .inr ⟨h.coordinator, new, before.memory, .refl before.memory.filed⟩

theorem Leaves.logged {entries : List Entry} (begun : ∀ e ∈ entries, Begun Granted now e)
    : Leaves Granted now h₀ { h with log := entries ++ h.log } := by
  obtain ⟨added, log, all⟩ := before.log
  refine ⟨before.memory, before.disk, entries ++ added, ?_, fun e mem => ?_⟩
  · rw [log, List.append_assoc]
  · exact (List.mem_append.mp mem).elim (begun e) (all e)

theorem Leaves.entry (begun : Begun Granted now e) : Leaves Granted now h₀ { h with log := e :: h.log } := by
  refine @Leaves.logged _ _ _ _ before [e] fun e' mem => ?_
  rw [List.mem_singleton.mp mem]
  exact begun

end

theorem leaves_ite {α : Type} {q : Prop} [Decidable q] {a b : Hold × α} (yes : q → Leaves Granted now h₀ a.1)
    (no : ¬q → Leaves Granted now h₀ b.1) : Leaves Granted now h₀ (if q then a else b).1 := by
  split
  · exact yes ‹q›
  · exact no ‹¬q›

variable {env : Env}

theorem leaves_answerDuplicate (before : Leaves Granted env.now h₀ h) (k : Kernel) (p : Profile) {prior : Attempt}
    (found : h.coordinator.attempt r.jobId = some prior) :
    Leaves Granted env.now h₀ (answerDuplicate k h r p prior env).1 := by
  have registered := before.memory.filed _ _ found
  refine leaves_ite (fun _ => before) fun _ => leaves_ite (fun _ => before) fun _ => ?_
  refine leaves_ite (fun _ => before) fun _ => leaves_ite (fun _ => leaves_ite (fun _ => before) fun _ => ?_) fun _ => ?_
  · refine leaves_ite (fun _ => ?_) fun _ => ?_
    all_goals exact .saved (before.moved fun m => m.put registered (by rfl))
  · split
    · exact before
    · exact .saved (before.moved fun m => m.reconcile registered p _ env.now)

theorem leaves_prune (before : Leaves Granted now h₀ h) (at_ : Time) : Leaves Granted now h₀ (prune h at_) := by
  unfold prune
  dsimp only
  split
  · exact before
  · refine (before.moved fun m => m.wrote (m.filed.discard _) (by rfl)).logged fun e mem => ?_
    obtain ⟨row, -, rfl⟩ := List.mem_map.mp mem
    exact begun_of_quiet rfl

section

variable (before : Leaves Granted env.now h₀ h)
include before

theorem leaves_admissionError (r : ActionRequest) (p : Profile) :
    Leaves Granted env.now h₀ (admissionError h r p env).1 := by
  refine leaves_ite (fun _ => before) fun _ => ?_
  split
  · exact before
  · rename_i i _
    have validated := before.moved fun m => m.validated r p i env.now
    dsimp only
    split
    · exact validated
    · split_ifs <;> exact validated

theorem leaves_recordAlreadyDone (k : Kernel) (live : Live Granted r) (p : Profile) (i : Instance)
    : Leaves Granted env.now h₀ (recordAlreadyDone k h r p i env).1 := by
  refine leaves_ite (fun _ => ?_) fun _ => ?_
  all_goals exact .saved (before.moved fun m => (m.put live.registered (by rfl)).finishStoppedStarts _)

theorem leaves_recordStarting (k : Kernel) (live : Live Granted r) (p : Profile) (i : Instance)
    : Leaves Granted env.now h₀ (recordStarting k h r p i env).1 := by
  refine leaves_ite (fun _ => ?_) fun _ => ?_
  all_goals exact .saved (before.moved fun m => m.put live.registered (by rfl))

theorem leaves_recordPendingStart (k : Kernel) (live : Live Granted r) (p : Profile) (i : Instance)
    : Leaves Granted env.now h₀ (recordPendingStart k h r p i env).1 := by
  have recorded {c : Coordinator} (a : Attempt) (same : c.journal = h.coordinator.journal) (request : a.request = r) :
      Leaves Granted env.now h₀ (saveLocked { h with coordinator := c.putAttempt r.jobId a } env.save).1 := by
    refine .saved (before.moved fun m => .put (m.wrote ?_ ?_) live.registered request)
    · rw [same]
      exact m.filed
    · rw [bookOf, same]
      rfl
  refine leaves_ite (fun _ => recorded _ rfl rfl) fun _ => ?_
  exact (recorded _ rfl rfl).moved fun m => m.wrote (m.filed.erase _) (by rfl)

end

theorem leaves_rejectPreflightLocked (before : Leaves Granted now h₀ h) (r : ActionRequest) (code : String)
    (w : WriteOutcome) : Leaves Granted now h₀ (rejectPreflightLocked h r code w) := by
  unfold rejectPreflightLocked
  split
  · exact before
  · rename_i pending found
    split
    · exact .saved (before.moved fun m => m.put (m.filed _ _ found) (by rfl))
    · exact before

section

variable (before : Leaves Granted env.now h₀ h)
include before

theorem leaves_finalAdmission (k : Kernel) (live : Live Granted r) (p : Profile) (i : Instance)
    : Leaves Granted env.now h₀ (finalAdmission k h r p i env).1 := by
  have recorded (a : Attempt) (same : a.request = r) : Leaves Granted env.now h₀
      (saveLocked (h.update fun c => recordAdmitted c a p i env.final) env.save).1 :=
    .saved (before.moved fun m => m.recordAdmitted (same.symm ▸ live) p i env.final)
  refine leaves_ite (fun _ => before) fun _ => leaves_ite (fun _ => before) fun _ => ?_
  refine leaves_ite (fun _ => leaves_rejectPreflightLocked before r _ env.save) fun _ => ?_
  refine leaves_ite (fun _ => leaves_rejectPreflightLocked before r _ env.save) fun _ => ?_
  refine leaves_ite (fun _ => recorded _ rfl) fun _ => ?_
  exact (recorded _ rfl).moved fun m => .restoreStartLinks (m.wrote (m.filed.erase _) (by rfl)) _ _

theorem leaves_enter (k : Kernel) (startable : Startable Granted r) :
    Leaves Granted env.now h₀ (enter k h r env).1 := by
  unfold enter
  split
  · exact before
  rename_i valid
  simp only [not_or, Bool.not_eq_false] at valid
  have live := startable.live valid.1
  dsimp only
  have cleared : Leaves Granted env.now h₀ (h.update fun c => { c with seen := [] }) := before.quiet rfl
  generalize h.update (fun c => { c with seen := [] }) = u at cleared
  split
  · exact cleared
  rename_i p _
  refine leaves_ite (fun _ => cleared) fun _ => ?_
  split
  · rename_i found
    exact leaves_answerDuplicate cleared k p found
  have checked := leaves_admissionError (leaves_prune cleared env.now) r p
  split
  · rename_i refused
    rw [refused] at checked
    exact checked
  rename_i v i passed
  rw [passed] at checked
  have cancelled : Leaves Granted env.now h₀
      (if r.action = .modelStop then v.update fun c => cancelForStop c p else v) := by
    split
    · exact checked.moved fun m => m.cancelForStop p
    · exact checked
  generalize (if r.action = .modelStop then v.update fun c => cancelForStop c p else v) = w at cancelled
  refine leaves_ite (fun _ => leaves_recordAlreadyDone cancelled k live p i) fun _ => ?_
  refine leaves_ite (fun _ => leaves_recordStarting cancelled k live p i) fun _ => ?_
  refine leaves_ite (fun _ => leaves_recordPendingStart cancelled k live p i) fun _ => ?_
  exact leaves_ite (fun _ => cancelled) fun _ => leaves_finalAdmission cancelled k live p i

theorem leaves_resume (k : Kernel) (live : Live Granted r) (p : Profile)
    (found : Instance) (token : Nat) (serial : Option Nat) :
    Leaves Granted env.now h₀ (resume k h r p found token serial env).1 := by
  unfold resume
  have cleared : Leaves Granted env.now h₀ (h.update fun c => { c with
      seen := []
      pendingStarts := if (c.pendingStarts.get p.id).any fun q => serial == some q.serial then
        c.pendingStarts.erase p.id else c.pendingStarts }) := before.quiet rfl
  generalize (h.update fun c => { c with
      seen := []
      pendingStarts := if (c.pendingStarts.get p.id).any fun q => serial == some q.serial then
        c.pendingStarts.erase p.id else c.pendingStarts }) = u at cleared
  refine leaves_ite (fun _ => cleared) fun _ => leaves_ite (fun _ => ?_) fun _ => ?_
  · refine leaves_ite (fun _ => ?_) fun _ => ?_
    all_goals exact .saved (cleared.moved fun m => m.put live.registered (by rfl))
  split
  · exact leaves_rejectPreflightLocked cleared r _ env.save
  split
  · exact leaves_rejectPreflightLocked cleared r _ env.save
  rename_i i _
  have validated := cleared.moved fun m => m.validated r p i env.now
  split
  · rename_i refused
    rw [refused] at validated
    exact leaves_rejectPreflightLocked validated r _ env.save
  rename_i c' passed
  rw [passed] at validated
  have checked := validated.moved fun m => m.preflight env p (r.action == .modelRestart)
  split
  · rename_i refused
    rw [refused] at checked
    exact leaves_rejectPreflightLocked checked r _ env.save
  · rename_i free
    rw [free] at checked
    exact leaves_finalAdmission checked k live p i

theorem leaves_invoke (p : Profile) (live : Live Granted a.request) (links : List (String × String))
    : Leaves Granted env.now h₀ (invoke h p a links env).1 := by
  unfold invoke
  refine leaves_ite (fun _ => leaves_ite (fun _ => ?_) fun _ => ?_) fun early => ?_
  · exact .saved (before.moved fun m => (m.put live.registered (by rfl)).restoreStartLinks _ _)
  · exact .saved (before.moved fun m => (m.put live.registered (by rfl)).restoreStartLinks _ _)
  · exact before.entry (begun_of_early rfl live (not_le.mp early))

theorem leaves_recordEffect (p : Profile) (live : Live Granted a.request) (after : Option Instance)
    : Leaves Granted env.now h₀ (recordEffect h p a after env).1 := by
  unfold recordEffect
  split
  · exact .saved (before.moved fun m => m.put live.registered (by rfl))
  · rename_i after
    refine leaves_ite (fun _ => leaves_ite (fun _ => ?_) fun _ => ?_) fun _ => ?_
    all_goals
      exact .saved (before.moved fun m => ((m.observed p after env.now).put live.registered (by rfl)).finishParent _)

theorem leaves_observeStop (r : ActionRequest) (p : Profile) : Leaves Granted env.now h₀ (observeStop h r p env).1 := by
  have timeout (after : Instance) : Leaves Granted env.now h₀ (observeStop.stopTimeout h r p env after).1 :=
    .saved (before.moved fun m => m.put (m.filed.getD r.jobId) (by rfl))
  unfold observeStop
  split
  · exact leaves_ite (fun _ => before) fun _ => leaves_ite (fun _ => timeout _) fun _ => before
  · exact leaves_ite (fun _ => timeout _) fun _ => before

theorem leaves_settle (r : ActionRequest) (p : Profile) (after : Instance) :
    Leaves Granted env.now h₀ (settle h r p after env).1 := by
  have registered := before.memory.filed.getD r.jobId
  have seen (m : Moved Granted h.coordinator h.coordinator) : Moved Granted h.coordinator
      (if r.action = .modelRestart then
        (observeLocked h.coordinator p after env.now).1.reserve p.id (env.now + 60 * second)
      else (observeLocked h.coordinator p after env.now).1) := by
    split
    · exact (m.observed p after env.now).runtime (by rfl) (by rfl)
    · exact m.observed p after env.now
  unfold settle
  refine leaves_ite (fun _ => before) fun _ => leaves_ite (fun _ => ?_) fun _ => ?_
  all_goals
    refine .saved (before.moved fun m => (seen m).concluded registered _ ?_)
    split_ifs <;> rfl

theorem leaves_admitExisting (k : Kernel) (live : Live Granted r) (p : Profile) (authority : ExistingAuthority) :
    Leaves Granted env.now h₀ (admitExisting k h r p authority env).1 := by
  unfold admitExisting
  split
  · exact before
  rename_i snap _
  dsimp only
  have seen := before.moved fun m => m.observed p (snap.toInstance k.checks p) env.now
  refine leaves_ite (fun _ => before) fun _ => ?_
  split
  · exact seen
  refine leaves_ite (fun _ => seen) fun _ => leaves_ite (fun _ => ?_) fun _ => ?_
  all_goals exact .saved (seen.moved fun m => m.recordExisting live)

theorem leaves_submitExisting (live : Live Granted r) (p : Profile)
    (authority : ExistingAuthority) (unknown : JobReceipt) :
    Leaves Granted env.now h₀ (submitExisting h r p authority unknown env).1 := by
  refine leaves_ite (fun _ => before) fun early => ?_
  split <;> exact before.entry (begun_of_early rfl live (not_le.mp early))

theorem leaves_concludeExisting (k : Kernel) (r : ActionRequest) (p : Profile)
    (authority : ExistingAuthority) (backend : ExistingReceipt) (current : Option ExistingSnapshot) :
    Leaves Granted env.now h₀ (concludeExisting k h r p authority backend current env).1 := by
  have registered := before.memory.filed.getD r.jobId
  unfold concludeExisting
  refine leaves_ite (fun _ => before) fun _ => leaves_ite (fun _ => before) fun _ => ?_
  refine leaves_ite (fun _ => before) fun _ => ?_
  generalize currentSnapshot k.checks h.coordinator p ((h.coordinator.attempt r.jobId).getD .zero) current = taken
  have request := fun c => concludedAttempt_request k.checks c r p ((h.coordinator.attempt r.jobId).getD .zero) backend
    taken env.now
  cases taken with
  | none =>
    refine leaves_ite (fun _ => ?_) fun _ => ?_
    all_goals exact .saved (before.moved fun m => m.concludedExisting registered (request _) p backend)
  | some snap =>
    refine leaves_ite (fun _ => ?_) fun _ => ?_
    all_goals
      exact .saved (before.moved fun m =>
        (m.observed p (snap.toInstance k.checks p) env.now).concludedExisting registered (request _) p backend)

end

def requestOf : Pc → ActionRequest
  | .entering r | .weighing r .. | .observing r _ | .settling r .. | .existing r _ | .existingObserving r ..
  | .existingSubmitting r .. | .existingReading r .. | .existingFinishing r .. | .existingConcluding r ..
  | .existingParent r => r
  | .armed _ a _ | .invoked _ a _ => a.request

def PcOk (Granted : ActionRequest → Prop) : Pc → Prop
  | .entering r => Startable Granted r
  | pc => Live Granted (requestOf pc)

theorem leaves_section (before : Leaves Granted env.now h₀ h) (k : Kernel) (pcOk : PcOk Granted pc) :
    Leaves Granted env.now h₀ (section_ k h pc env).1 := by
  cases pc with
  | entering r => exact leaves_enter before k pcOk
  | weighing r p found token serial => exact leaves_resume before k pcOk p found token serial
  | armed p a links => exact leaves_invoke before p pcOk links
  | invoked p a after => exact leaves_recordEffect before p pcOk after
  | observing r p => exact leaves_observeStop before r p
  | settling r p after => exact leaves_settle before r p after
  | existing r p => exact (enterExisting_hold k h r p env).symm ▸ before
  | existingObserving r p authority => exact leaves_admitExisting before k pcOk p authority
  | existingSubmitting r p request authority unknown => exact leaves_submitExisting before pcOk p authority unknown
  | existingReading r p authority prior => exact (readExisting_hold h r p authority prior env).symm ▸ before
  | existingFinishing r p authority backend => exact (finishExisting_hold k h r p authority backend env).symm ▸ before
  | existingConcluding r p authority backend current =>
    exact leaves_concludeExisting before k r p authority backend current
  | existingParent r => exact before

end Monik.SparkSections
