import Monik.Runs
import Monik.SparkCoordinator

/-! The file of the control journal (`saveLocked` in `spark/control.go`), byte for byte. A write
that reports an error may have replaced the file; the coordinator knows the bytes of its last
confirmed write, of the last failed one and those before it, and preserves any other. The tests'
writer is left out. -/

namespace Monik.ControlJournal
open Runs Persistence

variable {β : Type*} [DecidableEq β]

/-- A file of the disk. `readPrivateFile` refuses one with another owner, mode or kind. -/
structure File (β : Type*) where
  bytes : β
  readable : Bool
  deriving DecidableEq

structure Journal (β : Type*) where
  saved : Option β
  uncertain : Option β
  prior : Option β
  file : Option (File β)
  /-- whatever was handed to `AtomicWrite`; nothing reads it -/
  written : List β
  deriving DecidableEq

inductive SaveError
  | byteLimit
  | unavailable
  | changedOutside
  | write

def Journal.read (j : Journal β) : Option β := (j.file.filter File.readable).map File.bytes

def Journal.knows (j : Journal β) (current : β) : Bool :=
  decide (j.saved = some current) ||
    (j.uncertain.isSome && (decide (j.uncertain = some current) || decide (j.prior = some current)))

def Journal.write (j : Journal β) (b : β) (current : Option β) (w : WriteOutcome) :
    Journal β × Option SaveError :=
  let file := w.write j.file (some ⟨b, true⟩)
  let written := b :: j.written
  if w = .done then ({ saved := some b, uncertain := none, prior := none, file, written }, none)
  else ({ j with uncertain := some b, prior := current, file, written }, some .write)

def saveLocked (fits : β → Bool) (j : Journal β) (b : β) (w : WriteOutcome) : Journal β × Option SaveError :=
  if fits b = false then (j, some .byteLimit)
  else if j.saved = none then j.write b none w
  else
    match j.read with
    | none => (j, some .unavailable)
    | some current =>
      if j.knows current = false then (j, some .changedOutside)
      else if j.uncertain = none ∧ current = b then (j, none)
      else j.write b (some current) w

/-- `OpenCoordinator` once the old file was decoded: the journal is saved, or nothing is opened. -/
def openCoordinator (fits : β → Bool) (file : Option (File β)) (b : β) (w : WriteOutcome) : Option (Journal β) :=
  match saveLocked fits ⟨none, none, none, file, []⟩ b w with
  | (j, none) => some j
  | (_, some _) => none

inductive Event (β : Type*)
  | save (b : β) (w : WriteOutcome)
  | replace (file : Option (File β))

def step (fits : β → Bool) (j : Journal β) : Event β → Journal β
  | .save b w => (saveLocked fits j b w).1
  | .replace file => { j with file }

def save (fits : β → Bool) (j : Journal β) (e : β × WriteOutcome) : Journal β := (saveLocked fits j e.1 e.2).1

variable {fits : β → Bool} {j : Journal β}

theorem saveLocked_cases (fits : β → Bool) (started : j.saved ≠ none) (b : β) (w : WriteOutcome) :
    (∃ e, saveLocked fits j b w = (j, some e) ∧ (fits b → j.read.all (fun c => !j.knows c)) ∧
        (e = .changedOutside → ∃ current, j.read = some current ∧ j.knows current = false)) ∨
      (saveLocked fits j b w = (j, none) ∧ j.uncertain = none ∧ j.read = some b ∧ j.knows b) ∨
      (∃ current, j.read = some current ∧ j.knows current ∧
        saveLocked fits j b w = j.write b (some current) w) := by
  unfold saveLocked
  split
  · rename_i tooLong
    refine .inl ⟨_, rfl, fun fit => ?_, fun same => ?_⟩
    · rw [fit] at tooLong
      cases tooLong
    · cases same
  · split
    · rename_i unread
      refine .inl ⟨_, rfl, fun _ => ?_, fun same => ?_⟩
      · rw [unread]
        rfl
      · cases same
    · rename_i current read
      split
      · rename_i foreign
        refine .inl ⟨_, rfl, fun _ => ?_, fun _ => ⟨current, read, foreign⟩⟩
        simp [read, foreign]
      · rename_i known
        split
        · rename_i same
          refine .inr (.inl ⟨rfl, same.1, same.2 ▸ read, ?_⟩)
          rw [← same.2]
          simpa using known
        · refine .inr (.inr ⟨current, read, ?_, rfl⟩)
          simpa using known

/-! While nobody else writes. -/

structure Described (j : Journal β) : Prop where
  started : j.saved ≠ none
  known : ∃ current, j.read = some current ∧ j.knows current

theorem described_write (saved : j.saved ≠ none) {current : β} (read : j.read = some current) (b : β)
    (w : WriteOutcome) : Described (j.write b (some current) w).1 := by
  cases w with
  | done =>
    refine ⟨fun none => ?_, b, rfl, ?_⟩
    · cases none
    · simp [Journal.write, Journal.knows]
  | failed =>
    refine ⟨saved, current, read, ?_⟩
    simp [Journal.write, Journal.knows]
  | renamed =>
    refine ⟨saved, b, rfl, ?_⟩
    simp [Journal.write, Journal.knows]

theorem Described.save (h : Described j) (e : β × WriteOutcome) : Described (save fits j e) := by
  unfold ControlJournal.save
  rcases saveLocked_cases fits h.started e.1 e.2 with ⟨_, out, -⟩ | ⟨out, -⟩ | ⟨current, read, -, out⟩
  · rw [out]
    exact h
  · rw [out]
    exact h
  · rw [out]
    exact described_write h.started read e.1 e.2

variable {file : Option (File β)} {b : β} {w : WriteOutcome}

theorem openCoordinator_eq (opened : openCoordinator fits file b w = some j)
    : j = ⟨some b, none, none, some ⟨b, true⟩, [b]⟩ := by
  unfold openCoordinator saveLocked at opened
  cases fit : fits b with
  | false => simp [fit] at opened
  | true =>
    cases w with
    | done => simpa [fit, Journal.write, WriteOutcome.write, eq_comm] using opened
    | failed => simp [fit, Journal.write] at opened
    | renamed => simp [fit, Journal.write] at opened

theorem described_openCoordinator (opened : openCoordinator fits file b w = some j) : Described j := by
  rw [openCoordinator_eq opened]
  exact ⟨Option.some_ne_none b, b, rfl, by simp [Journal.knows]⟩

theorem Described.outcome (h : Described j) (fits : β → Bool) (b : β) (w : WriteOutcome) :
    (saveLocked fits j b w).2 ≠ some .changedOutside ∧
      ∃ w' : WriteOutcome, (saveLocked fits j b w).1.file.map File.bytes = w'.write (j.file.map File.bytes) (some b) ∧
        ((saveLocked fits j b w).2 = none ↔ w' = .done) ∧ (w = .done → fits b → w' = .done) := by
  obtain ⟨current, read, known⟩ := h.known
  have held : j.file.map File.bytes = some current := by
    unfold Journal.read at read
    cases file : j.file with
    | none => simp [file] at read
    | some f =>
      simp only [file, Option.filter_some, Option.map_eq_some_iff, Option.ite_none_right_eq_some] at read
      obtain ⟨_, ⟨-, same⟩, bytes⟩ := read
      cases same
      simp [bytes]
  rcases saveLocked_cases fits h.started b w with ⟨e, out, fit, foreign⟩ | ⟨out, -, same, -⟩ | ⟨_, -, -, out⟩
  · rw [out]
    refine ⟨fun same => ?_, .failed, rfl, ⟨fun none => ?_, fun done => ?_⟩, fun _ fitted => ?_⟩
    · obtain ⟨_, read', unknown⟩ := foreign (Option.some.inj same)
      rw [read] at read'
      cases read'
      rw [known] at unknown
      cases unknown
    · cases none
    · cases done
    · have unread := fit fitted
      simp [read, known] at unread
  · rw [out]
    rw [read] at same
    cases same
    refine ⟨fun none => ?_, .done, held, ?_, fun _ _ => rfl⟩
    · cases none
    · simp
  · rw [out]
    refine ⟨fun foreign => ?_, w, ?_, ?_, fun done _ => done⟩
    · cases w <;> cases foreign
    · cases w <;> rfl
    · cases w <;> simp [Journal.write]

theorem saveLocked_refines (encode : SparkPolicy.Journal → β) (h : Described j) (hold : SparkCoordinator.Hold)
    (same : hold.disk.map encode = j.file.map File.bytes) (w : WriteOutcome) : ∃ w' : WriteOutcome,
      (SparkCoordinator.saveLocked hold w').1.disk.map encode =
          (saveLocked fits j (encode hold.coordinator.journal) w).1.file.map File.bytes ∧
        (SparkCoordinator.saveLocked hold w').2 = (saveLocked fits j (encode hold.coordinator.journal) w).2.isNone := by
  obtain ⟨-, w', file, done, -⟩ := h.outcome fits (encode hold.coordinator.journal) w
  refine ⟨w', ?_, ?_⟩
  · rw [file, ← same]
    cases w' <;> rfl
  · rw [Bool.eq_iff_iff, Option.isNone_iff_eq_none, done]
    simp [SparkCoordinator.saveLocked]

/-! Whatever others write. -/

structure Own (j : Journal β) : Prop where
  started : j.saved ≠ none
  known : ∀ b, j.knows b → b ∈ j.written

theorem own_write (h : Own j) {current : β} (known : j.knows current) (b : β) (w : WriteOutcome) :
    Own (j.write b (some current) w).1 := by
  have before := h.known current known
  have saved : ∀ b', j.saved = some b' → b' ∈ j.written := by
    intro b' same
    exact h.known b' (by simp [Journal.knows, same])
  cases w with
  | done =>
    refine ⟨fun none => ?_, fun b' known' => ?_⟩
    · cases none
    · simp only [Journal.write, Journal.knows, if_true, Option.isSome_none, Bool.false_and, Bool.or_false,
        decide_eq_true_eq, Option.some.injEq] at known'
      simp [Journal.write, known']
  | failed | renamed =>
    refine ⟨h.started, fun b' known' => ?_⟩
    simp only [Journal.write, reduceCtorEq, if_false, Journal.knows, Option.isSome_some, Bool.true_and,
      Bool.or_eq_true, decide_eq_true_eq, Option.some.injEq] at known'
    simp only [Journal.write, reduceCtorEq, if_false, List.mem_cons]
    rcases known' with same | same | same
    · exact .inr (saved b' same)
    · exact .inl same.symm
    · exact .inr (same ▸ before)

theorem Own.step (h : Own j) (e : Event β) : Own (step fits j e) := by
  cases e with
  | save b w =>
    dsimp only [ControlJournal.step]
    rcases saveLocked_cases fits h.started b w with ⟨_, out, -⟩ | ⟨out, -⟩ | ⟨current, -, known, out⟩
    · rw [out]
      exact h
    · rw [out]
      exact h
    · rw [out]
      exact own_write h known b w
  | replace file => exact ⟨h.started, h.known⟩

theorem own_openCoordinator (opened : openCoordinator fits file b w = some j) : Own j := by
  rw [openCoordinator_eq opened]
  refine ⟨Option.some_ne_none b, fun b' known => ?_⟩
  simp only [Journal.knows, Option.isSome_none, Bool.false_and, Bool.or_false, decide_eq_true_eq,
    Option.some.injEq] at known
  simp [known]

theorem Own.foreign (h : Own j) {file : File β} (found : j.file = some file) (foreign : file.bytes ∉ j.written)
    (b : β) (w : WriteOutcome) : (saveLocked fits j b w).1 = j := by
  have unknown : ∀ current, j.read = some current → j.knows current = false := by
    intro current read
    simp only [Journal.read, found, Option.filter_some, Option.map_eq_some_iff, Option.ite_none_right_eq_some] at read
    obtain ⟨_, ⟨-, same⟩, bytes⟩ := read
    cases same
    subst bytes
    exact Bool.eq_false_iff.mpr fun known => foreign (h.known _ known)
  rcases saveLocked_cases fits h.started b w with ⟨_, out, -⟩ | ⟨out, -⟩ | ⟨current, read, known, -⟩
  · rw [out]
  · rw [out]
  · rw [unknown current read] at known
    cases known

/-- Saves never find a change from outside and succeed only with the journal on the disk, and as soon as the
disk works; foreign bytes are never overwritten. -/
theorem saves_tolerate_ambiguous_writes (fits : β → Bool) {file : Option (File β)} {first : β} {w₀ : WriteOutcome}
    {j₀ : Journal β} (opened : openCoordinator fits file first w₀ = some j₀) :
    (∀ saves : List (β × WriteOutcome), ∀ b, fits b →
      let j := run (save fits) j₀ saves
      (∀ w, ((saveLocked fits j b w).2 = none → (saveLocked fits j b w).1.file.map File.bytes = some b) ∧
        (saveLocked fits j b w).2 ≠ some .changedOutside) ∧
      (saveLocked fits j b .done).2 = none) ∧
    (∀ events : List (Event β), ∀ file : File β,
      let j := run (step fits) j₀ events
      file.bytes ∉ j.written → ∀ later : List (β × WriteOutcome),
        (run (save fits) { j with file := some file } later).file = some file) := by
  refine ⟨fun saves b fit => ?_, fun events file => ?_⟩
  · have described : Described (run (save fits) j₀ saves) :=
      run_preserves Described (fun _ e h => h.save e) (described_openCoordinator opened) saves
    refine ⟨fun w => ?_, ?_⟩
    · obtain ⟨inside, w', file, done, -⟩ := described.outcome fits b w
      refine ⟨fun ok => ?_, inside⟩
      rw [file, done.mp ok]
      rfl
    · obtain ⟨-, w', -, done, works⟩ := described.outcome fits b .done
      exact done.mpr (works rfl fit)
  · intro j foreign later
    have own : Own j := run_preserves Own (fun _ e h => h.step e) (own_openCoordinator opened) events
    have replaced : Own { j with file := some file } := ⟨own.started, own.known⟩
    have kept : run (save fits) { j with file := some file } later = { j with file := some file } :=
      run_preserves (· = { j with file := some file })
        (fun s e same => by rw [same]; exact replaced.foreign rfl foreign e.1 e.2) rfl later
    rw [kept]

theorem saves_tolerate_two_failures :
    let fits : String → Bool := fun b => decide (b.length ≤ 8)
    let opened : Journal String := ⟨some "a", none, none, some ⟨"a", true⟩, ["a"]⟩
    let uncertain := run (save fits) opened [("b", .renamed), ("c", .failed)]
    (saveLocked fits uncertain "d" .done).2 = none ∧
      (run (save fits) { uncertain with file := some ⟨"x", true⟩ } [("d", .done)]).file = some ⟨"x", true⟩ := by
  intro fits opened uncertain
  have tolerated := saves_tolerate_ambiguous_writes fits
    (by decide : openCoordinator fits none "a" .done = some opened)
  exact ⟨(tolerated.1 [("b", .renamed), ("c", .failed)] "d" (by decide)).2,
    tolerated.2 [.save "b" .renamed, .save "c" .failed] ⟨"x", true⟩ (by decide) [("d", .done)]⟩

end Monik.ControlJournal
