import Mathlib.Order.Basic
import Mathlib.Data.Int.Order.Basic
import Monik.Credentials
import Monik.Persistence
import Monik.Runs

/-! One agent that rotates its credential, and its controller: requests and answers are lost, and
the agent crashes between any two effects of `jobRotate`. It presents what `CredentialPath` holds
when it starts. -/

namespace Monik.CredentialRotation
open Protocol Tables ControllerStore Credentials Persistence Runs

inductive Phase
  | idle
  | chosen (jobId next : String)
  | registered (next : String)
  | preserved (next : String)

def Phase.next : Phase → Option String
  | .registered next | .preserved next => some next
  | .idle | .chosen _ _ => none

structure Process where
  cred : String
  phase : Phase

structure Files where
  credential : String
  previous : Option String
  /-- `rotation-<SHA256 of the job id>.credential` by the hash -/
  rotations : List (String × String)

structure NextRequest where
  cred : String
  jobId : String
  verifier : String
  deriving DecidableEq

structure System where
  store : Store
  agentId : String
  files : Files
  process : Option Process
  inFlight : List NextRequest
  clock : Time

inductive Delivery
  | lost
  | delayed
  | answered (now txNow : Time)
  | unanswered (now txNow : Time)

inductive Event
  | choose (jobId fresh : String) (readable : Bool) (write : WriteOutcome)
  | register (delivery : Delivery)
  | preserve (write : WriteOutcome)
  | switch (write : WriteOutcome)
  | crash
  | restart
  | report (pendingNow promoteNow : Time)
  | late (request : NextRequest) (now txNow : Time)
  | wait (now : Time)

section

variable (hashToken : String → String)

def Files.rotation (f : Files) (jobId : String) : String :=
  (f.rotations.lookup (hashToken jobId)).getD ""

variable (m : System) (p : Process)

/-- `jobRotate` reads the credential that an earlier attempt at the job persisted, or draws a
fresh one and persists it. -/
def chooseNext (jobId fresh : String) (readable : Bool) (write : WriteOutcome) : System :=
  let kept := m.files.rotation hashToken jobId
  if readable ∧ kept ≠ "" then { m with process := some { p with phase := .chosen jobId kept } }
  else
    let rotations := write.write m.files.rotations ((hashToken jobId, fresh) :: m.files.rotations)
    let phase := if write = .done then .chosen jobId fresh else .idle
    { m with files := { m.files with rotations }, process := some { p with phase } }

def serveNext (r : NextRequest) (now txNow : Time) : System × Nat :=
  let answer := handleCredentialNext hashToken m.store m.agentId r.cred r.jobId r.verifier now txNow
  ({ m with store := answer.1, clock := txNow }, answer.2)

def registerNext (jobId next : String) (d : Delivery) : System :=
  let request : NextRequest := ⟨p.cred, jobId, hashToken next⟩
  let failed : System := { m with process := some { p with phase := .idle } }
  match d with
  | .lost => failed
  | .delayed => { failed with inFlight := request :: m.inFlight }
  | .unanswered now txNow => (serveNext hashToken failed request now txNow).1
  | .answered now txNow =>
    let served := serveNext hashToken failed request now txNow
    if served.2 = 200 then { served.1 with process := some { p with phase := .registered next } }
    else served.1

def preservePrevious (next : String) (write : WriteOutcome) : System :=
  let phase := if write = .done then .preserved next else .idle
  { m with
    files := { m.files with previous := write.write m.files.previous (some p.cred) }
    process := some { p with phase } }

def switchCredential (next : String) (write : WriteOutcome) : System :=
  let cred := if write = .done then next else p.cred
  { m with
    files := { m.files with credential := write.write m.files.credential next }
    process := some ⟨cred, .idle⟩ }

def step (m : System) : Event → System
  | .choose jobId fresh readable write =>
    match m.process with
    | some ⟨cred, .idle⟩ => chooseNext hashToken m ⟨cred, .idle⟩ jobId fresh readable write
    | _ => m
  | .register delivery =>
    match m.process with
    | some ⟨cred, .chosen jobId next⟩ =>
      registerNext hashToken m ⟨cred, .chosen jobId next⟩ jobId next delivery
    | _ => m
  | .preserve write =>
    match m.process with
    | some ⟨cred, .registered next⟩ => preservePrevious m ⟨cred, .registered next⟩ next write
    | _ => m
  | .switch write =>
    match m.process with
    | some ⟨cred, .preserved next⟩ => switchCredential m ⟨cred, .preserved next⟩ next write
    | _ => m
  | .crash => { m with process := none }
  | .restart =>
    match m.process with
    | none => { m with process := some ⟨m.files.credential, .idle⟩ }
    | some _ => m
  | .report pendingNow promoteNow =>
    match m.process with
    | some ⟨cred, .idle⟩ =>
      let looked := lookupAgent hashToken m.store m.agentId cred true pendingNow promoteNow
      { m with store := looked.1, clock := promoteNow }
    | _ => m
  | .late request now txNow =>
    if request ∈ m.inFlight then
      (serveNext hashToken { m with inFlight := m.inFlight.erase request } request now txNow).1
    else m
  | .wait now => { m with clock := now }

def Event.readings : Event → List Time
  | .register (.answered now txNow) | .register (.unanswered now txNow) => [now, txNow]
  | .report pendingNow promoteNow => [pendingNow, promoteNow]
  | .late _ now txNow => [now, txNow]
  | .wait now => [now]
  | _ => []

def Timely (e : Event) : Prop := (m.clock :: e.readings).Pairwise (· ≤ ·)

instance (m : System) (e : Event) : Decidable (Timely m e) :=
  inferInstanceAs (Decidable ((m.clock :: e.readings).Pairwise (· ≤ ·)))

/-- The verifier of the credential file, or of the credential to be written there, is not promoted yet. -/
def Awaited (verifier : String) : Prop :=
  (verifier = hashToken m.files.credential ∨
    ∃ p ∈ m.process, ∃ next ∈ p.phase.next, verifier = hashToken next) ∧
  ∀ a ∈ m.store.agent m.agentId, a.credentialHash ≠ verifier

instance (m : System) (verifier : String) : Decidable (Awaited hashToken m verifier) :=
  instDecidableAnd

def Prompt (e : Event) : Prop :=
  ∀ o ∈ m.store.overlap m.agentId, Awaited hashToken m o.pendingHash →
    ∀ t ∈ e.readings, t < o.expiresAt

instance (m : System) (e : Event) : Decidable (Prompt hashToken m e) :=
  inferInstanceAs (Decidable (∀ o ∈ m.store.overlap m.agentId, Awaited hashToken m o.pendingHash →
    ∀ t ∈ e.readings, t < o.expiresAt))

/-- The controller would accept the credential of the file: it is the current one, or a pending
one that `PromoteCredential` installs. -/
def Accepted (m : System) : Prop :=
  ∃ a ∈ m.store.agent m.agentId, a.revoked = false ∧
    (a.credentialHash = hashToken m.files.credential ∨
      (promoteCredential m.store m.agentId (hashToken m.files.credential) m.clock).isOk)

/-- An enrolled agent between two rotations. The rotation files, the overlap row and the
requests under way are arbitrary. -/
def Enrolled (m : System) : Prop :=
  (∃ a ∈ m.store.agent m.agentId,
    a.revoked = false ∧ a.credentialHash = hashToken m.files.credential) ∧
  ∀ p ∈ m.process, p = ⟨m.files.credential, .idle⟩

def Usable (a : AgentRow) (cred : String) : Prop :=
  a.credentialHash = hashToken cred ∨ Live m.store m.agentId (hashToken cred) m.clock

/-- What every prompt run keeps. The credential in memory lags behind the file only while it is
still the current one. -/
structure Safe (m : System) (a : AgentRow) : Prop where
  found : m.store.agent m.agentId = some a
  active : a.revoked = false
  file : Usable hashToken m a m.files.credential
  memory : ∀ p ∈ m.process, p.cred = m.files.credential ∨ a.credentialHash = hashToken p.cred
  next : ∀ p ∈ m.process, ∀ n ∈ p.phase.next,
    a.credentialHash = hashToken p.cred ∧ Usable hashToken m a n

end

section

variable {hashToken : String → String} {m : System} {a : AgentRow} {e : Event}

theorem Enrolled.safe (h : Enrolled hashToken m) : ∃ a, Safe hashToken m a := by
  obtain ⟨⟨a, found, active, current⟩, idle⟩ := h
  refine ⟨a, found, active, .inl current, fun p hp => ?_, fun p hp n hn => ?_⟩
  · rw [idle p hp]
    exact .inl rfl
  · rw [idle p hp] at hn
    cases hn

theorem Safe.accepted (h : Safe hashToken m a) : Accepted hashToken m := by
  refine ⟨a, h.found, h.active, ?_⟩
  by_cases current : a.credentialHash = hashToken m.files.credential
  · exact .inl current
  · obtain ⟨t, promoted, -⟩ :=
      promoteCredential_live h.found h.active current (h.file.resolve_left current)
    rw [promoted]
    exact .inr rfl

theorem Safe.setProcess (h : Safe hashToken m a) {p : Process}
    (memory : p.cred = m.files.credential ∨ a.credentialHash = hashToken p.cred)
    (idle : p.phase.next = none) : Safe hashToken { m with process := some p } a := by
  refine { h with memory := fun q hq => ?_, next := fun q hq n hn => ?_ }
  · cases hq
    exact memory
  · cases hq
    rw [idle] at hn
    cases hn

variable {cred : String}

theorem Prompt.usable (prompt : Prompt hashToken m e) (found : m.store.agent m.agentId = some a) {t : Time} (usable : Usable hashToken m a cred) (ht : t ∈ e.readings)
    (held : hashToken cred = hashToken m.files.credential ∨
    ∃ p ∈ m.process, ∃ next ∈ p.phase.next, hashToken cred = hashToken next) :
    Usable hashToken { m with clock := t } a cred := by
  by_cases current : a.credentialHash = hashToken cred
  · exact .inl current
  · obtain ⟨named, nonempty, o, row, pending, -⟩ := usable.resolve_left current
    refine .inr ⟨named, nonempty, o, row, pending, prompt o row ?_ t ht⟩
    rw [pending]
    refine ⟨held, fun b hb => ?_⟩
    rw [found] at hb
    cases hb
    exact current

theorem Safe.wait (h : Safe hashToken m a) (prompt : Prompt hashToken m e) {t : Time}
    (ht : t ∈ e.readings) : Safe hashToken { m with clock := t } a :=
  { h with
    file := prompt.usable h.found h.file ht (.inl rfl)
    next := fun p hp n hn =>
      ⟨(h.next p hp n hn).1, prompt.usable h.found (h.next p hp n hn).2 ht (.inr ⟨p, hp, n, hn, rfl⟩)⟩ }

theorem Safe.serve {txNow : Time} (h : Safe hashToken { m with clock := txNow } a)
    (r : NextRequest) (now : Time) :
    let served := serveNext hashToken m r now txNow
    Safe hashToken served.1 a ∧ (served.2 = 200 → a.credentialHash = hashToken r.cred ∧
      (a.credentialHash = r.verifier ∨ Live served.1.store m.agentId r.verifier txNow)) := by
  cases answer :
    handleCredentialNext hashToken m.store m.agentId r.cred r.jobId r.verifier now txNow with
  | mk store code =>
  have served : serveNext hashToken m r now txNow = ({ m with store, clock := txNow }, code) := by
    simp only [serveNext, answer]
  obtain ⟨agents, kept, accepted⟩ := handleCredentialNext_spec h.found answer
  have usable : ∀ cred, Usable hashToken { m with clock := txNow } a cred →
      Usable hashToken { m with store, clock := txNow } a cred :=
    fun cred => Or.imp id (kept (hashToken cred))
  rw [served]
  refine ⟨{ h with found := ?_, file := usable _ h.file, next := fun p hp n hn => ?_ }, accepted⟩
  · have found := h.found
    rw [Store.agent] at found ⊢
    rw [agents]
    exact found
  · exact ⟨(h.next p hp n hn).1, usable n (h.next p hp n hn).2⟩

section

variable (h : Safe hashToken m a)
include h

theorem Safe.choose (run : m.process = some ⟨cred, .idle⟩)
    (jobId fresh : String) (readable : Bool) (write : WriteOutcome) :
    Safe hashToken (chooseNext hashToken m ⟨cred, .idle⟩ jobId fresh readable write) a := by
  have memory := h.memory _ run
  unfold chooseNext
  dsimp only
  split
  · exact h.setProcess memory rfl
  · let rotations := write.write m.files.rotations ((hashToken jobId, fresh) :: m.files.rotations)
    have filed : Safe hashToken { m with files := { m.files with rotations } } a := { h with }
    exact filed.setProcess (p := ⟨cred, if write = .done then .chosen jobId fresh else .idle⟩) memory
      (by split <;> rfl)

theorem Safe.register {jobId next : String}
    (run : m.process = some ⟨cred, .chosen jobId next⟩) {d : Delivery} (prompt : Prompt hashToken m (.register d)) :
    Safe hashToken (registerNext hashToken m ⟨cred, .chosen jobId next⟩ jobId next d) a := by
  have memory := h.memory _ run
  have failed : Safe hashToken { m with process := some ⟨cred, .idle⟩ } a := h.setProcess memory rfl
  have later : ∀ t ∈ (Event.register d).readings,
      Safe hashToken { m with process := some ⟨cred, .idle⟩, clock := t } a :=
    fun t ht => (h.wait prompt ht).setProcess memory rfl
  cases d with
  | lost => exact failed
  | delayed => exact { failed with }
  | unanswered now txNow =>
    have ready := later txNow (by simp [Event.readings])
    exact (Safe.serve (m := { m with process := some ⟨cred, .idle⟩ }) ready _ now).1
  | answered now txNow =>
    have ready := later txNow (by simp [Event.readings])
    obtain ⟨safe, accepted⟩ := Safe.serve (m := { m with process := some ⟨cred, .idle⟩ }) ready
      ⟨cred, jobId, hashToken next⟩ now
    unfold registerNext
    dsimp only
    split
    · rename_i ok
      obtain ⟨current, registered⟩ := accepted ok
      refine { safe with memory := fun q hq => ?_, next := fun q hq n hn => ?_ }
      · cases hq
        exact .inr current
      · cases hq
        cases hn
        exact ⟨current, registered⟩
    · exact safe

theorem Safe.preserve {next : String} (run : m.process = some ⟨cred, .registered next⟩) (write : WriteOutcome) :
    Safe hashToken (preservePrevious m ⟨cred, .registered next⟩ next write) a := by
  obtain ⟨current, usable⟩ := h.next _ run next rfl
  refine { h with memory := fun q hq => ?_, next := fun q hq n hn => ?_ }
  · cases hq
    exact .inr current
  · cases hq
    change n ∈ (if write = .done then Phase.preserved next else .idle).next at hn
    split at hn
    · cases hn
      exact ⟨current, usable⟩
    · cases hn

theorem Safe.switch {next : String} (run : m.process = some ⟨cred, .preserved next⟩) (write : WriteOutcome) :
    Safe hashToken (switchCredential m ⟨cred, .preserved next⟩ next write) a := by
  obtain ⟨current, usable⟩ := h.next _ run next rfl
  refine { h with file := ?_, memory := fun q hq => ?_, next := fun q hq n hn => ?_ }
  · cases write with
    | failed => exact h.file
    | done => exact usable
    | renamed => exact usable
  · cases hq
    cases write with
    | done => exact .inl rfl
    | failed => exact .inr current
    | renamed => exact .inr current
  · cases hq
    cases hn

theorem Safe.report (run : m.process = some ⟨cred, .idle⟩)
    {pendingNow promoteNow : Time} (order : pendingNow ≤ promoteNow)
    (later : Safe hashToken { m with clock := promoteNow } a) :
    ∃ b, Safe hashToken { m with
      store := (lookupAgent hashToken m.store m.agentId cred true pendingNow promoteNow).1
      clock := promoteNow } b := by
  have usable : a.credentialHash = hashToken cred ∨
      Live m.store m.agentId (hashToken cred) promoteNow := by
    rcases h.memory _ run with same | current
    · change cred = _ at same
      rw [same]
      exact later.file
    · exact .inl current
  obtain ⟨-, same⟩ | ⟨other, promoted⟩ := lookupAgent_promotes h.found h.active order usable
  · rw [same]
    exact ⟨a, later⟩
  · have same : cred = m.files.credential := (h.memory _ run).resolve_right other
    refine ⟨_, promoted, h.active, .inl (congrArg hashToken same), fun q hq => ?_, fun q hq n hn => ?_⟩
    · exact .inl ((Option.some.inj (run.symm.trans hq)) ▸ same)
    · rw [← Option.some.inj (run.symm.trans hq)] at hn
      cases hn

theorem Safe.step (timely : Timely m e) (prompt : Prompt hashToken m e) :
    ∃ b, Safe hashToken (step hashToken m e) b := by
  unfold CredentialRotation.step
  cases e with
  | choose jobId fresh readable write =>
    dsimp only
    split
    · rename_i run
      exact ⟨a, h.choose run jobId fresh readable write⟩
    · exact ⟨a, h⟩
  | register d =>
    dsimp only
    split
    · rename_i run
      exact ⟨a, h.register run prompt⟩
    · exact ⟨a, h⟩
  | preserve write =>
    dsimp only
    split
    · rename_i run
      exact ⟨a, h.preserve run write⟩
    · exact ⟨a, h⟩
  | switch write =>
    dsimp only
    split
    · rename_i run
      exact ⟨a, h.switch run write⟩
    · exact ⟨a, h⟩
  | crash =>
    refine ⟨a, { h with memory := fun p hp => ?_, next := fun p hp => ?_ }⟩
    · cases hp
    · cases hp
  | restart =>
    dsimp only
    split
    · exact ⟨a, h.setProcess (.inl rfl) rfl⟩
    · exact ⟨a, h⟩
  | report pendingNow promoteNow =>
    dsimp only
    split
    · rename_i run
      have order : pendingNow ≤ promoteNow := by simp_all [Timely, Event.readings]
      exact h.report run order (h.wait prompt (by simp [Event.readings]))
    · exact ⟨a, h⟩
  | late request now txNow =>
    dsimp only
    split
    · have ready := h.wait prompt (t := txNow) (by simp [Event.readings])
      exact ⟨a, (Safe.serve (m := { m with inFlight := m.inFlight.erase request }) { ready with }
        request now).1⟩
    · exact ⟨a, h⟩
  | wait now => exact ⟨a, h.wait prompt (by simp [Event.readings])⟩

theorem run_safe {events : List Event}
    (ok : Meets (CredentialRotation.step hashToken) (fun m e => Timely m e ∧ Prompt hashToken m e) m events) :
    ∃ b, Safe hashToken (run (CredentialRotation.step hashToken) m events) b :=
  run_invariant (fun m => ∃ a, Safe hashToken m a)
    (fun _ _ safe ok => safe.elim fun _ h => h.step ok.1 ok.2) ⟨a, h⟩ ok

end

end

def exampleHash (token : String) : String :=
  if token = "old" then "aaaaaaaaaaaaaaaaaaaaaaaaaaaaaaaaaaaaaaaaaaaaaaaaaaaaaaaaaaaaaaaa"
  else "bbbbbbbbbbbbbbbbbbbbbbbbbbbbbbbbbbbbbbbbbbbbbbbbbbbbbbbbbbbbbbbb"

def enrolledRow : AgentRow :=
  { id := "a1", revoked := false, archived := false, managedReady := true, flavor := "", os := "linux"
    arch := "amd64", immutableRelease := false, sessionId := "", workerDigest := "", lastLiveAt := none
    appliedRevision := 0, appliedHash := "", desiredRevision := 0, credentialHash := exampleHash "old"
    endpointGeneration := 0, lastSeq := 0 }

def enrolledSystem : System :=
  { store := { Store.empty with agents := ⟨[enrolledRow], by simp⟩ }, agentId := "a1"
    files := ⟨"old", none, []⟩, process := some ⟨"old", .idle⟩, inFlight := [], clock := 0 }

theorem enrolledSystem_enrolled : Enrolled exampleHash enrolledSystem :=
  ⟨⟨enrolledRow, rfl, rfl, rfl⟩, fun p hp => by cases hp; rfl⟩

def switched : List Event :=
  [.choose "job1" "new" true .done, .register (.answered second second), .preserve .done, .switch .done]

def retried : List Event :=
  [.choose "job1" "new" true .done, .register (.unanswered second second)] ++ switched ++
    [.crash, .restart, .report (5 * minute) (5 * minute)]

/-- While no overlap runs out whose verifier belongs to the credential file or to the credential about to be
written, the controller accepts the credential of the file. -/
theorem rotation_keeps_access (hashToken : String → String) (m : System) (events : List Event)
    (enrolled : Enrolled hashToken m)
    (ok : Meets (step hashToken) (fun m e => Timely m e ∧ Prompt hashToken m e) m events) :
    Accepted hashToken (run (step hashToken) m events) := by
  obtain ⟨a, start⟩ := enrolled.safe
  obtain ⟨b, safe⟩ := run_safe start ok
  exact safe.accepted

theorem rotation_keeps_access_retried :
    Accepted exampleHash (run (step exampleHash) enrolledSystem retried) ∧
      (run (step exampleHash) enrolledSystem retried).files.credential = "new" := by
  refine ⟨rotation_keeps_access exampleHash enrolledSystem retried enrolledSystem_enrolled ?_, by decide⟩
  decide

/-- The promoting report comes after the deadline: the controller refuses the file's credential, and nothing
reads `previous.credential` back. -/
theorem rotation_loses_access :
    let m := run (step exampleHash) enrolledSystem (switched ++ [.wait (second + oneShotExpiry)])
    Enrolled exampleHash enrolledSystem ∧
      Meets (step exampleHash) Timely enrolledSystem (switched ++ [.wait (second + oneShotExpiry)]) ∧
      m.files.credential = "new" ∧ ¬ Accepted exampleHash m := by
  refine ⟨enrolledSystem_enrolled, by decide, by decide, ?_⟩
  unfold Accepted
  decide

end Monik.CredentialRotation
