import Monik.ConfigRevisions
import Monik.CrashPoints
import Monik.Runs
import Mathlib.Order.MinMax
import Mathlib.Data.List.Induction

/-! The configuration an agent has applied, in three files written one after another: the envelope,
the plain body for a previous worker, and the mirror in the identity file. Crashes fall between any
two writes, a write may fail or report a failure after it took place, and answers come late, twice
and in any order. -/

namespace Monik.AppliedConfig
open Protocol Tables Persistence ControllerStore Registration ConfigRevisions CrashPoints Runs

variable {Config : Type}

structure Desired (Config : Type) where
  revision : Int
  hash : String
  body : Config

structure Mirror where
  revision : Int
  hash : String

structure Files (Config : Type) where
  envelope : Option (Desired Config)
  legacy : Option Config
  mirror : Mirror

def Files.enrolled : Files Config := ⟨none, none, ⟨0, ""⟩⟩

structure Applied (Config : Type) where
  cfg : Config
  revision : Int

structure Memory (Config : Type) extends Applied Config where
  hash : String
  mirror : Mirror

structure Outcomes where
  (envelope legacy mirror : WriteOutcome)

def Outcomes.done : Outcomes := ⟨.done, .done, .done⟩

inductive LoadError
  | missing
  | invalid (text : String)

section files

variable (k : Configs Config)

def loadAppliedEnvelope (files : Files Config) : Except LoadError (Desired Config) :=
  match files.envelope, files.legacy with
  | some d, _ =>
    if d.hash ≠ k.hashConfig d.body ∨ d.revision < 0 then
      .error (.invalid "applied config journal hash/revision mismatch")
    else if k.valid d.body then .ok d
    else .error (.invalid "invalid configuration")
  | none, some body =>
    if k.valid body then .ok ⟨-1, k.hashConfig body, body⟩ else .error (.invalid "invalid configuration")
  | none, none => .error .missing

def saveAppliedConfig (cfg : Config) (revision : Int) (hash : String) (o : Outcomes) :
    Proc (Files Config) Bool :=
  if hash ≠ k.hashConfig cfg ∨ revision < 0 then pure false
  else do
    if ← Proc.replace o.envelope fun f => { f with envelope := some ⟨revision, hash, cfg⟩ } then
      Proc.replace o.legacy fun f => { f with legacy := some cfg }
    else return false

/-- What `Open` finds, and whether to save it: a newer configuration of a previous worker is taken over. -/
def findApplied (files : Files Config) : Except String (Applied Config × Bool) :=
  match loadAppliedEnvelope k files with
  | .error .missing =>
    if files.mirror.hash ≠ "" then
      .error "applied configuration is missing for an initialized worker; restore protected state, do not reset defaults"
    else .ok (⟨k.initial, 0⟩, false)
  | .error (.invalid text) => .error ("applied config journal: " ++ text)
  | .ok applied =>
    let revision := if applied.revision < 0 then files.mirror.revision else applied.revision
    if files.mirror.revision > revision then
      match files.legacy with
      | none =>
        .error "applied configuration is older than its identity mirror; restore the matching protected state"
      | some legacy =>
        if k.valid legacy ∧ k.hashConfig legacy = files.mirror.hash then
          .ok (⟨legacy, files.mirror.revision⟩, true)
        else
          .error "applied configuration is older than its identity mirror; restore the matching protected state"
    else if files.mirror.hash ≠ "" ∧ files.mirror.revision = revision ∧
        k.hashConfig applied.body ≠ files.mirror.hash then
      .error "applied configuration disagrees with its identity mirror"
    else .ok (⟨applied.body, revision⟩, false)

def Memory.of (x : Applied Config) (mirror : Mirror) : Memory Config :=
  { x with hash := k.hashConfig x.cfg, mirror }

def openApplied (o : Outcomes) : Proc (Files Config) (Except String (Memory Config)) := do
  let mirror ← Proc.read Files.mirror
  match ← Proc.read (findApplied k) with
  | .error text => return .error text
  | .ok (x, false) => return .ok (.of k x mirror)
  | .ok (x, true) =>
    if ← saveAppliedConfig k x.cfg x.revision mirror.hash o then return .ok (.of k x mirror)
    else return .error "applied configuration was not saved"

def applyControl (m : Memory Config) (d : Desired Config) (o : Outcomes) :
    Proc (Files Config) (Memory Config) :=
  if d.revision > m.revision ∧ k.hashConfig d.body = d.hash ∧ k.valid d.body then do
    if ← saveAppliedConfig k d.body d.revision (k.hashConfig d.body) o then
      let applied : Memory Config := .of k ⟨d.body, d.revision⟩ ⟨d.revision, k.hashConfig d.body⟩
      -- The envelope is authoritative: a failure to save the identity file is ignored.
      let _ ← Proc.replace o.mirror fun f => { f with mirror := applied.mirror }
      return applied
    else return m
  else return m

end files

def Files.level (files : Files Config) : Int :=
  match files.envelope with
  | some d => max d.revision files.mirror.revision
  | none => files.mirror.revision

variable {k : Configs Config} {r r' : Registry} {me : String} {files : Files Config} {d : Desired Config} {m : Memory Config}

def Recorded (r : Registry) (me : String) (m : Mirror) : Prop :=
  m = ⟨0, ""⟩ ∨ Published r me m.revision m.hash

/-- The default configuration without a revision, or a configuration under the revision that was
published with its hash. -/
def Backed (k : Configs Config) (r : Registry) (me : String) (x : Applied Config) : Prop :=
  x.revision = 0 ∧ x.cfg = k.initial ∨ Published r me x.revision (k.hashConfig x.cfg)

structure Genuine (k : Configs Config) (r : Registry) (me : String) (d : Desired Config) : Prop where
  hash : d.hash = k.hashConfig d.body
  valid : k.valid d.body
  published : Published r me d.revision d.hash

structure Adoptable (k : Configs Config) (r : Registry) (me : String) (files : Files Config)
    (body : Config) : Prop where
  legacy : files.legacy = some body
  valid : k.valid body
  hash : k.hashConfig body = files.mirror.hash
  published : Published r me files.mirror.revision files.mirror.hash

structure Sound (k : Configs Config) (r : Registry) (me : String) (files : Files Config) : Prop where
  envelope : ∀ d, files.envelope = some d → Genuine k r me d
  mirror : Recorded r me files.mirror
  newest : (∃ d, files.envelope = some d ∧ files.mirror.revision ≤ d.revision) ∨
    (∃ body, Adoptable k r me files body) ∨
    files.envelope = none ∧ files.legacy = none ∧ files.mirror = ⟨0, ""⟩

theorem Recorded.grows {m : Mirror} (grown : Grows r r') (h : Recorded r me m) : Recorded r' me m :=
  h.imp_right grown.published

variable {x : Applied Config}

theorem Backed.grows (grown : Grows r r') (h : Backed k r me x) : Backed k r' me x :=
  h.imp_right grown.published

theorem Genuine.grows (grown : Grows r r') (h : Genuine k r me d) : Genuine k r' me d :=
  ⟨h.hash, h.valid, grown.published h.published⟩

theorem Sound.grows (grown : Grows r r') (h : Sound k r me files) : Sound k r' me files := by
  refine ⟨fun d hd => (h.envelope d hd).grows grown, h.mirror.grows grown, ?_⟩
  rcases h.newest with ahead | ⟨body, adoptable⟩ | nothing
  · exact .inl ahead
  · exact .inr (.inl ⟨body, adoptable.legacy, adoptable.valid, adoptable.hash,
      grown.published adoptable.published⟩)
  · exact .inr (.inr nothing)

theorem Published.positive (book : Book r) {revision : Int} {hash : String}
    (h : Published r me revision hash) : 0 < revision := by
  obtain ⟨body, mem⟩ := h
  exact book.positive _ mem

theorem load_envelope (book : Book r) (written : files.envelope = some d) (genuine : Genuine k r me d) :
    loadAppliedEnvelope k files = .ok d := by
  have positive := Published.positive book genuine.published
  unfold loadAppliedEnvelope
  rw [written]
  dsimp only
  rw [if_neg (not_or.mpr ⟨not_not.mpr genuine.hash, by omega⟩), if_pos genuine.valid]

theorem find_envelope (book : Book r) (written : files.envelope = some d) (genuine : Genuine k r me d)
    (mirror : Recorded r me files.mirror) (ahead : files.mirror.revision ≤ d.revision) :
    findApplied k files = .ok (⟨d.body, d.revision⟩, false) := by
  have positive := Published.positive book genuine.published
  have agrees : ¬(files.mirror.hash ≠ "" ∧ files.mirror.revision = d.revision ∧
      k.hashConfig d.body ≠ files.mirror.hash) := by
    rintro ⟨initialized, same, differs⟩
    rcases mirror with never | published
    · exact initialized (by rw [never])
    · rw [same] at published
      exact differs (genuine.hash.symm.trans (genuine.published.unique published))
  simp only [findApplied, load_envelope book written genuine]
  rw [if_neg (show ¬d.revision < 0 by omega), if_neg (not_lt.mpr ahead), if_neg agrees]

theorem level_envelope (written : files.envelope = some d) (ahead : files.mirror.revision ≤ d.revision)
    : files.level = d.revision := by
  rw [Files.level, written]
  exact max_eq_left ahead

theorem level_mono (files : Files Config) {mirror : Mirror} (legacy : Option Config)
    (higher : files.mirror.revision ≤ mirror.revision) :
    files.level ≤ Files.level ⟨files.envelope, legacy, mirror⟩ := by
  unfold Files.level
  cases files.envelope with
  | some d => exact max_le_max (le_refl _) higher
  | none => exact higher

theorem mirror_le_level (files : Files Config) : files.mirror.revision ≤ files.level := by
  unfold Files.level
  split
  · exact le_max_right _ _
  · exact le_refl _

theorem Adoptable.find {body : Config} (book : Book r)
    (envelope : ∀ d, files.envelope = some d → Genuine k r me d ∧ d.revision < files.mirror.revision)
    (h : Adoptable k r me files body) :
    findApplied k files = .ok (⟨body, files.mirror.revision⟩, files.envelope.isSome) ∧
      files.level = files.mirror.revision := by
  cases written : files.envelope with
  | some d =>
    obtain ⟨genuine, behind⟩ := envelope d written
    have positive := Published.positive book genuine.published
    constructor
    · simp only [findApplied, load_envelope book written genuine]
      rw [if_neg (show ¬d.revision < 0 by omega), if_pos behind, h.legacy]
      exact if_pos ⟨h.valid, h.hash⟩
    · rw [Files.level, written]
      exact max_eq_right (le_of_lt behind)
  | none =>
    constructor
    · simp only [findApplied, loadAppliedEnvelope, written, h.legacy, if_pos h.valid]
      rw [if_pos (show (-1 : Int) < 0 by decide), if_neg (lt_irrefl _),
        if_neg fun differs => differs.2.2 h.hash]
      rfl
    · rw [Files.level, written]

theorem Sound.find (book : Book r) (h : Sound k r me files) :
    ∃ x adopt, findApplied k files = .ok (x, adopt) ∧ x.revision = files.level ∧ Backed k r me x ∧
      (adopt → x.revision = files.mirror.revision ∧ Adoptable k r me files x.cfg) := by
  by_cases ahead : ∃ d, files.envelope = some d ∧ files.mirror.revision ≤ d.revision
  · obtain ⟨d, written, below⟩ := ahead
    have genuine := h.envelope d written
    exact ⟨_, false, find_envelope book written genuine h.mirror below, (level_envelope written below).symm,
      .inr (genuine.hash ▸ genuine.published), nofun⟩
  rcases h.newest with old | ⟨body, adoptable⟩ | ⟨noEnvelope, noLegacy, noMirror⟩
  · exact absurd old ahead
  · have behind : ∀ d, files.envelope = some d → Genuine k r me d ∧ d.revision < files.mirror.revision :=
      fun d written => ⟨h.envelope d written, not_le.mp fun below => ahead ⟨d, written, below⟩⟩
    obtain ⟨found, level⟩ := adoptable.find book behind
    refine ⟨_, _, found, level.symm, .inr ?_, fun _ => ⟨rfl, adoptable⟩⟩
    rw [adoptable.hash]
    exact adoptable.published
  · refine ⟨⟨k.initial, 0⟩, false, ?_, ?_, .inl ⟨rfl, rfl⟩, nofun⟩
    · simp [findApplied, loadAppliedEnvelope, noEnvelope, noLegacy, noMirror]
    · rw [Files.level, noEnvelope, noMirror]

structure Written (k : Configs Config) (r : Registry) (me : String) (d : Desired Config)
    (u : Files Config) : Prop where
  genuine : Genuine k r me d
  envelope : u.envelope = some d
  mirror : Recorded r me u.mirror
  ahead : u.mirror.revision ≤ d.revision

variable {u : Files Config}

theorem Written.sound (h : Written k r me d u) : Sound k r me u := by
  refine ⟨fun e he => ?_, h.mirror, .inl ⟨d, h.envelope, h.ahead⟩⟩
  cases h.envelope.symm.trans he
  exact h.genuine

theorem Written.level (h : Written k r me d u) : u.level = d.revision :=
  level_envelope h.envelope h.ahead

theorem Written.find (book : Book r) (h : Written k r me d u) : findApplied k u = .ok (⟨d.body, d.revision⟩, false) :=
  find_envelope book h.envelope h.genuine h.mirror h.ahead

structure Running (k : Configs Config) (r : Registry) (me : String) (files : Files Config)
    (m : Memory Config) : Prop where
  backed : Backed k r me m.toApplied
  hash : m.hash = k.hashConfig m.cfg
  covered : m.revision ≤ files.level
  recorded : Recorded r me m.mirror
  below : m.mirror.revision ≤ m.revision ∧ files.mirror.revision ≤ m.revision
  saved : m.mirror = files.mirror ∨
    ∃ d, files.envelope = some d ∧ m.mirror.revision ≤ d.revision ∧ m.revision ≤ d.revision

theorem Running.grows (grown : Grows r r') (h : Running k r me files m) : Running k r' me files m :=
  ⟨h.backed.grows grown, h.hash, h.covered, h.recorded.grows grown, h.below, h.saved⟩

theorem Running.written {files : Files Config}
    (h : Running k r me files m) (newer : m.revision < d.revision) (w : Written k r me d u)
    (mirror : u.mirror = files.mirror) : Running k r me u m := by
  refine ⟨h.backed, h.hash, ?_, h.recorded, ⟨h.below.1, mirror ▸ h.below.2⟩,
    .inr ⟨d, w.envelope, h.below.1.trans (le_of_lt newer), le_of_lt newer⟩⟩
  rw [w.level]
  exact le_of_lt newer

theorem Written.running (h : Written k r me d u) :
    Running k r me u (.of k ⟨d.body, d.revision⟩ ⟨d.revision, k.hashConfig d.body⟩) := by
  have published : Published r me d.revision (k.hashConfig d.body) := h.genuine.hash ▸ h.genuine.published
  exact ⟨.inr published, rfl, le_of_eq h.level.symm, .inr published, ⟨le_refl _, h.ahead⟩,
    .inr ⟨d, h.envelope, le_refl _, le_refl _⟩⟩

/-- A crash of `applyControl` leaves files that load to what they held before, or to what was delivered. -/
structure Left (k : Configs Config) (r : Registry) (me : String) (files : Files Config)
    (m : Memory Config) (d : Desired Config) (u : Files Config) : Prop where
  sound : Sound k r me u
  covered : m.revision ≤ u.level
  either : findApplied k u = findApplied k files ∨ findApplied k u = .ok (⟨d.body, d.revision⟩, false)

theorem Written.left {files : Files Config} (book : Book r)
    (newer : m.revision < d.revision) (w : Written k r me d u) : Left k r me files m d u :=
  ⟨w.sound, w.level ▸ le_of_lt newer, .inr (w.find book)⟩

theorem applyControl_holds (book : Book r) (sound : Sound k r me files) (running : Running k r me files m)
    (published : Published r me d.revision d.hash) (o : Outcomes) : Holds (Left k r me files m d) (applyControl k m d o)
      (fun m' u => Left k r me files m d u ∧ Running k r me u m' ∧ m.revision ≤ m'.revision) files := by
  have start : Left k r me files m d files := ⟨sound, running.covered, .inl rfl⟩
  unfold applyControl
  split
  swap
  · exact .pure ⟨start, running, le_refl _⟩
  rename_i accepted
  obtain ⟨newer, same, valid⟩ := accepted
  have genuine : Genuine k r me d := ⟨same.symm, valid, published⟩
  have positive := Published.positive book published
  have body : d = ⟨d.revision, k.hashConfig d.body, d.body⟩ := by rw [same]
  have enveloped (legacy : Option Config) :
      Written k r me d ⟨some ⟨d.revision, k.hashConfig d.body, d.body⟩, legacy, files.mirror⟩ :=
    ⟨genuine, congrArg some body.symm, sound.mirror, running.below.2.trans (le_of_lt newer)⟩
  have mirrored (legacy : Option Config) :
      Written k r me d ⟨some ⟨d.revision, k.hashConfig d.body, d.body⟩, legacy,
        ⟨d.revision, k.hashConfig d.body⟩⟩ :=
    ⟨genuine, congrArg some body.symm, .inr (same ▸ published), le_refl _⟩
  have kept (legacy : Option Config) := running.written newer (enveloped legacy) rfl
  have left (legacy : Option Config) : Left k r me files m d _ := (enveloped legacy).left book newer
  have done (legacy : Option Config) : Left k r me files m d _ := (mirrored legacy).left book newer
  refine .bind ?_
  unfold saveAppliedConfig
  rw [if_neg (not_or.mpr ⟨not_not.mpr rfl, show ¬d.revision < 0 by omega⟩)]
  -- the envelope, then the plain body, then the mirror
  refine .bind (.replace start (left _) (.pure (.pure ⟨start, running, le_refl _⟩))
    (.pure (.pure ⟨left _, kept _, le_refl _⟩)) ?_)
  refine .replace (left _) (left _) (.pure ⟨left _, kept _, le_refl _⟩) (.pure ⟨left _, kept _, le_refl _⟩) ?_
  refine .bind (.replace (left _) (done _) (.pure ⟨left _, (enveloped _).running, le_of_lt newer⟩)
    (.pure ⟨done _, (mirrored _).running, le_of_lt newer⟩)
    (.pure ⟨done _, (mirrored _).running, le_of_lt newer⟩))

structure Loads (k : Configs Config) (r : Registry) (me : String) (x : Applied Config)
    (u : Files Config) : Prop where
  sound : Sound k r me u
  found : ∃ adopt, findApplied k u = .ok (x, adopt)
  level : u.level = x.revision

theorem Sound.loads (book : Book r) (h : Sound k r me files) : ∃ x, Backed k r me x ∧ Loads k r me x files := by
  obtain ⟨x, adopt, found, level, backed, -⟩ := h.find book
  exact ⟨x, backed, h, ⟨adopt, found⟩, level.symm⟩

theorem Loads.running (backed : Backed k r me x) (h : Loads k r me x u) : Running k r me u (.of k x u.mirror) := by
  have below : u.mirror.revision ≤ x.revision := h.level ▸ mirror_le_level u
  exact ⟨backed, rfl, le_of_eq h.level.symm, h.sound.mirror, ⟨below, below⟩, .inl rfl⟩

theorem Adoptable.loads (book : Book r) (sound : Sound k r me files) (revision : x.revision = files.mirror.revision)
    (h : Adoptable k r me files x.cfg) (legacy : Option Config) :
    Loads k r me x ⟨some ⟨x.revision, files.mirror.hash, x.cfg⟩, legacy, files.mirror⟩ := by
  have w : Written k r me ⟨x.revision, files.mirror.hash, x.cfg⟩
      ⟨some ⟨x.revision, files.mirror.hash, x.cfg⟩, legacy, files.mirror⟩ :=
    ⟨⟨h.hash.symm, h.valid, revision ▸ h.published⟩, rfl, sound.mirror, le_of_eq revision.symm⟩
  exact ⟨w.sound, ⟨false, w.find book⟩, w.level⟩

theorem openApplied_holds (book : Book r) (loads : Loads k r me x files) (o : Outcomes) :
    Holds (Loads k r me x) (openApplied k o) (fun result u => Loads k r me x u ∧
        (result = .ok (.of k x u.mirror) ∨ ∃ text, result = .error text)) files := by
  obtain ⟨_, adopt, found, -, -, adoptable⟩ := loads.sound.find book
  obtain ⟨_, found'⟩ := loads.found
  cases found.symm.trans found'
  refine .bind (.read (.bind (.read ?_)))
  rw [found]
  cases adopt with
  | false => exact .pure ⟨loads, .inl rfl⟩
  | true =>
    obtain ⟨revision, mirrored⟩ := adoptable rfl
    have loaded (legacy : Option Config) := mirrored.loads book loads.sound revision legacy
    have positive := Published.positive book mirrored.published
    refine .bind ?_
    unfold saveAppliedConfig
    rw [if_neg (not_or.mpr ⟨not_not.mpr mirrored.hash.symm, show ¬x.revision < 0 by omega⟩)]
    refine .bind (.replace loads (loaded _) (.pure (.pure ⟨loads, .inr ⟨_, rfl⟩⟩))
      (.pure (.pure ⟨loaded _, .inr ⟨_, rfl⟩⟩)) ?_)
    exact .replace (loaded _) (loaded _) (.pure ⟨loaded _, .inr ⟨_, rfl⟩⟩) (.pure ⟨loaded _, .inr ⟨_, rfl⟩⟩)
      (.pure ⟨loaded _, .inl rfl⟩)

theorem openApplied_done (book : Book r) (loads : Loads k r me x files) :
    (openApplied k .done files).result = .ok (.of k x files.mirror) := by
  obtain ⟨_, adopt, found, -, -, adoptable⟩ := loads.sound.find book
  obtain ⟨_, found'⟩ := loads.found
  cases found.symm.trans found'
  simp only [openApplied, Proc.read_bind, found]
  cases adopt with
  | false => rfl
  | true =>
    obtain ⟨revision, mirrored⟩ := adoptable rfl
    have positive := Published.positive book mirrored.published
    simp only [saveAppliedConfig]
    rw [if_neg (not_or.mpr ⟨not_not.mpr mirrored.hash.symm, show ¬x.revision < 0 by omega⟩)]
    rfl

/-! The system. -/

def respond (k : Configs Config) (r : Registry) (me : String) : Option (Desired Config) :=
  match r.store.agent me, r.details.find? fun d => d.agentId == me with
  | some a, some d => (k.parse d.desiredConfig).map fun body => ⟨a.desiredRevision, d.desiredHash, body⟩
  | _, _ => none

structure System (Config : Type) where
  registry : Registry
  drafts : List Draft
  responses : List (Desired Config)
  files : Files Config
  memory : Option (Memory Config)

inductive Event (Config : Type)
  /-- The transaction of `EnrollAgent` and of an approval. -/
  | register (id displayName hostname os arch credentialHash : String)
  | draft (id : String) (edit : String → Except String Config)
  | bump (opId : String) (changes : List Nat)
  | baseline (n : Nat)
  | report (rep : AgentReport) (call : Ingestion.Call)
  | other (store : Store) (f : AgentRow → AgentRow)
  | respond
  | deliver (n : Nat) (o : Outcomes) (cut : Option Nat)
  | start (o : Outcomes) (cut : Option Nat)
  | stop
  | save (o : WriteOutcome)
  /-- A previous worker, which knows the plain body and the mirror only, applies an answer. -/
  | previous (n : Nat)

section steps

variable (k : Configs Config) (me : String)

def System.commit (s : System Config) (tx : Except StoreError Registry) : System Config :=
  match tx with
  | .ok registry => { s with registry }
  | .error _ => s

def System.deliver (s : System Config) (m : Memory Config) (d : Desired Config) (o : Outcomes)
    (cut : Option Nat) : System Config :=
  let p := applyControl k m d o
  { s with files := p.leaves s.files cut, memory := if cut.isNone then some (p s.files).result else none }

def System.start (s : System Config) (o : Outcomes) (cut : Option Nat) : System Config :=
  let p := openApplied k o
  { s with files := p.leaves s.files cut
           memory := if cut.isNone then (p s.files).result.toOption else none }

def System.previous (s : System Config) (d : Desired Config) : System Config :=
  if d.revision > s.files.mirror.revision ∧ k.hashConfig d.body = d.hash ∧ k.valid d.body then
    { s with files := { s.files with legacy := some d.body, mirror := ⟨d.revision, d.hash⟩ } }
  else s

def step (s : System Config) : Event Config → System Config
  | .register id displayName hostname os arch credentialHash =>
    s.commit (insertIdentity s.registry (defaultAgent k.toHashes id displayName hostname os arch) credentialHash)
  | .draft id edit =>
    match draft k s.registry id edit with
    | .ok d => { s with drafts := s.drafts ++ [d] }
    | .error _ => s
  | .bump opId changes => s.commit (bumpDesired s.registry opId (changes.filterMap (s.drafts[·]?)))
  | .baseline n =>
    match s.drafts[n]? with
    | some d => s.commit (ensureBaselineChecks s.registry d)
    | none => s
  | .report rep call => { s with registry := acceptLive s.registry rep call }
  | .other store f => { s with registry := otherWrites s.registry store f }
  | .respond => { s with responses := s.responses ++ (respond k s.registry me).toList }
  | .deliver n o cut =>
    match s.memory, s.responses[n]? with
    | some m, some d => s.deliver k m d o cut
    | _, _ => s
  | .start o cut => if s.memory.isSome then s else s.start k o cut
  | .stop => { s with memory := none }
  | .save o =>
    match s.memory with
    | some m => { s with files := { s.files with mirror := o.write s.files.mirror m.mirror } }
    | none => s
  | .previous n =>
    match s.memory, s.responses[n]? with
    | none, some d => s.previous k d
    | _, _ => s

end steps

def System.applied (s : System Config) : Int := s.memory.elim s.files.level fun m => m.revision

structure Agrees (k : Configs Config) (me : String) (s : System Config) : Prop where
  book : Book s.registry
  responses : ∀ d ∈ s.responses, Published s.registry me d.revision d.hash
  sound : Sound k s.registry me s.files
  running : ∀ m, s.memory = some m → Running k s.registry me s.files m

structure Forward (s s' : System Config) : Prop where
  grows : Grows s.registry s'.registry
  applied : s.applied ≤ s'.applied

theorem Forward.refl (s : System Config) : Forward s s := ⟨.refl _, le_refl _⟩

theorem Forward.trans {s s' s'' : System Config} (h : Forward s s') (h' : Forward s' s'') : Forward s s'' :=
  ⟨h.grows.trans h'.grows, h.applied.trans h'.applied⟩

section preservation

variable {s : System Config}

theorem Agrees.registry (h : Agrees k me s) (kept : Keeps s.registry r') :
    Agrees k me { s with registry := r' } ∧ Forward s { s with registry := r' } :=
  ⟨⟨kept.book, fun d hd => kept.grows.published (h.responses d hd), h.sound.grows kept.grows,
    fun m hm => (h.running m hm).grows kept.grows⟩, kept.grows, le_refl _⟩

theorem Agrees.commit {tx : Except StoreError Registry} (h : Agrees k me s)
    (kept : ∀ r', tx = .ok r' → Keeps s.registry r') : Agrees k me (s.commit tx) ∧ Forward s (s.commit tx) := by
  cases tx with
  | error e => exact ⟨h, .refl s⟩
  | ok r' => exact h.registry (kept r' rfl)

theorem Agrees.agent {memory : Option (Memory Config)} (h : Agrees k me s) (sound : Sound k s.registry me files)
    (running : ∀ m, memory = some m → Running k s.registry me files m ∧ s.applied ≤ m.revision)
    (stopped : memory = none → s.applied ≤ files.level) :
    Agrees k me { s with files, memory } ∧ Forward s { s with files, memory } := by
  refine ⟨⟨h.book, h.responses, sound, fun m hm => (running m hm).1⟩, .refl _, ?_⟩
  cases memory with
  | none => exact stopped rfl
  | some m => exact (running m rfl).2

theorem Agrees.applied_le (h : Agrees k me s) : s.applied ≤ s.files.level := by
  unfold System.applied
  cases memory : s.memory with
  | none => exact le_refl _
  | some m => exact (h.running m memory).covered

theorem respond_published (book : Book r) (h : respond k r me = some d) : Published r me d.revision d.hash := by
  unfold respond at h
  split at h
  · rename_i a e found detail
    obtain ⟨body, -, rfl⟩ := Option.map_eq_some_iff.mp h
    obtain ⟨ha, rfl⟩ := agent_eq_some.mp found
    obtain ⟨he, owner⟩ := Table.find?_key.mp detail
    obtain ⟨e', he', owner', mem⟩ := book.desired a ha
    rw [Table.eq_of_key r.details he he' (owner.trans owner'.symm)]
    exact ⟨_, mem⟩
  · cases h

theorem deliver_agrees (h : Agrees k me s)
    (memory : s.memory = some m) (hd : d ∈ s.responses) (o : Outcomes) (cut : Option Nat) :
    Agrees k me (s.deliver k m d o cut) ∧ Forward s (s.deliver k m d o cut) := by
  have running := h.running m memory
  have start : Left k s.registry me s.files m d s.files := ⟨h.sound, running.covered, .inl rfl⟩
  have holds := applyControl_holds h.book h.sound running (h.responses d hd) o
  have left := holds.leaves start (fun _ _ final => final.1) cut
  have applied : s.applied = m.revision := by rw [System.applied, memory]; rfl
  refine h.agent left.sound (fun m' same => ?_) fun _ => applied ▸ left.covered
  cases cut with
  | none =>
    cases same
    exact ⟨holds.2.2.1, applied ▸ holds.2.2.2⟩
  | some n => cases same

theorem start_agrees (h : Agrees k me s) (memory : s.memory = none) (o : Outcomes) (cut : Option Nat) :
    Agrees k me (s.start k o cut) ∧ Forward s (s.start k o cut) := by
  obtain ⟨x, backed, loads⟩ := h.sound.loads h.book
  have holds := openApplied_holds h.book loads o
  have left := holds.leaves loads (fun _ _ final => final.1) cut
  have applied : s.applied = x.revision := by rw [System.applied, memory]; exact loads.level
  refine h.agent left.sound (fun m same => ?_) fun _ => le_of_eq (applied.trans left.level.symm)
  cases cut with
  | none =>
    obtain ⟨final, success | ⟨text, failure⟩⟩ := holds.2
    · rw [success] at same
      cases same
      exact ⟨final.running backed, le_of_eq applied⟩
    · rw [failure] at same
      cases same
  | some n => cases same

theorem previous_agrees (h : Agrees k me s) (memory : s.memory = none) (hd : d ∈ s.responses)
    : Agrees k me (s.previous k d) ∧ Forward s (s.previous k d) := by
  unfold System.previous
  split
  swap
  · exact ⟨h, .refl s⟩
  rename_i accepted
  obtain ⟨newer, same, valid⟩ := accepted
  have published := h.responses d hd
  have adoptable : Adoptable k s.registry me
      { s.files with legacy := some d.body, mirror := ⟨d.revision, d.hash⟩ } d.body :=
    ⟨rfl, valid, same, published⟩
  refine h.agent ⟨h.sound.envelope, .inr published, .inr (.inl ⟨_, adoptable⟩)⟩ (fun m hm => ?_) fun _ => ?_
  · rw [memory] at hm
    cases hm
  · exact h.applied_le.trans (level_mono s.files _ (le_of_lt newer))

theorem save_agrees (h : Agrees k me s) (memory : s.memory = some m) (o : WriteOutcome) :
    Agrees k me { s with files := { s.files with mirror := o.write s.files.mirror m.mirror } } ∧
      Forward s { s with files := { s.files with mirror := o.write s.files.mirror m.mirror } } := by
  have running := h.running m memory
  rcases o.write_cases s.files.mirror m.mirror with same | same
  · rw [same]
    exact ⟨h, .refl s⟩
  rcases running.saved with unchanged | ⟨d, written, below, covered⟩
  · rw [same, unchanged]
    exact ⟨h, .refl s⟩
  rw [same]
  have w : Written k s.registry me d { s.files with mirror := m.mirror } :=
    ⟨h.sound.envelope d written, written, running.recorded, below⟩
  refine h.agent w.sound (fun m' hm => ?_) fun stopped => ?_
  · rw [memory] at hm
    cases hm
    refine ⟨⟨running.backed, running.hash, ?_, running.recorded, ⟨running.below.1, running.below.1⟩,
      .inl rfl⟩, ?_⟩
    · rw [w.level]
      exact covered
    · rw [System.applied, memory]
      exact le_refl _
  · rw [memory] at stopped
    cases stopped

theorem step_agrees (h : Agrees k me s) (e : Event Config) :
    Agrees k me (step k me s e) ∧ Forward s (step k me s e) := by
  cases e with
  | register id displayName hostname os arch credentialHash =>
    exact h.commit fun r' => insertIdentity_keeps (show (0 : Int) < 1 by decide) h.book
  | draft id edit =>
    simp only [step]
    split
    · exact ⟨⟨h.book, h.responses, h.sound, h.running⟩, .refl _, le_refl _⟩
    · exact ⟨h, .refl s⟩
  | bump opId changes => exact h.commit fun r' ok => (bumpDesired_keeps h.book ok).1
  | baseline n =>
    simp only [step]
    split
    · exact h.commit fun r' ok => (ensureBaselineChecks_keeps h.book ok).1
    · exact ⟨h, .refl s⟩
  | report rep call => exact h.registry (acceptLive_keeps rep call h.book)
  | other store f => exact h.registry (otherWrites_keeps store f h.book)
  | respond =>
    refine ⟨⟨h.book, fun d hd => ?_, h.sound, h.running⟩, .refl _, le_refl _⟩
    rcases List.mem_append.mp hd with old | new
    · exact h.responses d old
    · exact respond_published h.book (Option.mem_toList.mp new)
  | deliver n o cut =>
    simp only [step]
    split
    · rename_i m d memory found
      exact deliver_agrees h memory (List.mem_of_getElem? found) o cut
    · exact ⟨h, .refl s⟩
  | start o cut =>
    simp only [step]
    split
    · exact ⟨h, .refl s⟩
    · rename_i stopped
      exact start_agrees h (by simpa using stopped) o cut
  | stop => exact h.agent h.sound nofun fun _ => h.applied_le
  | save o =>
    simp only [step]
    split
    · rename_i m memory
      exact save_agrees h memory o
    · exact ⟨h, .refl s⟩
  | previous n =>
    simp only [step]
    split
    · rename_i d memory found
      exact previous_agrees h memory (List.mem_of_getElem? found)
    · exact ⟨h, .refl s⟩

theorem run_agrees (h : Agrees k me s) (events : List (Event Config)) :
    Agrees k me (run (step k me) s events) ∧ Forward s (run (step k me) s events) := by
  induction events generalizing s with
  | nil => exact ⟨h, .refl s⟩
  | cons e events ih =>
    obtain ⟨next, moved⟩ := step_agrees h e
    obtain ⟨last, later⟩ := ih next
    exact ⟨last, moved.trans later⟩

end preservation

def System.initial : System Config := ⟨.empty, [], [], .enrolled, none⟩

theorem initial_agrees (k : Configs Config) (me : String) : Agrees k me System.initial := by
  have book : Book .empty :=
    ⟨List.forall_mem_nil _, List.forall_mem_nil _, List.forall_mem_nil _, List.forall_mem_nil _⟩
  exact ⟨book, List.forall_mem_nil _, ⟨nofun, .inl rfl, .inr (.inr ⟨rfl, rfl, rfl⟩)⟩, nofun⟩

def Opens (k : Configs Config) (files : Files Config) (x : Applied Config) : Prop :=
  (openApplied k .done files).result = .ok (.of k x files.mirror)

theorem Opens.of_find {adopt : Bool} (book : Book r)
    (sound : Sound k r me files) (found : findApplied k files = .ok (x, adopt)) : Opens k files x := by
  obtain ⟨x', -, loads⟩ := sound.loads book
  obtain ⟨_, found'⟩ := loads.found
  cases found.symm.trans found'
  exact openApplied_done book loads

theorem Loads.opens (book : Book r) (h : Loads k r me x files) : Opens k files x :=
  openApplied_done book h

theorem Opens.unique {y : Applied Config} (h : Opens k files x) (h' : Opens k files y) : x = y := by
  have same := Except.ok.inj (h.symm.trans h')
  exact congrArg Memory.toApplied same

theorem applyControl_crash {s : System Config}
    (h : Agrees k me s) (memory : s.memory = some m) (hd : d ∈ s.responses) (o : Outcomes) (n : Nat) :
    ∃ x, Opens k s.files x ∧ (Opens k ((applyControl k m d o).stopAt s.files n) x ∨
      Opens k ((applyControl k m d o).stopAt s.files n) ⟨d.body, d.revision⟩) := by
  have running := h.running m memory
  obtain ⟨x, -, loads⟩ := h.sound.loads h.book
  have start : Left k s.registry me s.files m d s.files := ⟨h.sound, running.covered, .inl rfl⟩
  have left := (applyControl_holds h.book h.sound running (h.responses d hd) o).stopAt start
    (fun _ _ final => final.1) n
  refine ⟨x, loads.opens h.book, ?_⟩
  rcases left.either with old | new
  · obtain ⟨adopt, found⟩ := loads.found
    exact .inl (.of_find h.book left.sound (old.trans found))
  · exact .inr (.of_find h.book left.sound new)

theorem openApplied_crash {s : System Config} (h : Agrees k me s) (o : Outcomes) (n : Nat) :
    ∃ x, Opens k s.files x ∧ Opens k ((openApplied k o).stopAt s.files n) x := by
  obtain ⟨x, -, loads⟩ := h.sound.loads h.book
  have left := (openApplied_holds h.book loads o).stopAt loads (fun _ _ final => final.1) n
  exact ⟨x, loads.opens h.book, left.opens h.book⟩

/-! Without failed writes of a delivered configuration, the files of a running process hold what it
runs with. -/

def Event.Succeeds : Event Config → Prop
  | .deliver _ o _ => o = .done
  | _ => True

def Exact (k : Configs Config) (s : System Config) : Prop :=
  ∀ m, s.memory = some m → Opens k s.files m.toApplied

theorem applyControl_done (files : Files Config) (m : Memory Config)
    (book : Book r) (published : Published r me d.revision d.hash) : Holds (fun _ => True) (applyControl k m d .done)
      (fun m' u => m' = m ∧ u = files ∨ Written k r me d u ∧ m'.toApplied = ⟨d.body, d.revision⟩) files := by
  unfold applyControl
  split
  swap
  · exact .pure (.inl ⟨rfl, rfl⟩)
  rename_i accepted
  obtain ⟨-, same, valid⟩ := accepted
  have positive := Published.positive book published
  refine .bind ?_
  unfold saveAppliedConfig
  rw [if_neg (not_or.mpr ⟨not_not.mpr rfl, show ¬d.revision < 0 by omega⟩)]
  refine .bind (.replace_done trivial (.replace_done trivial (.bind (.replace_done trivial (.pure (.inr ⟨?_, rfl⟩))))))
  refine ⟨⟨same.symm, valid, published⟩, ?_, .inr (same ▸ published), le_refl _⟩
  simp only [same]

theorem deliver_exact {s : System Config} (h : Agrees k me s)
    (held : Exact k s) (memory : s.memory = some m) (hd : d ∈ s.responses) (cut : Option Nat) :
    Exact k (s.deliver k m d .done cut) := by
  intro m' running
  cases cut with
  | some n => cases running
  | none =>
    cases running
    rcases (applyControl_done s.files m h.book (h.responses d hd)).2 with ⟨same, files⟩ | ⟨w, new⟩
    · change Opens k (applyControl k m d .done s.files).state _
      rw [same, files]
      exact held m memory
    · rw [new]
      exact .of_find h.book w.sound (w.find h.book)

theorem start_exact {s : System Config} (h : Agrees k me s) (o : Outcomes) (cut : Option Nat) :
    Exact k (s.start k o cut) := by
  intro m running
  cases cut with
  | some n => cases running
  | none =>
    obtain ⟨x, -, loads⟩ := h.sound.loads h.book
    obtain ⟨final, success | ⟨text, failure⟩⟩ := (openApplied_holds h.book loads o).2
    · change (openApplied k o s.files).result.toOption = some m at running
      rw [success] at running
      cases running
      exact final.opens h.book
    · change (openApplied k o s.files).result.toOption = some m at running
      rw [failure] at running
      cases running

theorem save_exact {s : System Config} (h : Agrees k me s) (held : Exact k s)
    (memory : s.memory = some m) (o : WriteOutcome) :
    Exact k { s with files := { s.files with mirror := o.write s.files.mirror m.mirror } } := by
  have running := h.running m memory
  intro m' same
  cases memory.symm.trans same
  have before := held m memory
  rcases o.write_cases s.files.mirror m.mirror with kept | written
  · rw [kept]
    exact before
  rcases running.saved with unchanged | ⟨d, envelope, below, covered⟩
  · rw [written, unchanged]
    exact before
  have w : Written k s.registry me d { s.files with mirror := m.mirror } :=
    ⟨h.sound.envelope d envelope, envelope, running.recorded, below⟩
  have old : Opens k s.files ⟨d.body, d.revision⟩ :=
    .of_find h.book h.sound (find_envelope h.book envelope (h.sound.envelope d envelope) h.sound.mirror
      (running.below.2.trans covered))
  rw [written, before.unique old]
  exact .of_find h.book w.sound (w.find h.book)

theorem step_exact {s : System Config} (h : Agrees k me s) (held : Exact k s) {e : Event Config}
    (succeeds : e.Succeeds) : Exact k (step k me s e) := by
  cases e with
  | register | bump =>
    simp only [step, System.commit]
    split <;> exact held
  | draft =>
    simp only [step]
    split <;> exact held
  | baseline n =>
    simp only [step, System.commit]
    split
    · split <;> exact held
    · exact held
  | report | other | respond => exact held
  | deliver n o cut =>
    cases succeeds
    simp only [step]
    split
    · rename_i m d memory found
      exact deliver_exact h held memory (List.mem_of_getElem? found) cut
    · exact held
  | start o cut =>
    simp only [step]
    split
    · exact held
    · exact start_exact h o cut
  | stop => exact nofun
  | save o =>
    simp only [step]
    split
    · rename_i m memory
      exact save_exact h held memory o
    · exact held
  | previous n =>
    simp only [step]
    split
    · rename_i d memory found
      intro m running
      unfold System.previous at running
      split at running
      · cases memory.symm.trans running
      · cases memory.symm.trans running
    · exact held

theorem run_exact (events : List (Event Config)) (succeed : ∀ e ∈ events, e.Succeeds) :
    Exact k (run (step k me) System.initial events) := by
  induction events using List.reverseRecOn with
  | nil => exact nofun
  | append_singleton events e ih =>
    rw [run_append, run_cons, run_nil]
    exact step_exact (run_agrees (initial_agrees k me) events).1
      (ih fun e' he' => succeed e' (List.mem_append_left _ he')) (succeed e (by simp))

/-- Revisions keep their rows and never fall; the applied one is published and at most the desired one. The
agent runs with what was published, and `Open` succeeds after a crash with the saved or the delivered
configuration. -/
theorem revisions_agree_end_to_end (k : Configs Config) (me : String) (before after : List (Event Config)) :
    let s := run (step k me) System.initial before
    let u := run (step k me) s after
    (∀ v ∈ s.registry.revisions, v ∈ u.registry.revisions ∧
      ∀ w ∈ u.registry.revisions, w.key = v.key → w = v) ∧
    (∀ d r', ensureBaselineChecks s.registry d = .ok r' → Raises s.registry r' d.agentId) ∧
    (∀ opId changes r', bumpDesired s.registry opId changes = .ok r' →
      ∀ d ∈ changes, Raises s.registry r' d.agentId) ∧
    (∀ a ∈ s.registry.store.agents,
      (∃ a' ∈ u.registry.store.agents, a'.id = a.id ∧ a.appliedRevision ≤ a'.appliedRevision ∧
        a.desiredRevision ≤ a'.desiredRevision) ∧
      a.appliedRevision ≤ a.desiredRevision ∧
      (a.appliedRevision = 0 ∧ a.appliedHash = "" ∨
        Published s.registry a.id a.appliedRevision a.appliedHash)) ∧
    s.applied ≤ u.applied ∧
    (∀ m, s.memory = some m → m.hash = k.hashConfig m.cfg ∧
      (m.revision = 0 ∧ m.cfg = k.initial ∨ Published s.registry me m.revision (k.hashConfig m.cfg)) ∧
      ((∀ e ∈ before, e.Succeeds) → Opens k s.files m.toApplied) ∧
      ∀ d ∈ s.responses, ∀ o n, ∃ x, Opens k s.files x ∧
        (Opens k ((applyControl k m d o).stopAt s.files n) x ∨
          Opens k ((applyControl k m d o).stopAt s.files n) ⟨d.body, d.revision⟩)) ∧
    ∀ o n, ∃ x, Opens k s.files x ∧ Opens k ((openApplied k o).stopAt s.files n) x := by
  intro s u
  obtain ⟨agrees, -⟩ := run_agrees (initial_agrees k me) before
  obtain ⟨-, forward⟩ := run_agrees agrees after
  refine ⟨fun v hv => ⟨forward.grows.revisions v hv, fun w hw same => ?_⟩,
    fun d r' ok => (ensureBaselineChecks_keeps agrees.book ok).2,
    fun opId changes r' ok => (bumpDesired_keeps agrees.book ok).2,
    fun a ha => ⟨forward.grows.agents a ha, agrees.book.applied_le ha, agrees.book.applied a ha⟩,
    forward.applied, fun m memory => ?_, openApplied_crash agrees⟩
  · exact Table.eq_of_key u.registry.revisions hw (forward.grows.revisions v hv) same
  · exact ⟨(agrees.running m memory).hash, (agrees.running m memory).backed,
      fun succeed => run_exact before succeed m memory,
      fun d hd o n => applyControl_crash agrees memory hd o n⟩

def sampleConfigs : Configs String where
  hashToken t := t
  sha256 t := "sha256:" ++ t
  defaultConfig name := name
  json c := c
  parse t := some t
  valid _ := true
  initial := "default"

theorem enrolled_agent_has_no_revision :
    let s := run (step sampleConfigs "a1") System.initial
      [.register "a1" "host" "host" "linux" "amd64" "verifier", .start .done none]
    (∃ a, s.registry.store.agent "a1" = some a ∧ a.appliedRevision = 0 ∧
      ¬Published s.registry "a1" a.appliedRevision a.appliedHash) ∧
    ∃ m, s.memory = some m ∧ ¬Published s.registry "a1" m.revision (sampleConfigs.hashConfig m.cfg) := by
  intro s
  have book : Book s.registry := (run_agrees (initial_agrees sampleConfigs "a1") _).1.book
  have unacknowledged : (s.registry.store.agent "a1").map AgentRow.appliedRevision = some 0 := by decide +kernel
  have unset : s.memory.map (fun m => m.revision) = some 0 := by decide +kernel
  obtain ⟨a, agent, none⟩ := Option.map_eq_some_iff.mp unacknowledged
  obtain ⟨m, memory, zero⟩ := Option.map_eq_some_iff.mp unset
  refine ⟨⟨a, agent, none, fun published => ?_⟩, m, memory, fun published => ?_⟩
  · exact absurd (none ▸ Published.positive book published) (by decide)
  · exact absurd (zero ▸ Published.positive book published) (by decide)

end Monik.AppliedConfig
