import Mathlib.Data.List.Infix
import Monik.ReleaseMetadata
import Monik.Runs

/-! Imports, commits and downloads in any order, with crashes. The commit of an import comes at any
later moment or never; a download can be cut between its two writes. -/

namespace Monik.ReleaseRollback
open Protocol Tables Persistence ControllerStore CrashPoints Runs ReleaseMetadata

/-! The agent. -/

structure AgentFiles where
  root : Option String
  versions : VersionsFile
  incoming : Option String

/-- A call of `downloadVerifiedRelease`, with what the network, the clock and the file system
answer to it. -/
structure Download where
  name : String
  expectSha : String
  releaseDigest : String
  tempDir : Except String Unit
  metadata : Role → Except String String
  stage : Role → Except String Unit
  now : Time
  trustDir : Except String Unit
  saveVersions : WriteOutcome
  artifact : Except String String
  updatesDir : Except String Unit
  saveArtifact : WriteOutcome
  cause : String

def expectedName (goos goarch : String) : String :=
  goos ++ "-" ++ goarch ++ "/monik-agent" ++ if goos = "windows" then ".exe" else ""

def trustedRoot (files : AgentFiles) : Except String String :=
  match files.root with
  | none | some "" =>
    .error "enrolled TUF root is unavailable; repair enrollment, never trust an update-supplied root"
  | some root => .ok root

variable {files : AgentFiles}

theorem trustedRoot_ok {root : String} (h : trustedRoot files = .ok root) : files.root = some root := by
  unfold trustedRoot at h
  split at h
  · cases h
  · cases h
  · cases h
    assumption

def fetchMetadata (d : Download) : Except String Directory :=
  [Role.timestamp, .snapshot, .targets].foldlM (fun tmp role => do
    let raw ← (d.metadata role).mapError ("tuf " ++ role.file ++ ": " ++ ·)
    d.stage role
    return tmp.put role.file raw) .empty

section download

variable (t : Tuf) (goos goarch : String)

def authenticate (d : Download) (files : AgentFiles) : Except String HighWater := do
  require (d.releaseDigest = "" ∨ validReleaseId d.releaseDigest) "invalid pinned release digest"
  require (d.name = expectedName goos goarch) "artifact must match this worker platform and component"
  let root ← trustedRoot files
  d.tempDir
  let tmp ← fetchMetadata d
  let prior ← readHighWater files.versions
  let hw ← (verifyRepo t root tmp prior d.now).mapError ("tuf metadata: " ++ ·)
  d.trustDir.mapError ("persist authenticated metadata versions: " ++ ·)
  return hw

def validTargetPath (name : String) : Bool :=
  !name.isEmpty && !name.toList.contains '\\' && name.toList.head? != some '/' &&
    !decide (['.', '.'] <:+: name.toList)

def verifyTarget (repo : Directory) (name raw : String) : Except String Unit := do
  require (validTargetPath name) "invalid target path"
  let tg ← loadMeta t repo .targets
  match tg.targets.lookup name with
  | none => .error "artifact is not in authenticated targets metadata"
  | some info => t.verifyLengthHashes info.hashes raw

def fetchArtifact (d : Download) : Except String String := do
  let tmp ← fetchMetadata d
  let raw ← d.artifact
  (verifyTarget t tmp d.name raw).mapError ("signed target: " ++ ·)
  require (t.sha256 raw = d.expectSha) "artifact sha256 mismatch"
  d.updatesDir
  return raw

def downloadVerifiedRelease (d : Download) : Proc AgentFiles (Except String Unit) := do
  match ← Proc.read (authenticate t goos goarch d) with
  | .error text => return .error text
  | .ok hw =>
    if ← Proc.replace d.saveVersions fun f => { f with versions := .holds hw } then
      match fetchArtifact t d with
      | .error text => return .error text
      | .ok raw =>
        if ← Proc.replace d.saveArtifact fun f => { f with incoming := some raw } then
          return .ok ()
        else return .error d.cause
    else return .error ("persist authenticated metadata versions: " ++ d.cause)

end download

/-- The download has authenticated metadata of versions `v`, against the root and the versions that
the agent holds. -/
structure Authentic (t : Tuf) (d : Download) (files : AgentFiles) (v : HighWater) : Prop where
  stated : ∃ root tmp, files.root = some root ∧ fetchMetadata d = .ok tmp ∧
    statedVersions t root tmp = .ok v
  fresh : ∃ prior, readHighWater files.versions = .ok prior ∧ prior ≤ v
  positive : .ones ≤ v

variable {t : Tuf} {goos goarch : String} {d : Download}

theorem authenticate_ok {v : HighWater} (h : authenticate t goos goarch d files = .ok v) : Authentic t d files v := by
  obtain ⟨_, -, h⟩ := bind_ok.mp h
  obtain ⟨_, -, h⟩ := bind_ok.mp h
  obtain ⟨root, enrolled, h⟩ := bind_ok.mp h
  obtain ⟨_, -, h⟩ := bind_ok.mp h
  obtain ⟨tmp, fetched, h⟩ := bind_ok.mp h
  obtain ⟨prior, known, h⟩ := bind_ok.mp h
  obtain ⟨hw, verified, h⟩ := bind_ok.mp h
  obtain ⟨_, -, h⟩ := bind_ok.mp h
  cases h
  obtain ⟨stated, fresh, positive⟩ := verifyRepo_ok (mapError_ok verified)
  exact ⟨⟨root, tmp, trustedRoot_ok enrolled, fetched, stated⟩, ⟨prior, known, fresh⟩, positive⟩

inductive Leaves (t : Tuf) (d : Download) (files : AgentFiles) : AgentFiles → Prop
  | unchanged : Leaves t d files files
  | authenticated (v : HighWater) (authentic : Authentic t d files v) :
      Leaves t d files { files with versions := .holds v }
  | downloaded (v : HighWater) (raw : String) (authentic : Authentic t d files v) :
      Leaves t d files { files with versions := .holds v, incoming := some raw }

theorem download_leaves (d : Download) (files : AgentFiles) (cut : Option Nat) :
    Leaves t d files ((downloadVerifiedRelease t goos goarch d).leaves files cut) := by
  refine Holds.kept ?_ .unchanged cut
  refine .bind (.read ?_)
  split
  · exact .pure .unchanged
  · rename_i hw verified
    have authentic := authenticate_ok verified
    refine .bind (.replace .unchanged (.authenticated hw authentic) (.pure .unchanged)
      (.pure (.authenticated hw authentic)) ?_)
    rw [if_pos rfl]
    split
    · exact .pure (.authenticated hw authentic)
    · rename_i raw _
      exact .bind (.replace (.authenticated hw authentic) (.downloaded hw raw authentic)
        (.pure (.authenticated hw authentic)) (.pure (.downloaded hw raw authentic))
        (.pure (.downloaded hw raw authentic)))

/-! The controller. -/

/-- A publication before its commit, with the revision of its trust and its directory. -/
structure Pending where
  publication : Publication
  expected : Int
  opId : String
  bundle : Directory

structure Controller where
  db : Database
  legacy : LegacyFiles
  pending : List Pending

def Controller.trust (c : Controller) : Except String ReleaseTrust := releaseTrust c.legacy c.db

/-- An `update.import` operation, with the answers it meets. -/
structure Import where
  path : String
  enroll : Bool
  opId : String
  bundle : Except String Directory
  now : Time
  filed : Except String Unit

section controller

variable (t : Tuf)

def prepareImport (c : Controller) (i : Import) : Except String Pending := do
  require (i.path ≠ "") "bundle_path required"
  let state ← c.trust
  let bundle ← i.bundle
  let p ← preparePublication t (.ok bundle) state.root i.enroll i.now state.versions i.filed
  return ⟨p, state.revision, i.opId, bundle⟩

def commitImport (c : Controller) (p : Pending) (now : Time) : Except StoreError Database :=
  commitPublication t c.db p.publication p.expected p.opId now

def Controller.commit (c : Controller) (n : Nat) (now : Time) : Controller :=
  match c.pending[n]? with
  | none => c
  | some p =>
    let left := c.pending.eraseIdx n
    match commitImport t c p now with
    | .ok db => { c with db, pending := left }
    | .error _ => { c with pending := left }

def Controller.prepare (c : Controller) (i : Import) : Controller :=
  match prepareImport t c i with
  | .ok p => { c with pending := c.pending ++ [p] }
  | .error _ => c

end controller

structure System where
  controller : Controller
  agent : AgentFiles

inductive Event
  | prepare (i : Import)
  | commit (n : Nat) (now : Time)
  | restart
  | other (store : Store)
  | download (d : Download) (cut : Option Nat)
  | enroll (root : Option String)

def step (t : Tuf) (goos goarch : String) (m : System) : Event → System
  | .prepare i => { m with controller := m.controller.prepare t i }
  | .commit n now => { m with controller := m.controller.commit t n now }
  | .restart => { m with controller := { m.controller with pending := [] } }
  | .other store =>
    let kept := { store with publications := m.controller.db.store.publications }
    { m with controller := { m.controller with db := { m.controller.db with store := kept } } }
  | .download d cut =>
    { m with agent := (downloadVerifiedRelease t goos goarch d).leaves m.agent cut }
  | .enroll root => { m with agent := { m.agent with root } }

/-- Of a revision that is not current any more, or of versions not below the stored ones. -/
structure Prepared (t : Tuf) (c : Controller) (p : Pending) : Prop where
  known : p.expected ≤ c.db.revision
  stated : statedVersions t p.publication.trustedRoot p.bundle = .ok p.publication.highWater
  positive : .ones ≤ p.publication.highWater
  root : p.publication.trustedRoot ≠ ""
  fresh : p.expected = c.db.revision → ∃ trust, c.trust = .ok trust ∧
    trust.versions ≤ p.publication.highWater ∧ (trust.root ≠ "" → p.publication.trustedRoot = trust.root)

variable {c : Controller} {p : Pending}

theorem prepareImport_ok {i : Import} (h : prepareImport t c i = .ok p) : Prepared t c p := by
  obtain ⟨_, -, h⟩ := bind_ok.mp h
  obtain ⟨state, read, h⟩ := bind_ok.mp h
  obtain ⟨bundle, -, h⟩ := bind_ok.mp h
  obtain ⟨publication, prepared, h⟩ := bind_ok.mp h
  cases h
  obtain ⟨dir, same, stated, fresh, positive, root, kept⟩ := preparePublication_ok prepared
  cases same
  exact ⟨le_of_eq (releaseTrust_revision read), stated, positive, root, fun _ => ⟨state, read, fresh, kept⟩⟩

def Raised (x y : Except String HighWater) : Prop :=
  y = x ∨ ∃ h k, x = .ok h ∧ y = .ok k ∧ h ≤ k

theorem Raised.refl (x : Except String HighWater) : Raised x x := .inl rfl

theorem Raised.trans {x y z : Except String HighWater} (first : Raised x y) (second : Raised y z) : Raised x z := by
  rcases first with rfl | ⟨h, k, hx, hy, below⟩
  · exact second
  rcases second with rfl | ⟨k', l, hy', hz, above⟩
  · exact .inr ⟨h, k, hx, hy, below⟩
  · cases hy.symm.trans hy'
    exact .inr ⟨h, l, hx, hz, below.trans above⟩

def Controller.storedVersions (c : Controller) : Except String HighWater :=
  c.trust.map ReleaseTrust.versions

def AgentFiles.storedVersions (files : AgentFiles) : Except String HighWater :=
  readHighWater files.versions

variable {left : AgentFiles}

theorem Leaves.raised (h : Leaves t d files left) : Raised files.storedVersions left.storedVersions := by
  cases h with
  | unchanged => exact .refl _
  | authenticated v authentic | downloaded v _ authentic =>
    obtain ⟨prior, known, fresh⟩ := authentic.fresh
    exact .inr ⟨prior, v, known, readHighWater_holds authentic.positive, fresh⟩

structure Advances (c c' : Controller) : Prop where
  raised : Raised c.storedVersions c'.storedVersions
  trust : c'.trust = c.trust ∧ c'.db.revision = c.db.revision ∨ c.db.revision < c'.db.revision

variable {c' : Controller}

theorem Prepared.advance (h : Prepared t c p) (moved : Advances c c') : Prepared t c' p := by
  refine ⟨?_, h.stated, h.positive, h.root, fun current => ?_⟩
  · rcases moved.trust with ⟨-, same⟩ | later
    · exact same ▸ h.known
    · exact h.known.trans (le_of_lt later)
  · rcases moved.trust with ⟨trust, same⟩ | later
    · rw [trust]
      exact h.fresh (current.trans same)
    · exact absurd h.known (not_le.mpr (current ▸ later))

variable {now : Time}

theorem Prepared.committed {db : Database} (h : Prepared t c p) (done : commitImport t c p now = .ok db) :
    ∃ stored, c.storedVersions = .ok stored ∧ stored ≤ p.publication.highWater := by
  obtain ⟨trust, read, fresh, -⟩ := h.fresh (commitPublication_ok done).1.symm
  refine ⟨trust.versions, ?_, fresh⟩
  rw [Controller.storedVersions, read]
  rfl

theorem Prepared.advances (h : Prepared t c p) (done : commitImport t c p now = .ok c'.db) : Advances c c' := by
  obtain ⟨current, trust⟩ := commitPublication_ok done
  obtain ⟨stored, read, fresh⟩ := h.committed done
  have next : c'.trust = .ok ⟨c.db.revision + 1, p.publication.trustedRoot, p.publication.highWater⟩ := by
    rw [Controller.trust, releaseTrust, trust]
    exact committedTrust_ok h.root h.positive
  refine ⟨.inr ⟨stored, p.publication.highWater, read, ?_, fresh⟩, .inr ?_⟩
  · rw [Controller.storedVersions, next]
    rfl
  · rw [← releaseTrust_revision next]
    exact Int.lt_add_one_of_le (le_refl c.db.revision)

theorem advances_of_trust (trust : c'.trust = c.trust) (revision : c'.db.revision = c.db.revision) : Advances c c' := by
  refine ⟨.inl ?_, .inl ⟨trust, revision⟩⟩
  rw [Controller.storedVersions, trust]
  rfl

theorem commit_advances (prepared : ∀ p ∈ c.pending, Prepared t c p) (n : Nat) (now : Time)
    : Advances c (c.commit t n now) := by
  unfold Controller.commit
  split
  · exact advances_of_trust rfl rfl
  · rename_i p waiting
    split
    · rename_i db done
      exact (prepared p (List.mem_of_getElem? waiting)).advances done
    · exact advances_of_trust rfl rfl

theorem prepare_db (c : Controller) (i : Import) : (c.prepare t i).db = c.db := by
  unfold Controller.prepare
  split <;> rfl

theorem prepare_legacy (c : Controller) (i : Import) : (c.prepare t i).legacy = c.legacy := by
  unfold Controller.prepare
  split <;> rfl

theorem commit_pending {n : Nat} (h : p ∈ (c.commit t n now).pending) : p ∈ c.pending := by
  unfold Controller.commit at h
  split at h
  · exact h
  · split at h <;> exact List.mem_of_mem_eraseIdx h

def Waits (t : Tuf) (m : System) : Prop := ∀ p ∈ m.controller.pending, Prepared t m.controller p

variable {m : System}

theorem step_advances (waits : Waits t m) (e : Event) : Advances m.controller (step t goos goarch m e).controller := by
  cases e with
  | prepare i =>
    have same : (m.controller.prepare t i).trust = m.controller.trust := by
      rw [Controller.trust, prepare_db, prepare_legacy, Controller.trust]
    exact advances_of_trust same (congrArg Database.revision (prepare_db m.controller i))
  | commit n now => exact commit_advances waits n now
  | restart | other | download | enroll => exact advances_of_trust rfl rfl

theorem step_waits (waits : Waits t m) (e : Event) : Waits t (step t goos goarch m e) := by
  have moved : Advances m.controller (step t goos goarch m e).controller := step_advances waits e
  cases e with
  | prepare i =>
    intro p hp
    refine Prepared.advance ?_ moved
    change p ∈ (m.controller.prepare t i).pending at hp
    unfold Controller.prepare at hp
    split at hp
    · rename_i q ready
      rcases List.mem_append.mp hp with old | new
      · exact waits p old
      · rw [List.mem_singleton.mp new]
        exact prepareImport_ok ready
    · exact waits p hp
  | commit n now => exact fun p hp => (waits p (commit_pending hp)).advance moved
  | restart => exact fun p hp => absurd hp List.not_mem_nil
  | other | download | enroll => exact fun p hp => (waits p hp).advance moved

theorem step_raises (m : System) (e : Event) :
    Raised m.agent.storedVersions (step t goos goarch m e).agent.storedVersions := by
  cases e with
  | download d cut => exact (download_leaves d m.agent cut).raised
  | prepare | commit | restart | other | enroll => exact .refl _

def System.booted (m : System) : System := { m with controller := { m.controller with pending := [] } }

theorem run_waits (m : System) (events : List Event) : Waits t (run (step t goos goarch) m.booted events) :=
  run_preserves (Waits t) (fun _ e waits => step_waits waits e)
    (fun _ hp => absurd hp List.not_mem_nil) events

theorem run_raises (waits : Waits t m) (events : List Event) :
    Raised m.controller.storedVersions (run (step t goos goarch) m events).controller.storedVersions ∧
      Raised m.agent.storedVersions (run (step t goos goarch) m events).agent.storedVersions := by
  induction events generalizing m with
  | nil => exact ⟨.refl _, .refl _⟩
  | cons e events ih =>
    have waiting : Waits t (step t goos goarch m e) := step_waits waits e
    obtain ⟨controller, agent⟩ := ih waiting
    exact ⟨(step_advances waits e).raised.trans controller, (step_raises m e).trans agent⟩

theorem failed_commit {n : Nat} (failed : ∀ p db, c.pending[n]? = some p → commitImport t c p now ≠ .ok db) :
    (c.commit t n now).db = c.db := by
  unfold Controller.commit
  split
  · rfl
  · rename_i p waiting
    split
    · rename_i db done
      exact absurd done (failed p db waiting)
    · rfl

theorem stale_commit (now : Time) (stale : p.expected ≠ c.db.revision) :
    ∃ text, commitImport t c p now = .error text := by
  cases done : commitImport t c p now with
  | error text => exact ⟨text, rfl⟩
  | ok db => exact absurd (commitPublication_ok done).1.symm stale

theorem download_failed {text : String} (failed : authenticate t goos goarch d files = .error text) (cut : Option Nat) :
    (downloadVerifiedRelease t goos goarch d).leaves files cut = files := by
  have untouched : Holds (· = files) (downloadVerifiedRelease t goos goarch d) (fun _ => (· = files)) files := by
    refine .bind (.read ?_)
    rw [failed]
    exact .pure rfl
  exact untouched.kept rfl cut

theorem Leaves.authentic (h : Leaves t d files left) : left.root = files.root ∧
      (left.versions ≠ files.versions ∨ left.incoming ≠ files.incoming →
        ∃ v, Authentic t d files v ∧ left.versions = .holds v) := by
  cases h with
  | unchanged => exact ⟨rfl, fun changed => absurd rfl (changed.elim id fun other => absurd rfl other)⟩
  | authenticated v authentic | downloaded v _ authentic => exact ⟨rfl, fun _ => ⟨v, authentic, rfl⟩⟩

/-- Stored versions only rise; a commit has no version below them and none against another revision
succeeds; a download changes only what authenticated metadata raise. -/
theorem release_versions_never_fall (t : Tuf) (goos goarch : String) (m : System)
    (before after : List Event) :
    let now := run (step t goos goarch) m.booted before
    let later := run (step t goos goarch) now after
    Raised now.controller.storedVersions later.controller.storedVersions ∧
    Raised now.agent.storedVersions later.agent.storedVersions ∧
    (∀ p ∈ now.controller.pending, ∀ clock,
      (∀ db, commitImport t now.controller p clock = .ok db →
        ∃ stored v, now.controller.storedVersions = .ok stored ∧
          statedVersions t p.publication.trustedRoot p.bundle = .ok v ∧ stored ≤ v) ∧
      (p.expected ≠ now.controller.db.revision →
        ∃ text, commitImport t now.controller p clock = .error text)) ∧
    (∀ i, (now.controller.prepare t i).db = now.controller.db) ∧
    (∀ n clock, (∀ p db, now.controller.pending[n]? = some p →
        commitImport t now.controller p clock ≠ .ok db) →
      (now.controller.commit t n clock).db = now.controller.db) ∧
    ∀ d cut, let left := (downloadVerifiedRelease t goos goarch d).leaves now.agent cut
      left.root = now.agent.root ∧
      (∀ text, authenticate t goos goarch d now.agent = .error text → left = now.agent) ∧
      (left.versions ≠ now.agent.versions ∨ left.incoming ≠ now.agent.incoming →
        ∃ v, Authentic t d now.agent v ∧ left.versions = .holds v) := by
  intro now later
  have waits : Waits t now := run_waits m before
  obtain ⟨controller, agent⟩ : Raised now.controller.storedVersions later.controller.storedVersions ∧
      Raised now.agent.storedVersions later.agent.storedVersions := run_raises waits after
  refine ⟨controller, agent, fun p hp clock => ⟨fun db done => ?_, stale_commit clock⟩, ?_, ?_, ?_⟩
  · obtain ⟨stored, read, fresh⟩ := (waits p hp).committed done
    exact ⟨stored, _, read, (waits p hp).stated, fresh⟩
  · exact prepare_db now.controller
  · exact fun n clock => failed_commit
  · intro d cut left
    obtain ⟨root, authentic⟩ := (download_leaves d now.agent cut : Leaves t d now.agent left).authentic
    exact ⟨root, fun text failed => download_failed failed cut, authentic⟩

def sampleTuf : Tuf where
  parseRoot
    | "root 1" => .ok ⟨1, 100, ["key"], by decide⟩
    | "root 2" => .ok ⟨2, 100, ["key"], by decide⟩
    | _ => .error "invalid TUF root"
  parse _ _ := .ok ⟨1, 100, [("snapshot.json", ⟨1, ""⟩), ("targets.json", ⟨1, ""⟩)],
    [("linux-amd64/monik-agent", ⟨3, ""⟩)], by decide⟩
  verifyDelegate _ _ _ := .ok ()
  verifyLengthHashes _ _ := .ok ()
  sha256 _ := "digest"
  publicationDigest _ := String.ofList (List.replicate 64 '0')
  jsonValid _ := true
  manifest _ := ⟨"", ""⟩
  rfc3339 _ := ""
  rootNonempty := nofun

def sampleBundle : Directory :=
  ((((Map.put .empty "root.json" "root 1").put "timestamp.json" "1").put "snapshot.json" "1").put
    "targets.json" "1").put "targets/linux-amd64/monik-agent" "new"

def sampleImport : Import where
  path := "bundle.tar"
  enroll := false
  opId := ""
  bundle := .ok sampleBundle
  now := 10
  filed := .ok ()

def sampleController : Controller where
  db := { store := .empty, trust := some ⟨1, "root 2", ⟨2, 1, 1, 1⟩, by decide⟩, releases := .empty,
          artifacts := .empty, objects := .empty }
  legacy := ⟨none, .missing⟩
  pending := []

def sampleDownload : Download where
  name := "linux-amd64/monik-agent"
  expectSha := "digest"
  releaseDigest := ""
  tempDir := .ok ()
  metadata _ := .ok "1"
  stage _ := .ok ()
  now := 10
  trustDir := .ok ()
  saveVersions := .done
  artifact := .error "status 503"
  updatesDir := .ok ()
  saveArtifact := .done
  cause := ""

/-- A bundle with an older root is committed, compared by its keys only; a download that fails at the
artifact has raised the stored versions. -/
theorem older_root_committed_and_failed_download_recorded :
    (∃ p db root, prepareImport sampleTuf sampleController sampleImport = .ok p ∧
      commitImport sampleTuf sampleController p 10 = .ok db ∧
      readFile p.bundle "root.json" = .ok root ∧
      (sampleTuf.parseRoot root).map Root.version = .ok 1 ∧
      sampleController.storedVersions = .ok ⟨2, 1, 1, 1⟩) ∧
    (downloadVerifiedRelease sampleTuf "linux" "amd64" sampleDownload
      ⟨some "root 1", .missing, none⟩).result = .error "status 503" ∧
    (downloadVerifiedRelease sampleTuf "linux" "amd64" sampleDownload
      ⟨some "root 1", .missing, none⟩).state.versions = .holds ⟨1, 1, 1, 1⟩ := by
  exact ⟨⟨_, _, _, rfl, rfl, rfl, rfl, rfl⟩, rfl, rfl⟩

end Monik.ReleaseRollback
