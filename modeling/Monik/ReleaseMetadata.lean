import Monik.CrashPoints
import Monik.Operations
import Mathlib.Data.List.Sort
import Mathlib.Order.Basic
import Mathlib.Algebra.Group.Int.Defs

/-! Signed release metadata and the versions seen of it. The controller verifies and files a bundle
and commits it under a comparison of the trust's revision; an agent saves the versions before it
asks for the artifact. Signatures, hashes and decoding are answers of `Tuf`; a version is at least
1. -/

namespace Monik.ReleaseMetadata
open Protocol Tables Persistence ControllerStore Operations CrashPoints

variable {u : Unit} {known : Int} {now : Time} {trusted : String} {enroll : Bool}

structure HighWater where
  root : Int
  timestamp : Int
  snapshot : Int
  targets : Int
  deriving DecidableEq

instance : LE HighWater where
  le h k := h.root ≤ k.root ∧ h.timestamp ≤ k.timestamp ∧ h.snapshot ≤ k.snapshot ∧ h.targets ≤ k.targets

theorem highWater_le {h k : HighWater} : h ≤ k ↔ h.root ≤ k.root ∧ h.timestamp ≤ k.timestamp ∧ h.snapshot ≤ k.snapshot ∧
      h.targets ≤ k.targets :=
  Iff.rfl

instance : PartialOrder HighWater where
  le_refl _ := ⟨le_refl _, le_refl _, le_refl _, le_refl _⟩
  le_trans _ _ _ h k := ⟨h.1.trans k.1, h.2.1.trans k.2.1, h.2.2.1.trans k.2.2.1, h.2.2.2.trans k.2.2.2⟩
  le_antisymm a b h k := by
    cases a
    cases b
    simp only [highWater_le] at h k
    simp only [HighWater.mk.injEq]
    omega

def HighWater.none : HighWater := ⟨0, 0, 0, 0⟩

def HighWater.ones : HighWater := ⟨1, 1, 1, 1⟩

inductive Role
  | root | timestamp | snapshot | targets

def Role.name : Role → String
  | .root => "root"
  | .timestamp => "timestamp"
  | .snapshot => "snapshot"
  | .targets => "targets"

def Role.file : Role → String
  | .root => "root.json"
  | .timestamp => "timestamp.json"
  | .snapshot => "snapshot.json"
  | .targets => "targets.json"

structure MetaFile where
  version : Int
  hashes : String

structure TargetFile where
  length : Int
  hashes : String

structure Metadata where
  version : Int
  expires : Time
  links : List (String × MetaFile)
  targets : List (String × TargetFile)
  positive : 1 ≤ version

structure Root where
  version : Int
  expires : Time
  keys : List String
  positive : 1 ≤ version

structure Manifest where
  version : String
  notes : String

structure PublicationFile where
  name : String
  sha256 : String
  length : Nat

structure Tuf where
  parseRoot : String → Except String Root
  parse : Role → String → Except String Metadata
  verifyDelegate : Root → Role → String → Except String Unit
  verifyLengthHashes : String → String → Except String Unit
  sha256 : String → String
  publicationDigest : List PublicationFile → String
  jsonValid : String → Bool
  manifest : String → Manifest
  rfc3339 : Time → String
  rootNonempty : ∀ root, parseRoot "" ≠ .ok root

abbrev Directory := Map String String

def require (c : Prop) [Decidable c] (text : String) : Except String Unit :=
  if c then .ok () else .error text

theorem require_ok {c : Prop} [Decidable c] {text : String} (h : require c text = .ok u) : c := by
  unfold require at h
  split at h
  · assumption
  · cases h

def readFile (dir : Directory) (name : String) : Except String String :=
  match dir.get name with
  | none => .error ("open " ++ name ++ ": no such file or directory")
  | some raw => .ok raw

section verification

variable (t : Tuf)

def loadMeta (dir : Directory) (role : Role) : Except String Metadata := do
  let raw ← readFile dir role.file
  t.parse role raw

def verifyExpiry (expires now : Time) (role : Role) : Except String Unit :=
  require (now < expires) (role.name ++ " metadata expired at " ++ t.rfc3339 expires)

def rejectReplay (role : Role) (got known : Int) : Except String Unit :=
  require (¬(known > 0 ∧ got < known))
    (role.name ++ " metadata version " ++ toString got ++ " is older than enrolled high-water " ++
      toString known)

def verifyMetaLink (link : Option MetaFile) (actualVersion : Int) (dir : Directory) (path : String) :
    Except String Unit :=
  match link with
  | none => .error "referenced metadata version mismatch"
  | some link => do
    require (¬(link.version < 1 ∨ link.version ≠ actualVersion)) "referenced metadata version mismatch"
    let raw ← readFile dir path
    t.verifyLengthHashes link.hashes raw

def verifyRole (root : Root) (dir : Directory) (role : Role) (known : Int) (now : Time) :
    Except String Metadata := do
  let file ← (loadMeta t dir role).mapError (role.name ++ ": " ++ ·)
  let raw ← readFile dir role.file
  (t.verifyDelegate root role raw).mapError (role.name ++ " signature: " ++ ·)
  verifyExpiry t file.expires now role
  rejectReplay role file.version known
  return file

def verifyRepo (trustedRoot : String) (repo : Directory) (hw : HighWater) (now : Time) :
    Except String HighWater := do
  let root ← t.parseRoot trustedRoot
  verifyExpiry t root.expires now .root
  rejectReplay .root root.version hw.root
  let ts ← verifyRole t root repo .timestamp hw.timestamp now
  let sn ← verifyRole t root repo .snapshot hw.snapshot now
  let tg ← verifyRole t root repo .targets hw.targets now
  (verifyMetaLink t (ts.links.lookup "snapshot.json") sn.version repo "snapshot.json").mapError
    ("timestamp/snapshot link: " ++ ·)
  (verifyMetaLink t (sn.links.lookup "targets.json") tg.version repo "targets.json").mapError
    ("snapshot/targets link: " ++ ·)
  return { root := if hw.root > root.version then hw.root else root.version,
           timestamp := ts.version, snapshot := sn.version, targets := tg.version }

def statedVersions (trustedRoot : String) (repo : Directory) : Except String HighWater := do
  let root ← t.parseRoot trustedRoot
  let ts ← loadMeta t repo .timestamp
  let sn ← loadMeta t repo .snapshot
  let tg ← loadMeta t repo .targets
  return ⟨root.version, ts.version, sn.version, tg.version⟩

end verification

theorem mapError_ok {ε ε' α : Type*} {x : Except ε α} {f : ε → ε'} {a : α} (h : x.mapError f = .ok a) : x = .ok a := by
  cases x with
  | error e => cases h
  | ok b => cases h; rfl

theorem rejectReplay_ok {role : Role} {got : Int} (positive : 1 ≤ got) (h : rejectReplay role got known = .ok u) :
    known ≤ got := by
  have fresh := require_ok h
  omega

variable {t : Tuf}

theorem verifyRole_ok {root : Root} {dir : Directory} {role : Role}
    {file : Metadata} (h : verifyRole t root dir role known now = .ok file) :
    loadMeta t dir role = .ok file ∧ known ≤ file.version := by
  obtain ⟨file', loaded, h⟩ := bind_ok.mp h
  obtain ⟨_, -, h⟩ := bind_ok.mp h
  obtain ⟨_, -, h⟩ := bind_ok.mp h
  obtain ⟨_, -, h⟩ := bind_ok.mp h
  obtain ⟨_, fresh, h⟩ := bind_ok.mp h
  cases h
  exact ⟨mapError_ok loaded, rejectReplay_ok file.positive fresh⟩

theorem verifyRepo_ok {repo : Directory} {hw out : HighWater} (h : verifyRepo t trusted repo hw now = .ok out) :
    statedVersions t trusted repo = .ok out ∧ hw ≤ out ∧ .ones ≤ out := by
  obtain ⟨root, parsed, h⟩ := bind_ok.mp h
  obtain ⟨_, -, h⟩ := bind_ok.mp h
  obtain ⟨_, fresh, h⟩ := bind_ok.mp h
  obtain ⟨ts, timestamp, h⟩ := bind_ok.mp h
  obtain ⟨sn, snapshot, h⟩ := bind_ok.mp h
  obtain ⟨tg, targets, h⟩ := bind_ok.mp h
  obtain ⟨_, -, h⟩ := bind_ok.mp h
  obtain ⟨_, -, h⟩ := bind_ok.mp h
  cases h
  have known := rejectReplay_ok root.positive fresh
  obtain ⟨tsLoaded, tsKnown⟩ := verifyRole_ok timestamp
  obtain ⟨snLoaded, snKnown⟩ := verifyRole_ok snapshot
  obtain ⟨tgLoaded, tgKnown⟩ := verifyRole_ok targets
  rw [if_neg (not_lt.mpr known)]
  refine ⟨?_, ⟨known, tsKnown, snKnown, tgKnown⟩,
    ⟨root.positive, ts.positive, sn.positive, tg.positive⟩⟩
  simp only [statedVersions, parsed, tsLoaded, snLoaded, tgLoaded]
  rfl

/-! The import of a bundle. -/

def validReleaseId (id : String) : Bool :=
  id.toList.length == 64 && id.toList.all fun c => c.isDigit || ('a' ≤ c && c ≤ 'f')

def validTargetName (name : String) : Bool :=
  !name.isEmpty && name.utf8ByteSize ≤ 256 &&
    (name.toList.splitOn '/').all (fun part => part ∉ [[], ['.'], ['.', '.']]) &&
    name.toList.all fun c => c.isAlphanum || c ∈ ['/', '-', '.', '_']

structure Artifact where
  name : String
  sha256 : String
  length : Nat

structure Publication where
  (id digest version notes metadata : String)
  artifacts : List Artifact
  trustedRoot : String
  highWater : HighWater
  files : List PublicationFile
  expiresAt : Time

section preparation

variable (t : Tuf)

def rootKeyFingerprint (root : Root) : List String := root.keys.insertionSort (· ≤ ·)

def adoptRoot (incoming trusted : String) (enroll : Bool) : Except String String :=
  if trusted = "" then do
    require enroll "no enrolled TUF root; explicitly enroll a first owner-trusted bundle"
    let root ← t.parseRoot incoming
    (t.verifyDelegate root .root incoming).mapError ("root self-signature: " ++ ·)
    return incoming
  else do
    let root ← t.parseRoot trusted
    let candidate ← t.parseRoot incoming
    require (rootKeyFingerprint root = rootKeyFingerprint candidate)
      "root rotation requires a separately verified rotation flow"
    return trusted

def repositoryExpiry (root : String) (dir : Directory) : Except String Time := do
  let root ← t.parseRoot root
  let ts ← loadMeta t dir .timestamp
  let sn ← loadMeta t dir .snapshot
  let tg ← loadMeta t dir .targets
  return [ts.expires, sn.expires, tg.expires].foldl (fun expiry d => if d < expiry then d else expiry)
    root.expires

def collectArtifact (dir : Directory) (entry : String × TargetFile) : Except String Artifact := do
  let raw ← readFile dir ("targets/" ++ entry.1)
  (t.verifyLengthHashes entry.2.hashes raw).mapError (entry.1 ++ ": " ++ ·)
  return ⟨entry.1, t.sha256 raw, raw.utf8ByteSize⟩

def collectArtifacts (dir : Directory) : Except String (List Artifact) := do
  let tg ← loadMeta t dir .targets
  require (tg.targets.all fun (name, info) =>
      validTargetName name && 0 ≤ info.length && info.length ≤ 200 * 2 ^ 20)
    "invalid signed target entry"
  (tg.targets.insertionSort fun a b => a.1 ≤ b.1).mapM (collectArtifact t dir)

def publicationFile (dir : Directory) (name : String) : Except String PublicationFile := do
  let raw ← readFile dir name
  return ⟨name, t.sha256 raw, raw.utf8ByteSize⟩

/-- `filed` is the outcome of writing the content-addressed directory. -/
def preparePublication (bundle : Except String Directory) (trustedRoot : String) (enroll : Bool)
    (now : Time) (prior : HighWater) (filed : Except String Unit) : Except String Publication := do
  let tmp ← bundle
  let incoming ← readFile tmp "root.json"
  let trusted ← adoptRoot t incoming trustedRoot enroll
  let hw ← verifyRepo t trusted tmp prior now
  let expiry ← repositoryExpiry t trusted tmp
  let arts ← collectArtifacts t tmp
  require (¬(arts.length = 0 ∨ arts.length > 128)) "release must contain 1..128 signed targets"
  let found := tmp.get "manifest.json"
  let manifest := (found.map t.manifest).getD ⟨"", ""⟩
  let metadata := match found.getD "" with
    | "" => "\x7b\x7d"
    | raw => raw
  require (t.jsonValid metadata) "invalid release manifest JSON"
  let names := ["root.json", "timestamp.json", "snapshot.json", "targets.json"] ++
    (found.map fun _ => "manifest.json").toList ++ arts.map ("targets/" ++ ·.name)
  let files ← (names.insertionSort (· ≤ ·)).mapM (publicationFile t tmp)
  filed
  let id := t.publicationDigest files
  return { id, digest := id, version := if manifest.version = "" then "unknown" else manifest.version,
           notes := manifest.notes, metadata, artifacts := arts, trustedRoot := trusted,
           highWater := hw, files, expiresAt := expiry }

end preparation

theorem adoptRoot_ok {incoming root : String} (h : adoptRoot t incoming trusted enroll = .ok root) :
    root ≠ "" ∧ (trusted ≠ "" → root = trusted) := by
  unfold adoptRoot at h
  split at h
  · obtain ⟨_, -, h⟩ := bind_ok.mp h
    obtain ⟨parsed, read, h⟩ := bind_ok.mp h
    obtain ⟨_, -, h⟩ := bind_ok.mp h
    cases h
    refine ⟨fun empty => ?_, fun enrolled => absurd ‹trusted = ""› enrolled⟩
    rw [empty] at read
    exact t.rootNonempty parsed read
  · obtain ⟨_, -, h⟩ := bind_ok.mp h
    obtain ⟨_, -, h⟩ := bind_ok.mp h
    obtain ⟨_, -, h⟩ := bind_ok.mp h
    cases h
    exact ⟨‹_›, fun _ => rfl⟩

theorem preparePublication_ok {bundle : Except String Directory} {prior : HighWater} {filed : Except String Unit} {p : Publication}
    (h : preparePublication t bundle trusted enroll now prior filed = .ok p) :
    ∃ dir, bundle = .ok dir ∧ statedVersions t p.trustedRoot dir = .ok p.highWater ∧
      prior ≤ p.highWater ∧ .ones ≤ p.highWater ∧ p.trustedRoot ≠ "" ∧
      (trusted ≠ "" → p.trustedRoot = trusted) := by
  obtain ⟨dir, extracted, h⟩ := bind_ok.mp h
  obtain ⟨incoming, -, h⟩ := bind_ok.mp h
  obtain ⟨root, adopted, h⟩ := bind_ok.mp h
  obtain ⟨hw, verified, h⟩ := bind_ok.mp h
  obtain ⟨_, -, h⟩ := bind_ok.mp h
  obtain ⟨_, -, h⟩ := bind_ok.mp h
  obtain ⟨_, -, h⟩ := bind_ok.mp h
  obtain ⟨_, -, h⟩ := bind_ok.mp h
  obtain ⟨_, -, h⟩ := bind_ok.mp h
  obtain ⟨_, -, h⟩ := bind_ok.mp h
  cases h
  obtain ⟨stated, fresh, positive⟩ := verifyRepo_ok verified
  obtain ⟨nonempty, kept⟩ := adoptRoot_ok adopted
  exact ⟨dir, extracted, stated, fresh, positive, nonempty, kept⟩

/-! Where the trust is kept. -/

inductive VersionsFile
  | missing
  | corrupt (text : String)
  | holds (versions : HighWater)
  deriving DecidableEq

/-- A corrupt file is refused, never taken for a missing one. -/
def readHighWater : VersionsFile → Except String HighWater
  | .missing => .ok .none
  | .corrupt text => .error text
  | .holds h => do
    require (0 ≤ h.root) "invalid TUF version field: root"
    require (0 ≤ h.timestamp) "invalid TUF version field: timestamp"
    require (0 ≤ h.snapshot) "invalid TUF version field: snapshot"
    require (0 ≤ h.targets) "invalid TUF version field: targets"
    return h

theorem readHighWater_holds {h : HighWater} (positive : .ones ≤ h) : readHighWater (.holds h) = .ok h := by
  obtain ⟨root, timestamp, snapshot, targets⟩ := highWater_le.mp positive
  have nonneg {v : Int} (one : (1 : Int) ≤ v) : 0 ≤ v := by omega
  simp only [readHighWater, require, if_pos (nonneg root), if_pos (nonneg timestamp),
    if_pos (nonneg snapshot), if_pos (nonneg targets)]
  rfl

structure TrustRow where
  revision : Int
  root : String
  versions : HighWater
  positive : 0 < revision

structure ReleaseRow where
  (id version digest notes metadata : String)
  importedAt : Time
  trustOk : Bool

structure ArtifactRow where
  releaseId : String
  artifact : Artifact

def ArtifactRow.key (a : ArtifactRow) : String × String := (a.releaseId, a.artifact.name)

structure ObjectRow where
  releaseId : String
  objectDigest : String
  fileInventory : List PublicationFile

structure Database where
  store : Store
  trust : Option TrustRow
  releases : Table ReleaseRow ReleaseRow.id
  artifacts : Table ArtifactRow ArtifactRow.key
  objects : Table ObjectRow ObjectRow.releaseId

def Database.revision (db : Database) : Int := db.trust.elim 0 TrustRow.revision

theorem revision_nonneg (db : Database) : 0 ≤ db.revision := by
  unfold Database.revision
  cases db.trust with
  | none => exact le_refl 0
  | some row => exact le_of_lt row.positive

structure ReleaseTrust where
  revision : Int
  root : String
  versions : HighWater

def committedTrust (row : TrustRow) : Except String ReleaseTrust := do
  require (row.root ≠ "") "corrupt committed update trust"
  require (¬(row.versions.root < 1 ∨ row.versions.targets < 1 ∨ row.versions.snapshot < 1 ∨
    row.versions.timestamp < 1)) "invalid committed update versions"
  return ⟨row.revision, row.root, row.versions⟩

theorem committedTrust_ok {row : TrustRow} (root : row.root ≠ "") (positive : .ones ≤ row.versions) :
    committedTrust row = .ok ⟨row.revision, row.root, row.versions⟩ := by
  obtain ⟨one, two, three, four⟩ := highWater_le.mp positive
  have versions : ¬(row.versions.root < 1 ∨ row.versions.targets < 1 ∨ row.versions.snapshot < 1 ∨
      row.versions.timestamp < 1) := by
    simp only [HighWater.ones] at one two three four
    omega
  simp only [committedTrust, require, if_pos root, if_pos versions]
  rfl

theorem committedTrust_revision {row : TrustRow} {v : ReleaseTrust} (h : committedTrust row = .ok v) :
    v.revision = row.revision := by
  obtain ⟨_, -, h⟩ := bind_ok.mp h
  obtain ⟨_, -, h⟩ := bind_ok.mp h
  cases h
  rfl

structure LegacyFiles where
  root : Option String
  versions : VersionsFile

def releaseTrust (legacy : LegacyFiles) (db : Database) : Except String ReleaseTrust :=
  match db.trust, legacy.root with
  | some row, _ => committedTrust row
  | none, none => do
    require (legacy.versions = .missing) "update root is missing while legacy version state exists"
    require (db.releases.count ReleaseRow.trustOk = 0)
      "update root is missing while trusted catalogue entries exist"
    return ⟨0, "", .none⟩
  | none, some root => do
    require (root ≠ "") "enrolled TUF root is empty"
    let hw ← readHighWater legacy.versions
    return ⟨0, root, hw⟩

theorem releaseTrust_revision {legacy : LegacyFiles} {db : Database} {v : ReleaseTrust}
    (h : releaseTrust legacy db = .ok v) : v.revision = db.revision := by
  unfold releaseTrust at h
  unfold Database.revision
  split at h
  · rename_i row stored
    rw [stored]
    exact committedTrust_revision h
  · rename_i stored _
    obtain ⟨_, -, h⟩ := bind_ok.mp h
    obtain ⟨_, -, h⟩ := bind_ok.mp h
    cases h
    rw [stored]
    rfl
  · rename_i stored _
    obtain ⟨_, -, h⟩ := bind_ok.mp h
    obtain ⟨_, -, h⟩ := bind_ok.mp h
    cases h
    rw [stored]
    rfl

def insertRelease (db : Database) (p : Publication) (now : Time) : Except StoreError Database :=
  if db.releases.count (fun r => r.digest == p.digest) > 0 then
    .error (.refused "UNIQUE constraint failed: releases.digest")
  else do
    let row : ReleaseRow := ⟨p.id, p.version, p.digest, p.notes, p.metadata, now, true⟩
    let some releases := db.releases.insert row
      | .error (.refused "UNIQUE constraint failed: releases.id")
    let artifacts ← p.artifacts.foldlM (fun rows a => match rows.insert ⟨p.id, a⟩ with
      | none => .error (.refused "UNIQUE constraint failed: release_artifacts")
      | some rows => .ok rows) db.artifacts
    let some objects := db.objects.insert ⟨p.id, p.digest, p.files⟩
      | .error (.refused "UNIQUE constraint failed: release_publications.release_id")
    let some publications := db.store.publications.insert ⟨p.id, p.expiresAt⟩
      | .error (.refused "UNIQUE constraint failed: release_publications.release_id")
    return { db with store := { db.store with publications }, releases, artifacts, objects }

def recordRelease (db : Database) (p : Publication) (now : Time) : Except StoreError (Database × Bool) :=
  match db.objects.find? fun o => o.releaseId == p.id with
  | some existing => if existing.objectDigest ≠ p.digest then .error .conflict else .ok (db, true)
  | none => (insertRelease db p now).map fun db => (db, false)

def nextTrust (db : Database) (p : Publication) : TrustRow where
  revision := db.revision + 1
  root := p.trustedRoot
  versions := p.highWater
  positive := by have := revision_nonneg db; omega

def commitPublication (t : Tuf) (db : Database) (p : Publication) (expected : Int) (opId : String)
    (now : Time) : Except StoreError Database :=
  if p.id ≠ p.digest ∨ validReleaseId p.id = false ∨ t.jsonValid p.metadata = false then
    .error (.refused "invalid publication")
  else if db.revision ≠ expected then .error .conflict
  else do
    let (db', duplicate) ← recordRelease db p now
    let committed := { db' with trust := some (nextTrust db p) }
    if opId = "" then return committed
    let store ← updateTargetAndRefresh committed.store opId "server"
      { status := .succeeded, stage := "verified_catalog_commit",
        message := "immutable release verified and published", errorCode := "", retryable := false,
        evidence := [("release_id", .str p.id), ("digest", .str p.digest), ("version", .str p.version),
          ("immutable", .bool true), ("already_imported", .bool duplicate)] }
    return { committed with store }

theorem commitPublication_ok {db db' : Database} {p : Publication} {expected : Int} {opId : String} (h : commitPublication t db p expected opId now = .ok db') :
    db.revision = expected ∧ db'.trust = some (nextTrust db p) := by
  unfold commitPublication at h
  split at h
  · cases h
  split at h
  · cases h
  rename_i current
  obtain ⟨⟨recorded, duplicate⟩, -, h⟩ := bind_ok.mp h
  refine ⟨not_not.mp current, ?_⟩
  dsimp only at h
  split at h
  · cases h
    rfl
  · obtain ⟨store, -, h⟩ := bind_ok.mp h
    cases h
    rfl

end Monik.ReleaseMetadata
