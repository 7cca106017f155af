import Monik.JsonText
import Monik.ReleaseMetadata

/-! Package `installerbundle`: executables, a manifest and a footer in one file. SHA-256, the ELF
check, the checks of a profile and encoding/json are functions of the `Kit`; writers do not fail. -/

namespace Monik.InstallerBundle
open Tables JsonText
open ReleaseMetadata (require)

abbrev Bytes := List UInt8

/-- What ranging over a Go string yields: a character, or a byte outside of any. -/
inductive Rune
  | char (c : Char)
  | bad (b : UInt8)
  deriving DecidableEq

abbrev Text := List Rune

def text (s : String) : Text := s.toList.map .char

def Rune.size : Rune → Nat
  | .char c => c.utf8Size
  | .bad _ => 1

def len (t : Text) : Nat := (t.map Rune.size).sum

/-- JSON carries U+FFFD in place of a bad byte. -/
def Rune.decoded : Rune → Rune
  | .bad _ => .char '�'
  | r => r

def carried (t : Text) : Text := t.map Rune.decoded

/-- Nanoseconds of an instant, and the seconds its zone is ahead. -/
structure Stamp where
  instant : Int
  offset : Int
  deriving DecidableEq

/-- RFC 3339 has the clock of the zone, and the zone in minutes. -/
def Stamp.decoded (t : Stamp) : Stamp :=
  let offset := t.offset.tdiv 60 * 60
  ⟨t.instant + (t.offset - offset) * 1000000000, offset⟩

structure Part where
  size : Int
  sha256 : Text
  deriving DecidableEq

structure Profile where
  enableAgentConsole : Bool
  controllerUrl : Text
  controllerId : Text
  caCertPem : Text
  enrollmentCode : Text
  expiresAt : Stamp
  deriving DecidableEq

structure Manifest where
  format : Int
  (os arch build agentFlavor runtimeMode : Text)
  minimumControllerFeatures : List Text
  installer : Part
  worker : Part
  supervisor : Part
  profile : Option Profile
  deriving DecidableEq

def Part.decoded (p : Part) : Part := { p with sha256 := carried p.sha256 }

def Profile.decoded (p : Profile) : Profile :=
  ⟨p.enableAgentConsole, carried p.controllerUrl, carried p.controllerId,
    carried p.caCertPem, carried p.enrollmentCode, p.expiresAt.decoded⟩

def Manifest.decoded (m : Manifest) : Manifest :=
  ⟨m.format, carried m.os, carried m.arch, carried m.build,
    carried m.agentFlavor, carried m.runtimeMode,
    m.minimumControllerFeatures.map carried, m.installer.decoded, m.worker.decoded,
    m.supervisor.decoded, m.profile.map Profile.decoded⟩

def Manifest.bind (m : Manifest) (profile : Option Profile) : Manifest := { m with profile }

def maxExecutable : Nat := 67108864

def maxManifest : Nat := 65536

def footerSize : Nat := 56

def maxFile : Nat := 3 * maxExecutable + maxManifest + footerSize

def Manifest.small (m : Manifest) : Prop :=
  m.profile = none ∧ m.minimumControllerFeatures.length ≤ 1 ∧
    ∀ t ∈ [m.os, m.arch, m.build, m.agentFlavor, m.runtimeMode, m.installer.sha256, m.worker.sha256,
      m.supervisor.sha256] ++ m.minimumControllerFeatures, len t ≤ 128

structure Kit where
  marshal : Manifest → Except String Bytes
  /-- `jsonutil.Validate` and the strict decoder. -/
  read : Bytes → Except String Manifest
  sum256 : Bytes → Bytes
  elf : Bytes → Text → Except String Unit
  validate : Profile → Except String Unit
  read_marshal : ∀ {m raw}, marshal m = .ok raw → read raw = .ok m.decoded
  marshal_length : ∀ {m raw}, marshal m = .ok raw → 0 < raw.length ∧ raw.length < 9223372036854775808
  marshal_small : ∀ {m raw}, marshal m = .ok raw → m.small → raw.length ≤ maxManifest
  read_decoded : ∀ {raw m}, read raw = .ok m → m.decoded = m
  sum256_length : ∀ b, (sum256 b).length = 32

structure Bundle where
  reader : Bytes
  manifest : Manifest
  payloadSize : Nat
  deriving DecidableEq

def encodeToString (b : Bytes) : Text :=
  b.flatMap fun x => [.char (hexDigit (x.toNat / 16)), .char (hexDigit (x.toNat % 16))]

def magic : Bytes := "MONIK-INSTALL-V1".toList.map fun c => UInt8.ofNat c.toNat

def putUint64 (n : Nat) : Bytes :=
  [72057594037927936, 281474976710656, 1099511627776, 4294967296, 16777216, 65536, 256, 1].map fun d =>
    UInt8.ofNat (n / d)

def uint64 (b : Bytes) : Nat := b.foldl (fun n x => n * 256 + x.toNat) 0

section

variable (k : Kit)

def footer (raw : Bytes) : Bytes := magic ++ putUint64 raw.length ++ k.sum256 raw

def verifyPart (data : Bytes) (p : Part) (arch : Text) : Except String Unit := do
  require (encodeToString (k.sum256 data) = p.sha256) "installer executable checksum mismatch"
  k.elf data arch

def verifyParts (arch : Text) : List Part → Bytes → Except String Bytes
  | [], rest => return rest
  | p :: ps, rest => do
    require (64 ≤ p.size ∧ p.size ≤ maxExecutable ∧ len p.sha256 = 64 ∧ p.size ≤ rest.length)
      "invalid executable bounds"
    verifyPart k (rest.take p.size.toNat) p arch
    verifyParts arch ps (rest.drop p.size.toNat)

def Manifest.parts (m : Manifest) : List Part :=
  [m.installer, m.worker] ++ if m.format = 1 then [m.supervisor] else []

def Manifest.validateVariant (m : Manifest) : Except String Unit :=
  if m.format = 1 then
    require (m.agentFlavor = [] ∧ m.runtimeMode = [] ∧ m.minimumControllerFeatures = [])
      "legacy installer cannot assert a new agent variant"
  else if m.format = 2 then
    require (m.agentFlavor = text "spark-light" ∧ m.runtimeMode = text "direct" ∧ m.arch = text "arm64" ∧
      m.supervisor = ⟨0, []⟩ ∧ m.minimumControllerFeatures = [text "spark_telemetry_v1"])
      "invalid Spark-light installer variant"
  else .error "unsupported installer format"

def validateProfile : Option Profile → Except String Unit
  | none => return ()
  | some p => k.validate p

def check (m : Manifest) (payload : Bytes) : Except String Unit := do
  require (m.os = text "linux" ∧ (m.arch = text "amd64" ∨ m.arch = text "arm64") ∧ 1 ≤ len m.build ∧
    len m.build ≤ 128) "unsupported installer format or platform"
  m.validateVariant
  let rest ← verifyParts k m.arch m.parts payload
  require (rest = []) "unexpected bytes outside installer parts"
  validateProfile k m.profile

def openBundle (file : Bytes) : Except String Bundle := do
  require (footerSize ≤ file.length ∧ file.length ≤ maxFile) "installer file has invalid size"
  let tail := file.drop (file.length - footerSize)
  require (tail.take 16 = magic) "this is an unprepared installer; download a prepared file from Add machine"
  let n := uint64 ((tail.drop 16).take 8)
  require (n ≠ 0 ∧ n ≤ maxManifest ∧ n ≤ file.length - footerSize) "invalid installer manifest length"
  let payload := file.length - footerSize - n
  let raw := (file.drop payload).take n
  require (k.sum256 raw = tail.drop 24) "installer manifest checksum mismatch"
  let m ← k.read raw
  check k m (file.take payload)
  return ⟨file, m, payload⟩

def Bundle.write (b : Bundle) (profile : Option Profile) : Except String (Bytes × Nat) := do
  validateProfile k profile
  let raw ← k.marshal (b.manifest.bind profile)
  require (raw.length ≤ maxManifest) "installer manifest too large"
  return (b.reader.take b.payloadSize ++ raw ++ footer k raw, b.payloadSize + raw.length + footerSize)

def Bundle.sizeWith (b : Bundle) (profile : Option Profile) : Nat :=
  b.payloadSize + ((k.marshal (b.manifest.bind profile)).toOption.map List.length).getD 0 + footerSize

def packPart (arch : Text) (data : Bytes) : Except String Part := do
  let p : Part := ⟨data.length, encodeToString (k.sum256 data)⟩
  require (p.size ≤ maxExecutable ∧ 64 ≤ p.size) "invalid executable size"
  verifyPart k data p arch
  return p

def packManifest (installer worker supervisor : Bytes) (m : Manifest) : Except String Bytes := do
  m.validateVariant
  let i ← packPart k m.arch installer
  let w ← packPart k m.arch worker
  let s ← (if m.format = 1 then packPart k m.arch supervisor else .ok m.supervisor)
  require ((m.arch = text "amd64" ∨ m.arch = text "arm64") ∧ m.build ≠ [] ∧ len m.build ≤ 128)
    "invalid template platform/build"
  let raw ← k.marshal { m with installer := i, worker := w, supervisor := s }
  return installer ++ worker ++ supervisor ++ raw ++ footer k raw

def pack (installer worker supervisor : Bytes) (arch build : Text) : Except String Bytes :=
  packManifest k installer worker supervisor
    ⟨1, text "linux", arch, build, [], [], [], ⟨0, []⟩, ⟨0, []⟩, ⟨0, []⟩, none⟩

def packSpark (installer worker : Bytes) (arch build : Text) : Except String Bytes :=
  packManifest k installer worker [] ⟨2, text "linux", arch, build, text "spark-light", text "direct",
    [text "spark_telemetry_v1"], ⟨0, []⟩, ⟨0, []⟩, ⟨0, []⟩, none⟩

end

def sections : List Part → Bytes → List Bytes
  | [], _ => []
  | p :: ps, payload => payload.take p.size.toNat :: sections ps (payload.drop p.size.toNat)

def Bundle.parts (b : Bundle) : List Bytes := sections b.manifest.parts (b.reader.take b.payloadSize)

variable {k : Kit} {m : Manifest} {raw payload rest : Bytes} {b : Bundle} {arch : Text} {ps : List Part}

theorem require_iff {c : Prop} [Decidable c] {message : String} {u : Unit} : require c message = .ok u ↔ c := by
  unfold require
  split <;> simp_all

theorem uint64_putUint64 {n : Nat} (h : n < 18446744073709551616) : uint64 (putUint64 n) = n := by
  simp only [uint64, putUint64, List.map_cons, List.map_nil, List.foldl_cons, List.foldl_nil, UInt8.toNat_ofNat']
  omega

theorem footer_length (raw : Bytes) : (footer k raw).length = 56 := by
  simp only [footer, List.length_append, k.sum256_length]
  rfl

theorem verifyParts_length (h : verifyParts k arch ps payload = .ok rest) :
    payload.length ≤ ps.length * 67108864 + rest.length := by
  induction ps generalizing payload with
  | nil =>
    cases h
    omega
  | cons p ps ih =>
    simp only [verifyParts, bind_ok, require_iff] at h
    obtain ⟨_, ⟨-, small, -⟩, _, -, h⟩ := h
    have shorter := ih h
    simp only [List.length_drop, maxExecutable, List.length_cons] at *
    omega

theorem check_length (h : check k m payload = .ok ()) : payload.length ≤ 3 * maxExecutable := by
  simp only [check, bind_ok, require_iff] at h
  obtain ⟨_, -, _, -, rest, parts, _, rfl, -⟩ := h
  have short := verifyParts_length parts
  have three : m.parts.length ≤ 3 := by
    unfold Manifest.parts
    split <;> simp
  simp only [List.length_nil, maxExecutable] at *
  omega

theorem openBundle_written (marshalled : k.marshal m = .ok raw) :
    openBundle k (payload ++ raw ++ footer k raw) = .ok b ↔
      raw.length ≤ maxManifest ∧ check k m.decoded payload = .ok () ∧
        b = ⟨payload ++ raw ++ footer k raw, m.decoded, payload.length⟩ := by
  obtain ⟨positive, bounded⟩ := k.marshal_length marshalled
  have size : (payload ++ raw ++ footer k raw).length = payload.length + raw.length + 56 := by
    simp [footer_length]
    omega
  have tail : (payload ++ raw ++ footer k raw).drop (payload.length + raw.length) = footer k raw :=
    List.drop_left' (by simp)
  have marked : (footer k raw).take 16 = magic := rfl
  have sized : uint64 (((footer k raw).drop 16).take 8) = raw.length := uint64_putUint64 (by omega)
  have summed : (footer k raw).drop 24 = k.sum256 raw := rfl
  have front : (payload ++ raw ++ footer k raw).take payload.length = payload := by simp
  have inner : ((payload ++ raw ++ footer k raw).drop payload.length).take raw.length = raw := by simp
  simp only [openBundle, bind_ok, require_iff, size, footerSize, Nat.add_sub_cancel, tail, marked, sized, summed, front,
    inner, k.read_marshal marshalled]
  constructor
  · rintro ⟨_, -, _, -, _, ⟨-, fits, -⟩, _, -, _, read, _, checked, done⟩
    cases read
    cases done
    exact ⟨fits, checked, rfl⟩
  · rintro ⟨fits, checked, rfl⟩
    have short := check_length checked
    have total : payload.length + raw.length + 56 ≤ maxFile := by
      unfold maxFile footerSize
      omega
    exact ⟨(), ⟨by omega, total⟩, (), trivial, (), ⟨by omega, fits, by omega⟩, (), trivial, _, rfl, (), checked, rfl⟩

theorem openBundle_ok {file : Bytes} (h : openBundle k file = .ok b) :
    check k b.manifest (b.reader.take b.payloadSize) = .ok () ∧ b.manifest.decoded = b.manifest ∧
      b.payloadSize ≤ b.reader.length := by
  simp only [openBundle, bind_ok] at h
  obtain ⟨_, -, _, -, _, -, _, -, m, read, _, checked, done⟩ := h
  cases done
  refine ⟨checked, k.read_decoded read, ?_⟩
  dsimp only
  omega

def Profile.valid (p : Profile) : Prop := p.decoded = { p with expiresAt := p.expiresAt.decoded }

theorem decoded_profile {profile : Option Profile} (valid : ∀ p ∈ profile, p.valid) :
    profile.map Profile.decoded = profile ↔ ∀ p ∈ profile, 60 ∣ p.expiresAt.offset := by
  cases profile with
  | none => simp
  | some p =>
    have same := valid p rfl
    simp only [Option.map_some, Option.some.injEq, Option.mem_some_iff, forall_eq']
    rw [same]
    constructor
    · intro kept
      have stamp := congrArg (fun q : Profile => q.expiresAt.offset) kept
      exact ⟨_, stamp.symm.trans (Int.mul_comm ..)⟩
    · rintro ⟨minutes, whole⟩
      have kept : p.expiresAt.decoded = p.expiresAt := by
        have exact_ : p.expiresAt.offset.tdiv 60 * 60 = p.expiresAt.offset := by
          rw [whole, Int.mul_tdiv_cancel_left _ (by decide), Int.mul_comm]
        rw [Stamp.decoded, exact_, Int.sub_self, Int.zero_mul, Int.add_zero]
      rw [kept]

/-- The written file has the size it was said to have, and is a bundle of the same executables and
the same manifest with that profile. -/
def Rebinds (k : Kit) (b : Bundle) (profile : Option Profile) (bytes : Bytes) (n : Nat) : Prop :=
  n = bytes.length ∧ n = b.sizeWith k profile ∧
    ∃ b', openBundle k bytes = .ok b' ∧ b'.parts = b.parts ∧ b'.manifest = b.manifest.bind profile

theorem write_rebinds_iff {file bytes : Bytes} {profile : Option Profile} {n : Nat} (opened : openBundle k file = .ok b)
    (valid : ∀ p ∈ profile, p.valid) (written : b.write k profile = .ok (bytes, n)) :
    Rebinds k b profile bytes n ↔ ∀ p ∈ profile, 60 ∣ p.expiresAt.offset := by
  obtain ⟨checked, fixed, inside⟩ := openBundle_ok opened
  simp only [Bundle.write, bind_ok, require_iff] at written
  obtain ⟨_, accepted, raw, marshalled, _, fits, done⟩ := written
  cases done
  have read : (b.manifest.bind profile).decoded = b.manifest.bind (profile.map Profile.decoded) :=
    congrArg (fun m : Manifest => m.bind (profile.map Profile.decoded)) fixed
  have length : (b.reader.take b.payloadSize).length = b.payloadSize := List.length_take_of_le inside
  rw [← decoded_profile valid]
  constructor
  · rintro ⟨-, -, b', again, -, manifest⟩
    obtain ⟨-, -, rfl⟩ := (openBundle_written marshalled).mp again
    exact congrArg Manifest.profile (read.symm.trans manifest)
  · intro kept
    rw [kept] at read
    refine ⟨?_, ?_, _, (openBundle_written marshalled).mpr ⟨fits, ?_, rfl⟩, ?_, read⟩
    · simp [length, footer_length, footerSize]
      omega
    · simp [Bundle.sizeWith, marshalled, Except.toOption]
    · rw [read]
      simp only [check, bind_ok] at checked ⊢
      obtain ⟨_, platform, _, variant, rest, parts, _, all, -⟩ := checked
      exact ⟨_, platform, _, variant, rest, parts, _, all, accepted⟩
    · rw [Bundle.parts, Bundle.parts, read]
      simp [length]
      rfl

@[simp] theorem carried_text (s : String) : carried (text s) = text s := by
  simp [carried, text, Rune.decoded]

@[simp] theorem carried_encode (b : Bytes) : carried (encodeToString b) = encodeToString b := by
  simp [carried, encodeToString, List.map_flatMap, Rune.decoded]

theorem len_encode (b : Bytes) : len (encodeToString b) = 2 * b.length := by
  have one : ∀ n < 16, (hexDigit n).utf8Size = 1 := by decide
  induction b with
  | nil => rfl
  | cons x b ih =>
    have high := one (x.toNat / 16) (by have := x.toNat_lt; omega)
    have low := one (x.toNat % 16) (by omega)
    simp only [len, encodeToString, List.flatMap_cons, List.map_append, List.sum_append, List.map_cons, List.map_nil,
      List.sum_cons, List.sum_nil, Rune.size, high, low, List.length_cons] at ih ⊢
    omega

theorem len_pos {t : Text} (some : t ≠ []) : 1 ≤ len t := by
  cases t with
  | nil => exact absurd rfl some
  | cons r t =>
    have size : 1 ≤ r.size := by
      cases r with
      | char c => exact c.utf8Size_pos
      | bad => exact le_refl 1
    simp only [len, List.map_cons, List.sum_cons]
    omega

theorem packPart_ok {data : Bytes} {p : Part} (h : packPart k arch data = .ok p) :
    p = ⟨data.length, encodeToString (k.sum256 data)⟩ ∧
      ∀ ps rest, verifyParts k arch (p :: ps) (data ++ rest) = verifyParts k arch ps rest := by
  simp only [packPart, verifyPart, bind_ok, require_iff] at h
  obtain ⟨_, ⟨most, least⟩, _, ⟨_, -, verified⟩, done⟩ := h
  cases done
  refine ⟨rfl, fun ps rest => ?_⟩
  have bounds : 64 ≤ (data.length : Int) ∧ (data.length : Int) ≤ maxExecutable ∧
      len (encodeToString (k.sum256 data)) = 64 ∧ (data.length : Int) ≤ (data ++ rest).length := by
    refine ⟨least, most, by rw [len_encode, k.sum256_length], ?_⟩
    rw [List.length_append]
    omega
  simp only [verifyParts, verifyPart, require, bounds, if_true, Int.toNat_natCast, List.take_left, List.drop_left,
    verified]
  rfl

theorem opens_iff (payload : Bytes) (marshalled : k.marshal m = .ok raw) (small : m.small)
    (plain : m.decoded = { m with build := carried m.build }) (linux : m.os = text "linux")
    (platform : m.arch = text "amd64" ∨ m.arch = text "arm64") (named : m.build ≠ [])
    (variant : m.validateVariant = .ok ()) (parts : verifyParts k m.arch m.parts payload = .ok []) :
    (∃ b, openBundle k (payload ++ raw ++ footer k raw) = .ok b ∧ b.parts = sections m.parts payload) ↔
      len (carried m.build) ≤ 128 := by
  have checked : check k m.decoded payload = .ok () ↔ len (carried m.build) ≤ 128 := by
    have some : carried m.build ≠ [] := by simpa [carried] using named
    rw [plain]
    simp only [check, bind_ok, require_iff]
    constructor
    · rintro ⟨_, ⟨-, -, -, short⟩, -⟩
      exact short
    · intro short
      refine ⟨(), ⟨linux, platform, len_pos some, short⟩, (), variant, [], parts, (), rfl, ?_⟩
      rw [small.1]
      rfl
  constructor
  · rintro ⟨b, opened, -⟩
    exact checked.mp ((openBundle_written marshalled).mp opened).2.1
  · intro short
    have opened := (openBundle_written marshalled).mpr ⟨k.marshal_small marshalled small, checked.mpr short, rfl⟩
    refine ⟨_, opened, ?_⟩
    rw [Bundle.parts, plain]
    simp
    rfl

theorem pack_iff {installer worker supervisor bytes : Bytes} {build : Text}
    (h : pack k installer worker supervisor arch build = .ok bytes) :
    (∃ b, openBundle k bytes = .ok b ∧ b.parts = [installer, worker, supervisor]) ↔ len (carried build) ≤ 128 := by
  simp only [pack, packManifest, bind_ok, require_iff] at h
  obtain ⟨_, variant, i, hi, w, hw, s, hs, _, ⟨platform, named, short⟩, raw, marshalled, done⟩ := h
  cases done
  obtain ⟨rfl, first⟩ := packPart_ok hi
  obtain ⟨rfl, second⟩ := packPart_ok hw
  obtain ⟨rfl, third⟩ := packPart_ok hs
  have opens := opens_iff (installer ++ worker ++ supervisor) marshalled ?_ ?_ rfl platform named rfl ?_
  · simpa [sections, Manifest.parts] using opens
  · rcases platform with rfl | rfl <;> simp [Manifest.small, len_encode, k.sum256_length, short] <;> decide
  · rcases platform with rfl | rfl <;> simp [Manifest.decoded, Part.decoded, carried_text] <;> rfl
  · have last := third [] []
    rw [List.append_nil] at last
    rw [List.append_assoc]
    exact (first _ _).trans ((second _ _).trans last)

theorem packSpark_iff {installer worker bytes : Bytes} {build : Text}
    (h : packSpark k installer worker arch build = .ok bytes) :
    (∃ b, openBundle k bytes = .ok b ∧ b.parts = [installer, worker]) ↔ len (carried build) ≤ 128 := by
  simp only [packSpark, packManifest, bind_ok, require_iff] at h
  obtain ⟨_, variant, i, hi, w, hw, s, hs, _, ⟨platform, named, short⟩, raw, marshalled, done⟩ := h
  cases done
  cases hs
  obtain ⟨rfl, first⟩ := packPart_ok hi
  obtain ⟨rfl, second⟩ := packPart_ok hw
  have opens := opens_iff (installer ++ worker ++ []) marshalled ?_ ?_ rfl platform named variant ?_
  · simpa [sections, Manifest.parts] using opens
  · rcases platform with rfl | rfl <;> simp [Manifest.small, len_encode, k.sum256_length, short] <;> decide
  · rcases platform with rfl | rfl <;> simp [Manifest.decoded, Part.decoded, carried_text] <;> rfl
  · rw [List.append_assoc]
    exact (first _ _).trans (second _ _)

/-- A bundle rebinds exactly if the expiry is in a zone of whole minutes, and what `Pack` or `PackSpark`
wrote opens exactly if the build has at most 128 bytes as JSON carries it. -/
theorem installers_reopen_iff (k : Kit) :
    (∀ file b profile bytes n, openBundle k file = .ok b → (∀ p ∈ profile, p.valid) →
      b.write k profile = .ok (bytes, n) →
      (Rebinds k b profile bytes n ↔ ∀ p ∈ profile, 60 ∣ p.expiresAt.offset)) ∧
    (∀ installer worker supervisor arch build bytes, pack k installer worker supervisor arch build = .ok bytes →
      ((∃ b, openBundle k bytes = .ok b ∧ b.parts = [installer, worker, supervisor]) ↔ len (carried build) ≤ 128)) ∧
    ∀ installer worker arch build bytes, packSpark k installer worker arch build = .ok bytes →
      ((∃ b, openBundle k bytes = .ok b ∧ b.parts = [installer, worker]) ↔ len (carried build) ≤ 128) :=
  ⟨fun _ _ _ _ _ opened valid written => write_rebinds_iff opened valid written, fun _ _ _ _ _ _ => pack_iff,
    fun _ _ _ _ _ => packSpark_iff⟩

def program : Bytes := List.replicate 64 0

def template (build : Text) : Manifest :=
  let p : Part := ⟨64, encodeToString (List.replicate 32 0)⟩
  ⟨1, text "linux", text "amd64", carried build, [], [], [], p, p, p, none⟩

def customer : Profile :=
  ⟨true, text "https://monik:8443", text "c1", text "pem", text "code", ⟨1700000000000000000, 3600⟩⟩

def bound (build : Text) : Manifest := (template build).bind (some customer)

theorem template_decoded (build : Text) :
    (template build).decoded = template build ∧ (bound build).decoded = bound build := by
  have twice : carried (carried build) = carried build := by
    rw [carried, carried, List.map_map]
    refine List.map_congr_left fun r _ => ?_
    cases r <;> rfl
  simp [bound, Manifest.bind, template, Manifest.decoded, Part.decoded, twice]
  exact ⟨rfl, by decide +kernel⟩

def kit (build : Text) : Kit where
  marshal m :=
    if m.decoded = template build then .ok [1] else if m.decoded = bound build then .ok [2] else .error ""
  read raw := if raw = [1] then .ok (template build) else if raw = [2] then .ok (bound build) else .error ""
  sum256 _ := List.replicate 32 0
  elf _ _ := .ok ()
  validate _ := .ok ()
  read_marshal h := by grind
  marshal_length h := by grind
  marshal_small h _ := by grind [maxManifest]
  read_decoded h := by
    have kept := template_decoded build
    grind
  sum256_length _ := rfl

def packed (build : Text) : Bytes := program ++ program ++ program ++ [1] ++ footer (kit build) [1]

def rebound (build : Text) : Bytes := program ++ program ++ program ++ [2] ++ footer (kit build) [2]

theorem template_reopens :
    let opened : Bundle := ⟨packed (text "1"), template (text "1"), 192⟩
    Rebinds (kit (text "1")) opened none (packed (text "1")) 249 ∧
      Rebinds (kit (text "1")) opened (some customer) (rebound (text "1")) 249 ∧
      ∃ b, openBundle (kit (text "1")) (packed (text "1")) = .ok b ∧ b.parts = [program, program, program] := by
  have all := installers_reopen_iff (kit (text "1"))
  have opened : openBundle (kit (text "1")) (packed (text "1")) =
      .ok ⟨packed (text "1"), template (text "1"), 192⟩ := by decide +kernel
  have valid : ∀ p ∈ some customer, p.valid := by
    rintro p ⟨⟩
    unfold Profile.valid
    decide +kernel
  exact ⟨(all.1 _ _ none _ _ opened (by simp) (by decide +kernel)).mpr (by simp),
    (all.1 _ _ (some customer) _ _ opened valid (by decide +kernel)).mpr (by decide +kernel),
    (all.2.1 program program program (text "amd64") (text "1") _ (by decide +kernel)).mpr (by decide)⟩

def garbled : Text := List.replicate 128 (.bad 255)

theorem packed_template_refused :
    pack (kit garbled) program program program (text "amd64") garbled = .ok (packed garbled) ∧
      openBundle (kit garbled) (packed garbled) = .error "unsupported installer format or platform" := by
  decide +kernel

end Monik.InstallerBundle
