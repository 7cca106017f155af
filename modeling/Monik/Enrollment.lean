import Monik.Registration
import Monik.Persistence
import Monik.Runs

/-! Enrollment with a code: `setup.Enroll`, retried with one profile and cut short between any two
writes, and `handleEnroll`; requests and answers are lost, late or doubled. The agent's files are a
map. -/

namespace Monik.Enrollment
open Protocol Tables ControllerStore Credentials Registration Persistence Runs

variable {r r' : Registry} {codeHash : String} {now : Time} {h : Hashes}

structure Profile where
  autoDiscover : Bool
  (controllerUrl caCertPem enrollmentCode displayName stateDir configPath : String)

def join (dir name : String) : String := dir ++ "/" ++ name

namespace Profile

def defaultBootstrapUrl : String := "https://46.150.103.61:8777"

def url (p : Profile) : String :=
  let given := if p.controllerUrl = "" then defaultBootstrapUrl else p.controllerUrl
  String.ofList (given.toList.reverse.dropWhile (· == '/')).reverse

def configFile (p : Profile) : String :=
  if p.configPath = "" then join p.stateDir "agent.json" else p.configPath

def intentFile (p : Profile) : String := join p.stateDir "enrollment-intent.json"

def credentialFile (p : Profile) : String := join p.stateDir "agent.credential"

def discoveryFile (p : Profile) : String := join p.stateDir "discovery.credential"

def rootFile (p : Profile) : String := join p.stateDir "tuf-root.json"

def hash (h : Hashes) (p : Profile) : String :=
  h.sha256 (p.url ++ "\x00" ++ p.enrollmentCode ++ "\x00" ++ p.caCertPem ++ "\x00" ++ p.configFile)

end Profile

structure Intent where
  agentId : String
  credential : String
  profileHash : String
  deriving DecidableEq

structure ConfigFile where
  pendingRegistration : Bool
  (agentId displayName controllerUrl controllerId caCertPem credentialPath stateDir : String)
  endpointGeneration : Int
  updateRootPath : String
  deriving DecidableEq

inductive Content
  | intent (i : Intent)
  | credential (secret : String)
  | config (f : ConfigFile)
  | root (json : String)
  | other
  deriving DecidableEq

structure EnrollRequest where
  (credential code displayName hostname os arch agentId : String)

structure EnrollResponse where
  (agentId credential controllerId caCertPem : String)
  endpointGeneration : Int
  updateRootJson : String

structure Site where
  controllerId : String
  caCertPem : String
  updateRoot : String

/-! The controller. -/

def hexSecret (s : String) : Bool :=
  s.utf8ByteSize == 64 && s.toList.all fun c => lowerHex c || ('A' ≤ c && c ≤ 'F')

def trimSpace (s : String) : String :=
  String.ofList ((s.toList.dropWhile isSpace).reverse.dropWhile isSpace).reverse

/-- A request as the controller meets it, and the secret drawn for a request without one. -/
structure Arrival where
  admitted : Bool
  fresh : String
  site : Site

def handleEnroll (h : Hashes) (r : Registry) (req : EnrollRequest) (x : Arrival) (now : Time) :
    Registry × Except Nat EnrollResponse :=
  if x.admitted = false then (r, .error 429)
  else if req.code = "" ∨ req.agentId = "" then (r, .error 400)
  else if req.agentId.utf8ByteSize > 128 ∨ req.hostname.utf8ByteSize > 255 ∨
      req.displayName.utf8ByteSize > 255 ∨ req.code.utf8ByteSize > 128 then (r, .error 400)
  else if req.credential ≠ "" ∧ hexSecret req.credential = false then (r, .error 400)
  else
    let cred := if req.credential = "" then x.fresh else req.credential
    let row := defaultAgent h req.agentId req.displayName req.hostname req.os req.arch
    match enrollAgent h r (trimSpace req.code) row (h.hashToken cred) (req.credential != "") now with
    | .error _ => (r, .error 409)
    | .ok (r, _) =>
      (r, .ok ⟨req.agentId, cred, x.site.controllerId, x.site.caCertPem, 1, x.site.updateRoot⟩)

inductive Handled (h : Hashes) (r : Registry) (req : EnrollRequest) (now : Time) :
    Registry × Except Nat EnrollResponse → Prop
  | refused (status : Nat) : Handled h r req now (r, .error status)
  | replayed (resp : EnrollResponse) (a : AgentRow) : resp.agentId = req.agentId →
      r.store.agent req.agentId = some a → a.revoked = false → a.credentialHash = h.hashToken resp.credential →
      Handled h r req now (r, .ok resp)
  | created (resp : EnrollResponse) (c : CodeRow) (row : NewAgent) (u : Registry) : resp.agentId = req.agentId →
      c ∈ r.codes → c.codeHash = h.hashToken (trimSpace req.code) → c.consumedAt = none →
      row.id = req.agentId → Added row (h.hashToken resp.credential) r u →
      Handled h r req now (consume u (h.hashToken (trimSpace req.code)) req.agentId now, .ok resp)

theorem handleEnroll_handled (h : Hashes) (r : Registry) (req : EnrollRequest) (x : Arrival) (now : Time) :
    Handled h r req now (handleEnroll h r req x now) := by
  unfold handleEnroll
  split_ifs
  · exact .refused _
  · exact .refused _
  · exact .refused _
  · exact .refused _
  all_goals
    dsimp only
    split
    · exact .refused _
    · rename_i ok
      obtain ⟨c, hc, same, -, ⟨rfl, -, a, found, active, verifier⟩ | ⟨unused, u, added, rfl⟩⟩ := enrollAgent_ok ok
      · exact .replayed _ a rfl found active verifier
      · exact .created _ c _ u rfl hc same unused rfl added

/-! The agent's machine. -/

inductive Phase
  | posting (i : Intent)
  | answered (i : Intent) (r : EnrollResponse)
  | credentialed (i : Intent) (r : EnrollResponse)
  | rooted (i : Intent) (r : EnrollResponse)
  | configured
  | discovered (agentId : String)

inductive Outcome
  | success (f : ConfigFile)
  | refused (status : Nat)
  | failed
  deriving DecidableEq

structure System where
  registry : Registry
  files : Map String Content
  process : Option Phase
  returned : Option Outcome
  clock : Time

inductive Delivery
  | lost
  | answered (x : Arrival)
  | unanswered (x : Arrival)

inductive Event
  /-- `Enroll` is called. `ready`: the address is valid, the directory exists, the lock is free. -/
  | call (ready : Bool) (agentId credential : String) (write : WriteOutcome)
  | post (delivery : Delivery)
  | saveCredential (write : WriteOutcome)
  | saveRoot (write : WriteOutcome)
  | saveConfig (write : WriteOutcome)
  | finish (removed : Bool)
  | crash
  /-- Any other request, also one of this `Enroll` that arrives late. -/
  | request (req : EnrollRequest) (x : Arrival)
  | createCode (code actor : String) (installer : Bool) (expires : Time)
  | tick (elapsed : Nat)

structure Setup where
  hashes : Hashes
  profile : Profile
  hostname : String
  os : String
  arch : String
  poolValid : String → Bool

def System.return (m : System) (outcome : Outcome) : System :=
  { m with process := none, returned := some outcome }

def System.enter (m : System) (phase : Phase) : System := { m with process := some phase }

def System.save (m : System) (write : WriteOutcome) (path : String) (content : Content)
    (next : System → System) : System :=
  let m := { m with files := write.write m.files (m.files.put path content) }
  if write = .done then next m else m.return .failed

section

variable (x : Setup)

def prepareDiscovery (m : System) (ready : Bool) (agentId credential : String) (write : WriteOutcome) : System :=
  let p := x.profile
  if p.enrollmentCode ≠ "" ∨ ready = false ∨ x.poolValid p.caCertPem = false ∨
      p.configFile ≠ join p.stateDir "agent.json" ∨ m.files.get p.credentialFile ≠ none ∨
      m.files.get p.configFile ≠ none ∨ m.files.get p.intentFile ≠ none then m.return .failed
  else m.save write p.discoveryFile (.credential credential) fun m => m.enter (.discovered agentId)

def enroll (m : System) (ready : Bool) (agentId credential : String) (write : WriteOutcome) : System :=
  let p := x.profile
  if p.autoDiscover then prepareDiscovery x m ready agentId credential write
  else if ready = false ∨ p.enrollmentCode = "" ∨ m.files.get p.configFile ≠ none ∨
      m.files.get p.discoveryFile ≠ none ∨ (p.caCertPem ≠ "" ∧ x.poolValid p.caCertPem = false) then
    m.return .failed
  else
    match m.files.get p.intentFile with
    | some (.intent i) =>
      if i.profileHash ≠ p.hash x.hashes ∨ i.agentId = "" ∨ i.credential.utf8ByteSize ≠ 64 then m.return .failed
      else m.enter (.posting i)
    | some _ => m.return .failed
    | none =>
      let i : Intent := ⟨agentId, credential, p.hash x.hashes⟩
      m.save write p.intentFile (.intent i) fun m => m.enter (.posting i)

def enrollRequest (i : Intent) : EnrollRequest :=
  ⟨i.credential, x.profile.enrollmentCode, x.profile.displayName, x.hostname, x.os, x.arch, i.agentId⟩

def trust (r : EnrollResponse) : String :=
  if x.profile.caCertPem = "" then r.caCertPem else x.profile.caCertPem

def receive (m : System) (i : Intent) : Except Nat EnrollResponse → System
  | .error status => m.return (.refused status)
  | .ok r =>
    if r.agentId ≠ i.agentId ∨ r.credential ≠ i.credential ∨ r.controllerId = "" ∨ r.endpointGeneration < 1 ∨
        x.poolValid (trust x r) = false then m.return .failed
    else m.enter (.answered i r)

def serve (m : System) (req : EnrollRequest) (a : Arrival) : System × Except Nat EnrollResponse :=
  let served := handleEnroll x.hashes m.registry req a m.clock
  ({ m with registry := served.1 }, served.2)

def post (m : System) (i : Intent) : Delivery → System
  | .lost => m.return .failed
  | .answered a =>
    let served := serve x m (enrollRequest x i) a
    receive x served.1 i served.2
  | .unanswered a => (serve x m (enrollRequest x i) a).1.return .failed

def configOf (i : Intent) (r : EnrollResponse) : ConfigFile where
  pendingRegistration := false
  agentId := i.agentId
  displayName := x.profile.displayName
  controllerUrl := x.profile.url
  controllerId := r.controllerId
  caCertPem := trust x r
  credentialPath := x.profile.credentialFile
  stateDir := x.profile.stateDir
  endpointGeneration := r.endpointGeneration
  updateRootPath := if r.updateRootJson = "" then "" else x.profile.rootFile

def discoveryConfig (agentId : String) : ConfigFile :=
  ⟨true, agentId, x.profile.displayName, x.profile.url, "", x.profile.caCertPem, x.profile.discoveryFile,
    x.profile.stateDir, 0, ""⟩

def load (m : System) : System :=
  match m.files.get x.profile.configFile with
  | some (.config f) => m.return (.success f)
  | _ => m.return .failed

def step (m : System) (e : Event) : System :=
  match e, m.process with
  | .call ready agentId credential write, none => enroll x m ready agentId credential write
  | .post delivery, some (.posting i) => post x m i delivery
  | .saveCredential write, some (.answered i r) =>
    m.save write x.profile.credentialFile (.credential i.credential) fun m => m.enter (.credentialed i r)
  | .saveRoot write, some (.credentialed i r) =>
    if r.updateRootJson = "" then m.enter (.rooted i r)
    else m.save write x.profile.rootFile (.root r.updateRootJson) fun m => m.enter (.rooted i r)
  | .saveConfig write, some (.rooted i r) =>
    m.save write x.profile.configFile (.config (configOf x i r)) fun m => m.enter .configured
  | .saveConfig write, some (.discovered agentId) =>
    m.save write x.profile.configFile (.config (discoveryConfig x agentId)) (load x)
  | .finish removed, some .configured =>
    load x (if removed then { m with files := m.files.erase x.profile.intentFile } else m)
  | .crash, _ => { m with process := none }
  | .request req a, _ => (serve x m req a).1
  | .createCode code actor installer expires, _ =>
    { m with registry := commit m.registry (createCode x.hashes m.registry code actor installer expires m.clock) }
  | .tick elapsed, _ => { m with clock := m.clock + elapsed }
  | _, _ => m

def initial (registry : Registry) (files : Map String Content) (clock : Time) : System :=
  ⟨registry, files, none, none, clock⟩

end

def Consumed (r : Registry) (codeHash : String) : Prop :=
  ∃ c ∈ r.codes, c.codeHash = codeHash ∧ c.consumedAt ≠ none

structure Grows (r r' : Registry) : Prop where
  agents : ∀ a ∈ r.store.agents, a ∈ r'.store.agents
  consumed : ∀ codeHash, Consumed r codeHash → Consumed r' codeHash

theorem Grows.refl (r : Registry) : Grows r r := ⟨fun _ ha => ha, fun _ used => used⟩

theorem consumed_consume {hash id : String} (used : Consumed r codeHash) :
    Consumed (consume r hash id now) codeHash := by
  obtain ⟨c, hc, same, used⟩ := used
  refine ⟨c, ?_, same, used⟩
  refine (Table.mem_update (f := fun c : CodeRow => { c with consumedAt := some now, consumedBy := some id })
    fun _ => rfl).mpr ⟨c, hc, if_neg ?_⟩
  simp [unused, used]

theorem consume_consumed {c : CodeRow} {id : String} (hc : c ∈ r.codes) (free : c.consumedAt = none) :
    Consumed (consume r c.codeHash id now) c.codeHash := by
  refine ⟨{ c with consumedAt := some now, consumedBy := some id }, ?_, rfl, by simp⟩
  refine (Table.mem_update (f := fun c : CodeRow => { c with consumedAt := some now, consumedBy := some id })
    fun _ => rfl).mpr ⟨c, hc, if_pos ?_⟩
  simp [unused, free]

variable {req : EnrollRequest}

theorem Handled.grows {out : Registry × Except Nat EnrollResponse} (handled : Handled h r req now out)
    : Grows r out.1 := by
  cases handled with
  | refused status => exact .refl r
  | replayed resp a _ _ _ _ => exact .refl r
  | created resp c row u _ hc same free named added =>
    refine ⟨fun a ha => (added.agents a).mpr (.inl ha), fun codeHash used => consumed_consume ?_⟩
    unfold Consumed
    rwa [added.codes]

def Enrolled (h : Hashes) (r : Registry) (agentId credential : String) : Prop :=
  ∃ a, r.store.agent agentId = some a ∧ a.revoked = false ∧ a.credentialHash = h.hashToken credential

theorem Enrolled.grows {agentId credential : String} (grown : Grows r r')
    (enrolled : Enrolled h r agentId credential) : Enrolled h r' agentId credential := by
  obtain ⟨a, found, same⟩ := enrolled
  obtain ⟨ha, named⟩ := agent_eq_some.mp found
  exact ⟨a, agent_eq_some.mpr ⟨grown.agents a ha, named⟩, same⟩

theorem Handled.enrolled {resp : EnrollResponse} (handled : Handled h r req now (r', .ok resp))
    : Enrolled h r' resp.agentId resp.credential := by
  cases handled with
  | replayed _ a named found active verifier => exact ⟨a, by rwa [named], active, verifier⟩
  | created _ c row u named hc same free row_ added =>
    refine ⟨row.row (h.hashToken resp.credential), agent_eq_some.mpr ⟨?_, ?_⟩, rfl, rfl⟩
    · exact (added.agents _).mpr (.inr rfl)
    · rw [named, ← row_]
      rfl

section

variable {x : Setup} {m : System}

def PhaseSound (x : Setup) (m : System) : Phase → Prop
  | .posting _ => True
  | .answered i _ => Enrolled x.hashes m.registry i.agentId i.credential
  | .credentialed i _ | .rooted i _ =>
    Enrolled x.hashes m.registry i.agentId i.credential ∧
      m.files.get x.profile.credentialFile = some (.credential i.credential)
  | .configured =>
    ∃ i r, Enrolled x.hashes m.registry i.agentId i.credential ∧
      m.files.get x.profile.credentialFile = some (.credential i.credential) ∧
      m.files.get x.profile.configFile = some (.config (configOf x i r))
  | .discovered _ => False

def Bound (x : Setup) (m : System) (f : ConfigFile) : Prop :=
  m.files.get x.profile.configFile = some (.config f) ∧
    ∃ credential, m.files.get f.credentialPath = some (.credential credential) ∧
      Enrolled x.hashes m.registry f.agentId credential

structure Sound (x : Setup) (m : System) : Prop where
  phase : ∀ ph, m.process = some ph → PhaseSound x m ph
  success : ∀ f, m.returned = some (.success f) → m.process = none ∧ Bound x m f

theorem Sound.failed (m : System) : Sound x (m.return .failed) :=
  ⟨nofun, nofun⟩

theorem Sound.refused (m : System) (status : Nat) : Sound x (m.return (.refused status)) :=
  ⟨nofun, nofun⟩

theorem Sound.initial (registry : Registry) (files : Map String Content) (clock : Time) :
    Sound x (initial registry files clock) :=
  ⟨nofun, nofun⟩

variable {content : Content} {next : System → System}

theorem Sound.save {write : WriteOutcome} {path : String}
    (h : Sound x (next { m with files := m.files.put path content })) : Sound x (m.save write path content next) := by
  cases write with
  | done => exact h
  | failed => exact .failed _
  | renamed => exact .failed _

def Unbound (m : System) : Prop := ∀ f, m.returned ≠ some (.success f)

theorem Sound.unbound (h : Sound x m) (other : m.process ≠ none) : Unbound m :=
  fun f done => other (h.success f done).1

theorem Sound.enter {phase : Phase} (unbound : Unbound m) (h : PhaseSound x m phase) : Sound x (m.enter phase) := by
  refine ⟨fun ph running => ?_, fun f done => absurd done (unbound f)⟩
  cases running
  cases phase <;> exact h

theorem file_ne {dir a b : String} (h : a ≠ b) : join dir a ≠ join dir b := by
  intro same
  exact h ((String.append_right_inj (dir ++ "/")).mp same)

theorem Sound.serve (grown : Grows m.registry r) (h : Sound x m) : Sound x { m with registry := r } := by
  refine ⟨fun ph running => ?_, fun f done => ?_⟩
  · have sound := h.phase ph running
    cases ph with
    | posting i => trivial
    | answered i resp => exact sound.grows grown
    | credentialed i resp => exact ⟨sound.1.grows grown, sound.2⟩
    | rooted i resp => exact ⟨sound.1.grows grown, sound.2⟩
    | configured =>
      obtain ⟨i, resp, enrolled, files⟩ := sound
      exact ⟨i, resp, enrolled.grows grown, files⟩
    | discovered agentId => exact sound
  · obtain ⟨idle, config, credential, stored, enrolled⟩ := h.success f done
    exact ⟨idle, config, credential, stored, enrolled.grows grown⟩

theorem Sound.call (coded : x.profile.autoDiscover = false) (h : Sound x m) (ready : Bool)
    (agentId credential : String) (write : WriteOutcome) : Sound x (enroll x m ready agentId credential write) := by
  unfold enroll
  rw [if_neg (by simp [coded])]
  split
  · exact .failed _
  rename_i proceeds
  simp only [not_or, ne_eq, not_not] at proceeds
  have unbound : Unbound m := fun f done => by
    obtain ⟨-, config, -⟩ := h.success f done
    rw [proceeds.2.2.1] at config
    cases config
  split
  · split
    · exact .failed _
    · exact .enter unbound trivial
  · exact .failed _
  · exact .save (.enter unbound trivial)

theorem Sound.post (h : Sound x m) {i : Intent} (posting : m.process = some (.posting i)) (d : Delivery) :
    Sound x (post x m i d) := by
  have unbound : Unbound m := h.unbound (by simp [posting])
  cases d with
  | lost => exact .failed _
  | unanswered a => exact .failed _
  | answered a =>
    have handled := handleEnroll_handled x.hashes m.registry (enrollRequest x i) a m.clock
    simp only [Enrollment.post, Enrollment.serve]
    generalize handleEnroll x.hashes m.registry (enrollRequest x i) a m.clock = out at handled
    obtain ⟨r, _ | resp⟩ := out
    · exact .refused _ _
    · simp only [receive]
      split
      · exact .failed _
      · rename_i checked
        simp only [not_or, ne_eq, not_not] at checked
        refine .enter unbound ?_
        have enrolled := handled.enrolled
        rwa [checked.1, checked.2.1] at enrolled

theorem createCode_grows (h : Hashes) (r : Registry) (code actor : String) (installer : Bool) (expires now : Time) :
    Grows r (commit r (createCode h r code actor installer expires now)) := by
  refine commit_invariant (Grows r) (.refl r) fun u ok => ?_
  obtain ⟨-, codes, rfl, rows⟩ := createCode_ok ok
  exact ⟨fun _ ha => ha, fun codeHash ⟨c, hc, used⟩ => ⟨c, (rows c).mpr (.inl hc), used⟩⟩

theorem Sound.load (h : PhaseSound x m .configured) (removed : Bool) :
    Sound x (load x (if removed then { m with files := m.files.erase x.profile.intentFile } else m)) := by
  have kept : x.profile.credentialFile ≠ x.profile.intentFile := file_ne (by decide)
  obtain ⟨i, r, enrolled, stored, config⟩ := h
  have finished : ∀ files : Map String Content, files.get x.profile.credentialFile = some (.credential i.credential) →
      (files.get x.profile.configFile = none ∨
        files.get x.profile.configFile = some (.config (configOf x i r))) →
      Sound x (Enrollment.load x { m with files }) := by
    intro files stored present
    unfold Enrollment.load
    obtain gone | present := present
    · simp only [gone]
      exact .failed _
    · simp only [present]
      refine ⟨fun p running => ?_, fun f done => ?_⟩
      · cases running
      cases done
      exact ⟨rfl, present, i.credential, stored, enrolled⟩
  cases removed with
  | false => exact finished m.files stored (.inr config)
  | true =>
    refine finished (m.files.erase x.profile.intentFile) ?_ ?_
    · rwa [Map.get_erase, if_neg kept]
    · rw [Map.get_erase]
      split
      · exact .inl rfl
      · exact .inr config

theorem Sound.step (coded : x.profile.autoDiscover = false)
    (apart : x.profile.configFile ≠ x.profile.credentialFile) (h : Sound x m) (e : Event) : Sound x (step x m e) := by
  have other : x.profile.credentialFile ≠ x.profile.rootFile := file_ne (by decide)
  unfold Enrollment.step
  split
  · exact h.call coded _ _ _ _
  · rename_i posting
    exact h.post posting _
  · rename_i i r running
    have unbound : Unbound m := h.unbound (by simp [running])
    refine .save (.enter unbound ⟨h.phase _ running, ?_⟩)
    exact Map.get_put_self ..
  · rename_i i r running
    have unbound : Unbound m := h.unbound (by simp [running])
    obtain ⟨enrolled, stored⟩ := h.phase _ running
    split
    · exact .enter unbound ⟨enrolled, stored⟩
    · refine .save (.enter unbound ⟨enrolled, ?_⟩)
      rwa [Map.get_put, if_neg other]
  · rename_i i r running
    have unbound : Unbound m := h.unbound (by simp [running])
    obtain ⟨enrolled, stored⟩ := h.phase _ running
    refine .save (.enter unbound ⟨i, r, enrolled, ?_, Map.get_put_self ..⟩)
    rwa [Map.get_put, if_neg (Ne.symm apart)]
  · rename_i running
    exact (h.phase _ running).elim
  · rename_i running
    exact .load (h.phase _ running) _
  · exact ⟨nofun, fun f done => ⟨rfl, (h.success f done).2⟩⟩
  · exact h.serve (handleEnroll_handled ..).grows
  · exact h.serve (createCode_grows ..)
  · exact ⟨h.phase, h.success⟩
  · exact h

def served (x : Setup) (m : System) (e : Event) : Option (EnrollRequest × Arrival) :=
  match e, m.process with
  | .post (.answered a), some (.posting i) => some (enrollRequest x i, a)
  | .post (.unanswered a), some (.posting i) => some (enrollRequest x i, a)
  | .request req a, _ => some (req, a)
  | _, _ => none

theorem receive_keeps (m : System) (i : Intent) (answer : Except Nat EnrollResponse) :
    (receive x m i answer).registry = m.registry ∧ (receive x m i answer).files = m.files := by
  cases answer with
  | error status => exact ⟨rfl, rfl⟩
  | ok r =>
    simp only [receive]
    split_ifs
    · exact ⟨rfl, rfl⟩
    · exact ⟨rfl, rfl⟩

variable {e : Event}

theorem step_served {a : Arrival} (found : served x m e = some (req, a)) :
    (step x m e).registry = (handleEnroll x.hashes m.registry req a m.clock).1 ∧ (step x m e).files = m.files := by
  unfold served at found
  split at found
  · rename_i running
    cases found
    simp only [step, running, post]
    exact receive_keeps _ _ _
  · rename_i running
    cases found
    simp only [step, running, post]
    exact ⟨rfl, rfl⟩
  · cases found
    exact ⟨rfl, rfl⟩
  · cases found

theorem save_registry (m : System) (write : WriteOutcome) (path : String) (content : Content) (same : ∀ u, (next u).registry = u.registry) :
    (m.save write path content next).registry = m.registry := by
  unfold System.save
  split
  · exact same _
  · rfl

theorem load_registry (m : System) : (load x m).registry = m.registry := by
  unfold load
  split <;> rfl

theorem enroll_registry (m : System) (ready : Bool) (agentId credential : String) (write : WriteOutcome) :
    (enroll x m ready agentId credential write).registry = m.registry := by
  unfold enroll prepareDiscovery
  dsimp only
  split
  · split
    · rfl
    · exact save_registry _ _ _ _ fun _ => rfl
  · split
    · rfl
    · split
      · split <;> rfl
      · rfl
      · exact save_registry _ _ _ _ fun _ => rfl

theorem step_quiet (none : served x m e = none) :
    (step x m e).registry.store = m.registry.store ∧ Grows m.registry (step x m e).registry := by
  have same : ∀ r, r = m.registry → r.store = m.registry.store ∧ Grows m.registry r := by
    rintro r rfl
    exact ⟨rfl, .refl _⟩
  unfold step
  split
  · exact same _ (enroll_registry ..)
  · rename_i d i running
    cases d with
    | lost => exact same _ rfl
    | answered a => simp [served, running] at none
    | unanswered a => simp [served, running] at none
  · exact same _ (save_registry _ _ _ _ fun _ => rfl)
  · split
    · exact same _ rfl
    · exact same _ (save_registry _ _ _ _ fun _ => rfl)
  · exact same _ (save_registry _ _ _ _ fun _ => rfl)
  · exact same _ (save_registry _ _ _ _ load_registry)
  · refine same _ ((load_registry _).trans ?_)
    split <;> rfl
  · exact same _ rfl
  · simp [served] at none
  · refine ⟨?_, createCode_grows ..⟩
    refine commit_invariant (fun u : Registry => u.store = m.registry.store) rfl fun u ok => ?_
    obtain ⟨-, codes, rfl, -⟩ := createCode_ok ok
    rfl
  · exact same _ rfl
  · exact same _ rfl

theorem step_grows (x : Setup) (m : System) (e : Event) : Grows m.registry (step x m e).registry := by
  cases found : served x m e with
  | none => exact (step_quiet found).2
  | some request =>
    rw [(step_served found).1]
    exact (handleEnroll_handled ..).grows

def Creates (x : Setup) (m : System) (e : Event) (codeHash : String) : Prop :=
  ∃ req a, served x m e = some (req, a) ∧ x.hashes.hashToken (trimSpace req.code) = codeHash ∧
    ∃ row ∈ (step x m e).registry.store.agents, row ∉ m.registry.store.agents

theorem Creates.consumes (creates : Creates x m e codeHash) :
    ¬ Consumed m.registry codeHash ∧ Consumed (step x m e).registry codeHash := by
  obtain ⟨req, a, found, rfl, row, added, new⟩ := creates
  have handled := handleEnroll_handled x.hashes m.registry req a m.clock
  rw [(step_served found).1] at added ⊢
  generalize handleEnroll x.hashes m.registry req a m.clock = out at handled added ⊢
  cases handled with
  | refused status => exact absurd added new
  | replayed resp b _ _ _ _ => exact absurd added new
  | created resp c row u _ hc same free named identity =>
    refine ⟨fun ⟨b, hb, key, used⟩ => ?_, ?_⟩
    · rw [m.registry.codes.eq_of_key hb hc (key.trans same.symm)] at used
      exact used free
    · rw [← same]
      exact consume_consumed (by rwa [identity.codes]) free

theorem Creates.once {e' : Event} (creates : Creates x m e codeHash) (mid : List Event) :
    ¬ Creates x (run (step x) m (e :: mid)) e' codeHash := by
  intro again
  have used : Consumed (run (step x) (step x m e) mid).registry codeHash :=
    run_preserves (fun u => Consumed u.registry codeHash) (fun u e h => (step_grows x u e).consumed _ h)
      creates.consumes.2 mid
  exact again.consumes.1 used

theorem added_unique {a b : AgentRow} (ha : a ∈ (step x m e).registry.store.agents)
    (newA : a ∉ m.registry.store.agents) (hb : b ∈ (step x m e).registry.store.agents)
    (newB : b ∉ m.registry.store.agents) : a = b := by
  cases found : served x m e with
  | none =>
    rw [(step_quiet found).1] at ha
    exact absurd ha newA
  | some request =>
    obtain ⟨req, arrival⟩ := request
    have handled := handleEnroll_handled x.hashes m.registry req arrival m.clock
    rw [(step_served found).1] at ha hb
    generalize handleEnroll x.hashes m.registry req arrival m.clock = out at handled ha hb
    cases handled with
    | refused status => exact absurd ha newA
    | replayed resp c _ _ _ _ => exact absurd ha newA
    | created resp c row u _ hc same free named identity =>
      have first := ((identity.agents a).mp ha).resolve_left newA
      have second := ((identity.agents b).mp hb).resolve_left newB
      rw [first, second]

theorem config_kept (idle : m.process = none)
    (present : m.files.get x.profile.configFile = some content) (events : List Event) :
    (run (step x) m events).files.get x.profile.configFile = some content := by
  suffices kept : (run (step x) m events).process = none ∧
      (run (step x) m events).files.get x.profile.configFile = some content from kept.2
  refine run_preserves (fun u : System => u.process = none ∧ u.files.get x.profile.configFile = some content)
    (fun u e ⟨idle, present⟩ => ?_) ⟨idle, present⟩ events
  cases e with
  | call ready agentId credential write =>
    simp only [step, idle, enroll, prepareDiscovery, present]
    split
    · rw [if_pos (by simp)]
      exact ⟨rfl, present⟩
    · rw [if_pos (by simp)]
      exact ⟨rfl, present⟩
  | crash => exact ⟨rfl, present⟩
  | request req a => exact ⟨idle, present⟩
  | createCode code actor installer expires => exact ⟨idle, present⟩
  | tick elapsed => exact ⟨idle, present⟩
  | _ =>
    simp only [step, idle]
    exact ⟨trivial, present⟩

end

/-- A code creates one agent at most; once `Enroll` has succeeded, local identity and credential are those
of an agent of the controller; a refused request changes nothing. -/
theorem enrollment_binds_one_identity (x : Setup) (coded : x.profile.autoDiscover = false)
    (apart : x.profile.configFile ≠ x.profile.credentialFile) (registry : Registry) (files : Map String Content)
    (clock : Time) (before : List Event) :
    let m := run (step x) (initial registry files clock) before
    (∀ e mid e' codeHash, Creates x m e codeHash → ¬ Creates x (run (step x) m (e :: mid)) e' codeHash) ∧
      (∀ e, ∀ a ∈ (step x m e).registry.store.agents, a ∉ m.registry.store.agents →
        ∀ b ∈ (step x m e).registry.store.agents, b ∉ m.registry.store.agents → a = b) ∧
      (∀ f, m.returned = some (.success f) → Bound x m f) ∧
      (∀ e req a status, served x m e = some (req, a) →
        (handleEnroll x.hashes m.registry req a m.clock).2 = .error status →
          (step x m e).registry = m.registry ∧ (step x m e).files = m.files) ∧
      ∀ content, m.process = none → m.files.get x.profile.configFile = some content →
        ∀ after, (run (step x) m after).files.get x.profile.configFile = some content := by
  intro m
  refine ⟨fun e mid e' codeHash creates => creates.once mid, fun e a ha newA b hb newB => ?_, fun f done => ?_,
    fun e req a status found refused => ?_, fun content idle present after => config_kept idle present after⟩
  · exact added_unique ha newA hb newB
  · have sound : Sound x m :=
      run_preserves (Sound x) (fun u e h => h.step coded apart e) (.initial registry files clock) before
    exact (sound.success f done).2
  · obtain ⟨registry, files⟩ := step_served found
    refine ⟨?_, files⟩
    rw [registry]
    have handled := handleEnroll_handled x.hashes m.registry req a m.clock
    generalize handleEnroll x.hashes m.registry req a m.clock = out at handled refused
    cases handled with
    | refused _ => rfl
    | replayed _ _ _ _ _ _ => cases refused
    | created _ _ _ _ _ _ _ _ _ _ => cases refused

def secret : String := String.ofList (List.replicate 64 '0')

def codeSetup (configPath : String) : Setup where
  hashes := ⟨id, id, id⟩
  profile := ⟨false, "", "pem", "CODE", "", "dir", configPath⟩
  hostname := ""
  os := "linux"
  arch := "amd64"
  poolValid := fun _ => true

def retried : List Event :=
  let arrival : Arrival := ⟨true, "", ⟨"controller", "pem", ""⟩⟩
  [.createCode "CODE" "owner" false 100, .call true "a1" secret .done, .post (.unanswered arrival),
    .call true "a2" "other" .done, .post (.answered arrival), .saveCredential .done, .saveRoot .done,
    .saveConfig .done, .finish true]

theorem enrollment_binds_one_identity_retried :
    let m := run (step (codeSetup "")) (initial .empty .empty 1) retried
    (∃ f, m.returned = some (.success f)) ∧ ∀ f, m.returned = some (.success f) → Bound (codeSetup "") m f := by
  refine ⟨?_, (enrollment_binds_one_identity (codeSetup "") rfl (by decide) .empty .empty 1 retried).2.2.1⟩
  exact ⟨configOf (codeSetup "") ⟨"a1", secret, (codeSetup "").profile.hash (codeSetup "").hashes⟩
    ⟨"a1", secret, "controller", "pem", 1, ""⟩, by decide +kernel⟩

/-- With automatic discovery `Enroll` succeeds before the controller knows the agent; a configuration
written over the credential leaves none. -/
theorem enroll_returns_unbound :
    (let x : Setup := { codeSetup "" with profile := ⟨true, "", "pem", "", "", "dir", ""⟩ }
      let m := run (step x) (initial .empty .empty 1) [.call true "a1" secret .done, .saveConfig .done]
      ∃ f, m.returned = some (.success f) ∧ m.registry.store.agent f.agentId = none) ∧
    let m := run (step (codeSetup "dir/agent.credential")) (initial .empty .empty 1) retried
    ∃ f, m.returned = some (.success f) ∧ ∀ credential, m.files.get f.credentialPath ≠ some (.credential credential) := by
  refine ⟨⟨discoveryConfig { codeSetup "" with profile := ⟨true, "", "pem", "", "", "dir", ""⟩ } "a1",
    by decide +kernel, by decide +kernel⟩, ?_⟩
  let f := configOf (codeSetup "dir/agent.credential")
    ⟨"a1", secret, (codeSetup "dir/agent.credential").profile.hash (codeSetup "dir/agent.credential").hashes⟩
    ⟨"a1", secret, "controller", "pem", 1, ""⟩
  refine ⟨f, by decide +kernel, ?_⟩
  have overwritten : (run (step (codeSetup "dir/agent.credential")) (initial .empty .empty 1) retried).files.get
      f.credentialPath = some (.config f) := by decide +kernel
  intro credential stored
  cases stored

end Monik.Enrollment
