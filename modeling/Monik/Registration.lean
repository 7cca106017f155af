import Monik.Credentials

/-! How an identity gets into the controller: by an enrollment code (`storage/enrollment.go`), or by
an announcement that an owner approves (`storage/announcement.go`, `storage/admission.go`). Each
function is one transaction, its clock readings are inputs. -/

namespace Monik.Registration
open Protocol Tables ControllerStore Credentials

variable {code actor : String} {now : Time}

/-- `secure.HashToken`, `secure.SHA256Bytes`, and the JSON text of `DefaultAgentConfig` under a
display name. -/
structure Hashes where
  hashToken : String → String
  sha256 : String → String
  defaultConfig : String → String

inductive CandidateState
  | pending | approved | rejected
  deriving DecidableEq

structure CandidateRow where
  (id credentialHash fingerprint hostname displayName os arch version : String)
  state : CandidateState
  sourceIp : String
  createdAt : Time
  lastSeenAt : Time
  expiresAt : Time

structure CodeRow where
  codeHash : String
  createdBy : String
  expiresAt : Time
  consumedAt : Option Time
  consumedBy : Option String

structure RevisionRow where
  agentId : String
  revision : Int
  hash : String
  body : String

def RevisionRow.key (r : RevisionRow) : String × Int := (r.agentId, r.revision)

/-- The columns of a new row of `agents` that no transaction of the store reads. -/
structure DetailRow where
  (agentId displayName hostname desiredHash desiredConfig : String)

structure AdmissionPayload where
  openUntil : Option Time
  updatedBy : String

/-- The setting `admission_window_v1`; a corrupt value has no payload. -/
structure AdmissionSetting where
  revision : Int
  payload : Option AdmissionPayload

structure Registry where
  store : Store
  details : Table DetailRow DetailRow.agentId
  candidates : Table CandidateRow CandidateRow.id
  codes : Table CodeRow CodeRow.codeHash
  revisions : Table RevisionRow RevisionRow.key
  admission : Option AdmissionSetting

def Registry.empty : Registry := ⟨Store.empty, .empty, .empty, .empty, .empty, none⟩

def Registry.candidate (r : Registry) (id : String) : Option CandidateRow :=
  r.candidates.find? fun c => c.id == id

structure NewAgent where
  (id displayName hostname os arch : String)
  desiredRevision : Int
  desiredHash : String
  desiredConfig : String

def defaultAgent (h : Hashes) (id displayName hostname os arch : String) : NewAgent :=
  let body := h.defaultConfig displayName
  ⟨id, displayName, hostname, os, arch, 1, h.sha256 body, body⟩

def NewAgent.row (n : NewAgent) (credentialHash : String) : AgentRow :=
  { id := n.id, revoked := false, archived := false, managedReady := false, flavor := "", os := n.os
    arch := n.arch, immutableRelease := false, sessionId := "", workerDigest := "", lastLiveAt := none
    appliedRevision := 0, appliedHash := "", desiredRevision := n.desiredRevision, credentialHash
    endpointGeneration := 1, lastSeq := 0 }

def insertAgent (r : Registry) (n : NewAgent) (credentialHash : String) : Option Registry :=
  match r.store.agents.insert (n.row credentialHash) with
  | none => none
  | some agents => some { r with
      store := { r.store with agents }
      details := r.details.upsert ⟨n.id, n.displayName, n.hostname, n.desiredHash, n.desiredConfig⟩ }

def insertIdentity (r : Registry) (n : NewAgent) (credentialHash : String) : Except StoreError Registry :=
  match insertAgent r n credentialHash with
  | none => .error (.refused "agent identity is already enrolled or unavailable")
  | some r =>
    match r.revisions.insert ⟨n.id, n.desiredRevision, n.desiredHash, n.desiredConfig⟩ with
    | none => .error .conflict
    | some revisions => .ok { r with revisions }

structure Added (n : NewAgent) (credentialHash : String) (r r' : Registry) : Prop where
  fresh : ∀ a ∈ r.store.agents, a.id ≠ n.id
  agents : ∀ a, a ∈ r'.store.agents ↔ a ∈ r.store.agents ∨ a = n.row credentialHash
  overlaps : r'.store.overlaps = r.store.overlaps
  candidates : r'.candidates = r.candidates
  codes : r'.codes = r.codes
  admission : r'.admission = r.admission

variable {r r' : Registry}

theorem insertIdentity_ok {n : NewAgent} {credentialHash : String} (h : insertIdentity r n credentialHash = .ok r') :
    Added n credentialHash r r' := by
  unfold insertIdentity at h
  split at h
  · cases h
  rename_i u inserted
  unfold insertAgent at inserted
  split at inserted
  · cases inserted
  rename_i agents row
  cases inserted
  obtain ⟨fresh, rows⟩ := Table.insert_some row
  split at h <;> cases h
  exact ⟨fresh, rows, rfl, rfl, rfl, rfl⟩

/-! Enrollment with a code. -/

def unused (hash : String) (c : CodeRow) : Bool := c.codeHash == hash && c.consumedAt.isNone

def consume (r : Registry) (hash agentId : String) (now : Time) : Registry :=
  { r with
    codes := r.codes.update (unused hash)
      (fun c => { c with consumedAt := some now, consumedBy := some agentId }) fun _ => rfl }

/-- The answer says whether it is the replay of an enrollment. -/
def enrollAgent (h : Hashes) (r : Registry) (code : String) (n : NewAgent) (verifier : String)
    (retryable : Bool) (now : Time) : Except StoreError (Registry × Bool) :=
  match r.codes.find? fun c => c.codeHash == h.hashToken code with
  | none => .error (.refused "enrollment code invalid or expired")
  | some c =>
    if c.expiresAt ≤ now then .error (.refused "enrollment code invalid or expired")
    else if c.consumedAt.isSome then
      if retryable = false ∨ c.consumedBy ≠ some n.id then
        .error (.refused "enrollment code already used")
      else
        match r.store.agent n.id with
        | none => .error .notFound
        | some a =>
          if a.revoked ∨ a.credentialHash ≠ verifier then
            .error (.refused "enrollment retry identity/proof mismatch")
          else .ok (r, true)
    else
      match insertIdentity r n verifier with
      | .error e => .error e
      | .ok r =>
        if r.codes.count (unused (h.hashToken code)) ≠ 1 then .error .conflict
        else .ok (consume r (h.hashToken code) n.id now, false)

variable {h : Hashes}

theorem enrollAgent_ok {verifier : String} {n : NewAgent} {retryable replay : Bool}
    (ok : enrollAgent h r code n verifier retryable now = .ok (r', replay)) :
    ∃ c ∈ r.codes, c.codeHash = h.hashToken code ∧ now < c.expiresAt ∧ ((r' = r ∧ c.consumedBy = some n.id ∧
          ∃ a, r.store.agent n.id = some a ∧ a.revoked = false ∧ a.credentialHash = verifier) ∨ (c.consumedAt = none ∧
          ∃ u, Added n verifier r u ∧ r' = consume u (h.hashToken code) n.id now)) := by
  unfold enrollAgent at ok
  split at ok
  · cases ok
  rename_i c found
  obtain ⟨hc, same⟩ := Table.find?_key.mp found
  split_ifs at ok with expired used wrong
  · refine ⟨c, hc, same, not_le.mp expired, .inl ?_⟩
    simp only [not_or, ne_eq, not_not] at wrong
    split at ok
    · cases ok
    rename_i a row
    split_ifs at ok with mismatch
    simp only [not_or, ne_eq, not_not, Bool.not_eq_true] at mismatch
    cases ok
    exact ⟨rfl, wrong.2, a, row, mismatch⟩
  · refine ⟨c, hc, same, not_le.mp expired, .inr ⟨by simpa using used, ?_⟩⟩
    split at ok
    · cases ok
    rename_i u inserted
    split_ifs at ok
    cases ok
    exact ⟨u, insertIdentity_ok inserted, rfl⟩

/-- `CreateEnrollmentCode` and `CreateInstallerCode`; the second allows an actor 32 open codes. -/
def createCode (h : Hashes) (r : Registry) (code actor : String) (installer : Bool) (expires now : Time) :
    Except StoreError Registry :=
  let open_ (c : CodeRow) : Bool :=
    c.createdBy == actor && c.consumedAt.isNone && decide (now < c.expiresAt)
  if installer ∧ r.codes.count open_ ≥ 32 then
    .error (.refused "too many unused enrollment profiles; allow them to expire or finish existing installations")
  else
    match r.codes.insert ⟨h.hashToken code, actor, expires, none, none⟩ with
    | none => .error .conflict
    | some codes => .ok { r with codes }

theorem createCode_ok {installer : Bool}
    {expires : Time} (ok : createCode h r code actor installer expires now = .ok r') :
    (∀ c ∈ r.codes, c.codeHash ≠ h.hashToken code) ∧ ∃ codes, r' = { r with codes } ∧
      ∀ c, c ∈ codes ↔ c ∈ r.codes ∨ c = ⟨h.hashToken code, actor, expires, none, none⟩ := by
  unfold createCode at ok
  dsimp only at ok
  split_ifs at ok
  split at ok
  · cases ok
  rename_i codes inserted
  cases ok
  obtain ⟨fresh, rows⟩ := Table.insert_some inserted
  exact ⟨fresh, codes, rfl, rows⟩

/-! Announcement and decision. -/

structure AdmissionPolicy where
  revision : Int
  openUntil : Option Time
  updatedBy : String
  isOpen : Bool

def admissionPolicy (r : Registry) (now : Time) : Except StoreError AdmissionPolicy :=
  match r.admission with
  | none => .ok ⟨0, none, "", false⟩
  | some setting =>
    match setting.payload with
    | none => .error (.refused "admission policy is corrupt; new registrations are blocked")
    | some p => .ok ⟨setting.revision, p.openUntil, p.updatedBy, p.openUntil.any fun t => decide (now < t)⟩

def setAdmission (r : Registry) (base minutes : Int) (actor : String) (now untilNow : Time) :
    Except StoreError Registry :=
  if base < 0 ∨ minutes < 0 ∨ minutes > 1440 then
    .error (.refused "admission duration must be 0..1440 minutes (0 closes)")
  else
    match admissionPolicy r now with
    | .error e => .error e
    | .ok p =>
      if p.revision ≠ base then .error .conflict
      else
        let openUntil := if minutes > 0 then some (untilNow + minutes * minute) else none
        let revision := (r.admission.map fun setting => setting.revision + 1).getD 1
        .ok { r with admission := some ⟨revision, some ⟨openUntil, actor⟩⟩ }

theorem setAdmission_ok {base minutes : Int} {untilNow : Time}
    (ok : setAdmission r base minutes actor now untilNow = .ok r') : ∃ admission, r' = { r with admission } := by
  unfold setAdmission at ok
  split at ok
  · cases ok
  split at ok
  · cases ok
  split at ok
  · cases ok
  cases ok
  exact ⟨_, rfl⟩

structure Announcement where
  (agentId credential hostname displayName os arch version : String)

inductive AnnouncedState
  | pending | approved | rejected | admissionClosed

def registrationFingerprint (h : Hashes) (id credential : String) : String :=
  h.sha256 ("monik-registration-v1\x00" ++ id ++ "\x00" ++ credential)

def candidateTtl : Time := 7 * 24 * hour

def candidateCapacity : Nat := 100

structure AnnounceClock where
  now : Time
  policy : Time
  inserted : Time

def newCandidate (h : Hashes) (req : Announcement) (ip : String) (at_ : AnnounceClock) : CandidateRow :=
  ⟨req.agentId, h.hashToken req.credential, registrationFingerprint h req.agentId req.credential,
    req.hostname, req.displayName, req.os, req.arch, req.version, .pending, ip, at_.now, at_.now,
    at_.inserted + candidateTtl⟩

def dropExpired (r : Registry) (now : Time) : Registry :=
  { r with candidates := r.candidates.delete fun c => decide (c.expiresAt ≤ now) }

def dropApproved (r : Registry) (id : String) : Registry :=
  { r with candidates := r.candidates.delete fun c => c.id == id && c.state == .approved }

def seen (r : Registry) (id : String) (now : Time) : Registry :=
  let candidates := r.candidates.update (fun c => c.id == id) (fun c => { c with lastSeenAt := now })
    fun _ => rfl
  { r with candidates }

/-- The last part of `Announce`: an identity that is not known yet. -/
def recordCandidate (h : Hashes) (r : Registry) (req : Announcement) (ip : String) (at_ : AnnounceClock) :
    Except StoreError (Registry × AnnouncedState × Bool) :=
  match admissionPolicy r at_.policy with
  | .error e => .error e
  | .ok policy =>
    if policy.isOpen = false then .ok (r, .admissionClosed, false)
    else if r.candidates.rows.length ≥ candidateCapacity ∨
        (r.candidates.count fun c => c.sourceIp == ip) ≥ candidateCapacity then
      .error (.refused "pending registration capacity reached")
    else
      match r.candidates.insert (newCandidate h req ip at_) with
      | none => .error .conflict
      | some candidates => .ok ({ r with candidates }, .pending, true)

def announce (h : Hashes) (r : Registry) (req : Announcement) (ip : String) (at_ : AnnounceClock) :
    Except StoreError (Registry × AnnouncedState × Bool) :=
  let verifier := h.hashToken req.credential
  let r := dropExpired r at_.now
  match r.store.agent req.agentId with
  | some a =>
    if a.revoked ∨ a.credentialHash ≠ verifier then .error .conflict
    else .ok (dropApproved r req.agentId, .approved, false)
  | none =>
    match r.candidate req.agentId with
    | some c =>
      if c.credentialHash ≠ verifier then .error .conflict
      else
        match c.state with
        | .approved => .error (.refused "registration requires local recovery")
        | .pending => .ok (seen r req.agentId at_.now, .pending, false)
        | .rejected => .ok (r, .rejected, false)
    | none => recordCandidate h r req ip at_

inductive Announced (h : Hashes) (r : Registry) (req : Announcement) (ip : String) (at_ : AnnounceClock) :
    Registry → Prop
  | enrolled (a : AgentRow) : r.store.agent req.agentId = some a → a.revoked = false →
      a.credentialHash = h.hashToken req.credential →
      Announced h r req ip at_ (dropApproved (dropExpired r at_.now) req.agentId)
  | polled (c : CandidateRow) : c ∈ (dropExpired r at_.now).candidates → c.id = req.agentId →
      c.credentialHash = h.hashToken req.credential → c.state = .pending →
      Announced h r req ip at_ (seen (dropExpired r at_.now) req.agentId at_.now)
  | unchanged : Announced h r req ip at_ (dropExpired r at_.now)
  | recorded (policy : AdmissionPolicy) (candidates : Table CandidateRow CandidateRow.id) :
      admissionPolicy r at_.policy = .ok policy → policy.isOpen →
      (dropExpired r at_.now).candidates.rows.length < candidateCapacity →
      (dropExpired r at_.now).candidates.insert (newCandidate h req ip at_) = some candidates →
      Announced h r req ip at_ { dropExpired r at_.now with candidates }

theorem announce_ok {req : Announcement} {ip : String} {at_ : AnnounceClock}
    {state : AnnouncedState} {created : Bool} (ok : announce h r req ip at_ = .ok (r', state, created)) :
    Announced h r req ip at_ r' := by
  unfold announce at ok
  dsimp only at ok
  split at ok
  · rename_i a row
    split_ifs at ok with mismatch
    simp only [not_or, ne_eq, not_not, Bool.not_eq_true] at mismatch
    cases ok
    exact .enrolled a row mismatch.1 mismatch.2
  split at ok
  · rename_i c found
    obtain ⟨hc, same⟩ := Table.find?_key.mp found
    split_ifs at ok with mismatch
    split at ok
    · cases ok
    · rename_i pending
      cases ok
      exact .polled c hc same (not_not.mp mismatch) pending
    · cases ok
      exact .unchanged
  · unfold recordCandidate at ok
    split at ok
    · cases ok
    rename_i policy current
    split_ifs at ok with closed full
    · cases ok
      exact .unchanged
    · split at ok
      · cases ok
      rename_i candidates inserted
      cases ok
      rw [not_or, ge_iff_le, not_le] at full
      exact .recorded policy candidates current (by simpa using closed) full.1 inserted

def announcementFreshness : Time := 2 * minute

def decided (approve : Bool) : CandidateState := if approve then .approved else .rejected

def recordDecision (r : Registry) (id : String) (state : CandidateState) : Registry :=
  let candidates := r.candidates.update (fun c => c.id == id) (fun c => { c with state := state })
    fun _ => rfl
  { r with candidates }

/-- `now` and `freshNow` are its first two clock readings. -/
def decideCandidate (h : Hashes) (r : Registry) (id fingerprint : String) (approve : Bool)
    (now freshNow : Time) : Except StoreError Registry :=
  match r.candidate id with
  | none => .error .notFound
  | some c =>
    if c.fingerprint ≠ fingerprint then .error .conflict
    else if c.state = decided approve then .ok r
    else if c.state ≠ .pending ∨ c.expiresAt ≤ now then .error .conflict
    else if approve then
      if c.lastSeenAt < freshNow - announcementFreshness then
        .error (.refused "candidate is offline; wait for a fresh announcement")
      else
        match insertIdentity r (defaultAgent h id c.displayName c.hostname c.os c.arch) c.credentialHash with
        | .error e => .error e
        | .ok r => .ok (recordDecision r id .approved)
    else .ok (recordDecision r id .rejected)

theorem decideCandidate_ok {id fingerprint : String} {approve : Bool}
    {freshNow : Time} (ok : decideCandidate h r id fingerprint approve now freshNow = .ok r') :
    ∃ c ∈ r.candidates, c.id = id ∧ c.fingerprint = fingerprint ∧ (r' = r ∨ (c.state = .pending ∧ now < c.expiresAt ∧
        (r' = recordDecision r id .rejected ∨ (freshNow - announcementFreshness ≤ c.lastSeenAt ∧
            ∃ u, Added (defaultAgent h id c.displayName c.hostname c.os c.arch) c.credentialHash r u ∧
              r' = recordDecision u id .approved)))) := by
  unfold decideCandidate at ok
  split at ok
  · cases ok
  rename_i c found
  obtain ⟨hc, same⟩ := Table.find?_key.mp found
  split_ifs at ok with other done closed approving stale
  · cases ok
    exact ⟨c, hc, same, not_not.mp other, .inl rfl⟩
  · simp only [not_or, ne_eq, not_not, not_le] at closed
    split at ok
    · cases ok
    rename_i u inserted
    cases ok
    exact ⟨c, hc, same, not_not.mp other,
      .inr ⟨closed.1, closed.2, .inr ⟨not_lt.mp stale, u, insertIdentity_ok inserted, rfl⟩⟩⟩
  · simp only [not_or, ne_eq, not_not, not_le] at closed
    cases ok
    exact ⟨c, hc, same, not_not.mp other, .inr ⟨closed.1, closed.2, .inl rfl⟩⟩

end Monik.Registration
