import Mathlib.Data.List.Basic
import Monik.AgentRows
import Monik.Registration

/-! Credentials over whole runs. A request reads and writes in separate statements (`lookupAgent`,
`handleCredentialNext`); between any two of them other requests enroll, announce, decide, rotate and
revoke. -/

namespace Monik.CredentialSafety
open Protocol Tables ControllerStore Credentials Registration AgentRows Runs
open Submission

inductive Use
  | request (promotePending : Bool)
  | next (jobId verifier : String)

inductive Stage
  | agent
  | pending
  /-- `PendingCredential` deletes the overlap it has read. -/
  | dropOverlap (hash : String) (expires : Time)
  | promote
  | confirm
  | again
  | register (expiry : Time)
  | accepted
  | malformed
  | refused

def Stage.reads : Stage → Bool
  | .agent | .again | .confirm => true
  | _ => false

def Stage.passed : Stage → Bool
  | .again | .register _ | .accepted | .malformed => true
  | _ => false

structure Request where
  agentId : String
  cred : String
  use : Use
  stage : Stage

def Use.promotes : Use → Bool
  | .request promotePending => promotePending
  | .next _ _ => false

def Request.granted (q : Request) (now : Time) : Stage :=
  match q.use, q.stage with
  | .next jobId verifier, .agent =>
    if validVerifier verifier = false ∨ validJobId jobId = false then .malformed else .again
  | .next _ _, .again => .register (now + oneShotExpiry)
  | _, _ => .accepted

section

variable (hashToken : String → String)

def readAgent (s : Store) (q : Request) (now : Time) : Stage :=
  if q.agentId = "" then .refused
  else
    match s.agent q.agentId with
    | none => .refused
    | some ag =>
      if ag.revoked then .refused
      else if ag.credentialHash = hashToken q.cred then q.granted now
      else if q.use.promotes = false then .refused
      else .pending

def readPending (s : Store) (q : Request) (now : Time) : Stage :=
  match s.overlap q.agentId with
  | none => .refused
  | some o =>
    if now < o.expiresAt then
      if o.pendingHash = "" ∨ o.pendingHash ≠ hashToken q.cred then .refused else .promote
    else .dropOverlap o.pendingHash o.expiresAt

def readAgain (s : Store) (q : Request) : Stage :=
  match s.agent q.agentId with
  | none => .refused
  | some fresh =>
    if fresh.revoked ∨ fresh.credentialHash ≠ hashToken q.cred then .refused else .accepted

def serve (s : Store) (q : Request) (now : Time) : Store × Stage :=
  match q.stage with
  | .agent | .again => (s, readAgent hashToken s q now)
  | .pending => (s, readPending hashToken s q now)
  | .dropOverlap hash expires =>
    ({ s with overlaps := s.overlaps.delete (isOverlap q.agentId hash expires) }, .refused)
  | .promote =>
    match promoteCredential s q.agentId (hashToken q.cred) now with
    | .error _ => (s, .refused)
    | .ok s => (s, .confirm)
  | .confirm => (s, readAgain hashToken s q)
  | .register expiry =>
    match q.use with
    | .request _ => (s, .refused)
    | .next jobId verifier =>
      match registerPendingCredential s q.agentId (hashToken q.cred) verifier jobId expiry now with
      | .error _ => (s, .refused)
      | .ok (s, _) => (s, .accepted)
  | .accepted | .malformed | .refused => (s, q.stage)

end

structure Controller where
  registry : Registry
  requests : List Request
  clock : Time

inductive Event
  | arrive (agentId cred : String) (use : Use)
  | serve (place : Nat)
  | enroll (code : String) (row : NewAgent) (verifier : String) (retryable : Bool)
  | createCode (code actor : String) (installer : Bool) (expires : Time)
  | announce (req : Announcement) (ip : String) (policyNow insertNow : Time)
  | decide (id fingerprint : String) (approve : Bool) (freshNow : Time)
  | setAdmission (base minutes : Int) (actor : String) (untilNow : Time)
  | revoke (op : String)
  | report (rep : AgentReport) (call : Ingestion.Call)
  | control (e : DispatchSafety.Event)
  | tick (elapsed : Nat)

section

variable (h : Hashes) (c : Ingestion.Codec)

def serveAt (m : Controller) (place : Nat) : Controller :=
  match m.requests[place]? with
  | none => m
  | some q =>
    let served := serve h.hashToken m.registry.store q m.clock
    { m with
      registry := { m.registry with store := served.1 }
      requests := m.requests.set place { q with stage := served.2 } }

def settle (m : Controller) (r : Except StoreError Registry) : Controller :=
  { m with registry := commit m.registry r }

def onStore (m : Controller) (store : Store) : Controller :=
  { m with registry := { m.registry with store } }

def step (m : Controller) : Event → Controller
  | .arrive agentId cred use => { m with requests := m.requests ++ [⟨agentId, cred, use, .agent⟩] }
  | .serve place => serveAt h m place
  | .enroll code row verifier retryable =>
    settle m ((enrollAgent h m.registry code row verifier retryable m.clock).map Prod.fst)
  | .createCode code actor installer expires =>
    settle m (createCode h m.registry code actor installer expires m.clock)
  | .announce req ip policyNow insertNow =>
    settle m ((announce h m.registry req ip ⟨m.clock, policyNow, insertNow⟩).map Prod.fst)
  | .decide id fingerprint approve freshNow =>
    settle m (decideCandidate h m.registry id fingerprint approve m.clock freshNow)
  | .setAdmission base minutes actor untilNow =>
    settle m (setAdmission m.registry base minutes actor m.clock untilNow)
  | .revoke op => onStore m (commit m.registry.store (Submission.revokeOperationAgents m.registry.store op))
  | .report rep call =>
    onStore m (commit m.registry.store ((Ingestion.acceptReport c m.registry.store rep call).map Prod.fst))
  | .control (.world _) => m
  | .control e => onStore m (DispatchSafety.step m.registry.store e)
  | .tick elapsed => { m with clock := m.clock + elapsed }

def initial (clock : Time) : Controller := ⟨.empty, [], clock⟩

end

def Revoked (s : Store) (id : String) : Prop :=
  (∃ a ∈ s.agents, a.id = id ∧ a.revoked ∧ a.credentialHash = "") ∧
    ∀ o ∈ s.overlaps, o.agentId ≠ id

structure Stays (s s' : Store) : Prop where
  dead : (∀ a ∈ s.agents, a.revoked → Revoked s a.id) → ∀ a ∈ s'.agents, a.revoked → Revoked s' a.id
  revoked : ∀ id, Revoked s id → Revoked s' id

structure Fades (s s' : Store) : Prop extends Stays s s' where
  overlaps : ∀ o ∈ s'.overlaps, o ∈ s.overlaps

variable {s s' s'' : Store}

theorem Fades.trans (h : Fades s s') (h' : Fades s' s'') : Fades s s'' where
  dead := h'.dead ∘ h.dead
  revoked := fun id gone => h'.revoked id (h.revoked id gone)
  overlaps := fun o ho => h.overlaps o (h'.overlaps o ho)

theorem Stays.of_rows (agents : ∀ a ∈ s.agents, ∃ a' ∈ s'.agents, a'.id = a.id ∧
      (a.revoked → a'.revoked ∧ a'.credentialHash = a.credentialHash))
    (rows : ∀ a' ∈ s'.agents, a'.revoked → ∃ a ∈ s.agents, a.id = a'.id ∧ a.revoked)
    (overlaps : ∀ o ∈ s'.overlaps, o ∈ s.overlaps ∨ ∃ a ∈ s.agents, a.id = o.agentId ∧ a.revoked = false) :
    Stays s s' := by
  have revoked : ∀ id, Revoked s id → Revoked s' id := by
    rintro id ⟨⟨a, ha, named, gone, empty⟩, none⟩
    obtain ⟨a', ha', same, kept⟩ := agents a ha
    refine ⟨⟨a', ha', same.trans named, (kept gone).1, (kept gone).2.trans empty⟩, fun o ho owned => ?_⟩
    obtain old | ⟨b, hb, owner, active⟩ := overlaps o ho
    · exact none o old owned
    · rw [s.agents.eq_of_key hb ha (owner.trans (owned.trans named.symm)), gone] at active
      cases active
  refine ⟨fun dead a' ha' gone => ?_, revoked⟩
  obtain ⟨a, ha, same, gone⟩ := rows a' ha' gone
  rw [← same]
  exact revoked a.id (dead a ha gone)

theorem Stays.of_update {p : AgentRow → Bool} {f : AgentRow → AgentRow} (keep : ∀ a, (f a).id = a.id)
    (agents : s'.agents = s.agents.update p f keep) (same : ∀ a, p a → (f a).revoked = a.revoked ∧
      (a.revoked → (f a).credentialHash = a.credentialHash))
    (overlaps : ∀ o ∈ s'.overlaps, o ∈ s.overlaps ∨ ∃ a ∈ s.agents, a.id = o.agentId ∧ a.revoked = false) :
    Stays s s' := by
  refine .of_rows (fun a ha => ?_) (fun a' ha' gone => ?_) overlaps
  · refine ⟨if p a then f a else a, by rw [agents]; exact (Table.mem_update keep).mpr ⟨a, ha, rfl⟩, ?_⟩
    split
    · rename_i selected
      exact ⟨keep a, fun gone => ⟨(same a selected).1.trans gone, (same a selected).2 gone⟩⟩
    · exact ⟨rfl, fun gone => ⟨gone, rfl⟩⟩
  · rw [agents] at ha'
    obtain ⟨a, ha, rfl⟩ := (Table.mem_update keep).mp ha'
    split at gone <;> rename_i selected
    · rw [if_pos selected]
      exact ⟨a, ha, (keep a).symm, (same a selected).1.symm.trans gone⟩
    · rw [if_neg selected]
      exact ⟨a, ha, rfl, gone⟩

theorem Fades.of_eq (agents : s'.agents = s.agents) (overlaps : ∀ o ∈ s'.overlaps, o ∈ s.overlaps) : Fades s s' where
  toStays := .of_rows (fun a ha => ⟨a, by rwa [agents], rfl, fun gone => ⟨gone, rfl⟩⟩)
    (fun a ha gone => ⟨a, by rwa [agents] at ha, rfl, gone⟩) fun o ho => .inl (overlaps o ho)
  overlaps := overlaps

theorem Fades.refl (s : Store) : Fades s s := .of_eq rfl fun _ ho => ho

theorem revokeAgent_fades {op : String} {t : TargetRow} (h : revokeAgent op s t = .ok s') : Fades s s' := by
  unfold revokeAgent at h
  split_ifs at h
  · cases h
    exact .refl _
  have written := Untouched.of_writes (.update .refl (.inl trivial) h)
  have agents : ∀ a', a' ∈ s'.agents ↔ ∃ a ∈ s.agents,
      (if a.id == t.agentId then { a with revoked := true, credentialHash := "" } else a) = a' := fun a' => by
    rw [written.agents]
    exact Table.mem_update (f := fun a : AgentRow => { a with revoked := true, credentialHash := "" }) fun _ => rfl
  have overlaps : ∀ o ∈ s'.overlaps, o ∈ s.overlaps ∧ o.agentId ≠ t.agentId := fun o ho => by
    rw [written.overlaps] at ho
    obtain ⟨old, other⟩ := Table.mem_delete.mp ho
    exact ⟨old, by simpa using other⟩
  have revoked : ∀ id, Revoked s id → Revoked s' id := by
    rintro id ⟨⟨a, ha, named, gone, empty⟩, none⟩
    refine ⟨⟨_, (agents _).mpr ⟨a, ha, rfl⟩, ?_⟩, fun o ho => none o (overlaps o ho).1⟩
    split
    · exact ⟨named, rfl, rfl⟩
    · exact ⟨named, gone, empty⟩
  refine ⟨⟨fun dead a' ha' gone => ?_, revoked⟩, fun o ho => (overlaps o ho).1⟩
  obtain ⟨a, ha, rfl⟩ := (agents a').mp ha'
  split at gone <;> rename_i selected
  · rw [if_pos selected]
    refine ⟨⟨_, (agents _).mpr ⟨a, ha, rfl⟩, ?_⟩, fun o ho => ?_⟩
    · rw [if_pos selected]
      exact ⟨rfl, rfl, rfl⟩
    · rw [beq_iff_eq] at selected
      rw [show ({ a with revoked := true, credentialHash := "" } : AgentRow).id = a.id from rfl, selected]
      exact (overlaps o ho).2
  · rw [if_neg selected]
    exact revoked a.id (dead a ha gone)

theorem bumpAgent_fades {op : Operations.NewOperation} {hash : String → String} {t : Operations.TargetResult}
    (h : bumpAgent op hash s t = .ok s') : Fades s s' := by
  unfold bumpAgent at h
  split at h
  · cases h
  · rename_i a _
    cases h
    exact ⟨.of_update (f := fun b => { b with desiredRevision := a.desiredRevision + 1 }) (fun _ => rfl) rfl (fun _ _ => ⟨rfl, fun _ => rfl⟩) fun o ho => .inl ho, fun _ ho => ho⟩

theorem Fades.of_untouched (h : Untouched s s') : Fades s s' :=
  .of_eq h.agents fun _ ho => by rwa [h.overlaps] at ho

theorem fades_rule : ControllerRule.Rule Fades :=
  rule Fades.of_untouched .trans bumpAgent_fades revokeAgent_fades

theorem acceptReport_fades {c : Ingestion.Codec} {rep : AgentReport} {call : Ingestion.Call}
    {out : Ingestion.AcceptedReport} (h : Ingestion.acceptReport c s rep call = .ok (s', out)) : Fades s s' := by
  obtain ⟨overlaps, agents | agents⟩ := acceptReport_agents h
  · exact .of_eq agents fun _ ho => by rwa [overlaps] at ho
  · have kept : ∀ o ∈ s'.overlaps, o ∈ s.overlaps := fun _ ho => by rwa [overlaps] at ho
    exact ⟨.of_update (f := Ingestion.touchAgent rep call) (fun _ => rfl) agents (fun _ _ => ⟨rfl, fun _ => rfl⟩) fun o ho => .inl (kept o ho), kept⟩

theorem added_fades {n : NewAgent} {hash : String} {r r' : Registry} (h : Added n hash r r') :
    Fades r.store r'.store where
  toStays := by
    refine .of_rows (fun a ha => ⟨a, (h.agents a).mpr (.inl ha), rfl, fun gone => ⟨gone, rfl⟩⟩)
      (fun a' ha' gone => ?_) fun o ho => .inl (by rwa [h.overlaps] at ho)
    obtain old | rfl := (h.agents a').mp ha'
    · exact ⟨a', old, rfl, gone⟩
    · cases gone
  overlaps := fun o ho => by rwa [h.overlaps] at ho

theorem register_spec {agentId expected verifier jobId : String} {expiry now : Time} {r : Registration}
    (h : registerPendingCredential s agentId expected verifier jobId expiry now = .ok (s', r)) :
    s'.agents = s.agents ∧ ∃ a, s.agent agentId = some a ∧ a.revoked = false ∧ a.credentialHash = expected ∧
      ∀ o ∈ s'.overlaps, o ∈ s.overlaps ∨ o.agentId = agentId := by
  unfold registerPendingCredential at h
  split_ifs at h
  split at h
  · cases h
  rename_i a found
  split_ifs at h with stale same
  · cases h
    simp only [not_or, ne_eq, not_not, Bool.not_eq_true] at stale
    exact ⟨rfl, a, found, stale.1, stale.2, fun o ho => .inl ho⟩
  · simp only [not_or, ne_eq, not_not, Bool.not_eq_true] at stale
    have fresh : ∀ o ∈ s.overlaps.upsert ⟨agentId, verifier, jobId, expiry⟩,
        o ∈ s.overlaps ∨ o.agentId = agentId := by
      intro o ho
      obtain ⟨old, -⟩ | rfl := Table.mem_upsert.mp ho
      · exact .inl old
      · exact .inr rfl
    split at h
    · cases h
      exact ⟨rfl, a, found, stale.1, stale.2, fresh⟩
    · split_ifs at h
      · cases h
        exact ⟨rfl, a, found, stale.1, stale.2, fun o ho => .inl ho⟩
      · cases h
        exact ⟨rfl, a, found, stale.1, stale.2, fresh⟩

theorem promote_fades {agentId hash : String} {now : Time} (h : promoteCredential s agentId hash now = .ok s') :
    Fades s s' := by
  unfold promoteCredential at h
  split at h
  · cases h
  split at h
  · cases h
  split at h
  · cases h
  split at h
  · cases h
    exact .refl _
  split at h
  · cases h
  split_ifs at h
  cases h
  have kept : ∀ p, ∀ o ∈ s.overlaps.delete p, o ∈ s.overlaps := fun p o ho => (Table.mem_delete.mp ho).1
  refine ⟨.of_update (f := fun b => { b with credentialHash := hash }) (fun _ => rfl) rfl
    (fun a holds => ⟨rfl, fun gone => ?_⟩) fun o ho => .inl (kept _ o ho), kept _⟩
  simp [holdsCredential, gone] at holds

def Current (hashToken : String → String) (s : Store) (q : Request) : Prop :=
  ∃ a, s.agent q.agentId = some a ∧ a.revoked = false ∧ a.credentialHash = hashToken q.cred

section

variable {hashToken : String → String} {q : Request} {now : Time}

theorem readAgent_current (passed : (readAgent hashToken s q now).passed) : Current hashToken s q := by
  unfold readAgent at passed
  split at passed
  · cases passed
  split at passed
  · cases passed
  rename_i a found
  split_ifs at passed with revoked current
  · cases passed
  · exact ⟨a, found, by simpa using revoked, current⟩
  · cases passed
  · cases passed

theorem readAgain_current (passed : (readAgain hashToken s q).passed) : Current hashToken s q := by
  unfold readAgain at passed
  split at passed
  · cases passed
  rename_i a found
  split_ifs at passed with changed
  · cases passed
  · rw [not_or, Bool.not_eq_true, ne_eq, not_not] at changed
    exact ⟨a, found, changed⟩

theorem serve_current (reads : q.stage.reads) (passed : (serve hashToken s q now).2.passed) :
    Current hashToken s q := by
  unfold serve at passed
  cases stage : q.stage with
  | agent | again =>
    rw [stage] at passed
    exact readAgent_current passed
  | confirm =>
    rw [stage] at passed
    exact readAgain_current passed
  | _ =>
    rw [stage] at reads
    cases reads

theorem serve_spec : Fades s (serve hashToken s q now).1 ∨
    (serve hashToken s q now).1.agents = s.agents ∧ Current hashToken s q ∧
      ∀ o ∈ (serve hashToken s q now).1.overlaps, o ∈ s.overlaps ∨ o.agentId = q.agentId := by
  have unchanged := Fades.refl s
  unfold serve
  cases q.stage with
  | dropOverlap hash expires => exact .inl (.of_eq rfl fun o ho => (Table.mem_delete.mp ho).1)
  | promote =>
    dsimp only
    split
    · exact .inl unchanged
    · rename_i promoted
      exact .inl (promote_fades promoted)
  | register expiry =>
    dsimp only
    split
    · exact .inl unchanged
    split
    · exact .inl unchanged
    · rename_i registered
      obtain ⟨agents, a, found, active, current, added⟩ := register_spec registered
      exact .inr ⟨agents, ⟨a, found, active, current⟩, added⟩
  | _ => exact .inl unchanged

theorem serve_stays : Stays s (serve hashToken s q now).1 := by
  obtain faded | ⟨agents, ⟨a, found, active, -⟩, added⟩ := @serve_spec s hashToken q now
  · exact faded.toStays
  · obtain ⟨ha, named⟩ := agent_eq_some.mp found
    refine .of_rows (fun b hb => ⟨b, by rwa [agents], rfl, fun gone => ⟨gone, rfl⟩⟩)
      (fun b hb gone => ⟨b, by rwa [agents] at hb, rfl, gone⟩) fun o ho => ?_
    exact (added o ho).imp_right fun owned => ⟨a, ha, named.trans owned.symm, active⟩

end

theorem settle_fades {m : Controller} {r : Except StoreError Registry}
    (h : ∀ u, r = .ok u → Fades m.registry.store u.store) : Fades m.registry.store (settle m r).registry.store :=
  commit_invariant (fun u : Registry => Fades m.registry.store u.store) (.refl _) h

section

variable (h : Hashes) (c : Ingestion.Codec)

theorem step_fades (m : Controller) (e : Event) (other : ∀ place, e ≠ .serve place) :
    Fades m.registry.store (step h c m e).registry.store := by
  cases e with
  | arrive agentId cred use => exact .refl _
  | serve place => exact absurd rfl (other place)
  | enroll code row verifier retryable =>
    refine settle_fades fun u mapped => ?_
    obtain ⟨⟨u, replay⟩, ok, rfl⟩ := map_ok mapped
    obtain ⟨_, -, -, -, ⟨rfl, -⟩ | ⟨-, v, added, rfl⟩⟩ := enrollAgent_ok ok
    · exact .refl _
    · change Fades m.registry.store v.store
      exact added_fades added
  | createCode code actor installer expires =>
    refine settle_fades fun u ok => ?_
    obtain ⟨-, codes, rfl, -⟩ := createCode_ok ok
    exact .refl _
  | announce req ip policyNow insertNow =>
    refine settle_fades fun u mapped => ?_
    obtain ⟨⟨u, state, created⟩, ok, rfl⟩ := map_ok mapped
    cases announce_ok ok <;> exact .refl _
  | decide id fingerprint approve freshNow =>
    refine settle_fades fun u ok => ?_
    obtain ⟨_, -, -, -, rfl | ⟨-, -, rfl | ⟨-, v, added, rfl⟩⟩⟩ := decideCandidate_ok ok
    · exact .refl _
    · exact .refl _
    · change Fades m.registry.store v.store
      exact added_fades added
  | setAdmission base minutes actor untilNow =>
    refine settle_fades fun u ok => ?_
    obtain ⟨admission, rfl⟩ := setAdmission_ok ok
    exact .refl _
  | revoke op => exact fades_rule.commit fun _ revoked => fades_rule.revoke revoked
  | report rep call =>
    refine commit_invariant (Fades m.registry.store) (.refl _) fun u mapped => ?_
    obtain ⟨⟨u, out⟩, ok, rfl⟩ := map_ok mapped
    exact acceptReport_fades ok
  | control e =>
    have kept := fades_rule.step_inside (fun inserted => Fades.of_untouched (.operation inserted)) m.registry.store e
    cases e with
    | world w => exact .refl _
    | _ => exact kept nofun
  | tick elapsed => exact .refl _

theorem step_serve (m : Controller) (place : Nat) {q : Request} (found : m.requests[place]? = some q) :
    (step h c m (.serve place)).registry.store = (serve h.hashToken m.registry.store q m.clock).1 := by
  simp only [step, serveAt, found]

theorem step_stays (m : Controller) (e : Event) : Stays m.registry.store (step h c m e).registry.store := by
  cases e with
  | serve place =>
    cases found : m.requests[place]? with
    | none =>
      simp only [step, serveAt, found]
      exact (Fades.refl _).toStays
    | some q =>
      rw [step_serve h c m place found]
      exact serve_stays
  | _ => exact Fades.toStays (step_fades h c m _ nofun)

theorem run_dead (clock : Time) (events : List Event) :
    ∀ a ∈ (run (step h c) (initial clock) events).registry.store.agents, a.revoked →
      Revoked (run (step h c) (initial clock) events).registry.store a.id :=
  run_preserves (fun m => ∀ a ∈ m.registry.store.agents, a.revoked → Revoked m.registry.store a.id)
    (fun m e dead => (step_stays h c m e).dead dead) (fun a ha => absurd ha (Table.not_mem_empty a)) events

theorem run_revoked {m : Controller} {id : String} (gone : Revoked m.registry.store id) (events : List Event) :
    Revoked (run (step h c) m events).registry.store id :=
  run_preserves (fun m => Revoked m.registry.store id) (fun m e gone => (step_stays h c m e).revoked id gone)
    gone events

def Accepts (m : Controller) (place : Nat) (q : Request) : Prop :=
  m.requests[place]? = some q ∧ q.stage.reads ∧
    (serve h.hashToken m.registry.store q m.clock).2.passed

/-- A lookup accepts only the current credential, a pending verifier comes from a request with it, and a
revoked agent never has a verifier again. -/
theorem credentials_stay_dead (clock : Time) (before : List Event) :
    let m := run (step h c) (initial clock) before
    (∀ place q, Accepts h m place q → Current h.hashToken m.registry.store q) ∧
      (∀ e, ∀ o ∈ (step h c m e).registry.store.overlaps, o ∉ m.registry.store.overlaps →
        ∃ place q, e = .serve place ∧ m.requests[place]? = some q ∧ q.agentId = o.agentId ∧
          Current h.hashToken m.registry.store q) ∧
      ∀ id a, m.registry.store.agent id = some a → a.revoked → ∀ after,
        let later := run (step h c) (initial clock) (before ++ after)
        Revoked later.registry.store id ∧ ∀ place q, Accepts h later place q → q.agentId ≠ id := by
  intro m
  refine ⟨fun place q accepts => serve_current accepts.2.1 accepts.2.2, fun e o added fresh => ?_,
    fun id a found gone after => ?_⟩
  · by_cases serving : ∃ place, e = .serve place
    · obtain ⟨place, rfl⟩ := serving
      cases at_ : m.requests[place]? with
      | none =>
        simp only [step, serveAt, at_] at added
        exact absurd added fresh
      | some q =>
        rw [step_serve h c m place at_] at added
        obtain faded | ⟨-, current, owned⟩ := @serve_spec m.registry.store h.hashToken q m.clock
        · exact absurd (faded.overlaps o added) fresh
        · exact ⟨place, q, rfl, at_, ((owned o added).resolve_left fresh).symm, current⟩
    · have faded := step_fades h c m e fun place same => serving ⟨place, same⟩
      exact absurd (faded.overlaps o added) fresh
  · obtain ⟨ha, rfl⟩ := agent_eq_some.mp found
    intro later
    have dead : Revoked later.registry.store a.id := by
      have kept := run_revoked h c (run_dead h c clock before a ha gone) after
      rwa [← run_append] at kept
    refine ⟨dead, fun place q accepts named => ?_⟩
    obtain ⟨b, row, active, -⟩ := serve_current accepts.2.1 accepts.2.2
    obtain ⟨hb, owner⟩ := agent_eq_some.mp row
    obtain ⟨⟨a', ha', same, revoked, -⟩, -⟩ := dead
    rw [later.registry.store.agents.eq_of_key hb ha' (owner.trans (named.trans same.symm)), revoked] at active
    cases active

end

end Monik.CredentialSafety
