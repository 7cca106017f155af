import Monik.ControllerStore

/-! The controller's side of agent credentials: the hash of the current one, and in a rotation the
verifier of the next one with a deadline, promoted by a request that proves it in time. -/

namespace Monik.Credentials
open Protocol Tables ControllerStore

def isSpace (c : Char) : Bool :=
  c.toNat ∈ [0x09, 0x0a, 0x0b, 0x0c, 0x0d, 0x20, 0x85, 0xa0, 0x1680, 0x2028, 0x2029, 0x202f, 0x205f,
    0x3000] || (0x2000 ≤ c.toNat && c.toNat ≤ 0x200a)

def trimmed (s : String) : Bool :=
  s.toList.head?.all (fun c => !isSpace c) && s.toList.getLast?.all (fun c => !isSpace c)

def validJobId (jobId : String) : Bool :=
  jobId != "" && jobId.utf8ByteSize ≤ 128 && trimmed jobId

def lowerHex (c : Char) : Bool := ('0' ≤ c && c ≤ '9') || ('a' ≤ c && c ≤ 'f')

def validVerifier (verifier : String) : Bool :=
  verifier.utf8ByteSize == 64 && verifier.toList.all lowerHex

theorem validVerifier_ne_empty {verifier : String} (h : validVerifier verifier) :
    verifier ≠ "" := by
  rintro rfl
  exact absurd h (by decide)

inductive Registration
  | alreadyCurrent
  | until (expires : Time)

variable (s : Store) (agentId hash : String)

def registerPendingCredential (expectedCurrent verifier jobId : String) (expiry now : Time) :
    Except StoreError (Store × Registration) :=
  if agentId = "" ∨ expectedCurrent = "" ∨ validJobId jobId = false ∨ validVerifier verifier = false then
    .error .conflict
  else if ¬ now < expiry then .error .conflict
  else
    match s.agent agentId with
    | none => .error .notFound
    | some a =>
      if a.revoked ∨ a.credentialHash ≠ expectedCurrent then .error .conflict
      else if verifier = a.credentialHash then .ok (s, .alreadyCurrent)
      else
        let fresh := { s with overlaps := s.overlaps.upsert ⟨agentId, verifier, jobId, expiry⟩ }
        match s.overlap agentId with
        | none => .ok (fresh, .until expiry)
        | some o =>
          if now < o.expiresAt then
            if o.pendingHash ≠ verifier ∨ o.jobId ≠ jobId then .error .conflict
            -- an identical retry does not extend the overlap
            else .ok (s, .until o.expiresAt)
          else .ok (fresh, .until expiry)

def isOverlap (expires : Time) (o : OverlapRow) : Bool :=
  o.agentId == agentId && o.pendingHash == hash && o.expiresAt == expires

def pendingCredential (now : Time) : Store × Except StoreError (String × String) :=
  match s.overlap agentId with
  | none => (s, .error .notFound)
  | some o =>
    if now < o.expiresAt then (s, .ok (o.pendingHash, o.jobId))
    else
      ({ s with overlaps := s.overlaps.delete (isOverlap agentId o.pendingHash o.expiresAt) },
        .error .notFound)

def holdsCredential (a : AgentRow) : Bool :=
  a.id == agentId && !a.revoked && a.credentialHash == hash

def swapCredential (current hash : String) (expires : Time) : Store :=
  { s with
    agents := s.agents.update (holdsCredential agentId current)
      (fun b => { b with credentialHash := hash }) fun _ => rfl
    overlaps := s.overlaps.delete (isOverlap agentId hash expires) }

/-- Both statements must write exactly one row. -/
def promoteCredential (now : Time) : Tx :=
  if agentId = "" ∨ hash = "" then .error .conflict
  else
    match s.agent agentId with
    | none => .error .notFound
    | some a =>
      if a.revoked then .error .conflict
      else if a.credentialHash = hash then .ok s
      else
        match s.overlap agentId with
        | none => .error .notFound
        | some o =>
          if o.pendingHash ≠ hash ∨ ¬ now < o.expiresAt then .error .conflict
          else if s.agents.count (holdsCredential agentId a.credentialHash) ≠ 1 then .error .conflict
          else if s.overlaps.count (isOverlap agentId hash o.expiresAt) ≠ 1 then .error .conflict
          else .ok (swapCredential s agentId a.credentialHash hash o.expiresAt)

def lookupAgent (hashToken : String → String) (s : Store) (agentId cred : String)
    (promotePending : Bool) (pendingNow promoteNow : Time) : Store × Option AgentRow :=
  if agentId = "" then (s, none)
  else
    match s.agent agentId with
    | none => (s, none)
    | some ag =>
      let got := hashToken cred
      if ag.revoked then (s, none)
      else if ag.credentialHash = got then (s, some ag)
      else if promotePending = false then (s, none)
      else
        match pendingCredential s agentId pendingNow with
        | (s, .error _) => (s, none)
        | (s, .ok (pending, _)) =>
          if pending = "" ∨ pending ≠ got then (s, none)
          else
            match promoteCredential s agentId got promoteNow with
            | .error _ => (s, none)
            | .ok s =>
              match s.agent agentId with
              | none => (s, none)
              | some fresh =>
                if fresh.revoked ∨ fresh.credentialHash ≠ got then (s, none)
                else (s, some fresh)

/-- The HTTP status. The deadline counts from `now`; the transaction reads `txNow`. -/
def handleCredentialNext (hashToken : String → String) (s : Store)
    (agentId cred jobId verifier : String) (now txNow : Time) : Store × Nat :=
  match lookupAgent hashToken s agentId cred false now now with
  | (s, none) => (s, 401)
  | (s, some ag) =>
    if validVerifier verifier = false ∨ validJobId jobId = false then (s, 400)
    else
      match registerPendingCredential s ag.id (hashToken cred) verifier jobId (now + oneShotExpiry) txNow with
      | .error _ => (s, 409)
      | .ok (s, _) => (s, 200)

def Live (now : Time) : Prop :=
  agentId ≠ "" ∧ hash ≠ "" ∧
    ∃ o, s.overlap agentId = some o ∧ o.pendingHash = hash ∧ now < o.expiresAt

section

variable {s s' : Store} {agentId cred jobId verifier : String} {hashToken : String → String}
  {now txNow : Time} {a : AgentRow}

theorem promoteCredential_live {hash : String} (found : s.agent agentId = some a)
    (active : a.revoked = false) (other : a.credentialHash ≠ hash) (live : Live s agentId hash now) :
    ∃ t, promoteCredential s agentId hash now = .ok t ∧ t.agent agentId = some { a with credentialHash := hash } := by
  obtain ⟨named, nonempty, o, row, rfl, open_⟩ := live
  obtain ⟨ha, rfl⟩ := agent_eq_some.mp found
  obtain ⟨ho, owner⟩ := overlap_eq_some.mp row
  have held : holdsCredential a.id a.credentialHash a := by simp [holdsCredential, active]
  have oneAgent : s.agents.count (holdsCredential a.id a.credentialHash) = 1 := by
    refine Table.count_eq_one ha held fun b hb => ?_
    simp only [holdsCredential, Bool.and_eq_true, beq_iff_eq] at hb
    exact hb.1.1
  have oneOverlap : s.overlaps.count (isOverlap a.id o.pendingHash o.expiresAt) = 1 := by
    refine Table.count_eq_one ho (by simp [isOverlap, owner]) fun b hb => ?_
    simp only [isOverlap, Bool.and_eq_true, beq_iff_eq] at hb
    exact hb.1.1.trans owner.symm
  refine ⟨swapCredential s a.id a.credentialHash o.pendingHash o.expiresAt, ?_, ?_⟩
  · simp only [promoteCredential, found, row, named, nonempty, active, other, oneAgent, oneOverlap,
      open_, or_self, if_false, not_true_eq_false, ne_eq, Bool.false_eq_true]
  · refine agent_eq_some.mpr ⟨?_, rfl⟩
    refine (Table.mem_update (f := fun b => { b with credentialHash := o.pendingHash })
      fun _ => rfl).mpr ⟨a, ha, ?_⟩
    rw [if_pos held]

theorem registerPendingCredential_ok {expected : String} {expiry : Time} {r : Registration}
    (found : s.agent agentId = some a)
    (h : registerPendingCredential s agentId expected verifier jobId expiry now = .ok (s', r)) :
    s'.agents = s.agents ∧ (∀ hash, Live s agentId hash now → Live s' agentId hash now) ∧
      (a.credentialHash = verifier ∨ Live s' agentId verifier now) := by
  unfold registerPendingCredential at h
  rw [found] at h
  dsimp only at h
  split at h
  · cases h
  rename_i formed
  simp only [not_or, Bool.not_eq_false] at formed
  obtain ⟨named, -, -, valid⟩ := formed
  split at h
  · cases h
  rename_i early
  split at h
  · cases h
  split at h
  · rename_i current
    cases h
    exact ⟨rfl, fun _ live => live, .inl current.symm⟩
  -- an overlap is written only where none is live
  have written : ∀ t : Store, t.agents = s.agents →
      t.overlaps = s.overlaps.upsert ⟨agentId, verifier, jobId, expiry⟩ →
      Live t agentId verifier now := fun t _ rows => by
    refine ⟨named, validVerifier_ne_empty valid, ⟨agentId, verifier, jobId, expiry⟩,
      overlap_eq_some.mpr ⟨?_, rfl⟩, rfl, not_not.mp early⟩
    rw [rows]
    exact Table.mem_upsert.mpr (.inr rfl)
  split at h
  · rename_i none
    cases h
    refine ⟨rfl, fun hash live => ?_, .inr (written _ rfl rfl)⟩
    obtain ⟨-, -, o, row, -⟩ := live
    rw [none] at row
    cases row
  · rename_i o row
    split at h
    · rename_i open_
      split at h
      · cases h
      · rename_i same
        cases h
        rw [not_or, not_ne_iff, not_ne_iff] at same
        exact ⟨rfl, fun _ live => live,
          .inr ⟨named, validVerifier_ne_empty valid, o, row, same.1, open_⟩⟩
    · rename_i closed
      cases h
      refine ⟨rfl, fun hash live => ?_, .inr (written _ rfl rfl)⟩
      obtain ⟨-, -, o', row', -, open_⟩ := live
      rw [row] at row'
      cases row'
      exact absurd open_ closed

theorem lookupAgent_current (hashToken : String → String) (s : Store) (agentId cred : String) (now txNow : Time) :
    (lookupAgent hashToken s agentId cred false now txNow).1 = s ∧
      ∀ ag, (lookupAgent hashToken s agentId cred false now txNow).2 = some ag →
        s.agent agentId = some ag ∧ ag.credentialHash = hashToken cred := by
  unfold lookupAgent
  split
  · exact ⟨rfl, fun _ none => by cases none⟩
  · split
    · exact ⟨rfl, fun _ none => by cases none⟩
    · rename_i ag found
      dsimp only
      split
      · exact ⟨rfl, fun _ none => by cases none⟩
      · split
        · rename_i same
          exact ⟨rfl, fun _ some => by cases some; exact ⟨found, same⟩⟩
        · exact ⟨rfl, fun _ none => by cases none⟩

theorem lookupAgent_promotes (found : s.agent agentId = some a) (active : a.revoked = false) (order : now ≤ txNow)
    (usable : a.credentialHash = hashToken cred ∨ Live s agentId (hashToken cred) txNow) :
    (a.credentialHash = hashToken cred ∧ (lookupAgent hashToken s agentId cred true now txNow).1 = s) ∨
      (a.credentialHash ≠ hashToken cred ∧ (lookupAgent hashToken s agentId cred true now txNow).1.agent agentId =
          some { a with credentialHash := hashToken cred }) := by
  by_cases current : a.credentialHash = hashToken cred
  · refine .inl ⟨current, ?_⟩
    unfold lookupAgent
    split
    · rfl
    · simp only [found, current, active, Bool.false_eq_true, if_false, if_true]
  · have live := usable.resolve_left current
    obtain ⟨t, promoted, row⟩ := promoteCredential_live found active current live
    obtain ⟨named, nonempty, o, overlap, pending, open_⟩ := live
    have awaited : pendingCredential s agentId now = (s, .ok (hashToken cred, o.jobId)) := by
      simp only [pendingCredential, overlap, Int.lt_of_le_of_lt order open_, if_true, pending]
    refine .inr ⟨current, ?_⟩
    simp only [lookupAgent, named, found, active, current, awaited, nonempty, promoted, row,
      Bool.false_eq_true, if_false, or_self, ne_eq, not_true_eq_false, Bool.true_eq_false]

/-- A registration leaves the agents alone and loses no live overlap; an accepted one came with the current
credential. -/
theorem handleCredentialNext_spec (found : s.agent agentId = some a) {code : Nat}
    (h : handleCredentialNext hashToken s agentId cred jobId verifier now txNow = (s', code)) :
    s'.agents = s.agents ∧ (∀ hash, Live s agentId hash txNow → Live s' agentId hash txNow) ∧
      (code = 200 → a.credentialHash = hashToken cred ∧
        (a.credentialHash = verifier ∨ Live s' agentId verifier txNow)) := by
  obtain ⟨store, looked⟩ :=
    lookupAgent_current hashToken s agentId cred now now
  unfold handleCredentialNext at h
  generalize lookupAgent hashToken s agentId cred false now now = answer at h store looked
  obtain ⟨t, ag⟩ := answer
  obtain rfl : t = s := store
  cases ag with
  | none =>
    cases h
    exact ⟨rfl, fun _ live => live, fun ok => absurd ok (by decide)⟩
  | some ag =>
    obtain ⟨row, current⟩ := looked ag rfl
    rw [found] at row
    cases row
    obtain ⟨-, rfl⟩ := agent_eq_some.mp found
    dsimp only at h
    split at h
    · cases h
      exact ⟨rfl, fun _ live => live, fun ok => absurd ok (by decide)⟩
    split at h
    · cases h
      exact ⟨rfl, fun _ live => live, fun ok => absurd ok (by decide)⟩
    · rename_i u r registered
      cases h
      obtain ⟨agents, kept, registered⟩ := registerPendingCredential_ok found registered
      exact ⟨agents, kept, fun _ => ⟨current, registered⟩⟩

end

end Monik.Credentials
