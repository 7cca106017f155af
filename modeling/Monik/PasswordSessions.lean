import Monik.ControllerStore
import Monik.Runs

/-! Browser sessions and password changes. A login reads and verifies outside the transaction that
opens the session, so `CreateSession` is called with any row, however old. For the proofs a session
remembers the hash its login verified. -/

namespace Monik.PasswordSessions
open Protocol Tables Runs
open ControllerStore (StoreError)

variable {now : Time}

structure User where
  (id username passwordHash role : String)

structure SessionRow where
  (id userId tokenHash csrf : String)
  expiresAt : Time
  recentAuthUntil : Option Time
  /-- The password hash of the row that the login verified; no column, and no query reads it. -/
  verified : String

structure Session where
  row : SessionRow
  role : String
  username : String

structure Accounts where
  users : Table User User.id
  sessions : Table SessionRow SessionRow.id
  /-- The users' password hashes so far, for the proofs. -/
  held : List (String × String)

def initial (users : Table User User.id) : Accounts :=
  ⟨users, .empty, users.rows.map fun u => (u.id, u.passwordHash)⟩

structure Draw where
  id : String
  tokenHash : String
  csrf : String
  now : Time
  ttl : Nat
  recentAuth : Nat

def createSession (s : Accounts) (user : User) (d : Draw) : Except StoreError Accounts :=
  match s.users.find? fun u => u.id == user.id with
  | none => .error .notFound
  | some current =>
    if current.passwordHash ≠ user.passwordHash then .error .conflict
    else if (s.sessions.find? fun b => b.tokenHash == d.tokenHash).isSome then .error .conflict
    else match s.sessions.insert ⟨d.id, user.id, d.tokenHash, d.csrf, d.now + d.ttl,
        some (d.now + d.recentAuth), user.passwordHash⟩ with
      | none => .error .conflict
      | some sessions => .ok { s with sessions }

def changePassword (s : Accounts) (userId expected replacement : String) : Except StoreError Accounts :=
  if userId = "" ∨ expected = "" ∨ replacement = "" ∨ expected = replacement then
    .error (.refused "invalid password replacement")
  else
    let hit := fun u : User => u.id == userId && u.passwordHash == expected
    if s.users.count hit ≠ 1 then .error .conflict
    else .ok {
      users := s.users.update hit (fun u => { u with passwordHash := replacement }) fun _ => rfl
      sessions := s.sessions.delete fun b => b.userId == userId
      held := (userId, replacement) :: s.held }

def liveSession (s : Accounts) (now : Time) (p : SessionRow → Bool) : Except StoreError Session :=
  match s.sessions.find? p with
  | none => .error .notFound
  | some b =>
    match s.users.find? fun u => u.id == b.userId with
    | none => .error .notFound
    | some u => if now < b.expiresAt then .ok ⟨b, u.role, u.username⟩ else .error .notFound

def sessionByToken (hashToken : String → String) (s : Accounts) (now : Time) (raw : String) :
    Except StoreError Session :=
  liveSession s now fun b => b.tokenHash == hashToken raw

def revalidateSession (s : Accounts) (now : Time) (previous : Session) : Except StoreError Session :=
  if previous.row.id = "" then .error .notFound
  else do
    let current ← liveSession s now fun b => b.id == previous.row.id
    if current.row.userId ≠ previous.row.userId ∨ current.row.tokenHash ≠ previous.row.tokenHash ∨
        current.row.csrf ≠ previous.row.csrf ∨ current.role ≠ previous.role ∨
        current.username ≠ previous.username then .error .conflict
    else .ok current

inductive Event
  | createSession (user : User) (d : Draw)
  | changePassword (userId expected replacement : String)
  /-- Logout, revocation of other sessions, retention. -/
  | deleteSessions (which : SessionRow → Bool)

def step (s : Accounts) : Event → Accounts
  | .createSession user d => commit s (createSession s user d)
  | .changePassword userId expected replacement => commit s (changePassword s userId expected replacement)
  | .deleteSessions which => { s with sessions := s.sessions.delete which }

/-- Password hashes are salted: no user gets a hash a second time. -/
def Fresh (s : Accounts) : Event → Prop
  | .changePassword userId _ replacement => (userId, replacement) ∉ s.held
  | _ => True

/-- Each session was opened with the password hash its user still has. -/
structure Sound (s : Accounts) : Prop where
  current : ∀ b ∈ s.sessions, ∃ u ∈ s.users, u.id = b.userId ∧ u.passwordHash = b.verified
  held : ∀ u ∈ s.users, (u.id, u.passwordHash) ∈ s.held

structure Left (user old : String) (s : Accounts) : Prop where
  held : (user, old) ∈ s.held
  other : ∃ u ∈ s.users, u.id = user ∧ u.passwordHash ≠ old

variable {s t : Accounts} {user old replacement : String}

theorem createSession_ok {u : User} {d : Draw} (h : createSession s u d = .ok t) :
    t.users = s.users ∧ t.held = s.held ∧ ∃ v ∈ s.users, v.id = u.id ∧ v.passwordHash = u.passwordHash ∧
      ∀ b ∈ t.sessions, b ∈ s.sessions ∨ b.userId = u.id ∧ b.verified = u.passwordHash := by
  unfold createSession at h
  split at h
  · cases h
  · rename_i v found
    split at h
    · cases h
    · rename_i same
      split at h
      · cases h
      · split at h
        · cases h
        · rename_i sessions inserted
          cases h
          obtain ⟨mem, own⟩ := Table.find?_key.mp found
          refine ⟨rfl, rfl, v, mem, own, not_not.mp same, ?_⟩
          intro b hb
          rcases ((Table.insert_some inserted).2 b).mp hb with before | rfl
          · exact .inl before
          · exact .inr ⟨rfl, rfl⟩

theorem changePassword_ok (h : changePassword s user old replacement = .ok t) :
    old ≠ replacement ∧ (∃ u ∈ s.users, u.id = user ∧ u.passwordHash = old) ∧ (∀ v, v ∈ t.users ↔ ∃ u ∈ s.users,
        (if u.id == user && u.passwordHash == old then { u with passwordHash := replacement } else u) = v) ∧
      t.sessions = s.sessions.delete (fun b => b.userId == user) ∧ t.held = (user, replacement) :: s.held := by
  unfold changePassword at h
  split at h
  · cases h
  · rename_i valid
    dsimp only at h
    split at h
    · cases h
    · rename_i one
      cases h
      obtain ⟨u, mem, hit⟩ := Table.exists_of_count_pos (Nat.lt_of_lt_of_eq Nat.one_pos (not_not.mp one).symm)
      simp only [Bool.and_eq_true, beq_iff_eq] at hit
      exact ⟨fun same => valid (.inr (.inr (.inr same))), ⟨u, mem, hit⟩, fun v => Table.mem_update (by intro; rfl), rfl, rfl⟩

theorem Sound.step (sound : Sound s) (e : Event) : Sound (step s e) := by
  cases e with
  | createSession u d =>
    refine commit_invariant Sound sound ?_
    intro t h
    obtain ⟨users, held, v, hv, own, same, added⟩ := createSession_ok h
    constructor
    · intro b hb
      rw [users]
      rcases added b hb with before | ⟨its, verified⟩
      · exact sound.current b before
      · exact ⟨v, hv, own.trans its.symm, same.trans verified.symm⟩
    · rw [users, held]
      exact sound.held
  | changePassword user old replacement =>
    refine commit_invariant Sound sound ?_
    intro t h
    obtain ⟨-, -, users, sessions, held⟩ := changePassword_ok h
    constructor
    · intro b hb
      rw [sessions, Table.mem_delete] at hb
      obtain ⟨u, hu, own, same⟩ := sound.current b hb.1
      -- a session that is left belongs to another user, whose row is not written
      have other : u.id ≠ user := by simpa [own] using hb.2
      exact ⟨u, (users u).mpr ⟨u, hu, by simp [other]⟩, own, same⟩
    · intro v hv
      obtain ⟨u, hu, rfl⟩ := (users v).mp hv
      rw [held]
      by_cases hit : u.id = user ∧ u.passwordHash = old
      · simp [hit]
      · simpa [hit] using .inr (sound.held u hu)
  | deleteSessions which =>
    exact ⟨fun b hb => sound.current b (Table.mem_delete.mp hb).1, sound.held⟩

theorem initial_sound (users : Table User User.id) : Sound (initial users) := by
  constructor
  · simp [initial]
  · intro u hu
    exact List.mem_map_of_mem hu

theorem Sound.left (sound : Sound s) (h : changePassword s user old replacement = .ok t) : Left user old t := by
  obtain ⟨ne, ⟨u, hu, rfl, rfl⟩, users, -, held⟩ := changePassword_ok h
  constructor
  · rw [held]
    exact .tail _ (sound.held u hu)
  · exact ⟨{ u with passwordHash := replacement }, (users _).mpr ⟨u, hu, by simp⟩, rfl, ne.symm⟩

theorem Left.step (left : Left user old s) (e : Event) (fresh : Fresh s e) : Left user old (step s e) := by
  obtain ⟨was, u, hu, own, ne⟩ := left
  have left : Left user old s := ⟨was, u, hu, own, ne⟩
  cases e with
  | createSession v d =>
    refine commit_invariant _ left ?_
    intro t h
    obtain ⟨users, held, -⟩ := createSession_ok h
    exact ⟨held ▸ was, u, users ▸ hu, own, ne⟩
  | changePassword id expected replacement =>
    refine commit_invariant _ left ?_
    intro t h
    obtain ⟨-, -, users, -, held⟩ := changePassword_ok h
    refine ⟨held ▸ .tail _ was, _, (users _).mpr ⟨u, hu, rfl⟩, ?_⟩
    split
    · rename_i hit
      simp only [Bool.and_eq_true, beq_iff_eq] at hit
      refine ⟨own, ?_⟩
      rintro rfl
      -- the hash given up is in the history, so it is not drawn again
      exact fresh (by rwa [← hit.1, own])
    · exact ⟨own, ne⟩
  | deleteSessions which => exact ⟨was, u, hu, own, ne⟩

theorem Left.refused (left : Left user old s) (t : Accounts) : changePassword s user old replacement ≠ .ok t := by
  intro h
  obtain ⟨u, hu, own, ne⟩ := left.other
  obtain ⟨-, ⟨v, hv, its, same⟩, -⟩ := changePassword_ok h
  rw [s.users.eq_of_key hv hu (its.trans own.symm)] at same
  exact ne same

variable {p : SessionRow → Bool} {a : Session}

theorem liveSession_ok : liveSession s now p = .ok a ↔ s.sessions.find? p = some a.row ∧ now < a.row.expiresAt ∧
      ∃ u ∈ s.users, u.id = a.row.userId ∧ u.role = a.role ∧ u.username = a.username := by
  unfold liveSession
  constructor
  · intro h
    split at h
    · cases h
    · rename_i b found
      split at h
      · cases h
      · rename_i u joined
        split at h
        · rename_i live
          cases h
          obtain ⟨mem, own⟩ := Table.find?_key.mp joined
          exact ⟨found, live, u, mem, own, rfl, rfl⟩
        · cases h
  · rintro ⟨found, live, u, mem, own, role, name⟩
    have joined : s.users.find? (fun v => v.id == a.row.userId) = some u := Table.find?_key.mpr ⟨mem, own⟩
    simp only [found, joined, if_pos live, role, name]

theorem Sound.accepted (sound : Sound s) (left : Left user old s) (h : liveSession s now p = .ok a) :
    ¬(a.row.userId = user ∧ a.row.verified = old) := by
  rintro ⟨its, verified⟩
  obtain ⟨v, hv, own, same⟩ := sound.current a.row (Table.find?_some (liveSession_ok.mp h).1).1
  obtain ⟨u, hu, named, ne⟩ := left.other
  rw [s.users.eq_of_key hv hu (own.trans (its.trans named.symm))] at same
  exact ne (same.trans verified)

theorem revalidateSession_live {previous : Session} (h : revalidateSession s now previous = .ok a) :
    liveSession s now (fun b => b.id == previous.row.id) = .ok a := by
  unfold revalidateSession at h
  split at h
  · cases h
  · obtain ⟨current, live, same⟩ := bind_ok.mp h
    split at same
    · cases same
    · cases same
      exact live

theorem changePassword_others (h : changePassword s user old replacement = .ok t) (other : a.row.userId ≠ user) (before : liveSession s now p = .ok a) :
    liveSession t now p = .ok a := by
  obtain ⟨-, -, users, sessions, -⟩ := changePassword_ok h
  obtain ⟨found, live, u, hu, own, rest⟩ := liveSession_ok.mp before
  refine liveSession_ok.mpr ⟨?_, live, u, (users u).mpr ⟨u, hu, by simp [own, other]⟩, own, rest⟩
  rw [sessions]
  change (s.sessions.rows.filter fun b => !(b.userId == user)).find? p = some a.row
  obtain ⟨met, l, r, rows, earlier⟩ := List.find?_eq_some_iff_append.mp found
  refine List.find?_eq_some_iff_append.mpr ⟨met, l.filter (fun b => !(b.userId == user)),
    r.filter (fun b => !(b.userId == user)), ?_, ?_⟩
  · rw [rows, List.filter_append, List.filter_cons_of_pos (by simpa using other)]
  · intro b hb
    exact earlier b (List.mem_of_mem_filter hb)

/-- After a committed change no session that verified the old hash is accepted; other users' sessions are
found as before. -/
theorem password_change_ends_sessions (hashToken : String → String) (users : Table User User.id)
    (before after : List Event)
    (fresh : Meets step Fresh (initial users) (before ++ .changePassword user old replacement :: after))
    (committed : changePassword (run step (initial users) before) user old replacement = .ok s) :
    (∀ now a, (∃ raw, sessionByToken hashToken (run step s after) now raw = .ok a) ∨
        (∃ previous, revalidateSession (run step s after) now previous = .ok a) →
      ¬(a.row.userId = user ∧ a.row.verified = old)) ∧
    (∀ again t, changePassword (run step s after) user old again ≠ .ok t) ∧
    s.sessions.rows = (run step (initial users) before).sessions.rows.filter (fun b => !(b.userId == user)) ∧
    ∀ now a, a.row.userId ≠ user →
      (∀ raw, sessionByToken hashToken (run step (initial users) before) now raw = .ok a →
        sessionByToken hashToken s now raw = .ok a) ∧
      ∀ previous, revalidateSession (run step (initial users) before) now previous = .ok a →
        revalidateSession s now previous = .ok a := by
  have start : Sound (run step (initial users) before) :=
    run_preserves Sound (fun s e h => h.step e) (initial_sound users) before
  have changed : step (run step (initial users) before) (.changePassword user old replacement) = s := by
    rw [step, committed]
    rfl
  have later : Meets step Fresh s after := by
    have rest := ((meets_append _ _ _).mp fresh).2.2
    rwa [changed] at rest
  have sound : Sound (run step s after) :=
    run_preserves Sound (fun s e h => h.step e) (changed ▸ start.step _) after
  have left : Left user old (run step s after) :=
    run_invariant (Left user old) (fun s e h ok => h.step e ok) (start.left committed) later
  refine ⟨?_, fun again t => left.refused t, ?_, ?_⟩
  · rintro now a (⟨raw, found⟩ | ⟨previous, found⟩)
    · exact sound.accepted left found
    · exact sound.accepted left (revalidateSession_live found)
  · rw [(changePassword_ok committed).2.2.2.1]
    rfl
  · intro now a other
    refine ⟨fun raw found => changePassword_others committed other found, ?_⟩
    intro previous found
    have live := revalidateSession_live found
    unfold revalidateSession at found ⊢
    rw [live] at found
    rw [changePassword_others committed other live]
    exact found

def ann : User := ⟨"u", "ann", "h0", "owner"⟩

def twoUsers : Table User User.id := ⟨[ann, ⟨"v", "ben", "k0", "viewer"⟩], by decide⟩

def logins : List Event :=
  [.createSession ann ⟨"s1", "t1", "c1", 0, 100, 10⟩,
    .createSession ⟨"v", "ben", "k0", "viewer"⟩ ⟨"s2", "t2", "c2", 0, 100, 10⟩]

/-- A login that has read the old row calls `CreateSession` after the change. -/
def lateLogin : Event := .createSession ann ⟨"s3", "t3", "c3", 1, 100, 10⟩

theorem stale_login_leaves_no_session :
    let opened := run step (initial twoUsers) logins
    let changed := step opened (.changePassword "u" "h0" "h1")
    (opened.sessions.rows.map fun b => (b.userId, b.verified)) = [("u", "h0"), ("v", "k0")] ∧
      (∀ now raw a, sessionByToken id (step changed lateLogin) now raw = .ok a →
        ¬(a.row.userId = "u" ∧ a.row.verified = "h0")) ∧
      (sessionByToken id changed 5 "t2").toOption.map (·.username) = some "ben" := by
  have fresh : Meets step Fresh (initial twoUsers)
      (logins ++ .changePassword "u" "h0" "h1" :: [lateLogin]) := by
    refine ⟨trivial, trivial, ?_, trivial, trivial⟩
    show ("u", "h1") ∉ [("u", "h0"), ("v", "k0")]
    decide
  have law := password_change_ends_sessions id twoUsers logins [lateLogin] fresh
    (show changePassword _ "u" "h0" "h1" =
      .ok (step (run step (initial twoUsers) logins) (.changePassword "u" "h0" "h1")) by rfl)
  refine ⟨by decide +kernel, fun now raw a found => law.1 now a (.inl ⟨raw, found⟩), ?_⟩
  rw [(law.2.2.2 5 ⟨⟨"s2", "v", "t2", "c2", 100, some 10, "k0"⟩, "viewer", "ben"⟩ (by decide)).1 "t2" (by rfl)]
  rfl

end Monik.PasswordSessions
