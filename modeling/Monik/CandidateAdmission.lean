import Mathlib.Data.List.Induction
import Monik.Registration
import Monik.Runs

/-! Candidates over whole runs of announcements, the admission window, owners' decisions and the
clock, while the rest of the database changes freely. -/

namespace Monik.CandidateAdmission
open Protocol Tables ControllerStore Registration Runs

variable {c : CandidateRow} {t : Table CandidateRow CandidateRow.id} {p : CandidateRow → Bool}

structure Controller where
  registry : Registry
  clock : Time

/-- A transaction reads the clock several times; what elapses between two readings is part of the
event. -/
inductive Event
  | announce (req : Announcement) (ip : String) (toPolicy toInsert : Nat)
  | setAdmission (base minutes : Int) (actor : String) (toUntil : Nat)
  | decide (id fingerprint : String) (approve : Bool) (toFresh : Nat)
  | other (store : Store)
  | tick (elapsed : Nat)

def readings (m : Controller) (toPolicy toInsert : Nat) : AnnounceClock :=
  ⟨m.clock, m.clock + toPolicy, m.clock + toPolicy + toInsert⟩

def step (h : Hashes) (m : Controller) : Event → Controller
  | .announce req ip toPolicy toInsert =>
    ⟨commit m.registry ((announce h m.registry req ip (readings m toPolicy toInsert)).map Prod.fst),
      m.clock + toPolicy + toInsert⟩
  | .setAdmission base minutes actor toUntil =>
    ⟨commit m.registry (setAdmission m.registry base minutes actor m.clock (m.clock + toUntil)),
      m.clock + toUntil⟩
  | .decide id fingerprint approve toFresh =>
    ⟨commit m.registry (decideCandidate h m.registry id fingerprint approve m.clock (m.clock + toFresh)),
      m.clock + toFresh⟩
  | .other store => { m with registry := { m.registry with store } }
  | .tick elapsed => { m with clock := m.clock + elapsed }

def initial (clock : Time) : Controller := ⟨.empty, clock⟩

structure Continues (c c' : CandidateRow) : Prop where
  id : c'.id = c.id
  verifier : c'.credentialHash = c.credentialHash
  fingerprint : c'.fingerprint = c.fingerprint
  expiresAt : c'.expiresAt = c.expiresAt
  decision : c.state ≠ .pending → c'.state = c.state

theorem Continues.refl (c : CandidateRow) : Continues c c := ⟨rfl, rfl, rfl, rfl, fun _ => rfl⟩

theorem Continues.trans {c' c'' : CandidateRow} (first : Continues c c') (second : Continues c' c'') :
    Continues c c'' where
  id := second.id.trans first.id
  verifier := second.verifier.trans first.verifier
  fingerprint := second.fingerprint.trans first.fingerprint
  expiresAt := second.expiresAt.trans first.expiresAt
  decision := fun decided => by
    have kept := first.decision decided
    exact (second.decision (by rwa [kept])).trans kept

def Drops (m : Controller) (e : Event) (c : CandidateRow) : Prop :=
  ∃ req ip toPolicy toInsert, e = .announce req ip toPolicy toInsert ∧
    (c.expiresAt ≤ m.clock ∨ c.id = req.agentId ∧ c.state = .approved)

def Records (h : Hashes) (m : Controller) (e : Event) (c : CandidateRow) : Prop :=
  ∃ req ip toPolicy toInsert policy, e = .announce req ip toPolicy toInsert ∧
    admissionPolicy m.registry (m.clock + toPolicy) = .ok policy ∧ policy.isOpen ∧
    c = newCandidate h req ip (readings m toPolicy toInsert)

def Announces (h : Hashes) (m : Controller) (e : Event) (c : CandidateRow) : Prop :=
  ∃ req ip toPolicy toInsert, e = .announce req ip toPolicy toInsert ∧ req.agentId = c.id ∧
    h.hashToken req.credential = c.credentialHash ∧ m.clock = c.lastSeenAt

variable {h : Hashes} {m : Controller} {e : Event}

theorem Records.announces (recorded : Records h m e c) : Announces h m e c := by
  obtain ⟨req, ip, toPolicy, toInsert, -, rfl, -, -, rfl⟩ := recorded
  exact ⟨req, ip, toPolicy, toInsert, rfl, rfl, rfl, rfl⟩

structure Moves (h : Hashes) (m : Controller) (e : Event) (candidates : Table CandidateRow CandidateRow.id) :
    Prop where
  old : ∀ c ∈ m.registry.candidates, (∃ c' ∈ candidates, Continues c c') ∨ Drops m e c
  new : ∀ c' ∈ candidates, Records h m e c' ∨
    ∃ c ∈ m.registry.candidates, Continues c c' ∧ (c'.lastSeenAt = c.lastSeenAt ∨ Announces h m e c')
  bound : m.registry.candidates.rows.length ≤ candidateCapacity → candidates.rows.length ≤ candidateCapacity

theorem Moves.refl (h : Hashes) (m : Controller) (e : Event) : Moves h m e m.registry.candidates :=
  ⟨fun c hc => .inl ⟨c, hc, .refl c⟩, fun c hc => .inr ⟨c, hc, .refl c, .inl rfl⟩, id⟩

theorem Moves.delete (moved : Moves h m e t)
    (drops : ∀ c ∈ m.registry.candidates, ∀ c' ∈ t, Continues c c' → p c' → Drops m e c) :
    Moves h m e (t.delete p) where
  old := fun c hc => by
    obtain ⟨c', hc', same⟩ | dropped := moved.old c hc
    · by_cases gone : p c'
      · exact .inr (drops c hc c' hc' same gone)
      · exact .inl ⟨c', Table.mem_delete.mpr ⟨hc', by simpa using gone⟩, same⟩
    · exact .inr dropped
  new := fun c' hc' => moved.new c' (Table.mem_delete.mp hc').1
  bound := fun few => (List.length_filter_le _ _).trans (moved.bound few)

theorem Moves.update
    {f : CandidateRow → CandidateRow} (moved : Moves h m e t) (stored : ∀ c ∈ t, c ∈ m.registry.candidates)
    (keep : ∀ c, (f c).id = c.id)
    (same : ∀ c ∈ t, p c → Continues c (f c) ∧ ((f c).lastSeenAt = c.lastSeenAt ∨ Announces h m e (f c))) :
    Moves h m e (t.update p f keep) where
  old := fun c hc => by
    refine (moved.old c hc).imp_left ?_
    rintro ⟨c', hc', first⟩
    refine ⟨_, (Table.mem_update keep).mpr ⟨c', hc', rfl⟩, ?_⟩
    split
    · rename_i selected
      exact first.trans (same c' hc' selected).1
    · exact first
  new := fun c'' hc'' => by
    obtain ⟨c', hc', rfl⟩ := (Table.mem_update keep).mp hc''
    split
    · rename_i selected
      exact .inr ⟨c', stored c' hc', same c' hc' selected⟩
    · exact moved.new c' hc'
  bound := fun few => by
    change (t.rows.map _).length ≤ _
    rw [List.length_map]
    exact moved.bound few

theorem Moves.insert {u : Table CandidateRow CandidateRow.id} (moved : Moves h m e t)
    (room : t.rows.length < candidateCapacity) (recorded : Records h m e c) (inserted : t.insert c = some u) :
    Moves h m e u where
  old := fun b hb => (moved.old b hb).imp_left fun ⟨b', hb', same⟩ =>
    ⟨b', ((Table.insert_some inserted).2 b').mpr (.inl hb'), same⟩
  new := fun b hb => by
    obtain old | rfl := ((Table.insert_some inserted).2 b).mp hb
    · exact moved.new b old
    · exact .inl recorded
  bound := fun _ => by
    rw [Table.insert_rows inserted, List.length_append]
    exact room

theorem step_moves (h : Hashes) (m : Controller) (e : Event) : Moves h m e (step h m e).registry.candidates := by
  cases e with
  | announce req ip toPolicy toInsert =>
    refine commit_invariant (fun u : Registry => Moves h m _ u.candidates) (.refl h m _) fun u mapped => ?_
    obtain ⟨⟨u, state, created⟩, ok, rfl⟩ := map_ok mapped
    have dropped : Moves h m (.announce req ip toPolicy toInsert) (dropExpired m.registry m.clock).candidates := by
      refine (Moves.refl h m _).delete fun c _ c' _ same expired => ⟨req, ip, toPolicy, toInsert, rfl, .inl ?_⟩
      rw [← same.expiresAt]
      exact of_decide_eq_true expired
    have stored : ∀ c ∈ (dropExpired m.registry m.clock).candidates, c ∈ m.registry.candidates :=
      fun c hc => (Table.mem_delete.mp hc).1
    cases announce_ok ok with
    | enrolled a found active current =>
      refine dropped.delete fun c hc c' hc' same collected => ⟨req, ip, toPolicy, toInsert, rfl, .inr ?_⟩
      have equal : c = c' := m.registry.candidates.eq_of_key hc (stored c' hc') same.id.symm
      simpa [equal] using collected
    | polled c hc named current pending =>
      refine dropped.update (f := fun c => { c with lastSeenAt := m.clock }) stored (fun _ => rfl)
        fun b hb selected => ⟨⟨rfl, rfl, rfl, rfl, fun _ => rfl⟩, .inr ?_⟩
      rw [beq_iff_eq] at selected
      obtain rfl := (dropExpired m.registry m.clock).candidates.eq_of_key hb hc (selected.trans named.symm)
      exact ⟨req, ip, toPolicy, toInsert, rfl, named.symm, current.symm, rfl⟩
    | unchanged => exact dropped
    | recorded policy candidates current open_ room inserted =>
      exact dropped.insert room ⟨req, ip, toPolicy, toInsert, policy, rfl, current, open_, rfl⟩ inserted
  | setAdmission base minutes actor toUntil =>
    refine commit_invariant (fun u : Registry => Moves h m _ u.candidates) (.refl h m _) fun u ok => ?_
    obtain ⟨admission, rfl⟩ := setAdmission_ok ok
    exact .refl h m _
  | decide id fingerprint approve toFresh =>
    refine commit_invariant (fun u : Registry => Moves h m _ u.candidates) (.refl h m _) fun u ok => ?_
    obtain ⟨c, hc, named, -, rest⟩ := decideCandidate_ok ok
    have decides : c.state = .pending → ∀ state, Moves h m (.decide id fingerprint approve toFresh)
        (recordDecision m.registry id state).candidates := fun pending state => by
      refine (Moves.refl h m _).update (f := fun c => { c with state := state }) (fun _ hb => hb) (fun _ => rfl)
        fun b hb selected => ⟨⟨rfl, rfl, rfl, rfl, fun decided => ?_⟩, .inl rfl⟩
      rw [beq_iff_eq] at selected
      obtain rfl := m.registry.candidates.eq_of_key hb hc (selected.trans named.symm)
      exact absurd pending decided
    obtain rfl | ⟨pending, -, rfl | ⟨-, v, added, rfl⟩⟩ := rest
    · exact .refl h m _
    · exact decides pending .rejected
    · have moved := decides pending .approved
      unfold recordDecision at moved ⊢
      rwa [added.candidates]
  | other store => exact .refl h m _
  | tick elapsed => exact .refl h m _

theorem run_bound (h : Hashes) (clock : Time) (events : List Event) :
    (run (step h) (initial clock) events).registry.candidates.rows.length ≤ candidateCapacity :=
  run_preserves (fun m => m.registry.candidates.rows.length ≤ candidateCapacity)
    (fun m e few => (step_moves h m e).bound few) (Nat.zero_le _) events

def Lives (h : Hashes) (m : Controller) (events : List Event) (c : CandidateRow) : Prop :=
  (∃ c' ∈ (run (step h) m events).registry.candidates, Continues c c') ∨
    ∃ mid e rest, events = mid ++ e :: rest ∧
      ∃ c' ∈ (run (step h) m mid).registry.candidates, Continues c c' ∧ Drops (run (step h) m mid) e c'

theorem run_lives (hc : c ∈ m.registry.candidates) (events : List Event) : Lives h m events c := by
  induction events generalizing m c with
  | nil => exact .inl ⟨c, hc, .refl c⟩
  | cons e rest ih =>
    obtain ⟨c', hc', same⟩ | dropped := (step_moves h m e).old c hc
    · obtain ⟨c'', hc'', later⟩ | ⟨mid, e', rest', rfl, c'', hc'', later, dropped⟩ := ih hc'
      · exact .inl ⟨c'', hc'', same.trans later⟩
      · exact .inr ⟨e :: mid, e', rest', rfl, c'', hc'', same.trans later, dropped⟩
    · exact .inr ⟨[], e, rest, rfl, c, hc, .refl c, dropped⟩

theorem run_announced (h : Hashes) (clock : Time) (events : List Event) :
    ∀ c ∈ (run (step h) (initial clock) events).registry.candidates,
      ∃ mid e rest, events = mid ++ e :: rest ∧ Announces h (run (step h) (initial clock) mid) e c := by
  induction events using List.reverseRecOn with
  | nil => exact fun c hc => absurd hc (Table.not_mem_empty c)
  | append_singleton events e ih =>
    intro c' hc'
    rw [run_append, run_cons, run_nil] at hc'
    obtain recorded | ⟨c, hc, same, seen | announced⟩ := (step_moves h _ e).new c' hc'
    · exact ⟨events, e, [], rfl, recorded.announces⟩
    · obtain ⟨mid, e', rest, rfl, req, ip, toPolicy, toInsert, rfl, named, verifier, time⟩ := ih c hc
      refine ⟨mid, _, rest ++ [e], by simp, req, ip, toPolicy, toInsert, rfl, named.trans same.id.symm,
        verifier.trans same.verifier.symm, time.trans seen.symm⟩
    · exact ⟨events, e, [], rfl, announced⟩

theorem decide_adds {id fingerprint : String} {approve : Bool} {toFresh : Nat} {a : AgentRow}
    (added : a ∈ (step h m (.decide id fingerprint approve toFresh)).registry.store.agents)
    (new : a ∉ m.registry.store.agents) :
    ∃ c ∈ m.registry.candidates, c.id = id ∧ c.fingerprint = fingerprint ∧ c.state = .pending ∧
      m.clock < c.expiresAt ∧ m.clock + toFresh - announcementFreshness ≤ c.lastSeenAt ∧
      a.id = id ∧ a.credentialHash = c.credentialHash := by
  simp only [step] at added
  cases ok : decideCandidate h m.registry id fingerprint approve m.clock (m.clock + toFresh) with
  | error e =>
    rw [ok] at added
    exact absurd added new
  | ok u =>
    rw [ok] at added
    obtain ⟨c, hc, named, printed, rfl | ⟨pending, live, rfl | ⟨fresh, v, identity, rfl⟩⟩⟩ := decideCandidate_ok ok
    · exact absurd added new
    · exact absurd added new
    · obtain old | rfl := (identity.agents a).mp added
      · exact absurd old new
      · exact ⟨c, hc, named, printed, pending, live, fresh, rfl, rfl⟩

/-- At most a hundred candidates, each recorded while the window is open and decided once; an approval needs
a pending, unexpired candidate announced in the last two minutes. -/
theorem candidate_admission_sound (h : Hashes) (clock : Time) (before : List Event) :
    let m := run (step h) (initial clock) before
    m.registry.candidates.rows.length ≤ candidateCapacity ∧
      (∀ c ∈ m.registry.candidates, ∀ after, Lives h m after c) ∧
      (∀ e, ∀ c' ∈ (step h m e).registry.candidates,
        (∃ c ∈ m.registry.candidates, Continues c c') ∨ Records h m e c') ∧
      ∀ id fingerprint approve toFresh,
        ∀ a ∈ (step h m (.decide id fingerprint approve toFresh)).registry.store.agents,
          a ∉ m.registry.store.agents →
            ∃ c ∈ m.registry.candidates, c.id = id ∧ c.fingerprint = fingerprint ∧ c.state = .pending ∧
              m.clock < c.expiresAt ∧ m.clock + toFresh - announcementFreshness ≤ c.lastSeenAt ∧
              a.id = id ∧ a.credentialHash = c.credentialHash ∧
              ∃ mid e rest, before = mid ++ e :: rest ∧ Announces h (run (step h) (initial clock) mid) e c := by
  intro m
  refine ⟨run_bound h clock before, fun c hc after => run_lives hc after, fun e c' hc' => ?_, ?_⟩
  · obtain recorded | ⟨c, hc, same, -⟩ := (step_moves h m e).new c' hc'
    · exact .inr recorded
    · exact .inl ⟨c, hc, same⟩
  · intro id fingerprint approve toFresh a added new
    obtain ⟨c, hc, named, printed, pending, live, fresh, agent, verifier⟩ := decide_adds added new
    exact ⟨c, hc, named, printed, pending, live, fresh, agent, verifier, run_announced h clock before c hc⟩

end Monik.CandidateAdmission
