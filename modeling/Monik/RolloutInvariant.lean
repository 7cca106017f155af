import Monik.SubmissionSteps

/-! What is true of every rollout between two transactions: earlier waves have succeeded, no later
one was released, unreleased jobs cannot be handed out, and a recorded observation window is a chain
of committed ticks. -/

namespace Monik.RolloutInvariant
open Protocol Tables ControllerStore Operations JobEvolution JobSteps Rollouts RolloutSteps
open StoreWrites SubmissionSteps

variable {since last now : Time} {ms : List RolloutMember} {r : Rollout} {x : MemberRow}
    {f : RolloutRow → RolloutRow}

structure Tick where
  time : Time
  rollout : Rollout

/-- The confirmed member's agent is present, in fresh contact, and runs the pinned worker in
the session that its receipt names. -/
def Healthy (now : Time) (m : RolloutMember) : Prop :=
  ∃ a live receipt, m.agent = some a ∧ a.revoked = false ∧ a.archived = false ∧
    a.lastLiveAt = some live ∧ now - live ≤ rolloutFreshContact ∧
    m.job.envelope.params.get "sha256" = .str a.workerDigest ∧
    m.job.result = some receipt ∧ receipt.evidence.get "session_id" = .str a.sessionId

def Tick.Stable (t : Tick) : Prop :=
  ∀ m ∈ t.rollout.members, m.target.status = .succeeded → m.row.releasedAt ≠ none →
    Healthy t.time m

/-- The interval from `since` to `last` is covered by stable ticks of rollout `id` that are
at most 15 seconds apart. -/
inductive Window (ticks : List Tick) (id : String) : Time → Time → Prop
  | start {t : Tick} (logged : t ∈ ticks) (own : t.rollout.row.operationId = id)
      (stable : t.Stable) : Window ticks id t.time t.time
  | extend {since last : Time} {t : Tick} (window : Window ticks id since last)
      (logged : t ∈ ticks) (own : t.rollout.row.operationId = id) (stable : t.Stable)
      (order : last ≤ t.time) (gap : t.time - last ≤ 15 * second) : Window ticks id since t.time

theorem Window.mono {id : String} {ticks ticks' : List Tick} (h : Window ticks id since last) (sub : ∀ t ∈ ticks, t ∈ ticks') :
    Window ticks' id since last := by
  induction h with
  | start logged own stable => exact .start (sub _ logged) own stable
  | extend _ logged own stable order gap ih => exact .extend ih (sub _ logged) own stable order gap

theorem stable_healthy {m : RolloutMember} {receipt : JobReceipt}
    (result : m.job.result = some receipt) (h : stable now m receipt) : Healthy now m := by
  simp only [stable, Bool.and_eq_true, Bool.not_eq_true', beq_iff_eq] at h
  obtain ⟨⟨⟨⟨⟨notRevoked, notArchived⟩, live⟩, -⟩, pinned⟩, session⟩ := h
  cases ha : m.agent with
  | none => simp [RolloutMember.revoked, ha] at notRevoked
  | some a =>
    simp only [RolloutMember.revoked, RolloutMember.archived, RolloutMember.liveAt,
      RolloutMember.digest, RolloutMember.session, ha, Option.all_some, Option.bind_some,
      Option.map_some, Option.getD_some] at notRevoked notArchived live pinned session
    cases hl : a.lastLiveAt with
    | none => simp [hl] at live
    | some at' =>
      simp only [hl, Option.any_some, Bool.and_eq_true, decide_eq_true_eq] at live
      exact ⟨a, at', receipt, ha, notRevoked, notArchived, hl, live.1, pinned, result, session⟩

theorem observe_healthy (h : observe now ms = .stable) :
    ∀ m ∈ ms, m.target.status = .succeeded → m.row.releasedAt ≠ none → Healthy now m := by
  induction ms with
  | nil => exact fun m hm => absurd hm List.not_mem_nil
  | cons x ms ih =>
    unfold observe at h
    intro m hm succeeded released
    split at h
    · rename_i unconfirmed
      obtain rfl | hm := List.mem_cons.mp hm
      · have : confirmed m := by
          simp [confirmed, succeeded, Option.isSome_iff_ne_none, released]
        simp [this] at unconfirmed
      · exact ih h m hm succeeded released
    · split at h
      · cases h
      · rename_i receipt result
        split at h
        · rename_i ok
          obtain rfl | hm := List.mem_cons.mp hm
          · exact stable_healthy result ok
          · exact ih h m hm succeeded released
        · cases h

theorem Ready.stable (h : Ready r now) : Tick.Stable ⟨now, r⟩ :=
  observe_healthy h.observed

def Succeeded (s : Store) (key : String × String) : Prop :=
  ∃ t j, Paired s t j ∧ t.key = key ∧ t.status = .succeeded ∧ j.status = .of .succeeded

theorem Succeeded.steps {p : Permits} {s s' : Store} {key : String × String} (h : Succeeded s key)
    (foreign : ¬p.own key) (he : Steps p s s') : Succeeded s' key := by
  obtain ⟨e⟩ := he
  obtain ⟨t, j, hp, hk, ht, hj⟩ := h
  have path := e.moves t j hp
  rw [ht, hj, ← hp.2.2, hk] at path
  have final := succeeded_final foreign path
  refine ⟨e.target t, e.job j, e.paired hp, ?_, congrArg Prod.fst final, congrArg Prod.snd final⟩
  rw [(e.target_keeps t).1, hk]

structure Machine where
  store : Store
  ticks : List Tick
  claimed : List String

structure Safe (m : Machine) : Prop where
  linked : Linked m.store
  inStep : PairInv InStep m.store
  rollout_operation : ∀ r ∈ m.store.rollouts, ∃ o ∈ m.store.operations,
    o.id = r.operationId ∧ o.action = .updateRollout
  member_rollout : ∀ x ∈ m.store.members, ∃ r ∈ m.store.rollouts, r.operationId = x.operationId
  earlier : ∀ r ∈ m.store.rollouts, ∀ x ∈ m.store.members, x.operationId = r.operationId →
    x.wave < r.wave → Succeeded m.store x.key
  reached : ∀ r ∈ m.store.rollouts, ∀ x ∈ m.store.members, x.operationId = r.operationId →
    x.releasedAt ≠ none → x.wave ≤ r.wave
  waiting : ∀ x ∈ m.store.members, x.releasedAt = none → ∀ j ∈ m.store.jobs, j.key = x.key →
    j.status = .rolloutHeld ∨ j.status.terminal
  window : ∀ r ∈ m.store.rollouts, ∀ since last, r.stableSince = some since →
    r.lastTick = some last → Window m.ticks r.operationId since last
  observed : ∀ x ∈ m.store.members, ∀ time, x.releasedAt = some time → 0 < x.wave →
    ∃ r ∈ m.store.rollouts, r.operationId = x.operationId ∧
      ∃ since, r.observeSeconds * second ≤ time - since ∧ Window m.ticks x.operationId since time
  delivered : ∀ j ∈ m.store.jobs, j.status = .delivered → j.jobId ∈ m.claimed

variable {p : Permits} {s s' : Store} {ticks ticks' : List Tick} {claimed claimed' : List String}

theorem Safe.operation_unique (h : Safe ⟨s, ticks, claimed⟩) (hx : x ∈ s.members)
    {o : OperationRow} (ho : o ∈ s.operations) (hid : o.id = x.operationId) : o.action = .updateRollout := by
  obtain ⟨r, hr, hrx⟩ := h.member_rollout x hx
  obtain ⟨o', ho', hid', hact⟩ := h.rollout_operation r hr
  rw [s.operations.eq_of_key ho ho' (hid.trans (hrx.symm.trans hid'.symm)), hact]

theorem Safe.rollout_operation_steps (h : Safe ⟨s, ticks, claimed⟩) (steps : Steps p s s')
    {r : RolloutRow} (hr : r ∈ s.rollouts) : ∃ o ∈ s'.operations, o.id = r.operationId ∧ o.action = .updateRollout := by
  obtain ⟨e⟩ := steps
  obtain ⟨o, ho, hid, hact⟩ := h.rollout_operation r hr
  exact ⟨e.operation o, e.mem_operations.mpr ⟨o, ho, rfl⟩, (e.operation_keeps o).1.trans hid,
    (e.operation_keeps o).2.trans hact⟩

theorem Safe.waiting_steps (h : Safe ⟨s, ticks, claimed⟩) (steps : Steps p s s')
    (hx : x ∈ s.members) (unreleased : x.releasedAt = none) (unfreed : ¬p.free x.key) {j' : JobRow}
    (hj' : j' ∈ s'.jobs) (hk' : j'.key = x.key) : j'.status = .rolloutHeld ∨ j'.status.terminal := by
  obtain ⟨j, hj, hk, -, kept⟩ := steps.jobs_keep
    (P := fun st => st = .rolloutHeld ∨ st.terminal) h.linked hj'
    fun _ _ m => m.held_kept (hk' ▸ unfreed)
  exact kept (h.waiting x hx unreleased j hj (hk.trans hk'))

theorem Safe.delivered_steps (h : Safe ⟨s, ticks, claimed⟩) (steps : Steps p s s')
    (unclaimed : ∀ key, ¬p.claim key) (j' : JobRow) (hj' : j' ∈ s'.jobs)
    (delivered : j'.status = .delivered) : j'.jobId ∈ claimed := by
  obtain ⟨j, hj, -, hid, kept⟩ := steps.jobs_keep (P := fun st => st ≠ .delivered) h.linked hj'
    fun _ _ m => m.undelivered (unclaimed _)
  rw [← hid]
  refine h.delivered j hj ?_
  by_contra other
  exact kept other delivered

/-- Released at `time`, in the current wave, after a window that was long enough. -/
def ReleasedNow (s : Store) (ticks : List Tick) (time : Time) (x : MemberRow) : Prop :=
  ∃ r ∈ s.rollouts, r.operationId = x.operationId ∧ x.wave = r.wave ∧
    (0 < x.wave → ∃ since, r.observeSeconds * second ≤ time - since ∧
      Window ticks x.operationId since time)

def MemberStep (p : Permits) (s : Store) (ticks : List Tick) (x x' : MemberRow) : Prop :=
  x'.key = x.key ∧ x'.wave = x.wave ∧
    (x' = x ∧ (x.releasedAt = none → ¬p.free x.key) ∨
      ∃ time, x'.releasedAt = some time ∧ ReleasedNow s ticks time x)

theorem Safe.rewrite (f : RolloutRow → RolloutRow) (h : Safe ⟨s, ticks, claimed⟩)
    (steps : Steps p s s') (foreign : ∀ x ∈ s.members, ¬p.own x.key)
    (rollouts : s'.rollouts.rows = s.rollouts.rows.map f)
    (members : ∀ x' ∈ s'.members, ∃ x ∈ s.members, MemberStep p s ticks' x x')
    (keeps : ∀ r, (f r).operationId = r.operationId ∧ (f r).observeSeconds = r.observeSeconds)
    (grows : ∀ r ∈ s.rollouts, r.wave ≤ (f r).wave)
    (passed : ∀ r ∈ s.rollouts, ∀ x ∈ s.members, x.operationId = r.operationId →
      x.wave < (f r).wave → Succeeded s x.key)
    (window : ∀ r ∈ s.rollouts, ∀ since last, (f r).stableSince = some since →
      (f r).lastTick = some last → Window ticks' r.operationId since last) (log : ∀ t ∈ ticks, t ∈ ticks')
    (delivered : ∀ j ∈ s'.jobs, j.status = .delivered → j.jobId ∈ claimed') : Safe ⟨s', ticks', claimed'⟩ := by
  have mem : ∀ r', r' ∈ s'.rollouts ↔ ∃ r ∈ s.rollouts, f r = r' := by
    intro r'
    rw [← Table.mem_rows, rollouts, List.mem_map]
    rfl
  constructor
  case linked => exact steps.linked h.linked
  case inStep => exact steps.pairInv (fun _ _ _ m => m.inStep) h.inStep
  case rollout_operation =>
    intro r' hr'
    obtain ⟨r, hr, rfl⟩ := (mem r').mp hr'
    rw [(keeps r).1]
    exact h.rollout_operation_steps steps hr
  case member_rollout =>
    intro x' hx'
    obtain ⟨x, hx, hk, -, -⟩ := members x' hx'
    obtain ⟨r, hr, same⟩ := h.member_rollout x hx
    exact ⟨f r, (mem _).mpr ⟨r, hr, rfl⟩,
      (keeps r).1.trans (same.trans (congrArg Prod.fst hk).symm)⟩
  case earlier =>
    intro r' hr' x' hx' same below
    obtain ⟨r, hr, rfl⟩ := (mem r').mp hr'
    obtain ⟨x, hx, hk, hw, -⟩ := members x' hx'
    have sameOp : x.operationId = r.operationId :=
      (congrArg Prod.fst hk).symm.trans (same.trans (keeps r).1)
    rw [hk]
    exact (passed r hr x hx sameOp (hw ▸ below)).steps (foreign x hx) steps
  case reached =>
    intro r' hr' x' hx' same released
    obtain ⟨r, hr, rfl⟩ := (mem r').mp hr'
    obtain ⟨x, hx, hk, hw, outcome⟩ := members x' hx'
    have sameOp : x.operationId = r.operationId :=
      (congrArg Prod.fst hk).symm.trans (same.trans (keeps r).1)
    rw [hw]
    refine le_trans ?_ (grows r hr)
    obtain ⟨rfl, -⟩ | ⟨_, -, row, hrow, hid, hwave, -⟩ := outcome
    · exact h.reached r hr x' hx sameOp released
    · rw [hwave, s.rollouts.eq_of_key hrow hr (hid.trans sameOp)]
  case waiting =>
    intro x' hx' unreleased j hj hk'
    obtain ⟨x, hx, -, -, ⟨rfl, unfreed⟩ | ⟨_, released, -⟩⟩ := members x' hx'
    · exact h.waiting_steps steps hx unreleased (unfreed unreleased) hj hk'
    · rw [released] at unreleased
      cases unreleased
  case window =>
    intro r' hr' since last hs hl
    obtain ⟨r, hr, rfl⟩ := (mem r').mp hr'
    rw [(keeps r).1]
    exact window r hr since last hs hl
  case observed =>
    intro x' hx' time released positive
    obtain ⟨x, hx, hk, hw, outcome⟩ := members x' hx'
    have backed : ∃ r ∈ s.rollouts, r.operationId = x.operationId ∧ ∃ since,
        r.observeSeconds * second ≤ time - since ∧ Window ticks' x.operationId since time := by
      obtain ⟨rfl, -⟩ | ⟨time', released', row, hrow, hid, -, evidence⟩ := outcome
      · obtain ⟨r, hr, same, since, long, covered⟩ := h.observed x' hx time released positive
        exact ⟨r, hr, same, since, long, covered.mono log⟩
      · rw [released', Option.some.injEq] at released
        subst released
        exact ⟨row, hrow, hid, evidence (hw ▸ positive)⟩
    obtain ⟨r, hr, same, since, long, covered⟩ := backed
    rw [show x'.operationId = x.operationId from congrArg Prod.fst hk]
    refine ⟨f r, (mem _).mpr ⟨r, hr, rfl⟩, (keeps r).1.trans same, since, ?_, covered⟩
    rw [(keeps r).2]
    exact long
  case delivered => exact delivered

theorem members_kept (members : s'.members = s.members)
    (unfreed : ∀ x ∈ s.members, x.releasedAt = none → ¬p.free x.key) :
    ∀ x' ∈ s'.members, ∃ x ∈ s.members, MemberStep p s ticks x x' := by
  intro x hx
  rw [members] at hx
  exact ⟨x, hx, rfl, rfl, .inl ⟨rfl, unfreed x hx⟩⟩

def nothing : Permits := ⟨fun _ => False, fun _ => False, fun _ => False⟩

structure Undisturbed (f : RolloutRow → RolloutRow) : Prop where
  keeps : ∀ r, (f r).operationId = r.operationId ∧ (f r).observeSeconds = r.observeSeconds
  wave : ∀ r, (f r).wave = r.wave
  window : ∀ r, (f r).stableSince = none ∨
    (f r).stableSince = r.stableSince ∧ (f r).lastTick = r.lastTick

theorem Undisturbed.ite (h : Undisturbed f) (q : RolloutRow → Bool) : Undisturbed fun r => if q r then f r else r := by
  constructor <;> intro r <;> by_cases hq : q r <;> simp only [hq, if_true]
  · exact h.keeps r
  · exact ⟨rfl, rfl⟩
  · exact h.wave r
  · rfl
  · exact h.window r
  · exact .inr ⟨rfl, rfl⟩

theorem Undisturbed.window_kept (hf : Undisturbed f)
    (h : Safe ⟨s, ticks, claimed⟩) (log : ∀ t ∈ ticks, t ∈ ticks') {r : RolloutRow}
    (hr : r ∈ s.rollouts) (hs : (f r).stableSince = some since) (hl : (f r).lastTick = some last) :
    Window ticks' r.operationId since last := by
  obtain cleared | ⟨sameSince, sameTick⟩ := hf.window r
  · rw [cleared] at hs
    cases hs
  · exact (h.window r hr since last (sameSince ▸ hs) (sameTick ▸ hl)).mono log

theorem Safe.quiet (hf : Undisturbed f) (h : Safe ⟨s, ticks, claimed⟩) (steps : Steps nothing s s')
    (rollouts : s'.rollouts.rows = s.rollouts.rows.map f) (members : s'.members = s.members)
    (log : ∀ t ∈ ticks, t ∈ ticks') : Safe ⟨s', ticks', claimed⟩ :=
  h.rewrite f steps (fun _ _ => id) rollouts (members_kept members fun _ _ _ => id) hf.keeps
    (fun r _ => (hf.wave r).ge)
    (fun r hr x hx same below => h.earlier r hr x hx same (hf.wave r ▸ below))
    (fun _ hr _ _ hs hl => hf.window_kept h log hr hs hl) log
    (h.delivered_steps steps fun _ => id)

theorem Undisturbed.refl : Undisturbed id :=
  ⟨fun _ => ⟨rfl, rfl⟩, fun _ => rfl, fun _ => .inr ⟨rfl, rfl⟩⟩

theorem Safe.same (h : Safe ⟨s, ticks, claimed⟩) (steps : Steps nothing s s')
    (same : SameRollouts s s') : Safe ⟨s', ticks, claimed⟩ :=
  h.quiet Undisturbed.refl steps (by rw [same.rollouts, List.map_id]) same.members fun _ ht => ht

theorem Safe.refresh {id : String} (h : Safe ⟨s, ticks, claimed⟩) (hr : refreshOperation s id = .ok s') :
    Safe ⟨s', ticks, claimed⟩ :=
  h.same (refreshOperation_evolves hr) (refreshOperation_same hr)

theorem Safe.setRolloutState (h : Safe ⟨s, ticks, claimed⟩) (id : String) (state : RolloutState)
    (reason : String) : Safe ⟨setRolloutState s id state reason, ticks, claimed⟩ :=
  h.quiet (Undisturbed.ite (f := fun r => { r with
      state, reason, stableSince := none, revision := r.revision + 1 })
      ⟨fun _ => ⟨rfl, rfl⟩, fun _ => rfl, fun _ => .inl rfl⟩ fun r => r.operationId == id)
    (setRolloutState_evolves s id state reason) rfl rfl fun _ ht => ht

theorem releaseMembers_members {r : RolloutRow} {expires : Time}
    (h : ms.foldlM (releaseMember r now expires) s = .ok s') :
    s'.rollouts = s.rollouts ∧ ∀ x' ∈ s'.members, ∃ x ∈ s.members, x'.key = x.key ∧ x'.wave = x.wave ∧
      (x' = x ∧ (∀ m ∈ ms, x.key ≠ (r.operationId, m.row.agentId)) ∨
        x'.releasedAt = some now ∧ ∃ m ∈ ms, x.key = (r.operationId, m.row.agentId)) := by
  induction ms generalizing s with
  | nil =>
    cases h
    exact ⟨rfl, fun x hx => ⟨x, hx, rfl, rfl, .inl ⟨rfl, fun m hm => absurd hm List.not_mem_nil⟩⟩⟩
  | cons m ms ih =>
    obtain ⟨u, hu, rest⟩ := bind_ok.mp h
    rw [releaseMember_ok hu] at rest
    obtain ⟨sameRollouts, ih⟩ := ih rest
    refine ⟨sameRollouts, fun x' hx' => ?_⟩
    obtain ⟨y, hy, hk, hw, outcome⟩ := ih x' hx'
    obtain ⟨x, hx, rfl⟩ := (Table.mem_update (f := fun row : MemberRow =>
      { row with releasedAt := some now }) fun _ => rfl).mp hy
    by_cases own : (x.operationId == r.operationId && x.agentId == m.row.agentId)
    · have key : x.key = (r.operationId, m.row.agentId) := by
        rw [Bool.and_eq_true, beq_iff_eq, beq_iff_eq] at own
        rw [MemberRow.key, own.1, own.2]
      rw [if_pos own] at hk hw outcome
      refine ⟨x, hx, hk, hw, .inr ⟨?_, m, by simp, key⟩⟩
      obtain ⟨rfl, -⟩ | ⟨released, -⟩ := outcome
      · rfl
      · exact released
    · have key : x.key ≠ (r.operationId, m.row.agentId) := by
        intro same
        simp only [MemberRow.key, Prod.mk.injEq] at same
        simp [same.1, same.2] at own
      rw [if_neg own] at hk hw outcome
      refine ⟨x, hx, hk, hw, outcome.imp ?_ ?_⟩
      · rintro ⟨rfl, others⟩
        refine ⟨rfl, fun k hm => ?_⟩
        obtain rfl | hm := List.mem_cons.mp hm
        · exact key
        · exact others k hm
      · rintro ⟨released, k, hm, same⟩
        exact ⟨released, k, List.mem_cons_of_mem m hm, same⟩

structure Frozen (s : Store) (r : Rollout) : Prop where
  jobs : ∀ m ∈ r.members, m.job ∈ s.jobs ∧ m.job.key = (r.row.operationId, m.row.agentId)
  rows : ∀ m ∈ r.members, m.row ∈ s.members ∧ m.row.operationId = r.row.operationId
  distinct : (r.members.map fun m => m.row.agentId).Nodup

theorem frozen_of_read {id : String} (h : Read s id r) : Frozen s r :=
  ⟨h.jobs, fun m hm => ⟨(h.members m hm).1.row, (h.members m hm).2.trans h.id_eq.symm⟩, h.distinct⟩

def freeing (r : Rollout) (wave : Nat) : Permits :=
  ⟨fun _ => False,
    fun key => ∃ m ∈ r.members.filter (held wave), key = (r.row.operationId, m.row.agentId),
    fun _ => False⟩

theorem Safe.releaseWave {wave : Nat} (h : Safe ⟨s, ticks, claimed⟩) (frozen : Frozen s r)
    (due : ∀ x, x.operationId = r.row.operationId → x.wave = wave → ReleasedNow s ticks now x)
    (hr : releaseWave s r wave now = .ok s') : Safe ⟨s', ticks, claimed⟩ := by
  have steps : Steps (freeing r wave) s s' := releaseWave_steps h.linked
    (fun m hm ready => ⟨m, List.mem_filter.mpr ⟨hm, ready⟩, rfl⟩) frozen.jobs frozen.distinct hr
  obtain ⟨reason, rfl⟩ | ⟨expires, u, -, hu, rfl⟩ := releaseWave_cases hr
  · exact h.setRolloutState _ _ reason
  obtain ⟨sameRollouts, members⟩ := releaseMembers_members hu
  -- a newly released row is a held member of the wave as read
  have newly : ∀ x ∈ s.members, (∃ m ∈ r.members.filter (held wave),
      x.key = (r.row.operationId, m.row.agentId)) → ReleasedNow s ticks now x := by
    rintro x hx ⟨m, hm, key⟩
    obtain ⟨hm, ready⟩ := List.mem_filter.mp hm
    obtain ⟨hrow, hop⟩ := frozen.rows m hm
    have same : x = m.row := s.members.eq_of_key hx hrow (by rw [key, MemberRow.key, hop])
    simp only [held, Bool.and_eq_true, beq_iff_eq] at ready
    exact due x (congrArg Prod.fst key) (same ▸ ready.1)
  let f : RolloutRow → RolloutRow := fun row => { row with
    stableSince := none, lastTick := some now, revision := row.revision + 1 }
  have undisturbed : Undisturbed fun row =>
      if row.operationId == r.row.operationId then f row else row :=
    Undisturbed.ite (f := f) ⟨fun _ => ⟨rfl, rfl⟩, fun _ => rfl, fun _ => .inl rfl⟩
      fun row => row.operationId == r.row.operationId
  refine h.rewrite _ steps (fun _ _ => id) ?_ ?_ undisturbed.keeps
    (fun row _ => (undisturbed.wave row).ge)
    (fun row hrow x hx same below => h.earlier row hrow x hx same (undisturbed.wave row ▸ below))
    (fun _ hrow _ _ hs hl => undisturbed.window_kept h (fun _ ht => ht) hrow hs hl)
    (fun _ ht => ht) (h.delivered_steps steps fun _ => id)
  · rw [← sameRollouts]
    rfl
  · intro x' hx'
    obtain ⟨x, hx, hk, hw, outcome⟩ := members x' hx'
    refine ⟨x, hx, hk, hw, outcome.imp ?_ ?_⟩
    · rintro ⟨rfl, others⟩
      refine ⟨rfl, fun _ => ?_⟩
      rintro ⟨m, hm, key⟩
      exact others m hm key
    · rintro ⟨released, freed⟩
      exact ⟨now, released, newly x hx freed⟩

end Monik.RolloutInvariant
