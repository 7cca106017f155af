import Monik.RolloutInvariant
import Monik.ServerSteps

/-! Each transaction that touches rollouts, their members or their jobs keeps `Safe`. -/

namespace Monik.RolloutSafety
open Protocol Tables ControllerStore Operations JobEvolution JobSteps Rollouts RolloutSteps
open StoreWrites Submission SubmissionSteps ServerSteps RolloutInvariant

variable {s s' : Store} {ticks : List Tick} {claimed : List String}

variable {op agent release : String} {r : Rollout} {now : Time} {x : MemberRow} {j' : JobRow}
    {out : List JobEnvelope} {ms : List MemberRow} {plan : List PreparedUpdateTarget}

section

variable (h : Safe ⟨s, ticks, claimed⟩)
include h

theorem Safe.log (more : List Tick) : Safe ⟨s, ticks ++ more, claimed⟩ :=
  h.quiet Undisturbed.refl (Evolves.refl s) (by rw [List.map_id]) rfl
    fun _ ht => List.mem_append_left more ht

theorem windowStart_covered (read : Read s op r) (ready : Ready r now) :
    Window (ticks ++ [⟨now, r⟩]) r.row.operationId (windowStart r.row now) now := by
  have logged : (⟨now, r⟩ : Tick) ∈ ticks ++ [⟨now, r⟩] := by simp
  have fresh : Window (ticks ++ [⟨now, r⟩]) r.row.operationId now now :=
    .start logged rfl (Ready.stable ready)
  unfold windowStart
  split
  · rename_i since last hs hl
    split
    · exact fresh
    · rename_i near
      rw [not_or] at near
      have before := (h.window r.row read.row since last hs hl).mono
        fun _ ht => List.mem_append_left [⟨now, r⟩] ht
      exact .extend before logged rfl (Ready.stable ready) (not_lt.mp near.1) (not_lt.mp near.2)
  · exact fresh

theorem Ready.wave_succeeded (read : Read s op r) (ready : Ready r now)
    (hx : x ∈ s.members) (own : x.operationId = r.row.operationId) (current : x.wave = r.row.wave) :
    Succeeded s x.key := by
  obtain ⟨m, hm, rfl⟩ := read.all x hx (own.trans read.id_eq)
  have joined := (read.members m hm).1
  have done := ready.succeeded m (List.mem_filter.mpr ⟨hm, by simp [current]⟩)
  exact ⟨m.target, m.job, joined.paired, joined.target_key, done,
    (h.inStep _ _ joined.paired).success done⟩

theorem Safe.saveWindow (read : Read s op r) (ready : Ready r now) :
    Safe ⟨saveWindow s r.row.operationId (windowStart r.row now) now, ticks ++ [⟨now, r⟩], claimed⟩ := by
  have steps : Steps nothing s (Rollouts.saveWindow s r.row.operationId (windowStart r.row now) now) :=
    evolves_of_eq rfl rfl rfl
  refine h.rewrite (fun row => if row.operationId == r.row.operationId then
      { row with stableSince := some (windowStart r.row now), lastTick := some now } else row)
    steps (fun _ _ => id) rfl (members_kept rfl fun _ _ _ => id) ?_ ?_ ?_ ?_
    (fun _ ht => List.mem_append_left _ ht) (h.delivered_steps steps fun _ => id)
  · intro row
    split <;> exact ⟨rfl, rfl⟩
  · intro row _
    split <;> exact le_refl _
  · intro row hrow x hx same below
    refine h.earlier row hrow x hx same ?_
    revert below
    split <;> exact id
  · intro row hrow since last
    split
    · rename_i own
      rintro ⟨⟩ ⟨⟩
      rw [beq_iff_eq.mp own]
      exact windowStart_covered h read ready
    · intro hs hl
      exact (h.window row hrow since last hs hl).mono fun _ ht => List.mem_append_left _ ht

theorem Safe.setWave (read : Read s op r) (ready : Ready r now) :
    Safe ⟨setWave s r.row.operationId (r.row.wave + 1), ticks, claimed⟩ := by
  have steps : Steps nothing s (Rollouts.setWave s r.row.operationId (r.row.wave + 1)) :=
    setWave_evolves s r.row.operationId (r.row.wave + 1)
  have own : ∀ row ∈ s.rollouts, row.operationId = r.row.operationId → row = r.row :=
    fun row hrow same => s.rollouts.eq_of_key hrow read.row same
  refine h.rewrite (fun row => if row.operationId == r.row.operationId then
      { row with wave := r.row.wave + 1, stableSince := none } else row)
    steps (fun _ _ => id) rfl (members_kept rfl fun _ _ _ => id) ?_ ?_ ?_ ?_
    (fun _ ht => ht) (h.delivered_steps steps fun _ => id)
  · intro row
    split <;> exact ⟨rfl, rfl⟩
  · intro row hrow
    split
    · rename_i same
      rw [own row hrow (beq_iff_eq.mp same)]
      exact Nat.le_succ _
    · exact le_refl _
  · intro row hrow x hx sameOp
    split
    · rename_i same
      have eq := own row hrow (beq_iff_eq.mp same)
      intro below
      obtain earlier | current := Nat.lt_succ_iff_lt_or_eq.mp below
      · exact h.earlier r.row read.row x hx (eq ▸ sameOp) earlier
      · exact Ready.wave_succeeded h read ready hx (eq ▸ sameOp) current
    · exact h.earlier row hrow x hx sameOp
  · intro row hrow since last
    split
    · intro hs
      cases hs
    · exact h.window row hrow since last

theorem Safe.advanceWindow (read : Read s op r) (ready : Ready r now) (hw : advanceWindow s r now = .ok s') :
    Safe ⟨s', ticks ++ [⟨now, r⟩], claimed⟩ := by
  obtain rfl | ⟨reason, hr⟩ | ⟨long, u, hu, hr⟩ := advanceWindow_cases hw
  · exact Safe.saveWindow h read ready
  · exact ((Safe.log h _).setRolloutState _ _ reason).refresh hr
  · have covered := windowStart_covered h read ready
    have next := Safe.log (Safe.setWave h read ready) [⟨now, r⟩]
    refine (next.releaseWave ?_ ?_ hu).refresh hr
    · have frozen := frozen_of_read read
      exact ⟨frozen.jobs, frozen.rows, frozen.distinct⟩
    · intro x hx hwave
      rw [ReleasedNow, hx]
      refine ⟨{ r.row with wave := r.row.wave + 1, stableSince := none }, ?_, rfl, hwave,
        fun _ => ⟨_, long, covered⟩⟩
      exact (Table.mem_update (f := fun row : RolloutRow =>
        { row with wave := r.row.wave + 1, stableSince := none }) fun _ => rfl).mpr
        ⟨r.row, read.row, by simp⟩

theorem Safe.advanceRollout (read : Read s op r) (ha : advanceRollout s r now = .ok s') :
    Safe ⟨s', ticks ++ [⟨now, r⟩], claimed⟩ := by
  obtain rfl | ⟨state, reason, -, hr⟩ | ⟨ready, hw⟩ := advanceRollout_cases ha
  · exact Safe.log h _
  · exact ((Safe.log h _).setRolloutState _ state reason).refresh hr
  · exact Safe.advanceWindow h read ready hw

end

def readings (now : Time) : List String → Store → List Tick
  | [], _ => []
  | id :: ids, s =>
    match readRollout s id with
    | .error _ => []
    | .ok r => ⟨now, r⟩ :: (match Rollouts.advanceRollout s r now with
      | .error _ => []
      | .ok s => readings now ids s)

theorem Safe.advanceAll {ids : List String} (h : Safe ⟨s, ticks, claimed⟩)
    (ha : ids.foldlM (advanceOne now) s = .ok s') : Safe ⟨s', ticks ++ readings now ids s, claimed⟩ := by
  induction ids generalizing s ticks with
  | nil =>
    cases ha
    simpa [readings] using h
  | cons id ids ih =>
    obtain ⟨u, hu, rest⟩ := bind_ok.mp ha
    obtain ⟨r, hr, hstep⟩ := bind_ok.mp hu
    have later := ih (Safe.advanceRollout h (readRollout_ok hr) hstep) rest
    simpa [readings, hr, hstep] using later

def ticksOf (s : Store) (expireNow now : Time) : List Tick :=
  match expireAndBlockJobs s expireNow with
  | .error _ => []
  | .ok s =>
    match advanceActive s now with
    | .error _ => []
    | .ok _ => readings now (activeIds s) s

theorem Safe.expire (h : Safe ⟨s, ticks, claimed⟩) (he : expireAndBlockJobs s now = .ok s') :
    Safe ⟨s', ticks, claimed⟩ :=
  h.same (expireAndBlockJobs_steps h.linked he) (expireAndBlockJobs_writes he).same

theorem Safe.advanceRollouts (h : Safe ⟨s, ticks, claimed⟩) (expireNow now : Time) :
    Safe ⟨(advanceRollouts s expireNow now).1, ticks ++ ticksOf s expireNow now, claimed⟩ := by
  cases hu : expireAndBlockJobs s expireNow with
  | error e => simpa [Rollouts.advanceRollouts, ticksOf, hu] using h
  | ok u =>
    have expired := Safe.expire h hu
    cases hv : advanceActive u now with
    | error e => simpa [Rollouts.advanceRollouts, ticksOf, hu, hv] using expired
    | ok v => simpa [Rollouts.advanceRollouts, ticksOf, hu, hv] using Safe.advanceAll expired hv

theorem deliver_delivered {env : JobEnvelope}
    (hj' : j' ∈ (deliver agent now s env).jobs) (hd : j'.status = .delivered) :
    (∃ j ∈ s.jobs, j.jobId = j'.jobId ∧ j.status = .delivered) ∨ j'.jobId = env.jobId := by
  obtain ⟨j, hj, rfl⟩ := (mem_setJobs (f := fun j : JobRow => { j with
    status := .delivered, deliveredAt := some (j.deliveredAt.getD now) }) fun _ => rfl).mp hj'
  by_cases sel : (j.jobId == env.jobId && j.agentId == agent &&
      (j.status == .of .queued || j.status == .of .waitingOffline))
  · rw [if_pos sel]
    simp only [Bool.and_eq_true, beq_iff_eq] at sel
    exact .inr sel.1.1
  · rw [if_neg sel] at hd ⊢
    exact .inl ⟨j, hj, rfl, hd⟩

theorem delivers_delivered (hj' : j' ∈ (out.foldl (deliver agent now) s).jobs) (hd : j'.status = .delivered) :
    (∃ j ∈ s.jobs, j.jobId = j'.jobId ∧ j.status = .delivered) ∨ j'.jobId ∈ out.map JobEnvelope.jobId := by
  induction out generalizing s with
  | nil => exact .inl ⟨j', hj', rfl, hd⟩
  | cons env out ih =>
    obtain ⟨j, hj, hid, hjd⟩ | later := ih hj'
    · obtain ⟨k, hk, hkid, hkd⟩ | same := deliver_delivered hj hjd
      · exact .inl ⟨k, hk, hkid.trans hid, hkd⟩
      · exact .inr (by simp [← hid, same])
    · exact .inr (List.mem_cons_of_mem _ later)

def claiming : Permits := ⟨fun _ => True, fun _ => False, fun _ => False⟩

theorem Safe.claimJobs {limit : Int} {authority : JobEnvelope → Except StoreError Bool}
    (h : Safe ⟨s, ticks, claimed⟩) (hc : claimJobs s agent limit now authority = .ok (s', out)) :
    Safe ⟨s', ticks, claimed ++ out.map JobEnvelope.jobId⟩ := by
  have steps : Steps claiming s s' := claimJobs_steps (fun _ => trivial) hc
  have same := (claimJobs_writes hc).same
  refine h.rewrite id steps (fun _ _ => id) (by rw [same.rollouts, List.map_id])
    (members_kept same.members fun _ _ _ => id) (fun _ => ⟨rfl, rfl⟩) (fun _ _ => le_refl _)
    (fun r hr x hx => h.earlier r hr x hx) (fun r hr since last hs hl => h.window r hr since last hs hl)
    (fun _ ht => ht) ?_
  intro j' hj' hd
  obtain ⟨envs, -, he⟩ := bind_ok.mp hc
  cases he
  rw [List.mem_append]
  obtain ⟨j, hj, hid, hjd⟩ | now := delivers_delivered hj' hd
  · exact .inl (hid ▸ h.delivered j hj hjd)
  · exact .inr now

theorem Safe.claimPendingJobs (h : Safe ⟨s, ticks, claimed⟩) (agent : String) (limit : Int)
    (expireNow tickNow now : Time) (authority : JobEnvelope → Except StoreError Bool) :
    Safe ⟨(claimPendingJobs s agent limit expireNow tickNow now authority).1, ticks ++ ticksOf s expireNow tickNow,
      claimed ++ (claimPendingJobs s agent limit expireNow tickNow now authority).2.map JobEnvelope.jobId⟩ := by
  have ticked := Safe.advanceRollouts h expireNow tickNow
  obtain same | ⟨v, out, hv, same⟩ :=
    claimPendingJobs_cases s agent limit expireNow tickNow now authority
  · rw [same]
    simpa using ticked
  · rw [same]
    exact Safe.claimJobs ticked hv

theorem placeMembers_mem {acc : List MemberRow × List MemberRow}
    (h : x ∈ (ms.foldl placeMember acc).1 ∨ x ∈ (ms.foldl placeMember acc).2) : x ∈ acc.1 ∨ x ∈ acc.2 ∨ x ∈ ms := by
  induction ms generalizing acc with
  | nil => exact h.imp id .inl
  | cons m ms ih =>
    have placed := ih h
    unfold placeMember at placed
    split at placed <;>
      simp only [List.mem_append, List.mem_cons, List.not_mem_nil, or_false] at placed ⊢
    all_goals tauto

theorem canaries_mem (h : x ∈ (canaries ms).1 ∨ x ∈ (canaries ms).2) : x ∈ ms := by
  have placed := placeMembers_mem h
  simpa using placed

theorem assignWaves_mem {batch : Nat} (h : x ∈ (assignWaves ms batch).1) :
    ∃ m ∈ ms, x.key = m.key ∧ x.releasedAt = m.releasedAt := by
  simp only [assignWaves, List.mem_append, List.mem_mapIdx] at h
  have back : ∀ m, m ∈ (canaries (ms.insertionSort byPlatform)).1 ∨
      m ∈ (canaries (ms.insertionSort byPlatform)).2 → m ∈ ms := by
    intro m hm
    have := canaries_mem hm
    rwa [List.mem_insertionSort] at this
  obtain ⟨i, hi, rfl⟩ | ⟨i, hi, rfl⟩ := h
  · exact ⟨_, back _ (.inl (List.getElem_mem hi)), rfl, rfl⟩
  · exact ⟨_, back _ (.inr (List.getElem_mem hi)), rfl, rfl⟩

theorem holdTarget_held {x : PreparedUpdateTarget} (hl : Linked s)
    (h : holdTarget op release s x = .ok s') (hj' : j' ∈ s'.jobs) (hk : j'.key = (op, x.agentId)) :
    j'.status = .rolloutHeld := by
  unfold holdTarget at h
  split at h
  · cases h
  · split at h
    · cases h
    · rename_i j hfind
      obtain ⟨hj, key⟩ := found_job op x.agentId hfind (by
        simp only [Bool.and_eq_true, beq_iff_eq]
        exact fun h => h.1)
      dsimp only at h
      split_ifs at h
      rw [(updateTarget_ok h).1] at hj'
      obtain ⟨k, hkm, rfl⟩ := List.mem_map.mp hj'
      by_cases same : k.jobId = j.jobId
      · simp [same]
      · have other : ¬(k.jobId == j.jobId) := by simpa using same
        rw [if_neg other] at hk
        exact absurd (congrArg JobRow.jobId (hl.same_job hkm hj (hk.trans key.symm))) same

theorem holdTargets_held (hl : Linked s) (h : plan.foldlM (holdTarget op release) s = .ok s') :
    ∀ x ∈ plan, ∀ j ∈ s'.jobs, j.key = (op, x.agentId) → j.status = .rolloutHeld ∨ j.status.terminal := by
  induction plan generalizing s with
  | nil => exact fun x hx => absurd hx List.not_mem_nil
  | cons p plan ih =>
    obtain ⟨u, hu, rest⟩ := bind_ok.mp h
    have first : Steps nothing s u := holdTarget_steps hl hu
    have later : Steps nothing u s' :=
      foldlM_steps (first.linked hl) (fun _ _ _ hl => holdTarget_steps hl) rest
    intro x hx j' hj' hk'
    obtain rfl | hx := List.mem_cons.mp hx
    · obtain ⟨j, hj, hk, -, kept⟩ := later.jobs_keep
        (P := fun st => st = .rolloutHeld ∨ st.terminal) (first.linked hl) hj'
        fun _ _ m => m.held_kept id
      exact kept (.inl (holdTarget_held hl hu hj (hk.trans hk')))
    · exact ih (first.linked hl) rest x hx j' hj' hk'

theorem Safe.addRollout {row : RolloutRow} {rollouts : Table RolloutRow RolloutRow.operationId}
    (h : Safe ⟨s, ticks, claimed⟩) (hi : s.rollouts.insert row = some rollouts)
    (operation : ∃ o ∈ s.operations, o.id = row.operationId ∧ o.action = .updateRollout)
    (first : row.wave = 0) (unobserved : row.stableSince = none) : Safe ⟨{ s with rollouts }, ticks, claimed⟩ := by
  obtain ⟨fresh, mem⟩ := Table.insert_some hi
  constructor
  case linked =>
    exact ⟨h.linked.target, h.linked.operation, h.linked.action, h.linked.scope⟩
  case inStep => exact h.inStep
  case rollout_operation =>
    intro r hr
    obtain hr | rfl := (mem r).mp hr
    · exact h.rollout_operation r hr
    · exact operation
  case member_rollout =>
    intro x hx
    obtain ⟨r, hr, same⟩ := h.member_rollout x hx
    exact ⟨r, (mem r).mpr (.inl hr), same⟩
  case earlier =>
    intro r hr x hx same below
    obtain hr | rfl := (mem r).mp hr
    · exact h.earlier r hr x hx same below
    · rw [first] at below
      exact absurd below (Nat.not_lt_zero _)
  case reached =>
    intro r hr x hx same released
    obtain hr | rfl := (mem r).mp hr
    · exact h.reached r hr x hx same released
    · obtain ⟨old, hold, sameOld⟩ := h.member_rollout x hx
      exact absurd (sameOld.trans same) (fresh old hold)
  case waiting => exact h.waiting
  case window =>
    intro r hr since last hs hl
    obtain hr | rfl := (mem r).mp hr
    · exact h.window r hr since last hs hl
    · rw [unobserved] at hs
      cases hs
  case observed =>
    intro x hx time released positive
    obtain ⟨r, hr, evidence⟩ := h.observed x hx time released positive
    exact ⟨r, (mem r).mpr (.inl hr), evidence⟩
  case delivered => exact h.delivered

theorem Safe.addMember (h : Safe ⟨s, ticks, claimed⟩)
    (rollout : ∃ r ∈ s.rollouts, r.operationId = x.operationId ∧ r.wave = 0) (unreleased : x.releasedAt = none)
    (waiting : ∀ j ∈ s.jobs, j.key = x.key → j.status = .rolloutHeld ∨ j.status.terminal)
    (hi : insertMember s x = .ok s') : Safe ⟨s', ticks, claimed⟩ := by
  unfold Rollouts.insertMember at hi
  split at hi
  · cases hi
  rename_i members hins
  cases hi
  obtain ⟨-, mem⟩ := Table.insert_some hins
  obtain ⟨row, hrow, own, first⟩ := rollout
  constructor
  case linked =>
    exact ⟨h.linked.target, h.linked.operation, h.linked.action, h.linked.scope⟩
  case inStep => exact h.inStep
  case rollout_operation => exact h.rollout_operation
  case member_rollout =>
    intro y hy
    obtain hy | rfl := (mem y).mp hy
    · exact h.member_rollout y hy
    · exact ⟨row, hrow, own⟩
  case earlier =>
    intro r hr y hy same below
    obtain hy | rfl := (mem y).mp hy
    · exact h.earlier r hr y hy same below
    · rw [s.rollouts.eq_of_key hr hrow (same.symm.trans own.symm), first] at below
      exact absurd below (Nat.not_lt_zero _)
  case reached =>
    intro r hr y hy same released
    obtain hy | rfl := (mem y).mp hy
    · exact h.reached r hr y hy same released
    · exact absurd unreleased released
  case waiting =>
    intro y hy unreleased j hj hk
    obtain hy | rfl := (mem y).mp hy
    · exact h.waiting y hy unreleased j hj hk
    · exact waiting j hj hk
  case window => exact h.window
  case observed =>
    intro y hy time released positive
    obtain hy | rfl := (mem y).mp hy
    · exact h.observed y hy time released positive
    · rw [unreleased] at released
      cases released
  case delivered => exact h.delivered

theorem insertMember_frame (h : insertMember s x = .ok s') : s'.rollouts = s.rollouts ∧ s'.jobs = s.jobs := by
  unfold Rollouts.insertMember at h
  split at h
  · cases h
  · cases h
    exact ⟨rfl, rfl⟩

section

variable (h : Safe ⟨s, ticks, claimed⟩)
include h

theorem Safe.addMembers {waves : List MemberRow} (rollout : ∃ r ∈ s.rollouts, r.operationId = op ∧ r.wave = 0)
    (planned : ∀ x ∈ waves, x.operationId = op ∧ x.releasedAt = none ∧
    ∀ j ∈ s.jobs, j.key = x.key → j.status = .rolloutHeld ∨ j.status.terminal)
    (hi : waves.foldlM insertMember s = .ok s') : Safe ⟨s', ticks, claimed⟩ ∧ s'.rollouts = s.rollouts := by
  have all := foldlM_invariant
    (fun u => Safe ⟨u, ticks, claimed⟩ ∧ u.rollouts = s.rollouts ∧ u.jobs = s.jobs) hi
    ⟨h, rfl, rfl⟩ ?_
  · exact ⟨all.1, all.2.1⟩
  · intro x hx u v hv hu
    obtain ⟨own, unreleased, waiting⟩ := planned x hx
    obtain ⟨safe, sameRollouts, sameJobs⟩ := hu
    have frame := insertMember_frame hv
    refine ⟨Safe.addMember safe ?_ unreleased ?_ hv, frame.1.trans sameRollouts,
      frame.2.trans sameJobs⟩
    · rw [sameRollouts, own]
      exact rollout
    · rw [sameJobs]
      exact waiting

theorem Safe.publish {opts : RolloutOptions} (hp : publishBatchedUpdatePlan s op release plan opts now = .ok s') :
    Safe ⟨s', ticks, claimed⟩ := by
  unfold publishBatchedUpdatePlan at hp
  split_ifs at hp
  split at hp
  · cases hp
  rename_i deadline hdeadline
  dsimp only at hp
  split at hp
  · cases hp
  rename_i rollouts hins
  obtain ⟨u, hu, hp⟩ := bind_ok.mp hp
  obtain ⟨v, hv, hp⟩ := bind_ok.mp hp
  obtain ⟨r, hr, hp⟩ := bind_ok.mp hp
  obtain ⟨w, hw, hp⟩ := bind_ok.mp hp
  obtain ⟨o, ho, -⟩ := Option.bind_eq_some_iff.mp hdeadline
  obtain ⟨hom, hoa⟩ := Table.find?_some ho
  rw [Bool.and_eq_true, beq_iff_eq, beq_iff_eq] at hoa
  have begun := Safe.addRollout h hins ⟨o, hom, hoa⟩ rfl rfl
  have held := begun.same (foldlM_steps begun.linked (fun _ _ _ hl => holdTarget_steps hl) hu)
    (Writes.foldlM .refl (fun _ _ _ => holdTarget_writes) hu).same
  have inserted := ((Table.insert_some hins).2 _).mpr (.inr rfl)
  have sameRollouts : u.rollouts = rollouts :=
    (Writes.foldlM .refl (fun _ _ _ => holdTarget_writes) hu).same.rollouts
  have frozen := Safe.addMembers held ⟨_, sameRollouts ▸ inserted, rfl, rfl⟩ ?_ hv
  · have read := readRollout_ok hr
    have current : r.row.wave = 0 := by
      have hrow := read.row
      rw [frozen.2, sameRollouts] at hrow
      rw [rollouts.eq_of_key hrow inserted read.id_eq]
    refine (frozen.1.releaseWave (frozen_of_read read) ?_ hw).refresh hp
    intro x hx hwave
    refine ⟨r.row, read.row, hx.symm, hwave, fun positive => ?_⟩
    rw [hwave, current] at positive
    exact absurd positive (Nat.lt_irrefl 0)
  · intro x hx
    obtain ⟨m, hm, hk, hrel⟩ := assignWaves_mem hx
    obtain ⟨t, ht, rfl⟩ := List.mem_map.mp hm
    refine ⟨congrArg Prod.fst hk, hrel, fun j hj hjk => ?_⟩
    exact holdTargets_held begun.linked hu t ht j hj (hjk.trans hk)

theorem Safe.inserted {op : NewOperation} (hi : Inserted op s s') : Safe ⟨s', ticks, claimed⟩ := by
  have rollouts := hi.same.rollouts
  have members := hi.same.members
  have owned : ∀ x ∈ s.members, x.operationId ≠ op.id := by
    intro x hx same
    obtain ⟨r, hr, hrx⟩ := h.member_rollout x hx
    obtain ⟨o, ho, hid, -⟩ := h.rollout_operation r hr
    exact hi.fresh o ho (hid.trans (hrx.trans same))
  constructor
  case linked => exact hi.linked h.linked
  case inStep => exact hi.inStep h.linked h.inStep
  case rollout_operation =>
    intro r hr
    rw [rollouts] at hr
    obtain ⟨o, ho, same⟩ := h.rollout_operation r hr
    exact ⟨o, hi.old_operations o ho, same⟩
  case member_rollout =>
    intro x hx
    rw [members] at hx
    rw [rollouts]
    exact h.member_rollout x hx
  case earlier =>
    intro r hr x hx same below
    rw [rollouts] at hr
    rw [members] at hx
    obtain ⟨t, j, ⟨ht, hj, hk⟩, done⟩ := h.earlier r hr x hx same below
    exact ⟨t, j, ⟨hi.grown.old_targets t ht, hi.grown.old_jobs j hj, hk⟩, done⟩
  case reached =>
    intro r hr x hx
    rw [rollouts] at hr
    rw [members] at hx
    exact h.reached r hr x hx
  case waiting =>
    intro x hx unreleased j hj hk
    rw [members] at hx
    obtain hj | ⟨y, -, -, rfl, -⟩ := hi.grown.new_jobs j hj
    · exact h.waiting x hx unreleased j hj hk
    · exact absurd (congrArg Prod.fst hk).symm (owned x hx)
  case window =>
    intro r hr
    rw [rollouts] at hr
    exact h.window r hr
  case observed =>
    intro x hx time released positive
    rw [members] at hx
    rw [rollouts]
    exact h.observed x hx time released positive
  case delivered =>
    intro j hj hd
    obtain hj | ⟨y, -, -, rfl, -⟩ := hi.grown.new_jobs j hj
    · exact h.delivered j hj hd
    · simp only [newJob, newJobStatus] at hd
      split at hd <;> cases hd

end

def superseding (s : Store) : Permits := ⟨fun _ => False, fun _ => False, fun key => Restarts s key.1⟩

theorem Safe.insertOperation {op : NewOperation} {model : Option ModelIntent}
    (h : Safe ⟨s, ticks, claimed⟩) (ho : insertOperation s op model = .ok s') : Safe ⟨s', ticks, claimed⟩ := by
  obtain ⟨u, hi, ⟨-, rfl⟩ | ⟨m, -, hm⟩⟩ := insertOperation_ok ho
  · exact Safe.inserted h hi
  · have inserted := Safe.inserted h hi
    have steps : Steps (superseding u) u s' := insertIntent_steps (fun _ _ h => h) hm
    have same := insertIntent_same hm
    refine inserted.rewrite id steps ?_ (by rw [same.rollouts, List.map_id])
      (members_kept same.members fun _ _ _ => id) (fun _ => ⟨rfl, rfl⟩) (fun _ _ => le_refl _)
      (fun r hr x hx => inserted.earlier r hr x hx)
      (fun r hr since last hs hl => inserted.window r hr since last hs hl)
      (fun _ ht => ht) (inserted.delivered_steps steps fun _ => id)
    rintro x hx ⟨o, ho, hid, hact⟩
    rw [inserted.operation_unique hx ho hid] at hact
    cases hact

theorem cancelPending_frame (h : cancelPending s op = .ok s') :
    s'.rollouts = (cancelRollouts s op).rollouts ∧ s'.members = s.members := by
  unfold cancelPending at h
  split at h
  · cases h
  · have same := refreshOperation_same h
    exact ⟨same.rollouts, same.members⟩

section

variable (h : Safe ⟨s, ticks, claimed⟩)
include h

theorem Safe.cancelPending (hc : cancelPending s op = .ok s') : Safe ⟨s', ticks, claimed⟩ := by
  have frame := cancelPending_frame hc
  let f : RolloutRow → RolloutRow := fun r => { r with
    state := .cancelling
    reason := "Undispatched targets cancelled; waiting for already claimed work"
    stableSince := none
    revision := r.revision + 1 }
  refine h.quiet (Undisturbed.ite (f := f) ⟨fun _ => ⟨rfl, rfl⟩, fun _ => rfl, fun _ => .inl rfl⟩
      fun r => r.operationId == op && r.state != .completed && r.state != .cancelled)
    (cancelPending_steps h.linked h.inStep hc) ?_ frame.2 fun _ ht => ht
  rw [frame.1]
  rfl

theorem Safe.reopen : Safe ⟨Rollouts.reopen s, ticks, claimed⟩ :=
  h.quiet (Undisturbed.ite (f := fun r => { r with stableSince := none, lastTick := none })
      ⟨fun _ => ⟨rfl, rfl⟩, fun _ => rfl, fun _ => .inl rfl⟩ fun r => r.state == .running)
    (reopen_evolves s) rfl rfl fun _ ht => ht

theorem Safe.controlRollout {id controlOp : String} {expected : Int} {pause : Bool} (quiet : NoJobs s controlOp)
    (hc : controlRollout s id expected pause controlOp now = .ok s') : Safe ⟨s', ticks, claimed⟩ := by
  obtain ⟨r, state, reason, u, -, -, hu, rest⟩ := controlRollout_ok hc
  have first := (h.setRolloutState id state reason).refresh hu
  have refreshed : Steps nothing s u :=
    (setRolloutState_evolves s id state reason).trans (refreshOperation_evolves hu)
  have still : NoJobs u controlOp := NoJobs.evolves quiet refreshed
  obtain rfl | ⟨w, v, hv, hr⟩ := rest
  · exact first
  · exact (first.same (updateTarget_evolves hv fun _ _ hp hk => still.moves hp hk)
      (updateTarget_same hv)).refresh hr

end

end Monik.RolloutSafety
