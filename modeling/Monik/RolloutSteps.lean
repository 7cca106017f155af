import Monik.Rollouts
import Monik.StoreWrites

/-! The rollout transactions as evolutions of the pairs of statuses and as sequences of updates, and
what `readRollout` guarantees. -/

namespace Monik.RolloutSteps
open Protocol Tables ControllerStore Operations JobEvolution JobSteps Rollouts StoreWrites

variable {move : String × String → Statuses → Statuses → Prop} {p : Permits} {s s' : Store}

variable {m : RolloutMember} {id : String} {r : Rollout} {now expires : Time} {wave : Nat}

structure Joined (s : Store) (m : RolloutMember) : Prop where
  row : m.row ∈ s.members
  target : m.target ∈ s.targets
  job : m.job ∈ s.jobs
  target_key : m.target.key = m.row.key
  job_key : m.job.key = m.row.key
  agent : m.agent = s.agent m.row.agentId

theorem Joined.paired (h : Joined s m) : Paired s m.target m.job :=
  ⟨h.target, h.job, h.target_key.trans h.job_key.symm⟩

theorem joinMember_some {m : MemberRow} {x : RolloutMember} (hm : m ∈ s.members)
    (h : joinMember s m = some x) : x.row = m ∧ Joined s x := by
  unfold joinMember at h
  simp only [Option.bind_eq_bind, Option.bind_eq_some_iff] at h
  obtain ⟨t, ht, j, hj, hx⟩ := h
  cases hx
  obtain ⟨htm, htk⟩ := Table.find?_some ht
  obtain ⟨hjm, hjk⟩ := Table.find?_some hj
  simp only [Bool.and_eq_true, beq_iff_eq] at hjk
  refine ⟨rfl, hm, htm, hjm, hasKey_iff.mp htk, ?_, rfl⟩
  simp [JobRow.key, MemberRow.key, hjk.1.2, hjk.2]

theorem joined_rows_sublist (s : Store) (rows : List MemberRow) (h : ∀ m ∈ rows, m ∈ s.members) :
    ((rows.filterMap (joinMember s)).map RolloutMember.row).Sublist rows := by
  induction rows with
  | nil => exact .slnil
  | cons m rows ih =>
    have tail := ih fun k hk => h k (by simp [hk])
    cases hj : joinMember s m with
    | none => simpa [List.filterMap_cons, hj] using tail.cons m
    | some x =>
      have hrow := (joinMember_some (h m (by simp)) hj).1
      simpa [List.filterMap_cons, hj, hrow] using tail.cons_cons m

theorem memberRows_mem {m : MemberRow} : m ∈ memberRows s id ↔ m ∈ s.members ∧ m.operationId = id := by
  simp only [memberRows, List.mem_filter, beq_iff_eq]
  rfl

theorem memberRows_distinct (s : Store) (id : String) : ((memberRows s id).map MemberRow.agentId).Nodup := by
  have keys : ((memberRows s id).map MemberRow.key).Nodup :=
    (List.filter_sublist.map MemberRow.key).nodup s.members.unique
  rw [List.nodup_map_iff_inj_on (List.Nodup.of_map MemberRow.key keys)]
  intro a ha b hb same
  have ha' := memberRows_mem.mp ha
  have hb' := memberRows_mem.mp hb
  exact s.members.eq_of_key ha'.1 hb'.1 (by simp [MemberRow.key, ha'.2, hb'.2, same])

/-- What a successful `readRollout` returns: the stored row, and every frozen member once,
joined with its target and job. -/
structure Read (s : Store) (id : String) (r : Rollout) : Prop where
  row : r.row ∈ s.rollouts
  id_eq : r.row.operationId = id
  observe : 15 ≤ r.row.observeSeconds
  members : ∀ m ∈ r.members, Joined s m ∧ m.row.operationId = id
  all : ∀ m ∈ s.members, m.operationId = id → ∃ x ∈ r.members, x.row = m
  distinct : (r.members.map fun m => m.row.agentId).Nodup

theorem readRollout_ok (h : readRollout s id = .ok r) : Read s id r := by
  unfold readRollout at h
  split at h
  · cases h
  · rename_i row hrow
    obtain ⟨hmem, hid⟩ := Table.find?_some hrow
    split at h
    · cases h
    · rename_i hvalid
      dsimp only at h
      split at h
      · cases h
      · rename_i hcounts
        cases h
        have sorted : ∀ m ∈ (memberRows s id).insertionSort byWave, m ∈ s.members ∧ m.operationId = id := by
          intro m hm
          rw [List.mem_insertionSort] at hm
          exact memberRows_mem.mp hm
        have sub := joined_rows_sublist s _ fun m hm => (sorted m hm).1
        have full : ((((memberRows s id).insertionSort byWave).filterMap (joinMember s)).map
            RolloutMember.row) = (memberRows s id).insertionSort byWave := by
          refine sub.eq_of_length ?_
          simp only [not_or, not_not] at hcounts
          rw [List.length_map, List.length_insertionSort]
          exact hcounts.2.1
        refine ⟨hmem, beq_iff_eq.mp hid, ?_, ?_, ?_, ?_⟩
        · simp only [RolloutOptions.valid, Bool.not_eq_true', Bool.not_eq_false, Bool.and_eq_true,
            decide_eq_true_eq] at hvalid
          exact hvalid.1.2
        · intro x hx
          obtain ⟨m, hm, hj⟩ := List.mem_filterMap.mp hx
          obtain ⟨hr, joined⟩ := joinMember_some (sorted m hm).1 hj
          exact ⟨joined, hr ▸ (sorted m hm).2⟩
        · intro m hm hop
          have : m ∈ (memberRows s id).insertionSort byWave := by
            rw [List.mem_insertionSort]
            exact memberRows_mem.mpr ⟨hm, hop⟩
          rw [← full] at this
          obtain ⟨x, hx, hr⟩ := List.mem_map.mp this
          exact ⟨x, hx, hr⟩
        · have perm := (List.perm_insertionSort byWave (memberRows s id)).map MemberRow.agentId
          have nodup := perm.nodup_iff.mpr (memberRows_distinct s id)
          rw [← full, List.map_map] at nodup
          exact nodup

theorem setRolloutState_evolves (s : Store) (id : String) (state : RolloutState) (reason : String) :
    Evolves move s (setRolloutState s id state reason) :=
  evolves_of_eq rfl rfl rfl

def StillHeld (s : Store) (op : String) (m : RolloutMember) : Prop :=
  m.job ∈ s.jobs ∧ m.job.key = (op, m.row.agentId) ∧ m.job.status = .rolloutHeld

theorem releaseJob_jobId (env : JobEnvelope) (status : TargetStatus) (j : JobRow) :
    (releaseJob env status j).jobId = j.jobId :=
  rfl

def released (r : RolloutRow) (now expires : Time) (s : Store) (m : RolloutMember) : Store :=
  let env := releasedEnvelope m now r.deadline expires
  let status := releasedStatus m now
  (s.setJobs (fun j => j.jobId == m.job.jobId && j.status == .rolloutHeld) (releaseJob env status)
    (releaseJob_jobId env status)).setTargets (hasKey r.operationId m.row.agentId) (releasedWrite env status).apply
    fun _ => rfl

theorem releaseMember_ok {r : RolloutRow} (h : releaseMember r now expires s m = .ok s') :
    s' = markReleased (released r now expires s m) r.operationId m.row.agentId now := by
  unfold releaseMember at h
  split at h
  · cases h
  · rw [(updateTarget_ok h).1]
    rfl

theorem released_steps (hl : Linked s) {r : RolloutRow}
    (permitted : p.free (r.operationId, m.row.agentId)) (hm : StillHeld s r.operationId m) :
    Steps p s (released r now expires s m) := by
  obtain ⟨hj, hk, hheld⟩ := hm
  refine setBoth_evolves (w := TargetWrite.apply _) (g := releaseJob _ _) (fun _ => rfl)
    (fun _ => rfl) (fun _ => rfl) (fun _ => ⟨rfl, rfl⟩) ?_ ?_
  · intro t k hp
    rw [Bool.and_eq_true, beq_iff_eq, beq_iff_eq, ← hk]
    constructor
    · exact fun both => (id_agrees hl hj t k hp).mp both.1
    · intro key
      rw [hl.same_job hp.2.1 hj (hp.2.2.symm.trans key)]
      exact ⟨rfl, hheld⟩
  · intro t k hp key
    rw [hl.same_job hp.2.1 hj (hp.2.2.symm.trans (key.trans hk.symm)), hheld]
    exact .single (.release permitted _)

theorem releaseMember_steps (hl : Linked s) {r : RolloutRow}
    (permitted : p.free (r.operationId, m.row.agentId)) (hm : StillHeld s r.operationId m) (h : releaseMember r now expires s m = .ok s') :
    Steps p s s' := by
  rw [releaseMember_ok h]
  exact (released_steps hl permitted hm).trans (evolves_of_eq rfl rfl rfl)

theorem releaseMember_keeps_others {r : RolloutRow} {k : RolloutMember}
    (hm : StillHeld s r.operationId m) (hk : StillHeld s r.operationId k)
    (other : k.row.agentId ≠ m.row.agentId) (h : releaseMember r now expires s m = .ok s') :
    StillHeld s' r.operationId k := by
  refine ⟨?_, hk.2⟩
  rw [releaseMember_ok h]
  refine (mem_setJobs (f := releaseJob _ _) fun _ => rfl).mpr ⟨k.job, hk.1, ?_⟩
  have differ : k.job.jobId ≠ m.job.jobId := by
    intro same
    have := s.jobs.eq_of_key hk.1 hm.1 same
    have key := hk.2.1.symm.trans ((congrArg JobRow.key this).trans hm.2.1)
    exact other (congrArg Prod.snd key)
  simp [differ]

theorem releaseMembers_steps {r : RolloutRow} {ms : List RolloutMember}
    (hl : Linked s) (permitted : ∀ m ∈ ms, p.free (r.operationId, m.row.agentId))
    (held : ∀ m ∈ ms, StillHeld s r.operationId m) (distinct : (ms.map fun m => m.row.agentId).Nodup)
    (h : ms.foldlM (releaseMember r now expires) s = .ok s') : Steps p s s' := by
  induction ms generalizing s with
  | nil =>
    cases h
    exact Evolves.refl _
  | cons m ms ih =>
    obtain ⟨u, hu, rest⟩ := bind_ok.mp h
    have hm := held m (by simp)
    have first := releaseMember_steps hl (permitted m (by simp)) hm hu
    rw [List.map_cons, List.nodup_cons] at distinct
    refine first.trans (ih (first.linked hl) (fun k hk => permitted k (by simp [hk])) ?_ distinct.2 rest)
    intro k hk
    refine releaseMember_keeps_others hm (held k (by simp [hk])) ?_ hu
    intro same
    exact distinct.1 (List.mem_map.mpr ⟨k, hk, same⟩)

theorem releaseWave_cases (h : releaseWave s r wave now = .ok s') :
    (∃ reason, s' = setRolloutState s r.row.operationId .blocked reason) ∨
    ∃ expires u, (∀ m ∈ r.members.filter (held wave), m.job.status = .rolloutHeld) ∧
      (r.members.filter (held wave)).foldlM (releaseMember r.row now expires) s = .ok u ∧
      s' = startWave u r.row.operationId now := by
  unfold releaseWave at h
  split at h
  · cases h
  · split_ifs at h with _ unready
    · cases h; exact .inl ⟨_, rfl⟩
    · cases h; exact .inl ⟨_, rfl⟩
    · obtain ⟨u, hu, he⟩ := bind_ok.mp h
      cases he
      refine .inr ⟨_, u, fun m hm => ?_, hu, rfl⟩
      have ready : releasable m := by
        by_contra bad
        exact unready (List.any_eq_true.mpr ⟨m, hm, by simpa using bad⟩)
      simp only [releasable, Bool.and_eq_true, beq_iff_eq] at ready
      exact ready.1.1.1.1.1

theorem releaseWave_steps (hl : Linked s)
    (permitted : ∀ m ∈ r.members, held wave m → p.free (r.row.operationId, m.row.agentId))
    (read : ∀ m ∈ r.members, m.job ∈ s.jobs ∧ m.job.key = (r.row.operationId, m.row.agentId))
    (distinct : (r.members.map fun m => m.row.agentId).Nodup) (h : releaseWave s r wave now = .ok s') :
    Steps p s s' := by
  obtain ⟨_, rfl⟩ | ⟨expires, u, ready, hu, rfl⟩ := releaseWave_cases h
  · exact setRolloutState_evolves s _ _ _
  · refine Evolves.trans (releaseMembers_steps hl ?_ ?_ ?_ hu) (evolves_of_eq rfl rfl rfl)
    · exact fun m hm => permitted m (List.mem_of_mem_filter hm) (List.mem_filter.mp hm).2
    · intro m hm
      obtain ⟨hj, hk⟩ := read m (List.mem_of_mem_filter hm)
      exact ⟨hj, hk, ready m hm⟩
    · exact (List.filter_sublist.map _).nodup distinct

theorem Read.jobs (h : Read s id r) :
    ∀ m ∈ r.members, m.job ∈ s.jobs ∧ m.job.key = (r.row.operationId, m.row.agentId) := by
  intro m hm
  obtain ⟨joined, hop⟩ := h.members m hm
  refine ⟨joined.job, ?_⟩
  rw [joined.job_key, MemberRow.key, hop, h.id_eq]

structure Ready (r : Rollout) (now : Time) : Prop where
  running : r.row.state ≠ .cancelling ∧ r.row.state ≠ .paused
  deadline : now < r.row.deadline
  no_failure : ∀ m ∈ r.members, rolloutFailure m.target.status = false
  observed : observe now r.members = .stable
  current : ∃ m, m ∈ currentWave r
  succeeded : ∀ m ∈ currentWave r, m.target.status = .succeeded

theorem advanceRollout_cases (h : advanceRollout s r now = .ok s') : s' = s ∨
    (∃ state reason, (state = .cancelled ∨ state = .blocked) ∧
      refreshOperation (setRolloutState s r.row.operationId state reason) r.row.operationId = .ok s') ∨
    (Ready r now ∧ advanceWindow s r now = .ok s') := by
  unfold advanceRollout at h
  split at h
  · split at h
    · exact .inr (.inl ⟨_, _, .inl rfl, h⟩)
    · cases h; exact .inl rfl
  · rename_i notCancelling
    split at h
    · exact .inr (.inl ⟨_, _, .inr rfl, h⟩)
    · rename_i before
      split at h
      · exact .inr (.inl ⟨_, _, .inr rfl, h⟩)
      · rename_i noFailure
        split at h
        · cases h; exact .inl rfl
        · rename_i notPaused
          split at h
          · cases h
          · exact .inr (.inl ⟨_, _, .inr rfl, h⟩)
          · rename_i observed
            split at h
            · cases h
            · rename_i nonempty
              split at h
              · cases h; exact .inl rfl
              · rename_i allSucceeded
                refine .inr (.inr ⟨⟨⟨notCancelling, notPaused⟩, not_le.mp before, ?_, observed, ?_, ?_⟩, h⟩)
                · intro m hm
                  simpa using List.find?_eq_none.mp noFailure m hm
                · exact List.exists_mem_of_length_pos (Nat.pos_of_ne_zero nonempty)
                · intro m hm
                  by_contra bad
                  exact allSucceeded (List.any_eq_true.mpr ⟨m, hm, by simpa using bad⟩)

theorem advanceWindow_cases (h : advanceWindow s r now = .ok s') :
    s' = saveWindow s r.row.operationId (windowStart r.row now) now ∨
    (∃ reason, refreshOperation (setRolloutState s r.row.operationId .completed reason) r.row.operationId = .ok s') ∨
    (r.row.observeSeconds * second ≤ now - windowStart r.row now ∧
      ∃ u, releaseWave (setWave s r.row.operationId (r.row.wave + 1)) r (r.row.wave + 1) now = .ok u ∧
        refreshOperation u r.row.operationId = .ok s') := by
  unfold advanceWindow at h
  dsimp only at h
  split at h
  · cases h; exact .inl rfl
  · rename_i window
    split at h
    · exact .inr (.inl ⟨_, h⟩)
    · obtain ⟨u, hu, hr⟩ := bind_ok.mp h
      exact .inr (.inr ⟨not_lt.mp window, u, hu, hr⟩)

theorem setWave_evolves (s : Store) (id : String) (wave : Nat) : Evolves move s (setWave s id wave) :=
  evolves_of_eq rfl rfl rfl

theorem advanceWindow_steps (hl : Linked s) (permitted : ∀ m ∈ r.members, held (r.row.wave + 1) m →
    p.free (r.row.operationId, m.row.agentId)) (read : Read s id r) (h : advanceWindow s r now = .ok s') :
    Steps p s s' := by
  obtain rfl | ⟨_, hr⟩ | ⟨_, u, hu, hr⟩ := advanceWindow_cases h
  · exact evolves_of_eq rfl rfl rfl
  · exact (setRolloutState_evolves s _ _ _).trans (refreshOperation_evolves hr)
  · have renamed : Steps p s _ := setWave_evolves s r.row.operationId (r.row.wave + 1)
    have freed := releaseWave_steps (renamed.linked hl) permitted read.jobs read.distinct hu
    exact (renamed.trans freed).trans (refreshOperation_evolves hr)

theorem advanceRollout_steps (hl : Linked s) (permitted : ∀ m ∈ r.members, held (r.row.wave + 1) m →
    p.free (r.row.operationId, m.row.agentId)) (read : Read s id r) (h : advanceRollout s r now = .ok s') :
    Steps p s s' := by
  obtain rfl | ⟨_, _, _, hr⟩ | ⟨_, hw⟩ := advanceRollout_cases h
  · exact Evolves.refl _
  · exact (setRolloutState_evolves s _ _ _).trans (refreshOperation_evolves hr)
  · exact advanceWindow_steps hl permitted read hw

theorem advanceActive_steps (permitted : ∀ key, p.free key) (hl : Linked s) (h : advanceActive s now = .ok s') :
    Steps p s s' := by
  refine (foldlM_invariant (fun u => Linked u ∧ Steps p s u) h ⟨hl, Evolves.refl s⟩ ?_).2
  intro id _ u v hv hu
  obtain ⟨r, hr, ha⟩ := bind_ok.mp hv
  have step := advanceRollout_steps hu.1 (fun _ _ _ => permitted _) (readRollout_ok hr) ha
  exact ⟨step.linked hu.1, hu.2.trans step⟩

theorem advanceRollouts_steps (permitted : ∀ key, p.free key) (hl : Linked s) (expireNow now : Time) :
    Steps p s (advanceRollouts s expireNow now).1 := by
  unfold advanceRollouts
  split
  · exact Evolves.refl s
  · rename_i u hu
    have first := expireAndBlockJobs_steps (p := p) hl hu
    split
    · exact first
    · rename_i v hv
      exact first.trans (advanceActive_steps permitted (first.linked hl) hv)

theorem claimPendingJobs_cases (s : Store) (agent : String) (limit : Int)
    (expireNow tickNow now : Time) (authority : JobEnvelope → Except StoreError Bool) :
    claimPendingJobs s agent limit expireNow tickNow now authority = ((advanceRollouts s expireNow tickNow).1, []) ∨
    ∃ v out, claimJobs (advanceRollouts s expireNow tickNow).1 agent limit now authority = .ok (v, out) ∧
      claimPendingJobs s agent limit expireNow tickNow now authority = (v, out) := by
  unfold claimPendingJobs claimPending
  obtain ⟨u, e⟩ := advanceRollouts s expireNow tickNow
  cases e with
  | some e => exact .inl rfl
  | none =>
    dsimp only
    cases hc : claimJobs u agent limit now authority with
    | error e => exact .inl rfl
    | ok result => exact .inr ⟨result.1, result.2, rfl, rfl⟩

theorem claimPendingJobs_steps (claim : ∀ key, p.claim key) (free : ∀ key, p.free key)
    (hl : Linked s) (agent : String) (limit : Int)
    (expireNow tickNow now : Time) (authority : JobEnvelope → Except StoreError Bool) :
    Steps p s (claimPendingJobs s agent limit expireNow tickNow now authority).1 := by
  have first := advanceRollouts_steps free hl expireNow tickNow
  obtain same | ⟨v, out, hv, same⟩ :=
    claimPendingJobs_cases s agent limit expireNow tickNow now authority
  · rw [same]
    exact first
  · rw [same]
    exact first.trans (claimJobs_steps claim hv)

theorem claimPendingJobs_mem {agent : String} {limit : Int} {expireNow tickNow : Time}
    {authority : JobEnvelope → Except StoreError Bool} {env : JobEnvelope}
    (h : env ∈ (claimPendingJobs s agent limit expireNow tickNow now authority).2) :
    ∃ j ∈ (advanceRollouts s expireNow tickNow).1.jobs,
      selectable (advanceRollouts s expireNow tickNow).1 agent now j ∧ intact j ∧ j.envelope = env := by
  obtain same | ⟨v, out, hv, same⟩ :=
    claimPendingJobs_cases s agent limit expireNow tickNow now authority
  · rw [same] at h
    cases h
  · rw [same] at h
    exact claimJobs_mem hv h

theorem controlRollout_ok {controlOp : String} {expected : Int} {pause : Bool}
    (h : controlRollout s id expected pause controlOp now = .ok s') :
    ∃ r state reason u, readRollout s id = .ok r ∧
      (state = .paused ∧ r.row.state = .running ∨ state = .running ∧ r.row.state = .paused) ∧
      refreshOperation (setRolloutState s id state reason) id = .ok u ∧
      (s' = u ∨ ∃ w v, updateTarget u controlOp "server" w = .ok v ∧
        refreshOperation v controlOp = .ok s') := by
  obtain ⟨r, hr, h⟩ := bind_ok.mp h
  split at h
  · cases h
  split at h
  · cases h
  rename_i pausable
  split at h
  · cases h
  rename_i resumable
  split at h
  · cases h
  split at h
  · cases h
  split at h
  · cases h
  obtain ⟨u, hu, h⟩ := bind_ok.mp h
  refine ⟨r, _, _, u, hr, ?_, hu, ?_⟩
  · cases pause with
    | true => exact .inl ⟨rfl, by simpa using pausable⟩
    | false => exact .inr ⟨rfl, by simpa using resumable⟩
  · split at h
    · cases h
      exact .inl rfl
    · obtain ⟨v, hv, h⟩ := bind_ok.mp h
      exact .inr ⟨_, v, hv, h⟩

theorem reopen_evolves (s : Store) : Evolves move s (reopen s) := evolves_of_eq rfl rfl rfl

/-! The same transactions as sequences of updates. -/

theorem releasedStatus_ne_rejected (m : RolloutMember) (now : Time) : releasedStatus m now ≠ .rejected := by
  unfold releasedStatus
  split
  · split <;> simp
  · simp

section Writes

variable {power : Powers} (rollouts : power.rollouts) {op release : String} {x : PreparedUpdateTarget}
    {plan : List PreparedUpdateTarget}
include rollouts

theorem setRolloutState_writes (s : Store) (id : String) (state : RolloutState) (reason : String) :
    Writes power s (setRolloutState s id state reason) :=
  .single (.rollouts s _ _ rollouts)

theorem releaseMember_writes {r : RolloutRow} (h : releaseMember r now expires s m = .ok s') : Writes power s s' := by
  rw [releaseMember_ok h]
  refine .tail (Writes.targets (.jobs .refl fun j _ selected => ?_) (.inr fun _ => ?_) (by intro; rfl)) (.rollouts _ _ _ rollouts)
  · rw [Bool.and_eq_true, beq_iff_eq, beq_iff_eq] at selected
    exact .release selected.2 _ _ _
  · exact releasedStatus_ne_rejected m now

theorem releaseWave_writes (h : releaseWave s r wave now = .ok s') : Writes power s s' := by
  obtain ⟨_, rfl⟩ | ⟨expires, u, -, hu, rfl⟩ := releaseWave_cases h
  · exact setRolloutState_writes rollouts s _ _ _
  · exact .tail (Writes.foldlM .refl (fun _ _ _ => releaseMember_writes rollouts) hu) (.rollouts _ _ _ rollouts)

theorem advanceRollout_writes (h : advanceRollout s r now = .ok s') : Writes power s s' := by
  obtain rfl | ⟨_, _, -, hr⟩ | ⟨-, hw⟩ := advanceRollout_cases h
  · exact .refl
  · exact (setRolloutState_writes rollouts s _ _ _).refresh hr
  · obtain rfl | ⟨_, hr⟩ | ⟨-, u, hu, hr⟩ := advanceWindow_cases hw
    · exact .single (.rollouts s _ _ rollouts)
    · exact (setRolloutState_writes rollouts s _ _ _).refresh hr
    · exact Writes.refresh (.head (.rollouts s _ _ rollouts) (releaseWave_writes rollouts hu)) hr

theorem advanceRollouts_writes (s : Store) (expireNow now : Time) : Writes power s (advanceRollouts s expireNow now).1 := by
  unfold advanceRollouts
  split
  · exact .refl
  rename_i u hu
  split
  · exact expireAndBlockJobs_writes hu
  rename_i v hv
  refine (expireAndBlockJobs_writes hu).foldlM (fun w w' id hw => ?_) hv
  obtain ⟨r, -, advanced⟩ := bind_ok.mp hw
  exact advanceRollout_writes rollouts advanced

theorem claimPendingJobs_writes (s : Store) (agent : String) (limit : Int) (expireNow tickNow now : Time)
    (authority : JobEnvelope → Except StoreError Bool) :
    Writes power s (claimPendingJobs s agent limit expireNow tickNow now authority).1 := by
  have ticked := advanceRollouts_writes rollouts s expireNow tickNow
  obtain same | ⟨v, out, hv, same⟩ := claimPendingJobs_cases s agent limit expireNow tickNow now authority
  · rw [same]
    exact ticked
  · rw [same]
    exact ticked.trans (claimJobs_writes hv)

theorem controlRollout_writes (report : power.report) {controlOp : String} {expected : Int} {pause : Bool}
    (h : controlRollout s id expected pause controlOp now = .ok s') : Writes power s s' := by
  obtain ⟨_, state, reason, u, -, -, hu, rest⟩ := controlRollout_ok h
  have first := (setRolloutState_writes rollouts s id state reason).refresh hu
  obtain rfl | ⟨w, v, hv, hr⟩ := rest
  · exact first
  · exact (first.update (.inl report) hv).refresh hr

omit rollouts in
theorem publishTarget_writes (report : power.report) (h : publishTarget op s x = .ok s') : Writes power s s' := by
  unfold publishTarget at h
  split at h
  · cases h
  · rename_i j found
    split_ifs at h with preparing
    simp only [not_or, not_not] at preparing
    refine Writes.update (.jobs .refl fun k hk selected => ?_) (.inl report) h
    rw [s.jobs.eq_of_key hk (Table.find?_some found).1 (beq_iff_eq.mp selected)]
    exact .prepare preparing.1 _ _

omit rollouts in
theorem publishUpdatePlan_writes (report : power.report) (h : publishUpdatePlan s op plan = .ok s') :
    Writes power s s' := by
  obtain ⟨u, hu, hr⟩ := bind_ok.mp h
  exact (Writes.foldlM .refl (fun _ _ _ => publishTarget_writes report) hu).refresh hr

omit rollouts in
theorem holdTarget_writes (h : holdTarget op release s x = .ok s') : Writes power s s' := by
  unfold holdTarget at h
  split at h
  · cases h
  · split at h
    · cases h
    · rename_i j found
      dsimp only at h
      split_ifs at h with preparing
      refine Writes.update (.jobs .refl fun k hk selected => ?_) (.inr (by simp)) h
      rw [s.jobs.eq_of_key hk (Table.find?_some found).1 (beq_iff_eq.mp selected)]
      exact .prepare (not_not.mp preparing) _ _

theorem insertMember_writes {m : MemberRow} (h : insertMember s m = .ok s') : Writes power s s' := by
  unfold insertMember at h
  split at h <;> cases h
  exact .single (.rollouts s _ _ rollouts)

theorem publishBatchedUpdatePlan_writes {opts : RolloutOptions}
    (h : publishBatchedUpdatePlan s op release plan opts now = .ok s') : Writes power s s' := by
  unfold publishBatchedUpdatePlan at h
  split_ifs at h
  split at h
  · cases h
  dsimp only at h
  split at h
  · cases h
  obtain ⟨u, hu, h⟩ := bind_ok.mp h
  obtain ⟨v, hv, h⟩ := bind_ok.mp h
  obtain ⟨r, -, h⟩ := bind_ok.mp h
  obtain ⟨w, hw, h⟩ := bind_ok.mp h
  have begun := Writes.foldlM (.single (.rollouts s _ _ rollouts)) (fun _ _ _ => holdTarget_writes) hu
  have frozen := begun.foldlM (fun _ _ _ => insertMember_writes rollouts) hv
  exact Writes.refresh (frozen.trans (releaseWave_writes rollouts hw)) h

end Writes

end Monik.RolloutSteps
