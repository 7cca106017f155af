import Monik.JobEvolution

/-! The transactions of `storage/ops.go` and `job_lifecycle.go` as evolutions of the pairs of
statuses. -/

namespace Monik.JobSteps
open Protocol Tables ControllerStore Operations JobEvolution

variable {move : String × String → Statuses → Statuses → Prop} {p : Permits} {s s' : Store}

variable {agent op parent stop : String} {j : JobRow} {r : JobReceipt} {spark : SparkAnswers} {w : TargetWrite}
    {limit : Int} {now : Time} {authority : JobEnvelope → Except StoreError Bool} {out : List JobEnvelope}
    {env : JobEnvelope} {status : JobStatus} {t : TargetRow}

theorem recordReceipt_steps (hl : Linked s) {outcome : JobReceipt}
    (hj : j ∈ s.jobs) (ha : j.agentId = agent) (unsettled : j.status.terminal = false)
    (unheld : j.status ≠ .rolloutHeld) (named : outcome.status ≠ .waitingOffline)
    (h : recordReceipt s agent j r outcome = .ok s') : Steps p s s' := by
  refine Evolves.trans ?_ (refreshOperation_evolves h)
  refine setBoth_evolves (w := (writeOf outcome).apply)
    (g := fun k => { k with status := .of outcome.status, result := some r })
    (fun _ => rfl) (fun _ => rfl) (fun _ => rfl) (fun _ => ⟨rfl, rfl⟩) (found_agrees hl hj ha) ?_
  intro t k hp hk
  have key : k.key = j.key := by rw [← hp.2.2, hk, JobRow.key, ha]
  rw [hl.same_job hp.2.1 hj key]
  exact settle_path _ unsettled (fun held => absurd held unheld) fun waits => absurd waits named

theorem applyReceipt_cases (h : applyReceipt s agent r spark = .ok s') :
    s' = s ∨ ∃ j ∈ s.jobs, j.jobId = r.jobId ∧ j.agentId = agent ∧ j.status.terminal = false ∧
      j.status ≠ .preparing ∧ j.status ≠ .rolloutHeld ∧
      recordReceipt s agent j r (judge s agent j r spark) = .ok s' := by
  unfold applyReceipt at h
  split at h
  · cases h
  split at h
  · cases h
  rename_i j hfind
  obtain ⟨hj, hm⟩ := Table.find?_some hfind
  rw [Bool.and_eq_true, beq_iff_eq, beq_iff_eq] at hm
  split at h
  · cases h
  split at h
  · cases h
  split at h
  · cases h
  split at h
  · cases h
  rename_i published
  split at h
  · cases h; exact .inl rfl
  split at h
  · cases h; exact .inl rfl
  split at h
  · cases h
  rename_i unsettled
  split at h
  · cases h; exact .inl rfl
  exact .inr ⟨j, hj, hm.1, hm.2, Bool.eq_false_iff.mpr unsettled, (not_or.mp published).1,
    (not_or.mp published).2, h⟩

theorem applyReceipt_reported (h : applyReceipt s agent r spark = .ok s') : r.status.workerReported := by
  unfold applyReceipt at h
  split at h
  · cases h
  · rename_i reported
    simpa using reported

theorem judge_reported (reported : r.status.workerReported) :
    (judge s agent j r spark).status ≠ .queued ∧ (judge s agent j r spark).status ≠ .waitingOffline := by
  unfold judge
  split_ifs
  · simp
  · simp
  · constructor <;> intro waits <;> rw [waits] at reported <;> cases reported

theorem applyReceipt_steps (hl : Linked s) (h : applyReceipt s agent r spark = .ok s') : Steps p s s' := by
  obtain rfl | ⟨j, hj, -, ha, unsettled, -, unheld, hr⟩ := applyReceipt_cases h
  · exact Evolves.refl _
  · exact recordReceipt_steps hl hj ha unsettled unheld (judge_reported (applyReceipt_reported h)).2 hr

theorem mark_agrees (t : TargetRow) (j : JobRow) (hp : Paired s t j) :
    ((j.operationId == op && j.agentId == agent) ↔ t.key = (op, agent)) := by
  rw [hp.2.2]
  simp [JobRow.key]

theorem marked_evolves {u : Store} (hu : updateTarget s op agent w = .ok u)
    (hr : refreshOperation (u.setJobStatus (fun j => j.operationId == op && j.agentId == agent) (.of w.status)) op = .ok s')
    (moves : ∀ t j, Paired s t j → t.key = (op, agent) →
      Relation.ReflTransGen (move (op, agent)) (t.status, j.status) (w.status, .of w.status)) : Evolves move s s' := by
  rw [(updateTarget_ok hu).1] at hr
  refine Evolves.trans ?_ (refreshOperation_evolves hr)
  exact setBoth_evolves (w := w.apply) (g := fun j => { j with status := .of w.status })
    (fun _ => rfl) (fun _ => rfl) (fun _ => rfl) (fun _ => ⟨rfl, rfl⟩) mark_agrees moves

theorem markTargetAndJob_evolves (h : markTargetAndJob s op agent w = .ok s')
    (moves : ∀ t j, Paired s t j → t.key = (op, agent) →
      Relation.ReflTransGen (move (op, agent)) (t.status, j.status) (w.status, .of w.status)) : Evolves move s s' := by
  obtain ⟨u, hu, hr⟩ := bind_ok.mp h
  exact marked_evolves hu hr moves

theorem supersedeSparkRestart_evolves (h : supersedeSparkRestart s agent parent stop = .ok s')
    (moves : ∀ t j, Paired s t j → t.key = (parent, agent) →
      Relation.ReflTransGen (move (parent, agent)) (t.status, j.status) (.failed, .of .failed)) : Evolves move s s' := by
  unfold supersedeSparkRestart at h
  split at h
  · cases h
  · obtain ⟨u, hu, hr⟩ := bind_ok.mp h
    exact marked_evolves hu hr moves

theorem setJobs_evolves {p : JobRow → Bool} {g : JobRow → JobRow} (kg : ∀ j, (g j).jobId = j.jobId)
    (keep : ∀ j, (g j).key = j.key ∧ (g j).action = j.action) (moves : ∀ t j, Paired s t j → p j →
      Relation.ReflTransGen (move j.key) (t.status, j.status) (t.status, (g j).status)) :
    Evolves move s (s.setJobs p g kg) := by
  refine evolves_of_rows (f := id) (g := fun j => if p j then g j else j)
    (by simp [Store.setJobs]) rfl rfl (fun _ => ⟨rfl, rfl⟩) (fun j => ?_) (fun t j hp => ?_)
  · split
    · exact ⟨(keep j).1, kg j, (keep j).2⟩
    · exact ⟨rfl, rfl, rfl⟩
  · by_cases hj : p j
    · simp only [hj, if_true, id_eq]
      exact moves t j hp hj
    · simp only [hj, id_eq]
      exact .refl

theorem deliver_steps (permitted : ∀ key, p.claim key) (agent : String) (now : Time) (s : Store) (env : JobEnvelope) :
    Steps p s (deliver agent now s env) := by
  refine setJobs_evolves _ (fun _ => ⟨rfl, rfl⟩) ?_
  intro t j hp hj
  simp only [Bool.and_eq_true, Bool.or_eq_true, beq_iff_eq] at hj
  obtain h | h := hj.2
  · rw [h]; exact .single (.claim (permitted _) (.inl rfl))
  · rw [h]; exact .single (.claim (permitted _) (.inr rfl))

theorem claimJobs_steps (permitted : ∀ key, p.claim key) (h : claimJobs s agent limit now authority = .ok (s', out)) :
    Steps p s s' := by
  obtain ⟨envs, -, he⟩ := bind_ok.mp h
  cases he
  exact foldl_related Evolves.refl Evolves.trans (deliver_steps permitted agent now) out s

theorem collect_mem {limit : Nat} {rows : List JobRow} {start : List JobEnvelope}
    (h : collect now authority limit rows start = .ok out) (he : env ∈ out) :
    env ∈ start ∨ ∃ j ∈ rows, intact j ∧ j.envelope = env := by
  induction rows generalizing start with
  | nil =>
    cases h
    exact .inl he
  | cons j rows ih =>
    have later : ∀ {mid}, collect now authority limit rows mid = .ok out →
        env ∈ mid ∨ ∃ j' ∈ j :: rows, intact j' ∧ j'.envelope = env := fun h =>
      (ih h).imp id fun ⟨k, hk, found⟩ => ⟨k, List.mem_cons_of_mem j hk, found⟩
    unfold collect at h
    split at h
    · cases h
    · rename_i whole
      have here : env ∈ start ++ [j.envelope] →
          env ∈ start ∨ ∃ j' ∈ j :: rows, intact j' ∧ j'.envelope = env := by
        intro hm
        rw [List.mem_append, List.mem_singleton] at hm
        exact hm.imp id fun same => ⟨j, by simp, by simpa using whole, same.symm⟩
      split at h
      · exact later h
      · split at h
        · cases h
        · exact later h
        · dsimp only at h
          split at h
          · cases h
            exact here he
          · exact (later h).elim here .inr

theorem claimJobs_mem (h : claimJobs s agent limit now authority = .ok (s', out)) (he : env ∈ out) :
    ∃ j ∈ s.jobs, selectable s agent now j ∧ intact j ∧ j.envelope = env := by
  obtain ⟨envs, hp, hr⟩ := bind_ok.mp h
  cases hr
  obtain hm | ⟨j, hj, whole, same⟩ := collect_mem hp he
  · cases hm
  · have hm := List.mem_of_mem_take hj
    rw [List.mem_insertionSort, List.mem_filter] at hm
    exact ⟨j, hm.1, hm.2, whole, same⟩

theorem guarded_unsettled (h : status.guarded) : status.terminal = false := by
  cases status with
  | of target =>
    cases target <;> simp_all [JobStatus.guarded, JobStatus.terminal, TargetStatus.terminal]
  | _ => rfl

theorem guarded_unheld (h : status.guarded) : status ≠ .rolloutHeld := by
  rintro rfl
  cases h

theorem guardOutcome_named {status : TargetStatus} (h : guardOutcome now j = some status) :
    status ≠ .waitingOffline := by
  rintro rfl
  unfold guardOutcome at h
  split_ifs at h
  all_goals first
    | cases h
    | (split at h <;> cases h)

theorem guardJob_steps (now : Time) (hl : Linked s) (hj : j ∈ s.jobs) (guarded : j.status.guarded) :
    Steps p s (guardJob now s j) := by
  unfold guardJob
  split
  · exact Evolves.refl s
  · rename_i status outcome
    refine setBoth_evolves (w := fun t => { t with
        status, stage := "server_guard", message := guardMessage now j
        errorCode := "blocked_or_expired" })
      (g := fun k => { k with status := .of status })
      (fun _ => rfl) (fun _ => rfl) (fun _ => rfl) (fun _ => ⟨rfl, rfl⟩) ?_ ?_
    · intro t k hp
      rw [beq_iff_eq]
      exact id_agrees hl hj t k hp
    · intro t k hp hk
      rw [hl.same_job hp.2.1 hj (hp.2.2.symm.trans hk)]
      exact settle_path status (guarded_unsettled guarded)
        (fun held => absurd held (guarded_unheld guarded))
        fun waits => absurd waits (guardOutcome_named outcome)

theorem guardJob_keeps_others {k : JobRow} (hk : k ∈ s.jobs) (other : k.jobId ≠ j.jobId) :
    k ∈ (guardJob now s j).jobs := by
  unfold guardJob
  split
  · exact hk
  · exact mem_setJobStatus.mpr ⟨k, hk, by simp [other]⟩

theorem guardJobs_rule {R : Store → Store → Prop} (refl : ∀ s, R s s) (trans : ∀ {s u v}, R s u → R u v → R s v)
    (inv : Store → Prop) (step : ∀ {s j}, inv s → j ∈ s.jobs → j.status.guarded →
      R s (guardJob now s j) ∧ inv (guardJob now s j))
    {items : List JobRow} (start : inv s) (present : ∀ j ∈ items, j ∈ s.jobs ∧ j.status.guarded)
    (distinct : (items.map JobRow.jobId).Nodup) : R s (items.foldl (guardJob now) s) := by
  induction items generalizing s with
  | nil => exact refl s
  | cons j items ih =>
    obtain ⟨hj, guarded⟩ := present j (by simp)
    obtain ⟨first, kept⟩ := step start hj guarded
    rw [List.map_cons, List.nodup_cons] at distinct
    refine trans first (ih kept (fun k hk => ?_) distinct.2)
    obtain ⟨hks, hkg⟩ := present k (by simp [hk])
    exact ⟨guardJob_keeps_others hks fun same => distinct.1 (List.mem_map.mpr ⟨k, hk, same⟩), hkg⟩

theorem guardedJobs_mem (h : j ∈ guardedJobs s) : j ∈ s.jobs ∧ j.status.guarded := by
  have hm := List.mem_of_mem_take h
  rw [List.mem_insertionSort, List.mem_filter] at hm
  exact hm

theorem guardedJobs_distinct (s : Store) : ((guardedJobs s).map JobRow.jobId).Nodup :=
  s.jobs.limit_distinct _ _ 1000

theorem refreshAll_evolves {ops : List String} (h : ops.foldlM refreshOperation s = .ok s') : Evolves move s s' :=
  foldlM_invariant (Evolves move s) h (Evolves.refl s)
    fun _ _ _ _ hr he => he.trans (refreshOperation_evolves hr)

theorem expireAndBlockJobs_steps (hl : Linked s) (h : expireAndBlockJobs s now = .ok s') : Steps p s s' := by
  have guarded : Steps p s ((guardedJobs s).foldl (guardJob now) s) := by
    refine guardJobs_rule Evolves.refl Evolves.trans Linked (fun hl hj guarded => ?_) hl (fun _ => guardedJobs_mem)
      (guardedJobs_distinct s)
    have step := guardJob_steps (p := p) now hl hj guarded
    exact ⟨step, step.linked hl⟩
  exact guarded.trans (refreshAll_evolves h)

theorem unclaimed_unsettled (h : status.unclaimed) : status.terminal = false := by
  cases status with
  | of target =>
    cases target <;> simp_all [JobStatus.unclaimed, JobStatus.terminal, TargetStatus.terminal]
  | _ => rfl

theorem undispatched_unclaimed (hu : undispatched s op t) (hp : Paired s t j) : j.status.unclaimed := by
  simp only [undispatched, Bool.and_eq_true, beq_iff_eq] at hu
  by_contra claimed
  have counted : 0 < s.jobs.count fun k => k.operationId == op && k.agentId == t.agentId &&
      !k.status.unclaimed := by
    refine List.countP_pos_iff.mpr ⟨j, hp.2.1, ?_⟩
    have hk := hp.2.2
    simp only [TargetRow.key, JobRow.key, Prod.mk.injEq] at hk
    simpa [← hk.1, ← hk.2, hu.1.1] using claimed
  omega

theorem restart_agrees (hl : Linked s) (hp : Paired s t j) (ok : InStep (t.status, j.status)) :
    restartTarget s op t → restartJob s op j := by
  intro h
  simp only [restartTarget, Bool.and_eq_true, beq_iff_eq, bne_iff_ne, ne_eq] at h
  obtain ⟨⟨⟨hop, hst⟩, hun⟩, hact⟩ := h
  have hk := hp.2.2
  simp only [TargetRow.key, JobRow.key, Prod.mk.injEq] at hk
  obtain ⟨o, ho, hoid, hoa⟩ := hl.action j hp.2.1
  obtain ⟨o', ho', hm⟩ := Table.exists_of_count_pos (Nat.pos_of_ne_zero hact)
  simp only [Bool.and_eq_true, beq_iff_eq] at hm
  have same : o = o' := s.operations.eq_of_key ho ho' (by rw [hoid, hm.1, ← hk.1, hop])
  have awaiting := ok.confirmation hst
  simp only at awaiting
  simp [restartJob, ← hk.1, hop, ← hk.2, hun, awaiting, ← hoa, same, hm.2]

theorem restartJob_unsettled (h : restartJob s op j) : j.status.terminal = false := by
  simp only [restartJob, Bool.and_eq_true, beq_iff_eq] at h
  rw [h.1.2]
  rfl

theorem cancelRows_evolves {q : TargetRow → Bool} {f : JobRow → Bool} (stage message : String)
    (agree : ∀ t j, Paired s t j → InStep (t.status, j.status) → (q t → f j) ∧
      (f j → j.status.terminal = false ∧ (t.status = .awaitingConfirmation → q t))) :
    Evolves (Tentative p) s
      ((s.setTargets q (cancelTarget stage message) fun _ => rfl).setJobStatus f (.of .cancelledBeforeExec)) := by
  refine setRows_evolves (w := cancelTarget stage message)
    (g := fun j => { j with status := .of .cancelledBeforeExec }) (fun _ => rfl) (fun _ => rfl)
    (fun _ => rfl) (fun _ => ⟨rfl, rfl⟩) fun t j hp => tentative_path fun ok => ?_
  obtain ⟨both, job⟩ := agree t j hp ok
  by_cases ht : q t
  · simp only [ht, both ht, if_true]
    exact settle_path _ (job (both ht)).1 (fun _ => rfl) fun waits => by cases waits
  · by_cases hj : f j
    · simp only [ht, hj, if_true]
      exact .single (.withdraw (job hj).1 fun awaiting => ht ((job hj).2 awaiting))
    · simp only [ht, hj]
      exact .refl

/-- First half of `CancelPending`: restarts whose start stage was never authorized. -/
theorem cancelRestarts_evolves (hl : Linked s) (op stage message : String) :
    Evolves (Tentative p) s ((s.setTargets (restartTarget s op) (cancelTarget stage message) fun _ => rfl).setJobStatus
      (restartJob s op) (.of .cancelledBeforeExec)) := by
  refine cancelRows_evolves stage message fun t j hp ok => ⟨restart_agrees hl hp ok, fun hj =>
    ⟨restartJob_unsettled hj, fun awaiting => ?_⟩⟩
  -- the job is a restart awaiting an unissued stage, so an awaiting target is one too
  simp only [restartJob, Bool.and_eq_true, beq_iff_eq] at hj
  obtain ⟨⟨⟨hop, hact⟩, -⟩, hun⟩ := hj
  have hk := hp.2.2
  simp only [TargetRow.key, JobRow.key, Prod.mk.injEq] at hk
  obtain ⟨o, ho, hoid, hoa⟩ := hl.action j hp.2.1
  have counted : 0 < s.operations.count fun o => o.id == op && o.action == .modelRestart :=
    List.countP_pos_iff.mpr ⟨o, ho, by simp [hoid, hop, hoa, hact]⟩
  simp [restartTarget, hk.1, hop, awaiting, hk.2, hun, Nat.pos_iff_ne_zero.mp counted]

theorem cancelUnclaimed_evolves (s : Store) (op stage message : String) :
    Evolves (Tentative p) s ((s.setTargets (undispatched s op) (cancelTarget stage message) fun _ => rfl).setJobStatus
      (fun j => j.operationId == op && j.status.unclaimed) (.of .cancelledBeforeExec)) := by
  refine cancelRows_evolves stage message fun t j hp ok => ⟨fun ht => ?_, fun hj => ?_⟩
  · have unclaimed := undispatched_unclaimed ht hp
    have hk : t.operationId = j.operationId := congrArg Prod.fst hp.2.2
    simp only [undispatched, Bool.and_eq_true, beq_iff_eq] at ht
    simp [← hk, ht.1.1, unclaimed]
  · have unclaimed : j.status.unclaimed := (Bool.and_eq_true _ _ ▸ hj).2
    refine ⟨unclaimed_unsettled unclaimed, fun awaiting => ?_⟩
    have confirmed := ok.confirmation awaiting
    simp only at confirmed
    rw [confirmed] at unclaimed
    cases unclaimed

theorem cancelRollouts_evolves (s : Store) (op : String) : Evolves move s (cancelRollouts s op) :=
  evolves_of_eq rfl rfl rfl

theorem cancelPending_evolves (hl : Linked s) (h : cancelPending s op = .ok s') : Evolves (Tentative p) s s' := by
  unfold cancelPending at h
  split at h
  · cases h
  · have first := cancelRestarts_evolves (p := p) hl op "restart_stopped_cancelled"
      "Stop observed; later start cancelled before stage authorization"
    have second := first.trans (cancelUnclaimed_evolves _ op "cancelled" "cancelled before dispatch")
    exact (second.trans (cancelRollouts_evolves _ op)).trans (refreshOperation_evolves h)

theorem cancelPending_steps (hl : Linked s) (ok : PairInv InStep s) (h : cancelPending s op = .ok s') : Steps p s s' :=
  (cancelPending_evolves hl h).steps ok

end Monik.JobSteps
