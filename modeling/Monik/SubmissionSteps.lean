import Monik.RolloutSteps
import Monik.Submission

/-! Submissions as growth and evolution of the store. -/

namespace Monik.SubmissionSteps
open Protocol Tables ControllerStore Operations JobEvolution JobSteps Rollouts RolloutSteps StoreWrites Submission

variable {move : String × String → Statuses → Statuses → Prop} {p : Permits} {s s' : Store}

variable {op : NewOperation} {x : TargetResult × String} {j : JobRow} {t : TargetResult} {agent release : String}
    {m : ModelIntent} {plan : List PreparedUpdateTarget}

structure Grown (op : NewOperation) (s s' : Store) : Prop where
  old_targets : ∀ t ∈ s.targets, t ∈ s'.targets
  new_targets : ∀ t ∈ s'.targets, t ∈ s.targets ∨ ∃ x ∈ op.targets, t = newTarget op x.1 x.2
  old_jobs : ∀ j ∈ s.jobs, j ∈ s'.jobs
  new_jobs : ∀ j ∈ s'.jobs, j ∈ s.jobs ∨ ∃ x ∈ op.targets, needsJob op x.1 ∧
    j = newJob op x.1 x.2 ∧ newTarget op x.1 x.2 ∈ s'.targets

theorem Grown.insertTarget {u v : Store} (hx : x ∈ op.targets) (g : Grown op s u) (h : insertTarget op u x = .ok v) :
    Grown op s v := by
  unfold Operations.insertTarget at h
  split at h
  · cases h
  · rename_i targets ht
    obtain ⟨-, mem⟩ := Table.insert_some ht
    have keepTargets : ∀ t ∈ s.targets, t ∈ targets :=
      fun t h => (mem t).mpr (.inl (g.old_targets t h))
    have newTargets : ∀ t ∈ targets, t ∈ s.targets ∨ ∃ x ∈ op.targets, t = newTarget op x.1 x.2 := by
      intro t h
      obtain h | rfl := (mem t).mp h
      · exact g.new_targets t h
      · exact .inr ⟨x, hx, rfl⟩
    have oldJobs : ∀ j ∈ u.jobs, j ∈ s.jobs ∨ ∃ x ∈ op.targets, needsJob op x.1 ∧
        j = newJob op x.1 x.2 ∧ newTarget op x.1 x.2 ∈ targets := by
      intro j hj
      obtain hj | ⟨y, hy, needs, rfl, hty⟩ := g.new_jobs j hj
      · exact .inl hj
      · exact .inr ⟨y, hy, needs, rfl, (mem _).mpr (.inl hty)⟩
    split at h
    · rename_i needs
      split at h
      · cases h
      · rename_i jobs hj
        cases h
        obtain ⟨-, memJob⟩ := Table.insert_some hj
        refine ⟨keepTargets, newTargets, fun j h => (memJob j).mpr (.inl (g.old_jobs j h)), ?_⟩
        intro j h
        obtain h | rfl := (memJob j).mp h
        · exact oldJobs j h
        · exact .inr ⟨x, hx, needs, rfl, (mem _).mpr (.inr rfl)⟩
    · cases h
      exact ⟨keepTargets, newTargets, g.old_jobs, oldJobs⟩

/-- Of the tables that later proofs read, an insertion leaves all but targets and jobs. -/
structure Framed (s s' : Store) : Prop where
  operations : s'.operations = s.operations
  ingests : s'.ingests = s.ingests
  services : s'.services = s.services
  intents : s'.intents = s.intents
  agents : s'.agents = s.agents
  overlaps : s'.overlaps = s.overlaps
  secrets : s'.secrets = s.secrets
  same : SameRollouts s s'

theorem insertTargets_frame {xs : List (TargetResult × String)} (h : xs.foldlM (insertTarget op) s = .ok s') :
    Framed s s' := by
  refine foldlM_related (fun _ => ⟨rfl, rfl, rfl, rfl, rfl, rfl, rfl, .refl _⟩) (fun h h' => ?_) (fun s s' x h => ?_) h
  · exact ⟨h'.operations.trans h.operations, h'.ingests.trans h.ingests, h'.services.trans h.services,
      h'.intents.trans h.intents, h'.agents.trans h.agents, h'.overlaps.trans h.overlaps,
      h'.secrets.trans h.secrets, h.same.trans h'.same⟩
  · unfold Operations.insertTarget at h
    repeat' split at h
    all_goals cases h
    all_goals exact ⟨rfl, rfl, rfl, rfl, rfl, rfl, rfl, rfl, rfl⟩

theorem insertTarget_jobs (h : insertTarget op s x = .ok s') :
    (∀ j ∈ s.jobs, j ∈ s'.jobs) ∧ (needsJob op x.1 → newJob op x.1 x.2 ∈ s'.jobs) := by
  unfold Operations.insertTarget at h
  split at h
  · cases h
  split at h
  · split at h
    · cases h
    · rename_i jobs hj
      cases h
      obtain ⟨-, mem⟩ := Table.insert_some hj
      exact ⟨fun j h => (mem j).mpr (.inl h), fun _ => (mem _).mpr (.inr rfl)⟩
  · rename_i unneeded
    cases h
    exact ⟨fun _ h => h, fun needs => absurd needs unneeded⟩

theorem insertTargets_jobs {xs : List (TargetResult × String)} (h : xs.foldlM (insertTarget op) s = .ok s') :
    (∀ j ∈ s.jobs, j ∈ s'.jobs) ∧ ∀ x ∈ xs, needsJob op x.1 → newJob op x.1 x.2 ∈ s'.jobs := by
  induction xs generalizing s with
  | nil =>
    cases h
    exact ⟨fun _ h => h, by simp⟩
  | cons x xs ih =>
    obtain ⟨u, hu, rest⟩ := bind_ok.mp h
    have first := insertTarget_jobs hu
    have later := ih rest
    refine ⟨fun j hj => later.1 j (first.1 j hj), fun y hy needs => ?_⟩
    obtain rfl | hy := List.mem_cons.mp hy
    · exact later.1 _ (first.2 needs)
    · exact later.2 y hy needs

def HasRow (s : Store) (op : NewOperation) : Prop :=
  ∃ o ∈ s.operations, o.id = op.id ∧ o.action = op.action

structure Inserted (op : NewOperation) (s s' : Store) : Prop where
  fresh : ∀ o ∈ s.operations, o.id ≠ op.id
  old_operations : ∀ o ∈ s.operations, o ∈ s'.operations
  row : HasRow s' op
  grown : Grown op s s'
  new_job : ∀ x ∈ op.targets, needsJob op x.1 → newJob op x.1 x.2 ∈ s'.jobs
  ingests : s'.ingests = s.ingests
  services : s'.services = s.services
  intents : s'.intents = s.intents
  agents : s'.agents = s.agents
  secrets : s'.secrets = s.secrets
  same : SameRollouts s s'

theorem Inserted.old_job (h : Inserted op s s') (hl : Linked s) (hj : j ∈ s.jobs) : j.operationId ≠ op.id := by
  obtain ⟨o, ho, hid, -⟩ := hl.action j hj
  exact fun same => h.fresh o ho (hid.trans same)

theorem needsJob_scope (h : needsJob op t) :
    op.action.scope = .agents ∧ (t.status = .queued ∨ t.status = .waitingOffline) := by
  simpa [needsJob] using h

theorem Inserted.linked (h : Inserted op s s') (hl : Linked s) : Linked s' := by
  obtain ⟨o, ho, hid, hact⟩ := h.row
  constructor
  · intro j hj
    obtain hj | ⟨x, -, -, rfl, ht⟩ := h.grown.new_jobs j hj
    · obtain ⟨t, ht, same⟩ := hl.target j hj
      exact ⟨t, h.grown.old_targets t ht, same⟩
    · exact ⟨_, ht, rfl, rfl⟩
  · intro t ht
    obtain ht | ⟨x, -, rfl⟩ := h.grown.new_targets t ht
    · obtain ⟨o, ho, same⟩ := hl.operation t ht
      exact ⟨o, h.old_operations o ho, same⟩
    · exact ⟨o, ho, hid⟩
  · intro j hj
    obtain hj | ⟨x, -, -, rfl, -⟩ := h.grown.new_jobs j hj
    · obtain ⟨o, ho, same⟩ := hl.action j hj
      exact ⟨o, h.old_operations o ho, same⟩
    · exact ⟨o, ho, hid, hact⟩
  · intro j hj
    obtain hj | ⟨x, -, needs, rfl, -⟩ := h.grown.new_jobs j hj
    · exact hl.scope j hj
    · exact (needsJob_scope needs).1

theorem Inserted.paired (h : Inserted op s s') (hl : Linked s) {t : TargetRow} (hp : Paired s' t j) :
    Paired s t j ∨ ∃ x ∈ op.targets, needsJob op x.1 ∧ t = newTarget op x.1 x.2 ∧ j = newJob op x.1 x.2 := by
  obtain ⟨ht', hj', hk⟩ := hp
  have opId : t.operationId = j.operationId := congrArg Prod.fst hk
  obtain hj | ⟨x, hx, needs, rfl, hxt⟩ := h.grown.new_jobs j hj'
  · obtain ht | ⟨y, -, rfl⟩ := h.grown.new_targets t ht'
    · exact .inl ⟨ht, hj, hk⟩
    · exact absurd opId.symm (h.old_job hl hj)
  · exact .inr ⟨x, hx, needs, s'.targets.eq_of_key ht' hxt hk, rfl⟩

theorem newJob_inStep (h : needsJob op t) : InStep (t.status, newJobStatus op.action t.status) := by
  unfold newJobStatus
  split
  · rcases (needsJob_scope h).2 with h | h <;> rw [h] <;> constructor <;> simp [TargetStatus.terminal]
  · exact .settled _

theorem Inserted.inStep (h : Inserted op s s') (hl : Linked s) (ok : PairInv InStep s) : PairInv InStep s' := by
  intro t j hp
  obtain old | ⟨x, -, needs, rfl, rfl⟩ := h.paired hl hp
  · exact ok t j old
  · exact newJob_inStep needs

theorem insertOperation_inserts {model : Option ModelIntent} (h : insertOperation s op model = .ok s') :
    s.operations.count (fun o => o.actor == op.actor && o.clientRequestKey == op.clientRequestKey) = 0 ∧
      ∃ operations u, s.operations.insert ⟨op.id, op.action, .queued, 1, op.actor, op.clientRequestKey,
          op.requestHash, op.createdAt, op.deadline⟩ = some operations ∧
        op.targets.foldlM (insertTarget op) { s with operations } = .ok u ∧
        (model = none ∧ s' = u ∨ ∃ m, model = some m ∧ insertIntent u op m = .ok s') := by
  unfold insertOperation at h
  split_ifs at h with _ _ free
  split at h
  · cases h
  rename_i operations inserted
  obtain ⟨u, hu, rest⟩ := bind_ok.mp h
  refine ⟨not_not.mp free, operations, u, inserted, hu, ?_⟩
  cases model with
  | none =>
    cases rest
    exact .inl ⟨rfl, rfl⟩
  | some m => exact .inr ⟨m, rfl, rest⟩

theorem insertOperation_ok {model : Option ModelIntent} (h : insertOperation s op model = .ok s') :
    ∃ u, Inserted op s u ∧ (model = none ∧ s' = u ∨ ∃ m, model = some m ∧ insertIntent u op m = .ok s') := by
  obtain ⟨-, operations, u, inserted, hu, rest⟩ := insertOperation_inserts h
  obtain ⟨fresh, mem⟩ := Table.insert_some inserted
  have grown : Grown op s u :=
    foldlM_invariant (Grown op s) hu ⟨fun _ h => h, fun _ h => .inl h, fun _ h => h, fun _ h => .inl h⟩
      fun x hx v w hw hv => hv.insertTarget hx hw
  have frame := insertTargets_frame hu
  refine ⟨u, ⟨fresh, ?_, ?_, grown, (insertTargets_jobs hu).2, frame.ingests, frame.services, frame.intents,
    frame.agents, frame.secrets, frame.same.rollouts, frame.same.members⟩, rest⟩
  · intro o ho
    rw [frame.operations]
    exact (mem o).mpr (.inl ho)
  · unfold HasRow
    rw [frame.operations]
    exact ⟨_, (mem _).mpr (.inr rfl), rfl, rfl⟩

/-- A submission changes nothing, or inserts an operation that is no model action and executes it; an error
closes its targets. -/
theorem processSubmit_cases (s : Store) (req : Request) : processSubmit s req = s ∨ req.action.isModel = false ∧
      ∃ u, insertOperation s (newOperation s req) none = .ok u ∧
        (processSubmit s req = (executeServerSide u (newOperation s req) req).1 ∨ ∃ e, processSubmit s req =
            closeTargets (executeServerSide u (newOperation s req) req).1 (newOperation s req) e) := by
  unfold processSubmit
  split
  · exact .inl rfl
  rename_i available
  simp only [Bool.or_eq_true, not_or, Bool.not_eq_true] at available
  split
  · exact .inl rfl
  split
  · exact .inl rfl
  dsimp only
  split
  · exact .inl rfl
  rename_i u hu
  refine .inr ⟨available.1, u, hu, ?_⟩
  split
  · rename_i v hv
    exact .inl (by rw [hv])
  · rename_i v e hv
    exact .inr ⟨e, by rw [hv]⟩

def Restarts (s : Store) (id : String) : Prop :=
  ∃ o ∈ s.operations, o.id = id ∧ o.action = .modelRestart

theorem supersedable_restarts {profile parent : String} (h : supersedable s agent profile parent) :
    Restarts s parent := by
  simp only [supersedable, Bool.and_eq_true, beq_iff_eq] at h
  obtain ⟨o, ho, hm⟩ := Table.exists_of_count_pos (by rw [h.1.1]; decide)
  simp only [Bool.and_eq_true, beq_iff_eq] at hm
  exact ⟨o, ho, hm.1, hm.2⟩

theorem insertIntent_steps (permitted : ∀ id agent, Restarts s id → p.own (id, agent))
    (h : insertIntent s op m = .ok s') : Steps p s s' := by
  unfold insertIntent at h
  split at h
  · split at h
    · cases h
    · refine foldlM_invariant (Steps p s) h (evolves_of_eq rfl rfl rfl) ?_
      intro parent hp u v hv hu
      have restarts : Restarts s parent := by
        have hs := (List.mem_filter.mp hp).2
        rw [Bool.and_eq_true] at hs
        exact supersedable_restarts hs.2
      exact hu.trans (supersedeSparkRestart_evolves hv fun _ _ _ _ =>
        .single (.mark (permitted parent _ restarts) .failed rfl))
  · cases h

theorem insertIntent_same (h : insertIntent s op m = .ok s') : SameRollouts s s' := by
  unfold insertIntent at h
  split at h
  · split at h
    · cases h
    · have same := (Writes.foldlM .refl (fun _ _ _ => supersedeSparkRestart_writes trivial) h).same
      exact ⟨same.rollouts, same.members⟩
  · cases h

theorem commit_evolves {r : Tx} (h : ∀ u, r = .ok u → Evolves move s u) : Evolves move s (commit s r) :=
  commit_invariant (Evolves move s) (Evolves.refl s) h

theorem foldlM_steps {α : Type} {f : Store → α → Tx} {xs : List α} (hl : Linked s)
    (step : ∀ u v x, Linked u → f u x = .ok v → Evolves move u v) (h : xs.foldlM f s = .ok s') : Evolves move s s' := by
  refine (foldlM_invariant (fun u => Linked u ∧ Evolves move s u) h
    ⟨hl, Evolves.refl s⟩ ?_).2
  intro x _ u v hv hu
  have next := step u v x hu.1 hv
  exact ⟨next.linked hu.1, hu.2.trans next⟩

theorem found_job (op agent : String) {p : JobRow → Bool} (h : s.jobs.find? p = some j)
    (sound : p j → j.operationId = op ∧ j.agentId = agent) : j ∈ s.jobs ∧ j.key = (op, agent) := by
  obtain ⟨hj, hp⟩ := Table.find?_some h
  obtain ⟨h₁, h₂⟩ := sound hp
  exact ⟨hj, by rw [JobRow.key, h₁, h₂]⟩

theorem setFound_evolves (hl : Linked s) {op : String} {w : TargetWrite}
    {g : JobRow → JobRow} {kg : ∀ j, (g j).jobId = j.jobId} (found : j ∈ s.jobs ∧ j.key = (op, agent))
    (h : updateTarget (s.setJobs (fun k => k.jobId == j.jobId) g kg) op agent w = .ok s')
    (keep : ∀ j, (g j).key = j.key ∧ (g j).action = j.action)
    (moves : ∀ t : TargetRow, Relation.ReflTransGen (move (op, agent)) (t.status, j.status)
    (w.status, (g j).status)) : Evolves move s s' := by
  obtain ⟨hj, hk⟩ := found
  rw [(updateTarget_ok h).1]
  refine setBoth_evolves (w := w.apply) (g := g) (fun _ => rfl) kg (fun _ => rfl) keep ?_ ?_
  · intro t k hp
    rw [beq_iff_eq, ← hk]
    exact id_agrees hl hj t k hp
  · intro t k hp key
    rw [hl.same_job hp.2.1 hj (hp.2.2.symm.trans (key.trans hk.symm))]
    exact moves t

theorem publishTarget_steps {op : String} {x : PreparedUpdateTarget} (hl : Linked s)
    (h : publishTarget op s x = .ok s') : Steps p s s' := by
  unfold publishTarget at h
  split at h
  · cases h
  · rename_i j hfind
    have found := found_job op x.agentId hfind (by simp)
    split_ifs at h with preparing
    simp only [not_or, not_not] at preparing
    refine setFound_evolves hl found h (fun _ => ⟨rfl, rfl⟩) fun t => ?_
    rw [preparing.1]
    exact settle_path x.status rfl (fun held => by cases held) fun _ => rfl

theorem publishUpdatePlan_steps {op : String} (hl : Linked s) (h : publishUpdatePlan s op plan = .ok s') :
    Steps p s s' := by
  obtain ⟨u, hu, hr⟩ := bind_ok.mp h
  exact (foldlM_steps hl (fun _ _ _ hl => publishTarget_steps hl) hu).trans
    (refreshOperation_evolves hr)

theorem holdTarget_steps {op : String} {x : PreparedUpdateTarget} (hl : Linked s)
    (h : holdTarget op release s x = .ok s') : Steps p s s' := by
  unfold holdTarget at h
  split at h
  · cases h
  · split at h
    · cases h
    · rename_i j hfind
      have found := found_job op x.agentId hfind (by
        simp only [Bool.and_eq_true, beq_iff_eq]
        exact fun h => h.1)
      dsimp only at h
      split_ifs at h with preparing
      refine setFound_evolves hl found h (fun _ => ⟨rfl, rfl⟩) fun t => ?_
      rw [not_not.mp preparing]
      exact .single .hold

theorem insertMember_evolves {m : MemberRow} (h : insertMember s m = .ok s') : Evolves move s s' := by
  unfold insertMember at h
  split at h
  · cases h
  · cases h
    exact evolves_of_eq rfl rfl rfl

theorem publishBatchedUpdatePlan_steps {op : String}
    {opts : RolloutOptions} {now : Time} (hl : Linked s) (permitted : ∀ agent, p.free (op, agent))
    (h : publishBatchedUpdatePlan s op release plan opts now = .ok s') : Steps p s s' := by
  unfold publishBatchedUpdatePlan at h
  split_ifs at h
  split at h
  · cases h
  · dsimp only at h
    split at h
    · cases h
    · rename_i rollouts _
      obtain ⟨u, hu, h⟩ := bind_ok.mp h
      obtain ⟨v, hv, h⟩ := bind_ok.mp h
      obtain ⟨r, hr, h⟩ := bind_ok.mp h
      obtain ⟨w, hw, h⟩ := bind_ok.mp h
      have begun : Steps p s { s with rollouts } := evolves_of_eq rfl rfl rfl
      have heldAll : Steps p _ u :=
        foldlM_steps (begun.linked hl) (fun _ _ _ hl => holdTarget_steps hl) hu
      have frozen : Steps p u v := foldlM_steps (heldAll.linked (begun.linked hl))
        (fun _ _ _ _ => insertMember_evolves) hv
      have before := (begun.trans heldAll).trans frozen
      have read := readRollout_ok hr
      have freed := releaseWave_steps (before.linked hl)
        (fun m _ _ => by rw [read.id_eq]; exact permitted m.row.agentId) read.jobs read.distinct hw
      exact (before.trans freed).trans (refreshOperation_evolves h)

end Monik.SubmissionSteps
