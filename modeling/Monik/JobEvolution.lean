import Mathlib.Logic.Relation
import Monik.Operations

/-! How a transaction may move the pair (target status, job status): each is shown once to be an
`Evolution` under a move relation, and what the moves preserve is an invariant of the store. -/

namespace Monik.JobEvolution
open Protocol Tables ControllerStore Operations

variable {t t' : TargetRow} {j j' : JobRow} {g : JobRow → JobRow} {op agent : String} {w : TargetWrite}

abbrev Statuses := TargetStatus × JobStatus

def Paired (s : Store) (t : TargetRow) (j : JobRow) : Prop :=
  t ∈ s.targets ∧ j ∈ s.jobs ∧ t.key = j.key

structure Linked (s : Store) : Prop where
  target : ∀ j ∈ s.jobs, ∃ t ∈ s.targets, t.key = j.key ∧ t.jobId = j.jobId
  operation : ∀ t ∈ s.targets, ∃ o ∈ s.operations, o.id = t.operationId
  action : ∀ j ∈ s.jobs, ∃ o ∈ s.operations, o.id = j.operationId ∧ o.action = j.action
  scope : ∀ j ∈ s.jobs, j.action.scope = .agents

theorem Linked.empty : Linked Store.empty := by
  constructor <;> intro x hx <;> exact absurd hx (Table.not_mem_empty x)

theorem Linked.jobId_eq {s : Store} (h : Linked s) (hp : Paired s t j) : t.jobId = j.jobId := by
  obtain ⟨ht, hj, hk⟩ := hp
  obtain ⟨t', ht', hk', hid⟩ := h.target j hj
  rw [s.targets.eq_of_key ht ht' (hk.trans hk'.symm), hid]

theorem Linked.job_unique {s : Store} (h : Linked s) (hp : Paired s t j) (hp' : Paired s t j') : j = j' :=
  s.jobs.eq_of_key hp.2.1 hp'.2.1 ((h.jobId_eq hp).symm.trans (h.jobId_eq hp'))

theorem Linked.same_job {s : Store} (h : Linked s) (hj : j ∈ s.jobs) (hj' : j' ∈ s.jobs) (hk : j.key = j'.key) :
    j = j' := by
  obtain ⟨t, ht, htk, -⟩ := h.target j hj
  exact h.job_unique ⟨ht, hj, htk⟩ ⟨ht, hj', htk.trans hk⟩

/-- Rows are rewritten in place: keys, job ids and actions stay, and each pair of statuses
follows `move` of its key. -/
structure Evolution (move : String × String → Statuses → Statuses → Prop) (s s' : Store) where
  target : TargetRow → TargetRow
  job : JobRow → JobRow
  operation : OperationRow → OperationRow
  targets : s'.targets.rows = s.targets.rows.map target
  jobs : s'.jobs.rows = s.jobs.rows.map job
  operations : s'.operations.rows = s.operations.rows.map operation
  target_keeps : ∀ t, (target t).key = t.key ∧ (target t).jobId = t.jobId
  job_keeps : ∀ j, (job j).key = j.key ∧ (job j).jobId = j.jobId ∧ (job j).action = j.action
  operation_keeps : ∀ o, (operation o).id = o.id ∧ (operation o).action = o.action
  moves : ∀ t j, Paired s t j → Relation.ReflTransGen (move j.key)
    (t.status, j.status) ((target t).status, (job j).status)

def Evolves (move : String × String → Statuses → Statuses → Prop) (s s' : Store) : Prop :=
  Nonempty (Evolution move s s')

variable {move move' : String × String → Statuses → Statuses → Prop} {s s' s'' : Store}

namespace Evolution

section

variable (e : Evolution move s s')
include e

theorem mem_targets : t' ∈ s'.targets ↔ ∃ t ∈ s.targets, e.target t = t' := by
  rw [← Table.mem_rows, e.targets, List.mem_map]
  rfl

theorem mem_jobs : j' ∈ s'.jobs ↔ ∃ j ∈ s.jobs, e.job j = j' := by
  rw [← Table.mem_rows, e.jobs, List.mem_map]
  rfl

theorem mem_operations {o' : OperationRow} : o' ∈ s'.operations ↔ ∃ o ∈ s.operations, e.operation o = o' := by
  rw [← Table.mem_rows, e.operations, List.mem_map]
  rfl

theorem job_operationId (j : JobRow) : (e.job j).operationId = j.operationId :=
  congrArg Prod.fst (e.job_keeps j).1

theorem target_operationId (t : TargetRow) : (e.target t).operationId = t.operationId :=
  congrArg Prod.fst (e.target_keeps t).1

theorem paired (hp : Paired s t j) : Paired s' (e.target t) (e.job j) := by
  refine ⟨e.mem_targets.mpr ⟨t, hp.1, rfl⟩, e.mem_jobs.mpr ⟨j, hp.2.1, rfl⟩, ?_⟩
  rw [(e.target_keeps t).1, (e.job_keeps j).1, hp.2.2]

theorem of_paired (hp : Paired s' t' j') : ∃ t j, Paired s t j ∧ e.target t = t' ∧ e.job j = j' := by
  obtain ⟨ht', hj', hk⟩ := hp
  obtain ⟨t, ht, rfl⟩ := e.mem_targets.mp ht'
  obtain ⟨j, hj, rfl⟩ := e.mem_jobs.mp hj'
  rw [(e.target_keeps t).1, (e.job_keeps j).1] at hk
  exact ⟨t, j, ⟨ht, hj, hk⟩, rfl, rfl⟩

end

end Evolution

theorem Evolves.refl (s : Store) : Evolves move s s :=
  ⟨⟨id, id, id, by simp, by simp, by simp, fun _ => ⟨rfl, rfl⟩, fun _ => ⟨rfl, rfl, rfl⟩,
    fun _ => ⟨rfl, rfl⟩, fun _ _ _ => .refl⟩⟩

section

variable (h : Evolves move s s')
include h

theorem Evolves.trans (h' : Evolves move s' s'') : Evolves move s s'' := by
  obtain ⟨e⟩ := h
  obtain ⟨e'⟩ := h'
  refine ⟨⟨e'.target ∘ e.target, e'.job ∘ e.job, e'.operation ∘ e.operation, ?_, ?_, ?_,
    fun t => ?_, fun j => ?_, fun o => ?_, fun t j hp => ?_⟩⟩
  · rw [e'.targets, e.targets, List.map_map]
  · rw [e'.jobs, e.jobs, List.map_map]
  · rw [e'.operations, e.operations, List.map_map]
  · have h := e.target_keeps t
    have h' := e'.target_keeps (e.target t)
    exact ⟨h'.1.trans h.1, h'.2.trans h.2⟩
  · have h := e.job_keeps j
    have h' := e'.job_keeps (e.job j)
    exact ⟨h'.1.trans h.1, h'.2.1.trans h.2.1, h'.2.2.trans h.2.2⟩
  · have h := e.operation_keeps o
    have h' := e'.operation_keeps (e.operation o)
    exact ⟨h'.1.trans h.1, h'.2.trans h.2⟩
  · have second := e'.moves _ _ (e.paired hp)
    rw [(e.job_keeps j).1] at second
    exact (e.moves t j hp).trans second

theorem Evolves.mono (le : ∀ o a b, move o a b → move' o a b) : Evolves move' s s' := by
  obtain ⟨e⟩ := h
  exact ⟨⟨e.target, e.job, e.operation, e.targets, e.jobs, e.operations, e.target_keeps,
    e.job_keeps, e.operation_keeps, fun t j hp =>
      Relation.ReflTransGen.mono (le _) _ _ (e.moves t j hp)⟩⟩

theorem Evolves.linked (hl : Linked s) : Linked s' := by
  obtain ⟨e⟩ := h
  constructor
  · intro j' hj'
    obtain ⟨j, hj, rfl⟩ := e.mem_jobs.mp hj'
    obtain ⟨t, ht, hk, hid⟩ := hl.target j hj
    refine ⟨e.target t, e.mem_targets.mpr ⟨t, ht, rfl⟩, ?_, ?_⟩
    · rw [(e.target_keeps t).1, (e.job_keeps j).1, hk]
    · rw [(e.target_keeps t).2, (e.job_keeps j).2.1, hid]
  · intro t' ht'
    obtain ⟨t, ht, rfl⟩ := e.mem_targets.mp ht'
    obtain ⟨o, ho, hid⟩ := hl.operation t ht
    refine ⟨e.operation o, e.mem_operations.mpr ⟨o, ho, rfl⟩, ?_⟩
    rw [(e.operation_keeps o).1, e.target_operationId, hid]
  · intro j' hj'
    obtain ⟨j, hj, rfl⟩ := e.mem_jobs.mp hj'
    obtain ⟨o, ho, hid, ha⟩ := hl.action j hj
    refine ⟨e.operation o, e.mem_operations.mpr ⟨o, ho, rfl⟩, ?_, ?_⟩
    · rw [(e.operation_keeps o).1, e.job_operationId, hid]
    · rw [(e.operation_keeps o).2, (e.job_keeps j).2.2, ha]
  · intro j' hj'
    obtain ⟨j, hj, rfl⟩ := e.mem_jobs.mp hj'
    rw [(e.job_keeps j).2.2]
    exact hl.scope j hj

theorem Evolves.jobs_keep {P : JobStatus → Prop} (hl : Linked s) (hj' : j' ∈ s'.jobs) (preserved : ∀ a b, move j'.key a b → P a.2 → P b.2) :
    ∃ j ∈ s.jobs, j.key = j'.key ∧ j.jobId = j'.jobId ∧ (P j.status → P j'.status) := by
  obtain ⟨e⟩ := h
  obtain ⟨j, hj, rfl⟩ := e.mem_jobs.mp hj'
  obtain ⟨t, ht, hk, -⟩ := hl.target j hj
  refine ⟨j, hj, (e.job_keeps j).1.symm, (e.job_keeps j).2.1.symm, fun start => ?_⟩
  have path := e.moves t j ⟨ht, hj, hk⟩
  rw [(e.job_keeps j).1] at preserved
  revert path
  generalize ha : (t.status, j.status) = a
  generalize hb : ((e.target t).status, (e.job j).status) = b
  intro path
  have kept : P b.2 := by
    clear hb
    induction path with
    | refl => rw [← ha]; exact start
    | tail _ last ih => exact preserved _ _ last ih
  rw [← hb] at kept
  exact kept

end

def PairInv (inv : Statuses → Prop) (s : Store) : Prop :=
  ∀ t j, Paired s t j → inv (t.status, j.status)

theorem Evolves.pairInv {inv : Statuses → Prop} (h : Evolves move s s')
    (preserved : ∀ o a b, move o a b → inv a → inv b) (hs : PairInv inv s) : PairInv inv s' := by
  obtain ⟨e⟩ := h
  intro t' j' hp'
  obtain ⟨t, j, hp, rfl, rfl⟩ := e.of_paired hp'
  have path := e.moves t j hp
  have start := hs t j hp
  revert path start
  generalize (t.status, j.status) = a
  generalize ((e.target t).status, (e.job j).status) = b
  intro path start
  induction path with
  | refl => exact start
  | tail _ last ih => exact preserved _ _ _ last ih

theorem evolves_of_rows {f : TargetRow → TargetRow}
    (targets : s'.targets.rows = s.targets.rows.map f) (jobs : s'.jobs.rows = s.jobs.rows.map g)
    (operations : s'.operations = s.operations) (keepTarget : ∀ t, (f t).key = t.key ∧ (f t).jobId = t.jobId)
    (keepJob : ∀ j, (g j).key = j.key ∧ (g j).jobId = j.jobId ∧ (g j).action = j.action) (moves : ∀ t j, Paired s t j →
    Relation.ReflTransGen (move j.key) (t.status, j.status) ((f t).status, (g j).status)) : Evolves move s s' :=
  ⟨⟨f, g, id, targets, jobs, by simp [operations], keepTarget, keepJob, fun _ => ⟨rfl, rfl⟩, moves⟩⟩

theorem evolves_of_eq (targets : s'.targets = s.targets) (jobs : s'.jobs = s.jobs)
    (operations : s'.operations = s.operations) : Evolves move s s' :=
  evolves_of_rows (f := id) (g := id) (by simp [targets]) (by simp [jobs]) operations
    (fun _ => ⟨rfl, rfl⟩) (fun _ => ⟨rfl, rfl, rfl⟩) fun _ _ _ => .refl

theorem refreshOperation_ok (h : refreshOperation s op = .ok s') : ∃ operations, s' = { s with operations } ∧
      ∃ f : OperationRow → OperationRow, operations.rows = s.operations.rows.map f ∧
        ∀ o, (f o).id = o.id ∧ (f o).action = o.action ∧ (f o).deadline = o.deadline := by
  unfold refreshOperation at h
  split at h
  · cases h
  · cases h
    refine ⟨_, rfl, _, rfl, fun o => ?_⟩
    by_cases ho : (o.id == op) <;> simp [ho]

theorem refreshOperation_total {o : OperationRow} (ho : o ∈ s.operations) : ∃ s', refreshOperation s o.id = .ok s' := by
  unfold refreshOperation
  rw [if_neg (not_not.mpr (Table.count_key ho))]
  exact ⟨_, rfl⟩

theorem refreshOperation_evolves (h : refreshOperation s op = .ok s') : Evolves move s s' := by
  obtain ⟨operations, rfl, f, hf, keep⟩ := refreshOperation_ok h
  exact ⟨⟨id, id, f, by simp, by simp, hf, fun _ => ⟨rfl, rfl⟩, fun _ => ⟨rfl, rfl, rfl⟩,
    fun o => ⟨(keep o).1, (keep o).2.1⟩, fun _ _ _ => .refl⟩⟩

theorem hasKey_iff : hasKey op agent t ↔ t.key = (op, agent) := by
  simp [hasKey, TargetRow.key]

theorem updateTarget_ok (h : updateTarget s op agent w = .ok s') :
    s' = s.setTargets (hasKey op agent) w.apply (fun _ => rfl) ∧ ∃ t ∈ s.targets, t.key = (op, agent) := by
  unfold updateTarget at h
  split at h
  · cases h
  · rename_i hc
    cases h
    have one : s.targets.count (hasKey op agent) = 1 := not_not.mp hc
    obtain ⟨t, ht, hk⟩ := Table.exists_of_count_pos (by rw [one]; decide)
    exact ⟨rfl, t, ht, hasKey_iff.mp hk⟩

theorem setTarget_evolves (moves : ∀ t j, Paired s t j → t.key = (op, agent) →
    Relation.ReflTransGen (move (op, agent)) (t.status, j.status) (w.status, j.status)) :
    Evolves move s (s.setTargets (hasKey op agent) w.apply fun _ => rfl) := by
  refine evolves_of_rows (f := fun t => if hasKey op agent t then w.apply t else t) (g := id)
    rfl (by simp [Store.setTargets]) rfl (fun t => ?_) (fun _ => ⟨rfl, rfl, rfl⟩) (fun t j hp => ?_)
  · split <;> exact ⟨rfl, rfl⟩
  · by_cases hk : hasKey op agent t
    · have key := hasKey_iff.mp hk
      simp only [hk, if_true, id_eq]
      rw [hp.2.2.symm.trans key]
      exact moves t j hp key
    · simp only [hk, id_eq]
      exact .refl

theorem updateTarget_evolves (h : updateTarget s op agent w = .ok s')
    (moves : ∀ t j, Paired s t j → t.key = (op, agent) →
    Relation.ReflTransGen (move (op, agent)) (t.status, j.status) (w.status, j.status)) : Evolves move s s' := by
  rw [(updateTarget_ok h).1]
  exact setTarget_evolves moves

theorem setRows_evolves {p : TargetRow → Bool} {q : JobRow → Bool} {w : TargetRow → TargetRow} (kw : ∀ t, (w t).key = t.key) (kg : ∀ j, (g j).jobId = j.jobId)
    (keepTarget : ∀ t, (w t).jobId = t.jobId) (keepJob : ∀ j, (g j).key = j.key ∧ (g j).action = j.action)
    (moves : ∀ t j, Paired s t j → Relation.ReflTransGen (move j.key) (t.status, j.status)
    ((if p t then w t else t).status, (if q j then g j else j).status)) :
    Evolves move s ((s.setTargets p w kw).setJobs q g kg) := by
  refine evolves_of_rows (f := fun t => if p t then w t else t)
    (g := fun j => if q j then g j else j) rfl rfl rfl (fun t => ?_) (fun j => ?_) moves
  · split
    · exact ⟨kw t, keepTarget t⟩
    · exact ⟨rfl, rfl⟩
  · split
    · exact ⟨(keepJob j).1, kg j, (keepJob j).2⟩
    · exact ⟨rfl, rfl, rfl⟩

theorem setBoth_evolves {p : JobRow → Bool} {w : TargetRow → TargetRow} (kw : ∀ t, (w t).key = t.key) (kg : ∀ j, (g j).jobId = j.jobId)
    (keepTarget : ∀ t, (w t).jobId = t.jobId) (keepJob : ∀ j, (g j).key = j.key ∧ (g j).action = j.action)
    (agree : ∀ t j, Paired s t j → (p j ↔ t.key = (op, agent)))
    (moves : ∀ t j, Paired s t j → t.key = (op, agent) →
    Relation.ReflTransGen (move (op, agent)) (t.status, j.status) ((w t).status, (g j).status)) :
    Evolves move s ((s.setJobs p g kg).setTargets (hasKey op agent) w kw) := by
  refine setRows_evolves kw kg keepTarget keepJob fun t j hp => ?_
  by_cases hk : hasKey op agent t
  · have key := hasKey_iff.mp hk
    have hj := (agree t j hp).mpr key
    simp only [hk, hj, if_true]
    rw [hp.2.2.symm.trans key]
    exact moves t j hp key
  · have hj : ¬p j := fun hj => hk (hasKey_iff.mpr ((agree t j hp).mp hj))
    simp only [hk, hj]
    exact .refl

/-- Whose job may be handed out, whose held job released, and whose rows written whatever their statuses. -/
structure Permits where
  claim : String × String → Prop
  free : String × String → Prop
  own : String × String → Prop

/-- What transactions do to a pair of statuses. Without a permit an open job is settled with its target or
withdrawn (a held one for good), and a prepared job is held; only a prepared one is settled into waiting. -/
inductive Move (p : Permits) (key : String × String) : Statuses → Statuses → Prop
  | settle {target : TargetStatus} {job : JobStatus} (status : TargetStatus)
      (unsettled : job.terminal = false) (unheld : job = .rolloutHeld → status.terminal)
      (prepared : status = .waitingOffline → job = .preparing) :
      Move p key (target, job) (status, .of status)
  | withdraw {target : TargetStatus} {job : JobStatus} (unsettled : job.terminal = false)
      (settledBefore : target ≠ .awaitingConfirmation) :
      Move p key (target, job) (target, .of .cancelledBeforeExec)
  | hold {target : TargetStatus} : Move p key (target, .preparing) (.queued, .rolloutHeld)
  | claim {target status : TargetStatus} (permitted : p.claim key)
      (ready : status = .queued ∨ status = .waitingOffline) :
      Move p key (target, .of status) (target, .delivered)
  | release {target : TargetStatus} (permitted : p.free key) (status : TargetStatus) :
      Move p key (target, .rolloutHeld) (status, .of status)
  | note {target : TargetStatus} {job : JobStatus} (permitted : p.own key) (status : TargetStatus)
      (waits : status = .queued ∨ status = .waitingOffline ∨ status = .unknownResult) :
      Move p key (target, job) (status, job)
  | mark {target : TargetStatus} {job : JobStatus} (permitted : p.own key) (status : TargetStatus)
      (final : status.terminal) : Move p key (target, job) (status, .of status)
  | close {target : TargetStatus} {job : JobStatus} (permitted : p.own key)
      (closed : job.terminal) : Move p key (target, job) (.failed, job)

variable {p : Permits} {key : String × String}

/-- The invariant of a pair: a closed target has a closed job, and the job follows its
target into confirmation and success. -/
structure InStep (a : Statuses) : Prop where
  closed : a.1.terminal → a.2.terminal
  confirmation : a.1 = .awaitingConfirmation → a.2 = .of .awaitingConfirmation
  success : a.1 = .succeeded → a.2 = .of .succeeded

theorem InStep.settled (status : TargetStatus) : InStep (status, .of status) := by
  refine ⟨id, ?_, ?_⟩
  · rintro rfl; rfl
  · rintro rfl; rfl

variable {a b : Statuses}

section

variable (h : Move p key a b)
include h

theorem Move.inStep (ha : InStep a) : InStep b := by
  cases h with
  | settle status _ _ _ => exact .settled status
  | withdraw unsettled settledBefore =>
    refine ⟨fun _ => rfl, fun h => absurd h settledBefore, fun h => ?_⟩
    have done := ha.success h
    simp only at done
    rw [done] at unsettled
    cases unsettled
  | hold => constructor <;> simp [TargetStatus.terminal]
  | claim _ ready =>
    refine ⟨fun h => ?_, fun h => ?_, fun h => ?_⟩
    · have same := ha.closed h
      rcases ready with rfl | rfl <;> cases same
    · have same := ha.confirmation h
      rcases ready with rfl | rfl <;> cases same
    · have same := ha.success h
      rcases ready with rfl | rfl <;> cases same
  | release _ status => exact .settled status
  | note _ status waits =>
    obtain rfl | rfl | rfl := waits <;> constructor <;> simp [TargetStatus.terminal]
  | mark _ status _ => exact .settled status
  | close _ closed =>
    refine ⟨fun _ => closed, ?_, ?_⟩ <;> intro h <;> cases h

theorem Move.terminal_kept (ha : a.2.terminal) : b.2.terminal := by
  cases h with
  | settle _ unsettled _ _ => exact absurd ha (by simp [unsettled])
  | withdraw _ _ => rfl
  | hold => cases ha
  | claim _ ready => rcases ready with rfl | rfl <;> cases ha
  | release => cases ha
  | note => exact ha
  | mark _ _ final => exact final
  | close _ closed => exact closed

theorem Move.held_kept (unfreed : ¬p.free key) (ha : a.2 = .rolloutHeld ∨ a.2.terminal) :
    b.2 = .rolloutHeld ∨ b.2.terminal := by
  cases h with
  | settle status unsettled unheld _ =>
    obtain held | settled := ha
    · exact .inr (unheld held)
    · exact absurd settled (by simp [unsettled])
  | withdraw => exact .inr rfl
  | hold => exact .inl rfl
  | claim _ ready => rcases ready with rfl | rfl <;> rcases ha with h | h <;> cases h
  | release permitted => exact absurd permitted unfreed
  | note => exact ha
  | mark _ _ final => exact .inr final
  | close => exact ha

theorem Move.undelivered (unclaimed : ¬p.claim key) (ha : a.2 ≠ .delivered) : b.2 ≠ .delivered := by
  cases h with
  | claim permitted => exact absurd permitted unclaimed
  | note => exact ha
  | close => exact ha
  | _ => exact fun h => by cases h

end

theorem succeeded_final (foreign : ¬p.own key) (h : Relation.ReflTransGen (Move p key) (.succeeded, .of .succeeded) b) :
    b = (.succeeded, .of .succeeded) := by
  induction h with
  | refl => rfl
  | tail _ last ih =>
    subst ih
    cases last with
    | settle _ unsettled _ _ => cases unsettled
    | withdraw unsettled _ => cases unsettled
    | claim _ ready => rcases ready with h | h <;> cases h
    | note permitted => exact absurd permitted foreign
    | mark permitted => exact absurd permitted foreign
    | close permitted => exact absurd permitted foreign

abbrev Steps (p : Permits) := Evolves (Move p)

theorem settle_path {t : TargetStatus} {j : JobStatus} (status : TargetStatus)
    (unsettled : j.terminal = false) (unheld : j = .rolloutHeld → status.terminal)
    (prepared : status = .waitingOffline → j = .preparing) :
    Relation.ReflTransGen (Move p key) (t, j) (status, .of status) :=
  .single (.settle status unsettled unheld prepared)

def Tentative (p : Permits) (key : String × String) (a b : Statuses) : Prop :=
  InStep a → Move p key a b

theorem tentative_path (h : InStep a → Relation.ReflTransGen (Move p key) a b) :
    Relation.ReflTransGen (Tentative p key) a b := by
  by_cases ok : InStep a
  · have weaken : ∀ c d, Move p key c d → Tentative p key c d := fun _ _ m _ => m
    exact Relation.ReflTransGen.mono weaken _ _ (h ok)
  · exact .single fun ok' => absurd ok' ok

theorem Tentative.path (h : Relation.ReflTransGen (Tentative p key) a b) (ok : InStep a) :
    Relation.ReflTransGen (Move p key) a b ∧ InStep b := by
  induction h with
  | refl => exact ⟨.refl, ok⟩
  | tail _ last ih => exact ⟨ih.1.tail (last ih.2), (last ih.2).inStep ih.2⟩

theorem Evolves.steps (h : Evolves (Tentative p) s s') (ok : PairInv InStep s) : Steps p s s' := by
  obtain ⟨e⟩ := h
  exact ⟨⟨e.target, e.job, e.operation, e.targets, e.jobs, e.operations, e.target_keeps,
    e.job_keeps, e.operation_keeps, fun t j hp => (Tentative.path (e.moves t j hp) (ok t j hp)).1⟩⟩

theorem id_agrees (hl : Linked s) (hj : j ∈ s.jobs) (t : TargetRow) (k : JobRow) (hp : Paired s t k) :
    (k.jobId = j.jobId ↔ t.key = j.key) := by
  constructor
  · intro hid
    rw [hp.2.2, s.jobs.eq_of_key hp.2.1 hj hid]
  · intro hk
    rw [hl.same_job hp.2.1 hj (hp.2.2.symm.trans hk)]

theorem found_agrees (hl : Linked s) (hj : j ∈ s.jobs)
    (ha : j.agentId = agent) (t : TargetRow) (k : JobRow) (hp : Paired s t k) :
    ((k.jobId == j.jobId && k.agentId == agent) ↔ t.key = (j.operationId, agent)) := by
  subst ha
  rw [Bool.and_eq_true, beq_iff_eq, beq_iff_eq]
  constructor
  · exact fun h => (id_agrees hl hj t k hp).mp h.1
  · intro hk
    have same := hl.same_job hp.2.1 hj (hp.2.2.symm.trans hk)
    rw [same]
    exact ⟨rfl, rfl⟩

end Monik.JobEvolution
