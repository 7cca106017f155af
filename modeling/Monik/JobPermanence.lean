import Monik.ControllerRule

/-! What every step of the controller leaves of a job: its identity, that it was published and
handed out, and its final result. Rows of an operation stay linked in every run. -/

namespace Monik.JobPermanence
open Protocol Tables ControllerStore Operations JobEvolution JobSteps Rollouts RolloutSteps
open StoreWrites Submission SubmissionSteps ServerSteps Runs
open ControllerRule (Rule)
open DispatchSafety (Event step)

variable {j j' : JobRow} {p : JobRow → Bool} {g : JobRow → JobRow} {status : TargetStatus}
    {op agent id release : String} {w : TargetWrite} {r : JobReceipt} {spark : SparkAnswers} {now : Time}
    {x : PreparedUpdateTarget} {plan : List PreparedUpdateTarget} {c : Ingestion.Codec}

def published : JobStatus → Bool
  | .preparing | .rolloutHeld => false
  | _ => true

def answered : JobStatus → Bool
  | .of .queued | .of .waitingOffline => false
  | .of _ => true
  | _ => false

structure JobStep (j j' : JobRow) : Prop where
  jobId : j'.jobId = j.jobId
  key : j'.key = j.key
  action : j'.action = j.action
  published : published j.status → published j'.status
  kept : j.deliveredAt ≠ none → j'.deliveredAt ≠ none
  handed : j'.deliveredAt ≠ none → j.deliveredAt ≠ none ∨ JobPermanence.published j'.status
  closed : j.status.terminal → j'.status.terminal ∧ j'.result = j.result
  answered : answered j.status → answered j'.status
  replied : j'.result ≠ none → j.result ≠ none ∨ JobPermanence.answered j'.status

theorem JobStep.refl (j : JobRow) : JobStep j j :=
  ⟨rfl, rfl, rfl, id, id, .inl, fun h => ⟨h, rfl⟩, id, .inl⟩

theorem JobStep.trans {j'' : JobRow} (h : JobStep j j') (h' : JobStep j' j'') : JobStep j j'' where
  jobId := h'.jobId.trans h.jobId
  key := h'.key.trans h.key
  action := h'.action.trans h.action
  published := h'.published ∘ h.published
  kept := h'.kept ∘ h.kept
  handed := fun later => (h'.handed later).elim (fun mid => (h.handed mid).imp_right h'.published) .inr
  closed := fun final => ⟨(h'.closed (h.closed final).1).1,
    (h'.closed (h.closed final).1).2.trans (h.closed final).2⟩
  answered := h'.answered ∘ h.answered
  replied := fun later => (h'.replied later).elim (fun mid => (h.replied mid).imp_right h'.answered) .inr

theorem JobStep.of_status (jobId : j'.jobId = j.jobId) (key : j'.key = j.key)
    (action : j'.action = j.action) (delivered : j'.deliveredAt = j.deliveredAt)
    (stays : JobPermanence.published j.status → JobPermanence.published j'.status)
    (closed : j.status.terminal → j'.status.terminal ∧ j'.result = j.result)
    (answers : JobPermanence.answered j.status → JobPermanence.answered j'.status)
    (replied : j'.result = j.result ∨ JobPermanence.answered j'.status) : JobStep j j' :=
  ⟨jobId, key, action, stays, by rw [delivered]; exact id, by rw [delivered]; exact .inl, closed,
    answers, fun later => replied.imp_left fun same => by rwa [← same]⟩

/-- Jobs step, targets keep key and job, operations id and action; services and reports stay. -/
structure Kept (s s' : Store) : Prop where
  jobs : ∃ f : JobRow → JobRow, s'.jobs.rows = s.jobs.rows.map f ∧ ∀ j ∈ s.jobs, JobStep j (f j)
  targets : ∃ f : TargetRow → TargetRow, s'.targets.rows = s.targets.rows.map f ∧
    ∀ t, (f t).key = t.key ∧ (f t).jobId = t.jobId
  operations : ∃ f : OperationRow → OperationRow, s'.operations.rows = s.operations.rows.map f ∧
    ∀ o, (f o).id = o.id ∧ (f o).action = o.action
  services : s'.services = s.services
  ingests : s'.ingests = s.ingests
  intents : s'.intents = s.intents

variable {s s' s'' : Store}

theorem Kept.of_eq (jobs : s'.jobs = s.jobs) (targets : s'.targets = s.targets)
    (operations : s'.operations = s.operations) (services : s'.services = s.services)
    (ingests : s'.ingests = s.ingests) (intents : s'.intents = s.intents) : Kept s s' where
  jobs := ⟨id, by rw [jobs, List.map_id], fun j _ => .refl j⟩
  targets := ⟨id, by rw [targets, List.map_id], fun _ => ⟨rfl, rfl⟩⟩
  operations := ⟨id, by rw [operations, List.map_id], fun _ => ⟨rfl, rfl⟩⟩
  services := services
  ingests := ingests
  intents := intents

theorem Kept.refl (s : Store) : Kept s s := .of_eq rfl rfl rfl rfl rfl rfl

theorem Kept.job (h : Kept s s') (hj : j ∈ s.jobs) : ∃ j' ∈ s'.jobs, JobStep j j' := by
  obtain ⟨f, rows, steps⟩ := h.jobs
  refine ⟨f j, ?_, steps j hj⟩
  rw [← Table.mem_rows, rows]
  exact List.mem_map_of_mem hj

theorem Kept.of_job (h : Kept s s') (hj' : j' ∈ s'.jobs) : ∃ j ∈ s.jobs, JobStep j j' := by
  obtain ⟨f, rows, steps⟩ := h.jobs
  rw [← Table.mem_rows, rows] at hj'
  obtain ⟨j, hj, rfl⟩ := List.mem_map.mp hj'
  exact ⟨j, hj, steps j hj⟩

theorem Kept.target (h : Kept s s') {t : TargetRow} (ht : t ∈ s.targets) :
    ∃ t' ∈ s'.targets, t'.key = t.key ∧ t'.jobId = t.jobId := by
  obtain ⟨f, rows, keep⟩ := h.targets
  refine ⟨f t, ?_, keep t⟩
  rw [← Table.mem_rows, rows]
  exact List.mem_map_of_mem ht

theorem Kept.operation (h : Kept s s') {o : OperationRow} (ho : o ∈ s.operations) :
    ∃ o' ∈ s'.operations, o'.id = o.id ∧ o'.action = o.action := by
  obtain ⟨f, rows, keep⟩ := h.operations
  refine ⟨f o, ?_, keep o⟩
  rw [← Table.mem_rows, rows]
  exact List.mem_map_of_mem ho

theorem Kept.trans (h : Kept s s') (h' : Kept s' s'') : Kept s s'' := by
  constructor
  · obtain ⟨f, rows, steps⟩ := h.jobs
    obtain ⟨g, rows', steps'⟩ := h'.jobs
    refine ⟨g ∘ f, by rw [rows', rows, List.map_map], fun j hj => (steps j hj).trans (steps' _ ?_)⟩
    rw [← Table.mem_rows, rows]
    exact List.mem_map_of_mem hj
  · obtain ⟨f, rows, keep⟩ := h.targets
    obtain ⟨g, rows', keep'⟩ := h'.targets
    refine ⟨g ∘ f, by rw [rows', rows, List.map_map], fun t => ?_⟩
    exact ⟨(keep' (f t)).1.trans (keep t).1, (keep' (f t)).2.trans (keep t).2⟩
  · obtain ⟨f, rows, keep⟩ := h.operations
    obtain ⟨g, rows', keep'⟩ := h'.operations
    refine ⟨g ∘ f, by rw [rows', rows, List.map_map], fun o => ?_⟩
    exact ⟨(keep' (f o)).1.trans (keep o).1, (keep' (f o)).2.trans (keep o).2⟩
  · exact h'.services.trans h.services
  · exact h'.ingests.trans h.ingests
  · exact h'.intents.trans h.intents

theorem Kept.linked (h : Kept s s') (hl : Linked s) : Linked s' := by
  constructor
  · intro j' hj'
    obtain ⟨j, hj, same⟩ := h.of_job hj'
    obtain ⟨t, ht, key, jobId⟩ := hl.target j hj
    obtain ⟨t', ht', key', jobId'⟩ := h.target ht
    exact ⟨t', ht', key'.trans (key.trans same.key.symm), jobId'.trans (jobId.trans same.jobId.symm)⟩
  · intro t' ht'
    obtain ⟨f, rows, keep⟩ := h.targets
    rw [← Table.mem_rows, rows] at ht'
    obtain ⟨t, ht, rfl⟩ := List.mem_map.mp ht'
    obtain ⟨o, ho, id⟩ := hl.operation t ht
    obtain ⟨o', ho', id', -⟩ := h.operation ho
    exact ⟨o', ho', id'.trans (id.trans (congrArg Prod.fst (keep t).1).symm)⟩
  · intro j' hj'
    obtain ⟨j, hj, same⟩ := h.of_job hj'
    obtain ⟨o, ho, id, action⟩ := hl.action j hj
    obtain ⟨o', ho', id', action'⟩ := h.operation ho
    exact ⟨o', ho', id'.trans (id.trans (congrArg Prod.fst same.key).symm),
      action'.trans (action.trans same.action.symm)⟩
  · intro j' hj'
    obtain ⟨j, hj, same⟩ := h.of_job hj'
    rw [same.action]
    exact hl.scope j hj

theorem answered_of_final (h : status.terminal) : answered (.of status) := by
  cases status <;> first | rfl | cases h

theorem judge_answered (reported : r.status.workerReported) :
    answered (.of (judge s agent j r spark).status) := by
  unfold judge
  split_ifs
  · rfl
  · rfl
  · cases status : r.status <;> rw [status] at reported <;> first | rfl | cases reported

theorem guardOutcome_answered (h : guardOutcome now j = some status) : answered (.of status) := by
  unfold guardOutcome at h
  split_ifs at h
  · cases h
    rfl
  · split at h <;> cases h <;> rfl
  · cases h
    rfl
  · cases h
    rfl

theorem jobStep_of_write {powers : Powers} (h : JobWrite powers j j') : JobStep j j' := by
  cases h with
  | patch envelope => exact .of_status rfl rfl rfl rfl id (fun final => ⟨final, rfl⟩) id (.inl rfl)
  | close _ final =>
    exact .of_status rfl rfl rfl rfl (fun _ => rfl) (fun _ => ⟨final, rfl⟩) (fun _ => answered_of_final final) (.inl rfl)
  | guard guarded outcome =>
    have unsettled := guarded_unsettled guarded
    exact .of_status rfl rfl rfl rfl (fun _ => rfl) (fun final => absurd final (by simp [unsettled]))
      (fun _ => guardOutcome_answered outcome) (.inl rfl)
  | @record status _ unsettled decided =>
    have answers : answered (.of status) := by
      cases status <;> first | rfl | simp at decided
    exact .of_status rfl rfl rfl rfl (fun _ => rfl) (fun final => absurd final (by simp [unsettled]))
      (fun _ => answers) (.inr answers)
  | deliver waits =>
    refine ⟨rfl, rfl, rfl, fun _ => rfl, fun _ => by simp, fun _ => .inr rfl, ?_, ?_, .inl⟩ <;>
    · rcases waits with waits | waits <;> intro final <;> rw [waits] at final <;> cases final
  | release held =>
    refine .of_status rfl rfl rfl rfl (fun _ => rfl) (fun final => ?_) (fun final => ?_) (.inl rfl) <;>
    · rw [held] at final
      cases final
  | prepare preparing =>
    refine .of_status rfl rfl rfl rfl (fun h => ?_) (fun h => ?_) (fun h => ?_) (.inl rfl) <;>
    · rw [preparing] at h
      cases h

theorem kept_of_writes {powers : Powers} (h : Writes powers s s') : Kept s s' := by
  refine h.related .refl .trans fun {s _} write => ?_
  cases write with
  | @jobs q g keep rows =>
    refine ⟨⟨fun j => if q j then g j else j, rfl, fun j hj => ?_⟩, (Kept.refl s).targets, (Kept.refl s).operations,
      rfl, rfl, rfl⟩
    dsimp only
    split
    · exact jobStep_of_write (rows j hj ‹_›)
    · exact .refl j
  | @targets q w keep job =>
    refine ⟨(Kept.refl s).jobs, ⟨fun t => if q t then w t else t, rfl, fun t => ?_⟩, (Kept.refl s).operations,
      rfl, rfl, rfl⟩
    dsimp only
    split
    · exact ⟨keep t, job t⟩
    · exact ⟨rfl, rfl⟩
  | operations refreshed =>
    obtain ⟨operations, rfl, f, rows, keep⟩ := refreshOperation_ok refreshed
    exact ⟨(Kept.refl s).jobs, (Kept.refl s).targets, ⟨f, rows, fun o => ⟨(keep o).1, (keep o).2.1⟩⟩, rfl, rfl, rfl⟩
  | _ => exact .of_eq rfl rfl rfl rfl rfl rfl

theorem jobs_rule : Rule Kept := .of_writes .refl .trans kept_of_writes

structure Served (s : Store) : Prop where
  linked : Linked s
  handed : ∀ j ∈ s.jobs, j.deliveredAt ≠ none → published j.status
  replied : ∀ j ∈ s.jobs, j.result ≠ none → answered j.status

theorem Served.empty : Served Store.empty :=
  ⟨Linked.empty, fun j hj => absurd hj (Table.not_mem_empty j),
    fun j hj => absurd hj (Table.not_mem_empty j)⟩

structure Later (s s' : Store) : Prop where
  jobs : ∀ j ∈ s.jobs, ∃ j' ∈ s'.jobs, JobStep j j'
  served : Served s → Served s'

theorem Later.refl (s : Store) : Later s s := ⟨fun j hj => ⟨j, hj, .refl j⟩, id⟩

theorem Later.trans (h : Later s s') (h' : Later s' s'') : Later s s'' := by
  refine ⟨fun j hj => ?_, h'.served ∘ h.served⟩
  obtain ⟨j', hj', first⟩ := h.jobs j hj
  obtain ⟨j'', hj'', second⟩ := h'.jobs j' hj'
  exact ⟨j'', hj'', first.trans second⟩

theorem Kept.later (h : Kept s s') : Later s s' := by
  refine ⟨fun j hj => h.job hj, fun hs =>
    ⟨h.linked hs.linked, fun j' hj' delivered => ?_, fun j' hj' result => ?_⟩⟩
  · obtain ⟨j, hj, same⟩ := h.of_job hj'
    exact (same.handed delivered).elim (fun old => same.published (hs.handed j hj old)) id
  · obtain ⟨j, hj, same⟩ := h.of_job hj'
    exact (same.replied result).elim (fun old => same.answered (hs.replied j hj old)) id

theorem Later.of_eq (jobs : s'.jobs = s.jobs) (targets : s'.targets = s.targets)
    (operations : s'.operations = s.operations) : Later s s' := by
  refine ⟨fun j hj => ⟨j, by rwa [jobs], .refl j⟩, fun hs =>
    ⟨?_, by rw [jobs]; exact hs.handed, by rw [jobs]; exact hs.replied⟩⟩
  have linked := hs.linked
  exact ⟨by rw [jobs, targets]; exact linked.target, by rw [targets, operations]; exact linked.operation,
    by rw [jobs, operations]; exact linked.action, by rw [jobs]; exact linked.scope⟩

theorem later_rule : Rule Later := jobs_rule.mono Kept.later Later.trans

theorem acceptReport_later {rep : AgentReport} {call : Ingestion.Call}
    {out : Ingestion.AcceptedReport} (h : Ingestion.acceptReport c s rep call = .ok (s', out)) : Later s s' := by
  obtain ⟨-, ⟨-, rfl, -⟩ | ⟨-, added⟩⟩ := Ingestion.acceptReport_ok h
  · exact .refl s'
  · exact .of_eq added.control.2.2 added.control.2.1 added.control.1

theorem handleReport_later (controller : String) (rep : AgentReport) (x : ReportHandler.Request) :
    Later s (ReportHandler.handleReport c controller s rep x).1 :=
  later_rule.handleReport acceptReport_later controller

theorem inserted_later {op : NewOperation} (h : Inserted op s s') : Later s s' := by
  refine ⟨fun j hj => ⟨j, h.grown.old_jobs j hj, .refl j⟩, fun hs =>
    ⟨h.linked hs.linked, fun j hj delivered => ?_, fun j hj result => ?_⟩⟩
  · obtain old | ⟨x, -, -, rfl, -⟩ := h.grown.new_jobs j hj
    · exact hs.handed j old delivered
    · exact absurd rfl delivered
  · obtain old | ⟨x, -, -, rfl, -⟩ := h.grown.new_jobs j hj
    · exact hs.replied j old result
    · exact absurd rfl result

theorem insertOperation_later {op : NewOperation} {model : Option ModelIntent}
    (h : insertOperation s op model = .ok s') : Later s s' := by
  obtain ⟨u, inserted, ⟨-, rfl⟩ | ⟨m, -, hm⟩⟩ := insertOperation_ok h
  · exact inserted_later inserted
  · exact (inserted_later inserted).trans (later_rule.insertIntent (fun _ _ => .of_eq rfl rfl rfl) hm)

theorem step_later (s : Store) (e : Event) : Later s (step s e) := by
  cases e with
  | world w => exact .of_eq rfl rfl rfl
  | _ => exact later_rule.step_inside insertOperation_later s _ fun _ => by simp

end Monik.JobPermanence
