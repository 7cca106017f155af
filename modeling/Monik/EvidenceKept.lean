import Monik.ModelEvidence
import Monik.ReceiptDrain

/-! Whether later reports can take the proof of a model effect away: the search looks only at the
eight newest samples that name profile and generation. -/

namespace Monik.EvidenceKept
open Protocol Tables ControllerStore Operations JobEvolution JobSteps Ingestion SparkProjection
open SparkReservation SparkIngestion SparkReceipts ModelEvidence Runs

variable {json : SparkJson} {codec : Codec} {stages : StageJson} {form : ReceiptForm} {s : SparkStore}
  {agent : String} {j : JobRow} {r : JobReceipt} {w : Wanted} {row : SparkSampleRow}

def Uncrowded (json : SparkJson) (s : Store) (agent : String) (w : Wanted) (row : SparkSampleRow) : Prop :=
  s.sparkSamples.count (fun o => selected json agent w o && decide (row.observedAt ≤ o.observedAt)) ≤ 8

instance newerFirst_total : Std.Total fun a b : SparkSampleRow => b.observedAt ≤ a.observedAt :=
  ⟨fun a b => le_total b.observedAt a.observedAt⟩

instance newerFirst_trans : IsTrans SparkSampleRow fun a b => b.observedAt ≤ a.observedAt :=
  ⟨fun _ _ _ h h' => le_trans h' h⟩

theorem proven_of_sample (hw : wanted stages s.store j r = some w) (stored : row ∈ s.store.sparkSamples)
    (chosen : selected json agent w row) (shows : rowMatches json w row)
    (room : Uncrowded json s.store agent w row) : sparkReceiptProven json stages s agent j r := by
  have newest : row ∈ newestSamples json s.store agent w := by
    refine mem_limit (List.mem_filter.mpr ⟨stored, chosen⟩) ?_
    rw [List.countP_filter]
    refine Nat.le_trans (List.countP_mono_left fun o _ met => ?_) room
    simpa [and_comm] using met
  rw [sparkReceiptProven, hw, Option.any_some, Bool.or_eq_true]
  exact .inr (List.any_eq_true.mpr ⟨row, newest, shows⟩)

def Event.inside : Event → Bool
  | .other _ => false
  | _ => true

theorem acceptReport_intents {s s' : SparkStore} {rep : AgentReport} {call : Call} {classified : Bool}
    {out : AcceptedReport} (h : SparkIngestion.acceptReport json codec s rep call classified = .ok (s', out)) :
    s'.store.intents = s.store.intents := by
  obtain ⟨-, ⟨-, same, -⟩ | ⟨-, added⟩⟩ := acceptReport_ok (SparkBudget.acceptReport_cases h).1
  · rw [same]
  · exact added.intents

theorem step_intents (e : Event) (inside : Event.inside e) :
    (step json codec stages form s e).store.intents = s.store.intents := by
  cases e with
  | report rep call classified =>
    simp only [step]
    split
    · rename_i accepted
      exact acceptReport_intents accepted
    · rfl
  | receipt agent r => exact (step_judged json codec stages form s (.receipt agent r) rfl).intents
  | reconcile agent updatedAt => exact (step_judged json codec stages form s (.reconcile agent updatedAt) rfl).intents
  | retain maxAge now table => cases table <;> rfl
  | other store => cases inside

theorem wanted_congr {s s' : Store} (intents : s'.intents = s.intents) :
    wanted stages s' j r = wanted stages s j r := by
  unfold wanted issuedStage
  rw [intents]

theorem wanted_run {events : List Event} (inside : ∀ e ∈ events, Event.inside e) :
    wanted stages (run (step json codec stages form) s events).store j r = wanted stages s.store j r := by
  induction events generalizing s with
  | nil => rfl
  | cons e events ih =>
    rw [run_cons, ih fun e' he' => inside e' (List.mem_cons_of_mem e he')]
    exact wanted_congr (step_intents e (inside e (by simp)))

structure Unproven (form : ReceiptForm) (s : Store) (j : JobRow) (r : JobReceipt) : Prop where
  job : j ∈ s.jobs
  receipt : j.result = some r
  marked : ReportHandler.unverifiedModel s j.agentId j
  jobId : r.jobId = j.jobId
  valid : form.valid r
  named : r.operationId = "" ∨ r.operationId = j.operationId
  operation : ∃ o ∈ s.operations, o.id = j.operationId

structure Waits (form : ReceiptForm) (s : Store) (j : JobRow) (r : JobReceipt) : Prop where
  job : j ∈ s.jobs
  receipt : j.result = some r
  model : j.action.isModel
  unknown : j.status = .of .unknownResult
  claimed : r.status = .succeeded
  jobId : r.jobId = j.jobId
  valid : form.valid r
  named : r.operationId = "" ∨ r.operationId = j.operationId
  operation : ∃ o ∈ s.operations, o.id = j.operationId

theorem Unproven.waits {s : Store} (h : Unproven form s j r) : Waits form s j r := by
  have marked := h.marked
  simp only [ReportHandler.unverifiedModel, Bool.and_eq_true, beq_iff_eq, h.receipt, Option.any_some] at marked
  obtain ⟨⟨⟨⟨-, model⟩, unknown⟩, -⟩, claimed⟩ := marked
  exact ⟨h.job, h.receipt, model, unknown, claimed, h.jobId, h.valid, h.named, h.operation⟩

theorem Waits.find {s : Store} (h : Waits form s j r) :
    s.jobs.find? (fun k => k.jobId == r.jobId && k.agentId == j.agentId) = some j := by
  refine Table.find?_eq_some h.job (by simp [h.jobId]) fun k hk => ?_
  simp only [Bool.and_eq_true, beq_iff_eq] at hk
  exact hk.1.trans h.jobId

theorem Waits.applied (json : SparkJson) (stages : StageJson) (h : Waits form s.store j r) :
    ∃ u, Operations.applyReceipt s.store j.agentId r (answers json stages form s j.agentId r) = .ok u ∧
      recordReceipt s.store j.agentId j r
        (judge s.store j.agentId j r (answers json stages form s j.agentId r)) = .ok u := by
  have named : ¬(r.operationId ≠ "" ∧ r.operationId ≠ j.operationId) := by
    rintro ⟨some, other⟩
    exact h.named.elim some other
  obtain ⟨o, ho, id⟩ := h.operation
  obtain ⟨u, recorded⟩ : ∃ u, recordReceipt s.store j.agentId j r
      (judge s.store j.agentId j r (answers json stages form s j.agentId r)) = .ok u := by
    unfold recordReceipt
    rw [← id]
    exact refreshOperation_total ho
  have closed : supersededRestart s.store j.agentId j = false := by simp [supersededRestart, h.unknown]
  have formed : (answers json stages form s j.agentId r).valid := by simp [answers, h.find, h.valid]
  refine ⟨u, ?_, recorded⟩
  unfold Operations.applyReceipt
  simp [h.find, h.claimed, TargetStatus.workerReported, named, formed, h.receipt, h.unknown, h.model, closed,
    JobStatus.terminal, TargetStatus.terminal, TargetStatus.rank, recorded]

theorem Waits.succeeds (h : Waits form s.store j r) (shown : sparkReceiptProven json stages s j.agentId j r) :
    { j with status := .of .succeeded, result := some r } ∈
      (SparkReceipts.applyReceipt json stages form j.agentId s r).store.jobs := by
  have accepted : judge s.store j.agentId j r (answers json stages form s j.agentId r) = r := by
    simp only [judge, answers, h.find, isModel_proven h.model, shown, Bool.true_eq_false, and_false, if_false]
  obtain ⟨u, applied, recorded⟩ := h.applied json stages
  rw [accepted] at recorded
  have written := (ReceiptDrain.recordReceipt_rows recorded).1
  simp only [SparkReceipts.applyReceipt, applied, commit]
  rw [← Table.mem_rows, written]
  refine List.mem_map.mpr ⟨j, h.job, ?_⟩
  simp [h.claimed]

theorem applyReceipt_leaves {s s' : Store} {spark : SparkAnswers}
    (h : Operations.applyReceipt s agent r spark = .ok s') (hj : j ∈ s.jobs)
    (other : j.jobId ≠ r.jobId ∨ j.status.terminal) : j ∈ s'.jobs := by
  obtain rfl | ⟨k, hk, id, -, unsettled, -, -, recorded⟩ := applyReceipt_cases h
  · exact hj
  rw [← Table.mem_rows, (ReceiptDrain.recordReceipt_rows recorded).1]
  refine List.mem_map.mpr ⟨j, hj, if_neg fun found => ?_⟩
  simp only [Bool.and_eq_true, beq_iff_eq] at found
  have same := s.jobs.eq_of_key hj hk found.1
  subst same
  obtain different | closed := other
  · exact different id
  · rw [closed] at unsettled
    cases unsettled

theorem sparkReceipt_leaves {r' : JobReceipt} (hj : j ∈ s.store.jobs)
    (other : j.jobId ≠ r'.jobId ∨ j.status.terminal) :
    j ∈ (SparkReceipts.applyReceipt json stages form agent s r').store.jobs := by
  unfold SparkReceipts.applyReceipt
  cases applied : Operations.applyReceipt s.store agent r' (answers json stages form s agent r') with
  | error e => exact hj
  | ok u => exact applyReceipt_leaves applied hj other

theorem sparkReceipt_operation {r' : JobReceipt} {op : String} (h : ∃ o ∈ s.store.operations, o.id = op) :
    ∃ o ∈ (SparkReceipts.applyReceipt json stages form agent s r').store.operations, o.id = op := by
  unfold SparkReceipts.applyReceipt
  cases applied : Operations.applyReceipt s.store agent r' (answers json stages form s agent r') with
  | error e => exact h
  | ok u =>
    obtain ⟨o, ho, id⟩ := h
    obtain ⟨o', ho', same, -⟩ := (JobPermanence.jobs_rule.receipt applied).operation ho
    exact ⟨o', ho', same.trans id⟩

theorem Waits.other {r' : JobReceipt} (h : Waits form s.store j r) (other : j.jobId ≠ r'.jobId) :
    Waits form (SparkReceipts.applyReceipt json stages form agent s r').store j r :=
  { h with
    job := sparkReceipt_leaves h.job (.inl other)
    operation := sparkReceipt_operation h.operation }

/-- The pass comes to every job it has read. -/
theorem Waits.stored {u : SparkStore} {jobs : List JobRow} (h : Waits form u.store j r)
    (shown : sparkReceiptProven json stages s j.agentId j r) (judged : Judged json stages s u)
    (waiting : ∀ k ∈ jobs, k.agentId = j.agentId ∧ ∃ r, Waits form u.store k r)
    (distinct : (jobs.map JobRow.jobId).Nodup) (turn : j ∈ jobs) :
    { j with status := .of .succeeded, result := some r } ∈
      (ReportHandler.applyStored (tryReceipt json stages form j.agentId) (jobs.filterMap JobRow.result)
        u).store.jobs := by
  induction jobs generalizing u with
  | nil => cases turn
  | cons k jobs ih =>
    obtain ⟨apart, distinct⟩ := List.nodup_cons.mp distinct
    obtain ⟨agent, rk, waits⟩ := waiting k (by simp)
    obtain ⟨store, applied, -⟩ := waits.applied json stages
    rw [agent] at applied
    have tried : tryReceipt json stages form j.agentId u rk = .ok { u with store } := by
      rw [tryReceipt, applied]
      rfl
    have next := tryReceipt_ok tried
    rw [List.filterMap_cons_some waits.receipt, ReportHandler.applyStored, tried]
    rw [← next]
    rcases List.mem_cons.mp turn with rfl | later
    · obtain rfl : rk = r := Option.some.inj (waits.receipt.symm.trans h.receipt)
      rw [← sparkReceiptProven_congr judged.latest judged.samples judged.intents] at shown
      refine ReportHandler.applyStored_invariant
        (fun v : SparkStore => { j with status := .of .succeeded, result := some rk } ∈ v.store.jobs)
        (h.succeeds shown) fun r' _ v w hw there => ?_
      rw [← tryReceipt_ok hw]
      exact sparkReceipt_leaves there (.inr rfl)
    · have foreign : ∀ k' ∈ jobs, k'.jobId ≠ rk.jobId := by
        rintro k' hk' same
        exact apart (waits.jobId ▸ same ▸ List.mem_map_of_mem hk')
      refine ih (h.other (foreign j later)) (judged.receipt j.agentId rk) (fun k' hk' => ?_) distinct later
      obtain ⟨agent', r', waits'⟩ := waiting k' (by simp [hk'])
      exact ⟨agent', r', waits'.other (foreign k' hk')⟩

/-- So many unproven jobs of the agent are looked at up to this one. -/
def Turn (s : Store) (updatedAt : JobRow → Time) (j : JobRow) : Nat :=
  s.jobs.count fun k => ReportHandler.unverifiedModel s j.agentId k && decide (inOrder updatedAt k j)

theorem Unproven.reconciled (h : Unproven form s.store j r)
    (shown : sparkReceiptProven json stages s j.agentId j r)
    (recorded : ∀ k ∈ s.store.jobs, ReportHandler.unverifiedModel s.store j.agentId k →
      ∃ r, Unproven form s.store k r) {updatedAt : JobRow → Time} (turn : Turn s.store updatedAt j ≤ 16) :
    { j with status := .of .succeeded, result := some r } ∈
      (SparkReceipts.reconcileUnverified json stages form j.agentId updatedAt s).store.jobs := by
  have chosen : j ∈ ReportHandler.unverifiedJobs s.store j.agentId updatedAt := by
    refine mem_limit (List.mem_filter.mpr ⟨h.job, h.marked⟩) ?_
    rw [List.countP_filter]
    refine Nat.le_trans (List.countP_mono_left fun k _ met => ?_) turn
    simpa [and_comm] using met
  have listed : ∀ k ∈ ReportHandler.unverifiedJobs s.store j.agentId updatedAt, k.agentId = j.agentId ∧
      ∃ r, Unproven form s.store k r := by
    intro k hk
    obtain ⟨mem, marked⟩ := ReportHandler.mem_unverifiedJobs hk
    refine ⟨?_, recorded k mem marked⟩
    simp only [ReportHandler.unverifiedModel, Bool.and_eq_true, beq_iff_eq] at marked
    exact marked.1.1.1.1
  have own : (ReportHandler.unverifiedJobs s.store j.agentId updatedAt).all ReportHandler.ownReceipt := by
    refine List.all_eq_true.mpr fun k hk => ?_
    obtain ⟨-, r, unproven⟩ := listed k hk
    simpa [ReportHandler.ownReceipt, unproven.receipt, unproven.jobId] using unproven.named
  unfold SparkReceipts.reconcileUnverified ReportHandler.reconcileReceipts
  rw [if_pos own]
  refine h.waits.stored shown (.refl s) (fun k hk => ?_) (s.store.jobs.limit_distinct _ _ 16) chosen
  obtain ⟨agent, r, unproven⟩ := listed k hk
  exact ⟨agent, r, unproven.waits⟩

/-- While the matching sample is there and not crowded out, the proof is found, and a success recorded
without it becomes one as soon as its turn comes. -/
theorem model_proof_kept (json : SparkJson) (codec : Codec) (stages : StageJson) (form : ReceiptForm)
    (s : SparkStore) (j : JobRow) (r : JobReceipt) (w : Wanted) (row : SparkSampleRow)
    (binding : wanted stages s.store j r = some w) (chosen : selected json j.agentId w row)
    (shows : rowMatches json w row) (events : List Event)
    (inside : ∀ e ∈ events, Event.inside e)
    (stored : row ∈ (run (step json codec stages form) s events).store.sparkSamples)
    (room : Uncrowded json (run (step json codec stages form) s events).store j.agentId w row) :
    let u := run (step json codec stages form) s events
    sparkReceiptProven json stages u j.agentId j r ∧
      (Unproven form u.store j r →
        (∀ k ∈ u.store.jobs, ReportHandler.unverifiedModel u.store j.agentId k →
          ∃ r, Unproven form u.store k r) →
        ∀ updatedAt : JobRow → Time, Turn u.store updatedAt j ≤ 16 →
          { j with status := .of .succeeded, result := some r } ∈
            (step json codec stages form u (.reconcile j.agentId updatedAt)).store.jobs) := by
  intro u
  have same : wanted stages u.store j r = some w := (wanted_run inside).trans binding
  have shown := proven_of_sample same stored chosen shows room
  exact ⟨shown, fun unproven recorded _ turn => unproven.reconciled shown recorded turn⟩

def ticks : List (String × Time) :=
  [("1", 1), ("2", 2), ("3", 3), ("4", 4), ("5", 5), ("6", 6), ("7", 7), ("8", 8)]

def stateAt (supervisor : SupervisorState) (observed : Time) : SparkExtension :=
  ⟨1, .unknown, [], none, [⟨"q", 1, observed, supervisor, .unknown, .ok, ""⟩], none⟩

def startTexts : SparkJson where
  marshal _ := ""
  unmarshal text :=
    if text = "started" then some (stateAt .running minute)
    else (ticks.find? fun tick => tick.1 == text).map fun tick => stateAt .stopped (minute + tick.2 * second)

def startReport (sequence : Int) (text : String) (at' : Time) : Event :=
  .report { SparkBudget.packet sequence text with observedAt := at', reportedAt := at' }
    ⟨at', at', at', false, true, true, false, false, none⟩ false

def startJob : JobRow :=
  { stopJob (.of .running) none with
    action := .modelStart
    envelope := ⟨"j1", "o1", .modelStart, schemaVersion, 0, some hour, stopParams⟩ }

def starting : Store :=
  { stopping with
    operations := ⟨[⟨"o1", .modelStart, .running, 1, "admin", "k1", "h1", 0, none⟩], by simp⟩
    jobs := ⟨[startJob], by simp⟩ }

def startReceipt : JobReceipt :=
  { stopReceipt with
    stage := "model_started"
    evidence := [("profile_id", .str "q"), ("profile_revision", .str SparkBudget.revision),
      ("control_epoch", .str "e1"), ("agent_session", .str "s1"), ("generation", .int 1)] }

def startRow : SparkSampleRow := ⟨"a1", "s1", 1, minute, "started"⟩

def laterReports : List Event := ticks.map fun tick => startReport (tick.2 + 1) tick.1 (minute + tick.2 * second)

/-- The receipt comes before the sample that proves it, and seven later samples hide nothing yet. -/
def earlyReceipt : SparkStore :=
  run (step startTexts SparkBudget.hashes noStages anyForm) initial
    [.other starting, .receipt "a1" startReceipt, startReport 1 "started" minute]

def unprovenStart : JobRow := { startJob with status := .of .unknownResult, result := some startReceipt }

theorem early_receipt_proven_later :
    let u := run (step startTexts SparkBudget.hashes noStages anyForm) earlyReceipt (laterReports.take 7)
    u.store.jobs.rows = [unprovenStart] ∧
      { unprovenStart with status := .of .succeeded } ∈
        (step startTexts SparkBudget.hashes noStages anyForm u (.reconcile "a1" fun _ => 0)).store.jobs := by
  intro u
  have rows : u.store.jobs.rows = [unprovenStart] := by decide +kernel
  have unproven : Unproven anyForm u.store unprovenStart startReceipt :=
    ⟨by rw [← Table.mem_rows, rows]; simp, rfl, by decide +kernel, rfl, rfl, by decide, by decide +kernel⟩
  refine ⟨rows, (model_proof_kept startTexts SparkBudget.hashes noStages anyForm earlyReceipt unprovenStart startReceipt
    ⟨.modelStart, 0, ⟨"q", SparkBudget.revision, 0, "e1", "s1", true⟩, startReceipt, 0⟩ startRow (by decide +kernel)
    (by decide +kernel) (by decide +kernel) (laterReports.take 7) (by decide) (by decide +kernel)
    (by unfold Uncrowded; decide +kernel)).2 unproven ?_ _ (by decide +kernel)⟩
  intro k hk _
  exact ⟨startReceipt, List.mem_singleton.mp hk ▸ unproven⟩

theorem started_model_forgotten :
    let before := run (step startTexts SparkBudget.hashes noStages anyForm) initial
      [.other starting, startReport 1 "started" minute]
    let after := run (step startTexts SparkBudget.hashes noStages anyForm) before laterReports
    sparkReceiptProven startTexts noStages before "a1" startJob startReceipt ∧
      startRow ∈ before.store.sparkSamples ∧ startRow ∈ after.store.sparkSamples ∧
      sparkReceiptProven startTexts noStages after "a1" startJob startReceipt = false ∧
      (step startTexts SparkBudget.hashes noStages anyForm after
        (.receipt "a1" startReceipt)).store.jobs.rows.map JobRow.status = [.of .unknownResult] ∧
      (step startTexts SparkBudget.hashes noStages anyForm before
        (.receipt "a1" startReceipt)).store.jobs.rows.map JobRow.status = [.of .succeeded] := by
  decide +kernel

end Monik.EvidenceKept
