import Monik.EvidenceKept

/-! The order in which receipts of one job arrive. Progress is ranked and a final status takes no
further receipt; `unknown_result` is not final and has no rank, so later progress is recorded over
it. -/

namespace Monik.ReceiptOrder
open Protocol Tables ControllerStore Operations JobEvolution JobSteps SparkIngestion SparkReservation
open SparkReceipts

variable {status : TargetStatus} {delivery : List JobReceipt}

def isResult : TargetStatus → Bool
  | .failed | .rejected | .unsupported | .expired | .rolledBack | .unknownResult => true
  | _ => false

theorem isResult_reported (h : isResult status) :
    status.workerReported ∧ status.rank = 0 ∧ status ≠ .succeeded ∧
      (status ≠ .unknownResult → status.terminal) := by
  cases status <;> simp_all [isResult, TargetStatus.workerReported, TargetStatus.rank, TargetStatus.terminal]

theorem progress_reported (h : 0 < status.rank) :
    status.workerReported ∧ status.terminal = false ∧ isResult status = false ∧ status ≠ .succeeded := by
  cases status <;>
    simp_all [isResult, TargetStatus.workerReported, TargetStatus.rank, TargetStatus.terminal]

/-- A receipt for the job, in the typed form if it is a model job; a worker that does not attempt the start
of a restart reports a failure. -/
structure Formed (form : ReceiptForm) (j : JobRow) (r : JobReceipt) : Prop where
  jobId : r.jobId = j.jobId
  named : r.operationId = "" ∨ r.operationId = j.operationId
  model : j.action.isModel →
    form.valid r ∧ (r.stage = "restart_start_not_attempted" → r.status = .failed)

/-- Such a failure is to quote the receipt on record. -/
def Heard (form : ReceiptForm) (j : JobRow) (r : JobReceipt) : Prop :=
  j.action.isModel → r.stage = "restart_start_not_attempted" →
    j.action = .modelRestart ∧ quotesStop form j r

theorem Formed.heard {form : ReceiptForm} {j : JobRow} {r : JobReceipt} (h : Formed form j r)
    (rank : 0 < r.status.rank) : Heard form j r := by
  intro model stage
  rw [(h.model model).2 stage] at rank
  cases rank

theorem Heard.congr {form : ReceiptForm} {j k : JobRow} {r : JobReceipt} (h : Heard form j r)
    (action : k.action = j.action) (result : k.result = j.result) : Heard form k r := by
  rw [Heard, quotesStop, action, result]
  exact h

structure Issued (form : ReceiptForm) (j : JobRow) (progress : List JobReceipt) (result : JobReceipt) :
    Prop where
  formed : ∀ r ∈ result :: progress, Formed form j r
  progress : ∀ r ∈ progress, 0 < r.status.rank
  result : isResult result.status

def Settled (s : Store) (j : JobRow) (status : TargetStatus) : Prop :=
  (∃ j' ∈ s.jobs, j'.jobId = j.jobId ∧ j'.status = .of status) ∧
    ∃ t ∈ s.targets, t.key = j.key ∧ t.status = status

section
variable (json : SparkJson) (stages : StageJson) (form : ReceiptForm)

def deliver (agent : String) (s : SparkStore) (delivery : List JobReceipt) : SparkStore :=
  delivery.foldl (SparkReceipts.applyReceipt json stages form agent) s

end

variable {json : SparkJson} {stages : StageJson} {form : ReceiptForm} {s : SparkStore} {j j₀ : JobRow}
  {r result : JobReceipt} {progress : List JobReceipt}

theorem find_formed (hj : j ∈ s.store.jobs) (h : Formed form j r) :
    s.store.jobs.find? (fun k => k.jobId == r.jobId && k.agentId == j.agentId) = some j :=
  ReceiptDrain.find_job hj h.jobId

theorem applyReceipt_unheard (hj : j ∈ s.store.jobs) (h : Formed form j r)
    (unheard : ¬Heard form j r) (new : j.result ≠ some r) :
    SparkReceipts.applyReceipt json stages form j.agentId s r = s := by
  obtain ⟨model, stage, missing⟩ : j.action.isModel ∧ r.stage = "restart_start_not_attempted" ∧
      ¬(j.action = .modelRestart ∧ quotesStop form j r) := by
    simpa only [Heard, Classical.not_imp] using unheard
  have refused : j.action.isModel ∧ r.stage = "restart_start_not_attempted" ∧
      ¬(j.action = .modelRestart ∧ (answers json stages form s j.agentId r).quotesStop) ∧
      j.result ≠ some r := by
    rw [answers, find_formed hj h]
    exact ⟨model, stage, missing, new⟩
  unfold SparkReceipts.applyReceipt Operations.applyReceipt
  simp only [find_formed hj h, if_pos refused]
  split_ifs <;> rfl

theorem applyReceipt_formed (hj : j ∈ s.store.jobs) (h : Formed form j r)
    (heard : Heard form j r ∨ j.result = some r) (reported : r.status.workerReported) (plain : r.status ≠ .succeeded)
    (published : j.status ≠ .preparing ∧ j.status ≠ .rolloutHeld) :
    SparkReceipts.applyReceipt json stages form j.agentId s r =
      if j.result = some r ∨ j.status.terminal ∨ 0 < r.status.rank ∧ r.status.rank < j.status.rank then s
      else { s with store := commit s.store (recordReceipt s.store j.agentId j r r) } := by
  have named : ¬(r.operationId ≠ "" ∧ r.operationId ≠ j.operationId) := by
    rintro ⟨some, other⟩
    exact h.named.elim some other
  have formed : ¬(j.action.isModel ∧ (answers json stages form s j.agentId r).valid = false) := by
    rintro ⟨model, invalid⟩
    simp [answers, find_formed hj h, (h.model model).1] at invalid
  have plainStage : ¬(j.action.isModel ∧ r.stage = "restart_start_not_attempted" ∧
      ¬(j.action = .modelRestart ∧ (answers json stages form s j.agentId r).quotesStop) ∧
      j.result ≠ some r) := by
    rw [answers, find_formed hj h]
    rintro ⟨model, stage, missing, new⟩
    exact missing (heard.resolve_right new model stage)
  have judged : judge s.store j.agentId j r (answers json stages form s j.agentId r) = r := by
    simp [judge, plain]
  have closes : supersededRestart s.store j.agentId j → j.status.terminal := by
    intro superseded
    simp only [supersededRestart, Bool.and_eq_true, beq_iff_eq] at superseded
    rw [superseded.1.2]
    rfl
  have applied : Operations.applyReceipt s.store j.agentId r (answers json stages form s j.agentId r) =
      if j.result = some r then .ok s.store
      else if supersededRestart s.store j.agentId j then .ok s.store
      else if j.status.terminal then .error .conflict
      else if 0 < r.status.rank ∧ r.status.rank < j.status.rank then .ok s.store
      else recordReceipt s.store j.agentId j r r := by
    unfold Operations.applyReceipt
    simp only [reported, Bool.not_true, Bool.false_eq_true, if_false, find_formed hj h, named, formed, plainStage,
      published.1, published.2, or_self, plain, and_false, not_false_eq_true, and_true, judged]
  unfold SparkReceipts.applyReceipt
  rw [applied]
  by_cases known : j.result = some r
  · simp [known, commit]
  by_cases closed : j.status.terminal
  · by_cases superseded : supersededRestart s.store j.agentId j <;> simp [known, closed, superseded, commit]
  have running : ¬supersededRestart s.store j.agentId j := fun superseded => closed (closes superseded)
  by_cases late : 0 < r.status.rank ∧ r.status.rank < j.status.rank
  · rw [if_neg known, if_neg running, if_neg closed, if_pos late, if_pos (.inr (.inr late))]
    rfl
  · rw [if_neg known, if_neg running, if_neg closed, if_neg late, if_neg]
    rintro (same | final | behind)
    · exact known same
    · exact closed final
    · exact late behind

structure Awaits (form : ReceiptForm) (s : SparkStore) (j₀ : JobRow) (result : JobReceipt) (j : JobRow) :
    Prop where
  linked : Linked s.store
  job : j ∈ s.store.jobs
  jobId : j.jobId = j₀.jobId
  key : j.key = j₀.key
  action : j.action = j₀.action
  published : j.status ≠ .preparing ∧ j.status ≠ .rolloutHeld
  unsettled : j.status.terminal = false
  new : j.result ≠ some result
  rank : j₀.status.rank ≤ j.status.rank
  heard : Heard form j result

theorem Formed.same (h : Formed form j₀ r) (jobId : j.jobId = j₀.jobId) (key : j.key = j₀.key)
    (action : j.action = j₀.action) : Formed form j r := by
  refine ⟨h.jobId.trans jobId.symm, ?_, ?_⟩
  · rw [show j.operationId = j₀.operationId from congrArg Prod.fst key]
    exact h.named
  · rw [action]
    exact h.model

def noted (j : JobRow) (r : JobReceipt) : JobRow := { j with status := .of r.status, result := some r }

/-- The result is heard over what is on record and over what progress can put there. -/
def Quotes (form : ReceiptForm) (j : JobRow) (progress : List JobReceipt) (result : JobReceipt) : Prop :=
  Heard form j result ∧ ∀ p ∈ progress, j.status.rank ≤ p.status.rank → Heard form (noted j p) result

theorem recorded (hl : Linked s.store) (hj : j ∈ s.store.jobs) (unsettled : j.status.terminal = false)
    (unheld : j.status ≠ .rolloutHeld) (reported : r.status.workerReported) :
    let u := commit s.store (recordReceipt s.store j.agentId j r r)
    Linked u ∧ noted j r ∈ u.jobs ∧ Settled u j r.status := by
  obtain ⟨u, recorded⟩ := ReceiptDrain.recordReceipt_total hl hj r r
  rw [recorded]
  have named : r.status ≠ .waitingOffline := by
    intro waits
    rw [waits] at reported
    cases reported
  have linked := (recordReceipt_steps (p := DispatchSafety.anything) hl hj rfl unsettled unheld named recorded).linked hl
  obtain ⟨jobs, targets⟩ := ReceiptDrain.recordReceipt_rows recorded
  have row : noted j r ∈ u.jobs := by
    rw [← Table.mem_rows, jobs]
    exact List.mem_map.mpr ⟨j, hj, by simp [noted]⟩
  obtain ⟨t, ht, key, -⟩ := hl.target j hj
  refine ⟨linked, row, ⟨noted j r, row, rfl, rfl⟩, (writeOf r).apply t, ?_, key, rfl⟩
  change _ ∈ u.targets
  rw [← Table.mem_rows, targets]
  exact List.mem_map.mpr ⟨t, ht, if_pos (hasKey_iff.mpr key)⟩

theorem Settled.of_key {u : Store} (h : Settled u j status) (jobId : j.jobId = j₀.jobId) (key : j.key = j₀.key) :
    Settled u j₀ status := by
  obtain ⟨⟨j', hj', id, done⟩, t, ht, same, closed⟩ := h
  exact ⟨⟨j', hj', id.trans jobId, done⟩, t, ht, same.trans key, closed⟩

theorem Awaits.agent (h : Awaits form s j₀ result j) : j.agentId = j₀.agentId := congrArg Prod.snd h.key

theorem Awaits.advance (h : Awaits form s j₀ result j) (issued : Issued form j₀ progress result)
    (quotes : Quotes form j₀ progress result) (hr : r ∈ progress) :
    ∃ j', Awaits form (SparkReceipts.applyReceipt json stages form j₀.agentId s r) j₀ result j' := by
  have rank := issued.progress r hr
  have formed := (issued.formed r (List.mem_cons_of_mem _ hr)).same h.jobId h.key h.action
  obtain ⟨reported, unsettled, progress, plain⟩ := progress_reported rank
  rw [← h.agent, applyReceipt_formed h.job formed (.inl (formed.heard rank)) reported plain h.published]
  split
  · exact ⟨j, h⟩
  · rename_i newer
    obtain ⟨linked, row, -⟩ := recorded h.linked h.job h.unsettled h.published.2 reported
    have higher : j₀.status.rank ≤ r.status.rank := by
      refine h.rank.trans (Nat.le_of_not_lt fun behind => newer ?_)
      exact .inr (.inr ⟨rank, behind⟩)
    refine ⟨noted j r, linked, row, h.jobId, h.key, h.action, ⟨nofun, nofun⟩, unsettled, ?_, higher,
      (quotes.2 r hr higher).congr h.action rfl⟩
    intro same
    cases same
    cases progress.symm.trans issued.result

structure Done (s : SparkStore) (j₀ : JobRow) (result : JobReceipt) (j : JobRow) : Prop where
  linked : Linked s.store
  job : j ∈ s.store.jobs
  jobId : j.jobId = j₀.jobId
  key : j.key = j₀.key
  action : j.action = j₀.action
  status : j.status = .of result.status
  known : j.result = some result
  settled : Settled s.store j₀ result.status

theorem Awaits.finish (h : Awaits form s j₀ result j) (formed : Formed form j₀ result)
    (final : isResult result.status) :
    ∃ j', Done (SparkReceipts.applyReceipt json stages form j₀.agentId s result) j₀ result j' := by
  obtain ⟨reported, rank, plain, -⟩ := isResult_reported final
  rw [← h.agent, applyReceipt_formed h.job (formed.same h.jobId h.key h.action) (.inl h.heard) reported plain
    h.published, if_neg (by simp [h.new, h.unsettled, rank])]
  obtain ⟨linked, row, settled⟩ := recorded h.linked h.job h.unsettled h.published.2 reported
  exact ⟨noted j result, linked, row, h.jobId, h.key, h.action, rfl, rfl, settled.of_key h.jobId h.key⟩

theorem Done.fixed (h : Done s j₀ result j) (formed : Formed form j₀ r) (heard : 0 < r.status.rank ∨ r = result)
    (reported : r.status.workerReported) (plain : r.status ≠ .succeeded)
    (same : result.status.terminal ∨ r = result) :
    SparkReceipts.applyReceipt json stages form j₀.agentId s r = s := by
  have agent : j.agentId = j₀.agentId := congrArg Prod.snd h.key
  have own := formed.same h.jobId h.key h.action
  have heard : Heard form j r ∨ j.result = some r := by
    rcases heard with rank | rfl
    · exact .inl (own.heard rank)
    · exact .inr h.known
  rw [← agent, applyReceipt_formed h.job own heard reported plain
    (by rw [h.status]; exact ⟨nofun, nofun⟩), if_pos]
  obtain final | rfl := same
  · rw [h.status]
    exact .inr (.inl final)
  · exact .inl h.known

theorem Issued.reported (h : Issued form j₀ progress result) (hr : r ∈ result :: progress) :
    r.status.workerReported ∧ r.status ≠ .succeeded := by
  obtain rfl | later := List.mem_cons.mp hr
  · obtain ⟨reported, -, plain, -⟩ := isResult_reported h.result
    exact ⟨reported, plain⟩
  · obtain ⟨reported, -, -, plain⟩ := progress_reported (h.progress r later)
    exact ⟨reported, plain⟩

def Stable (progress : List JobReceipt) (result : JobReceipt) : Prop :=
  result.status ≠ .unknownResult ∨ progress = []

theorem Done.stable (h : Done s j₀ result j) (issued : Issued form j₀ progress result)
    (stable : Stable progress result) (hr : r ∈ result :: progress) :
    SparkReceipts.applyReceipt json stages form j₀.agentId s r = s := by
  obtain ⟨reported, plain⟩ := issued.reported hr
  have heard : 0 < r.status.rank ∨ r = result := (List.mem_cons.mp hr).symm.imp_left (issued.progress r)
  refine h.fixed (issued.formed r hr) heard reported plain ?_
  obtain known | alone := stable
  · exact .inl ((isResult_reported issued.result).2.2.2 known)
  · subst alone
    exact .inr (by simpa using hr)

theorem Done.deliver (h : Done s j₀ result j) (issued : Issued form j₀ progress result)
    (stable : Stable progress result) (sent : ∀ r ∈ delivery, r ∈ result :: progress) :
    deliver json stages form j₀.agentId s delivery = s := by
  induction delivery with
  | nil => rfl
  | cons r delivery ih =>
    rw [ReceiptOrder.deliver, List.foldl_cons, h.stable issued stable (sent r (by simp))]
    exact ih fun r' hr' => sent r' (List.mem_cons_of_mem r hr')

theorem deliver_done (issued : Issued form j₀ progress result) (stable : Stable progress result)
    (quotes : Quotes form j₀ progress result) (sent : ∀ r ∈ delivery, r ∈ result :: progress)
    (arrives : result ∈ delivery) (h : Awaits form s j₀ result j) :
    ∃ j', Done (deliver json stages form j₀.agentId s delivery) j₀ result j' := by
  induction delivery generalizing s j with
  | nil => cases arrives
  | cons r delivery ih =>
    have rest : ∀ r' ∈ delivery, r' ∈ result :: progress := fun r' hr' => sent r' (List.mem_cons_of_mem r hr')
    by_cases now : r = result
    · subst now
      obtain ⟨j', done⟩ : ∃ j', Done (SparkReceipts.applyReceipt json stages form j₀.agentId s r) j₀ r j' :=
        h.finish (issued.formed r (by simp)) issued.result
      refine ⟨j', ?_⟩
      change Done (deliver json stages form j₀.agentId
        (SparkReceipts.applyReceipt json stages form j₀.agentId s r) delivery) j₀ r j'
      rwa [done.deliver issued stable rest]
    · have later : result ∈ delivery := (List.mem_cons.mp arrives).resolve_left (Ne.symm now)
      have mine : r ∈ progress := (List.mem_cons.mp (sent r (by simp))).resolve_left now
      obtain ⟨j', awaits⟩ : ∃ j', Awaits form (SparkReceipts.applyReceipt json stages form j₀.agentId s r) j₀ result j' :=
        h.advance issued quotes mine
      exact ih rest later awaits

theorem applyReceipt_closed (hj : j ∈ s.store.jobs) (formed : Formed form j r)
    (reported : r.status.workerReported) (plain : r.status ≠ .succeeded)
    (closed : j.status = .preparing ∨ j.status = .rolloutHeld ∨ j.status.terminal) :
    SparkReceipts.applyReceipt json stages form j.agentId s r = s := by
  by_cases published : j.status ≠ .preparing ∧ j.status ≠ .rolloutHeld
  · have final := (closed.resolve_left published.1).resolve_left published.2
    by_cases heard : Heard form j r ∨ j.result = some r
    · rw [applyReceipt_formed hj formed heard reported plain published, if_pos (.inr (.inl final))]
    · exact applyReceipt_unheard hj formed (not_or.mp heard).1 (not_or.mp heard).2
  · have waits : j.status = .preparing ∨ j.status = .rolloutHeld := by
      by_contra none
      exact published (not_or.mp none)
    unfold SparkReceipts.applyReceipt Operations.applyReceipt
    simp only [reported, Bool.not_true, Bool.false_eq_true, if_false, find_formed hj formed, if_pos waits]
    split_ifs <;> rfl

theorem deliver_closed (issued : Issued form j progress result) (hj : j ∈ s.store.jobs)
    (closed : j.status = .preparing ∨ j.status = .rolloutHeld ∨ j.status.terminal) (sent : ∀ r ∈ delivery, r ∈ result :: progress) :
    deliver json stages form j.agentId s delivery = s := by
  induction delivery with
  | nil => rfl
  | cons r delivery ih =>
    obtain ⟨reported, plain⟩ := issued.reported (sent r (by simp))
    rw [deliver, List.foldl_cons, applyReceipt_closed hj (issued.formed r (sent r (by simp))) reported plain closed]
    exact ih fun r' hr' => sent r' (List.mem_cons_of_mem r hr')

theorem Done.undone (h : Done s j₀ result j) (unknown : result.status = .unknownResult)
    (formed : Formed form j₀ r) (rank : 0 < r.status.rank) :
    SparkReceipts.applyReceipt json stages form j₀.agentId s r ≠ s := by
  intro unchanged
  obtain ⟨reported, -, -, plain⟩ := progress_reported rank
  have agent : j.agentId = j₀.agentId := congrArg Prod.snd h.key
  have unsettled : j.status.terminal = false := by
    rw [h.status, unknown]
    rfl
  have low : j.status.rank = 0 := by
    rw [h.status, unknown]
    rfl
  have published : j.status ≠ .preparing ∧ j.status ≠ .rolloutHeld := by
    rw [h.status]
    exact ⟨nofun, nofun⟩
  have other : j.result ≠ some r := by
    rw [h.known]
    rintro ⟨⟩
    rw [unknown] at rank
    cases rank
  have own := formed.same h.jobId h.key h.action
  rw [← agent, applyReceipt_formed h.job own (.inl (own.heard rank)) reported plain published,
    if_neg (by simp [other, unsettled, low])] at unchanged
  obtain ⟨-, row, -⟩ := recorded (r := r) h.linked h.job unsettled published.2 reported
  rw [show commit s.store (recordReceipt s.store j.agentId j r r) = s.store from congrArg SparkStore.store unchanged] at row
  have same : noted j r = j := s.store.jobs.eq_of_key row h.job rfl
  exact other (congrArg JobRow.result same).symm

/-- A result that is not heard leaves the job as it is. -/
theorem heard_of_settled {u : SparkStore} (hj : j ∈ u.store.jobs) (formed : Formed form j result) (open' : j.status.terminal = false) (new : j.result ≠ some result)
    (settled : Settled (SparkReceipts.applyReceipt json stages form j.agentId u result).store j result.status) :
    Heard form j result := by
  by_contra unheard
  rw [applyReceipt_unheard hj formed unheard new] at settled
  obtain ⟨⟨j', hj', id, done⟩, -⟩ := settled
  rw [u.store.jobs.eq_of_key hj' hj id] at done
  obtain ⟨model, stage⟩ : j.action.isModel ∧ result.stage = "restart_start_not_attempted" := by
    simp only [Heard, Classical.not_imp] at unheard
    exact ⟨unheard.1, unheard.2.1⟩
  rw [done, (formed.model model).2 stage] at open'
  cases open'

section
variable (json : SparkJson) (stages : StageJson) (form : ReceiptForm)

/-- In whatever order and number receipts arrive, with the result among them job and target have its status,
for good. -/
def Confluent (s : SparkStore) (j : JobRow) (progress : List JobReceipt) (result : JobReceipt) : Prop :=
  ∀ delivery : List JobReceipt, (∀ r ∈ delivery, r ∈ result :: progress) → result ∈ delivery →
    let u := deliver json stages form j.agentId s delivery
    Settled u.store j result.status ∧
      ∀ r ∈ result :: progress, SparkReceipts.applyReceipt json stages form j.agentId u r = u

/-- The order does not matter exactly if the job is open, the result is final or comes without progress and
quotes whatever may be on record if it has to, or the job was closed with that status. -/
theorem receipts_confluent_iff (s : SparkStore) (j : JobRow) (progress : List JobReceipt)
    (result : JobReceipt) (linked : Linked s.store) (hj : j ∈ s.store.jobs) (new : j.result ≠ some result)
    (issued : Issued form j progress result) :
    Confluent json stages form s j progress result ↔
      j.status ≠ .preparing ∧ j.status ≠ .rolloutHeld ∧ j.status.terminal = false ∧
          (result.status ≠ .unknownResult ∨ progress = []) ∧ Quotes form j progress result ∨
        j.status.terminal ∧ Settled s.store j result.status := by
  have once : ∀ r ∈ [result], r ∈ result :: progress := by simp
  have formed := issued.formed result List.mem_cons_self
  constructor
  · intro confluent
    obtain ⟨settled, fixed⟩ := confluent [result] once (by simp)
    by_cases final : j.status.terminal
    · rw [deliver_closed issued hj (.inr (.inr final)) once] at settled
      exact .inr ⟨final, settled⟩
    have open' : j.status.terminal = false := by simpa using final
    have unpublished : ¬(j.status = .preparing ∨ j.status = .rolloutHeld) := by
      intro waits
      rw [deliver_closed issued hj (waits.imp_right .inl) once] at settled
      obtain ⟨⟨j', hj', id, done⟩, -⟩ := settled
      rw [s.store.jobs.eq_of_key hj' hj id] at done
      rw [done] at waits
      obtain waits | waits := waits <;> cases waits
    obtain ⟨unprepared, unheld⟩ := not_or.mp unpublished
    have heard : Heard form j result := heard_of_settled hj formed open' new settled
    have awaits : Awaits form s j result j :=
      ⟨linked, hj, rfl, rfl, rfl, ⟨unprepared, unheld⟩, open', new, le_refl _, heard⟩
    refine .inl ⟨unprepared, unheld, open', ?_, heard, fun p hp higher => ?_⟩
    · obtain ⟨j', done⟩ : ∃ j', Done (SparkReceipts.applyReceipt json stages form j.agentId s result) j result j' :=
        awaits.finish formed issued.result
      by_contra unstable
      obtain ⟨unknown, some⟩ := not_or.mp unstable
      obtain ⟨r, hr⟩ := List.exists_mem_of_ne_nil progress some
      exact done.undone (not_not.mp unknown) (issued.formed r (List.mem_cons_of_mem result hr))
        (issued.progress r hr) (fixed r (List.mem_cons_of_mem result hr))
    · -- after the progress the result is to be heard over it
      by_cases known : j.result = some p
      · exact heard.congr rfl known.symm
      have rank := issued.progress p hp
      obtain ⟨reported, unsettled, progress_, plain⟩ := progress_reported rank
      have own := issued.formed p (List.mem_cons_of_mem result hp)
      obtain ⟨-, row, -⟩ := recorded linked hj open' unheld reported
      have second := (confluent [p, result] (by simp [hp]) (by simp)).1
      simp only [deliver, List.foldl_cons, List.foldl_nil] at second
      rw [applyReceipt_formed hj own (.inl (own.heard rank)) reported plain ⟨unprepared, unheld⟩,
        if_neg (by simp [known, open', Nat.not_lt.mpr higher])] at second
      refine heard_of_settled row (formed.same rfl rfl rfl) unsettled ?_
        (second.of_key rfl rfl)
      intro same
      cases same
      cases progress_.symm.trans issued.result
  · rintro (⟨unprepared, unheld, open', stable, quotes⟩ | ⟨final, settled⟩) delivery sent arrives
    · have awaits : Awaits form s j result j :=
        ⟨linked, hj, rfl, rfl, rfl, ⟨unprepared, unheld⟩, open', new, le_refl _, quotes.1⟩
      obtain ⟨j', done⟩ : ∃ j', Done (deliver json stages form j.agentId s delivery) j result j' :=
        deliver_done issued stable quotes sent arrives awaits
      exact ⟨done.settled, fun r hr => done.stable issued stable hr⟩
    · rw [deliver_closed issued hj (.inr (.inr final)) sent]
      refine ⟨settled, fun r hr => ?_⟩
      obtain ⟨reported, plain⟩ := issued.reported hr
      exact applyReceipt_closed hj (issued.formed r hr) reported plain (.inr (.inr final))

end

def collectJob : JobRow :=
  { jobId := "j1", operationId := "o1", agentId := "a1", action := .agentCollectNow
    envelope := ⟨"j1", "o1", .agentCollectNow, schemaVersion, 0, some hour, []⟩
    status := .delivered, createdAt := 0, deadline := hour, deliveredAt := some 0, result := none }

def collecting : SparkStore where
  store :=
    { Store.empty with
      operations := ⟨[⟨"o1", .agentCollectNow, .running, 1, "admin", "k1", "h1", 0, none⟩], by simp⟩
      targets := ⟨[⟨"o1", "a1", .queued, "", "", "", false, [], "j1"⟩], by simp⟩
      jobs := ⟨[collectJob], by simp⟩ }
  latest := .empty

def reportOf (status : TargetStatus) : JobReceipt :=
  { jobId := "j1", operationId := "o1", status, stage := "", message := "", errorCode := "", retryable := false
    evidence := [], acceptedAt := none, appliedAt := none, verifiedAt := none }

theorem collecting_linked : Linked collecting.store := by
  constructor <;> simp [collecting, ← Table.mem_rows, collectJob, TargetRow.key, JobRow.key, Action.scope]

theorem receipts_confluent_iff_failed :
    Confluent SparkBudget.texts ModelEvidence.noStages ModelEvidence.anyForm collecting collectJob
      [reportOf .accepted, reportOf .running] (reportOf .failed) :=
  (receipts_confluent_iff SparkBudget.texts ModelEvidence.noStages ModelEvidence.anyForm collecting collectJob
    [reportOf .accepted, reportOf .running] (reportOf .failed) collecting_linked (List.mem_singleton.mpr rfl)
    nofun
    { formed := by
        intro r hr
        simp only [List.mem_cons, List.not_mem_nil, or_false] at hr
        obtain rfl | rfl | rfl := hr <;> exact ⟨rfl, .inr rfl, nofun⟩
      progress := by simp [reportOf, TargetStatus.rank]
      result := rfl }).mpr (.inl ⟨nofun, nofun, rfl, .inl nofun, nofun, fun _ _ _ => nofun⟩)

theorem unknown_result_rewound :
    let arrive := fun delivery =>
      (deliver SparkBudget.texts ModelEvidence.noStages ModelEvidence.anyForm "a1" collecting delivery).store
    (arrive [reportOf .running, reportOf .unknownResult]).jobs.rows.map JobRow.status = [.of .unknownResult] ∧
      (arrive [reportOf .unknownResult, reportOf .running]).jobs.rows.map JobRow.status = [.of .running] ∧
      (arrive [reportOf .unknownResult, reportOf .running]).targets.rows.map TargetRow.status = [.running] := by
  decide

end Monik.ReceiptOrder
