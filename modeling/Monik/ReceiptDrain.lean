import Monik.JobPermanence
import Monik.CollectionEvidence

/-! When the controller acknowledges a final receipt: a receipt for a job that it has meanwhile
closed with another result is refused in every later exchange. -/

namespace Monik.ReceiptDrain
open Protocol Tables ControllerStore Operations JobEvolution JobSteps JobPermanence Runs
open Ingestion
open ReportHandler

variable {j : JobRow} {r : JobReceipt} {spark : SparkAnswers} {agent : String} {rs : List JobReceipt}
    {rep : AgentReport} {x : Request} {resp : AgentRuntime.ControlResponse}

inductive Event
  | control (e : DispatchSafety.Event)
  | report (rep : AgentReport) (x : Request)

def step (c : Codec) (controller : String) (s : Store) : Event → Store
  | .control e => DispatchSafety.step s e
  | .report rep x => (handleReport c controller s rep x).1

variable {c : Codec} {controller : String} {s s' : Store}

theorem step_later (s : Store) (e : Event) : Later s (step c controller s e) := by
  cases e with
  | control e => exact JobPermanence.step_later s e
  | report rep x => exact handleReport_later controller rep x

theorem run_later (s : Store) (events : List Event) : Later s (run (step c controller) s events) :=
  run_preserves (Later s) (fun u e h => h.trans (step_later u e)) (.refl s) events

/-- Jobs keep their place beside target and operation; a later state has every job of an earlier one, no less
published, delivered or answered, and with the result it was closed with. -/
theorem jobs_never_forgotten (c : Codec) (controller : String) (before after : List Event) :
    let s := run (step c controller) Store.empty before
    Served s ∧ Later s (run (step c controller) s after) :=
  ⟨(run_later Store.empty before).served Served.empty, run_later _ after⟩

structure Reports (j : JobRow) (r : JobReceipt) : Prop where
  jobId : r.jobId = j.jobId
  operation : r.operationId = "" ∨ r.operationId = j.operationId
  final : AgentRuntime.finished r.status

/-- Closed with another result; only a restart superseded by a stop takes late receipts. -/
def closedOtherwise (s : Store) (j : JobRow) (r : JobReceipt) : Bool :=
  j.status.terminal && j.result != some r && !supersededRestart s j.agentId j

def malformed (j : JobRow) (r : JobReceipt) (spark : SparkAnswers) : Bool :=
  j.action.isModel && (!spark.valid ||
    r.stage == "restart_start_not_attempted" && !(j.action == .modelRestart && spark.quotesStop) &&
      j.result != some r)

def refused (s : Store) (j : JobRow) (r : JobReceipt) (spark : SparkAnswers) : Bool :=
  malformed j r spark || closedOtherwise s j r

def stillUnknown (s : Store) (j : JobRow) (r : JobReceipt) : Bool :=
  r.status == .succeeded && j.action.isModel &&
    (s.targets.find? (hasKey j.operationId j.agentId)).any fun t => t.status == .unknownResult

theorem malformed_iff :
    malformed j r spark ↔ j.action.isModel ∧ spark.valid = false ∨
      j.action.isModel ∧ r.stage = "restart_start_not_attempted" ∧
        ¬(j.action = .modelRestart ∧ spark.quotesStop) ∧ j.result ≠ some r := by
  simp only [malformed, Bool.and_eq_true, Bool.or_eq_true, Bool.not_eq_true', beq_iff_eq,
    bne_iff_ne, and_or_left, ← Bool.not_eq_true, and_assoc]

theorem finished_reported {status : TargetStatus} (h : AgentRuntime.finished status) :
    status.workerReported ∧ status.rank = 0 := by
  cases status <;> simp_all [AgentRuntime.finished, TargetStatus.workerReported, TargetStatus.rank]

theorem find_job (hj : j ∈ s.jobs) (h : r.jobId = j.jobId) :
    s.jobs.find? (fun k => k.jobId == r.jobId && k.agentId == j.agentId) = some j := by
  refine Table.find?_eq_some hj (by simp [h]) fun k hk => ?_
  simp only [Bool.and_eq_true, beq_iff_eq] at hk
  exact hk.1.trans h

theorem recordReceipt_total (hl : Linked s) (hj : j ∈ s.jobs) (r outcome : JobReceipt) :
    ∃ u, recordReceipt s j.agentId j r outcome = .ok u := by
  obtain ⟨o, ho, id, -⟩ := hl.action j hj
  unfold recordReceipt
  rw [← id]
  exact refreshOperation_total ho

theorem applyReceipt_ok_iff (hs : Served s) (hj : j ∈ s.jobs)
    (delivered : j.deliveredAt ≠ none) (h : Reports j r) (spark : SparkAnswers) :
    (∃ u, applyReceipt s j.agentId r spark = .ok u) ↔ refused s j r spark = false := by
  obtain ⟨reported, rank⟩ := finished_reported h.final
  have out := hs.handed j hj delivered
  have shown : ¬(j.status = .preparing ∨ j.status = .rolloutHeld) := by
    rintro (waits | waits) <;> rw [waits] at out <;> cases out
  have same : ¬(r.operationId ≠ "" ∧ r.operationId ≠ j.operationId) := by
    rintro ⟨named, other⟩
    exact h.operation.elim named other
  unfold applyReceipt
  simp only [reported, Bool.not_true, Bool.false_eq_true, if_false, find_job hj h.jobId, same, shown,
    rank, lt_irrefl, false_and]
  split_ifs with invalid unquoted known superseded closed
  · have bad : malformed j r spark := malformed_iff.mpr (.inl invalid)
    simp [refused, bad]
  · have bad : malformed j r spark := malformed_iff.mpr (.inr unquoted)
    simp [refused, bad]
  all_goals
    have formed : malformed j r spark = false := by
      rw [Bool.eq_false_iff, Ne, malformed_iff]
      exact fun bad => bad.elim invalid unquoted
  · simp [refused, formed, closedOtherwise, known.1]
  · simp [refused, formed, closedOtherwise, superseded]
  · have other : j.result ≠ some r := by
      intro same
      refine known ⟨same, fun unknown => ?_⟩
      rw [unknown.2.1] at closed
      cases closed
    simp [refused, closedOtherwise, closed, other, superseded]
  · simp [refused, formed, closedOtherwise, closed, recordReceipt_total hs.linked hj]

theorem find_target {op : String} {t : TargetRow} :
    s.targets.find? (hasKey op agent) = some t ↔ t ∈ s.targets ∧ t.key = (op, agent) := by
  constructor
  · intro found
    obtain ⟨ht, key⟩ := Table.find?_some found
    exact ⟨ht, hasKey_iff.mp key⟩
  · rintro ⟨ht, key⟩
    exact Table.find?_eq_some ht (hasKey_iff.mpr key) fun a ha => (hasKey_iff.mp ha).trans key.symm

theorem recordReceipt_rows {outcome : JobReceipt} (h : recordReceipt s agent j r outcome = .ok s') :
    s'.jobs.rows = s.jobs.rows.map (fun k => if k.jobId == j.jobId && k.agentId == agent then
      { k with status := .of outcome.status, result := some r } else k) ∧
    s'.targets.rows = s.targets.rows.map fun t =>
      if hasKey j.operationId agent t then (writeOf outcome).apply t else t := by
  obtain ⟨operations, rfl, -⟩ := refreshOperation_ok h
  exact ⟨rfl, rfl⟩

theorem applyReceipt_other (hl : Linked s) (h : applyReceipt s agent r spark = .ok s') (hj : j ∈ s.jobs)
    (other : r.jobId ≠ j.jobId) : j ∈ s'.jobs ∧ s'.targets.find? (hasKey j.operationId j.agentId) =
      s.targets.find? (hasKey j.operationId j.agentId) := by
  obtain rfl | ⟨k, hk, kid, rfl, -, -, -, recorded⟩ := applyReceipt_cases h
  · exact ⟨hj, rfl⟩
  obtain ⟨jobs, targets⟩ := recordReceipt_rows recorded
  have apart : k.key ≠ j.key := fun same => other (by rw [← kid, hl.same_job hk hj same])
  constructor
  · rw [← Table.mem_rows, jobs, List.mem_map]
    exact ⟨j, hj, if_neg (by simp [kid, other.symm])⟩
  · ext t
    rw [find_target, find_target, ← Table.mem_rows, targets, List.mem_map]
    refine and_congr_left fun key => ⟨?_, fun ht => ⟨t, ht, if_neg fun hit => ?_⟩⟩
    · rintro ⟨u, hu, rfl⟩
      split at key
      · rename_i hit
        exact absurd ((hasKey_iff.mp hit).symm.trans key) apart
      · rename_i miss
        rwa [if_neg miss]
    · exact apart ((hasKey_iff.mp hit).symm.trans key)

theorem acknowledges_eq (hl : Linked s) (hj : j ∈ s.jobs) (h : r.jobId = j.jobId) :
    acknowledges s j.agentId r = !stillUnknown s j r := by
  obtain ⟨t, ht, key, jobId⟩ := hl.target j hj
  have found : s.targets.find? (hasKey j.operationId j.agentId) = some t := find_target.mpr ⟨ht, key⟩
  have exact' : s.targets.find? (fun u => hasKey j.operationId j.agentId u && u.jobId == j.jobId) =
      some t := by
    refine Table.find?_eq_some ht (by simp [hasKey_iff.mpr key, jobId]) fun u hu => ?_
    rw [Bool.and_eq_true] at hu
    exact (hasKey_iff.mp hu.1).trans key.symm
  simp [acknowledges, stillUnknown, find_job hj h, found, exact', bne, Bool.and_assoc]

theorem applyReceipts_acked {spark : JobReceipt → SparkAnswers}
    {id : String} (h : id ∈ (applyReceipts agent spark rs s).2) : id ∈ rs.map JobReceipt.jobId := by
  induction rs generalizing s with
  | nil => exact h
  | cons r rs ih =>
    rw [List.map_cons, List.mem_cons]
    unfold applyReceipts at h
    split at h
    · exact .inr (ih h)
    · dsimp only at h
      split at h
      · exact (List.mem_cons.mp h).imp_right ih
      · exact .inr (ih h)

theorem applyReceipts_other (agent : String) (spark : JobReceipt → SparkAnswers)
    (hs : Served s) (hj : j ∈ s.jobs) (other : j.jobId ∉ rs.map JobReceipt.jobId) :
    (applyReceipts agent spark rs s).1.targets.find? (hasKey j.operationId j.agentId) =
      s.targets.find? (hasKey j.operationId j.agentId) := by
  induction rs generalizing s with
  | nil => rfl
  | cons r rs ih =>
    rw [List.map_cons, List.mem_cons, not_or] at other
    unfold applyReceipts
    split
    · exact ih hs hj other.2
    · rename_i u hu
      obtain ⟨stays, same⟩ := applyReceipt_other hs.linked hu hj (Ne.symm other.1)
      rw [← same]
      exact ih ((jobs_rule.receipt hu).later.served hs) stays other.2

theorem applyReceipts_acks (hs : Served s) {spark : JobReceipt → SparkAnswers} (hj : j ∈ s.jobs) (delivered : j.deliveredAt ≠ none)
    (h : Reports j r) (sent : r ∈ rs) (distinct : (rs.map JobReceipt.jobId).Nodup) :
    r.jobId ∈ (applyReceipts j.agentId spark rs s).2 ↔ refused s j r (spark r) = false ∧
      stillUnknown (applyReceipts j.agentId spark rs s).1 j r = false := by
  induction rs generalizing s with
  | nil => cases sent
  | cons r' rs ih =>
    rw [List.map_cons, List.nodup_cons] at distinct
    have decided := applyReceipt_ok_iff hs hj delivered h
    unfold applyReceipts
    obtain rfl | later := List.mem_cons.mp sent
    · -- the tail says nothing about this job
      have silent : ∀ u, r.jobId ∉ (applyReceipts j.agentId spark rs u).2 :=
        fun u acked => distinct.1 (applyReceipts_acked acked)
      cases applied : applyReceipt s j.agentId r (spark r) with
      | error e =>
        have bad : refused s j r (spark r) := by
          rw [← Bool.not_eq_false, ← decided, applied]
          simp
        simp [silent, bad]
      | ok u =>
        have good := (decided (spark r)).mp ⟨u, applied⟩
        have kept := jobs_rule.receipt applied
        obtain ⟨k, hk, step⟩ := kept.job hj
        have served := kept.later.served hs
        have op : k.operationId = j.operationId := congrArg Prod.fst step.key
        have agent : k.agentId = j.agentId := congrArg Prod.snd step.key
        have unknown : stillUnknown (applyReceipts j.agentId spark rs u).1 j r = stillUnknown u k r := by
          have tail := applyReceipts_other j.agentId spark served hk
            (by rw [step.jobId, ← h.jobId]; exact distinct.1)
          rw [op, agent] at tail
          simp only [stillUnknown, tail, op, agent, step.action]
        have acks := acknowledges_eq served.linked hk (h.jobId.trans step.jobId.symm)
        rw [agent] at acks
        cases held : stillUnknown u k r <;> simp [acks, good, unknown, held, silent]
    · have apart : r'.jobId ≠ r.jobId := fun same =>
        distinct.1 (by rw [same]; exact List.mem_map_of_mem later)
      cases applied : applyReceipt s j.agentId r' (spark r') with
      | error e => exact ih hs hj later distinct.2
      | ok u =>
        obtain ⟨stays, same⟩ := applyReceipt_other hs.linked applied hj (by rwa [← h.jobId])
        have rest := ih ((jobs_rule.receipt applied).later.served hs) stays later distinct.2
        have equal : refused u j r (spark r) = refused s j r (spark r) := by
          simp only [refused, closedOtherwise, supersededRestart, same]
        rw [equal] at rest
        dsimp only
        split
        · rw [List.mem_cons, or_iff_right apart.symm]
          exact rest
        · exact rest

def received (c : Codec) (s : Store) (rep : AgentReport) (x : Request) : Option Store :=
  match acceptReport c s rep x.call with
  | .error _ => none
  | .ok (u, accepted) => some (if accepted.live then reconcileUnverified u rep.agentId x else u)

theorem received_later {u : Store} (h : received c s rep x = some u) : Later s u := by
  unfold received at h
  split at h
  · cases h
  · rename_i v accepted hv
    cases h
    split
    · exact (acceptReport_later hv).trans (later_rule.reconcileUnverified rep.agentId x v)
    · exact acceptReport_later hv

theorem poll_acks {accepted : Ingestion.AcceptedReport} {acks : List String}
    (h : (ReportHandler.poll controller s rep accepted acks x).2 = some resp) : resp.receiptAcks = acks := by
  unfold ReportHandler.poll at h
  split at h
  · cases h
  split_ifs at h
  · cases h
    rfl
  · cases h
    rfl
  · split at h
    · cases h
    · cases h
      rfl

theorem handleReport_acks (live : rep.isLive) (h : (handleReport c controller s rep x).2 = some resp) :
    ∃ u, received c s rep x = some u ∧ resp.receiptAcks = (applyReceipts rep.agentId x.spark rep.jobReceipts u).2 := by
  unfold handleReport at h
  split at h
  · cases h
  split at h
  · cases h
  rename_i v accepted hv
  refine ⟨if accepted.live then reconcileUnverified v rep.agentId x else v, by rw [received, hv], ?_⟩
  simp only [live, Bool.not_true, Bool.false_eq_true, if_false] at h
  exact poll_acks h

structure Transmits (rep : AgentReport) (j : JobRow) (r : JobReceipt) : Prop where
  live : rep.isLive
  agent : rep.agentId = j.agentId
  sent : r ∈ rep.jobReceipts
  distinct : (rep.jobReceipts.map JobReceipt.jobId).Nodup

theorem receiptBatch_distinct (jobs : Table AgentRuntime.Pending AgentRuntime.Pending.jobId)
    (cursor : String) (limit : Nat) :
    ((AgentRuntime.receiptBatch jobs.rows cursor limit).map JobReceipt.jobId).Nodup := by
  have all : ((jobs.rows.map AgentRuntime.Pending.receipt).map JobReceipt.jobId).Nodup := by
    rw [List.map_map]
    exact jobs.unique
  refine List.Nodup.sublist ((List.take_sublist _ _).map _) ?_
  refine (List.Perm.nodup_iff (List.Perm.map _ ?_)).mpr all
  exact (List.rotate_perm _ _).trans (List.perm_insertionSort _ _)

theorem prepare_transmits {a : AgentRuntime.Agent} {t : AgentRuntime.Tick}
    (agent : a.agentId = j.agentId) (sent : r ∈ (AgentRuntime.prepare a t).2.jobReceipts) :
    Transmits (AgentRuntime.prepare a t).2 j r := by
  refine ⟨rfl, agent, sent, ?_⟩
  simp only [AgentRuntime.prepare]
  split
  · exact receiptBatch_distinct _ _ _
  · simp

theorem closedOtherwise_later {k : JobRow} (h : JobStep j k)
    (plain : j.action ≠ .modelRestart) (closed : closedOtherwise s j r) : closedOtherwise s' k r := by
  simp only [closedOtherwise, Bool.and_eq_true, bne_iff_ne] at closed ⊢
  obtain ⟨final, result⟩ := h.closed closed.1.1
  have restart : supersededRestart s' k.agentId k = false := by
    simp [supersededRestart, h.action, plain]
  exact ⟨⟨final, by rw [result]; exact closed.1.2⟩, by simp [restart]⟩

theorem exchange_acks (hs : Served s) (hj : j ∈ s.jobs)
    (delivered : j.deliveredAt ≠ none) (held : Reports j r) (sent : Transmits rep j r)
    (answered : (handleReport c controller s rep x).2 = some resp) :
    ∃ u k, received c s rep x = some u ∧ k ∈ u.jobs ∧ JobStep j k ∧
      (r.jobId ∈ resp.receiptAcks ↔ refused u k r (x.spark r) = false ∧
        stillUnknown (applyReceipts rep.agentId x.spark rep.jobReceipts u).1 k r = false) := by
  obtain ⟨u, hu, acks⟩ := handleReport_acks sent.live answered
  have later := received_later hu
  obtain ⟨k, hk, same⟩ := later.jobs j hj
  have op : k.operationId = j.operationId := congrArg Prod.fst same.key
  have agent : rep.agentId = k.agentId := sent.agent.trans (congrArg Prod.snd same.key).symm
  have reports : Reports k r := ⟨held.jobId.trans same.jobId.symm, by rw [op]; exact held.operation, held.final⟩
  refine ⟨u, k, hu, hk, same, ?_⟩
  rw [acks, agent]
  exact applyReceipts_acks (later.served hs) hk (same.kept delivered) reports sent.sent sent.distinct

theorem closed_never_acked (hs : Served s) (hj : j ∈ s.jobs)
    (delivered : j.deliveredAt ≠ none) (held : Reports j r) (plain : j.action ≠ .modelRestart)
    (closed : closedOtherwise s j r) (events : List Event) (sent : Transmits rep j r)
    (answered : (handleReport c controller (run (step c controller) s events) rep x).2 = some resp) :
    r.jobId ∉ resp.receiptAcks := by
  have later : Later s (run (step c controller) s events) := run_later s events
  obtain ⟨k, hk, same⟩ := later.jobs j hj
  have op : k.operationId = j.operationId := congrArg Prod.fst same.key
  have agent : k.agentId = j.agentId := congrArg Prod.snd same.key
  have reports : Reports k r := ⟨held.jobId.trans same.jobId.symm, by rw [op]; exact held.operation, held.final⟩
  have carries : Transmits rep k r := ⟨sent.live, sent.agent.trans agent.symm, sent.sent, sent.distinct⟩
  obtain ⟨u, i, -, -, step, acked⟩ :=
    exchange_acks (later.served hs) hk (same.kept delivered) reports carries answered
  have bad : closedOtherwise u i r := closedOtherwise_later (same.trans step) plain closed
  intro listed
  have open' := (acked.mp listed).1
  simp [refused, bad] at open'

/-- An exchange acknowledges a final receipt exactly if it is not refused and, for a model success, not
unknown. -/
theorem receipt_drains (c : Codec) (controller : String) (events : List Event) (j : JobRow)
    (r : JobReceipt) (hj : j ∈ (run (step c controller) Store.empty events).jobs)
    (delivered : j.deliveredAt ≠ none) (held : Reports j r) :
    let s := run (step c controller) Store.empty events
    (∀ rep x resp, Transmits rep j r → (handleReport c controller s rep x).2 = some resp →
      ∃ u k, received c s rep x = some u ∧ k ∈ u.jobs ∧ JobStep j k ∧
        (r.jobId ∈ resp.receiptAcks ↔ refused u k r (x.spark r) = false ∧
          stillUnknown (applyReceipts rep.agentId x.spark rep.jobReceipts u).1 k r = false)) ∧
    (j.action ≠ .modelRestart → closedOtherwise s j r →
      ∀ later rep x resp, Transmits rep j r →
        (handleReport c controller (run (step c controller) s later) rep x).2 = some resp →
        r.jobId ∉ resp.receiptAcks) := by
  intro s
  have served : Served s := (run_later Store.empty events).served Served.empty
  constructor
  · intro rep x resp sent answered
    exact exchange_acks served hj delivered held sent answered
  · intro plain closed later rep x resp sent answered
    exact closed_never_acked served hj delivered held plain closed later sent answered

def plainCodec : Codec := ⟨AgentReport.rest, id⟩

def claimed : List Event :=
  [.control (.world DispatchSafety.oneAgent),
    .control (.submit (DispatchSafety.request .agentCollectNow [])),
    .control (.claim "a1" 8 2 2 2 fun _ => .ok true)]

def expired : List Event := claimed ++ [.control (.expire (oneShotExpiry + second))]

def failure : JobReceipt :=
  ⟨"j1", "op1", .failed, "collect", "host unreadable", "", false, [], some 2, none, none⟩

def holder : AgentRuntime.Agent :=
  ⟨"a1", "c1", "s1", 4, false, ⟨[⟨.agentCollectNow, failure⟩], by simp⟩, "", []⟩

def tickAt (now : Time) : AgentRuntime.Tick :=
  { now, reportedAt := now, snapshot := none, discovery := none, checks := [], configRevision := 0
    configHash := "", endpointGeneration := 0, workerDigest := "", managedReady := true, rest := ""
    reconciled := id, saved := true }

def reportAt (now : Time) : AgentReport := (AgentRuntime.prepare holder (tickAt now)).2

def requestAt (now : Time) : Request :=
  { authorized := true, call := ⟨now, now, now, true, true, true, true, true, none⟩
    spark := fun _ => ⟨true, false, false⟩, updatedAt := fun _ => 0, now
    configReadable := true, restoreMode := false, expireNow := now, tickNow := now, claimNow := now
    authority := fun _ => .ok true }

theorem receipt_drains_failed :
    ∃ resp, (handleReport plainCodec "c1" (run (step plainCodec "c1") Store.empty claimed)
        (reportAt second) (requestAt second)).2 = some resp ∧ "j1" ∈ resp.receiptAcks := by
  have delivered : ∀ j ∈ (run (step plainCodec "c1") Store.empty claimed).jobs, j.deliveredAt ≠ none ∧
      failure.jobId = j.jobId ∧ failure.operationId = j.operationId ∧ holder.agentId = j.agentId := by
    decide +kernel
  have taken : (received plainCodec (run (step plainCodec "c1") Store.empty claimed) (reportAt second)
      (requestAt second)).all (fun u => u.jobs.rows.all fun k =>
        !refused u k failure ⟨true, false, false⟩ && !stillUnknown
          (applyReceipts "a1" (requestAt second).spark (reportAt second).jobReceipts u).1 k failure) =
      true := by
    decide +kernel
  obtain ⟨j, hj⟩ : ∃ j, j ∈ (run (step plainCodec "c1") Store.empty claimed).jobs :=
    ⟨_, List.mem_cons_self ..⟩
  obtain ⟨out, id, op, agent⟩ := delivered j hj
  have carries : failure ∈ (reportAt second).jobReceipts := by decide
  obtain ⟨u, k, hu, hk, -, acked⟩ := (receipt_drains plainCodec "c1" claimed j failure hj out
    ⟨id, .inr op, rfl⟩).1 (reportAt second) (requestAt second) _ (prepare_transmits agent carries) rfl
  rw [hu, Option.all_some, List.all_eq_true] at taken
  have open' := taken k hk
  rw [Bool.and_eq_true, Bool.not_eq_true', Bool.not_eq_true'] at open'
  exact ⟨_, rfl, acked.mpr open'⟩

theorem expired_receipt_never_acknowledged :
    ∃ j ∈ (run (step plainCodec "c1") Store.empty expired).jobs,
      j.deliveredAt ≠ none ∧ Reports j failure ∧
      (∃ resp, (handleReport plainCodec "c1" (run (step plainCodec "c1") Store.empty expired)
        (reportAt (oneShotExpiry + 2 * second)) (requestAt (oneShotExpiry + 2 * second))).2 = some resp) ∧
      ∀ later rep x resp, Transmits rep j failure →
        (handleReport plainCodec "c1" (run (step plainCodec "c1")
          (run (step plainCodec "c1") Store.empty expired) later) rep x).2 = some resp →
        failure.jobId ∉ resp.receiptAcks := by
  have served : Served (run (step plainCodec "c1") Store.empty expired) :=
    (run_later Store.empty expired).served Served.empty
  have delivered : ∀ j ∈ (run (step plainCodec "c1") Store.empty expired).jobs, j.deliveredAt ≠ none ∧
      failure.jobId = j.jobId ∧ failure.operationId = j.operationId ∧ j.action ≠ .modelRestart ∧
        closedOtherwise (run (step plainCodec "c1") Store.empty expired) j failure := by
    decide +kernel
  obtain ⟨j, hj⟩ : ∃ j, j ∈ (run (step plainCodec "c1") Store.empty expired).jobs :=
    ⟨_, List.mem_cons_self ..⟩
  obtain ⟨out, id, op, plain, closed⟩ := delivered j hj
  have held : Reports j failure := ⟨id, .inr op, rfl⟩
  refine ⟨j, hj, out, held, ⟨_, rfl⟩, fun later rep x resp sent answered => ?_⟩
  exact closed_never_acked served hj out held plain closed later sent answered

end Monik.ReceiptDrain
