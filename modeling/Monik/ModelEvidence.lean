import Monik.JobSteps
import Monik.SparkBudget
import Monik.SparkReceipts

/-! A model job succeeds only on evidence that reports have committed. Reports, receipts, checks of
unproven receipts and cleanups come in any order, and the rest of the database changes freely. -/

namespace Monik.ModelEvidence
open Protocol Tables ControllerStore Operations JobEvolution JobSteps Ingestion KeyedMerge SparkPolicy
open SparkProjection SparkReservation SparkIngestion SparkReceipts Runs

variable {row : SparkSampleRow} {c : Codec} {session agent : String} {st : SparkModelState} {r : JobReceipt}
    {spark : SparkAnswers} {j : JobRow} {u : SparkStore}

def sampleRow (rep : AgentReport) (payload : String) : SparkSampleRow :=
  ⟨rep.agentId, rep.sessionId, rep.sequence, rep.observedAt, payload⟩

def ownSamples (rep : AgentReport) : List SparkSampleRow := (rep.spark.map (sampleRow rep)).toList

theorem mem_ownSamples {rep : AgentReport} :
    row ∈ ownSamples rep ↔ ∃ payload, rep.spark = some payload ∧ row = sampleRow rep payload := by
  simp [ownSamples, eq_comm]

theorem insertSparkSample_rows {s s' : Store} {rep : AgentReport} {call : Call}
    (h : insertSparkSample s rep call = .ok s') : s'.sparkSamples.rows = s.sparkSamples.rows ++ ownSamples rep := by
  unfold insertSparkSample at h
  unfold ownSamples
  split at h
  · rename_i absent
    cases h
    simp [absent]
  · rename_i payload present
    split at h
    · cases h
    split at h
    · cases h
    · rename_i inserted
      cases h
      simpa [present, sampleRow] using Table.insert_rows inserted

theorem touchLive_samples (s : Store) (rep : AgentReport) (call : Call) :
    (touchLive s rep call).sparkSamples = s.sparkSamples := rfl

theorem acceptReport_samples {s s' : Store} {rep : AgentReport} {call : Call}
    {out : AcceptedReport} (h : Ingestion.acceptReport c s rep call = .ok (s', out)) :
    s'.sparkSamples.rows = s.sparkSamples.rows ++ if out.duplicate then [] else ownSamples rep := by
  unfold Ingestion.acceptReport at h
  split at h
  · cases h
  split at h
  · cases h
  split at h
  · cases h
  split at h
  · split at h
    · cases h
    · cases h
      simp
  unfold commitReport at h
  split at h
  · cases h
  split at h
  · cases h
  obtain ⟨u, inserted, h⟩ := bind_ok.mp h
  dsimp only at h
  split at h
  · cases h
  cases h
  have grown := insertSparkSample_rows inserted
  have hosts : (insertHostSample s rep call.received).sparkSamples = s.sparkSamples := by
    unfold insertHostSample
    split <;> rfl
  change u.sparkSamples.rows = (insertHostSample s rep call.received).sparkSamples.rows ++ _ at grown
  rw [hosts] at grown
  simp only [Bool.false_eq_true, if_false]
  split
  · rw [touchLive_samples, grown]
  · exact grown

theorem acceptReport_live {s s' : Store} {rep : AgentReport} {call : Call}
    {out : AcceptedReport} (h : Ingestion.acceptReport c s rep call = .ok (s', out)) (live : out.live) :
    out.duplicate = false := by
  unfold Ingestion.acceptReport at h
  split at h
  · cases h
  split at h
  · cases h
  split at h
  · cases h
  split at h
  · split at h
    · cases h
    · cases h
      cases live
  · exact (commitReport_ok h).1

variable {json : SparkJson} {codec : Codec} {stages : StageJson} {form : ReceiptForm}
  {s s' : SparkStore} {rep : AgentReport} {call : Call} {classified : Bool} {out : AcceptedReport}

theorem mem_mergeSpark_states {current : Option (String × SparkExtension)} {r : SparkExtension}
    (h : st ∈ (pruneStates (mergeSpark current session r)).modelStates) :
    (∃ before c, current = some (before, c) ∧ st ∈ c.modelStates) ∨ st ∈ r.modelStates := by
  have merged : st ∈ (mergeSpark current session r).modelStates := by
    unfold pruneStates at h
    split at h
    · exact h
    · exact List.mem_of_mem_filter h
  cases current with
  | none => exact .inr merged
  | some current => exact (mem_mergeNewer merged).imp_left fun old => ⟨_, _, rfl, old⟩

theorem acceptReport_states (h : SparkIngestion.acceptReport json codec s rep call classified = .ok (s', out))
    {row : LatestRow} (hrow : row ∈ s'.latest) (hst : st ∈ row.payload.modelStates) :
    (∃ old ∈ s.latest, old.agentId = row.agentId ∧ st ∈ old.payload.modelStates) ∨
      out.duplicate = false ∧ rep.agentId = row.agentId ∧
        ∃ spark, rep.spark.bind json.unmarshal = some spark ∧ st ∈ spark.modelStates := by
  obtain ⟨accepted, same | ⟨r, extension, live, merged⟩⟩ := SparkBudget.acceptReport_cases h
  · rw [same] at hrow
    exact .inl ⟨row, hrow, rfl, hst⟩
  obtain ⟨-, latest⟩ := SparkBudget.acceptLatest_ok merged
  rw [latest] at hrow
  obtain ⟨old, -⟩ | rfl := Table.mem_upsert.mp hrow
  · exact .inl ⟨row, old, rfl, hst⟩
  obtain ⟨before, c, view, old⟩ | new := mem_mergeSpark_states hst
  · unfold SparkStore.snapshot at view
    split at view
    · rename_i stored found
      cases view
      obtain ⟨mem, agent⟩ := Table.find?_key.mp found
      exact .inl ⟨stored, mem, agent, old⟩
    · split at view
      · cases view
        cases old
      · cases view
  · exact .inr ⟨acceptReport_live accepted live, rfl, r, extension, new⟩

inductive Event
  | report (rep : AgentReport) (call : Call) (classified : Bool)
  | receipt (agent : String) (r : JobReceipt)
  | reconcile (agent : String) (updatedAt : JobRow → Time)
  | retain (maxAge now : Time) (table : RawTable)
  | other (store : Store)

section
variable (json : SparkJson) (codec : Codec) (stages : StageJson) (form : ReceiptForm)

def step (s : SparkStore) : Event → SparkStore
  | .report rep call classified =>
    match SparkIngestion.acceptReport json codec s rep call classified with
    | .ok (s, _) => s
    | .error _ => s
  | .receipt agent r => SparkReceipts.applyReceipt json stages form agent s r
  | .reconcile agent updatedAt => SparkReceipts.reconcileUnverified json stages form agent updatedAt s
  | .retain maxAge now table => { s with store := (deleteBatch maxAge now s.store table).1 }
  | .other store => { s with store := { store with sparkSamples := s.store.sparkSamples } }

def initial : SparkStore := ⟨Store.empty, .empty⟩

def Committed (events : List Event) (agent session : String) (st : SparkModelState) : Prop :=
  ∃ before rep call classified after u out spark,
    events = before ++ .report rep call classified :: after ∧
    SparkIngestion.acceptReport json codec (run (step json codec stages form) initial before) rep call
      classified = .ok (u, out) ∧ out.duplicate = false ∧
    rep.agentId = agent ∧ rep.sessionId = session ∧
    rep.spark.bind json.unmarshal = some spark ∧ st ∈ spark.modelStates

structure Backed (events : List Event) (s : SparkStore) : Prop where
  samples : ∀ row ∈ s.store.sparkSamples, ∀ spark, json.unmarshal row.payload = some spark →
    ∀ st ∈ spark.modelStates, Committed json codec stages form events row.agentId row.sessionId st
  latest : ∀ row ∈ s.latest, ∀ st ∈ row.payload.modelStates,
    ∃ session, Committed json codec stages form events row.agentId session st

end

variable {events : List Event}

theorem Committed.later (h : Committed json codec stages form events agent session st) (more : List Event) :
    Committed json codec stages form (events ++ more) agent session st := by
  obtain ⟨before, rep, call, classified, after, u, out, spark, rfl, rest⟩ := h
  refine ⟨before, rep, call, classified, after ++ more, u, out, spark, ?_, rest⟩
  simp

theorem applyReceipt_tables {s s' : Store} (h : Operations.applyReceipt s agent r spark = .ok s') :
    s'.sparkSamples = s.sparkSamples ∧ s'.intents = s.intents := by
  obtain rfl | ⟨j, -, -, -, -, -, -, recorded⟩ := applyReceipt_cases h
  · exact ⟨rfl, rfl⟩
  · obtain ⟨operations, rfl, -⟩ := refreshOperation_ok recorded
    exact ⟨rfl, rfl⟩

theorem applyReceipt_job {s s' : Store}
    (h : Operations.applyReceipt s agent r spark = .ok s') {j' : JobRow} (hj' : j' ∈ s'.jobs) :
    j' ∈ s.jobs ∨ ∃ j ∈ s.jobs, j.jobId = r.jobId ∧ j.agentId = agent ∧
      j' = { j with status := .of (judge s agent j r spark).status, result := some r } := by
  obtain rfl | ⟨j, hj, id, ha, -, -, -, recorded⟩ := applyReceipt_cases h
  · exact .inl hj'
  obtain ⟨operations, rfl, -⟩ := refreshOperation_ok recorded
  obtain ⟨k, hk, rfl⟩ := (mem_setJobs
    (f := fun k => { k with status := .of (judge s agent j r spark).status, result := some r })
    fun _ => rfl).mp hj'
  split
  · rename_i found
    simp only [Bool.and_eq_true, beq_iff_eq] at found
    have same := s.jobs.eq_of_key hk hj found.1
    subst same
    exact .inr ⟨k, hk, id, ha, rfl⟩
  · exact .inl hk

theorem isModel_proven {s : Store} {spark : Bool} (model : j.action.isModel) :
    proven s agent j r spark = spark := by
  unfold proven
  cases action : j.action <;> simp [action, Action.isModel] at model ⊢

theorem judge_succeeded {s : Store} (model : j.action.isModel)
    (h : (judge s agent j r spark).status = .succeeded) : spark.proven := by
  unfold judge at h
  split at h
  · cases h
  · rename_i unproven
    rw [isModel_proven model] at unproven
    simpa [h] using unproven

structure Judged (json : SparkJson) (stages : StageJson) (s u : SparkStore) : Prop where
  latest : u.latest = s.latest
  samples : u.store.sparkSamples = s.store.sparkSamples
  intents : u.store.intents = s.store.intents
  jobs : ∀ j' ∈ u.store.jobs, j'.action.isModel → j'.status = .of .succeeded →
    (∃ j ∈ s.store.jobs, j.jobId = j'.jobId ∧ j.status = .of .succeeded) ∨
      ∃ r, j'.result = some r ∧ sparkReceiptProven json stages s j'.agentId j' r

theorem Judged.refl (s : SparkStore) : Judged json stages s s :=
  ⟨rfl, rfl, rfl, fun j' hj' _ done => .inl ⟨j', hj', rfl, done⟩⟩

theorem sparkReceiptProven_congr (latest : u.latest = s.latest) (samples : u.store.sparkSamples = s.store.sparkSamples)
    (intents : u.store.intents = s.store.intents) (agent : String) (j : JobRow) (r : JobReceipt) :
    sparkReceiptProven json stages u agent j r = sparkReceiptProven json stages s agent j r := by
  unfold sparkReceiptProven wanted issuedStage mergedMatches newestSamples SparkStore.snapshot
  rw [latest, samples, intents]
  simp only [Bool.false_eq_true, if_false]

theorem Judged.receipt (h : Judged json stages s u) (agent : String) (r : JobReceipt) :
    Judged json stages s (SparkReceipts.applyReceipt json stages form agent u r) := by
  unfold SparkReceipts.applyReceipt
  cases applied : Operations.applyReceipt u.store agent r (answers json stages form u agent r) with
  | error e => exact h
  | ok v =>
    obtain ⟨samples, intents⟩ := applyReceipt_tables applied
    refine ⟨h.latest, samples.trans h.samples, intents.trans h.intents, fun j' hj' model done => ?_⟩
    obtain old | ⟨j, hj, id, rfl, rfl⟩ := applyReceipt_job applied hj'
    · exact h.jobs j' old model done
    have shown := judge_succeeded model (JobStatus.of.inj done)
    have found : u.store.jobs.find? (fun k => k.jobId == r.jobId && k.agentId == j.agentId) = some j := by
      refine Table.find?_eq_some hj (by simp [id]) fun k hk => ?_
      simp only [Bool.and_eq_true, beq_iff_eq] at hk
      exact hk.1.trans id.symm
    simp only [answers, found] at shown
    rw [sparkReceiptProven_congr h.latest h.samples h.intents] at shown
    exact .inr ⟨r, rfl, shown⟩

theorem Judged.reconcile (agent : String) (updatedAt : JobRow → Time) (s : SparkStore) :
    Judged json stages s (SparkReceipts.reconcileUnverified json stages form agent updatedAt s) :=
  ReportHandler.reconcileReceipts_invariant (Judged json stages s) (.refl s) fun _ _ r _ _ _ _ applied h =>
    tryReceipt_ok applied ▸ h.receipt agent r

def Event.applies : Event → Bool
  | .receipt _ _ | .reconcile _ _ => true
  | _ => false

theorem step_judged (json : SparkJson) (codec : Codec) (stages : StageJson) (form : ReceiptForm)
    (s : SparkStore) (e : Event) (applies : e.applies) :
    Judged json stages s (step json codec stages form s e) := by
  cases e with
  | receipt agent r => exact (Judged.refl s).receipt agent r
  | reconcile agent updatedAt => exact .reconcile agent updatedAt s
  | _ => cases applies

theorem deleteBatch_samples {maxAge now : Time} {s : Store} {t : RawTable}
    (h : row ∈ (deleteBatch maxAge now s t).1.sparkSamples) : row ∈ s.sparkSamples := by
  cases t with
  | sparkSamples => exact (Table.mem_delete.mp h).1
  | _ => exact h

theorem Backed.later (h : Backed json codec stages form events s)
    (more : List Event) (samples : ∀ row ∈ s'.store.sparkSamples, row ∈ s.store.sparkSamples)
    (latest : s'.latest = s.latest) : Backed json codec stages form (events ++ more) s' where
  samples row hrow spark payload st hst := (h.samples row (samples row hrow) spark payload st hst).later more
  latest row hrow st hst := by
    rw [latest] at hrow
    obtain ⟨session, committed⟩ := h.latest row hrow st hst
    exact ⟨session, committed.later more⟩

theorem Backed.report (h : Backed json codec stages form events (run (step json codec stages form) initial events))
    (accepted : SparkIngestion.acceptReport json codec
    (run (step json codec stages form) initial events) rep call classified = .ok (s', out)) :
    Backed json codec stages form (events ++ [.report rep call classified]) s' := by
  have committed : out.duplicate = false → ∀ {spark}, rep.spark.bind json.unmarshal = some spark →
      ∀ {st}, st ∈ spark.modelStates →
        Committed json codec stages form (events ++ [.report rep call classified]) rep.agentId
          rep.sessionId st :=
    fun first spark extension st hst =>
      ⟨events, rep, call, classified, [], s', out, spark, rfl, accepted, first, rfl, rfl, extension, hst⟩
  constructor
  · intro row hrow spark payload st hst
    have rows := acceptReport_samples (SparkBudget.acceptReport_cases accepted).1
    rw [← Table.mem_rows, rows, List.mem_append] at hrow
    obtain old | new := hrow
    · exact (h.samples row old spark payload st hst).later _
    split at new
    · cases new
    · rename_i first
      obtain ⟨text, sent, rfl⟩ := mem_ownSamples.mp new
      refine committed (by simpa using first) ?_ hst
      rw [sent]
      exact payload
  · intro row hrow st hst
    obtain ⟨old, hold, agent, mem⟩ | ⟨first, agent, spark, extension, mem⟩ :=
      acceptReport_states accepted hrow hst
    · obtain ⟨session, before⟩ := h.latest old hold st mem
      rw [agent] at before
      exact ⟨session, before.later _⟩
    · rw [← agent]
      exact ⟨rep.sessionId, committed first extension mem⟩

theorem backed (json : SparkJson) (codec : Codec) (stages : StageJson) (form : ReceiptForm) (events : List Event) :
    Backed json codec stages form events (run (step json codec stages form) initial events) := by
  induction events using List.reverseRecOn with
  | nil => exact ⟨fun row h => absurd h (Table.not_mem_empty row), fun row h => absurd h (Table.not_mem_empty row)⟩
  | append_singleton events e ih =>
    rw [run_append, run_cons, run_nil]
    cases e with
    | report rep call classified =>
      simp only [step]
      split
      · rename_i u out accepted
        exact ih.report accepted
      · exact ih.later _ (fun _ h => h) rfl
    | receipt agent r =>
      have judged := step_judged json codec stages form (run (step json codec stages form) initial events)
        (.receipt agent r) rfl
      exact ih.later _ (fun row h => by rwa [← judged.samples]) judged.latest
    | reconcile agent updatedAt =>
      have judged := step_judged json codec stages form (run (step json codec stages form) initial events)
        (.reconcile agent updatedAt) rfl
      exact ih.later _ (fun row h => by rwa [← judged.samples]) judged.latest
    | retain maxAge now table => exact ih.later _ (fun _ h => deleteBatch_samples h) rfl
    | other store => exact ih.later _ (fun _ h => h) rfl

theorem wanted_some {s : Store} {w : Wanted} (h : wanted stages s j r = some w) :
    decodeModelActionParams j.envelope.params = some w.params ∧ binds w.params r ∧
      w.action = j.action ∧ w.createdAt = j.createdAt ∧ w.receipt = r ∧
      (j.action = .modelRestart → ∃ v, issuedStage stages s j.operationId r = some v ∧
        w.stageGeneration = v.params.expectedGeneration) := by
  unfold wanted at h
  split at h
  · cases h
  rename_i p decoded
  split at h
  · cases h
  rename_i bound
  have bound : binds p r := by simpa using bound
  split at h
  · obtain ⟨v, issued, rfl⟩ := Option.map_eq_some_iff.mp h
    exact ⟨decoded, bound, rfl, rfl, rfl, fun _ => ⟨v, issued, rfl⟩⟩
  · rename_i other
    cases h
    exact ⟨decoded, bound, rfl, rfl, rfl, fun restart => absurd restart other⟩

theorem issuedStage_some {s : Store} {op : String} {v : StageAuthorization} (h : issuedStage stages s op r = some v) :
    ∃ i ∈ s.intents, i.operationId = op ∧ stages.unmarshal i.stageAuthorization = some v ∧
      r.evidence.get "stage_id" = .str v.stageId := by
  unfold issuedStage at h
  split at h
  · cases h
  rename_i i found
  split at h
  · cases h
  obtain ⟨decoded, named⟩ := Option.filter_eq_some_iff.mp h
  obtain ⟨mem, id⟩ := Table.find?_key.mp found
  exact ⟨i, mem, id, decoded, beq_iff_eq.mp named⟩

/-- One committed state of the bound profile, received in the bound session or shown in its merged view. -/
structure Evidence (json : SparkJson) (codec : Codec) (stages : StageJson) (form : ReceiptForm)
    (events : List Event) (j : JobRow) (r : JobReceipt) (p : ModelActionParams) (st : SparkModelState) :
    Prop where
  params : decodeModelActionParams j.envelope.params = some p
  bound : binds p r
  committed : ∃ session, Committed json codec stages form events j.agentId session st ∧
    (session = p.expectedAgentSession ∨
      ∃ spark, (run (step json codec stages form) initial events).snapshot j.agentId false =
        some (p.expectedAgentSession, spark) ∧ st ∈ spark.modelStates)
  profile : st.profileId = p.profileId
  quality : st.quality = .ok
  recent : j.createdAt ≤ st.observedAt
  generation : (r.evidence.get "generation").sprint = toString st.generation
  start : j.action = .modelStart →
    st.supervisorState = .running ∧ p.expectedGeneration ≤ st.generation
  stop : j.action = .modelStop →
    sparkShutdownProven st r ∧ p.expectedGeneration ≤ st.generation
  restart : j.action = .modelRestart →
    ∃ i ∈ (run (step json codec stages form) initial events).store.intents,
      i.operationId = j.operationId ∧ ∃ v, stages.unmarshal i.stageAuthorization = some v ∧
        r.evidence.get "stage_id" = .str v.stageId ∧ st.supervisorState = .running ∧
        v.params.expectedGeneration < st.generation

theorem Source.committed (h : Source json (run (step json codec stages form) initial events) agent session st) :
    ∃ session', Committed json codec stages form events agent session' st ∧ (session' = session ∨
        ∃ spark, (run (step json codec stages form) initial events).snapshot agent false =
          some (session, spark) ∧ st ∈ spark.modelStates) := by
  have all := backed json codec stages form events
  cases h with
  | merged spark view mem =>
    have there := view
    unfold SparkStore.snapshot at there
    split at there
    · rename_i row found
      cases there
      obtain ⟨stored, rfl⟩ := Table.find?_key.mp found
      obtain ⟨session', committed⟩ := all.latest row stored st mem
      exact ⟨session', committed, .inr ⟨_, view, mem⟩⟩
    · cases there
  | sample row spark stored agentId sessionId payload mem =>
    subst agentId sessionId
    exact ⟨row.sessionId, all.samples row stored spark payload st mem, .inl rfl⟩

/-- Whenever receipts make a model job succeed, a committed state shows its effect. -/
theorem model_success_observed (json : SparkJson) (codec : Codec) (stages : StageJson)
    (form : ReceiptForm) (events : List Event) (e : Event) (applies : e.applies)
    (j : JobRow) (hj : j ∈ (run (step json codec stages form) initial (events ++ [e])).store.jobs)
    (model : j.action.isModel) (done : j.status = .of .succeeded)
    (pending : ∀ before ∈ (run (step json codec stages form) initial events).store.jobs,
      before.jobId = j.jobId → before.status ≠ .of .succeeded) :
    ∃ r p st, j.result = some r ∧ Evidence json codec stages form events j r p st := by
  rw [run_append, run_cons, run_nil] at hj
  have judged := step_judged json codec stages form (run (step json codec stages form) initial events) e applies
  obtain ⟨before, mem, id, already⟩ | ⟨r, result, proven⟩ := judged.jobs j hj model done
  · exact absurd already (pending before mem id)
  obtain ⟨w, st, hw, source, concern, shows⟩ := sparkReceiptProven_source proven
  obtain ⟨decoded, bound, action, created, rfl, issued⟩ := wanted_some hw
  obtain ⟨profile, quality, recent, generation⟩ := concerns_iff.mp concern
  rw [created] at recent
  unfold Shows at shows
  rw [action] at shows
  refine ⟨w.receipt, w.params, st, result, decoded, bound, Source.committed source, profile, quality, recent,
    beq_iff_eq.mp generation, fun start => ?_, fun stop => ?_, fun restart => ?_⟩
  · rwa [start] at shows
  · rwa [stop] at shows
  · rw [restart] at shows
    obtain ⟨v, stage, expected⟩ := issued restart
    obtain ⟨i, hi, op, decodedStage, named⟩ := issuedStage_some stage
    rw [expected] at shows
    exact ⟨i, hi, op, v, decodedStage, named, shows⟩

def stopParams : Fields :=
  [("profile_id", .str "q"), ("profile_revision", .str SparkBudget.revision), ("expected_generation", .int 0),
    ("control_epoch", .str "e1"), ("expected_agent_session", .str "s1"), ("confirm_disruption", .bool true)]

def stopJob (status : JobStatus) (result : Option JobReceipt) : JobRow :=
  { jobId := "j1", operationId := "o1", agentId := "a1", action := .modelStop
    envelope := ⟨"j1", "o1", .modelStop, schemaVersion, 0, some hour, stopParams⟩
    status, createdAt := 0, deadline := hour, deliveredAt := some 0, result }

def stopping : Store :=
  { SparkBudget.enrolled with
    operations := ⟨[⟨"o1", .modelStop, .running, 1, "admin", "k1", "h1", 0, none⟩], by simp⟩
    targets := ⟨[⟨"o1", "a1", .running, "", "", "", false, [], "j1"⟩], by simp⟩
    jobs := ⟨[stopJob (.of .running) none], by simp⟩ }

def stopReceipt : JobReceipt :=
  { jobId := "j1", operationId := "o1", status := .succeeded, stage := "model_stopped", message := ""
    errorCode := "", retryable := false, acceptedAt := none, appliedAt := none, verifiedAt := none
    evidence := [("profile_id", .str "q"), ("profile_revision", .str SparkBudget.revision),
      ("control_epoch", .str "e1"), ("agent_session", .str "s1"), ("generation", .int 0)] }

def noStages : StageJson := ⟨fun _ => "", fun _ => none⟩

def anyForm : ReceiptForm := ⟨fun _ => true, fun _ => ""⟩

def stopReport : List Event := [.other stopping, .report (SparkBudget.packet 1 "later") SparkBudget.atMinute false]

theorem model_success_observed_stop :
    ∃ r p st, (stopJob (.of .succeeded) (some stopReceipt)).result = some r ∧
      Evidence SparkBudget.texts SparkBudget.hashes noStages anyForm stopReport
        (stopJob (.of .succeeded) (some stopReceipt)) r p st :=
  model_success_observed SparkBudget.texts SparkBudget.hashes noStages anyForm stopReport
    (.receipt "a1" stopReceipt) rfl (stopJob (.of .succeeded) (some stopReceipt)) (by decide +kernel) rfl rfl
    (by
      have one : (run (step SparkBudget.texts SparkBudget.hashes noStages anyForm) initial
          stopReport).store.jobs.rows = [stopJob (.of .running) none] := by decide +kernel
      intro before mem _ done
      rw [← Table.mem_rows, one, List.mem_singleton] at mem
      subst mem
      cases done)

end Monik.ModelEvidence
