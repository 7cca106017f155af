import Monik.ReportHandler
import Monik.SparkIngestion
import Monik.SparkReservation

/-! `sparkReceiptProven`: a model state of the bound profile with the receipt's generation, in the
merged view or in a raw sample, newest first, up to eight rows that name profile and generation.
Numbers are printed in decimal. -/

namespace Monik.SparkReceipts
open Protocol Tables ControllerStore Operations SparkPolicy SparkProjection SparkReservation SparkIngestion

def paramKeys : List String :=
  ["profile_id", "profile_revision", "expected_generation", "control_epoch", "expected_agent_session",
    "confirm_disruption"]

def decodeModelActionParams (m : Fields) : Option ModelActionParams :=
  match m.get "profile_id", m.get "profile_revision", m.get "expected_generation",
      m.get "control_epoch", m.get "expected_agent_session", m.get "confirm_disruption" with
  | .str profile, .str revision, .int generation, .str epoch, .str session, .bool confirm =>
    if (m.all fun f => paramKeys.contains f.1) && sparkValidId profile && sparkRevision revision &&
        decide (0 ≤ generation) && decide (generation ≤ 9007199254740991) && sparkValidId epoch &&
        sparkValidId session then
      some ⟨profile, revision, generation, epoch, session, confirm⟩
    else none
  | _, _, _, _, _, _ => none

def sameGeneration (r : JobReceipt) (st : SparkModelState) : Bool :=
  (r.evidence.get "generation").sprint == toString st.generation

def hexIdentity (identity : String) : Bool :=
  identity.utf8ByteSize == 71 && identity.toList.take 7 == "sha256:".toList &&
    (identity.toList.drop 7).all fun c => c.isDigit || ('a' ≤ c && c ≤ 'f')

/-- Stopped, or failed with the witness of a complete shutdown. -/
def sparkShutdownProven (st : SparkModelState) (r : JobReceipt) : Bool :=
  st.quality == .ok &&
    (st.supervisorState == .stopped ||
      (st.supervisorState == .failed && st.readiness == .notApplicable &&
        st.reason == "failed_service_shutdown_verified" &&
        r.evidence.get "shutdown_verified" == .bool true &&
        r.evidence.get "reason" == .str "failed_service_shutdown_verified" &&
        r.evidence.get "readiness" == .str "not_applicable" &&
        r.evidence.get "supervisor_state" == .str "failed" && sameGeneration r st &&
        match r.evidence.get "instance_identity" with
        | .str identity => hexIdentity identity
        | _ => false))

def authorityMatches (spark : SparkExtension) (p : ModelActionParams) : Bool :=
  (spark.controlState.any fun c => c.enabled && c.epoch == some p.controlEpoch) &&
    spark.inventory.any fun i =>
      i.profiles.any fun profile =>
        profile.profileId == p.profileId && profile.profileRevision == p.profileRevision

structure Wanted where
  action : Action
  createdAt : Time
  params : ModelActionParams
  receipt : JobReceipt
  stageGeneration : Int
  deriving DecidableEq

variable (json : SparkJson) (w : Wanted)

def concerns (st : SparkModelState) : Bool :=
  st.profileId == w.params.profileId && st.quality == .ok && decide (w.createdAt ≤ st.observedAt) &&
    sameGeneration w.receipt st

/-- The loop of `matches`: the first state that concerns the job decides, except that a failed
one is passed over in a merged view. -/
def matchesIn (spark : SparkExtension) (allowFailed : Bool) : List SparkModelState → Bool
  | [] => false
  | st :: rest =>
    if !concerns w st then matchesIn spark allowFailed rest
    else
      match w.action with
      | .modelStart =>
        w.receipt.stage == "model_started" && st.supervisorState == .running &&
          decide (w.params.expectedGeneration ≤ st.generation)
      | .modelStop =>
        if st.supervisorState = .failed ∧ allowFailed = false then matchesIn spark allowFailed rest
        else
          w.receipt.stage == "model_stopped" && sparkShutdownProven st w.receipt &&
            (st.supervisorState != .failed || authorityMatches spark w.params) &&
            decide (w.params.expectedGeneration ≤ st.generation)
      | .modelRestart =>
        w.receipt.stage == "model_restarted" && st.supervisorState == .running &&
          decide (w.stageGeneration < st.generation)
      | _ => matchesIn spark allowFailed rest

def matchesSpark (allowFailed : Bool) (spark : SparkExtension) : Bool :=
  matchesIn w spark allowFailed spark.modelStates

def binds (p : ModelActionParams) (r : JobReceipt) : Bool :=
  r.evidence.get "profile_id" == .str p.profileId &&
    r.evidence.get "profile_revision" == .str p.profileRevision &&
    r.evidence.get "control_epoch" == .str p.controlEpoch &&
    r.evidence.get "agent_session" == .str p.expectedAgentSession

def issuedStage (stages : StageJson) (s : Store) (op : String) (r : JobReceipt) : Option StageAuthorization :=
  match s.intents.find? fun i => i.operationId == op with
  | none => none
  | some i =>
    if i.stageAuthorization = "" then none
    else (stages.unmarshal i.stageAuthorization).filter fun v => r.evidence.get "stage_id" == .str v.stageId

def wanted (stages : StageJson) (s : Store) (j : JobRow) (r : JobReceipt) : Option Wanted :=
  match decodeModelActionParams j.envelope.params with
  | none => none
  | some p =>
    if !binds p r then none
    else if j.action = .modelRestart then
      (issuedStage stages s j.operationId r).map fun v =>
        ⟨j.action, j.createdAt, p, r, v.params.expectedGeneration⟩
    else some ⟨j.action, j.createdAt, p, r, 0⟩

def selected (agent : String) (w : Wanted) (row : SparkSampleRow) : Bool :=
  row.agentId == agent && row.sessionId == w.params.expectedAgentSession &&
    decide (w.createdAt ≤ row.observedAt) &&
    (json.unmarshal row.payload).any fun spark => spark.modelStates.any fun st =>
      st.profileId == w.params.profileId && sameGeneration w.receipt st

def newestSamples (s : Store) (agent : String) (w : Wanted) : List SparkSampleRow :=
  ((s.sparkSamples.rows.filter (selected json agent w)).insertionSort
    fun a b => b.observedAt ≤ a.observedAt).take 8

def rowMatches (row : SparkSampleRow) : Bool :=
  (json.unmarshal row.payload).any (matchesSpark w true)

def mergedMatches (s : SparkStore) (agent : String) (w : Wanted) : Bool :=
  (s.snapshot agent false).any fun v =>
    v.1 == w.params.expectedAgentSession && matchesSpark w false v.2

def sparkReceiptProven (stages : StageJson) (s : SparkStore) (agent : String) (j : JobRow)
    (r : JobReceipt) : Bool :=
  (wanted stages s.store j r).any fun w =>
    mergedMatches s agent w || (newestSamples json s.store agent w).any (rowMatches json w)

def Shows (st : SparkModelState) : Prop :=
  match w.action with
  | .modelStart => st.supervisorState = .running ∧ w.params.expectedGeneration ≤ st.generation
  | .modelStop => sparkShutdownProven st w.receipt ∧ w.params.expectedGeneration ≤ st.generation
  | .modelRestart => st.supervisorState = .running ∧ w.stageGeneration < st.generation
  | _ => False

theorem concerns_iff {w : Wanted} {st : SparkModelState} :
    concerns w st ↔ st.profileId = w.params.profileId ∧ st.quality = .ok ∧
      w.createdAt ≤ st.observedAt ∧ sameGeneration w.receipt st := by
  simp [concerns, and_assoc]

theorem matchesIn_shows {w : Wanted} {spark : SparkExtension} {allowFailed : Bool} :
    ∀ {states : List SparkModelState}, matchesIn w spark allowFailed states →
      ∃ st ∈ states, concerns w st ∧ Shows w st := by
  intro states
  induction states with
  | nil => exact nofun
  | cons st rest ih =>
    intro h
    have later : matchesIn w spark allowFailed rest →
        ∃ st' ∈ st :: rest, concerns w st' ∧ Shows w st' := fun h =>
      let ⟨st', mem, found⟩ := ih h
      ⟨st', List.mem_cons_of_mem st mem, found⟩
    unfold matchesIn at h
    split at h
    · exact later h
    rename_i concern
    have concern : concerns w st := by simpa using concern
    split at h
    · rename_i start
      simp only [Bool.and_eq_true, beq_iff_eq, decide_eq_true_eq] at h
      refine ⟨st, List.mem_cons_self, concern, ?_⟩
      simp only [Shows, start]
      exact ⟨h.1.2, h.2⟩
    · rename_i stop
      split at h
      · exact later h
      · simp only [Bool.and_eq_true, decide_eq_true_eq] at h
        refine ⟨st, List.mem_cons_self, concern, ?_⟩
        simp only [Shows, stop]
        exact ⟨h.1.1.2, h.2⟩
    · rename_i restart
      simp only [Bool.and_eq_true, beq_iff_eq, decide_eq_true_eq] at h
      refine ⟨st, List.mem_cons_self, concern, ?_⟩
      simp only [Shows, restart]
      exact ⟨h.1.2, h.2⟩
    · exact later h

theorem mem_newestSamples {json : SparkJson} {s : Store} {agent : String} {w : Wanted}
    {row : SparkSampleRow} (h : row ∈ newestSamples json s agent w) :
    row ∈ s.sparkSamples ∧ selected json agent w row := by
  have sorted := List.mem_of_mem_take h
  rw [List.mem_insertionSort, List.mem_filter] at sorted
  exact sorted

inductive Source (json : SparkJson) (s : SparkStore) (agent session : String) (st : SparkModelState) : Prop
  | merged (spark : SparkExtension) (view : s.snapshot agent false = some (session, spark))
      (mem : st ∈ spark.modelStates)
  | sample (row : SparkSampleRow) (spark : SparkExtension) (stored : row ∈ s.store.sparkSamples)
      (agentId : row.agentId = agent) (sessionId : row.sessionId = session)
      (payload : json.unmarshal row.payload = some spark) (mem : st ∈ spark.modelStates)

theorem sparkReceiptProven_source {json : SparkJson} {stages : StageJson} {s : SparkStore}
    {agent : String} {j : JobRow} {r : JobReceipt} (h : sparkReceiptProven json stages s agent j r) :
    ∃ w st, wanted stages s.store j r = some w ∧
      Source json s agent w.params.expectedAgentSession st ∧ concerns w st ∧ Shows w st := by
  obtain ⟨w, hw, h⟩ := (Option.any_eq_true _ _).mp h
  rw [Bool.or_eq_true] at h
  obtain merged | sampled := h
  · obtain ⟨⟨session, spark⟩, view, found⟩ := (Option.any_eq_true _ _).mp merged
    simp only [Bool.and_eq_true, beq_iff_eq] at found
    obtain ⟨rfl, found⟩ := found
    obtain ⟨st, mem, concern, shows⟩ := matchesIn_shows found
    exact ⟨w, st, hw, .merged spark view mem, concern, shows⟩
  · obtain ⟨row, newest, found⟩ := List.any_eq_true.mp sampled
    obtain ⟨stored, chosen⟩ := mem_newestSamples newest
    simp only [selected, Bool.and_eq_true, beq_iff_eq] at chosen
    obtain ⟨spark, payload, found⟩ := (Option.any_eq_true _ _).mp found
    obtain ⟨st, mem, concern, shows⟩ := matchesIn_shows found
    exact ⟨w, st, hw, .sample row spark stored chosen.1.1.1 chosen.1.1.2 payload mem, concern, shows⟩

/-- The typed form of a model receipt: `validateSparkReceipt`, and the text that
`agent_jobs.result` holds. -/
structure ReceiptForm where
  valid : JobReceipt → Bool
  text : JobReceipt → String

def quotesStop (form : ReceiptForm) (j : JobRow) (r : JobReceipt) : Bool :=
  r.evidence.get "restart_stop_receipt" == .str ((j.result.map form.text).getD "")

section
variable (json : SparkJson) (stages : StageJson) (form : ReceiptForm)

def answers (s : SparkStore) (agent : String) (r : JobReceipt) : SparkAnswers :=
  match s.store.jobs.find? fun j => j.jobId == r.jobId && j.agentId == agent with
  | none => ⟨form.valid r, false, false⟩
  | some j => ⟨form.valid r, quotesStop form j r, sparkReceiptProven json stages s agent j r⟩

def tryReceipt (agent : String) (s : SparkStore) (r : JobReceipt) : Except StoreError SparkStore :=
  (Operations.applyReceipt s.store agent r (answers json stages form s agent r)).map fun store => { s with store }

def applyReceipt (agent : String) (s : SparkStore) (r : JobReceipt) : SparkStore :=
  { s with store := commit s.store (Operations.applyReceipt s.store agent r (answers json stages form s agent r)) }

/-- `ReconcileUnverifiedModelReceipts`. -/
def reconcileUnverified (agent : String) (updatedAt : JobRow → Time) (s : SparkStore) : SparkStore :=
  ReportHandler.reconcileReceipts (tryReceipt json stages form agent)
    (ReportHandler.unverifiedJobs s.store agent updatedAt) s

variable {json stages form}

theorem tryReceipt_ok {agent : String} {s u : SparkStore} {r : JobReceipt}
    (h : tryReceipt json stages form agent s r = .ok u) : applyReceipt json stages form agent s r = u := by
  obtain ⟨store, applied, rfl⟩ := map_ok h
  rw [applyReceipt, applied]
  rfl

end

end Monik.SparkReceipts
