import Mathlib.Data.List.Sort
import Monik.ControllerStore

/-! Ingestion of reports (`storage/ingest.go`) and the cleanup of raw rows (`retainRaw`), a sequence
of `DELETE` statements with other transactions between. Validators of a payload alone are inputs. -/

namespace Monik.Ingestion
open Protocol Tables ControllerStore

variable {s s' : Store} {rep : AgentReport} {maxAge now : Time} {i : IngestRow}

/-- How a report becomes a payload hash: `json.Marshal`, then `SHA256Bytes`. -/
structure Codec where
  marshal : AgentReport → String
  sha256 : String → String

def observationPayload (c : Codec) (rep : AgentReport) : String := c.marshal rep.observation

def payloadHash (c : Codec) (rep : AgentReport) : String := c.sha256 (observationPayload c rep)

/-- One call: its clock readings in order, and what validators and lookups outside these
tables answer. -/
structure Call where
  opened : Time
  validated : Time
  received : Time
  sparkValid : Bool
  inventoryValid : Bool
  suggestionsValid : Bool
  sparkFits : Bool
  /-- `config_revisions` holds the reported revision and hash. -/
  revisionKnown : Bool
  discovered : Option (Table ServiceRow ServiceRow.id)

structure AcceptedReport where
  duplicate : Bool
  live : Bool
  deriving DecidableEq

def inWindow (observed now : Time) : Bool :=
  decide (now - rawRetention ≤ observed) && decide (observed ≤ now + 5 * minute)

def refusal (rep : AgentReport) (call : Call) : Option String :=
  if rep.schemaVersion ≠ schemaVersion ∨ rep.agentId = "" ∨ rep.sessionId = "" ∨
      rep.sequence < 1 ∨ rep.observedAt = zeroTime then
    some "invalid report identity/schema/time"
  else if rep.checks.length > 1000 ∨ rep.jobReceipts.length > 128 then
    some "report exceeds item budget"
  else if rep.spark.isSome ∧ !call.sparkValid then some "invalid Spark extension"
  else if rep.agentFlavor ≠ "" ∧ rep.agentFlavor ≠ "general" ∧ rep.agentFlavor ≠ "spark-light" then
    some "unsupported agent flavor"
  else if rep.discovery.isSome ∧ !call.inventoryValid then some "invalid listener inventory"
  else if rep.discovery.any fun d => d.confirmed > 256 then some "discovery exceeds item budget"
  else if rep.discovery.any fun d => d.unresolved > 256 then
    some "unresolved inventory exceeds budget"
  else if rep.discovery.isSome ∧ !call.suggestionsValid then some "invalid suggestions"
  else if !inWindow rep.observedAt call.opened then
    some "observation outside accepted clock/retention window"
  else none

def checkRefusal (s : Store) (agent : String) (now : Time) (c : CheckObservation) : Option String :=
  if c.intervalSeconds ≠ 0 ∧
      (c.intervalSeconds < 5 ∨ c.intervalSeconds > 3600 ∨ c.intervalSeconds % 5 ≠ 0) then
    some "invalid check interval evidence"
  else if (s.services.find? fun row => row.id == c.serviceId).all fun row => row.agentId != agent then
    some "service does not belong to reporting agent"
  else if c.observedAt = zeroTime ∨ !inWindow c.observedAt now then
    some "invalid check observation time"
  else if c.vantage ≠ "agent/local" ∧ c.vantage ≠ "agent" ∧ c.vantage ≠ "local" then
    some "invalid agent vantage"
  else none

def receiptRefusal (s : Store) (agent : String) (r : JobReceipt) : Option StoreError :=
  match s.jobs.find? fun j => j.jobId == r.jobId && j.agentId == agent with
  | none => some (.refused "job does not belong to reporting agent")
  | some j => if r.operationId ≠ "" ∧ r.operationId ≠ j.operationId then some .conflict else none

def insertHostSample (s : Store) (rep : AgentReport) (now : Time) : Store :=
  match rep.host with
  | none => s
  | some host => { s with hostSamples := s.hostSamples ++
      [⟨rep.agentId, rep.sessionId, rep.sequence, rep.observedAt, now, host⟩] }

def insertChecks (s : Store) (rep : AgentReport) (now : Time) : Store :=
  { s with observations := s.observations ++ rep.checks.map fun c => ⟨rep.agentId, now, c⟩ }

def isLive (s : Store) (ag : AgentRow) (rep : AgentReport) : Bool :=
  rep.isLive && (ag.sessionId != rep.sessionId || decide (ag.lastSeq < rep.sequence)) &&
    (ag.sessionId == "" || (s.ingests.find? fun i =>
      i.agentId == rep.agentId && i.sessionId == ag.sessionId && i.seq == ag.lastSeq).all
        fun previous => decide (previous.observedAt ≤ rep.observedAt))

def insertSparkSample (s : Store) (rep : AgentReport) (call : Call) : Tx :=
  match rep.spark with
  | none => .ok s
  | some payload =>
    if !call.sparkFits then .error (.refused "Spark extension exceeds byte budget")
    else
      match s.sparkSamples.insert
          ⟨rep.agentId, rep.sessionId, rep.sequence, rep.observedAt, payload⟩ with
      | none => .error (.refused "spark_samples key")
      | some sparkSamples => .ok { s with sparkSamples }

def orKeep (new old : String) : String := if new = "" then old else new

def touchAgent (rep : AgentReport) (call : Call) (a : AgentRow) : AgentRow :=
  let generation :=
    if 0 < rep.endpointGeneration ∧ a.endpointGeneration ≤ rep.endpointGeneration then
      rep.endpointGeneration else a.endpointGeneration
  let applies := 0 < rep.configRevision ∧ rep.configHash ≠ "" ∧
    a.appliedRevision ≤ rep.configRevision ∧ call.revisionKnown
  { a with
    flavor := orKeep rep.agentFlavor a.flavor
    os := orKeep ((rep.host.map Host.os).getD "") a.os
    arch := orKeep ((rep.host.map Host.arch).getD "") a.arch
    immutableRelease := rep.immutableRelease
    managedReady := rep.managedReady
    workerDigest := orKeep rep.workerDigest a.workerDigest
    sessionId := rep.sessionId
    lastSeq := rep.sequence
    lastLiveAt := some call.received
    endpointGeneration := generation
    appliedRevision := if applies then rep.configRevision else a.appliedRevision
    appliedHash := if applies then rep.configHash else a.appliedHash }

def touchLive (s : Store) (rep : AgentReport) (call : Call) : Store :=
  let agents := s.agents.update (fun a => a.id == rep.agentId) (touchAgent rep call) fun _ => rfl
  let services := if rep.discovery.isSome then call.discovered.getD s.services else s.services
  { s with agents, services }

def receiptRow (c : Codec) (rep : AgentReport) (call : Call) : IngestRow :=
  ⟨rep.agentId, rep.sessionId, rep.sequence, rep.observedAt, call.received, payloadHash c rep,
    rep.host.isSome, rep.discovery.isSome⟩

def commitReport (c : Codec) (s : Store) (ag : AgentRow) (rep : AgentReport) (call : Call) :
    Except StoreError (Store × AcceptedReport) :=
  match rep.checks.findSome? (checkRefusal s rep.agentId call.validated) with
  | some reason => .error (.refused reason)
  | none =>
    match (if rep.isLive then rep.jobReceipts else []).findSome? (receiptRefusal s rep.agentId) with
    | some e => .error e
    | none => do
      let live := isLive s ag rep
      let s := insertChecks (insertHostSample s rep call.received) rep call.received
      let s ← insertSparkSample s rep call
      let s := if live then touchLive s rep call else s
      match s.ingests.insert (receiptRow c rep call) with
      | none => .error (.refused "ingest_receipts key")
      | some ingests => .ok ({ s with ingests }, ⟨false, live⟩)

def acceptReport (c : Codec) (s : Store) (rep : AgentReport) (call : Call) :
    Except StoreError (Store × AcceptedReport) :=
  match refusal rep call with
  | some reason => .error (.refused reason)
  | none =>
    match s.agent rep.agentId with
    | none => .error .notFound
    | some ag =>
      if ag.revoked then .error (.refused "agent revoked")
      else
        match s.ingests.find? (fun i => i.agentId == rep.agentId &&
            i.sessionId == rep.sessionId && i.seq == rep.sequence) with
        | some prior =>
          if prior.payloadHash ≠ payloadHash c rep then .error .conflict
          else .ok (s, ⟨true, false⟩)
        | none => commitReport c s ag rep call

structure Added (c : Codec) (s s' : Store) (rep : AgentReport) (call : Call) : Prop where
  fresh : ∀ i ∈ s.ingests, i.key ≠ rep.key
  receipt : ∀ i, i ∈ s'.ingests ↔ i ∈ s.ingests ∨ i = receiptRow c rep call
  host : ∃ rows, s'.hostSamples = s.hostSamples ++ rows ∧ rows.length ≤ 1
  checks : ∃ rows, s'.observations = s.observations ++ rows ∧ rows.length = rep.checks.length
  spark : ∃ rows, s'.sparkSamples.rows = s.sparkSamples.rows ++ rows ∧ rows.length ≤ 1
  control : s'.operations = s.operations ∧ s'.targets = s.targets ∧ s'.jobs = s.jobs
  services : s'.services = s.services ∨ s'.services = call.discovered.getD s.services
  intents : s'.intents = s.intents

variable {call : Call}

theorem insertSparkSample_ok (h : insertSparkSample s rep call = .ok s') :
    (∃ sparkSamples, s' = { s with sparkSamples }) ∧
      ∃ rows, s'.sparkSamples.rows = s.sparkSamples.rows ++ rows ∧ rows.length ≤ 1 := by
  unfold insertSparkSample at h
  split at h
  · cases h
    exact ⟨⟨_, rfl⟩, [], by simp, by simp⟩
  · split at h
    · cases h
    · split at h
      · cases h
      · rename_i hins
        cases h
        exact ⟨⟨_, rfl⟩, _, Table.insert_rows hins, by simp⟩

theorem insertHostSample_ok (s : Store) (rep : AgentReport) (now : Time) :
    ∃ rows, insertHostSample s rep now = { s with hostSamples := s.hostSamples ++ rows } ∧
      rows.length ≤ 1 := by
  unfold insertHostSample
  split
  · exact ⟨[], by simp, by simp⟩
  · exact ⟨_, rfl, by simp⟩

theorem commitReport_ok {c : Codec} {ag : AgentRow}
    {out : AcceptedReport} (h : commitReport c s ag rep call = .ok (s', out)) :
    out.duplicate = false ∧ Added c s s' rep call := by
  unfold commitReport at h
  split at h
  · cases h
  split at h
  · cases h
  obtain ⟨u, hu, h⟩ := bind_ok.mp h
  dsimp only at h
  split at h
  · cases h
  rename_i ingests hins
  cases h
  obtain ⟨⟨samples, rfl⟩, spark⟩ := insertSparkSample_ok hu
  obtain ⟨rows, hosts, short⟩ := insertHostSample_ok s rep call.received
  rw [hosts] at hins spark ⊢
  -- marking the agent as live touches none of the tables below
  have live : ∀ u v : Store, v = (if isLive s ag rep then touchLive u rep call else u) →
      v.ingests = u.ingests ∧ v.hostSamples = u.hostSamples ∧ v.observations = u.observations ∧
        v.sparkSamples = u.sparkSamples ∧
        (v.operations = u.operations ∧ v.targets = u.targets ∧ v.jobs = u.jobs) ∧
        (v.services = u.services ∨ v.services = call.discovered.getD u.services) ∧
        v.intents = u.intents := by
    rintro u v rfl
    split
    · refine ⟨rfl, rfl, rfl, rfl, ⟨rfl, rfl, rfl⟩, ?_, rfl⟩
      unfold touchLive
      split
      · exact .inr rfl
      · exact .inl rfl
    · exact ⟨rfl, rfl, rfl, rfl, ⟨rfl, rfl, rfl⟩, .inl rfl, rfl⟩
  obtain ⟨liveIngests, liveHosts, liveChecks, liveSpark, control, services, intents⟩ := live _ _ rfl
  obtain ⟨fresh, mem⟩ := Table.insert_some hins
  rw [liveIngests] at fresh mem
  refine ⟨rfl, fresh, mem, ⟨rows, liveHosts, short⟩,
    ⟨rep.checks.map fun c => ⟨rep.agentId, call.received, c⟩, liveChecks, List.length_map _⟩, ?_, control,
    services, intents⟩
  obtain ⟨added, grown, few⟩ := spark
  exact ⟨added, (congrArg Table.rows liveSpark).trans grown, few⟩

/-- An accepted report is a duplicate and changes nothing, or the first with its identity and its rows are
added. -/
theorem acceptReport_ok {c : Codec} {out : AcceptedReport} (h : acceptReport c s rep call = .ok (s', out)) :
    inWindow rep.observedAt call.opened ∧ (out.duplicate ∧ s' = s ∧ (∃ i ∈ s.ingests, i.key = rep.key) ∨
        out.duplicate = false ∧ Added c s s' rep call) := by
  unfold acceptReport at h
  split at h
  · cases h
  rename_i admitted
  have window : inWindow rep.observedAt call.opened := by
    unfold refusal at admitted
    split_ifs at admitted with _ _ _ _ _ _ _ _ outside
    simpa using outside
  refine ⟨window, ?_⟩
  split at h
  · cases h
  split at h
  · cases h
  split at h
  · rename_i prior found
    obtain ⟨hprior, same⟩ := Table.find?_some found
    simp only [Bool.and_eq_true, beq_iff_eq] at same
    split at h
    · cases h
    · cases h
      exact .inl ⟨rfl, rfl, prior, hprior, by simp [IngestRow.key, AgentReport.key, same]⟩
  · exact .inr (commitReport_ok h)

inductive RawTable
  | hostSamples | sparkSamples | serviceObservations | ingestReceipts

def oldest {ρ : Type} (column : ρ → Time) (cutoff : Time) (rows : List ρ) : List ρ :=
  ((rows.filter fun r => decide (column r < cutoff)).insertionSort
    fun a b => column a ≤ column b).take 1000

def deleteBatch (maxAge now : Time) (s : Store) : RawTable → Store × Nat
  | .hostSamples =>
    let victims := oldest HostSampleRow.observedAt (now - maxAge) s.hostSamples
    ({ s with hostSamples := s.hostSamples.diff victims }, victims.length)
  | .sparkSamples =>
    let victims := oldest SparkSampleRow.observedAt (now - maxAge) s.sparkSamples.rows
    ({ s with sparkSamples := s.sparkSamples.delete fun r => decide (r ∈ victims) }, victims.length)
  | .serviceObservations =>
    let victims := oldest (fun r => r.payload.observedAt) (now - maxAge) s.observations
    ({ s with observations := s.observations.diff victims }, victims.length)
  | .ingestReceipts =>
    let victims := oldest IngestRow.receivedAt (now - 2 * maxAge) s.ingests.rows
    ({ s with ingests := s.ingests.delete fun r => decide (r ∈ victims) }, victims.length)

/-- One round over the tables that are not done; `budget` statements run before the pass's
context ends. -/
def retainRound (maxAge now : Time) : List RawTable → Nat → Store → Store × List RawTable × Nat
  | [], budget, s => (s, [], budget)
  | _ :: _, 0, s => (s, [], 0)
  | t :: ts, budget + 1, s =>
    let (s, n) := deleteBatch maxAge now s t
    let (s, rest, budget) := retainRound maxAge now ts budget s
    (s, if n < 1000 then rest else t :: rest, budget)

def retainRounds (maxAge now : Time) : Nat → List RawTable → Nat → Store → Store
  | 0, _, _, s => s
  | rounds + 1, tables, budget, s =>
    let (s, rest, budget) := retainRound maxAge now tables budget s
    retainRounds maxAge now rounds rest budget s

def retainRaw (maxAge now : Time) (budget : Nat) (s : Store) : Store :=
  if maxAge < hour then s
  else retainRounds maxAge now 10
    [.hostSamples, .sparkSamples, .serviceObservations, .ingestReceipts] budget s

theorem retainRound_batches (maxAge now : Time) (tables : List RawTable) (budget : Nat) (s : Store) :
    ∃ done : List RawTable, (retainRound maxAge now tables budget s).1 =
      done.foldl (fun s t => (deleteBatch maxAge now s t).1) s := by
  induction tables generalizing budget s with
  | nil => exact ⟨[], rfl⟩
  | cons t ts ih =>
    cases budget with
    | zero => exact ⟨[], rfl⟩
    | succ budget =>
      obtain ⟨done, rest⟩ := ih budget (deleteBatch maxAge now s t).1
      exact ⟨t :: done, rest⟩

theorem retainRaw_batches (maxAge now : Time) (budget : Nat) (s : Store) :
    ∃ done : List RawTable, retainRaw maxAge now budget s =
      done.foldl (fun s t => (deleteBatch maxAge now s t).1) s := by
  unfold retainRaw
  split
  · exact ⟨[], rfl⟩
  · generalize [RawTable.hostSamples, .sparkSamples, .serviceObservations, .ingestReceipts] = tables
    generalize 10 = rounds
    induction rounds generalizing tables budget s with
    | zero => exact ⟨[], rfl⟩
    | succ rounds ih =>
      obtain ⟨first, hfirst⟩ := retainRound_batches maxAge now tables budget s
      obtain ⟨later, hlater⟩ := ih _ (retainRound maxAge now tables budget s).1 _
      exact ⟨first ++ later, by rw [List.foldl_append, ← hfirst]; exact hlater⟩

theorem deleteBatch_ingests {t : RawTable} (hi : i ∈ s.ingests) (young : now - 2 * maxAge ≤ i.receivedAt) :
    i ∈ (deleteBatch maxAge now s t).1.ingests := by
  cases t with
  | ingestReceipts =>
    refine Table.mem_delete.mpr ⟨hi, decide_eq_false fun victim => ?_⟩
    have sorted := List.mem_of_mem_take victim
    rw [List.mem_insertionSort, List.mem_filter, decide_eq_true_eq] at sorted
    exact absurd sorted.2 (not_lt.mpr young)
  | _ => exact hi

theorem deleteBatch_ingests_sub {t : RawTable} (hi : i ∈ (deleteBatch maxAge now s t).1.ingests) : i ∈ s.ingests := by
  cases t with
  | ingestReceipts => exact (Table.mem_delete.mp hi).1
  | _ => exact hi

end Monik.Ingestion
