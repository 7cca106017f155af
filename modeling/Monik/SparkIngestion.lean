import Mathlib.Data.String.Basic
import Monik.Ingestion
import Monik.KeyedMerge
import Monik.SparkProjection

/-! The Spark extension of an accepted report (`acceptSpark`): a raw sample, and for a live report a
merge into `spark_latest` with bounded lists. What is stored is read back as written. -/

namespace Monik.SparkIngestion
open Protocol Tables ControllerStore Ingestion KeyedMerge SparkProjection

structure SparkJson where
  marshal : SparkExtension → String
  unmarshal : String → Option SparkExtension

structure LatestRow where
  agentId : String
  sessionId : String
  seq : Int
  observedAt : Time
  receivedAt : Time
  payload : SparkExtension

structure SparkStore where
  store : Store
  latest : Table LatestRow LatestRow.agentId

def emptyExtension : SparkExtension := ⟨1, .unknown, [], none, [], none⟩

/-- The session and the merged extension; `classified`: the agent counts as Spark without one. -/
def SparkStore.snapshot (s : SparkStore) (agent : String) (classified : Bool) :
    Option (String × SparkExtension) :=
  match s.latest.find? fun row => row.agentId == agent with
  | some row => some (row.sessionId, row.payload)
  | none =>
    if classified then some (((s.store.agent agent).map AgentRow.sessionId).getD "", emptyExtension)
    else none

def mergeMetrics (old new : List SparkMetric) : List SparkMetric :=
  mergeNewer SparkMetric.metricId (fun m => m.observation.observedAt) old new

def mergeStates (old new : List SparkModelState) : List SparkModelState :=
  mergeNewer SparkModelState.profileId SparkModelState.observedAt old new

def mergeInventory (old new : Option SparkInventory) : Option SparkInventory :=
  match new, old with
  | none, _ => old
  | some i, none => some i
  | some i, some before =>
    if i.observedAt ≤ before.observedAt then some before
    else if i.complete then some i
    else
      some { i with
        profiles := mergeAll SparkProfile.profileId i.removedProfileIds before.profiles i.profiles }

def mergeControl (old new : Option SparkControlState) : Option SparkControlState :=
  match new, old with
  | none, _ => old
  | some c, none => some c
  | some c, some before => if before.observedAt < c.observedAt then some c else some before

def mergeSpark (current : Option (String × SparkExtension)) (session : String) (r : SparkExtension) :
    SparkExtension :=
  match current with
  | none => r
  | some (before, c) =>
    { schemaVersion := r.schemaVersion
      memoryTopology := r.memoryTopology
      metrics := mergeMetrics c.metrics r.metrics
      inventory := mergeInventory c.inventory r.inventory
      modelStates := mergeStates c.modelStates r.modelStates
      controlState := mergeControl (if before = session then c.controlState else none) r.controlState }

def withinBudget (m : SparkExtension) : Bool :=
  decide (m.metrics.length ≤ 512) && decide (m.modelStates.length ≤ 64) &&
    m.inventory.all fun i => decide (i.profiles.length ≤ 64)

def pruneStates (m : SparkExtension) : SparkExtension :=
  match m.inventory with
  | none => m
  | some i =>
    { m with modelStates := m.modelStates.filter fun st => i.profiles.any fun p => p.profileId == st.profileId }

def acceptLatest (s : SparkStore) (rep : AgentReport) (r : SparkExtension) (received : Time)
    (classified : Bool) : Except StoreError (Table LatestRow LatestRow.agentId) :=
  let merged := mergeSpark (s.snapshot rep.agentId classified) rep.sessionId r
  if !withinBudget merged then .error (.refused "merged Spark state exceeds budget")
  else
    .ok (s.latest.upsert
      ⟨rep.agentId, rep.sessionId, rep.sequence, rep.observedAt, received, pruneStates merged⟩)

def sparkCall (json : SparkJson) (rep : AgentReport) (call : Call) : Call :=
  let extension := rep.spark.bind json.unmarshal
  { call with
    sparkValid := extension.any fun r => validateSpark r rep.observedAt call.opened == none
    sparkFits := rep.spark.all fun text => decide (text.utf8ByteSize ≤ 1048576) }

/-- The merge is part of the transaction: if it refuses, nothing of the report is committed. -/
def acceptReport (json : SparkJson) (c : Codec) (s : SparkStore) (rep : AgentReport) (call : Call)
    (classified : Bool) : Except StoreError (SparkStore × AcceptedReport) :=
  match Ingestion.acceptReport c s.store rep (sparkCall json rep call) with
  | .error e => .error e
  | .ok (store, out) =>
    match rep.spark.bind json.unmarshal with
    | none => .ok ({ s with store }, out)
    | some r =>
      if out.live then
        match acceptLatest s rep r call.received classified with
        | .error e => .error e
        | .ok latest => .ok (⟨store, latest⟩, out)
      else .ok ({ s with store }, out)

end Monik.SparkIngestion
