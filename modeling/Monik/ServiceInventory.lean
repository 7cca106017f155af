import Monik.ControllerStore

/-! The listener inventory (`storage/service_inventory.go`, `UpsertService`). An endpoint is marked
missing after two complete scans without it; a scan older than the last one, or too old, is ignored.
-/

namespace Monik.ServiceInventory
open Protocol Tables ControllerStore

structure DiscoveredEndpoint where
  (dialTarget url hostHeader tlsServerName : String)
  speaksHttp : Bool
  speaksTls : Bool
  processName : String
  source : String

structure DiscoveryDelta where
  inventoryVersion : Int
  listenerCoverageComplete : Bool
  listenerTargets : List String
  kind : String
  listenerCount : Int
  confirmed : List DiscoveredEndpoint
  unresolved : List String
  startedAt : Time
  endedAt : Time

structure EndpointRow where
  (id agentId displayName url dialTarget hostHeader tlsServerName processName source : String)
  speaksHttp : Bool
  speaksTls : Bool
  firstSeenAt : Time
  lastSeenAt : Time
  lastDiscoveredAt : Option Time
  deriving DecidableEq

inductive Presence
  | present | unconfirmed | missing
  deriving DecidableEq

structure PresenceRow where
  serviceId : String
  state : Presence
  lastSeenAt : Option Time
  missingSince : Option Time
  absentSnapshots : Nat
  deriving DecidableEq

structure CheckpointRow where
  agentId : String
  startedAt : Time
  endedAt : Time
  complete : Bool
  listenerCount : Nat

structure IdentifiedRow where
  serviceId : String
  endpoint : DiscoveredEndpoint
  updatedAt : Time

structure ScanRow where
  agentId : String
  payload : String

structure Inventory where
  services : Table EndpointRow EndpointRow.id
  identified : Table IdentifiedRow IdentifiedRow.serviceId
  presence : Table PresenceRow PresenceRow.serviceId
  checkpoints : Table CheckpointRow CheckpointRow.agentId
  scans : Table ScanRow ScanRow.agentId

def Inventory.empty : Inventory := ⟨.empty, .empty, .empty, .empty, .empty⟩

def serviceAbsenceGrace : Time := minute

def inventoryMaxAge : Time := 5 * minute

/-- `CanonicalListenerTarget` of `netutil`; `none` where it refuses. -/
abbrev Canonical := String → Option String

variable (canonical : Canonical) (agent : String) (d : DiscoveryDelta)

def validateInventory (observed now : Time) : Option String :=
  if d.inventoryVersion = 0 then none
  else if d.inventoryVersion ≠ 1 ∨ d.kind ≠ "snapshot" then
    some "unsupported listener inventory version/kind"
  else if 4096 < d.listenerTargets.length ∨ d.listenerCount < d.listenerTargets.length then
    some "listener inventory exceeds budget"
  else if d.startedAt = zeroTime ∨ d.endedAt < d.startedAt ∨ now + 5 * second < d.endedAt ∨
      observed + 5 * second < d.endedAt then
    some "invalid listener inventory timestamps"
  else if (d.listenerTargets.any fun target => canonical target != some target) ||
      decide (¬d.listenerTargets.Nodup) then
    some "invalid or duplicate listener inventory target"
  else if d.confirmed.any fun ep => !(d.listenerTargets.contains ep.dialTarget) then
    some "identified service is not in OS inventory"
  else if d.listenerCoverageComplete &&
      d.unresolved.any fun target => !(d.listenerTargets.contains target) then
    some "unresolved endpoint is not in OS inventory"
  else none

def Inventory.checkpoint (v : Inventory) (agent : String) : Option CheckpointRow :=
  v.checkpoints.find? fun r => r.agentId == agent

/-- By the time of the scan, not of its arrival. -/
def inventoryIsNew (v : Inventory) (agent : String) (d : DiscoveryDelta) (now : Time) : Bool :=
  if d.inventoryVersion = 0 then true
  else if inventoryMaxAge < now - d.endedAt then false
  else (v.checkpoint agent).all fun last => decide (last.startedAt < d.startedAt)

def endpointRow (id : String) (ep : DiscoveredEndpoint) (now : Time) : EndpointRow :=
  ⟨id, agent, ep.url, ep.url, ep.dialTarget, ep.hostHeader, ep.tlsServerName, ep.processName, ep.source,
    ep.speaksHttp, ep.speaksTls, now, now, some now⟩

def rediscover (ep : DiscoveredEndpoint) (now : Time) (r : EndpointRow) : EndpointRow :=
  { r with
    url := ep.url, processName := ep.processName, source := ep.source
    speaksHttp := ep.speaksHttp, speaksTls := ep.speaksTls
    lastSeenAt := now, lastDiscoveredAt := some now }

def seenAt (id : String) (now : Time) : PresenceRow := ⟨id, .present, some now, none, 0⟩

/-- `UpsertService` after the lookup of `AcceptReport`: a logical endpoint keeps its row. -/
def upsertService (newId : DiscoveredEndpoint → String) (now : Time) (v : Inventory)
    (ep : DiscoveredEndpoint) : Except StoreError Inventory :=
  let existing := v.services.find? fun r =>
    r.agentId == agent && r.dialTarget == ep.dialTarget && r.hostHeader == ep.hostHeader
  let stored : Option (String × Table EndpointRow EndpointRow.id) :=
    match existing with
    | some r => some (r.id, v.services.update (fun k => k.id == r.id) (rediscover ep now) fun _ => rfl)
    | none => (v.services.insert (endpointRow agent (newId ep) ep now)).map fun t => (newId ep, t)
  match stored with
  | none => .error (.refused "services key")
  | some (id, services) =>
    .ok { v with
      services
      identified := v.identified.upsert ⟨id, ep, now⟩
      presence := if ep.source.startsWith "listener" then v.presence.upsert (seenAt id now)
        else v.presence }

def likeListener (source : String) : Bool := (source.map Char.toLower).startsWith "listener"

/-- The second complete scan without the endpoint, a grace period after the first, makes it missing. -/
def absentRow (service : EndpointRow) (known : Option PresenceRow) : PresenceRow :=
  let since := (known.bind PresenceRow.missingSince).getD d.endedAt
  let count := (known.map PresenceRow.absentSnapshots).getD 0
  let count := if count < 2 then count + 1 else count
  let state : Presence :=
    if 2 ≤ count ∧ serviceAbsenceGrace ≤ d.endedAt - since then .missing else .unconfirmed
  let lastSeenAt :=
    match known with
    | some p => p.lastSeenAt
    | none => service.lastDiscoveredAt
  ⟨service.id, state, lastSeenAt, some since, count⟩

def reconcileRecord (v : Inventory) (record : EndpointRow × Option PresenceRow) : Inventory :=
  match canonical record.1.dialTarget with
  | none => v
  | some target =>
    if d.listenerTargets.contains target then
      { v with
        presence := v.presence.upsert (seenAt record.1.id d.endedAt)
        services := v.services.update (fun r => r.id == record.1.id)
          (fun r => { r with lastDiscoveredAt := some d.endedAt }) fun _ => rfl }
    else if !d.listenerCoverageComplete then v
    else { v with presence := v.presence.upsert (absentRow d record.1 record.2) }

def checkpointRow (agent : String) (d : DiscoveryDelta) : CheckpointRow :=
  ⟨agent, d.startedAt, d.endedAt, d.listenerCoverageComplete, d.listenerTargets.length⟩

def reconcileInventory (v : Inventory) : Inventory :=
  if d.inventoryVersion ≠ 1 then v
  else
    let listeners := v.services.rows.filter fun r => r.agentId == agent && likeListener r.source
    let records := listeners.map fun r => (r, v.presence.find? fun p => p.serviceId == r.id)
    let v := records.foldl (reconcileRecord canonical d) v
    { v with checkpoints := v.checkpoints.upsert (checkpointRow agent d) }

def acceptDiscovery (newId : DiscoveredEndpoint → String) (now : Time) (payload : String)
    (d : DiscoveryDelta) (v : Inventory) : Except StoreError Inventory :=
  if inventoryIsNew v agent d now then do
    let v := { v with scans := v.scans.upsert ⟨agent, payload⟩ }
    let v ← d.confirmed.foldlM (upsertService agent newId now) v
    .ok (reconcileInventory canonical agent d v)
  else .ok v

def Inventory.owners (v : Inventory) : Table ServiceRow ServiceRow.id where
  rows := v.services.rows.map fun r => ⟨r.id, r.agentId⟩
  unique := by
    rw [List.map_map]
    exact v.services.unique

theorem upsertService_checkpoints {agent : String} {newId : DiscoveredEndpoint → String} {now : Time}
    {v v' : Inventory} {ep : DiscoveredEndpoint} (h : upsertService agent newId now v ep = .ok v') :
    v'.checkpoints = v.checkpoints := by
  unfold upsertService at h
  dsimp only at h
  split at h <;> cases h
  rfl

theorem reconcileRecord_checkpoints (canonical : Canonical) (d : DiscoveryDelta) (v : Inventory)
    (record : EndpointRow × Option PresenceRow) :
    (reconcileRecord canonical d v record).checkpoints = v.checkpoints := by
  unfold reconcileRecord
  split
  · rfl
  · split_ifs <;> rfl

end Monik.ServiceInventory
