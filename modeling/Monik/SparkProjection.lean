import Monik.Protocol
import Monik.SparkPolicy

/-! The Spark extension of a report and `ValidateSpark`. A field compared with a list of names has a
constructor for any other text; the decoder refuses a missing list. -/

namespace Monik.SparkProjection
open Protocol SparkPolicy

inductive MemoryTopology
  | unified | dedicated | unknown
  | other (text : String)
  deriving DecidableEq

inductive Number
  | finite (digits : String)
  | nan
  | infinite
  deriving DecidableEq

inductive MetricQuality
  | ok | unsupported | permissionDenied | unknown | stale | error
  | other (text : String)
  deriving DecidableEq

structure SparkObservation where
  value : Option Number
  unit : String
  source : String
  observedAt : Time
  quality : MetricQuality
  reason : String
  deriving DecidableEq

structure SparkMetric where
  metricId : String
  observation : SparkObservation
  deriving DecidableEq

inductive Provenance
  | configured | observedEffective | unknown
  | other (text : String)
  deriving DecidableEq

inductive SettingValue
  | null
  | bool (b : Bool)
  | str (s : String)
  | num (n : Number)
  | composite
  deriving DecidableEq

structure SparkSetting where
  name : String
  value : SettingValue
  provenance : Provenance
  deriving DecidableEq

inductive Engine
  | llamaCpp | vllm | sglang | tensorrtLlm | ollama | custom | unknown
  | other (text : String)
  deriving DecidableEq

inductive Supervisor
  | systemdSystem | systemdUser | docker | approvedLauncher | existingCoordinator | unknown
  | other (text : String)
  deriving DecidableEq

inductive AllowedAction
  | start | stop | restart
  | other (text : String)
  deriving DecidableEq

structure SparkProfile where
  logAllowed : Bool
  profileId : String
  displayName : String
  profileRevision : String
  engine : Engine
  supervisor : Supervisor
  controlAllowed : Bool
  controlReason : String
  configuredModelRef : String
  settings : List SparkSetting
  allowedActions : List AllowedAction
  (engineVersion supervisorVersion endpointHint : Option String)
  modelAliases : List String
  deriving DecidableEq

structure SparkInventory where
  revision : String
  complete : Bool
  observedAt : Time
  profiles : List SparkProfile
  removedProfileIds : List String
  deriving DecidableEq

inductive SupervisorState
  | stopped | starting | running | stopping | failed | unknown
  | other (text : String)
  deriving DecidableEq

inductive Readiness
  | ready | unready | unknown | notApplicable
  | other (text : String)
  deriving DecidableEq

inductive StateQuality
  | ok | stale | error | unknown
  | other (text : String)
  deriving DecidableEq

structure SparkModelState where
  profileId : String
  generation : Int
  observedAt : Time
  supervisorState : SupervisorState
  readiness : Readiness
  quality : StateQuality
  reason : String
  deriving DecidableEq

structure SparkControlState where
  enabled : Bool
  epoch : Option String
  observedAt : Time
  reason : String
  deriving DecidableEq

structure SparkExtension where
  schemaVersion : Int
  memoryTopology : MemoryTopology
  metrics : List SparkMetric
  inventory : Option SparkInventory
  modelStates : List SparkModelState
  controlState : Option SparkControlState
  deriving DecidableEq

def sparkRevision (s : String) : Bool :=
  let digits := s.toList.drop 7
  s.toList.take 7 == "sha256:".toList && digits.length == 64 &&
    digits.all fun c => c.isDigit || ('a' ≤ c && c ≤ 'f')

def sparkTime (observed report now : Time) : Bool :=
  observed != zeroTime && decide (now - rawRetention ≤ observed) &&
    decide (observed ≤ now + 5 * minute) && decide (observed ≤ report + 5 * second)

def MemoryTopology.named : MemoryTopology → Bool
  | .other _ => false
  | _ => true

def MetricQuality.named : MetricQuality → Bool
  | .other _ => false
  | _ => true

def Provenance.named : Provenance → Bool
  | .other _ => false
  | _ => true

def Engine.named : Engine → Bool
  | .other _ => false
  | _ => true

def Supervisor.named : Supervisor → Bool
  | .other _ => false
  | _ => true

def AllowedAction.named : AllowedAction → Bool
  | .other _ => false
  | _ => true

def SupervisorState.named : SupervisorState → Bool
  | .other _ => false
  | _ => true

def Readiness.named : Readiness → Bool
  | .other _ => false
  | _ => true

def StateQuality.named : StateQuality → Bool
  | .other _ => false
  | _ => true

def Number.isFinite : Number → Bool
  | .finite _ => true
  | _ => false

def metricFields (o : SparkObservation) (report now : Time) : Bool :=
  1 ≤ o.unit.utf8ByteSize && o.unit.utf8ByteSize ≤ 32 &&
    1 ≤ o.source.utf8ByteSize && o.source.utf8ByteSize ≤ 128 &&
    o.reason.utf8ByteSize ≤ 256 && sparkTime o.observedAt report now && o.quality.named

/-- Quality and value agree: a value without a reason, or a reason without a value; a stale
observation has a reason. -/
def qualityAgrees (o : SparkObservation) : Bool :=
  match o.quality with
  | .ok => o.value.isSome
  | .stale => o.reason != ""
  | _ => o.value.isNone && o.reason != ""

def checkMetrics (report now : Time) : List String → List SparkMetric → Option String
  | _, [] => none
  | seen, m :: rest =>
    if !sparkValidId m.metricId || seen.contains m.metricId ||
        !metricFields m.observation report now then some "invalid Spark metric"
    else if m.observation.value.any fun n => !n.isFinite then some "nonfinite Spark observation"
    else if !qualityAgrees m.observation then some "invalid Spark observation quality/value"
    else checkMetrics report now (m.metricId :: seen) rest

def checkActions : List AllowedAction → List AllowedAction → Option String
  | _, [] => none
  | acts, act :: rest =>
    if !act.named || acts.contains act then some "invalid Spark action"
    else checkActions (act :: acts) rest

def checkSetting (st : SparkSetting) : Option String :=
  if st.name.utf8ByteSize > 256 || !st.provenance.named then some "invalid Spark setting"
  else
    match st.value with
    | .null | .bool _ => none
    | .str v => if v.utf8ByteSize > 1024 then some "oversized Spark setting" else none
    | .num n => if !n.isFinite then some "nonfinite Spark setting" else none
    | .composite => some "non-scalar Spark setting"

def checkAliases : List String → List String → Option String
  | _, [] => none
  | seen, name :: rest =>
    if name.utf8ByteSize > 256 || seen.contains name then some "invalid Spark alias"
    else checkAliases (name :: seen) rest

def oversized (limit : Nat) (v : Option String) : Bool := v.any fun v => v.utf8ByteSize > limit

def profileFields (p : SparkProfile) : Bool :=
  sparkRevision p.profileRevision && p.displayName.utf8ByteSize ≤ 256 &&
    p.configuredModelRef.utf8ByteSize ≤ 256 && p.controlReason.utf8ByteSize ≤ 256 &&
    p.settings.length ≤ 128 && p.allowedActions.length ≤ 3 && p.modelAliases.length ≤ 32 &&
    p.engine.named && p.supervisor.named

def checkProfile (p : SparkProfile) : Option String :=
  if !p.controlAllowed && (!p.allowedActions.isEmpty || p.controlReason == "") ||
      p.controlAllowed && p.allowedActions.isEmpty then
    some "invalid Spark profile control projection"
  else
    (checkActions [] p.allowedActions).or <| (p.settings.findSome? checkSetting).or <|
      if oversized 128 p.engineVersion || oversized 128 p.supervisorVersion then
        some "oversized Spark version"
      else if oversized 512 p.endpointHint ||
          p.endpointHint.any (fun h => h.toList.any fun c => c == '\r' || c == '\n') then
        some "invalid Spark endpoint hint"
      else checkAliases [] p.modelAliases

def checkRemovals : List String → List String → Option String
  | _, [] => none
  | seen, id :: rest =>
    if !sparkValidId id || seen.contains id then some "invalid Spark inventory removal"
    else checkRemovals (id :: seen) rest

def checkProfiles (removed : List String) : List String → List SparkProfile → Option String
  | seen, [] => checkRemovals seen removed
  | seen, p :: rest =>
    if !sparkValidId p.profileId || seen.contains p.profileId || !profileFields p then
      some "invalid Spark profile"
    else (checkProfile p).or (checkProfiles removed (p.profileId :: seen) rest)

def checkInventory (i : SparkInventory) (report now : Time) : Option String :=
  if !sparkRevision i.revision || !sparkTime i.observedAt report now || i.profiles.length > 64 ||
      i.removedProfileIds.length > 64 then some "invalid Spark inventory"
  else checkProfiles i.removedProfileIds [] i.profiles

def stateFields (st : SparkModelState) (report now : Time) : Bool :=
  0 ≤ st.generation && st.generation ≤ 9007199254740991 && sparkTime st.observedAt report now &&
    st.supervisorState.named && st.readiness.named && st.quality.named &&
    st.reason.utf8ByteSize ≤ 256

def checkStates (report now : Time) : List String → List SparkModelState → Option String
  | _, [] => none
  | seen, st :: rest =>
    if !sparkValidId st.profileId || seen.contains st.profileId || !stateFields st report now then
      some "invalid Spark model state"
    else if st.readiness = .ready ∧ st.supervisorState ≠ .running then
      some "ready Spark state lacks running fresh evidence"
    else checkStates report now (st.profileId :: seen) rest

def checkControl (c : SparkControlState) (report now : Time) : Option String :=
  if !sparkTime c.observedAt report now || c.reason.utf8ByteSize > 256 ||
      c.enabled && !c.epoch.any sparkValidId || !c.enabled && c.epoch.isSome then
    some "invalid Spark control state"
  else none

def validateSpark (s : SparkExtension) (report now : Time) : Option String :=
  if s.schemaVersion ≠ 1 || !s.memoryTopology.named || s.metrics.length > 512 ||
      s.modelStates.length > 64 then
    some "unsupported Spark version/topology or item budget"
  else
    (checkMetrics report now [] s.metrics).or <|
      (s.inventory.bind fun i => checkInventory i report now).or <|
        (checkStates report now [] s.modelStates).or
          (s.controlState.bind fun c => checkControl c report now)

end Monik.SparkProjection
