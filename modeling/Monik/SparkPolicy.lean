import Monik.Protocol
import Monik.Persistence

/-! The local policy of the broker, what supervisors report, and the records of its journal, without
parts of a profile that nothing reads. -/

namespace Monik.SparkPolicy
open Protocol Persistence

inductive TargetKind
  | systemdSystem | systemdUser | docker | approvedLauncher | configuredCatalog
  | existingCoordinator
  deriving DecidableEq

structure Profile where
  id : String
  allowedActions : List Action
  observationOnly : Bool
  kind : TargetKind
  definitionHash : String
  sharedLock : String
  backendRevision : String
  exclusionGroups : List String
  requiredMemoryBytes : Nat
  osHeadroomBytes : Nat
  blockUnknownMemory : Bool
  port : Nat
  revision : String

/-- A policy that `Validate` accepts: an existing coordinator admits its own launches, so its
profile names no exclusion group. -/
structure Policy where
  enabled : Bool
  profiles : List Profile
  hash : String
  existing_ungrouped : ∀ p ∈ profiles, p.kind = .existingCoordinator → p.exclusionGroups = []

def Policy.profile (policy : Policy) (id : String) : Option Profile :=
  policy.profiles.find? fun p => p.id == id

inductive InstanceState
  | running | starting | stopping | stopped | failed | unknown
  deriving DecidableEq

def InstanceState.text : InstanceState → String
  | .running => "running"
  | .starting => "starting"
  | .stopping => "stopping"
  | .stopped => "stopped"
  | .failed => "failed"
  | .unknown => "unknown"

structure ExistingAuthority where
  controlEpoch : String
  agentSession : String
  bootId : String
  deriving DecidableEq

/-- The states an existing coordinator reports; every other text reads as `unknown`. -/
inductive BackendState
  | ready | starting | stopping | stopped | blocked | failed | unknown
  deriving DecidableEq

inductive BackendPhase
  | completed | dispatched | unresolved
  deriving DecidableEq

/-- `witness` stands for the shutdown witness and the physical instance, which only the parameters of
`ExistingChecks` read. -/
structure ExistingResult where
  modelId : String
  state : BackendState
  processActive : Bool
  apiReady : Bool
  generation : Option Int
  attempt : Option String
  runId : Option String
  effectInvoked : Option Bool
  instanceIdentity : String
  witness : String

structure ExistingSnapshot where
  result : ExistingResult
  profileRevision : String
  observedAtMs : Int
  authority : ExistingAuthority

structure ExistingReceipt where
  operationId : String
  profileId : String
  action : Action
  phase : BackendPhase
  runId : Option String
  generation : Int
  attempt : Option String
  result : Option ExistingResult

structure ExistingRequest where
  operationId : String
  profileId : String
  action : Action
  profileRevision : String
  expectedGeneration : Int
  expectedInstance : String
  authority : ExistingAuthority
  issuedAt : Time
  deadline : Time
  parentOperationId : String

/-- The pure parts of the existing coordinator's protocol: digests and checks. -/
structure ExistingChecks where
  /-- `digest([kind, profile id, generation, instance identity])` -/
  identity : String → Option Int → String → String
  validateExistingReceipt : ExistingReceipt → ExistingRequest → Bool
  validateExistingSnapshot : ExistingSnapshot → Profile → Time → Bool
  validExistingShutdown : ExistingResult → String → Option String → Int → Bool
  compatibleExistingPhysical : ExistingSnapshot → ExistingSnapshot → Bool
  existingReadyPhysical : ExistingSnapshot → Profile → Bool

structure Instance where
  state : InstanceState
  identity : String
  pid : Nat
  available : Bool
  shutdownVerified : Bool
  backend : Option ExistingSnapshot

def Instance.zero : Instance := ⟨.unknown, "", 0, false, false, none⟩

def valueGeneration (g : Option Int) : Int := g.getD (-1)

def BackendState.instanceState : BackendState → InstanceState
  | .ready => .running
  | .starting => .starting
  | .stopping => .stopping
  | .stopped | .blocked => .stopped
  | .failed => .failed
  | .unknown => .unknown

def ExistingSnapshot.toInstance (checks : ExistingChecks) (s : ExistingSnapshot) (p : Profile) : Instance :=
  let state := s.result.state.instanceState
  { state, identity := checks.identity p.id s.result.generation s.result.instanceIdentity, pid := 0
    available := state != .unknown
    shutdownVerified :=
      checks.validExistingShutdown s.result p.id s.result.runId (valueGeneration s.result.generation)
    backend := some s }

def shutdownComplete (p : Profile) (i : Instance) : Bool :=
  if !i.available || i.identity == "" || !(i.state == .stopped || i.state == .failed) || i.pid != 0 then
    false
  else
    match p.kind with
    | .systemdSystem | .systemdUser =>
      i.shutdownVerified && (i.state != .failed || i.identity != "stopped")
    | .existingCoordinator => i.shutdownVerified
    | .docker => i.state == .stopped
    | .approvedLauncher | .configuredCatalog => false

structure ModelActionParams where
  profileId : String
  profileRevision : String
  expectedGeneration : Int
  controlEpoch : String
  expectedAgentSession : String
  confirmDisruption : Bool
  deriving DecidableEq

structure ActionRequest where
  jobId : String
  operationId : String
  action : Action
  params : ModelActionParams
  issuedAt : Time
  deadline : Time
  parentJobId : String
  isLocal : Bool
  deriving DecidableEq

/-- The pattern `^[A-Za-z0-9][A-Za-z0-9_.:-]{0,127}$` -/
def sparkValidId (s : String) : Bool :=
  match s.toList with
  | [] => false
  | c :: rest => c.isAlphanum && rest.length ≤ 127 &&
      rest.all fun c => c.isAlphanum || c == '_' || c == '.' || c == ':' || c == '-'

inductive AttemptStage
  | zero | preflightPending | effectAttempted | existingAttempted | restartStopped | startAttempted
  | done
  deriving DecidableEq

structure Attempt where
  request : ActionRequest
  digest : String
  stage : AttemptStage
  before : Instance
  receipt : JobReceipt
  attemptedAt : Time
  stoppedByJobId : String
  backendRequest : Option ExistingRequest
  backendReceipt : Option ExistingReceipt
  backendSnapshot : Option ExistingSnapshot

structure RuntimeProfile where
  identity : String
  generation : Int
  state : InstanceState
  reserved : Bool
  startingAt : Time
  reservationUntil : Time
  backendObservedAtMs : Int

def RuntimeProfile.zero : RuntimeProfile := ⟨"", 0, .unknown, false, zeroTime, zeroTime, 0⟩

def ActionRequest.zero : ActionRequest :=
  ⟨"", "", .agentDiagnostics, ⟨"", "", 0, "", "", false⟩, zeroTime, zeroTime, "", false⟩

/-- What reading an absent key yields; its empty status stands as `unknown_result`. -/
def Attempt.zero : Attempt :=
  { request := .zero, digest := "", stage := .zero
    before := .zero
    receipt := ⟨"", "", .unknownResult, "", "", "", false, [], none, none, none⟩
    attemptedAt := zeroTime, stoppedByJobId := "", backendRequest := none, backendReceipt := none
    backendSnapshot := none }

structure Journal where
  epoch : String
  policyHash : String
  attempts : Map String Attempt
  profiles : Map String RuntimeProfile

end Monik.SparkPolicy
