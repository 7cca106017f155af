import Monik.Runs
import Monik.SparkExecute
import Monik.SparkExisting
import Monik.SparkProjection

/-! The model broker: any calls of `Execute`, `ExecuteLocal`, `PreviousAction` and `Snapshot`, with
crashes and reopening. A call is a thread of sections; between a published attempt and the record of
its effect it holds the mutex. Log, snapshots and the count of observations are history. -/

namespace Monik.SparkBroker
open Protocol Tables Persistence SparkPolicy SparkCoordinator SparkExecute SparkExisting
open SparkProjection

inductive Frame
  | executeLocal (id : String) (p : Profile) (action : Action) (request : ActionRequest)
  | localStage (id : String)
  | previousAction (id : String) (request : ActionRequest)
  | stage (parent : ActionRequest)

inductive Thread
  | localCall (id profileId : String) (action : Action) (confirm : Bool)
  | previousCall (id profileId : String) (action : Action)
  | running (pc : Pc) (frames : List Frame)
  | answering (receipt : JobReceipt) (frames : List Frame)
  | finished

structure Observed where
  state : SparkModelState
  identity : String
  tick : Nat
  deriving DecidableEq

/-- A `Snapshot` under way: profiles left, the state that waits for its engine, and what is collected. -/
structure Probing where
  enabled : Bool
  session : String
  control : SparkControlState
  rest : List Profile
  engine : Option (Profile × Instance × Observed)
  states : List Observed

structure Answer where
  session : String
  control : SparkControlState
  states : List Observed
  deriving DecidableEq

structure Broker where
  running : Option Coordinator
  disk : Option Journal
  log : List Entry
  threads : List Thread
  probes : List Probing
  answers : List Answer
  tick : Nat

def Broker.start : Broker := ⟨none, none, [], [], [], [], 0⟩

def Journal.empty : Journal := ⟨"", "", Table.empty, Table.empty⟩

/-- `OpenCoordinator`, once the journal is read: the new epoch is used when the policy changed. -/
def openCoordinator (policy : Policy) (disk : Option Journal) (epoch : String) : Coordinator :=
  let journal := disk.getD Journal.empty
  { policy
    journal := if journal.epoch = "" ∨ journal.policyHash ≠ policy.hash then
        { journal with epoch, policyHash := policy.hash }
      else journal
    session := "", preflightToken := Table.empty, pendingStarts := Table.empty, serial := 0, seen := [] }

/-! The calls of `Execute` and `executeExisting`, section by section. -/

variable (k : Kernel) (c : Coordinator) (h : Hold) (id : String) (p : Profile)

def section_ (pc : Pc) (env : Env) : Hold × Next :=
  match pc with
  | .entering r => enter k h r env
  | .weighing r p before token serial => resume k h r p before token serial env
  | .armed p a links => invoke h p a links env
  | .invoked p a after => recordEffect h p a after env
  | .observing r p => observeStop h r p env
  | .settling r p after => settle h r p after env
  | .existing r p => enterExisting k h r p env
  | .existingObserving r p authority => admitExisting k h r p authority env
  | .existingSubmitting r p _ authority unknown => submitExisting h r p authority unknown env
  | .existingReading r p authority prior => readExisting h r p authority prior env
  | .existingFinishing r p authority backend => finishExisting k h r p authority backend env
  | .existingConcluding r p authority backend current => concludeExisting k h r p authority backend current env
  | .existingParent r => (h, .returned ((h.coordinator.attempt r.jobId).getD .zero).receipt)

def needsMutex (env : Env) : Pc → Bool
  | .existingSubmitting .. | .existingReading .. => false
  | .observing .. => env.timeout
  | _ => true

def Thread.holdsMutex : Thread → Bool
  | .running (.armed ..) _ | .running (.invoked ..) _ => true
  | _ => false

def Thread.next (frames : List Frame) : Next → Thread
  | .goto pc => .running pc frames
  | .returned receipt => .answering receipt frames
  | .callStage parent stage p => .running (.existing stage p) (.stage parent :: frames)

def pickStage (pick : Nat) (request : ActionRequest) : ActionRequest :=
  let stages := (c.journal.attempts.rows.filter fun e => e.2.request.parentJobId == id).map (·.2.request)
  (stages[pick % stages.length]?).getD request

def localRequest (id : String) : ActionRequest := { ActionRequest.zero with jobId := id, operationId := id }

def enterLocal (profileId : String) (action : Action) (confirm : Bool) (pick : Nat) (env : Env) :
    Hold × Thread :=
  let h := h.update fun c => { c with seen := [] }
  let refuse := fun code => Thread.answering (rejection (localRequest id) code) []
  match h.coordinator.policy.profile profileId with
  | none => (h, refuse "unknown_profile")
  | some p =>
    match h.coordinator.attempt id with
    | some prior =>
      if prior.request.isLocal = false ∨ prior.request.params.profileId ≠ profileId ∨
          prior.request.action ≠ action then
        (h, refuse "idempotency_conflict")
      else
        let request := if prior.stage = .startAttempted then
            pickStage h.coordinator id pick prior.request
          else prior.request
        (h, .running (.entering request) [.executeLocal id p action request])
    | none =>
      match env.inspect p.id with
      | none => (h, refuse "supervisor_identity_unavailable")
      | some i =>
        let observed := observeLocked h.coordinator p i env.now
        let request : ActionRequest :=
          { jobId := id, operationId := id, action
            params := { profileId := p.id, profileRevision := p.revision
                        expectedGeneration := observed.2.generation
                        controlEpoch := observed.1.journal.epoch
                        expectedAgentSession := "local:" ++ observed.1.journal.epoch
                        confirmDisruption := confirm }
            issuedAt := env.now, deadline := env.now + 30 * second, parentJobId := "", isLocal := true }
        ({ h with coordinator := observed.1 },
          .running (.entering request) [.executeLocal id p action request])

def continueLocal (action : Action) (request : ActionRequest) (receipt : JobReceipt) (env : Env) :
    Hold × Thread :=
  let h := h.update fun c => { c with seen := [] }
  if request.parentJobId ≠ "" then
    (h, .answering ((h.coordinator.attempt id).getD .zero).receipt [])
  else if action ≠ .modelRestart ∨ receipt.stage ≠ "restart_stopped" then (h, .answering receipt [])
  else
    let refused := Thread.answering (rejection request "restart_stopped_stage_identity_unavailable") []
    match env.inspect p.id with
    | none => (h, refused)
    | some i =>
      if shutdownComplete p i = false then (h, refused)
      else
        let observed := observeLocked h.coordinator p i env.now
        let stage : ActionRequest :=
          { jobId := k.localStageId id, operationId := id, action := .modelStart
            params := { request.params with expectedGeneration := observed.2.generation }
            issuedAt := env.now, deadline := env.now + 30 * second, parentJobId := id, isLocal := true }
        ({ h with coordinator := observed.1 }, .running (.entering stage) [.localStage id])

def enterPrevious (profileId : String) (action : Action) (pick : Nat) : Thread :=
  let c := h.coordinator
  match c.attempt id with
  | none => .finished
  | some a =>
    if (c.policy.profile profileId).all (fun p => a.request.params.profileRevision != p.revision) ∨
        c.policy.enabled = false ∨ c.session = "" ∨ a.request.params.profileId ≠ profileId ∨
        a.request.action ≠ action ∨ a.request.params.controlEpoch ≠ c.journal.epoch then .finished
    else
      let request := if a.stage = .startAttempted then pickStage c id pick a.request else a.request
      .running (.entering request) [.previousAction id request]

def answer (receipt : JobReceipt) (frames : List Frame) (env : Env) : Hold × Thread :=
  let stored := fun id => ((h.coordinator.attempt id).getD .zero).receipt
  match frames with
  | [] => ({ h with log := .returned receipt :: h.log }, .finished)
  | .stage parent :: rest => (h, .running (.existingParent parent) rest)
  | .executeLocal id p action request :: _ => continueLocal k h id p action request receipt env
  | .localStage id :: rest =>
    (h, .answering (if receipt.status = .succeeded then stored id else receipt) rest)
  | .previousAction id request :: rest =>
    (h, .answering (if request.parentJobId ≠ "" then stored id else receipt) rest)

def Thread.go (t : Thread) (pick : Nat) (env : Env) : Hold × Thread :=
  match t with
  | .localCall id profileId action confirm => enterLocal h id profileId action confirm pick env
  | .previousCall id profileId action => (h, enterPrevious h id profileId action pick)
  | .running pc frames =>
    let out := section_ k h pc env
    (out.1, .next frames out.2)
  | .answering receipt frames => answer k h receipt frames env
  | .finished => (h, .finished)

def Thread.waitsForMutex (env : Env) : Thread → Bool
  | .running pc _ => needsMutex env pc
  | .finished => false
  | _ => true

/-! `Snapshot`, section by section. -/

structure Probe where
  now : Time
  inspect : Option Instance
  readiness : Readiness
  reason : String

def supervisorState : InstanceState → SupervisorState
  | .running => .running
  | .starting => .starting
  | .stopping => .stopping
  | .stopped => .stopped
  | .failed => .failed
  | .unknown => .unknown

def beginSnapshot (now : Time) : Probing :=
  let enabled := c.policy.enabled && c.session != ""
  { enabled, session := c.session
    control := if enabled then ⟨true, some c.journal.epoch, now, ""⟩ else ⟨false, none, now, "local_control_disabled"⟩
    rest := c.policy.profiles, engine := none, states := [] }

def startPreflightPending (generation : Int) (now : Time) : Bool :=
  (c.pendingStarts.get p.id).any fun pending =>
    let request := pending.request
    ((c.attempt request.jobId).any fun a => a.stage == .preflightPending) && request.action == .modelStart &&
      request.parentJobId == "" && request.params.expectedGeneration == generation &&
      request.params.profileRevision == p.revision && request.params.controlEpoch == c.journal.epoch &&
      request.params.expectedAgentSession == c.sessionOf request && pending.token == c.token p.id &&
      decide (now < request.deadline)

def stateReason (enabled : Bool) (p : Profile) (i : Instance) (generation : Int) (now : Time) :
    String :=
  if enabled ∧ i.state = .stopped ∧ startPreflightPending c p generation now then
    "start_preflight_pending"
  else if i.state = .failed ∧ shutdownComplete p i then "failed_service_shutdown_verified"
  else if (i.state = .failed ∨ i.state = .stopped) ∧ shutdownComplete p i = false then
    "service_shutdown_unverified"
  else ""

def observationTime (i : Instance) (now : Time) : Time :=
  match p.kind, i.backend with
  | .existingCoordinator, some backend => backend.observedAtMs * 1000000
  | _, _ => now

def observeProfile (enabled : Bool) (p : Profile) (tick : Nat) (env : Probe) :
    Coordinator × Observed :=
  match env.inspect with
  | none =>
    let generation := if p.kind = .configuredCatalog then 0 else (c.runtime p.id).generation
    (c, ⟨⟨p.id, generation, env.now, .unknown, .unknown, .error, "supervisor_unavailable"⟩, "", tick⟩)
  | some i =>
    let at_ := observationTime p i env.now
    if p.kind = .configuredCatalog then
      (c, ⟨⟨p.id, 0, at_, .unknown, .unknown, .unknown, "configured_catalog_runtime_unobserved"⟩, i.identity, tick⟩)
    else
      let observed := observeLocked c p i env.now
      let generation := observed.2.generation
      (observed.1, ⟨⟨p.id, generation, at_, supervisorState i.state,
        if shutdownComplete p i then .notApplicable else .unknown, .ok,
        stateReason observed.1 enabled p i generation env.now⟩, i.identity, tick⟩)

def asksEngine (env : Probe) : Option Instance :=
  env.inspect.filter fun i => p.kind != .configuredCatalog && (i.state == .running || i.state == .starting)

def withReadiness (i : Instance) (o : Observed) (env : Probe) : Observed :=
  match p.kind, i.backend with
  | .existingCoordinator, some backend =>
    { o with state.readiness := if backend.result.apiReady ∧ i.state = .running then .ready else .unready }
  | _, _ => { o with state.readiness := env.readiness, state.reason := env.reason }

def releaseReady (o : Observed) : Coordinator :=
  if o.state.readiness = .ready then c.putRuntime p.id { c.runtime p.id with reserved := false } else c

/-! Runs. -/

inductive Event
  | execute (r : ActionRequest)
  | executeLocal (id profileId : String) (action : Action) (confirm : Bool)
  | previousAction (id profileId : String) (action : Action)
  | bind (session : String)
  | go (i pick : Nat) (env : Env)
  | snapshot (now : Time)
  | observe (i : Nat) (env : Probe)
  | ready (i : Nat) (env : Probe)
  | publish (i : Nat) (w : WriteOutcome)
  | crash
  | openCoordinator (policy : Policy) (epoch : String) (w : WriteOutcome)

def Broker.blocked (b : Broker) (i : Nat) : Bool := (b.threads.eraseIdx i).any Thread.holdsMutex

def Broker.hold (b : Broker) (c : Coordinator) : Hold := ⟨c, b.disk, b.log⟩

def Broker.release (b : Broker) (h : Hold) : Broker :=
  { b with running := some h.coordinator, disk := h.disk, log := h.log }

def Broker.call (b : Broker) (t : Thread) : Broker := { b with threads := b.threads ++ [t] }

def Broker.go (k : Kernel) (b : Broker) (c : Coordinator) (i pick : Nat) (env : Env) : Broker :=
  match b.threads[i]? with
  | none => b
  | some t =>
    if t.waitsForMutex env ∧ b.blocked i then b
    else
      let out := t.go k (b.hold c) pick env
      { b.release out.1 with threads := b.threads.set i out.2 }

def Broker.observe (b : Broker) (c : Coordinator) (i : Nat) (env : Probe) : Broker :=
  match b.probes[i]? with
  | some { enabled, session, control, rest := p :: rest, engine := none, states } =>
    let out := observeProfile c enabled p b.tick env
    let probe : Probing := match asksEngine p env with
      | some i => { enabled, session, control, rest, engine := some (p, i, out.2), states }
      | none => { enabled, session, control, rest, engine := none, states := states ++ [out.2] }
    { b with running := some out.1, probes := b.probes.set i probe, tick := b.tick + 1 }
  | _ => b

def Broker.ready (b : Broker) (c : Coordinator) (i : Nat) (env : Probe) : Broker :=
  match b.probes[i]? with
  | some { enabled, session, control, rest, engine := some (p, instance_, o), states } =>
    let o := withReadiness p instance_ o env
    { b with
      running := some (releaseReady c p o)
      probes := b.probes.set i { enabled, session, control, rest, engine := none, states := states ++ [o] } }
  | _ => b

def Broker.publish (b : Broker) (c : Coordinator) (i : Nat) (w : WriteOutcome) : Broker :=
  match b.probes[i]? with
  | some { enabled := _, session, control, rest := [], engine := none, states } =>
    let saved := saveLocked (b.hold c) w
    let b := { b.release saved.1 with probes := b.probes.eraseIdx i }
    if saved.2 then { b with answers := ⟨session, control, states⟩ :: b.answers } else b
  | _ => b

def Broker.serve (b : Broker) (c : Coordinator) : Event → Broker
  | .execute r => b.call (.running (.entering r) [])
  | .executeLocal id profileId action confirm =>
    if sparkValidId id ∧ sparkValidId profileId ∧ action.isModel then
      b.call (.localCall id profileId action confirm)
    else b
  | .previousAction id profileId action =>
    if sparkValidId id ∧ sparkValidId profileId ∧ action.isModel then
      b.call (.previousCall id profileId action)
    else b
  | .bind session =>
    if b.threads.any Thread.holdsMutex ∨ sparkValidId session = false then b
    else { b with running := some { c with session } }
  | .go i pick env => b.go k c i pick env
  | .snapshot now =>
    if b.threads.any Thread.holdsMutex then b else { b with probes := b.probes ++ [beginSnapshot c now] }
  | .observe i env => if b.threads.any Thread.holdsMutex then b else b.observe c i env
  | .ready i env => if b.threads.any Thread.holdsMutex then b else b.ready c i env
  | .publish i w => if b.threads.any Thread.holdsMutex then b else b.publish c i w
  | .crash => { b with running := none, threads := [], probes := [] }
  | .openCoordinator .. => b

def step (b : Broker) (e : Event) : Broker :=
  match b.running with
  | some c => b.serve k c e
  | none =>
    match e with
    | .openCoordinator policy epoch w =>
      let c := openCoordinator policy b.disk epoch
      let saved := saveLocked (b.hold c) w
      if saved.2 then b.release saved.1 else { b with disk := saved.1.disk }
    | _ => b

end Monik.SparkBroker
