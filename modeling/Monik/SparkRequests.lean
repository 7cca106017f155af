import Monik.SparkSections

/-! Whatever the broker records, compares or starts an effect for is a request it was given or made
for a local call, or the zero request of an absent record. -/

namespace Monik.SparkRequests
open Runs Protocol Tables Persistence SparkPolicy SparkCoordinator SparkExecute SparkExisting SparkBroker SparkSections

variable {Granted : ActionRequest → Prop}

variable {id : String} {r : ActionRequest} {pc : Pc} {t : Thread} {c : Coordinator} {h : Hold}

/-! What follows a section. -/

def Follows (c : Coordinator) (r : ActionRequest) : Next → Prop
  | .goto pc => requestOf pc = r
  | .returned _ => True
  | .callStage parent stage _ => parent = r ∧ ∃ id a, c.attempt id = some a ∧ a.request = stage ∧ stage.parentJobId = r.jobId

theorem follows_ite {c : Coordinator} {q : Prop} [Decidable q] {a b : Hold × Next}
    (yes : Follows c r a.2) (no : Follows c r b.2) : Follows c r (if q then a else b).2 := by
  split
  · exact yes
  · exact no

theorem follows_finalAdmission (k : Kernel) (h : Hold) (r : ActionRequest) (p : Profile) (i : Instance) (env : Env)
    (c : Coordinator) : Follows c r (finalAdmission k h r p i env).2 := by
  unfold finalAdmission
  dsimp only
  split_ifs <;> first | exact trivial | rfl

theorem follows_recordPendingStart (k : Kernel) (h : Hold) (r : ActionRequest) (p : Profile) (i : Instance)
    (env : Env) (c : Coordinator) : Follows c r (recordPendingStart k h r p i env).2 := by
  unfold recordPendingStart
  dsimp only
  split_ifs <;> first | exact trivial | rfl

theorem follows_enter (k : Kernel) (h : Hold) (r : ActionRequest) (env : Env) (c : Coordinator) :
    Follows c r (enter k h r env).2 ∧
      ((∀ receipt, (enter k h r env).2 ≠ .returned receipt) → sparkValidId r.jobId) := by
  unfold enter
  split
  · exact ⟨trivial, fun goes => absurd rfl (goes _)⟩
  rename_i valid
  simp only [not_or, Bool.not_eq_false] at valid
  refine ⟨?_, fun _ => valid.1⟩
  dsimp only
  split
  · exact trivial
  split
  · rfl
  split
  · exact trivial
  split
  · exact trivial
  generalize (if r.action = .modelStop then _ else _ : Hold) = h'
  split_ifs
  · exact trivial
  · exact trivial
  · exact follows_recordPendingStart k h' r _ _ env c
  · rfl
  · exact follows_finalAdmission k h' r _ _ env c

theorem follows_resume (k : Kernel) (h : Hold) (r : ActionRequest) (p : Profile) (before : Instance) (token : Nat)
    (serial : Option Nat) (env : Env) (c : Coordinator) : Follows c r (resume k h r p before token serial env).2 := by
  unfold resume
  dsimp only
  split
  · rfl
  split
  · split <;> exact trivial
  split
  · exact trivial
  split
  · exact trivial
  split
  · exact trivial
  split
  · exact trivial
  · exact follows_finalAdmission k _ r p _ env c

theorem follows_enterExisting (k : Kernel) (h : Hold) (r : ActionRequest) (p : Profile) (env : Env) :
    Follows h.coordinator r (enterExisting k h r p env).2 := by
  unfold enterExisting
  dsimp only
  split
  · exact trivial
  split
  · exact trivial
  split
  · rfl
  split
  · exact trivial
  split
  · exact trivial
  split
  · exact trivial
  split
  · split
    · rfl
    · rename_i stage only
      refine ⟨rfl, ?_⟩
      have mem : stage ∈ stagesOf h.coordinator r p := by rw [only]; exact List.mem_singleton.mpr rfl
      obtain ⟨e, row, rfl⟩ := List.mem_map.mp mem
      obtain ⟨row, matched⟩ := List.mem_filter.mp row
      simp only [Bool.and_eq_true, beq_iff_eq] at matched
      exact ⟨e.1, e.2, Map.get_eq_some.mpr row, rfl, matched.1.1⟩
    · exact trivial
  · rfl

theorem follows_section (k : Kernel) (h : Hold) (pc : Pc) (env : Env) :
    Follows h.coordinator (requestOf pc) (section_ k h pc env).2 := by
  cases pc with
  | entering r => exact (follows_enter k h r env _).1
  | weighing r p before token serial => exact follows_resume k h r p before token serial env _
  | armed p a links =>
    exact follows_ite (follows_ite trivial trivial) rfl
  | invoked p a after =>
    dsimp only [section_, recordEffect]
    split
    · exact trivial
    · split_ifs <;> first | exact trivial | rfl
  | observing r p =>
    dsimp only [section_, observeStop]
    split
    · exact follows_ite rfl (follows_ite trivial rfl)
    · exact follows_ite trivial rfl
  | settling r p after =>
    exact follows_ite trivial (follows_ite trivial trivial)
  | existing r p => exact follows_enterExisting k h r p env
  | existingObserving r p authority =>
    dsimp only [section_, admitExisting]
    split
    · exact trivial
    split
    · rfl
    split
    · exact trivial
    · split_ifs <;> first | exact trivial | rfl
  | existingSubmitting r p request authority unknown =>
    dsimp only [section_, submitExisting]
    split
    · exact trivial
    · split <;> first | exact trivial | rfl
  | existingReading r p authority prior =>
    dsimp only [section_, readExisting]
    split <;> first | exact trivial | rfl
  | existingFinishing r p authority backend =>
    dsimp only [section_, finishExisting]
    split
    · exact trivial
    · split <;> first | exact trivial | rfl
  | existingConcluding r p authority backend current =>
    exact follows_ite trivial (follows_ite trivial (follows_ite trivial (follows_ite trivial trivial)))
  | existingParent r => exact trivial

/-! Threads. -/

def FrameOk (Granted : ActionRequest → Prop) : Frame → Prop
  | .stage parent => Live Granted parent
  | _ => True

def ThreadOk (Granted : ActionRequest → Prop) : Thread → Prop
  | .running pc frames => PcOk Granted pc ∧ ∀ f ∈ frames, FrameOk Granted f
  | .answering _ frames => ∀ f ∈ frames, FrameOk Granted f
  | _ => True

theorem live_of_goes (k : Kernel) (h : Hold) (pcOk : PcOk Granted pc) (env : Env)
    (goes : ∀ receipt, (section_ k h pc env).2 ≠ .returned receipt) : Live Granted (requestOf pc) := by
  cases pc with
  | entering r => exact pcOk.live ((follows_enter k h r env h.coordinator).2 goes)
  | _ => exact pcOk

theorem Live.pcOk (live : Live Granted (requestOf pc)) : PcOk Granted pc := by
  cases pc with
  | entering r => exact .inr live.2
  | _ => exact live

theorem threadOk_next (k : Kernel) (filed : Filed Granted h.coordinator.journal.attempts) (pcOk : PcOk Granted pc)
    {frames : List Frame} (framesOk : ∀ f ∈ frames, FrameOk Granted f) (env : Env) :
    ThreadOk Granted (.next frames (section_ k h pc env).2) := by
  have follows := follows_section k h pc env
  have live := live_of_goes k h pcOk env
  cases next : (section_ k h pc env).2 with
  | returned receipt => exact framesOk
  | goto pc' =>
    rw [next] at follows live
    have same : requestOf pc' = requestOf pc := follows
    exact ⟨Live.pcOk (same.symm ▸ live fun receipt impossible => by cases impossible), framesOk⟩
  | callStage parent stage p =>
    rw [next] at follows live
    obtain ⟨rfl, id, a, found, rfl, linked⟩ := follows
    have parentLive := live fun receipt impossible => by cases impossible
    refine ⟨?_, fun f mem => ?_⟩
    · rcases filed id a found with zero | ⟨key, valid, given⟩
      · rw [zero] at linked
        exact absurd linked.symm parentLive.1
      · exact ⟨key.symm ▸ valid, given⟩
    · rcases List.mem_cons.mp mem with rfl | old
      · exact parentLive
      · exact framesOk f old

theorem startable_pickStage (filed : Filed Granted c.journal.attempts) (id : String) (pick : Nat)
    {request : ActionRequest} (startable : Startable Granted request) :
    Startable Granted (pickStage c id pick request) := by
  unfold pickStage
  dsimp only
  cases found : ((c.journal.attempts.rows.filter fun e => e.2.request.parentJobId == id).map (·.2.request))[pick %
      ((c.journal.attempts.rows.filter fun e => e.2.request.parentJobId == id).map (·.2.request)).length]? with
  | none => exact startable
  | some q =>
    obtain ⟨e, row, rfl⟩ := List.mem_map.mp (List.mem_of_getElem? found)
    exact (filed e.1 e.2 (Map.get_eq_some.mpr (List.mem_filter.mp row).1)).startable

theorem leaves_enterLocal (filed : Filed Granted h.coordinator.journal.attempts) (id profileId : String)
    (action : Action) (confirm : Bool) (pick : Nat) (env : Env) :
    Leaves Granted env.now h (enterLocal h id profileId action confirm pick env).1 ∧
      ThreadOk Granted (enterLocal h id profileId action confirm pick env).2 := by
  have cleared : Leaves Granted env.now h (h.update fun c => { c with seen := [] }) := (Leaves.refl filed).quiet rfl
  unfold enterLocal
  dsimp only
  generalize h.update (fun c => { c with seen := [] }) = u at cleared
  split
  · exact ⟨cleared, by simp [ThreadOk]⟩
  split
  · rename_i prior found
    have startable := (cleared.memory.filed _ _ found).startable
    split
    · exact ⟨cleared, by simp [ThreadOk]⟩
    · refine ⟨cleared, ?_, by simp [FrameOk]⟩
      split
      · exact startable_pickStage cleared.memory.filed id pick startable
      · exact startable
  split
  · exact ⟨cleared, by simp [ThreadOk]⟩
  · exact ⟨cleared.moved fun m => m.observed _ _ _, .inr (.inl rfl), by simp [FrameOk]⟩

theorem leaves_continueLocal (k : Kernel) (filed : Filed Granted h.coordinator.journal.attempts) (id : String)
    (p : Profile) (action : Action) (request : ActionRequest) (receipt : JobReceipt) (env : Env) :
    Leaves Granted env.now h (continueLocal k h id p action request receipt env).1 ∧
      ThreadOk Granted (continueLocal k h id p action request receipt env).2 := by
  have cleared : Leaves Granted env.now h (h.update fun c => { c with seen := [] }) := (Leaves.refl filed).quiet rfl
  unfold continueLocal
  generalize h.update (fun c => { c with seen := [] }) = u at cleared
  split
  · exact ⟨cleared, by simp [ThreadOk]⟩
  split
  · exact ⟨cleared, by simp [ThreadOk]⟩
  split
  · exact ⟨cleared, by simp [ThreadOk]⟩
  split
  · exact ⟨cleared, by simp [ThreadOk]⟩
  · exact ⟨cleared.moved fun m => m.observed _ _ _, .inr (.inl rfl), by simp [FrameOk]⟩

theorem threadOk_enterPrevious (filed : Filed Granted h.coordinator.journal.attempts) (id profileId : String)
    (action : Action) (pick : Nat) : ThreadOk Granted (enterPrevious h id profileId action pick) := by
  unfold enterPrevious
  dsimp only
  split
  · exact trivial
  rename_i a found
  have startable := (filed _ _ found).startable
  split
  · exact trivial
  · refine ⟨?_, by simp [FrameOk]⟩
    split
    · exact startable_pickStage filed id pick startable
    · exact startable

theorem leaves_go (k : Kernel) (filed : Filed Granted h.coordinator.journal.attempts) (threadOk : ThreadOk Granted t)
    (pick : Nat) (env : Env) :
    Leaves Granted env.now h (t.go k h pick env).1 ∧ ThreadOk Granted (t.go k h pick env).2 := by
  have same : Leaves Granted env.now h h := .refl filed
  cases t with
  | localCall id profileId action confirm => exact leaves_enterLocal filed id profileId action confirm pick env
  | previousCall id profileId action => exact ⟨same, threadOk_enterPrevious filed id profileId action pick⟩
  | running pc frames => exact ⟨leaves_section same k threadOk.1, threadOk_next k filed threadOk.1 threadOk.2 env⟩
  | answering receipt frames =>
    cases frames with
    | nil => exact ⟨same.entry (begun_of_quiet rfl), trivial⟩
    | cons frame rest =>
      have restOk : ∀ f ∈ rest, FrameOk Granted f := fun f mem => threadOk f (List.mem_cons_of_mem _ mem)
      cases frame with
      | executeLocal id p action request => exact leaves_continueLocal k filed id p action request receipt env
      | localStage id => exact ⟨same, restOk⟩
      | previousAction id request => exact ⟨same, restOk⟩
      | stage parent => exact ⟨same, threadOk _ List.mem_cons_self, restOk⟩
  | finished => exact ⟨same, trivial⟩

/-! The broker. -/

structure BrokerOk (Granted : ActionRequest → Prop) (b : Broker) : Prop where
  memory : ∀ c, b.running = some c → Filed Granted c.journal.attempts
  disk : ∀ j, b.disk = some j → Filed Granted j.attempts
  threads : ∀ t ∈ b.threads, ThreadOk Granted t

theorem brokerOk_start : BrokerOk Granted .start := by
  refine ⟨?_, ?_, ?_⟩
  · intro c found
    cases found
  · intro j found
    cases found
  · intro t mem
    cases mem

def EventBegins (Granted : ActionRequest → Prop) : Event → Entry → Prop
  | .go _ _ env, e => Begun Granted env.now e
  | _, _ => False

structure Served (Granted : ActionRequest → Prop) (b : Broker) (e : Event) (b' : Broker) : Prop where
  ok : BrokerOk Granted b'
  log : ∃ added, b'.log = added ++ b.log ∧ ∀ x ∈ added, EventBegins Granted e x

variable {b : Broker}

theorem served_quiet {e : Event} {b' : Broker} (ok : BrokerOk Granted b') (log : b'.log = b.log) :
    Served Granted b e b' :=
  ⟨ok, [], log, by simp⟩

theorem BrokerOk.disk_leaves (ok : BrokerOk Granted b) {h' : Hold} {now : Time}
    (leaves : Leaves Granted now (b.hold c) h') : ∀ j, h'.disk = some j → Filed Granted j.attempts := by
  intro j found
  rcases leaves.disk with same | ⟨c', saved, moved, -⟩
  · exact ok.disk j (same.symm.trans found)
  · rw [saved, Option.some.injEq] at found
    exact found ▸ moved.filed

theorem BrokerOk.call (ok : BrokerOk Granted b) (threadOk : ThreadOk Granted t) : BrokerOk Granted (b.call t) := by
  refine ⟨ok.memory, ok.disk, fun t' mem => ?_⟩
  rcases List.mem_append.mp mem with old | new
  · exact ok.threads t' old
  · rw [List.mem_singleton.mp new]
    exact threadOk

theorem BrokerOk.running (ok : BrokerOk Granted b) (alive : b.running = some c) {c' : Coordinator}
    (same : c'.journal.attempts = c.journal.attempts) (probes : List Probing) (tick : Nat) :
    BrokerOk Granted { b with running := some c', probes, tick } := by
  refine ⟨fun d found => ?_, ok.disk, ok.threads⟩
  cases found
  rw [same]
  exact ok.memory c alive

theorem served_go (k : Kernel) (ok : BrokerOk Granted b) (alive : b.running = some c) (i pick : Nat) (env : Env) :
    Served Granted b (.go i pick env) (b.go k c i pick env) := by
  unfold Broker.go
  split
  · exact served_quiet ok rfl
  rename_i t found
  split
  · exact served_quiet ok rfl
  obtain ⟨leaves, thread⟩ :=
    leaves_go k (h := b.hold c) (ok.memory c alive) (ok.threads t (List.mem_of_getElem? found)) pick env
  refine ⟨⟨fun d same => ?_, ok.disk_leaves leaves, fun t' mem => ?_⟩, leaves.log⟩
  · cases same
    exact leaves.memory.filed
  · rcases List.mem_or_eq_of_mem_set mem with old | rfl
    · exact ok.threads t' old
    · exact thread

theorem attempts_observeProfile (c : Coordinator) (enabled : Bool) (p : Profile) (tick : Nat) (env : Probe) :
    (observeProfile c enabled p tick env).1.journal.attempts = c.journal.attempts := by
  unfold observeProfile
  split
  · rfl
  · split <;> rfl

theorem attempts_releaseReady (c : Coordinator) (p : Profile) (o : Observed) :
    (releaseReady c p o).journal.attempts = c.journal.attempts := by
  unfold releaseReady
  split <;> rfl

theorem served_publish (ok : BrokerOk Granted b) (alive : b.running = some c) (i : Nat) (w : WriteOutcome) (e : Event) :
    Served Granted b e (b.publish c i w) := by
  have saved : Leaves Granted 0 (b.hold c) (saveLocked (b.hold c) w).1 := .saved (.refl (ok.memory c alive))
  have published : BrokerOk Granted { b.release (saveLocked (b.hold c) w).1 with probes := b.probes.eraseIdx i } := by
    refine ⟨fun d found => ?_, ok.disk_leaves saved, ok.threads⟩
    cases found
    exact saved.memory.filed
  unfold Broker.publish
  split
  · dsimp only
    split
    · exact served_quiet ⟨published.memory, published.disk, published.threads⟩ rfl
    · exact served_quiet published rfl
  · exact served_quiet ok rfl

theorem served_observe (ok : BrokerOk Granted b) (alive : b.running = some c) (i : Nat) (env : Probe) (e : Event) :
    Served Granted b e (b.observe c i env) := by
  unfold Broker.observe
  split
  · exact served_quiet (ok.running alive (attempts_observeProfile c _ _ _ env) _ _) rfl
  · exact served_quiet ok rfl

theorem served_ready (ok : BrokerOk Granted b) (alive : b.running = some c) (i : Nat) (env : Probe) (e : Event) :
    Served Granted b e (b.ready c i env) := by
  unfold Broker.ready
  split
  · exact served_quiet (ok.running alive (attempts_releaseReady c _ _) _ b.tick) rfl
  · exact served_quiet ok rfl

theorem served_serve (k : Kernel) (ok : BrokerOk Granted b) (alive : b.running = some c) (e : Event)
    (given : ∀ r, e = .execute r → Granted r) : Served Granted b e (b.serve k c e) := by
  have same : Served Granted b e b := served_quiet ok rfl
  cases e with
  | execute r =>
    have threadOk : ThreadOk Granted (.running (.entering r) []) := ⟨.inr (.inr (given r rfl)), by simp⟩
    exact served_quiet (ok.call threadOk) rfl
  | executeLocal id profileId action confirm =>
    dsimp only [Broker.serve]
    split
    · exact served_quiet (ok.call trivial) rfl
    · exact same
  | previousAction id profileId action =>
    dsimp only [Broker.serve]
    split
    · exact served_quiet (ok.call trivial) rfl
    · exact same
  | bind session =>
    dsimp only [Broker.serve]
    split
    · exact same
    · have bound : ({ c with session } : Coordinator).journal.attempts = c.journal.attempts := rfl
      exact served_quiet (ok.running alive bound b.probes b.tick) rfl
  | go i pick env => exact served_go k ok alive i pick env
  | snapshot now =>
    dsimp only [Broker.serve]
    split
    · exact same
    · exact served_quiet ⟨ok.memory, ok.disk, ok.threads⟩ rfl
  | observe i env =>
    dsimp only [Broker.serve]
    split
    · exact same
    · exact served_observe ok alive i env _
  | ready i env =>
    dsimp only [Broker.serve]
    split
    · exact same
    · exact served_ready ok alive i env _
  | publish i w =>
    dsimp only [Broker.serve]
    split
    · exact same
    · exact served_publish ok alive i w _
  | crash =>
    refine served_quiet ⟨?_, ok.disk, ?_⟩ rfl
    · intro d found
      cases found
    · intro t mem
      cases mem
  | openCoordinator policy epoch w => exact same

theorem filed_openCoordinator (policy : Policy) {disk : Option Journal}
    (filed : ∀ j, disk = some j → Filed Granted j.attempts) (epoch : String) :
    Filed Granted (openCoordinator policy disk epoch).journal.attempts := by
  have journal : Filed Granted (disk.getD Journal.empty).attempts := by
    cases disk with
    | none => exact filed_empty
    | some j => exact filed j rfl
  unfold openCoordinator
  dsimp only
  split <;> exact journal

theorem served_step (k : Kernel) (ok : BrokerOk Granted b) (e : Event) (given : ∀ r, e = .execute r → Granted r) :
    Served Granted b e (step k b e) := by
  unfold step
  split
  · rename_i c alive
    exact served_serve k ok alive e given
  split
  · rename_i policy epoch w
    have saved : Leaves Granted 0 (b.hold (openCoordinator policy b.disk epoch))
        (saveLocked (b.hold (openCoordinator policy b.disk epoch)) w).1 :=
      .saved (.refl (filed_openCoordinator policy ok.disk epoch))
    dsimp only
    split
    · refine served_quiet ⟨fun d found => ?_, ok.disk_leaves saved, ok.threads⟩ rfl
      cases found
      exact saved.memory.filed
    · exact served_quiet ⟨ok.memory, ok.disk_leaves saved, ok.threads⟩ rfl
  · exact served_quiet ok rfl

end Monik.SparkRequests
