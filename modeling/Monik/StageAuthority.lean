import Monik.EncodedText
import Monik.ReservationSafety
import Monik.SparkReceipts

/-! The start stage of a model restart over whole runs: issued in `spark_intents` at most once and
read back from there. Sessions, users and the clock, which only advances, are part of the state. -/

namespace Monik.StageAuthority
open Protocol Tables ControllerStore Operations JobEvolution JobPermanence SubmissionSteps
open SparkReservation Runs
open ReservationSafety

variable {i : IntentRow} {op session user : String} {j : JobRow} {status : JobStatus} {v : StageAuthorization}

structure SessionRow where
  id : String
  userId : String
  expiresAt : Time
  recentAuthUntil : Option Time

structure UserRow where
  id : String
  owner : Bool

structure OwnerRow where
  operationId : String
  ownerSessionId : String
  ownerUserId : String

structure Controller where
  store : Store
  owners : Table OwnerRow OwnerRow.operationId
  sessions : Table SessionRow SessionRow.id
  users : Table UserRow UserRow.id
  drawn : List String
  clock : Time

/-- A request of `handleSparkStage`, with what is read from tables that are not modelled. -/
structure StageRequest where
  agent : String
  operation : String
  job : String
  view : SparkView
  failedProven : Bool

def authorized (s : Controller) (session user : String) : Bool :=
  (s.sessions.find? fun b => b.id == session).any fun b =>
    decide (s.clock < b.expiresAt) && b.userId == user &&
      (s.users.find? fun u => u.id == b.userId).any UserRow.owner

def recentlyAuthenticated (s : Controller) (session : String) : Bool :=
  (s.sessions.find? fun b => b.id == session).any fun b =>
    b.recentAuthUntil.any fun recent => decide (s.clock < recent)

def ownerRefusal (s : Controller) (op : String) : Option String :=
  match s.owners.find? fun w => w.operationId == op with
  | none => some "owner_authority_lost"
  | some w =>
    if !authorized s w.ownerSessionId w.ownerUserId ||
        (s.sessions.find? fun b => b.id == w.ownerSessionId).any fun b => b.recentAuthUntil.isNone then
      some "owner_authority_lost"
    else if !recentlyAuthenticated s w.ownerSessionId then some "reauth_required"
    else none

def stageCall (s : Controller) (r : StageRequest) : StageCall where
  agent := r.agent
  operation := r.operation
  job := r.job
  owner := ownerRefusal s r.operation
  view := { r.view with now := s.clock }
  shutdownProven := SparkReceipts.sparkShutdownProven
  failedProven := r.failedProven

def returned (json : StageJson) (s : Controller) (r : StageRequest) : Option StageAuthorization :=
  (authorizeSparkStartStage json s.store (stageCall s r)).toOption.map Prod.snd

inductive Event
  | spark (sub : SparkSubmission) (session user : String)
  | authorize (r : StageRequest)
  | report (rep : AgentReport) (call : Ingestion.Call)
  /-- Every other transaction: receipts, cancellation, expiry, claims, changed credentials. -/
  | control (e : DispatchSafety.Event)
  | login (id user : String) (ttl recent : Nat)
  | endSessions (which : SessionRow → Bool)
  | reauthenticate (id : String) (recent : Nat)
  | addUser (user : UserRow)
  | tick (elapsed : Nat)

def submitFrom (c : Ingestion.Codec) (json : StageJson) (s : Controller) (sub : SparkSubmission)
    (session user : String) : Controller :=
  let store := ReservationSafety.step c json s.store
    (.spark { sub with sessionValid := authorized s session user })
  let recorded (t : Store) : Bool := t.intents.rows.any fun i => i.operationId == sub.req.id
  if recorded store && !recorded s.store then
    { s with store, owners := (s.owners.insert ⟨sub.req.id, session, user⟩).getD s.owners }
  else { s with store }

def login (s : Controller) (id user : String) (ttl recent : Nat) : Controller :=
  if s.drawn.contains id || !(s.users.rows.any fun u => u.id == user) then s
  else
    { s with
      drawn := id :: s.drawn
      sessions := s.sessions.upsert ⟨id, user, s.clock + ttl, some (s.clock + recent)⟩ }

def step (c : Ingestion.Codec) (json : StageJson) (s : Controller) : Event → Controller
  | .spark sub session user => submitFrom c json s sub session user
  | .authorize r => { s with store := ReservationSafety.step c json s.store (.authorize (stageCall s r)) }
  | .report rep call => { s with store := ReservationSafety.step c json s.store (.report rep call) }
  | .control e => { s with store := ReservationSafety.step c json s.store (.control e) }
  | .login id user ttl recent => login s id user ttl recent
  | .endSessions which => { s with sessions := s.sessions.delete which }
  | .reauthenticate id recent =>
    { s with
      sessions := s.sessions.update (fun b => b.id == id && decide (s.clock < b.expiresAt))
        (fun b => { b with recentAuthUntil := some (s.clock + recent) }) fun _ => rfl }
  | .addUser user =>
    match s.users.insert user with
    | none => s
    | some users => { s with users }
  | .tick elapsed => { s with clock := s.clock + elapsed }

def initial (clock : Time) : Controller := ⟨Store.empty, .empty, .empty, .empty, [], clock⟩

variable {c : Ingestion.Codec} {json : StageJson} {s s' u : Store}

/-! What the tables of the store keep over a step. -/

theorem spark_intents (sub : SparkSubmission) (hi : i ∈ s.intents) : i ∈ (submitSpark json s sub).intents := by
  unfold submitSpark
  split
  · rename_i agent targets
    split
    · exact hi
    split
    · exact hi
    unfold Submission.processSparkSubmit
    rw [targets]
    dsimp only
    split
    · exact hi
    refine commit_invariant (fun u : Store => i ∈ u.intents) hi fun u hu => ?_
    obtain ⟨v, inserted, ⟨none, -⟩ | ⟨m', -, added⟩⟩ := insertOperation_ok hu
    · cases none
    · obtain ⟨intents, new, closing⟩ := ReservationSafety.insertIntent_ok rfl added
      rw [ReservationSafety.supersede_intents closing]
      rw [inserted.intents] at new
      exact ((Table.insert_some new).2 i).mpr (.inl hi)
  · exact hi

theorem spark_later (sub : SparkSubmission) : Later s (submitSpark json s sub) := by
  unfold submitSpark
  split
  · split
    · exact .refl s
    split
    · exact .refl s
    · rename_i m _
      exact JobPermanence.step_later s (.submitModel sub.req m)
  · exact .refl s

theorem base_later (s : Store) (e : ReservationSafety.Event) : Later s (ReservationSafety.step c json s e) := by
  cases e with
  | spark sub => exact spark_later sub
  | authorize call =>
    simp only [ReservationSafety.step]
    split
    · rename_i ok
      obtain ⟨_, _, _, _, _, _, _, _, _, _, ⟨-, rfl, -⟩ | ⟨-, rfl, -⟩⟩ := authorizeSparkStartStage_ok ok
      · exact .refl _
      · exact .of_eq rfl rfl rfl
    · exact .refl s
  | report rep call =>
    simp only [ReservationSafety.step]
    split
    · rename_i ok
      exact acceptReport_later ok
    · exact .refl s
  | control e =>
    cases e with
    | submitModel req model => exact .refl s
    | world w => exact .of_eq rfl rfl rfl
    | submit req => exact JobPermanence.step_later s (.submit req)
    | claim agent limit expireNow tickNow now authority =>
      exact JobPermanence.step_later s (.claim agent limit expireNow tickNow now authority)
    | receipt agent r spark => exact JobPermanence.step_later s (.receipt agent r spark)
    | cancel op => exact JobPermanence.step_later s (.cancel op)
    | expire now => exact JobPermanence.step_later s (.expire now)
    | advance expireNow now => exact JobPermanence.step_later s (.advance expireNow now)
    | reopen => exact JobPermanence.step_later s .reopen

def issuedTo (i : IntentRow) : Prop := i.stageAuthorization ≠ ""

theorem control_intents (s : Store) (e : DispatchSafety.Event) :
    (ReservationSafety.step c json s (.control e)).intents = s.intents := by
  by_cases rewrites : ControllerRule.Rule.rewrites e
  · rw [ReservationSafety.step_control c json rewrites]
    exact (jobs_rule.step rewrites).intents
  · cases e with
    | submit req =>
      change (Submission.processSubmit s req).intents = s.intents
      obtain same | ⟨u, hu, kept⟩ := jobs_rule.processSubmit s req
      · rw [same]
      · rw [kept.intents]
        obtain ⟨v, inserted, ⟨-, rfl⟩ | ⟨m, none, -⟩⟩ := insertOperation_ok hu
        · exact inserted.intents
        · cases none
    | submitModel req model => rfl
    | world w => rfl
    | _ => exact absurd rfl rewrites

theorem issueStage_keeps {text : String} (hi : i ∈ s.intents) (issued : issuedTo i) :
    i ∈ (issueStage s op text).intents := by
  refine (Table.mem_update (f := fun i : IntentRow => { i with stageAuthorization := text }) fun _ => rfl).mpr
    ⟨i, hi, if_neg fun fresh => ?_⟩
  simp only [Bool.and_eq_true, beq_iff_eq] at fresh
  exact issued fresh.2

theorem base_intents (e : ReservationSafety.Event) (hi : i ∈ s.intents) (issued : issuedTo i) :
    i ∈ (ReservationSafety.step c json s e).intents := by
  cases e with
  | spark sub => exact spark_intents sub hi
  | authorize call =>
    simp only [ReservationSafety.step]
    split
    · rename_i ok
      obtain ⟨_, _, _, _, _, _, _, _, _, _, ⟨-, rfl, -⟩ | ⟨-, rfl, -⟩⟩ := authorizeSparkStartStage_ok ok
      · exact hi
      · exact issueStage_keeps hi issued
    · exact hi
  | report rep call =>
    simp only [ReservationSafety.step]
    split
    · rename_i ok
      obtain ⟨-, ⟨-, rfl, -⟩ | ⟨-, added⟩⟩ := Ingestion.acceptReport_ok ok
      · exact hi
      · rw [added.intents]
        exact hi
    · exact hi
  | control e =>
    rw [control_intents]
    exact hi

theorem step_store (c : Ingestion.Codec) (json : StageJson) (s : Controller) (e : Event) :
    (step c json s e).store = s.store ∨ ∃ e', (step c json s e).store = ReservationSafety.step c json s.store e' := by
  cases e with
  | spark sub session user =>
    refine .inr ⟨.spark { sub with sessionValid := authorized s session user }, ?_⟩
    simp only [step, submitFrom]
    split <;> rfl
  | authorize r => exact .inr ⟨.authorize (stageCall s r), rfl⟩
  | report rep call => exact .inr ⟨.report rep call, rfl⟩
  | control e => exact .inr ⟨.control e, rfl⟩
  | login id user ttl recent =>
    simp only [step, login]
    split <;> exact .inl rfl
  | endSessions which => exact .inl rfl
  | reauthenticate id recent => exact .inl rfl
  | addUser user =>
    simp only [step]
    split <;> exact .inl rfl
  | tick elapsed => exact .inl rfl

theorem run_exclusive (c : Ingestion.Codec) (json : StageJson) (clock : Time) (events : List Event) :
    Exclusive (run (step c json) (initial clock) events).store := by
  refine run_preserves (fun s : Controller => Exclusive s.store) (fun s e h => ?_) Exclusive.empty events
  obtain same | ⟨e', moved⟩ := step_store c json s e
  · rwa [same]
  · rw [moved]
    exact h.step c json e'

theorem run_later (c : Ingestion.Codec) (json : StageJson) (s : Controller) (events : List Event) :
    Later s.store (run (step c json) s events).store := by
  refine run_preserves (fun u : Controller => Later s.store u.store) (fun u e h => ?_) (.refl _) events
  obtain same | ⟨e', moved⟩ := step_store c json u e
  · rwa [same]
  · rw [moved]
    exact h.trans (base_later u.store e')

theorem run_intents {s : Controller} (hi : i ∈ s.store.intents) (issued : issuedTo i) (events : List Event) :
    i ∈ (run (step c json) s events).store.intents := by
  refine run_preserves (fun u : Controller => i ∈ u.store.intents) (fun u e h => ?_) hi events
  obtain same | ⟨e', moved⟩ := step_store c json u e
  · rwa [same]
  · rw [moved]
    exact base_intents e' h issued

theorem target_of_intent (h : Exclusive s) (hi : i ∈ s.intents) {t : TargetRow}
    (ht : t ∈ s.targets) (op : t.operationId = i.operationId) : t.key = (i.operationId, i.agentId) := by
  obtain ⟨k, hk, key, model⟩ := h.sound.job i hi
  obtain ⟨o, ho, id, action⟩ := h.sound.linked.action k hk
  have same : k.operationId = i.operationId := congrArg Prod.fst key
  obtain ⟨i', hi', named⟩ := h.sound.intent o ho (by rw [action]; exact model) t ht (by rw [id, same, op])
  have other : i'.operationId = i.operationId := (congrArg Prod.fst named).symm.trans op
  rw [named, s.intents.eq_of_key hi' hi other]

theorem job_of_intent (h : Exclusive s) (hi : i ∈ s.intents) (hj : j ∈ s.jobs) (op : j.operationId = i.operationId) :
    j.key = (i.operationId, i.agentId) := by
  obtain ⟨t, ht, paired, -⟩ := h.sound.linked.target j hj
  rw [← paired]
  exact target_of_intent h hi ht ((congrArg Prod.fst paired).trans op)

theorem active_answered (h : activeJobStage status) : status.terminal = false ∧ answered status := by
  cases status with
  | of target => cases target <;> simp_all [activeJobStage, activeStage, JobStatus.terminal,
      TargetStatus.terminal, answered]
  | _ => cases h

def Closed (s : Store) (op : String) : Prop :=
  (∃ o ∈ s.operations, o.id = op ∧ o.action = .modelRestart) ∧
    ((∃ t ∈ s.targets, t.operationId = op ∧ t.status.terminal) ∨
      ∃ j ∈ s.jobs, j.operationId = op ∧ j.status.terminal)

theorem Closed.job (h : Exclusive s) (closed : Closed s op) :
    ∃ j ∈ s.jobs, j.operationId = op ∧ j.status.terminal := by
  obtain ⟨⟨o, ho, id, restart⟩, ⟨t, ht, same, final⟩ | done⟩ := closed
  · obtain ⟨i, hi, key⟩ := h.sound.intent o ho (by rw [restart]; rfl) t ht (same.trans id.symm)
    obtain ⟨j, hj, jkey, model⟩ := h.sound.job i hi
    have paired : Paired s t j := ⟨ht, hj, key.trans jkey.symm⟩
    exact ⟨j, hj, (congrArg Prod.fst paired.2.2).symm.trans same,
      (h.sound.tame t j paired model).inStep.closed final⟩
  · exact done

variable {r : StageRequest}

theorem returned_ok {s : Controller} (h : returned json s r = some v) :
    ∃ u, authorizeSparkStartStage json s.store (stageCall s r) = .ok (u, v) := by
  unfold returned at h
  cases granted : authorizeSparkStartStage json s.store (stageCall s r) with
  | error e =>
    rw [granted] at h
    cases h
  | ok result =>
    rw [granted] at h
    cases h
    exact ⟨result.1, rfl⟩

theorem closed_refused (clock : Time) {before after : List Event}
    (closed : Closed (run (step c json) (initial clock) before).store r.operation) :
    returned json (run (step c json) (initial clock) (before ++ after)) r = none := by
  by_contra some
  obtain ⟨v, returned⟩ := Option.ne_none_iff_exists'.mp some
  obtain ⟨u, granted⟩ := returned_ok returned
  obtain ⟨i, hi, j, hj, op, agent, key, -, -, active, -⟩ := authorizeSparkStartStage_ok granted
  obtain ⟨k, hk, same, final⟩ := closed.job (run_exclusive c json clock before)
  have later := run_later c json (run (step c json) (initial clock) before) after
  rw [← run_append] at later
  obtain ⟨k', hk', moved⟩ := later.jobs k hk
  have exclusive := run_exclusive c json clock (before ++ after)
  have mine : k'.key = (i.operationId, i.agentId) :=
    job_of_intent exclusive hi hk' ((congrArg Prod.fst moved.key).trans (same.trans op.symm))
  have equal : k' = j := exclusive.sound.linked.same_job hk' hj (by rw [mine, key, op, agent])
  have done := (moved.closed final).1
  rw [equal, (active_answered active).1] at done
  cases done

structure StageCodec extends StageJson where
  roundTrip : ∀ v, unmarshal (marshal v) = some v
  nonempty : ∀ v, marshal v ≠ ""

deriving instance Encodable for SparkPolicy.ModelActionParams
deriving instance Encodable for StageAuthorization

instance : Inhabited StageCodec :=
  ⟨⟨⟨EncodedText.marshal, EncodedText.unmarshal⟩, EncodedText.unmarshal_marshal, EncodedText.marshal_ne_empty⟩⟩

structure OnRecord (json : StageJson) (s : Store) (op : String) (v : StageAuthorization) (i : IntentRow)
    (j : JobRow) : Prop where
  intent : i ∈ s.intents
  operation : i.operationId = op
  issued : issuedTo i
  decoded : json.unmarshal i.stageAuthorization = some v
  job : j ∈ s.jobs
  key : j.key = (i.operationId, i.agentId)
  answered : answered j.status

theorem authorize_onRecord (stages : StageCodec) {s : Controller} (h : returned stages.toStageJson s r = some v) :
    ∃ i j, OnRecord stages.toStageJson (step c stages.toStageJson s (.authorize r)).store r.operation v i j := by
  obtain ⟨u, granted⟩ := returned_ok h
  have stepped : (step c stages.toStageJson s (.authorize r)).store = u := by
    simp only [step, ReservationSafety.step, granted]
  rw [stepped]
  obtain ⟨i, hi, j, hj, op, agent, key, -, -, active, recorded⟩ := authorizeSparkStartStage_ok granted
  have answers := (active_answered active).2
  have named : j.key = (i.operationId, i.agentId) := by rw [key, op, agent]
  obtain ⟨issued, rfl, decoded, -⟩ | ⟨unissued, rfl, -⟩ := recorded
  · exact ⟨i, j, hi, op, issued, decoded, hj, named, answers⟩
  · refine ⟨{ i with stageAuthorization := stages.marshal v }, j, ?_, op, stages.nonempty v, stages.roundTrip v,
      hj, named, answers⟩
    refine (Table.mem_update
      (f := fun i : IntentRow => { i with stageAuthorization := stages.marshal v }) fun _ => rfl).mpr
      ⟨i, hi, if_pos ?_⟩
    simp [op, unissued]

theorem OnRecord.run {s : Controller} (h : OnRecord json s.store op v i j) (events : List Event) :
    ∃ j', OnRecord json (run (step c json) s events).store op v i j' := by
  obtain ⟨j', hj', moved⟩ := (run_later c json s events).jobs j h.job
  exact ⟨j', run_intents h.intent h.issued events, h.operation, h.issued, h.decoded, hj',
    moved.key.trans h.key, moved.answered h.answered⟩

theorem OnRecord.returned {s : Controller} {v' : StageAuthorization} (h : OnRecord json s.store r.operation v i j) (later : returned json s r = some v') :
    v' = v := by
  obtain ⟨u, granted⟩ := returned_ok later
  obtain ⟨i', hi', -, -, op, -, -, -, -, -, recorded⟩ := authorizeSparkStartStage_ok granted
  have same : i' = i := s.store.intents.eq_of_key hi' h.intent (op.trans h.operation.symm)
  subst same
  obtain ⟨-, -, decoded, -⟩ | ⟨unissued, -⟩ := recorded
  · exact Option.some.inj (decoded.symm.trans h.decoded)
  · exact absurd unissued h.issued

theorem answered_claimed (h : answered status) : status.unclaimed = false := by
  cases status with
  | of target => cases target <;> first | rfl | cases h
  | _ => cases h

theorem setTargets_none {p : TargetRow → Bool} {f : TargetRow → TargetRow} {keep : ∀ t, (f t).key = t.key}
    (none : ∀ t ∈ s.targets, p t = false) : s.setTargets p f keep = s := by
  have rows : (s.targets.rows.map fun t => if p t then f t else t) = s.targets.rows :=
    (List.map_congr_left fun t ht => if_neg (by simp [none t ht])).trans (List.map_id _)
  have same : s.targets.update p f keep = s.targets := Table.ext rows
  simp only [Store.setTargets, same]

theorem setJobStatus_none {p : JobRow → Bool} (none : ∀ j ∈ s.jobs, p j = false) : s.setJobStatus p status = s := by
  have rows : (s.jobs.rows.map fun j => if p j then { j with status := status } else j) = s.jobs.rows :=
    (List.map_congr_left fun j hj => if_neg (by simp [none j hj])).trans (List.map_id _)
  have same : s.jobs.update p (fun j => { j with status := status }) (fun _ => rfl) = s.jobs := Table.ext rows
  simp only [Store.setJobStatus, Store.setJobs, same]

theorem cancelPending_ok (h : cancelPending s op = .ok s') : ∃ u₁ u₂ u₃ u₄ : Store,
      (∃ f keep, u₁ = s.setTargets (restartTarget s op) f keep) ∧
      u₂ = u₁.setJobStatus (restartJob u₁ op) (.of .cancelledBeforeExec) ∧
      (∃ f keep, u₃ = u₂.setTargets (undispatched u₂ op) f keep) ∧
      u₄ = u₃.setJobStatus (fun j => j.operationId == op && j.status.unclaimed) (.of .cancelledBeforeExec) ∧
      refreshOperation (cancelRollouts u₄ op) op = .ok s' := by
  unfold cancelPending at h
  split at h
  · cases h
  · exact ⟨_, _, _, _, ⟨_, _, rfl⟩, rfl, ⟨_, _, rfl⟩, rfl, h⟩

theorem OnRecord.cancel (exclusive : Exclusive s) (h : OnRecord json s op v i j) (cancelled : cancelPending s op = .ok s') :
    s'.targets = s.targets ∧ s'.jobs = s.jobs := by
  have issued : ∀ agent, unissuedRestart s op agent = false := by
    intro agent
    simp only [unissuedRestart, bne_eq_false_iff_eq, Table.count, List.countP_eq_zero, Bool.and_eq_true, beq_iff_eq]
    rintro k hk ⟨⟨same, -⟩, fresh⟩
    rw [s.intents.eq_of_key hk h.intent (same.trans h.operation.symm)] at fresh
    exact h.issued fresh
  have jobs : ∀ k ∈ s.jobs, k.operationId = op → k = j := fun k hk same =>
    exclusive.sound.linked.same_job hk h.job
      ((job_of_intent exclusive h.intent hk (same.trans h.operation.symm)).trans h.key.symm)
  have claimed : j.status.unclaimed = false := answered_claimed h.answered
  have dispatched : ∀ t ∈ s.targets, undispatched s op t = false := by
    intro t ht
    by_cases mine : t.operationId = op
    · have key := target_of_intent exclusive h.intent ht (mine.trans h.operation.symm)
      have agent : j.agentId = t.agentId := by
        rw [show j.agentId = i.agentId from congrArg Prod.snd h.key]
        exact (congrArg Prod.snd key).symm
      have named : j.operationId = op := (congrArg Prod.fst h.key).trans h.operation
      have there : (s.jobs.count fun k => k.operationId == op && k.agentId == t.agentId && !k.status.unclaimed) ≠ 0 := by
        intro none
        have absent := List.countP_eq_zero.mp none j h.job
        simp [named, agent, claimed] at absent
      simp [undispatched, there]
    · simp [undispatched, mine]
  obtain ⟨u₁, u₂, u₃, u₄, ⟨f, keep, first⟩, second, ⟨g, keep', third⟩, fourth, refreshed⟩ := cancelPending_ok cancelled
  rw [setTargets_none fun t _ => by simp [restartTarget, issued]] at first
  subst first
  rw [setJobStatus_none fun k _ => by simp [restartJob, issued]] at second
  subst second
  rw [setTargets_none dispatched] at third
  subst third
  rw [setJobStatus_none fun k hk => ?_] at fourth
  · subst fourth
    obtain ⟨operations, rfl, -⟩ := refreshOperation_ok refreshed
    exact ⟨rfl, rfl⟩
  · by_cases mine : k.operationId = op
    · rw [jobs k hk mine, claimed, Bool.and_false]
    · simp [mine]

/-! The owner's session. -/

theorem authorized_iff {s : Controller} :
    authorized s session user ↔ ∃ b ∈ s.sessions, b.id = session ∧ s.clock < b.expiresAt ∧
      b.userId = user ∧ ∃ u ∈ s.users, u.id = b.userId ∧ u.owner := by
  simp only [authorized, Option.any_eq_true, Bool.and_eq_true, decide_eq_true_eq, beq_iff_eq]
  constructor
  · rintro ⟨b, found, ⟨unexpired, own⟩, u, known, owner⟩
    obtain ⟨hb, id⟩ := Table.find?_key.mp found
    obtain ⟨hu, uid⟩ := Table.find?_key.mp known
    exact ⟨b, hb, id, unexpired, own, u, hu, uid, owner⟩
  · rintro ⟨b, hb, id, unexpired, own, u, hu, uid, owner⟩
    exact ⟨b, Table.find?_key.mpr ⟨hb, id⟩, ⟨unexpired, own⟩, u, Table.find?_key.mpr ⟨hu, uid⟩, owner⟩

structure Known (s : Controller) : Prop where
  drawn : ∀ b ∈ s.sessions, b.id ∈ s.drawn
  user : ∀ b ∈ s.sessions, ∃ u ∈ s.users, u.id = b.userId
  owner : ∀ w ∈ s.owners, w.ownerSessionId ∈ s.drawn

theorem Known.initial (clock : Time) : Known (initial clock) :=
  ⟨fun b h => absurd h (Table.not_mem_empty b), fun b h => absurd h (Table.not_mem_empty b),
    fun w h => absurd h (Table.not_mem_empty w)⟩

theorem submitFrom_cases (c : Ingestion.Codec) (json : StageJson) (s : Controller) (sub : SparkSubmission)
    (session user : String) : (submitFrom c json s sub session user).sessions = s.sessions ∧
      (submitFrom c json s sub session user).users = s.users ∧ (submitFrom c json s sub session user).drawn = s.drawn ∧
      (submitFrom c json s sub session user).clock = s.clock ∧
      ((submitFrom c json s sub session user).owners = s.owners ∨ authorized s session user ∧
          s.owners.insert ⟨sub.req.id, session, user⟩ = some (submitFrom c json s sub session user).owners) := by
  unfold submitFrom
  dsimp only
  split
  · rename_i new
    refine ⟨rfl, rfl, rfl, rfl, ?_⟩
    cases inserted : s.owners.insert ⟨sub.req.id, session, user⟩ with
    | none => exact .inl rfl
    | some owners =>
      refine .inr ⟨?_, rfl⟩
      by_contra unauthorized
      have invalid : authorized s session user = false := by simpa using unauthorized
      have unchanged : ReservationSafety.step c json s.store
          (.spark { sub with sessionValid := authorized s session user }) = s.store := by
        simp only [ReservationSafety.step, submitSpark, modelIntent, invalid, Bool.not_false, if_true]
        split
        · split <;> rfl
        · rfl
      rw [unchanged] at new
      simp at new
  · exact ⟨rfl, rfl, rfl, rfl, .inl rfl⟩

theorem mem_owners_step {s : Controller} (e : Event) {w : OwnerRow} (hw : w ∈ s.owners) :
    w ∈ (step c json s e).owners := by
  cases e with
  | spark sub session user =>
    obtain ⟨-, -, -, -, same | ⟨-, inserted⟩⟩ := submitFrom_cases c json s sub session user
    · simp only [step, same]
      exact hw
    · exact ((Table.insert_some inserted).2 w).mpr (.inl hw)
  | login id user ttl recent =>
    simp only [step, login]
    split <;> exact hw
  | addUser user =>
    simp only [step]
    split <;> exact hw
  | _ => exact hw

theorem mem_reauthenticate {s : Controller} {id : String} {recent : Nat} {b : SessionRow}
    (hb : b ∈ (step c json s (.reauthenticate id recent)).sessions) :
    ∃ b₀ ∈ s.sessions, b.id = b₀.id ∧ b.userId = b₀.userId ∧ b.expiresAt = b₀.expiresAt := by
  obtain ⟨b₀, hb₀, rfl⟩ := (Table.mem_update
    (f := fun b : SessionRow => { b with recentAuthUntil := some (s.clock + recent) }) fun _ => rfl).mp hb
  refine ⟨b₀, hb₀, ?_⟩
  split <;> exact ⟨rfl, rfl, rfl⟩

theorem Known.step {s : Controller} (h : Known s) (e : Event) : Known (step c json s e) := by
  cases e with
  | spark sub session user =>
    obtain ⟨sessions, users, drawn, -, owners⟩ := submitFrom_cases c json s sub session user
    simp only [StageAuthority.step]
    refine ⟨by rw [sessions, drawn]; exact h.drawn, by rw [sessions, users]; exact h.user, fun w hw => ?_⟩
    rw [drawn]
    obtain same | ⟨valid, inserted⟩ := owners
    · rw [same] at hw
      exact h.owner w hw
    · obtain old | rfl := ((Table.insert_some inserted).2 w).mp hw
      · exact h.owner w old
      · obtain ⟨b, hb, rfl, -⟩ := authorized_iff.mp valid
        exact h.drawn b hb
  | login id user ttl recent =>
    simp only [StageAuthority.step, login]
    split
    · exact h
    · rename_i free
      simp only [Bool.or_eq_true, not_or, Bool.not_eq_true, Bool.not_eq_false', List.any_eq_true, beq_iff_eq] at free
      obtain ⟨u, hu, uid⟩ := free.2
      refine ⟨fun b hb => ?_, fun b hb => ?_, fun w hw => List.mem_cons_of_mem _ (h.owner w hw)⟩
      · obtain ⟨old, -⟩ | rfl := Table.mem_upsert.mp hb
        · exact List.mem_cons_of_mem _ (h.drawn b old)
        · exact List.mem_cons_self
      · obtain ⟨old, -⟩ | rfl := Table.mem_upsert.mp hb
        · exact h.user b old
        · exact ⟨u, hu, uid⟩
  | endSessions which =>
    exact ⟨fun b hb => h.drawn b (Table.mem_delete.mp hb).1, fun b hb => h.user b (Table.mem_delete.mp hb).1,
      h.owner⟩
  | reauthenticate id recent =>
    refine ⟨fun b hb => ?_, fun b hb => ?_, h.owner⟩
    · obtain ⟨b₀, hb₀, id, -⟩ := mem_reauthenticate hb
      rw [id]
      exact h.drawn b₀ hb₀
    · obtain ⟨b₀, hb₀, -, own, -⟩ := mem_reauthenticate hb
      rw [own]
      exact h.user b₀ hb₀
  | addUser user =>
    simp only [StageAuthority.step]
    split
    · exact h
    · rename_i users inserted
      refine ⟨h.drawn, fun b hb => ?_, h.owner⟩
      obtain ⟨u, hu, id⟩ := h.user b hb
      exact ⟨u, ((Table.insert_some inserted).2 u).mpr (.inl hu), id⟩
  | _ => exact ⟨h.drawn, h.user, h.owner⟩

theorem authorized_step {s : Controller} (h : Known s) (e : Event)
    (drawn : session ∈ s.drawn) (later : authorized (step c json s e) session user) :
    authorized s session user := by
  obtain ⟨b, hb, id, unexpired, own, u, hu, uid, owner⟩ := authorized_iff.mp later
  refine authorized_iff.mpr ?_
  cases e with
  | spark sub from' user' =>
    obtain ⟨sessions, users, -, clock, -⟩ := submitFrom_cases c json s sub from' user'
    simp only [step] at hb hu unexpired
    rw [sessions] at hb
    rw [users] at hu
    rw [clock] at unexpired
    exact ⟨b, hb, id, unexpired, own, u, hu, uid, owner⟩
  | login id' user' ttl recent =>
    simp only [step, login] at hb hu unexpired
    split at hb
    · simp only [*, if_true] at hu unexpired
      exact ⟨b, hb, id, unexpired, own, u, hu, uid, owner⟩
    · rename_i free
      simp only [free] at hu unexpired
      obtain ⟨old, -⟩ | rfl := Table.mem_upsert.mp hb
      · exact ⟨b, old, id, unexpired, own, u, hu, uid, owner⟩
      · simp only [Bool.or_eq_true, not_or, List.contains_iff_mem] at free
        rw [← id] at drawn
        exact absurd drawn free.1
  | endSessions which => exact ⟨b, (Table.mem_delete.mp hb).1, id, unexpired, own, u, hu, uid, owner⟩
  | reauthenticate id' recent =>
    obtain ⟨b₀, hb₀, sameId, sameUser, sameExpiry⟩ := mem_reauthenticate hb
    rw [sameExpiry] at unexpired
    exact ⟨b₀, hb₀, sameId.symm.trans id, unexpired, sameUser.symm.trans own, u, hu, uid.trans sameUser, owner⟩
  | addUser user' =>
    simp only [step] at hb hu unexpired
    split at hb
    · simp only [*] at hu unexpired
      exact ⟨b, hb, id, unexpired, own, u, hu, uid, owner⟩
    · rename_i users inserted
      simp only [inserted] at hu unexpired
      obtain ⟨u', hu', uid'⟩ := h.user b hb
      have same : u' = u := users.eq_of_key (((Table.insert_some inserted).2 u').mpr (.inl hu')) hu (uid'.trans uid.symm)
      subst same
      exact ⟨b, hb, id, unexpired, own, u', hu', uid, owner⟩
  | tick elapsed =>
    have passes : s.clock ≤ s.clock + (elapsed : Int) := Int.le_add_of_nonneg_right (Int.natCast_nonneg elapsed)
    exact ⟨b, hb, id, lt_of_le_of_lt passes unexpired, own, u, hu, uid, owner⟩
  | _ => exact ⟨b, hb, id, unexpired, own, u, hu, uid, owner⟩

theorem run_known (c : Ingestion.Codec) (json : StageJson) (clock : Time) (events : List Event) :
    Known (run (step c json) (initial clock) events) :=
  run_preserves Known (fun _ e h => h.step e) (Known.initial clock) events

def Lost (s : Controller) (op : String) : Prop :=
  ∃ w ∈ s.owners, w.operationId = op ∧ authorized s w.ownerSessionId w.ownerUserId = false

theorem Lost.run {s : Controller} (known : Known s) (lost : Lost s op) (events : List Event) :
    Lost (run (step c json) s events) op := by
  suffices both : Known (Runs.run (step c json) s events) ∧ Lost (Runs.run (step c json) s events) op from both.2
  refine run_preserves (fun u => Known u ∧ Lost u op) (fun u e h => ?_) ⟨known, lost⟩ events
  obtain ⟨known, w, hw, named, lost⟩ := h
  refine ⟨known.step e, w, mem_owners_step e hw, named, ?_⟩
  by_contra later
  rw [authorized_step known e (known.owner w hw) (by simpa using later)] at lost
  cases lost

def HasAuthority (s : Controller) (op : String) : Prop :=
  ∃ w ∈ s.owners, w.operationId = op ∧ authorized s w.ownerSessionId w.ownerUserId ∧
    recentlyAuthenticated s w.ownerSessionId

theorem ownerRefusal_none {s : Controller} (h : ownerRefusal s op = none) : HasAuthority s op := by
  unfold ownerRefusal at h
  split at h
  · cases h
  rename_i w found
  obtain ⟨hw, named⟩ := Table.find?_key.mp found
  split_ifs at h with lost lapsed
  simp only [Bool.or_eq_true, not_or, Bool.not_eq_true', Bool.not_eq_false] at lost
  exact ⟨w, hw, named, lost.1, by simpa using lapsed⟩

theorem lost_refused {s : Controller} (lost : Lost s r.operation) : returned json s r = none := by
  by_contra some
  obtain ⟨v, returned⟩ := Option.ne_none_iff_exists'.mp some
  obtain ⟨u, granted⟩ := returned_ok returned
  obtain ⟨i, -, j, -, -, -, -, owner, -⟩ := authorizeSparkStartStage_ok granted
  obtain ⟨w, hw, named, valid, -⟩ := ownerRefusal_none owner
  obtain ⟨w', hw', named', lost⟩ := lost
  rw [s.owners.eq_of_key hw' hw (named'.trans named.symm), valid] at lost
  cases lost

/-- A start stage is handed out only while its session has authority and before its deadline, always the
same one; from then on cancelling changes nothing. -/
theorem start_stage_issued_once (c : Ingestion.Codec) (stages : StageCodec) (clock : Time) (before : List Event) :
    let s := run (step c stages.toStageJson) (initial clock) before
    (∀ r v, returned stages.toStageJson s r = some v →
      HasAuthority s r.operation ∧ s.clock < v.deadline ∧
        ∀ after, let later := run (step c stages.toStageJson) (initial clock) (before ++ .authorize r :: after)
          (∀ r' v', r'.operation = r.operation → returned stages.toStageJson later r' = some v' → v' = v) ∧
            ∀ u, cancelPending later.store r.operation = .ok u →
              u.targets = later.store.targets ∧ u.jobs = later.store.jobs) ∧
      ∀ op, Closed s.store op ∨ Lost s op → ∀ after r, r.operation = op →
        returned stages.toStageJson (run (step c stages.toStageJson) (initial clock) (before ++ after)) r = none := by
  refine ⟨fun r v handed => ⟨?_, ?_, fun after => ?_⟩, fun op ended after r named => ?_⟩
  · obtain ⟨u, granted⟩ := returned_ok handed
    obtain ⟨i, -, j, -, -, -, -, owner, -⟩ := authorizeSparkStartStage_ok granted
    exact ownerRefusal_none owner
  · obtain ⟨u, granted⟩ := returned_ok handed
    obtain ⟨i, -, j, -, -, -, -, -, -, -, ⟨-, -, -, inTime⟩ | ⟨-, -, deadline⟩⟩ := authorizeSparkStartStage_ok granted
    · exact inTime
    · rw [deadline]
      exact Int.lt_add_of_pos_right _ (by decide)
  · intro later
    obtain ⟨i, j, first⟩ := authorize_onRecord (c := c) stages handed
    obtain ⟨j', recorded⟩ : ∃ j', OnRecord stages.toStageJson later.store r.operation v i j' := by
      have now := first.run (c := c) after
      rwa [← run_cons, ← run_append] at now
    refine ⟨fun r' v' same again => ?_, fun u cancelled => ?_⟩
    · rw [← same] at recorded
      exact recorded.returned again
    · exact recorded.cancel (run_exclusive c stages.toStageJson clock _) cancelled
  · subst named
    obtain closed | lost := ended
    · exact closed_refused clock closed
    · rw [run_append]
      exact lost_refused (lost.run (run_known c stages.toStageJson clock before) after)

end Monik.StageAuthority
