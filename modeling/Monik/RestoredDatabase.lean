import Monik.JobPermanence
import Monik.LossyReports

/-! A worker and a controller whose database may be replaced by an earlier state of itself. A
receipt for a job that the restored database does not know keeps every later live report out. -/

namespace Monik.RestoredDatabase
open Protocol Tables ControllerStore Operations JobEvolution JobPermanence SubmissionSteps Runs
open Ingestion AgentRuntime ReportHandler
open ControllerRule (Rule)

variable {rep : AgentReport} {x : Request} {out : AcceptedReport} {agent id : String} {r : JobReceipt} {a : Agent}
    {t : Tick} {call : Call} {ag : AgentRow}

structure Database where
  store : Store
  revision : Int
  checks : List String

structure Joint where
  database : Database
  agent : Agent
  appliedRevision : Int
  (appliedChecks former sessions : List String)

def addServices (services : Table ServiceRow ServiceRow.id) (found : List ServiceRow) :
    Table ServiceRow ServiceRow.id :=
  found.foldl (fun t row => (t.insert row).getD t) services

def discovering (s : Store) (x : Request) (found : List ServiceRow) : Request :=
  { x with call := { x.call with discovered := some (addServices s.services found) } }

def named (t : Tick) : Tick :=
  { t with reconciled := fun r => { t.reconciled r with operationId := r.operationId } }

def namedControl (x : Control) : Control :=
  { x with handling := fun job =>
      { x.handling job with other := fun job =>
          { (x.handling job).other job with operationId := job.operationId } } }

structure Exchange where
  reached : Option (Request × List ServiceRow)
  read : Bool
  control : Control
  adopts : Bool

inductive Event
  | control (e : DispatchSafety.Event)
  | publish (checks : List String)
  | report (rep : AgentReport) (x : Request) (found : List ServiceRow)
  | exchange (t : Tick) (x : Exchange)
  | settle
  | restart (session : String) (stored : JobReceipt → JobReceipt)
  | restore (db : Database)

def owns (s : Store) (agent service : String) : Bool :=
  s.services.rows.any fun row => row.id == service && row.agentId == agent

def knowsJob (s : Store) (agent : String) (r : JobReceipt) : Bool :=
  s.jobs.rows.any fun j => j.jobId == r.jobId && j.agentId == agent &&
    (r.operationId == "" || r.operationId == j.operationId)

def built (m : Joint) (key : String × String × Int) : Bool :=
  key.1 != m.agent.agentId || m.sessions.contains key.2.1 &&
    (key.2.1 != m.agent.session || decide (key.2.2 ≤ m.agent.sequence))

/-- No newer than the worker, with a desired configuration it could publish and the worker's current
credential. -/
def restorable (m : Joint) (db : Database) : Bool :=
  db.store.ingests.rows.all (fun i => built m i.key) &&
    db.checks.all (owns db.store m.agent.agentId) &&
    (db.store.agent m.agent.agentId).any fun ag => !ag.revoked &&
      (m.database.store.agent m.agent.agentId).any fun now => now.credentialHash == ag.credentialHash

def withStore (m : Joint) (s : Store) : Joint :=
  { m with database := { m.database with store := s } }

def controlStep (s : Store) : DispatchSafety.Event → Store
  | .world w => { w with ingests := s.ingests }.apply s
  | e => DispatchSafety.step s e

def adopt (m : Joint) : Joint :=
  if m.appliedRevision < m.database.revision then
    { m with
      former := m.former ++ m.appliedChecks
      appliedRevision := m.database.revision
      appliedChecks := m.database.checks }
  else m

def prepared (m : Joint) (t : Tick) : Joint := { m with agent := (prepare m.agent (named t)).1 }

def liveReport (m : Joint) (t : Tick) : AgentReport := (prepare m.agent (named t)).2

def serve (c : Codec) (controller : String) (m : Joint) (rep : AgentReport) (x : Request)
    (found : List ServiceRow) : Store × Option ControlResponse :=
  handleReport c controller m.database.store rep (discovering m.database.store x found)

def exchange (c : Codec) (controller : String) (m : Joint) (t : Tick) (x : Exchange) : Joint :=
  match x.reached with
  | none => prepared m t
  | some (request, found) =>
    let served := serve c controller m (liveReport m t) request found
    let m' := withStore (prepared m t) served.1
    match served.2.filter fun r => x.read && acknowledged m.agent (liveReport m t) r with
    | none => m'
    | some r =>
      let m' := if x.adopts then adopt m' else m'
      { m' with agent := applyControl m'.agent (liveReport m t).jobReceipts r (namedControl x.control) }

def storedEntry (stored : JobReceipt → JobReceipt) (p : Pending) : Pending :=
  { p with receipt :=
      { stored p.receipt with jobId := p.jobId, operationId := p.receipt.operationId } }

def restartAgent (a : Agent) (session : String) (stored : JobReceipt → JobReceipt) : Agent :=
  { a with session, sequence := 0, jobs := a.jobs.update (fun _ => true) (storedEntry stored) fun _ => rfl }

def step (c : Codec) (controller : String) (m : Joint) : Event → Joint
  | .control e => withStore m (controlStep m.database.store e)
  | .publish checks =>
    if checks.all (owns m.database.store m.agent.agentId) then
      { m with database := { m.database with revision := m.database.revision + 1, checks } }
    else m
  | .report rep x found =>
    if built m rep.key then
      withStore m (serve c controller m rep x found).1
    else m
  | .exchange t x => exchange c controller m t x
  | .settle => { m with former := [] }
  | .restart session stored =>
    if m.sessions.contains session then m
    else { m with agent := restartAgent m.agent session stored, sessions := session :: m.sessions }
  | .restore db => if restorable m db then { m with database := db } else m

def knows (m : Joint) (db : Database) : Bool :=
  m.agent.jobs.rows.all (fun p => knowsJob db.store m.agent.agentId p.receipt) &&
    (m.appliedChecks ++ m.former).all (owns db.store m.agent.agentId)

def restoresKnown (m : Joint) : Event → Bool
  | .restore db => knows m db
  | _ => true

variable {c : Codec} {controller : String} {s s' s'' : Store} {m : Joint}

structure Grows (new : String × String × Int → Prop) (s s' : Store) : Prop where
  jobs : ∀ j ∈ s.jobs, ∃ j' ∈ s'.jobs, JobStep j j'
  services : ∀ row ∈ s.services, row ∈ s'.services
  ingests : ∀ i ∈ s'.ingests, i ∈ s.ingests ∨ new i.key

variable {new : String × String × Int → Prop}

theorem Grows.trans (h : Grows new s s') (h' : Grows new s' s'') : Grows new s s'' := by
  refine ⟨fun j hj => ?_, fun row hr => h'.services row (h.services row hr), fun i hi => ?_⟩
  · obtain ⟨j', hj', first⟩ := h.jobs j hj
    obtain ⟨j'', hj'', second⟩ := h'.jobs j' hj'
    exact ⟨j'', hj'', first.trans second⟩
  · exact (h'.ingests i hi).elim (h.ingests i) .inr

theorem Grows.of_later (h : Later s s') (services : s'.services = s.services)
    (ingests : s'.ingests = s.ingests) : Grows new s s' :=
  ⟨h.jobs, by rw [services]; exact fun _ h => h, by rw [ingests]; exact fun _ h => .inl h⟩

theorem grows_rule : Rule (Grows new) :=
  jobs_rule.mono (fun h => .of_later h.later h.services h.ingests) Grows.trans

theorem mem_addServices {services : Table ServiceRow ServiceRow.id} (found : List ServiceRow)
    {row : ServiceRow} (h : row ∈ services) : row ∈ addServices services found := by
  induction found generalizing services with
  | nil => exact h
  | cons r found ih =>
    refine ih ?_
    dsimp only
    cases inserted : services.insert r with
    | none => exact h
    | some u => exact ((Table.insert_some inserted).2 row).mpr (.inl h)

theorem acceptReport_grows {found : List ServiceRow} (h : acceptReport c s rep (discovering s x found).call = .ok (s', out)) :
    Grows (· = rep.key) s s' := by
  have later := acceptReport_later h
  obtain ⟨-, ⟨-, rfl, -⟩ | ⟨-, added⟩⟩ := acceptReport_ok h
  · exact grows_rule.refl s'
  · refine ⟨later.jobs, fun row hr => ?_, fun i hi => ?_⟩
    · obtain same | same := added.services
      · rwa [same]
      · rw [same]
        exact mem_addServices found hr
    · exact ((added.receipt i).mp hi).imp_right fun new => by rw [new]; rfl

theorem serve_grows (m : Joint) (rep : AgentReport) (x : Request) (found : List ServiceRow) :
    Grows (· = rep.key) m.database.store (serve c controller m rep x found).1 :=
  grows_rule.handleReport acceptReport_grows controller

theorem insertOperation_grows {op : NewOperation} {model : Option ModelIntent}
    (h : insertOperation s op model = .ok s') : Grows new s s' := by
  obtain ⟨u, inserted, rest⟩ := insertOperation_ok h
  have added : Grows new s u :=
    .of_later (inserted_later inserted) inserted.services inserted.ingests
  obtain ⟨-, rfl⟩ | ⟨intent, -, hm⟩ := rest
  · exact added
  · refine added.trans (grows_rule.insertIntent (fun _ _ => ?_) hm)
    exact .of_later (.of_eq rfl rfl rfl) rfl rfl

theorem controlStep_grows (s : Store) (e : DispatchSafety.Event) : Grows new s (controlStep s e) := by
  have kept : (∀ w, e ≠ .world w) → Grows new s (DispatchSafety.step s e) :=
    grows_rule.step_inside insertOperation_grows s e
  cases e with
  | world w => exact .of_later (.of_eq rfl rfl rfl) rfl rfl
  | _ => exact kept fun _ => by simp

theorem owns_grows (h : Grows new s s') {service : String} (known : owns s agent service) :
    owns s' agent service := by
  obtain ⟨row, hr, same⟩ := List.any_eq_true.mp known
  exact List.any_eq_true.mpr ⟨row, h.services row hr, same⟩

theorem knowsJob_iff : knowsJob s agent r ↔
    ∃ j ∈ s.jobs, j.jobId = r.jobId ∧ j.agentId = agent ∧
      (r.operationId = "" ∨ r.operationId = j.operationId) := by
  simp only [knowsJob, List.any_eq_true, Bool.and_eq_true, Bool.or_eq_true, beq_iff_eq, and_assoc]
  rfl

theorem knowsJob_grows (h : Grows new s s') (known : knowsJob s agent r) : knowsJob s' agent r := by
  obtain ⟨j, hj, jobId, owner, op⟩ := knowsJob_iff.mp known
  obtain ⟨j', hj', step⟩ := h.jobs j hj
  have key := step.key
  simp only [JobRow.key, Prod.mk.injEq] at key
  refine knowsJob_iff.mpr ⟨j', hj', step.jobId.trans jobId, key.2.trans owner, ?_⟩
  rwa [key.1]

/-- The worker's own reports in the database were built by it, and the desired checks belong to
its services. -/
structure Seen (m : Joint) : Prop where
  built : ∀ i ∈ m.database.store.ingests, built m i.key
  session : m.agent.session ∈ m.sessions
  desired : ∀ id ∈ m.database.checks, owns m.database.store m.agent.agentId id

structure Known (m : Joint) : Prop where
  journal : ∀ p ∈ m.agent.jobs, knowsJob m.database.store m.agent.agentId p.receipt
  watched : ∀ id ∈ m.appliedChecks ++ m.former, owns m.database.store m.agent.agentId id

theorem Seen.grows (h : Seen m) (grows : Grows (fun key => RestoredDatabase.built m key)
    m.database.store s') : Seen (withStore m s') :=
  ⟨fun i hi => (grows.ingests i hi).elim (h.built i) id, h.session,
    fun id hid => owns_grows grows (h.desired id hid)⟩

theorem Known.grows (h : Known m) (grows : Grows new m.database.store s') : Known (withStore m s') :=
  ⟨fun p hp => knowsJob_grows grows (h.journal p hp), fun id hid => owns_grows grows (h.watched id hid)⟩

theorem Grows.mono {more : String × String × Int → Prop} (h : Grows new s s')
    (le : ∀ key, new key → more key) : Grows more s s' :=
  ⟨h.jobs, h.services, fun i hi => (h.ingests i hi).imp_right (le i.key)⟩

theorem prepare_entry {p' : Pending} (h : p' ∈ (prepare a (named t)).1.jobs) :
    ∃ p ∈ a.jobs, p.jobId = p'.jobId ∧ p.receipt.operationId = p'.receipt.operationId := by
  obtain ⟨p, hp, rfl⟩ := LossyReports.mem_settled h
  refine ⟨p, hp, (settle_jobId ..).symm, ?_⟩
  simp only [settle, complete, named]
  split <;> split <;> rfl

theorem prepare_known (h : ∀ p ∈ a.jobs, knowsJob s agent p.receipt) :
    ∀ p ∈ (prepare a (named t)).1.jobs, knowsJob s agent p.receipt := by
  intro p' hp'
  obtain ⟨p, hp, jobId, op⟩ := prepare_entry hp'
  have known := h p hp
  unfold knowsJob at known ⊢
  unfold Pending.jobId at jobId
  rwa [jobId, op] at known

theorem answer_operationId (a : Agent) (x : Control) (job : JobEnvelope) (by' : String) :
    (answer a by' ((namedControl x).handling job) job).operationId = job.operationId := by
  unfold answer
  repeat' split
  all_goals rfl

theorem exchange_cases (c : Codec) (controller : String) (m : Joint) (t : Tick) (x : Exchange) :
    exchange c controller m t x = prepared m t ∨ ∃ request found,
      let served := serve c controller m (liveReport m t) request found
      let m' := withStore (prepared m t) served.1
      exchange c controller m t x = m' ∨ ∃ r, served.2 = some r ∧ ∃ n, (n = m' ∨ n = adopt m') ∧
        exchange c controller m t x = { n with
          agent := applyControl n.agent (liveReport m t).jobReceipts r (namedControl x.control) } := by
  unfold exchange
  cases x.reached with
  | none => exact .inl rfl
  | some reached =>
    refine .inr ⟨reached.1, reached.2, ?_⟩
    dsimp only
    cases answer : (serve c controller m (liveReport m t) reached.1 reached.2).2.filter
        fun r => x.read && acknowledged m.agent (liveReport m t) r with
    | none => exact .inl rfl
    | some r =>
      refine .inr ⟨r, (Option.filter_eq_some_iff.mp answer).1, _, ?_, rfl⟩
      cases x.adopts
      · exact .inl rfl
      · exact .inr rfl

theorem adopt_agent (m : Joint) : (adopt m).agent = m.agent ∧ (adopt m).database = m.database ∧
    (adopt m).sessions = m.sessions := by
  unfold adopt
  split <;> exact ⟨rfl, rfl, rfl⟩

theorem Known.adopt (seen : Seen m) (h : Known m) : Known (adopt m) := by
  unfold RestoredDatabase.adopt
  split
  · refine ⟨h.journal, fun id hid => ?_⟩
    simp only [List.mem_append] at hid
    obtain new | old | current := hid
    · exact seen.desired id new
    · exact h.watched id (List.mem_append_right _ old)
    · exact h.watched id (List.mem_append_left _ current)
  · exact h

variable {n : Joint}

theorem built_congr {m : Joint} (sessions : n.sessions = m.sessions)
    (agentId : n.agent.agentId = m.agent.agentId) (session : n.agent.session = m.agent.session)
    (sequence : n.agent.sequence = m.agent.sequence) (key : String × String × Int) : built n key = built m key := by
  simp only [built, sessions, agentId, session, sequence]

theorem prepared_built (h : m.agent.session ∈ m.sessions) (t : Tick) {key : String × String × Int}
    (old : built m key ∨ key = (liveReport m t).key) : built (prepared m t) key := by
  simp only [built, Bool.or_eq_true, Bool.and_eq_true, bne_iff_ne, decide_eq_true_eq,
    List.contains_iff_mem] at old ⊢
  obtain (other | ⟨known, earlier⟩) | rfl := old
  · exact .inl other
  · refine .inr ⟨known, earlier.imp_right fun le => ?_⟩
    exact Int.le_trans le (Int.le_add_one (Int.le_refl _))
  · exact .inr ⟨h, .inr (Int.le_refl _)⟩

theorem Seen.congr (h : Seen m) (database : n.database = m.database)
    (sessions : n.sessions = m.sessions) (same : SameWorker m.agent n.agent) : Seen n := by
  constructor
  · intro i hi
    rw [built_congr sessions same.agentId same.session same.sequence]
    exact h.built i (by rwa [← database])
  · rw [same.session, sessions]
    exact h.session
  · rw [database, same.agentId]
    exact h.desired

theorem Seen.prepared (h : Seen m) (t : Tick) : Seen (prepared m t) :=
  ⟨fun i hi => prepared_built h.session t (.inl (h.built i hi)), h.session, h.desired⟩

theorem Seen.served (h : Seen m) (t : Tick) (request : Request) (found : List ServiceRow) :
    Seen (withStore (RestoredDatabase.prepared m t) (serve c controller m (liveReport m t) request found).1) := by
  refine (h.prepared t).grows ((serve_grows m _ request found).mono fun key same => ?_)
  exact prepared_built h.session t (.inr same)

theorem Seen.exchange (h : Seen m) (t : Tick) (x : Exchange) : Seen (exchange c controller m t x) := by
  obtain same | ⟨request, found, rest⟩ := exchange_cases c controller m t x
  · rw [same]
    exact h.prepared t
  have served : Seen (withStore (RestoredDatabase.prepared m t)
      (serve c controller m (liveReport m t) request found).1) := h.served t request found
  obtain same | ⟨r, -, n, hn, same⟩ := rest
  · rw [same]
    exact served
  · rw [same]
    have worker := (applyControl_spec n.agent (liveReport m t).jobReceipts r (namedControl x.control)).1
    obtain rfl | rfl := hn
    · exact served.congr rfl rfl worker
    · obtain ⟨agent, database, sessions⟩ := adopt_agent (withStore (RestoredDatabase.prepared m t)
        (serve c controller m (liveReport m t) request found).1)
      rw [agent] at worker
      exact served.congr database sessions (by rw [agent]; exact worker)

theorem applyControl_known {sent : List JobReceipt} {r : ControlResponse} {x : Control}
    (old : ∀ p ∈ a.jobs, knowsJob s a.agentId p.receipt)
    (handed : ∀ env ∈ r.jobs, LossyReports.HandedOut s a.agentId env) :
    ∀ p ∈ (applyControl a sent r (namedControl x)).jobs, knowsJob s a.agentId p.receipt := by
  intro p hp
  obtain kept | ⟨job, listed, b, rfl⟩ := (applyControl_spec a sent r (namedControl x)).2 p hp
  · exact old p kept
  · obtain ⟨j, hj, jobId, owner, -, op⟩ := handed job listed
    exact knowsJob_iff.mpr ⟨j, hj, jobId.trans (answer_jobId ..).symm, owner,
      .inr ((answer_operationId b x job _).trans op.symm)⟩

theorem Known.prepared (h : Known m) (t : Tick) : Known (prepared m t) :=
  ⟨prepare_known h.journal, h.watched⟩

theorem Known.exchange (seen : Seen m) (h : Known m) (t : Tick) (x : Exchange) : Known (exchange c controller m t x) := by
  obtain same | ⟨request, found, rest⟩ := exchange_cases c controller m t x
  · rw [same]
    exact h.prepared t
  have served : Known (withStore (RestoredDatabase.prepared m t)
      (serve c controller m (liveReport m t) request found).1) :=
    (h.prepared t).grows (serve_grows m _ request found)
  obtain same | ⟨r, answered, n, hn, same⟩ := rest
  · rw [same]
    exact served
  · have handed := LossyReports.handleReport_handedOut (Prod.ext rfl answered)
    rw [same]
    have known : Known n ∧ n.agent = (RestoredDatabase.prepared m t).agent ∧
        n.database.store = (serve c controller m (liveReport m t) request found).1 := by
      obtain rfl | rfl := hn
      · exact ⟨served, rfl, rfl⟩
      · exact ⟨.adopt (seen.served t request found) served, (adopt_agent _).1, by rw [(adopt_agent _).2.1]; rfl⟩
    obtain ⟨known, agent, store⟩ := known
    have worker := (applyControl_spec n.agent (liveReport m t).jobReceipts r (namedControl x.control)).1
    have owner : (applyControl n.agent (liveReport m t).jobReceipts r
        (namedControl x.control)).agentId = n.agent.agentId := worker.agentId
    constructor
    · dsimp only
      rw [owner]
      refine applyControl_known known.journal fun env listed => ?_
      rw [store, agent]
      exact handed env listed
    · dsimp only
      rw [owner]
      exact known.watched

theorem Seen.step (h : Seen m) (e : Event) : Seen (step c controller m e) := by
  cases e with
  | control e => exact h.grows (controlStep_grows _ e)
  | publish checks =>
    unfold RestoredDatabase.step
    dsimp only
    split
    · rename_i owned
      exact ⟨h.built, h.session, List.all_eq_true.mp owned⟩
    · exact h
  | report rep x found =>
    unfold RestoredDatabase.step
    dsimp only
    split
    · rename_i known
      exact h.grows ((serve_grows m rep x found).mono fun key same => by rw [same]; exact known)
    · exact h
  | exchange t x => exact h.exchange t x
  | settle => exact ⟨h.built, h.session, h.desired⟩
  | restart session stored =>
    unfold RestoredDatabase.step
    dsimp only
    split
    · exact h
    · rename_i fresh
      refine ⟨fun i hi => ?_, List.mem_cons_self .., h.desired⟩
      have before := h.built i hi
      simp only [RestoredDatabase.built, restartAgent, Bool.or_eq_true, Bool.and_eq_true, bne_iff_ne,
        decide_eq_true_eq, List.contains_iff_mem, List.mem_cons] at before fresh ⊢
      obtain other | ⟨known, -⟩ := before
      · exact .inl other
      · exact .inr ⟨.inr known, .inl fun same => fresh (same ▸ known)⟩
  | restore db =>
    unfold RestoredDatabase.step
    dsimp only
    split
    · rename_i allowed
      simp only [restorable, Bool.and_eq_true, List.all_eq_true] at allowed
      exact ⟨allowed.1.1, h.session, allowed.1.2⟩
    · exact h

theorem Known.step (seen : Seen m) (h : Known m) (e : Event) (ok : restoresKnown m e) :
    Known (step c controller m e) := by
  cases e with
  | control e =>
    have grown : Grows (fun _ => True) m.database.store (controlStep m.database.store e) :=
      controlStep_grows _ e
    exact h.grows grown
  | publish checks =>
    unfold RestoredDatabase.step
    dsimp only
    split
    · exact ⟨h.journal, h.watched⟩
    · exact h
  | report rep x found =>
    unfold RestoredDatabase.step
    dsimp only
    split
    · exact h.grows (serve_grows m rep x found)
    · exact h
  | exchange t x => exact .exchange seen h t x
  | settle =>
    refine ⟨h.journal, fun id hid => h.watched id (List.mem_append_left _ ?_)⟩
    change id ∈ m.appliedChecks ++ [] at hid
    rwa [List.append_nil] at hid
  | restart session stored =>
    unfold RestoredDatabase.step
    dsimp only
    split
    · exact h
    · refine ⟨fun p' hp' => ?_, h.watched⟩
      obtain ⟨p, hp, rfl⟩ := (Table.mem_update (f := storedEntry stored) fun _ => rfl).mp hp'
      exact h.journal p hp
  | restore db =>
    unfold RestoredDatabase.step
    dsimp only
    split
    · simp only [restoresKnown, knows, Bool.and_eq_true, List.all_eq_true] at ok
      exact ⟨ok.1, ok.2⟩
    · exact h

def sane (now : Time) (o : CheckObservation) : Bool :=
  (o.intervalSeconds == 0 || decide (5 ≤ o.intervalSeconds) && decide (o.intervalSeconds ≤ 3600) &&
    o.intervalSeconds % 5 == 0) && o.observedAt != zeroTime && inWindow o.observedAt now &&
    (o.vantage == "agent/local" || o.vantage == "agent" || o.vantage == "local")

theorem checkRefusal_none {now : Time} {o : CheckObservation} (ok : sane now o)
    (known : owns s agent o.serviceId) : checkRefusal s agent now o = none := by
  obtain ⟨row, hr, same⟩ := List.any_eq_true.mp known
  simp only [Bool.and_eq_true, beq_iff_eq] at same
  have found : s.services.find? (fun row => row.id == o.serviceId) = some row :=
    Table.find?_key.mpr ⟨hr, same.1⟩
  simp only [sane, Bool.and_eq_true, Bool.or_eq_true, beq_iff_eq, bne_iff_ne, decide_eq_true_eq] at ok
  obtain ⟨⟨⟨interval, dated⟩, window⟩, vantage⟩ := ok
  unfold checkRefusal
  rw [if_neg (by omega), found, if_neg (by simp [same.2]), if_neg (by simp [dated, window]), if_neg]
  rintro ⟨first, second, third⟩
  exact (vantage.elim (·.elim first second) third)

theorem receiptRefusal_none (known : knowsJob s agent r) : receiptRefusal s agent r = none := by
  obtain ⟨j, hj, jobId, owner, op⟩ := knowsJob_iff.mp known
  have found : s.jobs.find? (fun k => k.jobId == r.jobId && k.agentId == agent) = some j := by
    refine Table.find?_eq_some hj (by simp [jobId, owner]) fun k hk => ?_
    rw [Bool.and_eq_true, beq_iff_eq] at hk
    exact hk.1.trans jobId.symm
  unfold receiptRefusal
  rw [found]
  dsimp only
  rw [if_neg]
  rintro ⟨nonempty, other⟩
  exact op.elim nonempty other

theorem acceptReport_total (enrolled : s.agent rep.agentId = some ag) (active : ag.revoked = false)
    (formed : refusal rep call = none) (fresh : ∀ i ∈ s.ingests, i.key ≠ rep.key)
    (checks : ∀ o ∈ rep.checks, checkRefusal s rep.agentId call.validated o = none)
    (receipts : ∀ r ∈ rep.jobReceipts, receiptRefusal s rep.agentId r = none) (plain : rep.spark = none) :
    ∃ s' out, acceptReport c s rep call = .ok (s', out) := by
  have absent : s.ingests.find? (fun i => i.agentId == rep.agentId && i.sessionId == rep.sessionId &&
      i.seq == rep.sequence) = none := by
    refine List.find?_eq_none.mpr fun i hi same => fresh i hi ?_
    simp only [Bool.and_eq_true, beq_iff_eq] at same
    simp [IngestRow.key, AgentReport.key, same]
  have noCheck : rep.checks.findSome? (checkRefusal s rep.agentId call.validated) = none :=
    List.findSome?_eq_none_iff.mpr checks
  have noReceipt : (if rep.isLive then rep.jobReceipts else []).findSome?
      (receiptRefusal s rep.agentId) = none := by
    rw [List.findSome?_eq_none_iff]
    split
    · exact receipts
    · simp
  unfold acceptReport
  rw [formed, enrolled]
  simp only [active, Bool.false_eq_true, if_false, absent]
  unfold commitReport
  rw [noCheck, noReceipt]
  obtain ⟨rows, hosts, -⟩ := insertHostSample_ok s rep call.received
  simp only [insertSparkSample, plain, hosts, bind, Except.bind]
  split
  · rename_i taken
    have kept : ∀ u : Store, (if isLive s ag rep then touchLive u rep call else u).ingests = u.ingests := by
      intro u
      split <;> rfl
    obtain ⟨ingests, inserted⟩ := Table.insert_fresh (r := receiptRow c rep call) fresh
    rw [kept] at taken
    exact absurd (inserted.symm.trans taken) (by simp)
  · exact ⟨_, _, rfl⟩

theorem acceptReport_receipts (h : acceptReport c s rep call = .ok (s', out)) (live : rep.isLive)
    (fresh : ∀ i ∈ s.ingests, i.key ≠ rep.key) : ∀ r ∈ rep.jobReceipts, receiptRefusal s rep.agentId r = none := by
  unfold acceptReport at h
  split at h
  · cases h
  split at h
  · cases h
  split at h
  · cases h
  split at h
  · rename_i prior found
    obtain ⟨hprior, same⟩ := Table.find?_some found
    simp only [Bool.and_eq_true, beq_iff_eq] at same
    exact absurd (by simp [IngestRow.key, AgentReport.key, same]) (fresh prior hprior)
  unfold commitReport at h
  split at h
  · cases h
  split at h
  · cases h
  · rename_i known
    rw [if_pos live, List.findSome?_eq_none_iff] at known
    exact known

theorem not_built (seen : Seen m) {i : IngestRow} (hi : i ∈ m.database.store.ingests)
    (same : i.key = (liveReport m t).key) : False := by
  have before := seen.built i hi
  rw [same] at before
  simp only [built, liveReport, AgentReport.key, prepare, bne_self_eq_false, Bool.false_or,
    Bool.and_eq_true] at before
  have later : m.agent.sequence + 1 ≤ m.agent.sequence := of_decide_eq_true before.2
  omega

structure WellFormed (m : Joint) (t : Tick) (call : Call) : Prop where
  formed : refusal (liveReport m t) call = none
  checks : ∀ o ∈ t.checks, sane call.validated o ∧ o.serviceId ∈ m.appliedChecks ++ m.former

theorem mem_liveReport (h : r ∈ (liveReport m t).jobReceipts) : ∃ p ∈ (prepared m t).agent.jobs, p.receipt = r := by
  simp only [liveReport, prepare] at h
  split at h
  · exact mem_receiptBatch h
  · cases h

theorem live_report_accepted (seen : Seen m) (known : Known m)
    (enrolled : m.database.store.agent m.agent.agentId = some ag) (active : ag.revoked = false)
    (ok : WellFormed m t call) : ∃ s' out, acceptReport c m.database.store (liveReport m t) call = .ok (s', out) := by
  refine acceptReport_total enrolled active ok.formed ?_ ?_ ?_ rfl
  · exact fun i hi same => not_built seen hi same
  · intro o ho
    obtain ⟨fine, watched⟩ := ok.checks o ho
    exact checkRefusal_none fine (known.watched _ watched)
  · intro r hr
    obtain ⟨p, hp, rfl⟩ := mem_liveReport hr
    exact receiptRefusal_none (prepare_known known.journal p hp)

def initial (agentId session : String) : Joint :=
  { database := ⟨Store.empty, 0, []⟩
    agent := ⟨agentId, "c1", session, 0, false, .empty, "", []⟩
    appliedRevision := 0, appliedChecks := [], former := [], sessions := [session] }

theorem initial_seen (agentId session : String) : Seen (initial agentId session) :=
  ⟨fun i hi => absurd hi (Table.not_mem_empty i), List.mem_cons_self .., by simp [initial]⟩

theorem initial_known (agentId session : String) : Known (initial agentId session) :=
  ⟨fun p hp => absurd hp (Table.not_mem_empty p), by simp [initial]⟩

theorem run_seen (h : Seen m) (events : List Event) : Seen (run (step c controller) m events) :=
  run_preserves Seen (fun _ e h => h.step e) h events

theorem run_known (seen : Seen m) (h : Known m) {events : List Event}
    (ok : Meets (step c controller) (fun m e => restoresKnown m e) m events) :
    Known (run (step c controller) m events) :=
  (run_invariant (fun m => Seen m ∧ Known m) (fun _ e h ok => ⟨h.1.step e, .step h.1 h.2 e ok⟩)
    ⟨seen, h⟩ ok).2

structure CutOff (id : String) (m : Joint) : Prop where
  seen : Seen m
  held : ∃ p ∈ m.agent.jobs, p.jobId = id
  short : m.agent.jobs.rows.length ≤ 64
  unknown : ∀ j ∈ m.database.store.jobs, j.jobId = id → j.agentId ≠ m.agent.agentId

theorem mem_receiptBatch_short {jobs : List Pending} {cursor : String} {limit : Nat}
    (short : jobs.length ≤ limit) {p : Pending} (hp : p ∈ jobs) : p.receipt ∈ receiptBatch jobs cursor limit := by
  unfold receiptBatch
  rw [List.take_of_length_le]
  · rw [List.mem_rotate, List.mem_insertionSort]
    exact List.mem_map_of_mem hp
  · simpa using short

theorem prepared_rows (m : Joint) (t : Tick) : (prepared m t).agent.jobs.rows =
    m.agent.jobs.rows.map (settle m.agent.session (m.agent.sequence + 1) (named t) (hostOf m.agent (named t))) := by
  change m.agent.jobs.rows.map _ = _
  simp

theorem CutOff.prepared (h : CutOff id m) (t : Tick) : CutOff id (prepared m t) := by
  refine ⟨h.seen.prepared t, ?_, ?_, h.unknown⟩
  · obtain ⟨p, hp, same⟩ := h.held
    have mapped := List.mem_map_of_mem (f := settle m.agent.session (m.agent.sequence + 1) (named t)
      (hostOf m.agent (named t))) hp
    rw [← prepared_rows] at mapped
    exact ⟨_, mapped, (settle_jobId ..).trans same⟩
  · rw [prepared_rows, List.length_map]
    exact h.short

theorem CutOff.refused (h : CutOff id m) (saved : t.saved) (call : Call) (accepted : Store × AcceptedReport) :
    acceptReport c m.database.store (liveReport m t) call ≠ .ok accepted := by
  intro ok
  obtain ⟨p, hp, same⟩ := (h.prepared t).held
  have carried : p.receipt ∈ (liveReport m t).jobReceipts := by
    change p.receipt ∈ (if t.saved then _ else _)
    rw [if_pos saved]
    exact mem_receiptBatch_short (h.prepared t).short hp
  have stranger : receiptRefusal m.database.store m.agent.agentId p.receipt ≠ none := by
    unfold receiptRefusal
    split
    · simp
    · rename_i j found
      obtain ⟨hj, names⟩ := Table.find?_some found
      simp only [Bool.and_eq_true, beq_iff_eq] at names
      exact absurd names.2 (h.unknown j hj (names.1.trans same))
  obtain ⟨-, ⟨-, -, i, hi, twin⟩ | ⟨-, added⟩⟩ := acceptReport_ok ok
  · exact not_built h.seen hi twin
  · exact stranger (acceptReport_receipts ok rfl added.fresh _ carried)

theorem handleReport_refused (refused : ∀ accepted, acceptReport c s rep x.call ≠ .ok accepted) :
    handleReport c controller s rep x = (s, none) := by
  unfold handleReport
  split
  · rfl
  split
  · rfl
  · rename_i u accepted ok
    exact absurd ok (refused (u, accepted))

def steady (c : Codec) (controller id : String) (m : Joint) (e : Event) : Prop :=
  (match e with
    | .restore _ => False
    | .exchange t _ => t.saved
    | _ => True) ∧
  ∀ j ∈ (step c controller m e).database.store.jobs, j.jobId = id → j.agentId ≠ m.agent.agentId

theorem CutOff.step (h : CutOff id m) (e : Event) (ok : steady c controller id m e) :
    CutOff id (step c controller m e) := by
  have seen : Seen (RestoredDatabase.step c controller m e) := h.seen.step e
  obtain ⟨kind, unknown⟩ := ok
  cases e with
  | control e => exact ⟨seen, h.held, h.short, unknown⟩
  | publish checks =>
    unfold RestoredDatabase.step at seen ⊢
    dsimp only at seen ⊢
    by_cases owned : checks.all (owns m.database.store m.agent.agentId)
    · rw [if_pos owned] at seen ⊢
      exact ⟨seen, h.held, h.short, h.unknown⟩
    · rw [if_neg owned]
      exact h
  | report rep x found =>
    unfold RestoredDatabase.step at seen unknown ⊢
    dsimp only at seen unknown ⊢
    by_cases known : built m rep.key
    · rw [if_pos known] at seen unknown ⊢
      exact ⟨seen, h.held, h.short, unknown⟩
    · rw [if_neg known]
      exact h
  | exchange t x =>
    change CutOff id (RestoredDatabase.exchange c controller m t x)
    have refused := h.refused (c := c) kind
    obtain same | ⟨request, found, rest⟩ := exchange_cases c controller m t x
    · rw [same]
      exact h.prepared t
    · have none' : serve c controller m (liveReport m t) request found = (m.database.store, none) :=
        handleReport_refused fun accepted => refused _ accepted
      rw [none'] at rest
      obtain same | ⟨r, answered, -⟩ := rest
      · rw [same]
        exact h.prepared t
      · cases answered
  | settle => exact ⟨seen, h.held, h.short, h.unknown⟩
  | restart session stored =>
    unfold RestoredDatabase.step at seen ⊢
    dsimp only at seen ⊢
    by_cases used : m.sessions.contains session
    · rw [if_pos used]
      exact h
    · rw [if_neg used] at seen ⊢
      obtain ⟨p, hp, same⟩ := h.held
      have rows : (restartAgent m.agent session stored).jobs.rows =
          m.agent.jobs.rows.map (storedEntry stored) := by
        change m.agent.jobs.rows.map _ = _
        simp
      have mapped := List.mem_map_of_mem (f := storedEntry stored) hp
      rw [← rows] at mapped
      refine ⟨seen, ⟨_, mapped, same⟩, ?_, h.unknown⟩
      dsimp only
      rw [rows, List.length_map]
      exact h.short
  | restore db => exact kind.elim

structure Onward (m n : Joint) : Prop where
  agentId : n.agent.agentId = m.agent.agentId
  built : ∀ key, built m key → built n key

theorem Onward.of_same (same : SameWorker m.agent n.agent) (sessions : n.sessions = m.sessions) : Onward m n :=
  ⟨same.agentId, fun key h => by rwa [built_congr sessions same.agentId same.session same.sequence]⟩

theorem Onward.trans {o : Joint} (h : Onward m n) (h' : Onward n o) : Onward m o :=
  ⟨h'.agentId.trans h.agentId, fun key old => h'.built key (h.built key old)⟩

theorem Onward.exchange (seen : Seen m) (t : Tick) (x : Exchange) : Onward m (exchange c controller m t x) := by
  have ready : Onward m (prepared m t) := ⟨rfl, fun key h => prepared_built seen.session t (.inl h)⟩
  obtain same | ⟨request, found, rest⟩ := exchange_cases c controller m t x
  · rw [same]
    exact ready
  obtain same | ⟨r, -, n, hn, same⟩ := rest
  · rw [same]
    exact ready.trans (.of_same ⟨rfl, rfl, rfl, rfl⟩ rfl)
  · rw [same]
    have worker := (applyControl_spec n.agent (liveReport m t).jobReceipts r (namedControl x.control)).1
    obtain rfl | rfl := hn
    · exact ready.trans (.of_same worker rfl)
    · rw [(adopt_agent _).1] at worker ⊢
      exact ready.trans (.of_same worker (adopt_agent _).2.2)

theorem Onward.step (seen : Seen m) (e : Event) : Onward m (step c controller m e) := by
  have still : ∀ n : Joint, n.agent = m.agent → n.sessions = m.sessions → Onward m n := by
    intro n agent sessions
    exact .of_same (by rw [agent]; exact ⟨rfl, rfl, rfl, rfl⟩) sessions
  cases e with
  | exchange t x => exact .exchange seen t x
  | restart session stored =>
    unfold RestoredDatabase.step
    dsimp only
    split
    · exact still m rfl rfl
    · rename_i fresh
      refine ⟨rfl, fun key old => ?_⟩
      simp only [RestoredDatabase.built, restartAgent, Bool.or_eq_true, Bool.and_eq_true, bne_iff_ne,
        decide_eq_true_eq, List.contains_iff_mem, List.mem_cons] at old fresh ⊢
      obtain other | ⟨known, -⟩ := old
      · exact .inl other
      · exact .inr ⟨.inr known, .inl fun same => fresh (same ▸ known)⟩
  | control e => exact still _ rfl rfl
  | settle => exact still _ rfl rfl
  | publish checks =>
    unfold RestoredDatabase.step
    dsimp only
    split <;> exact still _ rfl rfl
  | report rep x found =>
    unfold RestoredDatabase.step
    dsimp only
    split <;> exact still _ rfl rfl
  | restore db =>
    unfold RestoredDatabase.step
    dsimp only
    split <;> exact still _ rfl rfl

theorem Onward.run (seen : Seen m) (events : List Event) :
    Onward m (run (RestoredDatabase.step c controller) m events) :=
  (run_preserves (fun n => Seen n ∧ Onward m n) (fun _ e h => ⟨h.1.step e, h.2.trans (.step h.1 e)⟩)
    ⟨seen, ⟨rfl, fun _ h => h⟩⟩ events).2

theorem earlier_restorable (seen : Seen m) (events : List Event) {now : AgentRow}
    (enrolled : m.database.store.agent m.agent.agentId = some ag) (active : ag.revoked = false)
    (current : (run (step c controller) m events).database.store.agent m.agent.agentId = some now)
    (same : now.credentialHash = ag.credentialHash) :
    restorable (run (step c controller) m events) m.database := by
  have onward : Onward m (run (step c controller) m events) := .run seen events
  simp only [restorable, onward.agentId, enrolled, current, active, same, Bool.and_eq_true,
    List.all_eq_true, Option.any_some, Bool.not_false, beq_self_eq_true, and_true]
  exact ⟨fun i hi => onward.built i.key (seen.built i hi), seen.desired⟩

/-- When restores bring back a database that knows the jobs of the journal and the services of the checks,
the next well-formed live report is committed. -/
theorem restored_worker_reports (c : Codec) (controller agentId session : String)
    (before after : List Event)
    (ok : Meets (step c controller) (fun m e => restoresKnown m e) (initial agentId session)
      (before ++ after)) :
    let earlier := run (step c controller) (initial agentId session) before
    let m := run (step c controller) earlier after
    (∀ t call ag, m.database.store.agent m.agent.agentId = some ag → ag.revoked = false →
      WellFormed m t call →
      ∃ s' out, acceptReport c m.database.store (liveReport m t) call = .ok (s', out)) ∧
    ∀ ag now, earlier.database.store.agent earlier.agent.agentId = some ag → ag.revoked = false →
      m.database.store.agent earlier.agent.agentId = some now →
      now.credentialHash = ag.credentialHash → restorable m earlier.database := by
  intro earlier m
  obtain ⟨okBefore, okAfter⟩ := (meets_append _ before after).mp ok
  have seen : Seen earlier := run_seen (initial_seen agentId session) before
  have known : Known earlier :=
    run_known (initial_seen agentId session) (initial_known agentId session) okBefore
  constructor
  · intro t call ag enrolled active formed
    exact live_report_accepted (run_seen seen after) (run_known seen known okAfter) enrolled active formed
  · intro ag now enrolled active current same
    exact earlier_restorable seen after enrolled active current same

theorem enrolled_unique : ([LossyReports.enrolled].map AgentRow.id).Nodup := by
  simp

def agentEnrolled : List Event :=
  [.control (.world ⟨⟨[LossyReports.enrolled], enrolled_unique⟩, .empty, .empty, .empty, .empty⟩)]

def answeredAt (now : Time) : Exchange :=
  { reached := some (LossyReports.requestAt now, [])
    read := true
    control := ⟨none, true, fun _ => ⟨now, false, true, fun job => newReceipt job now⟩⟩
    adopts := false }

def jobAccepted : List Event :=
  agentEnrolled ++ [.control (.submit (DispatchSafety.request .agentCollectNow [])),
    .exchange (LossyReports.tickAt (2 * second)) (answeredAt (2 * second))]

abbrev plain : Codec := LossyReports.parties.codec

def backup : Database := (run (step plain "c1") (initial "a1" "s1") agentEnrolled).database

def laterBackup : Database := (run (step plain "c1") (initial "a1" "s1") jobAccepted).database

def recovered : Joint :=
  run (step plain "c1") (run (step plain "c1") (initial "a1" "s1") jobAccepted) [.restore laterBackup]

theorem restored_worker_reports_known :
    recovered.agent.jobs.rows.length = 1 ∧ ∃ s' out, acceptReport plain recovered.database.store
      (liveReport recovered (LossyReports.tickAt (7 * second)))
      (LossyReports.requestAt (7 * second)).call = .ok (s', out) := by
  have ok : Meets (step plain "c1") (fun m e => restoresKnown m e) (initial "a1" "s1")
      (jobAccepted ++ [.restore laterBackup]) := by
    decide +kernel
  have formed : WellFormed recovered (LossyReports.tickAt (7 * second))
      (LossyReports.requestAt (7 * second)).call :=
    ⟨by decide +kernel, fun o ho => absurd ho List.not_mem_nil⟩
  have enrolled : (recovered.database.store.agent recovered.agent.agentId).any (fun ag => !ag.revoked) =
      true := by
    decide +kernel
  refine ⟨by decide +kernel, ?_⟩
  cases found : recovered.database.store.agent recovered.agent.agentId with
  | none =>
    rw [found] at enrolled
    cases enrolled
  | some ag =>
    rw [found, Option.any_some, Bool.not_eq_true'] at enrolled
    have reports := (restored_worker_reports plain "c1" "a1" "s1" jobAccepted [.restore laterBackup] ok).1
    exact reports (LossyReports.tickAt (7 * second)) (LossyReports.requestAt (7 * second)).call ag found
      enrolled formed

def restored : Joint :=
  step plain "c1" (run (step plain "c1") (initial "a1" "s1") jobAccepted) (.restore backup)

theorem restored_cutOff : CutOff "j1" restored := by
  refine ⟨(run_seen (initial_seen "a1" "s1") jobAccepted).step (.restore backup), ?_, ?_, ?_⟩
  · exact ⟨_, List.mem_cons_self .., by decide +kernel⟩
  · decide +kernel
  · decide +kernel

theorem restored_worker_cut_off :
    restorable (run (step plain "c1") (initial "a1" "s1") jobAccepted) backup ∧
    ∀ later : List Event, Meets (step plain "c1") (steady plain "c1" "j1") restored later →
      ∀ t call accepted, t.saved →
        acceptReport plain (run (step plain "c1") restored later).database.store
          (liveReport (run (step plain "c1") restored later) t) call ≠ .ok accepted := by
  refine ⟨by decide +kernel, ?_⟩
  intro later ok t call accepted saved
  have cut := run_invariant (CutOff "j1") (fun _ e h ok => h.step e ok) restored_cutOff ok
  exact cut.refused saved call accepted

end Monik.RestoredDatabase
