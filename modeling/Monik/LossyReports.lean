import Monik.CollectionEvidence
import Monik.Runs

/-! One worker and its controller over a network that loses requests and answers; a request that was
given up may arrive at any later time. An observation is recorded as a success unless a live report
delivers its receipt ahead of the report it names. -/

namespace Monik.LossyReports
open Protocol Tables ControllerStore Operations JobEvolution JobSteps Rollouts RolloutSteps
open StoreWrites SubmissionSteps ResultSteps Ingestion AgentRuntime ReportHandler CollectionEvidence Runs

variable {c : Codec} {s' : Store} {rep : AgentReport} {out : AcceptedReport} {x : Request} {controller : String}
    {now : Time} {a : Agent} {t : Tick} {p : Pending} {r : ControlResponse}

structure Machine where
  agent : Agent
  store : Store
  inFlight : List AgentReport
  agentClock : Time
  clock : Time
  reports : List AgentReport
  issued : List Pending

structure Parties where
  codec : Codec
  digest : String × String × Int → String
  controller : String

inductive Delivery
  | lost
  | answered (x : Request)

structure Outcome where
  live : Delivery
  control : Control
  written : Bool
  /-- Records that retention retires before the report is spooled or the spool is listed. -/
  retired : Nat
  drained : List (Delivery × Bool)
  done : Time

inductive Event
  | tick (t : Tick) (o : Outcome)
  | late (rep : AgentReport) (x : Request)
  | submit (op : NewOperation)
  | cancel (op : String)
  | expire (now : Time)
  | advance (expireNow now : Time)
  | other (rep : AgentReport) (x : Request)
  | world (agents : Table AgentRow AgentRow.id) (secrets : Table SecretRow SecretRow.id)
      (publications : Table PublicationRow PublicationRow.releaseId)
      (services : Table ServiceRow ServiceRow.id)

def serve (k : Parties) (m : Machine) (rep : AgentReport) (x : Request) : Machine :=
  { m with store := (handleReport k.codec k.controller m.store rep x).1, clock := x.call.received }

def send (k : Parties) (m : Machine) (rep : AgentReport) :
    Delivery → Machine × Option ControlResponse
  | .lost => ({ m with inFlight := m.inFlight ++ [rep] }, none)
  | .answered x =>
    (serve k m rep x, (handleReport k.codec k.controller m.store rep x).2.filter
      (acknowledged m.agent rep))

def withSpool (m : Machine) (spool : List AgentReport) : Machine :=
  { m with agent := { m.agent with spool } }

def drain (k : Parties) : List AgentReport → List (Delivery × Bool) → Machine → Machine
  | it :: items, (d, removed) :: ds, m =>
    match send k m { it with isLive := false } d with
    | (m, none) => m
    | (m, some _) =>
      if removed then drain k items ds (withSpool m (dropReport k.digest m.agent.spool it)) else m
  | _, _, m => m

def hold (m : Machine) (a : Agent) (clock : Time) : Machine :=
  { m with agent := a, agentClock := clock, issued := m.issued ++ a.jobs.rows }

def prepared (m : Machine) (t : Tick) : Machine :=
  { hold m (prepare m.agent t).1 t.now with reports := m.reports ++ [(prepare m.agent t).2] }

def tick (k : Parties) (m : Machine) (t : Tick) (o : Outcome) : Machine :=
  let rep := (prepare m.agent t).2
  match send k (prepared m t) rep o.live with
  | (m, none) =>
    { withSpool m (push k.codec k.digest m.agent.spool rep o.written o.retired) with
      agentClock := o.done }
  | (m, some r) =>
    let m := hold m (applyControl m.agent rep.jobReceipts r o.control) o.done
    let m := withSpool m (m.agent.spool.drop o.retired)
    drain k (listLimit k.digest m.agent.spool 4) o.drained m

def step (k : Parties) (m : Machine) : Event → Machine
  | .tick t o => tick k m t o
  | .late rep x =>
    if rep ∈ m.inFlight then serve k { m with inFlight := m.inFlight.erase rep } rep x else m
  | .submit op => { m with store := commit m.store (insertOperation m.store op none), clock := op.createdAt }
  | .cancel op => { m with store := commit m.store (cancelPending m.store op) }
  | .expire now => { m with store := commit m.store (expireAndBlockJobs m.store now) }
  | .advance expireNow now => { m with store := (advanceRollouts m.store expireNow now).1 }
  | .other rep x => if rep.agentId = m.agent.agentId then m else serve k m rep x
  | .world agents secrets publications services =>
    { m with store := { m.store with agents, secrets, publications, services } }

def Ordered : Time → List Delivery → Prop
  | _, [] => True
  | clock, .lost :: ds => Ordered clock ds
  | clock, .answered x :: ds => clock ≤ x.call.received ∧ Ordered x.call.received ds

def Timely (m : Machine) : Event → Prop
  | .tick t o => m.agentClock ≤ t.now ∧ t.now ≤ o.done ∧
      (∀ job, (o.control.handling job).now ≤ o.done) ∧
      Ordered m.clock (o.live :: o.drained.map Prod.fst)
  | .late _ x => m.clock ≤ x.call.received
  | .submit op => m.clock ≤ op.createdAt
  | .other _ x => m.clock ≤ x.call.received
  | _ => True

/-- If the live report is accepted, each completion receipt in it names this report or a committed one. -/
def backed (c : Codec) (s : Store) (rep : AgentReport) (x : Request) : Bool :=
  !(acceptReport c s rep x.call).toBool || !rep.isLive ||
    rep.jobReceipts.all fun r =>
      !(r.status == .succeeded && r.stage == "fresh_result") ||
        names r rep.sessionId rep.sequence ||
        s.ingests.rows.any fun i => i.agentId == rep.agentId && names r i.sessionId i.seq

def Delivery.backed (c : Codec) (s : Store) (rep : AgentReport) : Delivery → Bool
  | .lost => true
  | .answered x => LossyReports.backed c s rep x

def inOrder (k : Parties) (m : Machine) : Event → Bool
  | .tick t o => o.live.backed k.codec m.store (prepare m.agent t).2
  | .late rep x => backed k.codec m.store rep x
  | _ => true

def history (m : Machine) : History := ⟨m.agent.agentId, m.agent.session, m.reports, m.issued⟩

structure Good (m : Machine) : Prop where
  sound : Sound (history m) m.clock m.store
  numbered : Numbered (history m)
  recent : ∀ rep ∈ m.reports, rep.sequence ≤ m.agent.sequence
  formed : ∀ p ∈ m.issued, collects p.action → Formed m.reports m.agentClock p
  held : ∀ p ∈ m.agent.jobs, p ∈ m.issued
  sent : ∀ rep ∈ m.reports, ∀ r ∈ rep.jobReceipts, ∃ p ∈ m.issued, p.receipt = r
  spooled : ∀ rep ∈ m.agent.spool, rep ∈ m.reports
  flying : ∀ rep ∈ m.inFlight, (history m).Copy rep

variable {k : Parties} {m : Machine} {w : History} {clock : Time} {s : Store}

theorem accepted_row {call : Call} (h : acceptReport c s rep call = .ok (s', out)) :
    (∃ i ∈ s'.ingests, i.key = rep.key) ∧ ∀ i ∈ s.ingests, i ∈ s'.ingests := by
  obtain ⟨-, ⟨-, rfl, prior⟩ | ⟨-, added⟩⟩ := acceptReport_ok h
  · exact ⟨prior, fun _ hi => hi⟩
  · exact ⟨⟨_, (added.receipt _).mpr (.inr rfl), rfl⟩, fun i hi => (added.receipt i).mpr (.inl hi)⟩

theorem backed_committed (h : backed c s rep x)
    (accepted : acceptReport c s rep x.call = .ok (s', out)) (live : rep.isLive)
    {r : JobReceipt} (hr : r ∈ rep.jobReceipts) (ok : r.status = .succeeded) (fresh : r.stage = "fresh_result") :
    ∃ i ∈ s'.ingests, i.agentId = rep.agentId ∧ names r i.sessionId i.seq := by
  obtain ⟨⟨i, hi, key⟩, more⟩ := accepted_row accepted
  simp only [backed, accepted, live, Except.toBool, Bool.not_true, Bool.false_or,
    List.all_eq_true] at h
  have named := h r hr
  simp only [ok, fresh, beq_self_eq_true, Bool.and_self, Bool.not_true, Bool.false_or,
    Bool.or_eq_true, List.any_eq_true, Bool.and_eq_true, beq_iff_eq] at named
  obtain named | ⟨i, hi, agent, named⟩ := named
  · simp only [IngestRow.key, AgentReport.key, Prod.mk.injEq] at key
    refine ⟨i, hi, key.1, ?_⟩
    rw [key.2.1, key.2.2]
    exact named
  · exact ⟨i, more i hi, agent, named⟩

theorem handleReport_sound (h : Sound w clock s) (numbered : Numbered w) (le : clock ≤ x.call.received)
    (formed : ∀ p ∈ w.issued, collects p.action → Formed w.reports now p)
    (mine : rep.agentId = w.agentId → w.Copy rep ∧ backed c s rep x ∧
    ∀ r ∈ rep.jobReceipts, ∃ p ∈ w.issued, p.receipt = r) :
    Sound w x.call.received (handleReport c controller s rep x).1 := by
  unfold handleReport
  split
  · exact h.later le
  split
  · exact h.later le
  rename_i u accepted hu
  have taken : Sound w x.call.received u := h.accept le (fun same => (mine same).1) hu
  have rechecked : Sound w x.call.received
      (if accepted.live then reconcileUnverified u rep.agentId x else u) ∧
      Follows u (if accepted.live then reconcileUnverified u rep.agentId x else u) := by
    split
    · exact taken.reconcile rep.agentId x
    · exact ⟨taken, .refl u⟩
  dsimp only
  split
  · exact rechecked.1
  rename_i live
  rw [Bool.not_eq_true', Bool.not_eq_false] at live
  refine Sound.poll ?_ _ _ _ _ _
  refine (rechecked.1.applyAll fun r hr v sound follows j hj hid agent asked => ?_).1
  have own : rep.agentId = w.agentId := agent.symm.trans asked.1
  obtain ⟨-, ordered, sent⟩ := mine own
  obtain ⟨p, hp, rfl⟩ := sent r hr
  rw [own]
  refine sound.judged numbered hp (formed p hp) (fun ok fresh => ?_) hj hid asked _
  have committed := backed_committed ordered hu live hr ok fresh
  rw [← rechecked.2.ingests, ← follows.ingests, own] at committed
  exact committed

theorem Good.serve (h : Good m) (le : m.clock ≤ x.call.received)
    (mine : rep.agentId = m.agent.agentId → (history m).Copy rep ∧ backed k.codec m.store rep x) :
    Good (serve k m rep x) := by
  refine { h with sound := handleReport_sound h.sound h.numbered le h.formed fun same => ?_ }
  obtain ⟨copy, ordered⟩ := mine same
  refine ⟨copy, ordered, fun r hr => ?_⟩
  obtain ⟨built, hbuilt, rfl | rfl⟩ := copy
  · exact h.sent rep hbuilt r hr
  · exact h.sent built hbuilt r hr

theorem Good.lose (h : Good m) (copy : (history m).Copy rep) : Good { m with inFlight := m.inFlight ++ [rep] } := by
  refine { h with flying := fun r hr => ?_ }
  obtain hr | hr := List.mem_append.mp hr
  · exact h.flying r hr
  · rw [List.mem_singleton.mp hr]
    exact copy

theorem Good.withSpool (h : Good m) (spool : List AgentReport) (sub : ∀ r ∈ spool, r ∈ m.reports) :
    Good (withSpool m spool) :=
  { h with spooled := sub }

theorem completed_formed {reports : List AgentReport} (h : Formed reports now p) (le : now ≤ t.now)
    (done : completes t (hostOf a t) p.receipt) : Formed (reports ++ [(prepare a t).2]) t.now
      { p with receipt := completedReceipt a.session (a.sequence + 1) t p.receipt } := by
  obtain ⟨at', accepted, before⟩ := h.accepted
  simp only [completes, Bool.and_eq_true, Bool.or_eq_true, beq_iff_eq] at done
  obtain ⟨waiting, which⟩ := done
  refine ⟨⟨at', accepted, before.trans le⟩, by simp [completedReceipt], ?_, ?_, fun _ => ⟨rfl, ?_⟩⟩
  · unfold completedReceipt
    dsimp only
    split <;> rfl
  · unfold completedReceipt
    dsimp only
    split <;> intro bad <;> cases bad
  · refine ⟨(prepare a t).2, by simp, by simp [names, completedReceipt, prepare, Fields.get, Value.text],
      ⟨at', accepted, before.trans le⟩, ?_⟩
    have stage := h.pending waiting
    by_cases collect : p.action = .agentCollectNow
    · rw [if_pos collect] at stage ⊢
      obtain ⟨-, some'⟩ | ⟨other, -⟩ := which
      · exact some'
      · rw [stage] at other
        exact absurd other (by decide)
    · rw [if_neg collect] at stage ⊢
      obtain ⟨other, -⟩ | ⟨-, found⟩ := which
      · rw [stage] at other
        exact absurd other (by decide)
      · exact Option.isSome_of_any found

theorem mem_settled {p' : Pending} (h : p' ∈ (prepare a t).1.jobs.rows) :
    ∃ p ∈ a.jobs, settle a.session (a.sequence + 1) t (hostOf a t) p = p' := by
  obtain ⟨p, hp, same⟩ := (Table.mem_update (settle_jobId _ _ t _)).mp h
  exact ⟨p, hp, by simpa using same⟩

theorem prepared_issued (m : Machine) (t : Tick) (hp : p ∈ (prepared m t).issued) : p ∈ m.issued ∨ ∃ q ∈ m.agent.jobs,
      settle m.agent.session (m.agent.sequence + 1) t (hostOf m.agent t) q = p :=
  (List.mem_append.mp hp).imp id mem_settled

theorem Good.prepared (h : Good m) (le : m.agentClock ≤ t.now) : Good (prepared m t) := by
  have rep_seq : (prepare m.agent t).2.sequence = m.agent.sequence + 1 := rfl
  -- each receipt is an old one, or a completed observation, or belongs to another action
  have entries : ∀ p ∈ (LossyReports.prepared m t).issued, collects p.action →
      p ∈ m.issued ∨ ∃ q ∈ m.issued, collects q.action ∧
        completes t (hostOf m.agent t) q.receipt ∧
        p = { q with
          receipt := completedReceipt m.agent.session (m.agent.sequence + 1) t q.receipt } := by
    intro p hp asked
    obtain old | ⟨q, hq, rfl⟩ := prepared_issued m t hp
    · exact .inl old
    · have wanted : collects q.action := asked
      obtain same | ⟨done, same⟩ :=
        settle_observation m.agent.session (m.agent.sequence + 1) t (hostOf m.agent t) wanted
      · rw [same]
        exact .inl (h.held q hq)
      · exact .inr ⟨q, h.held q hq, wanted, done, same⟩
  have sub : ∀ rep ∈ m.reports, rep ∈ (LossyReports.prepared m t).reports :=
    fun rep hrep => List.mem_append_left _ hrep
  constructor
  case sound =>
    refine h.sound.extend rfl rfl sub (fun p hp => ?_) fun p hp ok asked j hj hid i hi agent named => ?_
    · obtain old | ⟨q, hq, rfl⟩ := prepared_issued m t hp
      · exact h.sound.known p old
      · obtain ⟨j, hj, hid, agent, action, op⟩ := h.sound.known q (h.held q hq)
        refine ⟨j, hj, hid.trans (settle_jobId _ _ t _ q).symm, agent, action, fun asked => ?_⟩
        obtain same | ⟨-, same⟩ :=
          settle_observation m.agent.session (m.agent.sequence + 1) t (hostOf m.agent t) (p := q) asked
        · rw [same]
          exact op asked
        · rw [same]
          exact op asked
    · obtain old | ⟨q, hq, -, -, rfl⟩ := entries p hp asked
      · exact h.sound.inTime p old ok asked j hj hid i hi agent named
      · -- nothing with the new sequence is committed yet
        simp only [names, completedReceipt, Fields.get, Value.text, Bool.and_eq_true,
          beq_iff_eq] at named
        have session : i.sessionId = m.agent.session := by simpa using named.1
        obtain ⟨rep, hrep, row⟩ := h.sound.committed i hi agent session
        have old := h.recent rep hrep
        have seq : i.seq = m.agent.sequence + 1 := by simpa using named.2
        rw [← row.sequence, seq] at old
        omega
  case numbered =>
    refine ⟨?_, ?_, ?_⟩
    · intro rep hrep
      obtain hrep | hrep := List.mem_append.mp hrep
      · exact h.numbered.agent rep hrep
      · rw [List.mem_singleton.mp hrep]
        rfl
    · intro rep hrep
      obtain hrep | hrep := List.mem_append.mp hrep
      · exact h.numbered.session rep hrep
      · rw [List.mem_singleton.mp hrep]
        rfl
    · intro a ha b hb same
      obtain ha | ha := List.mem_append.mp ha <;> obtain hb | hb := List.mem_append.mp hb
      · exact h.numbered.distinct a ha b hb same
      · have old := h.recent a ha
        rw [same, List.mem_singleton.mp hb, rep_seq] at old
        omega
      · have old := h.recent b hb
        rw [← same, List.mem_singleton.mp ha, rep_seq] at old
        omega
      · rw [List.mem_singleton.mp ha, List.mem_singleton.mp hb]
  case recent =>
    intro rep hrep
    obtain hrep | hrep := List.mem_append.mp hrep
    · have old := h.recent rep hrep
      change rep.sequence ≤ m.agent.sequence + 1
      omega
    · rw [List.mem_singleton.mp hrep]
      exact le_rfl
  case formed =>
    intro p hp asked
    obtain old | ⟨q, hq, wanted, done, rfl⟩ := entries p hp asked
    · exact (h.formed p old asked).more sub le
    · exact completed_formed (h.formed q hq wanted) le done
  case held => exact fun p hp => List.mem_append_right _ hp
  case sent =>
    intro rep hrep r hr
    obtain hrep | hrep := List.mem_append.mp hrep
    · obtain ⟨p, hp, same⟩ := h.sent rep hrep r hr
      exact ⟨p, List.mem_append_left _ hp, same⟩
    · rw [List.mem_singleton.mp hrep] at hr
      change r ∈ (if t.saved then _ else _) at hr
      split at hr
      · obtain ⟨p, hp, same⟩ := mem_receiptBatch hr
        exact ⟨p, List.mem_append_right _ hp, same⟩
      · cases hr
  case spooled => exact fun rep hrep => sub rep (h.spooled rep hrep)
  case flying =>
    intro rep hrep
    obtain ⟨r, hr, copy⟩ := h.flying rep hrep
    exact ⟨r, sub r hr, copy⟩

def HandedOut (s : Store) (agent : String) (env : JobEnvelope) : Prop :=
  ∃ j ∈ s.jobs, j.jobId = env.jobId ∧ j.agentId = agent ∧ j.action = env.action ∧
    j.operationId = env.operationId

theorem claimPending_handedOut {agent : String} {limit : Int} {expireNow tickNow : Time}
    {authority : JobEnvelope → Except StoreError Bool} {jobs : List JobEnvelope}
    (h : claimPending s agent limit expireNow tickNow now authority = (s', .ok jobs))
    {env : JobEnvelope} (he : env ∈ jobs) : HandedOut s' agent env := by
  have whole : claimPendingJobs s agent limit expireNow tickNow now authority = (s', jobs) := by
    unfold claimPendingJobs
    rw [h]
  obtain same | ⟨v, out, hv, same⟩ :=
    claimPendingJobs_cases s agent limit expireNow tickNow now authority
  · rw [whole] at same
    cases same
    cases he
  · rw [whole] at same
    cases same
    obtain ⟨j, hj, selected, intact', rfl⟩ := claimJobs_mem hv he
    obtain ⟨e⟩ := claimJobs_steps (p := CollectionEvidence.quiet) (fun _ => trivial) hv
    obtain ⟨key, jobId, action⟩ := e.job_keeps j
    simp only [intact, selectable, Bool.and_eq_true, beq_iff_eq] at intact' selected
    exact ⟨e.job j, e.mem_jobs.mpr ⟨j, hj, rfl⟩, jobId.trans intact'.1.1.1.1.symm,
      (congrArg Prod.snd key).trans selected.1.1.1, action.trans intact'.1.1.2.symm,
      (congrArg Prod.fst key).trans intact'.1.1.1.2.symm⟩

theorem poll_handedOut {accepted : AcceptedReport} {acks : List String}
    (h : poll controller s rep accepted acks x = (s', some r)) : ∀ env ∈ r.jobs, HandedOut s' rep.agentId env := by
  intro env he
  unfold poll at h
  split at h
  · cases h
  split at h
  · cases h
    cases he
  split at h
  · cases h
  split at h
  · cases h
    cases he
  split at h
  · cases h
  · rename_i claimed
    cases h
    exact claimPending_handedOut claimed he

theorem handleReport_handedOut (h : handleReport c controller s rep x = (s', some r)) :
    ∀ env ∈ r.jobs, HandedOut s' rep.agentId env := by
  unfold handleReport at h
  split at h
  · cases h
  split at h
  · cases h
  dsimp only at h
  split at h
  · cases h
    exact fun env he => absurd he List.not_mem_nil
  · exact poll_handedOut h

theorem answer_formed (reports : List AgentReport) {h : Handling}
    {job : JobEnvelope} (asked : collects job.action) (le : h.now ≤ now) :
    Formed reports now ⟨job.action, answer a controller h job⟩ ∧
      (answer a controller h job).operationId = job.operationId ∧ (answer a controller h job).status ≠ .succeeded := by
  have plain : ∀ r : JobReceipt, r.acceptedAt = some h.now → r.stage ≠ "unverified_result" →
      (r.status = .rejected ∨ r.status = .expired) →
      Formed reports now ⟨job.action, r⟩ ∧ r.status ≠ .succeeded := by
    intro r accepted stage status
    refine ⟨⟨⟨_, accepted, le⟩, stage, ?_, ?_, ?_⟩, ?_⟩ <;>
      rcases status with status | status <;> simp [status, TargetStatus.workerReported]
  have waiting : ∀ r : JobReceipt, r.acceptedAt = some h.now → r.status = .accepted →
      r.stage = (if job.action = .agentCollectNow then "collect_pending" else "discover_pending") →
      Formed reports now ⟨job.action, r⟩ ∧ r.status ≠ .succeeded := by
    intro r accepted status stage
    refine ⟨⟨⟨_, accepted, le⟩, ?_, by simp [status, TargetStatus.workerReported], fun _ => stage,
      fun bad => by simp [status] at bad⟩, by simp [status]⟩
    rw [stage]
    split <;> decide
  rw [and_left_comm]
  unfold answer
  split
  · exact ⟨rfl, plain _ rfl (by simp [newReceipt]) (.inl rfl)⟩
  split
  · exact ⟨rfl, plain _ rfl (by simp [newReceipt]) (.inr rfl)⟩
  split
  · rename_i action
    exact ⟨rfl, waiting _ rfl rfl (by simp [action])⟩
  · rename_i action
    split
    · exact ⟨rfl, plain _ rfl (by simp [newReceipt]) (.inl rfl)⟩
    · exact ⟨rfl, waiting _ rfl rfl (by simp [action])⟩
  · rename_i other other'
    revert asked other other'
    cases job.action <;> simp [collects]

theorem Good.hold (h : Good m) (done : Time) (same : SameWorker m.agent a) (le : m.agentClock ≤ done)
    (entries : ∀ p ∈ a.jobs, p ∈ m.issued ∨ ∃ job b controller x, x.now ≤ done ∧
    HandedOut m.store m.agent.agentId job ∧ p = ⟨job.action, answer b controller x job⟩) : Good (hold m a done) := by
  have all : ∀ p ∈ (LossyReports.hold m a done).issued, p ∈ m.issued ∨
      ∃ job b controller x, x.now ≤ done ∧ HandedOut m.store m.agent.agentId job ∧
        p = ⟨job.action, answer b controller x job⟩ :=
    fun p hp => (List.mem_append.mp hp).elim .inl (entries p)
  constructor
  case sound =>
    refine h.sound.extend same.agentId same.session (fun _ hrep => hrep) (fun p hp => ?_)
      fun p hp ok asked => ?_
    · obtain old | ⟨job, b, controller, x, before, ⟨j, hj, hid, agent, action, op⟩, rfl⟩ := all p hp
      · exact h.sound.known p old
      · refine ⟨j, hj, hid.trans (answer_jobId b controller x job).symm, agent, action, fun asked => ?_⟩
        exact op.trans (answer_formed [] asked before).2.1.symm
    · obtain old | ⟨job, b, controller, x, before, -, rfl⟩ := all p hp
      · exact h.sound.inTime p old ok asked
      · exact absurd ok (answer_formed [] asked before).2.2
  case numbered =>
    refine ⟨fun rep hrep => ?_, fun rep hrep => ?_, h.numbered.distinct⟩
    · exact (h.numbered.agent rep hrep).trans same.agentId.symm
    · exact (h.numbered.session rep hrep).trans same.session.symm
  case recent =>
    intro rep hrep
    change rep.sequence ≤ a.sequence
    rw [same.sequence]
    exact h.recent rep hrep
  case formed =>
    intro p hp asked
    obtain old | ⟨job, b, controller, x, before, -, rfl⟩ := all p hp
    · exact (h.formed p old asked).more (fun _ hrep => hrep) le
    · exact (answer_formed _ asked before).1
  case held => exact fun p hp => List.mem_append_right _ hp
  case sent =>
    intro rep hrep r hr
    obtain ⟨p, hp, eq⟩ := h.sent rep hrep r hr
    exact ⟨p, List.mem_append_left _ hp, eq⟩
  case spooled =>
    intro rep hrep
    change rep ∈ a.spool at hrep
    rw [same.spool] at hrep
    exact h.spooled rep hrep
  case flying => exact h.flying

structure Sent (m m' : Machine) : Prop where
  good : Good m'
  agent : m'.agent = m.agent
  reports : m'.reports = m.reports
  issued : m'.issued = m.issued
  agentClock : m'.agentClock = m.agentClock

theorem Good.send (h : Good m) (rep : AgentReport) {d : Delivery} {ds : List Delivery}
    (own : rep.agentId = m.agent.agentId) (copy : (history m).Copy rep)
    (ordered : Ordered m.clock (d :: ds)) (ok : d.backed k.codec m.store rep)
    {m' : Machine} {r : Option ControlResponse} (hs : send k m rep d = (m', r)) : Sent m m' ∧ Ordered m'.clock ds ∧
      ∀ resp, r = some resp → ∀ env ∈ resp.jobs, HandedOut m'.store m.agent.agentId env := by
  cases d with
  | lost =>
    cases hs
    exact ⟨⟨h.lose copy, rfl, rfl, rfl, rfl⟩, ordered, fun resp none => by cases none⟩
  | answered x =>
    cases hs
    refine ⟨⟨h.serve ordered.1 fun _ => ⟨copy, ok⟩, rfl, rfl, rfl, rfl⟩, ordered.2, ?_⟩
    intro resp some' env he
    rw [← own]
    have answered := (Option.filter_eq_some_iff.mp some').1
    exact handleReport_handedOut (Prod.ext rfl answered) env he

theorem backfill_backed (c : Codec) (s : Store) (rep : AgentReport) (d : Delivery) :
    d.backed c s { rep with isLive := false } := by
  cases d <;> simp [Delivery.backed, backed]

theorem Good.drain (h : Good m) {items : List AgentReport} {ds : List (Delivery × Bool)}
    (built : ∀ rep ∈ items, rep ∈ m.reports) (ordered : Ordered m.clock (ds.map Prod.fst)) :
    Good (drain k items ds m) := by
  induction items generalizing ds m with
  | nil => exact h
  | cons it items ih =>
    cases ds with
    | nil => exact h
    | cons d ds =>
      unfold LossyReports.drain
      have hit := built it (by simp)
      have sent := fun m' r => @Good.send k m h { it with isLive := false } _ _ (h.numbered.agent it hit) ⟨it, hit, .inr rfl⟩ ordered
        (backfill_backed _ _ it d.1) m' r
      split
      · rename_i m' hs
        exact (sent m' none hs).1.good
      · rename_i m' r hs
        obtain ⟨sent, rest, -⟩ := sent m' (some r) hs
        split
        · refine ih (sent.good.withSpool _ fun rep hrep => ?_) (fun rep hrep => ?_) rest
          · exact sent.good.spooled rep (List.mem_of_mem_filter hrep)
          · change rep ∈ m'.reports
            rw [sent.reports]
            exact built rep (by simp [hrep])
        · exact sent.good

theorem Good.wait (h : Good m) {done : Time} (le : m.agentClock ≤ done) : Good { m with agentClock := done } :=
  { h with formed := fun p hp asked => (h.formed p hp asked).more (fun _ hrep => hrep) le }

theorem Good.tick (h : Good m) {o : Outcome} (timely : Timely m (.tick t o))
    (ok : o.live.backed k.codec m.store (prepare m.agent t).2) : Good (tick k m t o) := by
  obtain ⟨start, finish, handled, ordered⟩ := timely
  have ready := h.prepared start
  have listed : (prepare m.agent t).2 ∈ (LossyReports.prepared m t).reports :=
    List.mem_append_right _ (List.mem_singleton.mpr rfl)
  have sent := fun m' r => @Good.send k _ ready (prepare m.agent t).2 _ _
    rfl ⟨_, listed, .inl rfl⟩ ordered ok m' r
  unfold LossyReports.tick
  dsimp only
  split
  · rename_i m' hs
    obtain ⟨sent, -, -⟩ := sent m' none hs
    refine (sent.good.withSpool _ fun rep hrep => ?_).wait ?_
    · obtain hrep | rfl := mem_push hrep
      · exact sent.good.spooled rep hrep
      · rw [sent.reports]
        exact listed
    · change m'.agentClock ≤ o.done
      rw [sent.agentClock]
      exact finish
  · rename_i m' r hs
    obtain ⟨sent, rest, jobs⟩ := sent m' (some r) hs
    obtain ⟨same, entries⟩ :=
      applyControl_spec m'.agent (prepare m.agent t).2.jobReceipts r o.control
    have controlled := sent.good.hold o.done same
      (by rw [sent.agentClock]; exact finish) fun p hp => by
        obtain old | ⟨job, hjob, b, rfl⟩ := entries p hp
        · exact .inl (sent.good.held p old)
        · refine .inr ⟨job, b, _, _, handled job, ?_, rfl⟩
          rw [sent.agent]
          exact jobs r rfl job hjob
    have trimmed := controlled.withSpool
      ((applyControl m'.agent (prepare m.agent t).2.jobReceipts r o.control).spool.drop o.retired)
      fun rep hrep => controlled.spooled rep (List.mem_of_mem_drop hrep)
    exact trimmed.drain (fun rep hrep => trimmed.spooled rep (mem_listLimit hrep)) rest

theorem Good.quiet (h : Good m) (he : Steps CollectionEvidence.quiet m.store s') (hk : Keeps m.store s') :
    Good { m with store := s' } :=
  { h with sound := h.sound.quiet he hk }

theorem Good.step (h : Good m) (e : Event) (timely : Timely m e) (ok : inOrder k m e) : Good (step k m e) := by
  cases e with
  | tick t o => exact h.tick timely ok
  | late rep x =>
    change Good (if rep ∈ m.inFlight then _ else m)
    split
    · rename_i flying
      have fewer : Good { m with inFlight := m.inFlight.erase rep } :=
        { h with flying := fun r hr => h.flying r (List.mem_of_mem_erase hr) }
      exact fewer.serve timely fun _ => ⟨h.flying rep flying, ok⟩
    · exact h
  | submit op =>
    refine { h with sound := commit_invariant (Sound (history m) op.createdAt) ?_ fun u hu => ?_ }
    · exact h.sound.later timely
    · obtain ⟨v, inserted, ⟨-, rfl⟩ | ⟨model, none, -⟩⟩ := insertOperation_ok hu
      · exact h.sound.inserted inserted timely
      · cases none
  | cancel op =>
    refine { h with sound := commit_invariant (Sound (history m) m.clock) h.sound fun u hu => ?_ }
    exact h.sound.quiet (cancelPending_steps h.sound.linked h.sound.inStep hu) (keeps_of_writes (cancelPending_writes trivial hu))
  | expire now =>
    refine { h with sound := commit_invariant (Sound (history m) m.clock) h.sound fun u hu => ?_ }
    exact h.sound.quiet (expireAndBlockJobs_steps h.sound.linked hu) (keeps_of_writes (expireAndBlockJobs_writes hu))
  | advance expireNow now =>
    exact h.quiet (advanceRollouts_steps (fun _ => trivial) h.sound.linked expireNow now)
      (keeps_of_writes (advanceRollouts_writes trivial m.store expireNow now))
  | other rep x =>
    change Good (if rep.agentId = m.agent.agentId then m else _)
    split
    · exact h
    · rename_i foreign
      exact h.serve timely fun same => absurd same foreign
  | world agents secrets publications services =>
    exact h.quiet (evolves_of_eq rfl rfl rfl) (.of_eq rfl rfl rfl)

def initial (k : Parties) (agentId session : String) (agentClock clock : Time) : Machine :=
  { agent := ⟨agentId, k.controller, session, 0, false, .empty, "", []⟩
    store := Store.empty, inFlight := [], agentClock, clock, reports := [], issued := [] }

theorem initial_good (k : Parties) (agentId session : String) (agentClock clock : Time) :
    Good (initial k agentId session agentClock clock) where
  sound := Sound.empty _ rfl clock
  numbered := by constructor <;> intro rep hrep <;> cases hrep
  recent := fun rep hrep => absurd hrep List.not_mem_nil
  formed := fun p hp => absurd hp List.not_mem_nil
  held := fun p hp => absurd hp (Table.not_mem_empty p)
  sent := fun rep hrep => absurd hrep List.not_mem_nil
  spooled := fun rep hrep => absurd hrep List.not_mem_nil
  flying := fun rep hrep => absurd hrep List.not_mem_nil

theorem run_good {events : List Event} (h : Good m)
    (ok : Meets (LossyReports.step k) (fun m e => Timely m e ∧ inOrder k m e) m events) :
    Good (run (LossyReports.step k) m events) :=
  run_invariant Good (fun _ e h ok => h.step e ok.1 ok.2) h ok

def ReportCommitted (s : Store) (agent : String) (r : JobReceipt) : Prop :=
  ∃ i ∈ s.ingests, i.agentId = agent ∧ names r i.sessionId i.seq

def Succeeded (t : TargetRow) (j : JobRow) : Prop :=
  t.status = .succeeded ∧ j.status = .of .succeeded

theorem Good.records (h : Good m) (hp : p ∈ m.issued) (asked : collects p.action)
    (ok : p.receipt.status = .succeeded) {t : TargetRow} {j : JobRow} (pair : Paired m.store t j)
    (hid : j.jobId = p.receipt.jobId) (committed : ReportCommitted m.store m.agent.agentId p.receipt)
    (unsettled : j.status.terminal = false) (spark : SparkAnswers) :
    ∃ s', applyReceipt m.store m.agent.agentId p.receipt spark = .ok s' ∧
      ∃ t' j', Paired s' t' j' ∧ j'.jobId = j.jobId ∧ Succeeded t' j' := by
  obtain ⟨k, hk, kid, agent, action, op⟩ := h.sound.known p hp
  have same : k = j := m.store.jobs.eq_of_key hk pair.2.1 (kid.trans hid.symm)
  subst same
  have wanted : (history m).asks k := ⟨agent, by rw [action]; exact asked⟩
  have form := h.formed p hp asked
  have plain : k.action.isModel = false := by
    rw [action]
    revert asked
    cases p.action <;> simp [collects, Action.isModel]
  have unrecorded : k.result ≠ some p.receipt := by
    intro result
    have done := h.sound.recorded t k pair wanted _ result ok
    rw [Prod.mk.injEq] at done
    rw [done.2] at unsettled
    cases unsettled
  obtain ⟨s', applied, recorded⟩ := applyReceipt_open h.sound.linked spark hk hid agent (op asked)
    form.reported (by rw [ok]; rfl) plain (h.sound.published k hk wanted) unsettled unrecorded
  have next := h.sound.applyReceipt applied fun j hj hid _ asks =>
    h.sound.judged h.numbered hp (h.formed p hp) (fun _ _ => committed) hj hid asks spark
  refine ⟨s', applied, ?_⟩
  obtain ⟨j', hj', jid, agent', action', -⟩ := next.known p hp
  obtain ⟨t', ht', key, -⟩ := next.linked.target j' hj'
  refine ⟨t', j', ⟨ht', hj', key⟩, jid.trans hid.symm, ?_⟩
  obtain ⟨-, other⟩ | ⟨t₀, -, -, written⟩ :=
    recordReceipt_pair h.sound.linked hk agent recorded ⟨ht', hj', key⟩
  · exact absurd (jid.trans hid.symm) other
  · have done := next.recorded t' j' ⟨ht', hj', key⟩ ⟨agent', by rw [action']; exact asked⟩
      p.receipt (by rw [written]) ok
    rw [Prod.mk.injEq] at done
    exact done

def parties : Parties := ⟨⟨AgentReport.rest, id⟩, fun key => key.2.1, "c1"⟩

def enrolled : AgentRow :=
  ⟨"a1", false, false, true, "general", "linux", "amd64", true, "", "", none, 0, "", 0, "h1", 0, 0⟩

def collectNow : NewOperation :=
  { id := "op1", action := .agentCollectNow, actor := "owner", clientRequestKey := "k1"
    requestHash := "h1", createdAt := second, deadline := none, params := []
    targets := [(⟨"a1", .queued, "queued", "", false⟩, "j1")] }

def requestAt (now : Time) : Request :=
  { authorized := true, call := ⟨now, now, now, true, true, true, true, true, none⟩
    spark := fun _ => ⟨false, false, false⟩, updatedAt := fun _ => 0, now
    configReadable := true, restoreMode := false, expireNow := now, tickNow := now, claimNow := now
    authority := fun _ => .ok true }

def tickAt (now : Time) : Tick :=
  { now, reportedAt := now, snapshot := some ⟨"linux", "amd64", ""⟩, discovery := none, checks := []
    configRevision := 0, configHash := "", endpointGeneration := 0, workerDigest := ""
    managedReady := true, rest := "", reconciled := id, saved := true }

def outcomeAt (now : Time) (live : Delivery) (drained : List (Delivery × Bool)) : Outcome :=
  { live, control := ⟨none, true, fun _ => ⟨now, false, true, fun job => newReceipt job now⟩⟩
    written := true, retired := 0, drained, done := now }

def completedUnanswered : List Event :=
  [.world ⟨[enrolled], by simp⟩ .empty .empty .empty, .submit collectNow,
    .tick (tickAt (2 * second)) (outcomeAt (2 * second) (.answered (requestAt (2 * second))) []),
    .tick (tickAt (7 * second)) (outcomeAt (7 * second) .lost [])]

def start : Machine := initial parties "a1" "s1" 0 0

def secondReport : AgentReport := (prepare (run (step parties) start (completedUnanswered.take 3)).agent
  (tickAt (7 * second))).2

def lostAnswer : List Event :=
  completedUnanswered ++ [.late secondReport (requestAt (8 * second)),
    .tick (tickAt (12 * second)) (outcomeAt (12 * second) (.answered (requestAt (12 * second)))
      [(.answered (requestAt (12 * second)), true)])]

def lostRequest : List Event :=
  completedUnanswered ++ [.tick (tickAt (12 * second)) (outcomeAt (12 * second)
    (.answered (requestAt (12 * second))) [(.answered (requestAt (12 * second)), true)])]

def completion : Pending := ⟨.agentCollectNow, completedReceipt "s1" 2 (tickAt (7 * second))
  ⟨"j1", "op1", .accepted, "collect_pending", "waiting for a fresh measurement", "", false, [],
    some (2 * second), none, none⟩⟩

/-- While no completion receipt overtakes the report it names, a completed observation is never recorded as
unverified, and is a success once the named report is committed. -/
theorem success_survives_loss (k : Parties) (agentId session : String) (agentClock clock : Time)
    (events : List Event)
    (ok : Meets (step k) (fun m e => Timely m e ∧ inOrder k m e)
      (initial k agentId session agentClock clock) events) :
    let m := run (step k) (initial k agentId session agentClock clock) events
    ∀ p ∈ m.issued, collects p.action → p.receipt.status = .succeeded →
      ∃ t j, Paired m.store t j ∧ j.jobId = p.receipt.jobId ∧
        ¬(t.status = .rejected ∧ t.stage = "unverified_result") ∧
        (j.result = some p.receipt → Succeeded t j) ∧
        (ReportCommitted m.store m.agent.agentId p.receipt → j.status.terminal = false →
          ∀ spark, ∃ s', applyReceipt m.store m.agent.agentId p.receipt spark = .ok s' ∧
            ∃ t' j', Paired s' t' j' ∧ j'.jobId = j.jobId ∧ Succeeded t' j') := by
  intro m p hp asked done
  have good : Good m := run_good (initial_good k agentId session agentClock clock) ok
  obtain ⟨j, hj, hid, agent, action, -⟩ := good.sound.known p hp
  obtain ⟨t, ht, key, -⟩ := good.sound.linked.target j hj
  have pair : Paired m.store t j := ⟨ht, hj, key⟩
  have wanted : (history m).asks j := ⟨agent, by rw [action]; exact asked⟩
  refine ⟨t, j, pair, hid, good.sound.verified t j pair wanted, fun result => ?_, ?_⟩
  · have statuses := good.sound.recorded t j pair wanted p.receipt result done
    rw [Prod.mk.injEq] at statuses
    exact statuses
  · exact fun committed unsettled spark =>
      good.records hp asked done pair hid committed unsettled spark

theorem success_survives_loss_unanswered :
    let m := run (step parties) start lostAnswer
    completion ∈ m.issued ∧ ∃ t j, Paired m.store t j ∧ j.jobId = "j1" ∧ Succeeded t j := by
  have answered : ∀ now : Time, Ordered now [.answered (requestAt now)] := fun _ => ⟨le_rfl, trivial⟩
  have ok : Meets (step parties) (fun m e => Timely m e ∧ inOrder parties m e) start lostAnswer := by
    refine ⟨⟨trivial, rfl⟩, ⟨by unfold Timely; decide, rfl⟩,
      ⟨⟨by decide, le_rfl, fun _ => le_rfl, by decide, trivial⟩, by decide⟩,
      ⟨⟨by decide, le_rfl, fun _ => le_rfl, trivial⟩, rfl⟩,
      ⟨by unfold Timely; decide, by decide⟩,
      ⟨⟨by decide, le_rfl, fun _ => le_rfl, by decide, answered _⟩, by decide⟩, trivial⟩
  have held : completion ∈ (run (step parties) start lostAnswer).issued := by decide
  obtain ⟨t, j, pair, hid, -, recorded, -⟩ :=
    success_survives_loss parties "a1" "s1" 0 0 lostAnswer ok completion held rfl rfl
  have only : ∀ k ∈ (run (step parties) start lostAnswer).store.jobs, k.result = some completion.receipt := by
    decide
  exact ⟨held, t, j, pair, hid, recorded (only j pair.2.1)⟩

theorem unverified_after_loss :
    let m := run (step parties) start lostRequest
    completion ∈ m.issued ∧ completion.receipt.status = .succeeded ∧
      ∃ t j, Paired m.store t j ∧ j.jobId = completion.receipt.jobId ∧
        j.result = some completion.receipt ∧
        ReportCommitted m.store m.agent.agentId completion.receipt ∧
        t.status = .rejected ∧ t.stage = "unverified_result" ∧ j.status = .of .rejected := by
  refine ⟨by decide, by decide, _, _, ⟨List.mem_cons_self .., List.mem_cons_self .., by decide⟩,
    by decide, by decide, ⟨_, List.mem_cons_of_mem _ (List.mem_cons_of_mem _ (List.mem_cons_self ..)), by decide, by decide⟩, by decide, by decide, by decide⟩
end Monik.LossyReports
