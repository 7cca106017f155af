import Monik.ReportHandler
import Monik.ResultSteps

/-! What the tables hold about the observations a worker was asked for, and that a recorded success
of `agent.collect_now` or `agent.discover_now` stays one. -/

namespace Monik.CollectionEvidence
open Protocol Tables ControllerStore Operations JobEvolution JobSteps Rollouts RolloutSteps
open StoreWrites SubmissionSteps ResultSteps Ingestion AgentRuntime ReportHandler

variable {t' : TargetRow} {j' j : JobRow} {agent : String} {r outcome : JobReceipt} {spark : SparkAnswers}
    {p : Pending} {now : Time} {reports reports' : List AgentReport}

def names (r : JobReceipt) (session : String) (seq : Int) : Bool :=
  session == (r.evidence.get "session_id").text && .int seq == r.evidence.get "sequence"

structure Commits (i : IngestRow) (rep : AgentReport) : Prop where
  sequence : i.seq = rep.sequence
  observed : i.observedAt = rep.observedAt
  host : i.hasHost = rep.host.isSome
  discovery : i.hasDiscovery = rep.discovery.isSome

/-- A report observed after the job was accepted carries what the action asks for. -/
def Observed (reports : List AgentReport) (p : Pending) : Prop :=
  ∃ rep ∈ reports, names p.receipt rep.sessionId rep.sequence ∧
    (∃ accepted, p.receipt.acceptedAt = some accepted ∧ accepted ≤ rep.observedAt) ∧
    (if p.action = .agentCollectNow then rep.host.isSome else rep.discovery.isSome)

structure History where
  agentId : String
  session : String
  reports : List AgentReport
  issued : List Pending

def History.asks (w : History) (j : JobRow) : Prop := j.agentId = w.agentId ∧ collects j.action

/-- What holds of the controller's tables while `clock` is its last clock reading. -/
structure Sound (w : History) (clock : Time) (s : Store) : Prop where
  linked : Linked s
  inStep : PairInv InStep s
  created : ∀ j ∈ s.jobs, j.createdAt ≤ clock
  committed : ∀ i ∈ s.ingests, i.agentId = w.agentId → i.sessionId = w.session →
    ∃ rep ∈ w.reports, Commits i rep
  known : ∀ p ∈ w.issued, ∃ j ∈ s.jobs, j.jobId = p.jobId ∧ j.agentId = w.agentId ∧
    j.action = p.action ∧ (collects p.action → j.operationId = p.receipt.operationId)
  inTime : ∀ p ∈ w.issued, p.receipt.status = .succeeded → collects p.action →
    ∀ j ∈ s.jobs, j.jobId = p.jobId → ∀ i ∈ s.ingests, i.agentId = w.agentId →
      names p.receipt i.sessionId i.seq → j.createdAt ≤ i.receivedAt
  verified : ∀ t j, Paired s t j → w.asks j → ¬Unverified t
  recorded : ∀ t j, Paired s t j → w.asks j → ∀ r, j.result = some r → r.status = .succeeded →
    (t.status, j.status) = (.succeeded, .of .succeeded)
  published : ∀ j ∈ s.jobs, w.asks j → j.status ≠ .preparing ∧ j.status ≠ .rolloutHeld

variable {w w' : History} {clock clock' : Time} {s s' : Store}

theorem Sound.empty (w : History) (nothing : w.issued = []) (clock : Time) : Sound w clock Store.empty where
  linked := Linked.empty
  inStep := fun t _ hp => absurd hp.1 (Table.not_mem_empty t)
  created := fun j hj => absurd hj (Table.not_mem_empty j)
  committed := fun i hi => absurd hi (Table.not_mem_empty i)
  known := fun p hp => by rw [nothing] at hp; cases hp
  inTime := fun p hp => by rw [nothing] at hp; cases hp
  verified := fun t _ hp => absurd hp.1 (Table.not_mem_empty t)
  recorded := fun t _ hp => absurd hp.1 (Table.not_mem_empty t)
  published := fun j hj => absurd hj (Table.not_mem_empty j)

def quiet : Permits := ⟨fun _ => True, fun _ => True, fun _ => False⟩

theorem Move.published {p : Permits} {key : String × String} {a b : Statuses} (h : Move p key a b)
    (ha : a.2 ≠ .preparing ∧ a.2 ≠ .rolloutHeld) : b.2 ≠ .preparing ∧ b.2 ≠ .rolloutHeld := by
  cases h with
  | hold => exact absurd rfl ha.1
  | note => exact ha
  | close => exact ha
  | _ => exact ⟨by simp, by simp⟩

theorem quiet_pair (he : Steps quiet s s') (hk : Keeps s s') (hp' : Paired s' t' j') :
    ∃ t j, Paired s t j ∧ j.jobId = j'.jobId ∧ j.key = j'.key ∧ j.action = j'.action ∧
      j.result = j'.result ∧ (Unverified t' → Unverified t) ∧
      Relation.ReflTransGen (Move quiet j.key) (t.status, j.status) (t'.status, j'.status) := by
  obtain ⟨e⟩ := he
  obtain ⟨t, j, hp, rfl, rfl⟩ := e.of_paired hp'
  obtain ⟨key, jobId, action⟩ := e.job_keeps j
  obtain ⟨k, hkj, hid, -, result⟩ := hk.jobs _ hp'.2.1
  obtain ⟨u, hu, ukey, back⟩ := hk.targets _ hp'.1
  have sameJob : k = j := s.jobs.eq_of_key hkj hp.2.1 (hid.trans jobId)
  have sameTarget : u = t := s.targets.eq_of_key hu hp.1 (ukey.trans (e.target_keeps t).1)
  subst sameJob sameTarget
  exact ⟨u, k, hp, jobId.symm, key.symm, action.symm, result, back, e.moves u k hp⟩

theorem History.asks_congr (key : j.key = j'.key) (action : j.action = j'.action) (h : w.asks j') : w.asks j := by
  have agent : j.agentId = j'.agentId := congrArg Prod.snd key
  exact ⟨agent.trans h.1, by rw [action]; exact h.2⟩

theorem Sound.quiet (h : Sound w clock s) (he : Steps quiet s s') (hk : Keeps s s') : Sound w clock s' where
  linked := he.linked h.linked
  inStep := he.pairInv (fun _ _ _ m => m.inStep) h.inStep
  created := by
    intro j' hj'
    obtain ⟨j, hj, -, created, -⟩ := hk.jobs j' hj'
    rw [← created]
    exact h.created j hj
  committed := by
    rw [hk.ingests]
    exact h.committed
  known := by
    intro p hp
    obtain ⟨j, hj, hid, agent, action, op⟩ := h.known p hp
    obtain ⟨e⟩ := he
    obtain ⟨key, jobId, same⟩ := e.job_keeps j
    refine ⟨e.job j, e.mem_jobs.mpr ⟨j, hj, rfl⟩, jobId.trans hid,
      (congrArg Prod.snd key).trans agent, same.trans action, fun c => ?_⟩
    exact (congrArg Prod.fst key).trans (op c)
  inTime := by
    intro p hp ok c j' hj' hid i hi
    obtain ⟨j, hj, same, created, -⟩ := hk.jobs j' hj'
    rw [hk.ingests] at hi
    rw [← created]
    exact h.inTime p hp ok c j hj (same.trans hid) i hi
  verified := by
    intro t' j' hp' asked bad
    obtain ⟨t, j, hp, -, key, action, -, back, -⟩ := quiet_pair he hk hp'
    exact h.verified t j hp (History.asks_congr key action asked) (back bad)
  recorded := by
    intro t' j' hp' asked r result ok
    obtain ⟨t, j, hp, -, key, action, same, -, path⟩ := quiet_pair he hk hp'
    rw [h.recorded t j hp (History.asks_congr key action asked) r (same.trans result) ok] at path
    exact succeeded_final id path
  published := by
    intro j' hj' asked
    obtain ⟨t', ht', key', -⟩ := (he.linked h.linked).target j' hj'
    obtain ⟨t, j, hp, -, key, action, -, -, path⟩ := quiet_pair he hk ⟨ht', hj', key'⟩
    have start := h.published j hp.2.1 (History.asks_congr key action asked)
    revert path
    generalize hb : (t'.status, j'.status) = b
    intro path
    have kept : b.2 ≠ .preparing ∧ b.2 ≠ .rolloutHeld := by
      clear hb
      induction path with
      | refl => exact start
      | tail _ last ih => exact Move.published last ih
    rw [← hb] at kept
    exact kept

theorem Sound.later (h : Sound w clock s) (le : clock ≤ clock') : Sound w clock' s :=
  { h with created := fun j hj => (h.created j hj).trans le }

theorem Sound.inserted {op : NewOperation} (h : Sound w clock s) (hi : Inserted op s s')
    (le : clock ≤ op.createdAt) : Sound w op.createdAt s' where
  linked := hi.linked h.linked
  inStep := hi.inStep h.linked h.inStep
  created := by
    intro j hj
    obtain hj | ⟨x, -, -, rfl, -⟩ := hi.grown.new_jobs j hj
    · exact (h.created j hj).trans le
    · exact le_rfl
  committed := by
    rw [hi.ingests]
    exact h.committed
  known := by
    intro p hp
    obtain ⟨j, hj, same⟩ := h.known p hp
    exact ⟨j, hi.grown.old_jobs j hj, same⟩
  inTime := by
    intro p hp ok c j hj hid i hin
    rw [hi.ingests] at hin
    obtain ⟨k, hk, kid, -⟩ := h.known p hp
    -- the id of an issued receipt is taken, so the row is an old one
    have old : j = k := s'.jobs.eq_of_key hj (hi.grown.old_jobs k hk) (hid.trans kid.symm)
    rw [old]
    exact h.inTime p hp ok c k hk kid i hin
  verified := by
    intro t j hp asked
    obtain old | ⟨x, -, needs, rfl, rfl⟩ := hi.paired h.linked hp
    · exact h.verified t j old asked
    · refine not_unverified ?_
      rcases (needsJob_scope needs).2 with waits | waits <;> simp [newTarget, waits]
  recorded := by
    intro t j hp asked r result ok
    obtain old | ⟨x, -, needs, rfl, rfl⟩ := hi.paired h.linked hp
    · exact h.recorded t j old asked r result ok
    · cases result
  published := by
    intro j hj asked
    obtain hj | ⟨x, -, -, rfl, -⟩ := hi.grown.new_jobs j hj
    · exact h.published j hj asked
    · have plain : op.action.isUpdate = false := by
        have wanted : collects op.action := asked.2
        revert wanted
        cases op.action <;> simp [collects, Action.isUpdate]
      simp [newJob, newJobStatus, plain]

theorem recordReceipt_pair (hl : Linked s)
    (hj : j ∈ s.jobs) (ha : j.agentId = agent) (h : recordReceipt s agent j r outcome = .ok s') (hp' : Paired s' t' j') :
    Paired s t' j' ∧ j'.jobId ≠ j.jobId ∨ ∃ t, Paired s t j ∧ t' = (writeOf outcome).apply t ∧
        j' = { j with status := .of outcome.status, result := some r } := by
  obtain ⟨operations, rfl, -⟩ := refreshOperation_ok h
  obtain ⟨ht', hj', key⟩ := hp'
  obtain ⟨t, ht, rfl⟩ := (mem_setTargets (f := (writeOf outcome).apply) fun _ => rfl).mp ht'
  obtain ⟨k, hk, rfl⟩ := (mem_setJobs
    (f := fun k => { k with status := .of outcome.status, result := some r }) fun _ => rfl).mp hj'
  have paired : Paired s t k := by
    refine ⟨ht, hk, ?_⟩
    split at key <;> split at key <;> exact key
  have agrees := found_agrees hl hj ha t k paired
  by_cases hit : hasKey j.operationId agent t
  · have found := agrees.mpr (hasKey_iff.mp hit)
    have same : k = j := hl.same_job hk hj (by
      rw [← paired.2.2, hasKey_iff.mp hit, JobRow.key, ha])
    subst same
    rw [if_pos hit, if_pos found]
    exact .inr ⟨t, paired, rfl, rfl⟩
  · have missed : ¬(k.jobId == j.jobId && k.agentId == agent) :=
      fun found => hit (hasKey_iff.mpr (agrees.mp found))
    rw [if_neg hit, if_neg missed]
    refine .inl ⟨paired, fun same => missed ?_⟩
    rw [s.jobs.eq_of_key hk hj same]
    simp [ha]

theorem Sound.record (h : Sound w clock s)
    (hj : j ∈ s.jobs) (ha : j.agentId = agent) (he : Steps CollectionEvidence.quiet s s')
    (hr : recordReceipt s agent j r outcome = .ok s')
    (faithful : w.asks j → outcome = r ∧ ¬(r.status = .rejected ∧ r.stage = "unverified_result")) :
    Sound w clock s' := by
  have ingests : s'.ingests = s.ingests := by
    obtain ⟨operations, rfl, -⟩ := refreshOperation_ok hr
    rfl
  have linked := he.linked h.linked
  have row : ∀ j' ∈ s'.jobs, ∃ k ∈ s.jobs, k.jobId = j'.jobId ∧ k.createdAt = j'.createdAt := by
    intro j' hj'
    obtain ⟨t', ht', key, -⟩ := linked.target j' hj'
    obtain ⟨old, -⟩ | ⟨t, -, -, rfl⟩ := recordReceipt_pair h.linked hj ha hr ⟨ht', hj', key⟩
    · exact ⟨j', old.2.1, rfl, rfl⟩
    · exact ⟨j, hj, rfl, rfl⟩
  constructor
  case linked => exact linked
  case inStep => exact he.pairInv (fun _ _ _ m => m.inStep) h.inStep
  case created =>
    intro j' hj'
    obtain ⟨k, hk, -, created⟩ := row j' hj'
    rw [← created]
    exact h.created k hk
  case committed =>
    rw [ingests]
    exact h.committed
  case known =>
    intro p hp
    obtain ⟨k, hk, hid, agent, action, op⟩ := h.known p hp
    obtain ⟨e⟩ := he
    obtain ⟨key, jobId, same⟩ := e.job_keeps k
    exact ⟨e.job k, e.mem_jobs.mpr ⟨k, hk, rfl⟩, jobId.trans hid,
      (congrArg Prod.snd key).trans agent, same.trans action,
      fun c => (congrArg Prod.fst key).trans (op c)⟩
  case inTime =>
    intro p hp ok c j' hj' hid i hi
    obtain ⟨k, hk, same, created⟩ := row j' hj'
    rw [ingests] at hi
    rw [← created]
    exact h.inTime p hp ok c k hk (same.trans hid) i hi
  case verified =>
    intro t' j' hp' asked
    obtain ⟨old, -⟩ | ⟨t, -, rfl, rfl⟩ := recordReceipt_pair h.linked hj ha hr hp'
    · exact h.verified t' j' old asked
    · obtain ⟨rfl, plain⟩ := faithful asked
      exact plain
  case recorded =>
    intro t' j' hp' asked r' result ok
    obtain ⟨old, -⟩ | ⟨t, -, rfl, rfl⟩ := recordReceipt_pair h.linked hj ha hr hp'
    · exact h.recorded t' j' old asked r' result ok
    · obtain ⟨rfl, -⟩ := faithful asked
      cases result
      simp [writeOf, TargetWrite.apply, ok]
  case published =>
    intro j' hj' asked
    obtain ⟨t', ht', key, -⟩ := linked.target j' hj'
    obtain ⟨old, -⟩ | ⟨t, -, -, rfl⟩ := recordReceipt_pair h.linked hj ha hr ⟨ht', hj', key⟩
    · exact h.published j' old.2.1 asked
    · simp

theorem Sound.applyReceipt (h : Sound w clock s) (hr : applyReceipt s agent r spark = .ok s')
    (trusted : ∀ j ∈ s.jobs, j.jobId = r.jobId → j.agentId = agent → w.asks j →
    judge s agent j r spark = r ∧ ¬(r.status = .rejected ∧ r.stage = "unverified_result")) :
    Sound w clock s' := by
  obtain rfl | ⟨j, hj, hid, ha, -, -, -, recorded⟩ := applyReceipt_cases hr
  · exact h
  · exact h.record hj ha (applyReceipt_steps h.linked hr) recorded
      (trusted j hj hid ha)

theorem applyReceipt_open (hl : Linked s)
    (spark : SparkAnswers) (hj : j ∈ s.jobs) (hid : j.jobId = r.jobId) (ha : j.agentId = agent)
    (op : j.operationId = r.operationId) (reported : r.status.workerReported)
    (final : r.status.rank = 0) (plain : j.action.isModel = false)
    (published : j.status ≠ .preparing ∧ j.status ≠ .rolloutHeld)
    (unsettled : j.status.terminal = false) (new : j.result ≠ some r) :
    ∃ s', Operations.applyReceipt s agent r spark = .ok s' ∧
      recordReceipt s agent j r (judge s agent j r spark) = .ok s' := by
  have found : s.jobs.find? (fun k => k.jobId == r.jobId && k.agentId == agent) = some j := by
    cases hf : s.jobs.find? (fun k => k.jobId == r.jobId && k.agentId == agent) with
    | none =>
      have absent := Table.find?_none hf hj
      simp [hid, ha] at absent
    | some k =>
      obtain ⟨hk, same⟩ := Table.find?_some hf
      simp only [Bool.and_eq_true, beq_iff_eq] at same
      rw [s.jobs.eq_of_key hk hj (same.1.trans hid.symm)]
  have notRestart : supersededRestart s agent j = false := by
    have other : j.action ≠ .modelRestart := fun same => by simp [same, Action.isModel] at plain
    simp [supersededRestart, other]
  obtain ⟨o, ho, oid, -⟩ := hl.action j hj
  obtain ⟨s', refreshed⟩ := refreshOperation_total
    (s := (s.setJobs (fun k => k.jobId == j.jobId && k.agentId == agent)
      (fun k => { k with status := .of (judge s agent j r spark).status, result := some r })
      fun _ => rfl).setTargets (hasKey j.operationId agent)
        (writeOf (judge s agent j r spark)).apply fun _ => rfl) ho
  rw [oid] at refreshed
  have recorded : recordReceipt s agent j r (judge s agent j r spark) = .ok s' := refreshed
  refine ⟨s', ?_, recorded⟩
  rw [← recorded, Operations.applyReceipt]
  simp [reported, found, op, plain, published.1, published.2, new, notRestart, unsettled, final]

structure Formed (reports : List AgentReport) (now : Time) (p : Pending) : Prop where
  accepted : ∃ at', p.receipt.acceptedAt = some at' ∧ at' ≤ now
  stage : p.receipt.stage ≠ "unverified_result"
  reported : p.receipt.status.workerReported
  pending : p.receipt.status = .accepted →
    p.receipt.stage = if p.action = .agentCollectNow then "collect_pending" else "discover_pending"
  success : p.receipt.status = .succeeded → p.receipt.stage = "fresh_result" ∧ Observed reports p

structure Numbered (w : History) : Prop where
  agent : ∀ rep ∈ w.reports, rep.agentId = w.agentId
  session : ∀ rep ∈ w.reports, rep.sessionId = w.session
  distinct : ∀ a ∈ w.reports, ∀ b ∈ w.reports, a.sequence = b.sequence → a = b

theorem Sound.job_action (h : Sound w clock s) (hp : p ∈ w.issued) (hj : j ∈ s.jobs) (hid : j.jobId = p.jobId) :
    j.action = p.action := by
  obtain ⟨k, hk, kid, -, action, -⟩ := h.known p hp
  rw [s.jobs.eq_of_key hj hk (hid.trans kid.symm)]
  exact action

theorem Sound.proven (h : Sound w clock s) (numbered : Numbered w) (hp : p ∈ w.issued)
    (asked : collects p.action) (ok : p.receipt.status = .succeeded)
    (seen : Observed w.reports p) (hj : j ∈ s.jobs) (hid : j.jobId = p.jobId)
    (committed : ∃ i ∈ s.ingests, i.agentId = w.agentId ∧ names p.receipt i.sessionId i.seq) (spark : Bool) :
    Operations.proven s w.agentId j p.receipt spark := by
  obtain ⟨rep, hrep, named, ⟨accepted, at', before⟩, carries⟩ := seen
  have action := h.job_action hp hj hid
  obtain ⟨i, hfind, after, created, has⟩ : ∃ i, s.ingests.find? (fun i => i.agentId == w.agentId &&
      i.sessionId == (p.receipt.evidence.get "session_id").text &&
        .int i.seq == p.receipt.evidence.get "sequence") = some i ∧
      accepted ≤ i.observedAt ∧ j.createdAt ≤ i.receivedAt ∧
      (if p.action = .agentCollectNow then i.hasHost else i.hasDiscovery) := by
    cases hf : s.ingests.find? (fun i => i.agentId == w.agentId &&
        i.sessionId == (p.receipt.evidence.get "session_id").text &&
          .int i.seq == p.receipt.evidence.get "sequence") with
    | none =>
      obtain ⟨i, hi, agent, fits⟩ := committed
      have absent := Table.find?_none hf hi
      simp only [names, Bool.and_eq_true, beq_iff_eq] at fits
      simp [agent, fits.1, fits.2] at absent
    | some i =>
      obtain ⟨hi, match'⟩ := Table.find?_some hf
      simp only [names, Bool.and_eq_true, beq_iff_eq] at match' named
      have session : i.sessionId = w.session := by
        rw [match'.1.2, ← named.1, numbered.session rep hrep]
      obtain ⟨rep', hrep', row⟩ := h.committed i hi match'.1.1 session
      have sequence : rep'.sequence = rep.sequence := by
        have both := match'.2.trans named.2.symm
        rw [Value.int.injEq] at both
        rw [← row.sequence, both]
      have same := numbered.distinct rep' hrep' rep hrep sequence
      subst same
      refine ⟨i, rfl, by rw [row.observed]; exact before, ?_, ?_⟩
      · refine h.inTime p hp ok asked j hj hid i hi match'.1.1 ?_
        simp [names, match'.1.2, match'.2]
      · rw [row.host, row.discovery]
        exact carries
  unfold Operations.proven
  rw [action]
  revert asked has
  cases p.action <;> simp [collects, hfind, at', after, created]

theorem Sound.judged (h : Sound w clock s) (numbered : Numbered w)
    (hp : p ∈ w.issued) (formed : collects p.action → Formed w.reports now p)
    (backed : p.receipt.status = .succeeded → p.receipt.stage = "fresh_result" →
    ∃ i ∈ s.ingests, i.agentId = w.agentId ∧ names p.receipt i.sessionId i.seq) (hj : j ∈ s.jobs) (hid : j.jobId = p.receipt.jobId) (asked : w.asks j)
    (spark : SparkAnswers) :
    judge s w.agentId j p.receipt spark = p.receipt ∧
      ¬(p.receipt.status = .rejected ∧ p.receipt.stage = "unverified_result") := by
  have wanted : collects p.action := by
    rw [← h.job_action hp hj hid]
    exact asked.2
  have form := formed wanted
  refine ⟨if_neg ?_, fun bad => form.stage bad.2⟩
  rintro ⟨ok, unproven⟩
  obtain ⟨fresh, seen⟩ := form.success ok
  rw [h.proven numbered hp wanted ok seen hj hid (backed ok fresh)] at unproven
  cases unproven

theorem applyReceipt_frame (h : Operations.applyReceipt s agent r spark = .ok s') : s'.ingests = s.ingests := by
  obtain rfl | ⟨j, -, -, -, -, -, -, hr⟩ := applyReceipt_cases h
  · rfl
  · obtain ⟨operations, rfl, -⟩ := refreshOperation_ok hr
    rfl

structure Follows (s u : Store) : Prop where
  ingests : u.ingests = s.ingests
  jobs : ∀ k ∈ u.jobs, ∃ j ∈ s.jobs, j.jobId = k.jobId ∧ j.action = k.action

theorem Follows.refl (s : Store) : Follows s s := ⟨rfl, fun k hk => ⟨k, hk, rfl, rfl⟩⟩

theorem Follows.steps {p : Permits} {u v : Store} (h : Follows s u) (he : Steps p u v)
    (ingests : v.ingests = u.ingests) : Follows s v := by
  refine ⟨ingests.trans h.ingests, fun k' hk' => ?_⟩
  obtain ⟨e⟩ := he
  obtain ⟨k, hk, rfl⟩ := e.mem_jobs.mp hk'
  obtain ⟨j, hj, hid, action⟩ := h.jobs k hk
  exact ⟨j, hj, hid.trans (e.job_keeps k).2.1.symm, action.trans (e.job_keeps k).2.2.symm⟩

theorem Sound.applyNext {u v : Store} (sound : Sound w clock u) (follows : Follows s u)
    (hv : Operations.applyReceipt u agent r spark = .ok v)
    (trusted : ∀ j ∈ u.jobs, j.jobId = r.jobId → j.agentId = agent → w.asks j → judge u agent j r spark = r ∧
      ¬(r.status = .rejected ∧ r.stage = "unverified_result")) : Sound w clock v ∧ Follows s v :=
  ⟨sound.applyReceipt hv trusted, follows.steps (applyReceipt_steps (p := CollectionEvidence.quiet) sound.linked hv)
    (applyReceipt_frame hv)⟩

theorem Sound.applyAll (h : Sound w clock s) {spark : JobReceipt → SparkAnswers} {rs : List JobReceipt}
    (trusted : ∀ r ∈ rs, ∀ u, Sound w clock u → Follows s u → ∀ j ∈ u.jobs, j.jobId = r.jobId →
    j.agentId = agent → w.asks j → judge u agent j r (spark r) = r ∧
    ¬(r.status = .rejected ∧ r.stage = "unverified_result")) :
    Sound w clock (applyReceipts agent spark rs s).1 ∧ Follows s (applyReceipts agent spark rs s).1 := by
  suffices all : ∀ u, Sound w clock u → Follows s u →
      Sound w clock (applyReceipts agent spark rs u).1 ∧ Follows s (applyReceipts agent spark rs u).1 from
    all s h (.refl s)
  induction rs with
  | nil => exact fun u sound follows => ⟨sound, follows⟩
  | cons r rs ih =>
    intro u sound follows
    have rest := ih fun r hr => trusted r (by simp [hr])
    unfold applyReceipts
    split
    · exact rest u sound follows
    · rename_i v hv
      have next := sound.applyNext follows hv (trusted r (by simp) u sound follows)
      exact rest v next.1 next.2

theorem Sound.reconcile (h : Sound w clock s) (agent : String) (x : Request) :
    Sound w clock (reconcileUnverified s agent x) ∧ Follows s (reconcileUnverified s agent x) := by
  refine ReportHandler.reconcileReceipts_invariant (fun u => Sound w clock u ∧ Follows s u) ⟨h, .refl s⟩ ?_
  rintro j hj r - own u v hv ⟨sound, follows⟩
  refine sound.applyNext follows hv fun k hk kid _ asked => ?_
  obtain ⟨hj, chosen⟩ := ReportHandler.mem_unverifiedJobs hj
  simp only [unverifiedModel, Bool.and_eq_true, beq_iff_eq] at chosen
  obtain ⟨i, hi, hid, action⟩ := follows.jobs k hk
  have same : i = j := s.jobs.eq_of_key hi hj (by rw [hid, kid, own])
  have model : k.action.isModel := by
    rw [← action, same]
    exact chosen.1.1.1.2
  have wanted := asked.2
  revert model wanted
  cases k.action <;> simp [collects, Action.isModel]

theorem claimPending_store (s : Store) (agent : String) (limit : Int) (expireNow tickNow now : Time)
    (authority : JobEnvelope → Except StoreError Bool) :
    (claimPending s agent limit expireNow tickNow now authority).1 =
      (claimPendingJobs s agent limit expireNow tickNow now authority).1 := by
  unfold claimPendingJobs
  split <;> simp_all

theorem Sound.claim (h : Sound w clock s) (agent : String) (limit : Int)
    (expireNow tickNow now : Time) (authority : JobEnvelope → Except StoreError Bool) :
    Sound w clock (claimPending s agent limit expireNow tickNow now authority).1 := by
  rw [claimPending_store]
  exact h.quiet (claimPendingJobs_steps (fun _ => trivial) (fun _ => trivial) h.linked agent limit
    expireNow tickNow now authority) (keeps_of_writes (claimPendingJobs_writes trivial s agent limit expireNow tickNow now authority))

theorem Sound.poll (h : Sound w clock s) (controller : String) (rep : AgentReport)
    (accepted : AcceptedReport) (acks : List String) (x : Request) :
    Sound w clock (poll controller s rep accepted acks x).1 := by
  have claimed := h.claim rep.agentId 8 x.expireNow x.tickNow x.claimNow x.authority
  unfold ReportHandler.poll
  split
  · exact h
  split
  · exact h
  split
  · exact h
  split
  · exact h
  split
  · rename_i hc
    rw [hc] at claimed
    exact claimed
  · rename_i hc
    rw [hc] at claimed
    exact claimed

def History.Copy (w : History) (rep : AgentReport) : Prop :=
  ∃ r ∈ w.reports, rep = r ∨ rep = { r with isLive := false }

theorem Sound.accept {c : Codec} {rep : AgentReport} {call : Call} {out : AcceptedReport}
    (h : Sound w clock s) (le : clock ≤ call.received)
    (mine : rep.agentId = w.agentId → w.Copy rep) (ha : acceptReport c s rep call = .ok (s', out)) :
    Sound w call.received s' := by
  obtain ⟨-, ⟨-, rfl, -⟩ | ⟨-, added⟩⟩ := acceptReport_ok ha
  · exact h.later le
  obtain ⟨operations, targets, jobs⟩ := added.control
  have back : ∀ t j, Paired s' t j → Paired s t j := by
    intro t j hp
    rw [Paired, targets, jobs] at hp
    exact hp
  have same : Steps CollectionEvidence.quiet s s' := evolves_of_eq targets jobs operations
  constructor
  case linked => exact same.linked h.linked
  case inStep => exact fun t j hp => h.inStep t j (back t j hp)
  case created =>
    rw [jobs]
    exact fun j hj => (h.created j hj).trans le
  case committed =>
    intro i hi agent session
    obtain hi | rfl := (added.receipt i).mp hi
    · exact h.committed i hi agent session
    · obtain ⟨r, hr, rfl | rfl⟩ := mine agent
      · exact ⟨rep, hr, rfl, rfl, rfl, rfl⟩
      · exact ⟨r, hr, rfl, rfl, rfl, rfl⟩
  case known =>
    rw [jobs]
    exact h.known
  case inTime =>
    rw [jobs]
    intro p hp ok asked j hj hid i hi agent named
    obtain hi | rfl := (added.receipt i).mp hi
    · exact h.inTime p hp ok asked j hj hid i hi agent named
    · exact (h.created j hj).trans le
  case verified => exact fun t j hp => h.verified t j (back t j hp)
  case recorded => exact fun t j hp => h.recorded t j (back t j hp)
  case published =>
    rw [jobs]
    exact h.published

theorem Observed.more (h : Observed reports p) (sub : ∀ rep ∈ reports, rep ∈ reports') : Observed reports' p := by
  obtain ⟨rep, hrep, seen⟩ := h
  exact ⟨rep, sub rep hrep, seen⟩

theorem Formed.more {now' : Time} (h : Formed reports now p) (sub : ∀ rep ∈ reports, rep ∈ reports') (le : now ≤ now') :
    Formed reports' now' p := by
  refine { h with accepted := ?_, success := fun ok => ?_ }
  · obtain ⟨at', accepted, before⟩ := h.accepted
    exact ⟨at', accepted, before.trans le⟩
  · exact ⟨(h.success ok).1, Observed.more (h.success ok).2 sub⟩

theorem Sound.extend (h : Sound w clock s) (agent : w'.agentId = w.agentId)
    (session : w'.session = w.session) (sub : ∀ rep ∈ w.reports, rep ∈ w'.reports)
    (known : ∀ p ∈ w'.issued, ∃ j ∈ s.jobs, j.jobId = p.jobId ∧ j.agentId = w.agentId ∧
      j.action = p.action ∧ (collects p.action → j.operationId = p.receipt.operationId))
    (inTime : ∀ p ∈ w'.issued, p.receipt.status = .succeeded → collects p.action →
      ∀ j ∈ s.jobs, j.jobId = p.jobId → ∀ i ∈ s.ingests, i.agentId = w.agentId →
        names p.receipt i.sessionId i.seq → j.createdAt ≤ i.receivedAt) : Sound w' clock s := by
  have asked : ∀ j, w'.asks j → w.asks j := fun j h => ⟨h.1.trans agent, h.2⟩
  refine ⟨h.linked, h.inStep, h.created, ?_, ?_, ?_, fun t j hp a => h.verified t j hp (asked j a),
    fun t j hp a => h.recorded t j hp (asked j a), fun j hj a => h.published j hj (asked j a)⟩
  · rw [agent, session]
    intro i hi own same
    obtain ⟨rep, hrep, row⟩ := h.committed i hi own same
    exact ⟨rep, sub rep hrep, row⟩
  · rw [agent]
    exact known
  · rw [agent]
    exact inTime

end Monik.CollectionEvidence
