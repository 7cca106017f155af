import Monik.JobPermanence

/-! One lifecycle transaction per agent: `processSubmit` looks for an active lifecycle job of each
agent and inserts afterwards. Submissions exclude each other by `controlMu`; any other transaction
may come between. The look leaves out the target "server", and no enrollment refuses an agent of
that name. -/

namespace Monik.LifecycleExclusion
open Protocol Tables ControllerStore Operations Rollouts Submission SubmissionSteps JobPermanence Runs
open ControllerRule (Rule)

variable {j j' : JobRow} {s s' : Store} {action : Action} {t : TargetResult} {op : NewOperation} {req : Request}

def active : JobStatus → Bool
  | .preparing | .rolloutHeld | .delivered => true
  | .of .queued | .of .waitingOffline | .of .accepted | .of .running | .of .awaitingConfirmation
  | .of .unknownResult => true
  | .of _ => false

theorem active_eq (status : JobStatus) : active status = !status.terminal := by
  cases status with
  | of target => cases target <;> rfl
  | _ => rfl

def activeLifecycle (j : JobRow) : Bool := j.action.lifecycleConflict && active j.status

theorem activeLifecycle_iff :
    activeLifecycle j ↔ j.action.lifecycleConflict ∧ j.status.terminal = false := by
  simp [activeLifecycle, active_eq]

theorem not_hasActiveLifecycle {agent : String} (h : hasActiveLifecycle s agent = none) (hj : j ∈ s.jobs) (on : activeLifecycle j) :
    j.agentId ≠ agent := by
  intro mine
  have out := Table.find?_none h hj
  rw [activeLifecycle_iff] at on
  simp [mine, on] at out

/-- One transaction on the job tables. Only final results are written by `MarkTargetAndJob`. -/
inductive Transaction
  | update (op agent : String) (w : TargetWrite)
  | mark (op agent : String) (w : TargetWrite) (final : w.status.terminal)
  | patch (op agent : String) (extra : Fields)
  | secret (secrets : Table SecretRow SecretRow.id)
  | bump (op : NewOperation) (hash : String → String)
  | revoke (op : String)
  | plan (op : String) (prepared : List PreparedUpdateTarget)
  | batch (op release : String) (prepared : List PreparedUpdateTarget) (opts : RolloutOptions) (now : Time)
  | control (id : String) (expected : Int) (pause : Bool) (controlOp : String) (now : Time)
  | cancel (op : String)
  | receipt (agent : String) (r : JobReceipt) (spark : SparkAnswers)
  | expire (now : Time)
  | advance (r : Rollout) (now : Time)
  | claim (agent : String) (limit : Int) (now : Time)
      (authority : JobEnvelope → Except StoreError Bool)
  | supersede (agent parent stop : String)
  | reopen

def Transaction.apply (s : Store) : Transaction → Store
  | .update op agent w => commit s (updateTargetAndRefresh s op agent w)
  | .mark op agent w _ => commit s (markTargetAndJob s op agent w)
  | .patch op agent extra => patchJobParams s op agent extra
  | .secret secrets => { s with secrets }
  | .bump op hash => commit s (bumpDesired s op hash)
  | .revoke op => commit s (revokeOperationAgents s op)
  | .plan op prepared => commit s (publishUpdatePlan s op prepared)
  | .batch op release prepared opts now =>
    commit s (publishBatchedUpdatePlan s op release prepared opts now)
  | .control id expected pause controlOp now => commit s (controlRollout s id expected pause controlOp now)
  | .cancel op => commit s (cancelPending s op)
  | .receipt agent r spark => commit s (applyReceipt s agent r spark)
  | .expire now => commit s (expireAndBlockJobs s now)
  | .advance r now => commit s (advanceRollout s r now)
  | .claim agent limit now authority =>
    commit s ((claimJobs s agent limit now authority).map Prod.fst)
  | .supersede agent parent stop => commit s (supersedeSparkRestart s agent parent stop)
  | .reopen => Rollouts.reopen s

theorem Transaction.apply_kept (s : Store) (t : Transaction) : Kept s (t.apply s) := by
  have k := jobs_rule
  cases t with
  | update op agent w => exact k.commit fun _ => k.update
  | mark op agent w final => exact k.commit fun _ => k.mark final
  | patch op agent extra => exact k.patch s op agent extra
  | secret secrets => exact k.secret s secrets
  | bump op hash => exact k.commit fun _ => k.bump
  | revoke op => exact k.commit fun _ => k.revoke
  | plan op prepared => exact k.commit fun _ => k.plan
  | batch op release prepared opts now => exact k.commit fun _ => k.batch
  | control id expected pause controlOp now => exact k.commit fun _ => k.control
  | cancel op => exact k.commit fun _ => k.cancel
  | receipt agent r spark => exact k.commit fun _ => k.receipt
  | expire now => exact k.commit fun _ => k.expire
  | advance r now => exact k.commit fun _ => k.advance
  | claim agent limit now authority =>
    refine k.commit fun u h => ?_
    obtain ⟨⟨v, out⟩, claimed, rfl⟩ := map_ok h
    exact k.claim claimed
  | supersede agent parent stop => exact k.commit fun _ => k.supersede
  | reopen => exact k.reopen s

def Reaches (s s' : Store) : Prop := ∃ ts : List Transaction, run (fun u t => t.apply u) s ts = s'

theorem Reaches.one (t : Transaction) (h : t.apply s = s') : Reaches s s' := ⟨[t], h⟩

theorem reaches_rule : Rule Reaches where
  refl := fun _ => ⟨[], rfl⟩
  trans := by
    rintro s u v ⟨ts, rfl⟩ ⟨us, rfl⟩
    exact ⟨ts ++ us, run_append _ s ts us⟩
  update := fun h => .one (.update _ _ _) (by rw [Transaction.apply, h]; rfl)
  mark := fun final h => .one (.mark _ _ _ final) (by rw [Transaction.apply, h]; rfl)
  patch := fun _ op agent extra => .one (.patch op agent extra) rfl
  secret := fun _ secrets => .one (.secret secrets) rfl
  bump := fun h => .one (.bump _ _) (by rw [Transaction.apply, h]; rfl)
  revoke := fun h => .one (.revoke _) (by rw [Transaction.apply, h]; rfl)
  plan := fun h => .one (.plan _ _) (by rw [Transaction.apply, h]; rfl)
  batch := fun h => .one (.batch _ _ _ _ _) (by rw [Transaction.apply, h]; rfl)
  control := fun h => .one (.control _ _ _ _ _) (by rw [Transaction.apply, h]; rfl)
  cancel := fun h => .one (.cancel _) (by rw [Transaction.apply, h]; rfl)
  receipt := fun h => .one (.receipt _ _ _) (by rw [Transaction.apply, h]; rfl)
  expire := fun h => .one (.expire _) (by rw [Transaction.apply, h]; rfl)
  advance := fun h => .one (.advance _ _) (by rw [Transaction.apply, h]; rfl)
  claim := fun h => .one (.claim _ _ _ _) (by rw [Transaction.apply, h]; rfl)
  supersede := fun h => .one (.supersede _ _ _) (by rw [Transaction.apply, h]; rfl)
  reopen := fun _ => .one .reopen rfl

structure Controller where
  store : Store
  pending : Option NewOperation

inductive Event
  /-- `processSubmit` past its request checks: targets get their first status. -/
  | check (req : Request)
  | insert
  | abandon
  | transaction (t : Transaction)
  | submitModel (req : Request) (model : ModelIntent)
  | other (u : Store)

def step (m : Controller) : Event → Controller
  | .check req =>
    match m.pending with
    | some _ => m
    | none =>
      if req.action.isModel || req.action.unavailable then m
      else { m with pending := some (newOperation m.store req) }
  | .insert =>
    match m.pending with
    | none => m
    | some op => { store := commit m.store (insertOperation m.store op none), pending := none }
  | .abandon => { m with pending := none }
  | .transaction t => { m with store := t.apply m.store }
  | .submitModel req model => { m with store := processSparkSubmit m.store req model }
  | .other u => { m with store := { u with jobs := m.store.jobs } }

def start : Controller := ⟨.empty, none⟩

def Event.sparesServer (m : Controller) : Event → Prop
  | .check req => req.action.lifecycleConflict → "server" ∈ req.targetIds →
      m.store.agent "server" = none
  | _ => True

def AtMostOne (s : Store) : Prop :=
  ∀ j ∈ s.jobs, ∀ k ∈ s.jobs, activeLifecycle j → activeLifecycle k →
    j.agentId = k.agentId → j = k

structure Admissible (s : Store) (op : NewOperation) : Prop where
  distinct : (op.targets.map fun x => x.1.agentId).Nodup
  idle : op.action.lifecycleConflict → ∀ x ∈ op.targets, needsJob op x.1 →
    ∀ j ∈ s.jobs, activeLifecycle j → j.agentId ≠ x.1.agentId

structure Exclusive (m : Controller) : Prop where
  one : AtMostOne m.store
  pending : ∀ op, m.pending = some op → Admissible m.store op

def JobsKept (s s' : Store) : Prop :=
  ∃ f : JobRow → JobRow, s'.jobs.rows = s.jobs.rows.map f ∧ ∀ j ∈ s.jobs, JobStep j (f j)

theorem JobsKept.trans {u v : Store} (h : JobsKept s u) (h' : JobsKept u v) : JobsKept s v := by
  obtain ⟨f, rows, steps⟩ := h
  obtain ⟨g, rows', steps'⟩ := h'
  refine ⟨g ∘ f, by rw [rows', rows, List.map_map], fun j hj => (steps j hj).trans (steps' _ ?_)⟩
  rw [← Table.mem_rows, rows]
  exact List.mem_map_of_mem hj

theorem jobsKept_rule : Rule JobsKept := jobs_rule.mono Kept.jobs JobsKept.trans

theorem JobsKept.of_eq (h : s'.jobs = s.jobs) : JobsKept s s' :=
  ⟨id, by rw [h, List.map_id], fun j _ => .refl j⟩

theorem active_before (h : JobStep j j') (on : activeLifecycle j') : activeLifecycle j := by
  rw [activeLifecycle_iff] at on ⊢
  refine ⟨by rw [← h.action]; exact on.1, ?_⟩
  cases closed : j.status.terminal with
  | false => rfl
  | true =>
    have still := (h.closed closed).1
    rw [on.2] at still
    cases still

theorem agent_before (h : JobStep j j') : j'.agentId = j.agentId :=
  congrArg Prod.snd h.key

variable {m : Controller}

theorem Exclusive.kept (h : Exclusive m) (kept : JobsKept m.store s) : Exclusive { m with store := s } := by
  obtain ⟨f, rows, steps⟩ := kept
  have came : ∀ j' ∈ s.jobs, ∃ j ∈ m.store.jobs, j' = f j ∧ JobStep j j' := by
    intro j' hj'
    rw [← Table.mem_rows, rows] at hj'
    obtain ⟨j, hj, rfl⟩ := List.mem_map.mp hj'
    exact ⟨j, hj, rfl, steps j hj⟩
  constructor
  · intro j' hj' k' hk' onj onk same
    obtain ⟨j, hj, rfl, stepj⟩ := came j' hj'
    obtain ⟨k, hk, rfl, stepk⟩ := came k' hk'
    rw [agent_before stepj, agent_before stepk] at same
    rw [h.one j hj k hk (active_before stepj onj) (active_before stepk onk) same]
  · intro op hop
    have ready := h.pending op hop
    refine ⟨ready.distinct, fun life x hx needs j' hj' on => ?_⟩
    obtain ⟨j, hj, -, same⟩ := came j' hj'
    rw [agent_before same]
    exact ready.idle life x hx needs j hj (active_before same on)

theorem gated_agent (s : Store) (action : Action) (t : TargetResult) :
    (lifecycleGate s action t).agentId = t.agentId := by
  unfold lifecycleGate
  split
  · rfl
  · split <;> rfl

theorem initialTarget_agent (s : Store) (now : Time) (id : String) : (initialTarget s now id).agentId = id := by
  unfold initialTarget
  split
  · rfl
  · split_ifs <;> rfl

theorem gate_passed (life : action.lifecycleConflict) (open' : (lifecycleGate s action t).status ≠ .rejected) :
    hasActiveLifecycle s t.agentId = none ∨ t.agentId = "server" ∧ t.status ≠ .rejected := by
  unfold lifecycleGate at open'
  split at open'
  · rename_i idle
    exact .inl idle
  · split at open'
    · exact absurd rfl open'
    · rename_i skipped
      refine .inr ⟨?_, open'⟩
      simpa [life, eligible, open'] using skipped

theorem needsJob_open (h : needsJob op t) : t.status ≠ .rejected := by
  rcases (needsJob_scope h).2 with waits | waits <;> rw [waits] <;> decide

theorem submittedTargets_agents (agents : req.action.scope = .agents) :
    submittedTargets s req = ((expandTargets req.targetIds).map (initialTarget s req.now)).map
      (lifecycleGate s req.action) := by
  simp [submittedTargets, agents]

theorem eraseDups_nodup {α : Type} [BEq α] [LawfulBEq α] (l : List α) : l.eraseDups.Nodup := by
  -- The tail is filtered before it is reduced, so the induction is on the length.
  induction size : l.length using Nat.strong_induction_on generalizing l with
  | _ n ih =>
    cases l with
    | nil => simp
    | cons a l =>
      rw [List.eraseDups_cons, List.nodup_cons]
      constructor
      · simp [List.mem_eraseDups]
      · have shorter : (l.filter fun b => !b == a).length < n :=
          size ▸ Nat.lt_succ_of_le (List.length_filter_le _ l)
        exact ih _ shorter _ rfl

theorem expandTargets_nodup (ids : List String) : (expandTargets ids).Nodup :=
  eraseDups_nodup _

theorem mem_expandTargets {ids : List String} {id : String} (h : id ∈ expandTargets ids) : id ∈ ids :=
  (List.mem_filter.mp (List.mem_eraseDups.mp h)).1

theorem submittedTargets_distinct (s : Store) (req : Request) :
    ((submittedTargets s req).map TargetResult.agentId).Nodup := by
  have gated : ∀ ts : List TargetResult,
      (ts.map (lifecycleGate s req.action)).map TargetResult.agentId = ts.map TargetResult.agentId := by
    intro ts
    rw [List.map_map]
    exact List.map_congr_left fun t _ => gated_agent s req.action t
  have named : ((expandTargets req.targetIds).map (initialTarget s req.now)).map TargetResult.agentId =
      expandTargets req.targetIds := by
    rw [List.map_map]
    exact List.map_id'' (fun id => initialTarget_agent s req.now id) _
  unfold submittedTargets
  rw [gated]
  split_ifs
  · rw [named]
    exact expandTargets_nodup _
  · rw [named]
    exact expandTargets_nodup _
  · exact List.nodup_singleton _

theorem newOperation_admissible (spares : req.action.lifecycleConflict → "server" ∈ req.targetIds →
    s.agent "server" = none) : Admissible s (newOperation s req) := by
  constructor
  · have distinct := submittedTargets_distinct s req
    simpa [newOperation, List.map_map, Function.comp_def] using distinct
  · intro life x hx needs j hj on
    obtain ⟨t, ht, rfl⟩ := List.mem_map.mp hx
    rw [submittedTargets_agents (needsJob_scope needs).1, List.map_map] at ht
    obtain ⟨id, hid, rfl⟩ := List.mem_map.mp ht
    have named := initialTarget_agent s req.now id
    dsimp only [Function.comp]
    rw [gated_agent, named]
    obtain idle | ⟨server, waits⟩ := gate_passed life (needsJob_open needs)
    · rw [named] at idle
      exact not_hasActiveLifecycle idle hj on
    · rw [named] at server
      subst server
      have unknown := spares life (mem_expandTargets hid)
      exact absurd (by simp [initialTarget, unknown]) waits

theorem Exclusive.inserted (h : Exclusive m) (ready : Admissible m.store op) (inserted : Inserted op m.store s) :
    AtMostOne s := by
  have fresh : ∀ j ∈ m.store.jobs, activeLifecycle j → ∀ x ∈ op.targets,
      needsJob op x.1 → activeLifecycle (newJob op x.1 x.2) →
        j.agentId ≠ (newJob op x.1 x.2).agentId :=
    fun j hj on x hx needs new => ready.idle (activeLifecycle_iff.mp new).1 x hx needs j hj on
  intro j hj k hk onj onk same
  obtain oldj | ⟨x, hx, needsx, rfl, -⟩ := inserted.grown.new_jobs j hj <;>
    obtain oldk | ⟨y, hy, needsy, rfl, -⟩ := inserted.grown.new_jobs k hk
  · exact h.one j oldj k oldk onj onk same
  · exact absurd same (fresh j oldj onj y hy needsy onk)
  · exact absurd same.symm (fresh k oldk onk x hx needsx onj)
  · rw [List.inj_on_of_nodup_map ready.distinct hx hy same]

theorem Exclusive.modelInserted (h : Exclusive m)
    (model : op.action.lifecycleConflict = false) (inserted : Inserted op m.store s) :
    Exclusive { m with store := s } := by
  have old : ∀ j ∈ s.jobs, activeLifecycle j → j ∈ m.store.jobs := by
    intro j hj on
    obtain old | ⟨x, -, -, rfl, -⟩ := inserted.grown.new_jobs j hj
    · exact old
    · have life : op.action.lifecycleConflict := (activeLifecycle_iff.mp on).1
      rw [model] at life
      cases life
  refine ⟨fun j hj k hk onj onk => h.one j (old j hj onj) k (old k hk onk) onj onk, fun pending hp => ?_⟩
  have ready := h.pending pending hp
  exact ⟨ready.distinct, fun life x hx needs j hj on => ready.idle life x hx needs j (old j hj on) on⟩

theorem model_no_lifecycle (h : action.isModel) : action.lifecycleConflict = false := by
  cases action <;> first | rfl | cases h

theorem Exclusive.submitModel (h : Exclusive m) (req : Request) (model : ModelIntent) :
    Exclusive { m with store := processSparkSubmit m.store req model } := by
  unfold processSparkSubmit
  split
  · split
    · exact h
    · rename_i wanted
      simp only [Bool.or_eq_true, Bool.not_eq_true', not_or, Bool.not_eq_false] at wanted
      refine commit_invariant (fun s => Exclusive { m with store := s }) h fun u hu => ?_
      obtain ⟨v, inserted, ⟨none', -⟩ | ⟨i, -, intent⟩⟩ := insertOperation_ok hu
      · cases none'
      · have grown := h.modelInserted (model_no_lifecycle wanted.1) inserted
        exact grown.kept (jobsKept_rule.insertIntent (fun _ _ => .of_eq rfl) intent)
  · exact h

theorem step_exclusive (m : Controller) (e : Event) (h : Exclusive m) (spares : e.sparesServer m) :
    Exclusive (step m e) := by
  cases e with
  | check req =>
    dsimp only [step]
    split
    · exact h
    · split
      · exact h
      · refine ⟨h.one, fun op hop => ?_⟩
        cases hop
        exact newOperation_admissible spares
  | insert =>
    dsimp only [step]
    split
    · exact h
    · rename_i op hop
      refine ⟨commit_invariant AtMostOne h.one fun u hu => ?_, fun _ none' => by cases none'⟩
      obtain ⟨v, inserted, ⟨-, rfl⟩ | ⟨i, some', -⟩⟩ := insertOperation_ok hu
      · exact h.inserted (h.pending op hop) inserted
      · cases some'
  | abandon => exact ⟨h.one, fun _ none' => by cases none'⟩
  | transaction t => exact h.kept (t.apply_kept m.store).jobs
  | submitModel req model => exact h.submitModel req model
  | other u => exact h.kept (.of_eq rfl)

theorem Exclusive.start : Exclusive start :=
  ⟨fun j hj => absurd hj (Table.not_mem_empty j), fun _ none' => by cases none'⟩

/-- In every run whose lifecycle submissions select no enrolled agent named "server", each agent
has at most one active lifecycle job. -/
theorem one_active_lifecycle_job (events : List Event)
    (spares : Meets step (fun m e => e.sparesServer m) start events) :
    ∀ j ∈ (run step start events).store.jobs, ∀ k ∈ (run step start events).store.jobs,
      activeLifecycle j → activeLifecycle k → j.agentId = k.agentId → j = k :=
  (run_invariant Exclusive step_exclusive .start spares).one

def restart (id job : String) : Request :=
  { DispatchSafety.request .agentRestart [] with id, clientRequestKey := id, jobId := fun _ => job }

def restartTwice (agent : AgentRow) : List Event :=
  let enrolled : Store := { Store.empty with agents := Table.empty.upsert agent }
  let targets : List String := [agent.id]
  [.other enrolled, .check { restart "op1" "j1" with targetIds := targets }, .insert,
    .check { restart "op2" "j2" with targetIds := targets }, .insert]

theorem one_active_lifecycle_job_restarts :
    ((run step start (restartTwice DispatchSafety.liveAgent)).store.jobs.rows.map JobRow.jobId) = ["j1"] ∧
      ∀ j ∈ (run step start (restartTwice DispatchSafety.liveAgent)).store.jobs,
        ∀ k ∈ (run step start (restartTwice DispatchSafety.liveAgent)).store.jobs,
          activeLifecycle j → activeLifecycle k → j.agentId = k.agentId → j = k := by
  refine ⟨by decide +kernel, one_active_lifecycle_job _ ?_⟩
  refine ⟨trivial, ?_, trivial, ?_, trivial, trivial⟩ <;>
    exact fun _ named => absurd named (by decide)

theorem server_agent_restarted_twice :
    ∃ j ∈ (run step start (restartTwice { DispatchSafety.liveAgent with id := "server" })).store.jobs,
      ∃ k ∈ (run step start (restartTwice { DispatchSafety.liveAgent with id := "server" })).store.jobs,
        activeLifecycle j ∧ activeLifecycle k ∧ j.agentId = k.agentId ∧ j ≠ k := by
  refine ⟨_, List.mem_cons_self .., _, List.mem_cons_of_mem _ (List.mem_cons_self ..), ?_⟩
  decide +kernel

def sparesServer (s : Store) : DispatchSafety.Event → Prop
  | .submit req => req.action.lifecycleConflict → "server" ∈ req.targetIds → s.agent "server" = none
  | _ => True

/-- A finer run that ends where the run of whole requests does, selects no enrolled "server" if that does
not, and in which other tables change by that run's own events only. -/
structure Refined (s : Store) (events : List DispatchSafety.Event) (fine : List Event) : Prop where
  ends : run step ⟨s, none⟩ fine = ⟨run DispatchSafety.step s events, none⟩
  spares : Meets DispatchSafety.step sparesServer s events →
    Meets step (fun m e => e.sparesServer m) ⟨s, none⟩ fine
  others : ∀ u, .other u ∈ fine → ∃ w v, .world w ∈ events ∧ u = w.apply v

theorem Refined.append {es es' : List DispatchSafety.Event} {fs fs' : List Event} (h : Refined s es fs)
    (h' : Refined (run DispatchSafety.step s es) es' fs') : Refined s (es ++ es') (fs ++ fs') := by
  refine ⟨by rw [run_append, run_append, h.ends, h'.ends], fun spares => ?_, fun u mem => ?_⟩
  · obtain ⟨first, rest⟩ := (meets_append s es es').mp spares
    refine (meets_append _ fs fs').mpr ⟨h.spares first, ?_⟩
    rw [h.ends]
    exact h'.spares rest
  · rcases List.mem_append.mp mem with first | rest
    · obtain ⟨w, v, there, same⟩ := h.others u first
      exact ⟨w, v, List.mem_append_left _ there, same⟩
    · obtain ⟨w, v, there, same⟩ := h'.others u rest
      exact ⟨w, v, List.mem_append_right _ there, same⟩

theorem Reaches.fine (h : Reaches s s') :
    ∃ fine, run step ⟨s, none⟩ fine = ⟨s', none⟩ ∧
      Meets step (fun m e => e.sparesServer m) ⟨s, none⟩ fine ∧ ∀ u, .other u ∉ fine := by
  obtain ⟨ts, rfl⟩ := h
  induction ts generalizing s with
  | nil => exact ⟨[], rfl, trivial, nofun⟩
  | cons t ts ih =>
    obtain ⟨fine, ends, spares, none⟩ := ih (s := t.apply s)
    exact ⟨.transaction t :: fine, ends, ⟨trivial, spares⟩, by simp [none]⟩

theorem dispatch_step_refined (s : Store) (e : DispatchSafety.Event) : ∃ fine, Refined s [e] fine := by
  by_cases own : ControllerRule.Rule.rewrites e
  · obtain ⟨fine, ends, spares, none⟩ := (reaches_rule.step own).fine
    exact ⟨fine, ends, fun _ => spares, fun u mem => absurd mem (none u)⟩
  cases e with
  | submit req =>
    by_cases refused : (req.action.isModel || req.action.unavailable)
    · exact ⟨[], by simp [DispatchSafety.step, processSubmit, refused], fun _ => trivial, nofun⟩
    obtain same | ⟨u, hu, rest⟩ := reaches_rule.processSubmit s req
    · exact ⟨[], by rw [run_cons, DispatchSafety.step, same]; rfl, fun _ => trivial, nofun⟩
    · have inserted : step (step ⟨s, none⟩ (.check req)) .insert = ⟨u, none⟩ := by
        simp [step, refused, hu, commit]
      obtain ⟨fine, ends, spares, none⟩ := rest.fine
      refine ⟨.check req :: .insert :: fine, ?_, fun now => ⟨now.1, trivial, ?_⟩, by simp [none]⟩
      · rw [run_cons, run_cons, inserted, ends]
        rfl
      · rw [inserted]
        exact spares
  | submitModel req model => exact ⟨[.submitModel req model], rfl, fun _ => ⟨trivial, trivial⟩, by simp⟩
  | world w => exact ⟨[.other (w.apply s)], rfl, fun _ => ⟨trivial, trivial⟩, by simp⟩
  | _ => exact absurd rfl own

/-- Whatever the controller does in whole requests it can do with other transactions between check and insertion. -/
theorem dispatch_run_refined (s : Store) (events : List DispatchSafety.Event) : ∃ fine, Refined s events fine := by
  induction events generalizing s with
  | nil => exact ⟨[], rfl, fun _ => trivial, nofun⟩
  | cons e rest ih =>
    obtain ⟨first, one⟩ := dispatch_step_refined s e
    obtain ⟨later, more⟩ := ih (DispatchSafety.step s e)
    exact ⟨first ++ later, one.append more⟩

end Monik.LifecycleExclusion
