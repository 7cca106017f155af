import Monik.Runs
import Monik.ServerSteps

/-! The controller over its job tables: submissions, claims, receipts, cancellation, expiry and
rollout ticks in any order, the rest of the database changing freely. A target with a final result
keeps its job out of later claims, unless a submission fails on the controller while a job of it is
open. -/

namespace Monik.DispatchSafety
open Protocol Tables ControllerStore Operations JobEvolution JobSteps Rollouts RolloutSteps
open Submission SubmissionSteps ServerSteps Runs

variable {op : NewOperation} {p : Permits} {req : Request} {t : TargetRow} {key : String × String}

structure World where
  agents : Table AgentRow AgentRow.id
  ingests : Table IngestRow IngestRow.key
  secrets : Table SecretRow SecretRow.id
  intents : Table IntentRow IntentRow.operationId
  publications : Table PublicationRow PublicationRow.releaseId

def World.apply (w : World) (s : Store) : Store :=
  { s with agents := w.agents, ingests := w.ingests, secrets := w.secrets, intents := w.intents,
           publications := w.publications }

inductive Event
  | submit (req : Request)
  | submitModel (req : Request) (model : ModelIntent)
  | claim (agent : String) (limit : Int) (expireNow tickNow now : Time)
      (authority : JobEnvelope → Except StoreError Bool)
  | receipt (agent : String) (r : JobReceipt) (spark : SparkAnswers)
  | cancel (op : String)
  | expire (now : Time)
  | advance (expireNow now : Time)
  | reopen
  | world (w : World)

def step (s : Store) : Event → Store
  | .submit req => processSubmit s req
  | .submitModel req model => processSparkSubmit s req model
  | .claim agent limit expireNow tickNow now authority =>
    (claimPendingJobs s agent limit expireNow tickNow now authority).1
  | .receipt agent r spark => commit s (applyReceipt s agent r spark)
  | .cancel op => commit s (cancelPending s op)
  | .expire now => commit s (expireAndBlockJobs s now)
  | .advance expireNow now => (advanceRollouts s expireNow now).1
  | .reopen => Rollouts.reopen s
  | .world w => w.apply s

/-- A target waits for its job, and the request is refused by its handler or stops it; updates close the job
with the target. -/
def leavesJobOpen (s : Store) (req : Request) : Bool :=
  let op := newOperation s req
  !req.action.isUpdate && op.targets.any (fun x => needsJob op x.1) &&
    match handlerRefusal op req with
    | some (.failed _) => true
    | some (.unconfirmed _) => false
    | none => handlerStops s op req

def Event.closesJobs (s : Store) : Event → Prop
  | .submit req => leavesJobOpen s req = false
  | _ => True

structure Coherent (s : Store) : Prop where
  linked : Linked s
  inStep : PairInv InStep s

variable {s s' : Store}

theorem Coherent.empty : Coherent Store.empty :=
  ⟨Linked.empty, fun t _ hp => absurd hp.1 (Table.not_mem_empty t)⟩

theorem Coherent.inserted (h : Coherent s) (hi : Inserted op s s') : Coherent s' :=
  ⟨hi.linked h.linked, hi.inStep h.linked h.inStep⟩

theorem Coherent.steps (h : Coherent s) (he : Steps p s s') : Coherent s' :=
  ⟨he.linked h.linked, he.pairInv (fun _ _ _ m => m.inStep) h.inStep⟩

def Advances (s s' : Store) : Prop :=
  ∃ p u, (u = s ∨ ∃ op, Inserted op s u) ∧ Steps p u s'

def anything : Permits := ⟨fun _ => True, fun _ => True, fun _ => True⟩

theorem Advances.of_steps (h : Steps anything s s') : Advances s s' :=
  ⟨anything, s, .inl rfl, h⟩

theorem Advances.refl (s : Store) : Advances s s := .of_steps (Evolves.refl s)

theorem Advances.coherent (h : Advances s s') (hs : Coherent s) : Coherent s' := by
  obtain ⟨p, u, hu, he⟩ := h
  obtain rfl | ⟨op, hi⟩ := hu
  · exact hs.steps he
  · exact (hs.inserted hi).steps he

theorem inserted_noJobs {u : Store} (hl : Linked s) (hi : Inserted op s u)
    (idle : op.targets.any (fun x => needsJob op x.1) = false) : NoJobs u op.id := by
  intro j hj same
  obtain old | ⟨x, hx, needs, -, -⟩ := hi.grown.new_jobs j hj
  · exact hi.old_job hl old same
  · exact List.any_eq_false.mp idle x hx needs

theorem inserted_holds {u : Store} (hl : Linked s) (hi : Inserted op s u) (hw : Waiting op)
    (agents : op.action.scope = .agents) : Holds op (eligibleTargets op) u := by
  refine ⟨hi.row, fun t ht => ?_⟩
  obtain ⟨x, hx, rfl⟩ := List.mem_map.mp (List.mem_of_mem_filter ht)
  have needs : needsJob op x.1 := by simpa [needsJob, agents] using hw x.1 ht
  obtain ⟨r, hr, key, -⟩ := (hi.linked hl).target _ (hi.new_job x hx needs)
  exact ⟨r, hr, key⟩

/-- A submission whose handler fails has no open job, unless the request leaves one. -/
theorem executeServerSide_closed {u v : Store} {message : String} (hl : Linked s)
    (hi : Inserted (newOperation s req) s u) (plain : req.action.isUpdate = false)
    (closes : leavesJobOpen s req = false) (evolved : OwnSteps req.id u v)
    (hv : executeServerSide u (newOperation s req) req = (v, some (.failed message))) : AllClosed v req.id := by
  by_cases idle : (newOperation s req).targets.any (fun x => needsJob (newOperation s req) x.1) = false
  · exact fun j hj own => absurd own ((inserted_noJobs hl hi idle).evolves evolved j hj)
  have waiting : (newOperation s req).targets.any (fun x => needsJob (newOperation s req) x.1) := by
    simpa using idle
  obtain ⟨x, -, needs⟩ := List.any_eq_true.mp waiting
  have agents := (needsJob_scope needs).1
  have held := inserted_holds hl hi (newOperation_waiting s req) agents
  have present : ∀ t ∈ eligibleTargets (newOperation s req), (u.agent t.agentId).isSome := by
    intro t ht
    rw [Store.agent, hi.agents]
    exact newOperation_present ht
  simp only [leavesJobOpen, plain, waiting, Bool.not_false, Bool.true_and] at closes
  unfold executeServerSide at hv
  split at hv
  · rename_i e refused
    rw [refused] at closes
    cases hv
    cases closes
  · rename_i accepted
    rw [accepted] at closes
    have goes : handlerStops u (newOperation s req) req = false := by
      rwa [handlerStops, hi.secrets]
    have none := serverEffect_accepts held (newOperation_waiting s req) present agents plain goes
    rw [hv] at none
    cases none

theorem processSubmit_advances (hs : Coherent s) (closes : leavesJobOpen s req = false) :
    Advances s (processSubmit s req) := by
  unfold processSubmit
  split
  · exact .refl s
  split
  · exact .refl s
  split
  · exact .refl s
  dsimp only
  split
  · exact .refl s
  rename_i u hu
  obtain ⟨u', hi, hm⟩ := insertOperation_ok hu
  obtain ⟨-, rfl⟩ | ⟨m, hm, -⟩ := hm
  · have inserted := hs.inserted hi
    have effect := executeServerSide_steps req inserted.linked inserted.inStep hi.row
      (newOperation_waiting s req)
    split
    · rename_i v hv
      rw [hv] at effect
      exact ⟨_, _, .inr ⟨_, hi⟩, effect⟩
    · rename_i v e hv
      rw [hv] at effect
      refine ⟨_, _, .inr ⟨_, hi⟩, effect.trans (closeTargets_steps (effect.linked inserted.linked) ?_)⟩
      by_cases update : req.action.isUpdate
      · exact .inl update
      · cases e with
        | unconfirmed message => exact .inr (.inl ⟨message, rfl⟩)
        | failed message =>
          exact .inr (.inr (executeServerSide_closed hs.linked hi (by simpa using update) closes effect hv))
  · cases hm

theorem processSparkSubmit_advances {model : ModelIntent} : Advances s (processSparkSubmit s req model) := by
  unfold processSparkSubmit
  split
  · split
    · exact .refl s
    · refine commit_invariant (Advances s) (.refl s) fun u hu => ?_
      obtain ⟨v, hi, ⟨hm, -⟩ | ⟨m, -, hm⟩⟩ := insertOperation_ok hu
      · cases hm
      · exact ⟨anything, v, .inr ⟨_, hi⟩, insertIntent_steps (fun _ _ _ => trivial) hm⟩
  · exact .refl s

theorem commit_advances {r : Tx} (h : ∀ u, r = .ok u → Steps anything s u) : Advances s (commit s r) :=
  .of_steps (commit_evolves h)

theorem step_advances (e : Event) (hs : Coherent s) (ok : e.closesJobs s) : Advances s (step s e) := by
  cases e with
  | submit req => exact processSubmit_advances hs ok
  | submitModel req model => exact processSparkSubmit_advances
  | claim agent limit expireNow tickNow now authority =>
    exact .of_steps (claimPendingJobs_steps (fun _ => trivial) (fun _ => trivial) hs.linked agent limit expireNow tickNow now authority)
  | receipt agent r spark => exact commit_advances fun _ h => applyReceipt_steps hs.linked h
  | cancel op => exact commit_advances fun _ h => cancelPending_steps hs.linked hs.inStep h
  | expire now => exact commit_advances fun _ h => expireAndBlockJobs_steps hs.linked h
  | advance expireNow now => exact .of_steps (advanceRollouts_steps (fun _ => trivial) hs.linked expireNow now)
  | reopen => exact .of_steps (reopen_evolves s)
  | world w => exact .of_steps (evolves_of_eq rfl rfl rfl)

structure ClosedKey (key : String × String) (s : Store) : Prop where
  operation : ∃ o ∈ s.operations, o.id = key.1
  closed : ∀ j ∈ s.jobs, j.key = key → j.status.terminal

theorem Coherent.closedKey (hs : Coherent s) (ht : t ∈ s.targets) (final : t.status.terminal) :
    ClosedKey t.key s :=
  ⟨hs.linked.operation t ht, fun j hj hk => (hs.inStep t j ⟨ht, hj, hk.symm⟩).closed final⟩

theorem ClosedKey.steps (h : ClosedKey key s) (hl : Linked s) (he : Steps p s s') : ClosedKey key s' := by
  constructor
  · obtain ⟨o, ho, hid⟩ := h.operation
    obtain ⟨e⟩ := he
    exact ⟨e.operation o, e.mem_operations.mpr ⟨o, ho, rfl⟩, (e.operation_keeps o).1.trans hid⟩
  · intro j' hj' hk'
    obtain ⟨j, hj, hk, -, kept⟩ := he.jobs_keep (P := fun st => st.terminal) hl hj'
      fun _ _ m => m.terminal_kept
    exact kept (h.closed j hj (hk.trans hk'))

theorem ClosedKey.inserted (h : ClosedKey key s) (hi : Inserted op s s') : ClosedKey key s' := by
  obtain ⟨o, ho, hid⟩ := h.operation
  refine ⟨⟨o, hi.old_operations o ho, hid⟩, fun j hj hk => ?_⟩
  obtain hj | ⟨x, -, -, rfl, -⟩ := hi.grown.new_jobs j hj
  · exact h.closed j hj hk
  · exact absurd (hid.trans (congrArg Prod.fst hk).symm) (hi.fresh o ho)

theorem ClosedKey.advances (h : ClosedKey key s) (hs : Coherent s) (ha : Advances s s') : ClosedKey key s' := by
  obtain ⟨p, u, hu, he⟩ := ha
  obtain rfl | ⟨op, hi⟩ := hu
  · exact h.steps hs.linked he
  · exact (h.inserted hi).steps (hs.inserted hi).linked he

theorem run_coherent {events : List Event} (hs : Coherent s)
    (ok : Meets step (fun s e => e.closesJobs s) s events) : Coherent (run step s events) :=
  run_invariant (Coherent) (fun _ e hs ok => (step_advances e hs ok).coherent hs) hs ok

theorem run_closedKey {events : List Event} (hs : Coherent s)
    (h : ClosedKey key s) (ok : Meets step (fun s e => e.closesJobs s) s events) : ClosedKey key (run step s events) :=
  (run_invariant (fun s => Coherent s ∧ ClosedKey key s)
    (fun _ e h ok => ⟨(step_advances e h.1 ok).coherent h.1, h.2.advances h.1 (step_advances e h.1 ok)⟩)
    ⟨hs, h⟩ ok).2

theorem ClosedKey.not_claimed (h : ClosedKey t.key s) (hl : Linked s)
    {limit : Int} {expireNow tickNow now : Time} {authority : JobEnvelope → Except StoreError Bool}
    {env : JobEnvelope} (he : env ∈ (claimPendingJobs s t.agentId limit expireNow tickNow now authority).2) :
    env.operationId ≠ t.operationId := by
  intro same
  obtain ⟨j, hj, selected, whole, rfl⟩ := claimPendingJobs_mem he
  have later := h.steps hl (advanceRollouts_steps (p := anything) (fun _ => trivial) hl expireNow tickNow)
  simp only [selectable, Bool.and_eq_true, beq_iff_eq] at selected
  simp only [intact, Bool.and_eq_true, beq_iff_eq] at whole
  have key : j.key = t.key := by
    rw [JobRow.key, TargetRow.key, selected.1.1.1, ← same, whole.1.1.1.2]
  have open' := terminal_not_dispatchable (later.closed j hj key)
  rw [selected.1.1.2] at open'
  cases open'

def liveAgent : AgentRow :=
  ⟨"a1", false, false, true, "general", "linux", "amd64", true, "s1", "d1", some 0, 0, "", 0, "c1", 0, 0⟩

def oneAgent : World := ⟨⟨[liveAgent], by simp⟩, .empty, .empty, .empty, .empty⟩

def request (action : Action) (params : Fields) : Request :=
  { id := "op1", action, actor := "owner", clientRequestKey := "k1", requestHash := "h1", now := 1
    params, targetIds := ["a1"], jobId := fun _ => "j1", refusal := none
    desiredHash := fun _ => "", patch := [], evidence := [], secretId := ""
    prepared := fun _ => true, flavorReadable := fun _ => true, artifact := fun _ => none
    releaseId := "", releaseDigest := "", options := ⟨1, 15⟩, subject := "", subjectRevision := 0 }

def reportedFailure : List Event :=
  [.world oneAgent, .submit (request .agentCollectNow []), .claim "a1" 8 2 2 2 fun _ => .ok true,
    .receipt "a1" ⟨"j1", "op1", .failed, "collect", "host unreadable", "", false, [], some 2, none, none⟩
      ⟨true, false, false⟩]

/-- While no submission fails with a job of it open, the job of a target with a final result is never handed
out again. -/
theorem final_target_never_dispatched (before after : List Event)
    (ok : Meets step (fun s e => e.closesJobs s) Store.empty (before ++ after))
    (t : TargetRow) (reported : t ∈ (run step Store.empty before).targets)
    (final : t.status.terminal) :
    (∀ j ∈ (run step Store.empty (before ++ after)).jobs, j.key = t.key →
      j.status.dispatchable = false) ∧
    ∀ limit expireNow tickNow now authority,
      ∀ env ∈ (claimPendingJobs (run step Store.empty (before ++ after)) t.agentId limit expireNow
        tickNow now authority).2, env.operationId ≠ t.operationId := by
  obtain ⟨okBefore, okAfter⟩ := (meets_append _ before after).mp ok
  have coherent := run_coherent Coherent.empty okBefore
  have closed := run_closedKey coherent (coherent.closedKey reported final) okAfter
  have linked := (run_coherent coherent okAfter).linked
  rw [run_append]
  exact ⟨fun j hj hk => terminal_not_dispatchable (closed.closed j hj hk),
    fun _ _ _ _ _ _ he => closed.not_claimed linked he⟩

theorem final_target_never_dispatched_reported :
    ∃ t ∈ (run step Store.empty reportedFailure).targets, t.status = .failed ∧
      ∀ j ∈ (run step Store.empty (reportedFailure ++ [.advance 3 3])).jobs, j.key = t.key →
        j.status.dispatchable = false := by
  refine ⟨_, List.mem_cons_self .., by decide, ?_⟩
  have ok : Meets step (fun s e => e.closesJobs s) Store.empty (reportedFailure ++ [.advance 3 3]) :=
    ⟨trivial, by unfold Event.closesJobs; decide, trivial, trivial, trivial, trivial⟩
  exact (final_target_never_dispatched reportedFailure [.advance 3 3] ok _ (List.mem_cons_self ..)
    (by decide)).1

/-- The parameter is accepted with the request and refused when the configuration is patched. -/
def failedApply : List Event :=
  [.world oneAgent, .submit (request .profileApply [("collect_seconds", .int 10)])]

theorem failed_target_claimed :
    validateLifecycleParams (request .profileApply [("collect_seconds", .int 10)]) = none ∧
    ∃ t ∈ (run step Store.empty failedApply).targets,
      ∃ j ∈ (run step Store.empty failedApply).jobs, j.key = t.key ∧ t.status = .failed ∧
        t.message = "this worker supports exactly five-second host collection" ∧
        j.status.dispatchable ∧
        (claimPendingJobs (run step Store.empty failedApply) "a1" 8 2 2 2 fun _ => .ok true).2 =
          [j.envelope] := by
  refine ⟨by decide, _, List.mem_cons_self .., _, List.mem_cons_self .., ?_⟩
  decide +kernel

end Monik.DispatchSafety
