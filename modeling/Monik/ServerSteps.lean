import Monik.SubmissionSteps

/-! `executeServerSide` and the error branch of `processSubmit`: each handler moves its own pairs by
the writes of a submission and all others by ordinary moves. The error branch may close a target
over a job that can still be handed out. -/

namespace Monik.ServerSteps
open Protocol Tables ControllerStore Operations JobEvolution JobSteps Rollouts RolloutSteps
open Submission SubmissionSteps

variable {move : String × String → Statuses → Statuses → Prop} {s s' : Store} {op : NewOperation}
  {req : Request}

variable {id agent : String} {w : TargetWrite} {t : TargetResult} {ts : List TargetResult} {hash : String → String}
    {e : ServerError}

def only (id : String) : Permits := ⟨fun _ => False, fun key => key.1 = id, fun key => key.1 = id⟩

abbrev OwnSteps (id : String) := Steps (only id)

theorem updateTargetAndRefresh_evolves (h : updateTargetAndRefresh s id agent w = .ok s')
    (moves : ∀ t j, Paired s t j → t.key = (id, agent) →
    Relation.ReflTransGen (move (id, agent)) (t.status, j.status) (w.status, j.status)) : Evolves move s s' := by
  obtain ⟨u, hu, hr⟩ := bind_ok.mp h
  exact (updateTarget_evolves hu moves).trans (refreshOperation_evolves hr)

theorem note_steps (agent : String)
    (waits : w.status = .queued ∨ w.status = .waitingOffline ∨ w.status = .unknownResult) :
    OwnSteps id s (commit s (updateTargetAndRefresh s id agent w)) :=
  commit_evolves fun _ h => updateTargetAndRefresh_evolves h fun _ _ _ _ =>
    .single (.note rfl _ waits)

theorem mark_steps (final : w.status.terminal) (h : markTargetAndJob s id agent w = .ok s') : OwnSteps id s s' :=
  markTargetAndJob_evolves h fun _ _ _ _ => .single (.mark rfl _ final)

theorem patchJobParams_evolves (s : Store) (id agent : String) (extra : Fields) :
    Evolves move s (patchJobParams s id agent extra) := by
  unfold patchJobParams
  split
  · exact Evolves.refl s
  · exact setJobs_evolves _ (fun _ => ⟨rfl, rfl⟩) fun _ _ _ _ => .refl

theorem queueTarget_steps (extra : Fields) (agent : String)
    (waits : w.status = .queued ∨ w.status = .waitingOffline ∨ w.status = .unknownResult) :
    OwnSteps op.id s (queueTarget op extra w s agent) :=
  (patchJobParams_evolves s op.id agent extra).trans (note_steps agent waits)

def Waiting (op : NewOperation) : Prop :=
  ∀ t ∈ eligibleTargets op, t.status = .queued ∨ t.status = .waitingOffline

theorem Waiting.waits (hw : Waiting op) (ht : t ∈ eligibleTargets op) :
    t.status = .queued ∨ t.status = .waitingOffline ∨ t.status = .unknownResult :=
  (hw t ht).elim .inl fun h => .inr (.inl h)

theorem foldl_targets_steps {f : Store → TargetResult → Store}
    (step : ∀ s, ∀ t ∈ ts, Evolves move s (f s t)) (s : Store) : Evolves move s (ts.foldl f s) := by
  induction ts generalizing s with
  | nil => exact Evolves.refl s
  | cons t ts ih =>
    exact (step s t (by simp)).trans (ih (fun s t ht => step s t (by simp [ht])) (f s t))

theorem queueAll_steps (stage message : String) {status : TargetResult → TargetStatus}
    (waits : ∀ t ∈ eligibleTargets op, status t = .queued ∨ status t = .waitingOffline ∨ status t = .unknownResult) :
    OwnSteps op.id s (queueAll s op req stage message status) :=
  foldl_targets_steps (fun _ t ht => queueTarget_steps _ t.agentId (waits t ht)) s

theorem activateTarget_steps (t : TargetResult) : OwnSteps op.id s (activateTarget op req s t) := by
  unfold activateTarget
  split
  · exact queueTarget_steps _ _ (.inl rfl)
  · exact commit_evolves fun _ h => mark_steps rfl h

theorem restartTargets_steps
    (waits : ∀ t ∈ ts, t.status = .queued ∨ t.status = .waitingOffline ∨ t.status = .unknownResult) :
    OwnSteps op.id s (restartTargets op req ts s).1 := by
  induction ts generalizing s with
  | nil => exact Evolves.refl s
  | cons t ts ih =>
    have rest := fun u => ih (s := u) fun t ht => waits t (by simp [ht])
    unfold restartTargets
    split
    · exact rest s
    · split_ifs
      · exact Evolves.refl s
      · split
        · exact Evolves.refl s
        · rename_i u hu
          exact (mark_steps rfl hu).trans (rest u)
      · exact (commit_evolves fun _ h => mark_steps rfl h).trans (rest _)
      · exact (queueTarget_steps _ _ (waits t (by simp))).trans (rest _)

theorem replaceSecret_steps : OwnSteps op.id s (replaceSecret s op req).1 := by
  unfold replaceSecret
  split
  · split_ifs
    · exact Evolves.refl s
    · split
      · exact Evolves.refl s
      · rename_i secrets _
        have stored : OwnSteps op.id s { s with secrets } := evolves_of_eq rfl rfl rfl
        exact stored.trans (queueTarget_steps _ _ (.inl rfl))
  · exact Evolves.refl s

theorem bumpAgent_evolves (h : bumpAgent op hash s t = .ok s') : Evolves move s s' := by
  unfold bumpAgent at h
  split at h
  · cases h
  · cases h
    refine evolves_of_rows (f := fun row => if hasKey op.id t.agentId row then _ else row) (g := id)
      rfl (by simp [Store.setTargets]) rfl (fun row => ?_) (fun _ => ⟨rfl, rfl, rfl⟩) (fun row j _ => ?_)
    · split <;> exact ⟨rfl, rfl⟩
    · by_cases hk : hasKey op.id t.agentId row <;> simp only [hk, if_true, id_eq] <;> exact .refl

theorem bumpDesired_evolves (h : bumpDesired s op hash = .ok s') : Evolves move s s' := by
  obtain ⟨u, hu, hr⟩ := bind_ok.mp h
  refine Evolves.trans ?_ (refreshOperation_evolves hr)
  exact foldlM_invariant (Evolves move s) hu (Evolves.refl s)
    fun _ _ _ _ hv he => he.trans (bumpAgent_evolves hv)

/-! The handlers of agent actions find what they write. -/

structure Holds (op : NewOperation) (ts : List TargetResult) (s : Store) : Prop where
  row : HasRow s op
  targets : ∀ t ∈ ts, ∃ r ∈ s.targets, r.key = (op.id, t.agentId)

theorem Holds.evolves (h : Holds op ts s) (he : Evolves move s s') : Holds op ts s' := by
  obtain ⟨e⟩ := he
  obtain ⟨o, ho, id, action⟩ := h.row
  constructor
  · have keeps := e.operation_keeps o
    exact ⟨e.operation o, e.mem_operations.mpr ⟨o, ho, rfl⟩, keeps.1.trans id, keeps.2.trans action⟩
  · intro t ht
    obtain ⟨r, hr, key⟩ := h.targets t ht
    exact ⟨e.target r, e.mem_targets.mpr ⟨r, hr, rfl⟩, (e.target_keeps r).1.trans key⟩

theorem Holds.refreshed (h : Holds op ts s) : ∃ s', refreshOperation s op.id = .ok s' := by
  obtain ⟨o, ho, id, -⟩ := h.row
  exact id ▸ refreshOperation_total ho

theorem Holds.marked (h : Holds op ts s) (ht : t ∈ ts) (w : TargetWrite) :
    ∃ s', markTargetAndJob s op.id t.agentId w = .ok s' := by
  obtain ⟨r, hr, key⟩ := h.targets t ht
  have one : s.targets.count (hasKey op.id t.agentId) = 1 :=
    Table.count_eq_one hr (hasKey_iff.mpr key) fun _ ha => (hasKey_iff.mp ha).trans key.symm
  obtain ⟨o, ho, id, -⟩ := h.row
  rw [markTargetAndJob, updateTarget, if_neg (not_not.mpr one), ← id]
  exact refreshOperation_total (s := Store.setJobStatus _ _ _) ho

theorem restartTargets_accepts (h : Holds op ts s) (readable : ∀ t ∈ ts, req.flavorReadable t.agentId)
    (waits : ∀ t ∈ ts, t.status = .queued ∨ t.status = .waitingOffline ∨ t.status = .unknownResult) :
    (restartTargets op req ts s).2 = none := by
  induction ts generalizing s with
  | nil => rfl
  | cons t ts ih =>
    have rest : ∀ u, Evolves (Move (only op.id)) s u → (restartTargets op req ts u).2 = none := fun u he =>
      ih ⟨(h.evolves he).row, fun t ht => (h.evolves he).targets t (by simp [ht])⟩
        (fun t ht => readable t (by simp [ht])) fun t ht => waits t (by simp [ht])
    unfold restartTargets
    split
    · exact rest s (Evolves.refl s)
    · simp only [readable t (by simp), Bool.not_true, Bool.false_eq_true, if_false]
      split_ifs
      · split
        · rename_i error
          obtain ⟨u, marked⟩ := h.marked (t := t) (by simp) _
          rw [marked] at error
          cases error
        · rename_i u hu
          exact rest u (mark_steps rfl hu)
      · exact rest _ (commit_evolves fun _ h => mark_steps rfl h)
      · exact rest _ (queueTarget_steps _ _ (waits t (by simp)))

theorem bumpAgent_total (op : NewOperation) (hash : String → String) (present : (s.agent t.agentId).isSome) :
    ∃ s', bumpAgent op hash s t = .ok s' ∧ ∀ id, (s.agent id).isSome → (s'.agent id).isSome := by
  obtain ⟨a, found⟩ := Option.isSome_iff_exists.mp present
  rw [bumpAgent, found]
  refine ⟨_, rfl, fun id there => ?_⟩
  obtain ⟨b, there⟩ := Option.isSome_iff_exists.mp there
  obtain ⟨mem, own⟩ := agent_eq_some.mp there
  refine Option.isSome_iff_exists.mpr ⟨_, agent_eq_some.mpr
    ⟨(Table.mem_update (by intro; rfl)).mpr ⟨b, mem, rfl⟩, ?_⟩⟩
  split <;> exact own

theorem bumpAgents_total (op : NewOperation) (hash : String → String)
    (present : ∀ t ∈ ts, (s.agent t.agentId).isSome) :
    ∃ s', ts.foldlM (bumpAgent op hash) s = .ok s' := by
  induction ts generalizing s with
  | nil => exact ⟨s, rfl⟩
  | cons t ts ih =>
    obtain ⟨u, bumped, kept⟩ := bumpAgent_total op hash (present t (by simp))
    rw [List.foldlM_cons, bumped]
    exact ih fun t' ht' => kept _ (present t' (by simp [ht']))

theorem bumpDesired_total (hash : String → String) (h : Holds op ts s)
    (present : ∀ t ∈ eligibleTargets op, (s.agent t.agentId).isSome) :
    ∃ s', bumpDesired s op hash = .ok s' := by
  obtain ⟨u, bumped⟩ := bumpAgents_total op hash present
  have evolved : Evolves (Move (only op.id)) s u :=
    foldlM_invariant (Evolves _ s) bumped (Evolves.refl s) fun _ _ _ _ hv he => he.trans (bumpAgent_evolves hv)
  rw [bumpDesired, bumped]
  exact (h.evolves evolved).refreshed

theorem replaceSecret_accepts {t : TargetResult} (one : eligibleTargets op = [t])
    (present : (s.agent t.agentId).isSome) (fresh : ∀ r ∈ s.secrets, r.id ≠ req.secretId) :
    (replaceSecret s op req).2 = none := by
  obtain ⟨a, found⟩ := Option.isSome_iff_exists.mp present
  obtain ⟨secrets, inserted⟩ := Table.insert_fresh (t := s.secrets) (r := ⟨req.secretId, t.agentId, 1⟩) fresh
  simp [replaceSecret, one, found, inserted]

/-- The request or the store makes the handler of an agent action stop halfway. -/
def handlerStops (s : Store) (op : NewOperation) (req : Request) : Bool :=
  match op.action with
  | .secretReplace => (eligibleTargets op).length != 1 || s.secrets.rows.any (·.id == req.secretId)
  | .agentRestart => (eligibleTargets op).any fun t => !req.flavorReadable t.agentId
  | _ => false

theorem serverEffect_accepts (h : Holds op (eligibleTargets op) s) (hw : Waiting op)
    (present : ∀ t ∈ eligibleTargets op, (s.agent t.agentId).isSome) (agents : op.action.scope = .agents)
    (plain : op.action.isUpdate = false) (goes : handlerStops s op req = false) :
    (serverEffect s op req).2 = none := by
  obtain ⟨u, bumped⟩ := bumpDesired_total req.desiredHash h present
  unfold handlerStops at goes
  unfold serverEffect
  cases action : op.action <;> rw [action] at agents plain goes <;> try cases agents
  all_goals try cases plain
  all_goals try rfl
  case agentRestart =>
    exact restartTargets_accepts h (by simpa using goes) fun _ ht => hw.waits ht
  case secretReplace =>
    simp only [Bool.or_eq_false_iff, bne_eq_false_iff_eq, List.any_eq_false, beq_iff_eq] at goes
    obtain ⟨t, one⟩ := List.length_eq_one_iff.mp goes.1
    exact replaceSecret_accepts one (present t (by simp [one])) goes.2
  all_goals simp [bumped, orFail]

def NoJobs (s : Store) (id : String) : Prop := ∀ j ∈ s.jobs, j.operationId ≠ id

theorem noJobs_of_scope (hl : Linked s) (row : HasRow s op) (scope : op.action.scope ≠ .agents) : NoJobs s op.id := by
  intro j hj same
  obtain ⟨o, ho, hid, hact⟩ := row
  obtain ⟨o', ho', hid', hact'⟩ := hl.action j hj
  have eq : o = o' := s.operations.eq_of_key ho ho' (by rw [hid, hid', same])
  exact scope (by rw [← hact, eq, hact', hl.scope j hj])

theorem NoJobs.evolves (h : NoJobs s id) (he : Evolves move s s') : NoJobs s' id := by
  obtain ⟨e⟩ := he
  intro j' hj'
  obtain ⟨j, hj, rfl⟩ := e.mem_jobs.mp hj'
  rw [e.job_operationId]
  exact h j hj

theorem NoJobs.moves (h : NoJobs s id) {P : Prop} {t : TargetRow} {j : JobRow}
    (hp : Paired s t j) (hk : t.key = (id, agent)) : P :=
  absurd (congrArg Prod.fst (hp.2.2.symm.trans hk)) (h j hp.2.1)

theorem confirmServer_evolves (quiet : NoJobs s op.id) (c : Confirmation) :
    Evolves move s (confirmServer s op c).1 := by
  unfold confirmServer
  split
  · rename_i u hu
    exact updateTargetAndRefresh_evolves hu fun _ _ hp hk => quiet.moves hp hk
  · exact Evolves.refl s

theorem orFail_evolves {r : Tx} (h : ∀ u, r = .ok u → Evolves move s u) : Evolves move s (orFail s r).1 := by
  cases r with
  | error e => exact Evolves.refl s
  | ok u => exact h u rfl

theorem revokeAgent_evolves {t : TargetRow} (quiet : NoJobs s id) (h : revokeAgent id s t = .ok s') :
    Evolves move s s' := by
  unfold revokeAgent at h
  split_ifs at h
  · cases h
    exact Evolves.refl s
  · refine Evolves.trans ?_ (updateTarget_evolves h fun _ _ hp hk => NoJobs.moves ?_ hp hk)
    · exact evolves_of_eq rfl rfl rfl
    · exact quiet

theorem revokeOperationAgents_evolves (quiet : NoJobs s id) (h : revokeOperationAgents s id = .ok s') :
    Evolves move s s' := by
  unfold revokeOperationAgents at h
  split_ifs at h
  dsimp only at h
  split_ifs at h
  obtain ⟨u, hu, hr⟩ := bind_ok.mp h
  refine Evolves.trans ?_ (refreshOperation_evolves hr)
  exact foldlM_invariant (Evolves move s) hu (Evolves.refl s)
    fun _ _ _ _ hv he => he.trans (revokeAgent_evolves (quiet.evolves he) hv)

theorem controlRollout_evolves {controlOp : String} {expected : Int} {pause : Bool} {now : Time}
    (quiet : NoJobs s controlOp) (h : controlRollout s id expected pause controlOp now = .ok s') :
    Evolves move s s' := by
  obtain ⟨_, _, _, u, -, -, hu, rest⟩ := controlRollout_ok h
  have first : Evolves move s u :=
    (setRolloutState_evolves s _ _ _).trans (refreshOperation_evolves hu)
  obtain rfl | ⟨w, v, hv, hr⟩ := rest
  · exact first
  · have written : Evolves move u v :=
      updateTarget_evolves hv fun _ _ hp hk => (quiet.evolves first).moves hp hk
    exact (first.trans written).trans (refreshOperation_evolves hr)

theorem handleRollout_steps (hl : Linked s) : OwnSteps op.id s (handleRollout s op req).1 := by
  unfold handleRollout
  split
  · exact orFail_evolves fun _ h => publishUpdatePlan_steps hl h
  · split
    · exact Evolves.refl s
    · split_ifs
      · exact orFail_evolves fun _ h => publishUpdatePlan_steps hl h
      · exact orFail_evolves fun _ h => publishBatchedUpdatePlan_steps hl (fun _ => rfl) h
      · exact orFail_evolves fun _ h => publishUpdatePlan_steps hl h

theorem confirmation_scope {a : Action} {c : Confirmation} (h : confirmation a = some c) : a.scope ≠ .agents := by
  cases a <;> simp_all [confirmation, Action.scope]

theorem serverEffect_evolves (le : ∀ key a b, Move (only op.id) key a b → move key a b)
    (cancel : ∀ id u, cancelPending s id = .ok u → Evolves move s u) (hl : Linked s)
    (row : HasRow s op) (hw : Waiting op) : Evolves move s (serverEffect s op req).1 := by
  have quiet : op.action.scope ≠ .agents → NoJobs s op.id := noJobs_of_scope hl row
  unfold serverEffect
  split
  case h_1 action =>
    exact orFail_evolves fun _ h => revokeOperationAgents_evolves (quiet (by rw [action]; decide)) h
  case h_2 action =>
    dsimp only
    split
    · exact Evolves.refl s
    · rename_i u hu
      have cancelled := cancel _ u hu
      exact cancelled.trans
        (confirmServer_evolves ((quiet (by rw [action]; decide)).evolves cancelled) _)
  case h_7 => exact replaceSecret_steps.mono le
  case h_8 =>
    refine (queueAll_steps _ _ fun t _ => ?_).mono le
    by_cases h : t.status = .waitingOffline <;> simp [h]
  case h_9 => exact (queueAll_steps _ _ fun _ _ => .inl rfl).mono le
  case h_10 => exact foldl_targets_steps (fun _ t _ => (activateTarget_steps t).mono le) s
  case h_11 => exact (queueAll_steps _ _ fun _ _ => .inl rfl).mono le
  case h_12 => exact (handleRollout_steps hl).mono le
  case h_13 => exact (handleRollout_steps hl).mono le
  case h_14 action =>
    exact orFail_evolves fun _ h => controlRollout_evolves (quiet (by rw [action]; decide)) h
  case h_15 action =>
    exact orFail_evolves fun _ h => controlRollout_evolves (quiet (by rw [action]; decide)) h
  case h_16 => exact (restartTargets_steps fun _ ht => hw.waits ht).mono le
  case h_21 =>
    split
    · rename_i c hc
      exact confirmServer_evolves (quiet (confirmation_scope hc)) c
    · exact Evolves.refl s
  all_goals first
    | exact orFail_evolves fun _ h => bumpDesired_evolves h
    | exact (queueAll_steps _ _ fun _ ht => hw.waits ht).mono le

theorem executeServerSide_evolves (req : Request) (le : ∀ key a b, Move (only op.id) key a b → move key a b)
    (cancel : ∀ id u, cancelPending s id = .ok u → Evolves move s u) (hl : Linked s)
    (row : HasRow s op) (hw : Waiting op) : Evolves move s (executeServerSide s op req).1 := by
  unfold executeServerSide
  split
  · exact Evolves.refl s
  · exact serverEffect_evolves le cancel hl row hw

theorem executeServerSide_steps (req : Request) (hl : Linked s) (ok : PairInv InStep s) (row : HasRow s op)
    (hw : Waiting op) : OwnSteps op.id s (executeServerSide s op req).1 :=
  executeServerSide_evolves req (fun _ _ _ m => m) (fun _ _ h => cancelPending_steps hl ok h) hl row hw

def AllClosed (s : Store) (id : String) : Prop :=
  ∀ j ∈ s.jobs, j.operationId = id → j.status.terminal

theorem AllClosed.steps {p : Permits} (h : AllClosed s id) (hl : Linked s) (he : Steps p s s') : AllClosed s' id := by
  intro j' hj' hid
  obtain ⟨j, hj, hk, -, kept⟩ := he.jobs_keep (P := fun st => st.terminal) hl hj'
    fun _ _ m => m.terminal_kept
  exact kept (h j hj ((congrArg Prod.fst hk).trans hid))

/-- Without a closed job the error branch is sound only where it leaves the result unknown or closes both.
-/
theorem closeTarget_steps (t : TargetResult)
    (closes : op.action.isUpdate ∨ (∃ message, e = .unconfirmed message) ∨ AllClosed s op.id) :
    OwnSteps op.id s (closeTarget op e s t) := by
  unfold closeTarget
  split
  · exact Evolves.refl s
  · split
    · exact note_steps t.agentId (.inr (.inr rfl))
    · split_ifs with update
      · exact commit_evolves fun _ h => mark_steps rfl h
      · have closed : AllClosed s op.id := by
          obtain h | ⟨_, h⟩ | h := closes
          · exact absurd h update
          · cases h
          · exact h
        refine commit_evolves fun _ h => updateTargetAndRefresh_evolves h fun t j hp hk => ?_
        have opId : j.operationId = op.id := congrArg Prod.fst (hp.2.2.symm.trans hk)
        exact .single (.close rfl (closed j hp.2.1 opId))

theorem closeTargets_steps (hl : Linked s)
    (closes : op.action.isUpdate ∨ (∃ message, e = .unconfirmed message) ∨ AllClosed s op.id) :
    OwnSteps op.id s (closeTargets s op e) := by
  unfold closeTargets
  generalize op.targets.map Prod.fst = ts
  induction ts generalizing s with
  | nil => exact Evolves.refl s
  | cons t ts ih =>
    have first := closeTarget_steps t closes
    refine first.trans (ih (first.linked hl) ?_)
    exact closes.imp id fun h => h.imp id fun closed => closed.steps hl first

theorem initialTarget_status (s : Store) (now : Time) (id : String) :
    (initialTarget s now id).status = .rejected ∨ (initialTarget s now id).status = .queued ∨
      (initialTarget s now id).status = .waitingOffline := by
  unfold initialTarget
  split
  · exact .inl rfl
  · split_ifs
    · exact .inl rfl
    · exact .inr (.inr rfl)
    · exact .inr (.inl rfl)

theorem lifecycleGate_eligible {action : Action} (h : eligible (lifecycleGate s action t)) :
    lifecycleGate s action t = t ∧ eligible t := by
  unfold lifecycleGate at h ⊢
  split at h
  · exact ⟨rfl, h⟩
  · split_ifs at h ⊢
    · simp [eligible] at h
    · exact ⟨rfl, h⟩

theorem newOperation_eligible (ht : t ∈ eligibleTargets (newOperation s req)) :
    ∃ id, t = initialTarget s req.now id ∧ t.status ≠ .rejected := by
  simp only [eligibleTargets, newOperation, List.map_map, Function.comp_def,
    List.mem_filter, submittedTargets, List.mem_map] at ht
  obtain ⟨⟨x, hx, rfl⟩, open'⟩ := ht
  obtain ⟨same, hopen⟩ := lifecycleGate_eligible open'
  rw [same]
  have initial : (∃ id, x = initialTarget s req.now id) ∨ x = serverTarget := by
    split_ifs at hx
    · obtain ⟨id, -, rfl⟩ := List.mem_map.mp hx
      exact .inl ⟨id, rfl⟩
    · obtain ⟨id, -, rfl⟩ := List.mem_map.mp hx
      exact .inl ⟨id, rfl⟩
    · exact .inr (List.mem_singleton.mp hx)
  simp only [eligible, Bool.and_eq_true, bne_iff_ne, ne_eq] at hopen
  obtain ⟨id, rfl⟩ | rfl := initial
  · exact ⟨id, rfl, hopen.2⟩
  · exact absurd rfl hopen.1

theorem newOperation_waiting (s : Store) (req : Request) : Waiting (newOperation s req) := by
  intro t ht
  obtain ⟨id, rfl, open'⟩ := newOperation_eligible ht
  exact (initialTarget_status s req.now id).resolve_left open'

theorem newOperation_present (ht : t ∈ eligibleTargets (newOperation s req)) :
    (s.agent t.agentId).isSome := by
  obtain ⟨id, rfl, open'⟩ := newOperation_eligible ht
  unfold initialTarget at open' ⊢
  cases found : s.agent id with
  | none => simp [found] at open'
  | some a =>
    dsimp only
    split_ifs <;> simp [found]

end Monik.ServerSteps
