import Mathlib.Data.List.Dedup
import Monik.ControllerRule

/-! The stored status of an operation against its targets: whatever writes a target or a rollout
state must call `refreshOperationTx`. `Tallied` says whose status may be out of date. -/

namespace Monik.StatusAgreement
open Protocol Tables ControllerStore Operations JobEvolution JobSteps Rollouts RolloutSteps
open Submission SubmissionSteps Runs
open ControllerRule (Rule)
open DispatchSafety (Event step)

variable {id op agent release : String} {f : TargetRow → TargetRow} {w : TargetWrite} {p : RolloutRow → Bool}
    {now : Time} {r : Rollout} {plan : List PreparedUpdateTarget} {x : TargetResult × String} {req : Request}

def statusesOf (s : Store) (id : String) : List TargetStatus :=
  (s.targets.rows.filter fun t => t.operationId == id).map TargetRow.status

def rolloutState (s : Store) (id : String) : Option RolloutState :=
  (s.rollout id).map RolloutRow.state

def recomputed (s : Store) (id : String) : OperationStatus :=
  aggregate (statusesOf s id) (rolloutState s id)

def Agrees (s : Store) (o : OperationRow) : Prop :=
  o.status = recomputed s o.id ∨ ∃ st ∈ statusesOf s o.id, targetTerminal st = false

/-- Every operation agrees with its targets, those in `stale` apart. -/
structure Tallied (stale : String → Prop) (s : Store) : Prop where
  agrees : ∀ o ∈ s.operations, ¬stale o.id → Agrees s o
  owned : ∀ t ∈ s.targets, ∃ o ∈ s.operations, o.id = t.operationId

variable {s s' s'' : Store} {stale : String → Prop} {ids : String → Prop}

theorem mem_statusesOf {st : TargetStatus} :
    st ∈ statusesOf s id ↔ ∃ t ∈ s.targets, t.operationId = id ∧ t.status = st := by
  simp only [statusesOf, List.mem_map, List.mem_filter, beq_iff_eq, and_assoc]
  rfl

structure Touches (ids : String → Prop) (s s' : Store) : Prop where
  operations : s'.operations = s.operations
  targets : ∃ f : TargetRow → TargetRow, s'.targets.rows = s.targets.rows.map f ∧
    (∀ t, (f t).operationId = t.operationId) ∧
    ∀ t, ¬ids t.operationId → (f t).status = t.status
  rollouts : ∀ id, ¬ids id → rolloutState s' id = rolloutState s id

theorem Touches.of_eq (operations : s'.operations = s.operations) (targets : s'.targets = s.targets)
    (rollouts : s'.rollouts = s.rollouts) : Touches ids s s' := by
  refine ⟨operations, ⟨id, by rw [targets, List.map_id], fun _ => rfl, fun _ _ => rfl⟩, fun id _ => ?_⟩
  rw [rolloutState, rolloutState, Store.rollout, Store.rollout, rollouts]

theorem Touches.refl (s : Store) : Touches ids s s := .of_eq rfl rfl rfl

theorem Touches.trans (h : Touches ids s s') (h' : Touches ids s' s'') : Touches ids s s'' := by
  obtain ⟨f, rows, keep, same⟩ := h.targets
  obtain ⟨g, rows', keep', same'⟩ := h'.targets
  refine ⟨h'.operations.trans h.operations,
    ⟨g ∘ f, by rw [rows', rows, List.map_map], fun t => (keep' _).trans (keep t), fun t ht => ?_⟩,
    fun id hid => (h'.rollouts id hid).trans (h.rollouts id hid)⟩
  have moved := same' (f t) (by rwa [keep t])
  exact moved.trans (same t ht)

theorem Touches.statusesOf (h : Touches ids s s') (other : ¬ids id) : statusesOf s' id = statusesOf s id := by
  obtain ⟨f, rows, keep, same⟩ := h.targets
  rw [StatusAgreement.statusesOf, rows, List.filter_map, List.map_map]
  have selected : ((fun t : TargetRow => t.operationId == id) ∘ f) = fun t => t.operationId == id := by
    funext t
    simp [keep t]
  rw [selected]
  refine List.map_congr_left fun t ht => same t ?_
  simp only [List.mem_filter, beq_iff_eq] at ht
  rwa [ht.2]

theorem Touches.tallied (h : Touches ids s s') (hs : Tallied stale s) : Tallied (fun id => stale id ∨ ids id) s' := by
  constructor
  · intro o ho fresh
    rw [h.operations] at ho
    rw [not_or] at fresh
    have agrees := hs.agrees o ho fresh.1
    rwa [Agrees, recomputed, ← h.statusesOf fresh.2, ← h.rollouts _ fresh.2] at agrees
  · intro t' ht'
    obtain ⟨f, rows, keep, -⟩ := h.targets
    rw [← Table.mem_rows, rows] at ht'
    obtain ⟨t, ht, rfl⟩ := List.mem_map.mp ht'
    rw [h.operations, keep t]
    exact hs.owned t ht

theorem Tallied.mono {more : String → Prop} (h : Tallied stale s) (le : ∀ id, stale id → more id) : Tallied more s :=
  ⟨fun o ho fresh => h.agrees o ho fun old => fresh (le _ old), h.owned⟩

def restate (op : String) (status : OperationStatus) (o : OperationRow) : OperationRow :=
  if o.id == op then { o with status, revision := o.revision + 1 } else o

theorem restate_id (op : String) (status : OperationStatus) (o : OperationRow) : (restate op status o).id = o.id := by
  unfold restate
  split <;> rfl

theorem refreshOperation_rows (h : refreshOperation s op = .ok s') : ∃ operations, s' = { s with operations } ∧
      operations.rows = s.operations.rows.map (restate op (recomputed s op)) := by
  unfold refreshOperation at h
  split at h
  · cases h
  · cases h
    exact ⟨_, rfl, rfl⟩

theorem Tallied.refresh (hs : Tallied stale s) (h : refreshOperation s op = .ok s') :
    Tallied (fun id => stale id ∧ id ≠ op) s' := by
  obtain ⟨operations, rfl, rows⟩ := refreshOperation_rows h
  have mem : ∀ o', o' ∈ operations ↔ ∃ o ∈ s.operations, restate op (recomputed s op) o = o' := by
    intro o'
    rw [← Table.mem_rows, rows, List.mem_map]
    rfl
  constructor
  · intro o' ho' fresh
    obtain ⟨o, ho, rfl⟩ := (mem o').mp ho'
    by_cases own : o.id = op
    · subst own
      simp only [restate, beq_self_eq_true, if_true]
      exact .inl rfl
    · rw [restate_id] at fresh
      have other : restate op (recomputed s op) o = o := by simp [restate, own]
      rw [other]
      exact hs.agrees o ho fun old => fresh ⟨old, own⟩
  · intro t ht
    obtain ⟨o, ho, hid⟩ := hs.owned t ht
    exact ⟨_, (mem _).mpr ⟨o, ho, rfl⟩, (restate_id op _ o).trans hid⟩

def Faithful (s s' : Store) : Prop := ∀ stale, Tallied stale s → Tallied stale s'

theorem Faithful.refl (s : Store) : Faithful s s := fun _ h => h

theorem Faithful.trans (h : Faithful s s') (h' : Faithful s' s'') : Faithful s s'' :=
  fun stale hs => h' stale (h stale hs)

theorem Touches.faithful (h : Touches (· = op) s s') (hr : refreshOperation s' op = .ok s'') : Faithful s s'' := by
  intro stale hs
  refine ((h.tallied hs).refresh hr).mono fun id stays => ?_
  exact stays.1.resolve_right stays.2

theorem Touches.quiet (h : Touches (fun _ => False) s s') : Faithful s s' :=
  fun _ hs => (h.tallied hs).mono fun _ stays => stays.resolve_right id

theorem foldl_faithful {α : Type} {f : Store → α → Store} (step : ∀ s x, Faithful s (f s x))
    (xs : List α) (s : Store) : Faithful s (xs.foldl f s) := by
  induction xs generalizing s with
  | nil => exact .refl s
  | cons x xs ih => exact (step s x).trans (ih (f s x))

theorem foldlM_touches {α : Type} {f : Store → α → Tx} {xs : List α}
    (step : ∀ u v x, f u x = .ok v → Touches ids u v) (h : xs.foldlM f s = .ok s') : Touches ids s s' :=
  foldlM_invariant (Touches ids s) h (.refl s) fun x _ u v hv hu => hu.trans (step u v x hv)

theorem setTargets_touches {p : TargetRow → Bool}
    (keep : ∀ t, (f t).key = t.key) (own : ∀ t, p t → ids t.operationId) :
    Touches ids s (s.setTargets p f keep) := by
  refine ⟨rfl, ⟨fun t => if p t then f t else t, rfl, fun t => ?_, fun t other => ?_⟩, fun _ _ => rfl⟩ <;>
    dsimp only
  · split
    · exact congrArg Prod.fst (keep t)
    · rfl
  · split
    · rename_i selected
      exact absurd (own t selected) other
    · rfl

theorem setJobs_touches {p : JobRow → Bool} {f : JobRow → JobRow} (keep : ∀ j, (f j).jobId = j.jobId) :
    Touches ids s (s.setJobs p f keep) :=
  .of_eq rfl rfl rfl

theorem setTarget_touches (keep : ∀ t, (f t).key = t.key) :
    Touches (· = op) s (s.setTargets (hasKey op agent) f keep) :=
  setTargets_touches keep fun _ selected => congrArg Prod.fst (hasKey_iff.mp selected)

theorem updateTarget_touches (h : updateTarget s op agent w = .ok s') : Touches (· = op) s s' := by
  rw [(updateTarget_ok h).1]
  exact setTarget_touches _

theorem updateTargetAndRefresh_faithful (h : updateTargetAndRefresh s op agent w = .ok s') : Faithful s s' := by
  obtain ⟨u, hu, hr⟩ := bind_ok.mp h
  exact (updateTarget_touches hu).faithful hr

theorem markTargetAndJob_faithful (h : markTargetAndJob s op agent w = .ok s') : Faithful s s' := by
  obtain ⟨u, hu, hr⟩ := bind_ok.mp h
  exact ((updateTarget_touches hu).trans (setJobs_touches _)).faithful hr

theorem supersedeSparkRestart_faithful {parent stop : String}
    (h : supersedeSparkRestart s agent parent stop = .ok s') : Faithful s s' := by
  unfold supersedeSparkRestart at h
  split at h
  · cases h
  · obtain ⟨u, hu, hr⟩ := bind_ok.mp h
    exact ((updateTarget_touches hu).trans (setJobs_touches _)).faithful hr

theorem applyReceipt_faithful {r : JobReceipt} {spark : SparkAnswers} (h : applyReceipt s agent r spark = .ok s') :
    Faithful s s' := by
  obtain rfl | ⟨j, -, -, -, -, -, -, hr⟩ := applyReceipt_cases h
  · exact .refl _
  · exact ((setJobs_touches _).trans (setTarget_touches _)).faithful hr

theorem rolloutState_update {f : RolloutRow → RolloutRow} (keep : ∀ r, (f r).operationId = r.operationId)
    (same : ∀ r, r.operationId = id → p r → (f r).state = r.state) :
    rolloutState { s with rollouts := s.rollouts.update p f keep } id = rolloutState s id := by
  simp only [rolloutState, Store.rollout, Table.find?, Table.update]
  induction s.rollouts.rows with
  | nil => rfl
  | cons r rows ih =>
    have kept : (if p r then f r else r).operationId = r.operationId := by
      split
      · exact keep r
      · rfl
    rw [List.map_cons, List.find?_cons, List.find?_cons, kept]
    by_cases own : r.operationId = id
    · by_cases selected : p r <;> simp [own, selected, same]
    · have other : (r.operationId == id) = false := by simpa using own
      simpa only [other] using ih

theorem setRollouts_touches {f : RolloutRow → RolloutRow} (keep : ∀ r, (f r).operationId = r.operationId)
    (own : ∀ r, p r → ids r.operationId ∨ (f r).state = r.state) :
    Touches ids s { s with rollouts := s.rollouts.update p f keep } := by
  refine ⟨rfl, ⟨id, by rw [List.map_id], fun _ => rfl, fun _ _ => rfl⟩, fun id other => ?_⟩
  exact rolloutState_update keep fun r hr selected =>
    (own r selected).resolve_left (by rwa [hr])

theorem setRolloutState_touches (s : Store) (op reason : String) (state : RolloutState) :
    Touches (· = op) s (setRolloutState s op state reason) :=
  setRollouts_touches _ fun _ selected => .inl (beq_iff_eq.mp selected)

theorem setRolloutState_faithful {reason : String} {state : RolloutState}
    (h : refreshOperation (setRolloutState s op state reason) op = .ok s') : Faithful s s' :=
  (setRolloutState_touches s op reason state).faithful h

theorem cancelPending_faithful (h : cancelPending s op = .ok s') : Faithful s s' := by
  unfold cancelPending at h
  split at h
  · cases h
  · refine Touches.faithful (((((setTargets_touches _ fun t selected => ?_).trans
      (setJobs_touches _)).trans (setTargets_touches _ fun t selected => ?_)).trans
      (setJobs_touches _)).trans (setRollouts_touches _ fun r selected => .inl ?_)) h
    · simp only [restartTarget, Bool.and_eq_true, beq_iff_eq] at selected
      exact selected.1.1.1
    · simp only [undispatched, Bool.and_eq_true, beq_iff_eq] at selected
      exact selected.1.1
    · simp only [Bool.and_eq_true, beq_iff_eq] at selected
      exact selected.1.1

theorem guardJob_touches {j : JobRow} (own : (guardOutcome now j).isSome → ids j.operationId) :
    Touches ids s (guardJob now s j) := by
  unfold guardJob
  split
  · exact .refl s
  · rename_i status outcome
    refine (setJobs_touches _).trans (setTargets_touches _ fun t selected => ?_)
    have key : t.operationId = j.operationId := congrArg Prod.fst (hasKey_iff.mp selected)
    rw [key]
    exact own (by rw [outcome]; rfl)

theorem guardJobs_touches {items : List JobRow}
    (own : ∀ j ∈ items, (guardOutcome now j).isSome → ids j.operationId) (s : Store) :
    Touches ids s (items.foldl (guardJob now) s) := by
  induction items generalizing s with
  | nil => exact .refl s
  | cons j items ih =>
    exact (guardJob_touches (own j (by simp))).trans (ih (fun k hk => own k (by simp [hk])) _)

theorem refreshAll_tallied {ops : List String} (hs : Tallied (fun id => stale id ∨ id ∈ ops) s)
    (h : ops.foldlM refreshOperation s = .ok s') : Tallied stale s' := by
  induction ops generalizing s with
  | nil =>
    cases h
    exact hs.mono fun id stays => stays.resolve_right List.not_mem_nil
  | cons op ops ih =>
    obtain ⟨u, hu, rest⟩ := bind_ok.mp h
    refine ih ((hs.refresh hu).mono fun id stays => ?_) rest
    exact stays.1.imp_right fun mem => (List.mem_cons.mp mem).resolve_left stays.2

theorem expireAndBlockJobs_faithful (h : expireAndBlockJobs s now = .ok s') : Faithful s s' := by
  intro stale hs
  refine refreshAll_tallied ((guardJobs_touches (fun j hj outcome => ?_) s).tallied hs) h
  rw [List.mem_dedup]
  exact List.mem_map_of_mem (List.mem_filter.mpr ⟨hj, outcome⟩)

theorem claimJobs_faithful {limit : Int} {authority : JobEnvelope → Except StoreError Bool} {out : List JobEnvelope}
    (h : claimJobs s agent limit now authority = .ok (s', out)) : Faithful s s' := by
  obtain ⟨out', -, hd⟩ := bind_ok.mp h
  cases hd
  exact foldl_faithful (fun _ _ => (setJobs_touches _).quiet) _ s

theorem releaseMember_touches {r : RolloutRow} {expires : Time} {m : RolloutMember}
    (h : releaseMember r now expires s m = .ok s') : Touches (· = r.operationId) s s' := by
  rw [releaseMember_ok h]
  have written : Touches (· = r.operationId) s (released r now expires s m) :=
    (setJobs_touches _).trans (setTarget_touches _)
  exact written.trans (.of_eq rfl rfl rfl)

theorem startWave_touches (s : Store) (id : String) (now : Time) : Touches ids s (startWave s id now) :=
  setRollouts_touches _ fun _ _ => .inr rfl

theorem saveWindow_touches (s : Store) (id : String) (since now : Time) : Touches ids s (saveWindow s id since now) :=
  setRollouts_touches _ fun _ _ => .inr rfl

theorem setWave_touches (s : Store) (id : String) (wave : Nat) : Touches ids s (setWave s id wave) :=
  setRollouts_touches _ fun _ _ => .inr rfl

theorem releaseWave_touches {wave : Nat} (h : releaseWave s r wave now = .ok s') :
    Touches (· = r.row.operationId) s s' := by
  obtain ⟨reason, rfl⟩ | ⟨expires, u, -, hu, rfl⟩ := releaseWave_cases h
  · exact setRolloutState_touches s _ reason .blocked
  · exact (foldlM_touches (fun _ _ _ => releaseMember_touches) hu).trans (startWave_touches u _ now)

theorem advanceRollout_faithful (h : advanceRollout s r now = .ok s') : Faithful s s' := by
  obtain rfl | ⟨_, _, -, hr⟩ | ⟨-, hw⟩ := advanceRollout_cases h
  · exact .refl _
  · exact setRolloutState_faithful hr
  · obtain rfl | ⟨_, hr⟩ | ⟨-, u, hu, hr⟩ := advanceWindow_cases hw
    · exact (saveWindow_touches s _ _ now).quiet
    · exact setRolloutState_faithful hr
    · exact ((setWave_touches s _ _).trans (releaseWave_touches hu)).faithful hr

theorem controlRollout_faithful {controlOp : String} {expected : Int} {pause : Bool}
    (h : controlRollout s id expected pause controlOp now = .ok s') : Faithful s s' := by
  obtain ⟨_, _, _, u, -, -, hu, rest⟩ := controlRollout_ok h
  have first := setRolloutState_faithful hu
  obtain rfl | ⟨w, v, hv, hr⟩ := rest
  · exact first
  · exact first.trans ((updateTarget_touches hv).faithful hr)

/-! Publication of an update plan. -/

theorem publishTarget_touches {x : PreparedUpdateTarget} (h : publishTarget op s x = .ok s') :
    Touches (· = op) s s' := by
  unfold publishTarget at h
  split at h
  · cases h
  · split_ifs at h
    exact (setJobs_touches _).trans (updateTarget_touches h)

theorem publishUpdatePlan_faithful (h : publishUpdatePlan s op plan = .ok s') : Faithful s s' := by
  obtain ⟨u, hu, hr⟩ := bind_ok.mp h
  exact (foldlM_touches (fun _ _ _ => publishTarget_touches) hu).faithful hr

theorem holdTarget_touches {x : PreparedUpdateTarget} (h : holdTarget op release s x = .ok s') :
    Touches (· = op) s s' := by
  unfold holdTarget at h
  split at h
  · cases h
  · split at h
    · cases h
    · dsimp only at h
      split_ifs at h
      exact (setJobs_touches _).trans (updateTarget_touches h)

theorem insertMember_touches {m : MemberRow} (h : insertMember s m = .ok s') : Touches ids s s' := by
  unfold insertMember at h
  split at h
  · cases h
  · cases h
    exact .of_eq rfl rfl rfl

theorem insertRollout_touches {row : RolloutRow} {rollouts : Table RolloutRow RolloutRow.operationId}
    (h : s.rollouts.insert row = some rollouts) : Touches (· = row.operationId) s { s with rollouts } := by
  refine ⟨rfl, ⟨id, by rw [List.map_id], fun _ => rfl, fun _ _ => rfl⟩, fun id other => ?_⟩
  have unmatched : (row.operationId == id) = false := by simpa using fun same => other same.symm
  simp only [rolloutState, Store.rollout, Table.find?, Table.insert_rows h, List.find?_append,
    List.find?_cons, unmatched, List.find?_nil, Option.or_none]

theorem publishBatchedUpdatePlan_faithful {opts : RolloutOptions}
    (h : publishBatchedUpdatePlan s op release plan opts now = .ok s') : Faithful s s' := by
  unfold publishBatchedUpdatePlan at h
  split_ifs at h
  split at h
  · cases h
  dsimp only at h
  split at h
  · cases h
  rename_i rollouts inserted
  obtain ⟨u, hu, h⟩ := bind_ok.mp h
  obtain ⟨v, hv, h⟩ := bind_ok.mp h
  obtain ⟨r, hr, h⟩ := bind_ok.mp h
  obtain ⟨w, hw, h⟩ := bind_ok.mp h
  have released := releaseWave_touches hw
  rw [(readRollout_ok hr).id_eq] at released
  have begun := (insertRollout_touches inserted).trans
    (foldlM_touches (fun _ _ _ => holdTarget_touches) hu)
  exact ((begun.trans (foldlM_touches (fun _ _ _ => insertMember_touches) hv)).trans
    released).faithful h

theorem bumpDesired_faithful {op : NewOperation} {hash : String → String}
    (h : bumpDesired s op hash = .ok s') : Faithful s s' := by
  obtain ⟨u, hu, hr⟩ := bind_ok.mp h
  refine (foldlM_touches (fun v w t hw => ?_) hu).faithful hr
  unfold bumpAgent at hw
  split at hw
  · cases hw
  · cases hw
    refine Touches.trans ?_ (setTarget_touches _)
    exact .of_eq rfl rfl rfl

theorem revokeOperationAgents_faithful (h : revokeOperationAgents s id = .ok s') : Faithful s s' := by
  unfold revokeOperationAgents at h
  split_ifs at h
  dsimp only at h
  split_ifs at h
  obtain ⟨u, hu, hr⟩ := bind_ok.mp h
  refine (foldlM_touches (fun v w t hw => ?_) hu).faithful hr
  unfold revokeAgent at hw
  split_ifs at hw
  · cases hw
    exact .refl _
  · refine Touches.trans ?_ (updateTarget_touches hw)
    exact .of_eq rfl rfl rfl

theorem patchJobParams_touches (s : Store) (op agent : String) (extra : Fields) :
    Touches ids s (patchJobParams s op agent extra) := by
  unfold patchJobParams
  split
  · exact .refl s
  · exact setJobs_touches _

theorem faithful_rule : Rule Faithful where
  refl := .refl
  trans := .trans
  update := updateTargetAndRefresh_faithful
  mark := fun _ h => markTargetAndJob_faithful h
  patch := fun s op agent extra => (patchJobParams_touches s op agent extra).quiet
  secret := fun _ _ => Touches.quiet (.of_eq rfl rfl rfl)
  bump := bumpDesired_faithful
  revoke := revokeOperationAgents_faithful
  plan := publishUpdatePlan_faithful
  batch := publishBatchedUpdatePlan_faithful
  control := controlRollout_faithful
  cancel := cancelPending_faithful
  receipt := applyReceipt_faithful
  expire := expireAndBlockJobs_faithful
  advance := advanceRollout_faithful
  claim := claimJobs_faithful
  supersede := supersedeSparkRestart_faithful
  reopen := fun _ => Touches.quiet (setRollouts_touches _ fun _ _ => .inr rfl)

/-! Insertion of an operation and the whole submission. -/

structure Added (op : NewOperation) (s s' : Store) : Prop where
  fresh : ∀ o ∈ s.operations, o.id ≠ op.id
  row : ∃ row : OperationRow, row.id = op.id ∧ row.action = op.action ∧
    ∀ o, o ∈ s'.operations ↔ o ∈ s.operations ∨ o = row
  targets : s'.targets.rows = s.targets.rows ++ op.targets.map fun x => newTarget op x.1 x.2
  rollouts : s'.rollouts = s.rollouts

theorem insertTarget_rows {op : NewOperation} (h : insertTarget op s x = .ok s') :
    s'.targets.rows = s.targets.rows ++ [newTarget op x.1 x.2] := by
  unfold insertTarget at h
  split at h
  · cases h
  · rename_i targets inserted
    have rows := Table.insert_rows inserted
    split at h
    · split at h
      · cases h
      · cases h
        exact rows
    · cases h
      exact rows

theorem insertTargets_rows {op : NewOperation} {xs : List (TargetResult × String)}
    (h : xs.foldlM (insertTarget op) s = .ok s') :
    s'.targets.rows = s.targets.rows ++ (xs.map fun x => newTarget op x.1 x.2) := by
  induction xs generalizing s with
  | nil =>
    cases h
    simp
  | cons x xs ih =>
    obtain ⟨u, hu, rest⟩ := bind_ok.mp h
    rw [ih rest, insertTarget_rows hu, List.map_cons, List.append_assoc, List.singleton_append]

theorem insertOperation_added {op : NewOperation} {model : Option ModelIntent}
    (h : insertOperation s op model = .ok s') : ∃ u, Added op s u ∧
      (model = none ∧ s' = u ∨ ∃ m, model = some m ∧ insertIntent u op m = .ok s') := by
  obtain ⟨-, operations, u, inserted, hu, rest⟩ := insertOperation_inserts h
  obtain ⟨fresh, mem⟩ := Table.insert_some inserted
  have frame := insertTargets_frame hu
  have kept : u.operations = operations := frame.operations
  rw [← kept] at mem
  have rows := insertTargets_rows hu
  exact ⟨u, ⟨fresh, ⟨_, rfl, rfl, mem⟩, rows, frame.same.rollouts⟩, rest⟩

theorem Added.statusesOf_other {op : NewOperation} (h : Added op s s') (other : id ≠ op.id) :
    statusesOf s' id = statusesOf s id := by
  have none : (op.targets.map fun x => newTarget op x.1 x.2).filter
      (fun t => t.operationId == id) = [] := by
    rw [List.filter_eq_nil_iff]
    intro t ht
    obtain ⟨x, -, rfl⟩ := List.mem_map.mp ht
    simpa [newTarget] using other.symm
  rw [statusesOf, statusesOf, h.targets, List.filter_append, none, List.append_nil]

theorem Added.statusesOf_own {op : NewOperation} (h : Added op s s')
    (owned : ∀ t ∈ s.targets, ∃ o ∈ s.operations, o.id = t.operationId) :
    statusesOf s' op.id = op.targets.map fun x => x.1.status := by
  have old : s.targets.rows.filter (fun t => t.operationId == op.id) = [] := by
    rw [List.filter_eq_nil_iff]
    intro t ht own
    obtain ⟨o, ho, hid⟩ := owned t ht
    exact h.fresh o ho (hid.trans (beq_iff_eq.mp own))
  have new : (op.targets.map fun x => newTarget op x.1 x.2).filter
      (fun t => t.operationId == op.id) = op.targets.map fun x => newTarget op x.1 x.2 := by
    rw [List.filter_eq_self]
    intro t ht
    obtain ⟨x, -, rfl⟩ := List.mem_map.mp ht
    simp [newTarget]
  rw [statusesOf, h.targets, List.filter_append, old, List.nil_append, new, List.map_map]
  rfl

theorem Added.tallied {op : NewOperation} (h : Added op s s') (hs : Tallied stale s) :
    Tallied (fun id => stale id ∨ id = op.id) s' := by
  obtain ⟨row, hid, -, mem⟩ := h.row
  constructor
  · intro o ho fresh
    rw [not_or] at fresh
    obtain ho | rfl := (mem o).mp ho
    · have agrees := hs.agrees o ho fresh.1
      rwa [Agrees, recomputed, ← h.statusesOf_other fresh.2,
        show rolloutState s o.id = rolloutState s' o.id by
          rw [rolloutState, rolloutState, Store.rollout, Store.rollout, h.rollouts]] at agrees
    · exact absurd hid fresh.2
  · intro t ht
    rw [← Table.mem_rows, h.targets, List.mem_append] at ht
    obtain ht | ht := ht
    · obtain ⟨o, ho, same⟩ := hs.owned t ht
      exact ⟨o, (mem o).mpr (.inl ho), same⟩
    · obtain ⟨x, -, rfl⟩ := List.mem_map.mp ht
      exact ⟨row, (mem row).mpr (.inr rfl), hid⟩

theorem Added.tallied_open {op : NewOperation} (h : Added op s s') (hs : Tallied stale s) (hx : x ∈ op.targets) (unsettled : targetTerminal x.1.status = false) :
    Tallied stale s' := by
  have grown := h.tallied hs
  refine ⟨fun o ho fresh => ?_, grown.owned⟩
  by_cases own : o.id = op.id
  · refine .inr ⟨x.1.status, ?_, unsettled⟩
    rw [own, h.statusesOf_own hs.owned]
    exact List.mem_map_of_mem hx
  · exact grown.agrees o ho fun stays => stays.elim fresh own

def refreshesRejected (req : Request) : Bool :=
  req.refusal.isNone &&
    match req.action with
    | .profileApply | .checkApply | .servicePause | .serviceIgnore | .updateRollout
    | .updateRollback | .credentialRevoke => true
    | _ => false

def leftQueued (s : Store) (req : Request) : Bool :=
  !req.action.isModel && !req.action.unavailable && !refreshesRejected req &&
    !(submittedTargets s req).isEmpty && (submittedTargets s req).all (·.status == .rejected) &&
    (insertOperation s (newOperation s req) none).toOption.isSome

abbrev AllTallied (s : Store) : Prop := Tallied (fun _ => False) s

theorem revokeAgents_rejected {ts : List TargetRow} (rejected : ∀ t ∈ ts, t.status = .rejected) (s : Store) :
    ts.foldlM (revokeAgent id) s = .ok s := by
  induction ts with
  | nil => rfl
  | cons t ts ih =>
    have skipped : revokeAgent id s t = .ok s := by
      simp [revokeAgent, rejected t (by simp)]
    rw [List.foldlM_cons, skipped]
    exact ih fun t ht => rejected t (by simp [ht])

theorem serverEffect_rejected (op : NewOperation) (req : Request) {row : OperationRow}
    (hrow : row ∈ s.operations) (hid : row.id = op.id) (hact : row.action = op.action)
    (same : op.action = req.action) (refreshes : refreshesRejected req) (nonempty : statusesOf s op.id ≠ [])
    (rejected : ∀ st ∈ statusesOf s op.id, st = .rejected) (idle : eligibleTargets op = []) :
    ∃ u, refreshOperation s op.id = .ok u ∧ executeServerSide s op req = (u, none) := by
  obtain ⟨u, hu⟩ := refreshOperation_total hrow
  rw [hid] at hu
  simp only [refreshesRejected, Bool.and_eq_true, Option.isNone_iff_eq_none] at refreshes
  refine ⟨u, hu, ?_⟩
  have accepted : handlerRefusal op req = none := by
    unfold handlerRefusal
    rw [idle, refreshes.1]
    split <;> rfl
  rw [executeServerSide, accepted]
  have revoked : op.action = .credentialRevoke → revokeOperationAgents s op.id = .ok u := by
    intro action
    have one : (s.operations.count fun o => o.id == op.id && o.action == .credentialRevoke) = 1 := by
      refine Table.count_eq_one hrow (by simp [hid, hact, action]) fun o ho => ?_
      simp only [Bool.and_eq_true, beq_iff_eq] at ho
      exact ho.1.trans hid.symm
    have targets : (s.targets.rows.filter fun t => t.operationId == op.id).length ≠ 0 := by
      intro empty
      exact nonempty (by rw [statusesOf, List.length_eq_zero_iff.mp empty]; rfl)
    have skipped : (s.targets.rows.filter fun t => t.operationId == op.id).foldlM
        (revokeAgent op.id) s = .ok s :=
      revokeAgents_rejected (fun t ht => rejected t.status (List.mem_map_of_mem ht)) s
    simp only [revokeOperationAgents, one, targets, skipped, ne_eq, not_true_eq_false, if_false]
    exact hu
  revert refreshes
  rw [← same]
  cases action : op.action <;> intro refreshes <;> simp only [Bool.false_eq_true, and_false] at refreshes
  all_goals
    simp [serverEffect, action, orFail, bumpDesired, handleRollout, publishUpdatePlan, idle, hu,
      revoked, bind, Except.bind, pure, Except.pure]

theorem submittedTargets_status {t : TargetResult} (h : t ∈ submittedTargets s req) :
    t.status = .rejected ∨ targetTerminal t.status = false := by
  simp only [submittedTargets, List.mem_map] at h
  obtain ⟨x, hx, rfl⟩ := h
  have initial : x.status = .rejected ∨ targetTerminal x.status = false := by
    split_ifs at hx
    case neg => rw [List.mem_singleton.mp hx]; exact .inr rfl
    all_goals
      obtain ⟨id, -, rfl⟩ := List.mem_map.mp hx
      rcases ServerSteps.initialTarget_status s req.now id with h | h | h <;> rw [h]
    all_goals simp [targetTerminal, rolloutFailure]
  unfold lifecycleGate
  split
  · exact initial
  · split
    · exact .inl rfl
    · exact initial

theorem submittedTargets_ne_nil (selected : ¬((req.action.scope = .agents ∨ req.action = .credentialRevoke) ∧
    expandTargets req.targetIds = [])) : submittedTargets s req ≠ [] := by
  unfold submittedTargets
  intro empty
  rw [List.map_eq_nil_iff] at empty
  split_ifs at empty with agents revoke
  · exact selected ⟨.inl agents, List.map_eq_nil_iff.mp empty⟩
  · exact revoke.2 empty

theorem newOperation_targets : x ∈ (newOperation s req).targets ↔
      ∃ t ∈ submittedTargets s req, (t, req.jobId t.agentId) = x := by
  simp [newOperation]

theorem rejected_tallied {u : Store} (hs : AllTallied s)
    (added : Added (newOperation s req) s u) (refreshes : refreshesRejected req)
    (nonempty : submittedTargets s req ≠ []) (rejected : ∀ t ∈ submittedTargets s req, t.status = .rejected) :
    AllTallied (executeServerSide u (newOperation s req) req).1 := by
  obtain ⟨row, hid, hact, mem⟩ := added.row
  have statuses : statusesOf u (newOperation s req).id =
      (submittedTargets s req).map TargetResult.status := by
    rw [added.statusesOf_own hs.owned]
    simp [newOperation, Function.comp_def]
  have idle : eligibleTargets (newOperation s req) = [] := by
    rw [eligibleTargets, List.filter_eq_nil_iff]
    intro t ht
    obtain ⟨x, hx, rfl⟩ := List.mem_map.mp ht
    obtain ⟨t, submitted, rfl⟩ := newOperation_targets.mp hx
    simp [eligible, rejected t submitted]
  obtain ⟨v, hv, run⟩ := serverEffect_rejected (newOperation s req) req
    ((mem row).mpr (.inr rfl)) hid hact rfl refreshes (by simpa [statuses] using nonempty)
    (by simpa [statuses] using rejected) idle
  rw [run]
  refine ((added.tallied hs).refresh hv).mono fun id stays => ?_
  exact stays.2 (stays.1.resolve_left not_false)

theorem processSubmit_tallied (hs : AllTallied s) (refreshed : leftQueued s req = false) :
    AllTallied (processSubmit s req) := by
  unfold processSubmit
  split
  · exact hs
  rename_i plain
  split
  · exact hs
  split
  · exact hs
  rename_i selected
  dsimp only
  split
  · exact hs
  rename_i u hu
  obtain ⟨v, added, ⟨-, rfl⟩ | ⟨m, hm, -⟩⟩ := insertOperation_added hu
  swap
  · cases hm
  -- an open target carries the new operation, otherwise its handler must refresh it
  have effect : AllTallied (executeServerSide u (newOperation s req) req).1 := by
    by_cases unsettled : ∃ x ∈ (newOperation s req).targets, targetTerminal x.1.status = false
    · obtain ⟨x, hx, settled⟩ := unsettled
      exact faithful_rule.executeServerSide _ (added.tallied_open hs hx settled)
    · have settled : ∀ t ∈ submittedTargets s req, t.status = .rejected := by
        intro t ht
        refine (submittedTargets_status ht).resolve_right fun openTarget => unsettled ?_
        exact ⟨_, newOperation_targets.mpr ⟨t, ht, rfl⟩, openTarget⟩
      have nonempty := submittedTargets_ne_nil (s := s) selected
      refine rejected_tallied hs added ?_ nonempty settled
      simp only [Bool.or_eq_true, not_or, Bool.not_eq_true] at plain
      have allRejected : (submittedTargets s req).all (·.status == .rejected) := by
        simpa using settled
      simpa [leftQueued, plain, nonempty, allRejected, hu, Except.toOption] using refreshed
  split
  · rename_i v hv
    rwa [hv] at effect
  · rename_i v e hv
    rw [hv] at effect
    exact faithful_rule.closeTargets e _ effect

theorem processSparkSubmit_tallied {model : ModelIntent} (hs : AllTallied s) :
    AllTallied (processSparkSubmit s req model) := by
  unfold processSparkSubmit
  split
  · split
    · exact hs
    · refine commit_invariant AllTallied hs fun u hu => ?_
      obtain ⟨v, added, ⟨hm, -⟩ | ⟨m, -, hm⟩⟩ := insertOperation_added hu
      · cases hm
      · exact faithful_rule.insertIntent (fun _ _ => Touches.quiet (.of_eq rfl rfl rfl)) hm _ (added.tallied_open hs (List.mem_singleton.mpr rfl) rfl)
  · exact hs

def refreshed (s : Store) : Event → Bool
  | .submit req => !leftQueued s req
  | _ => true

theorem step_tallied (s : Store) (e : Event) (hs : AllTallied s) (ok : refreshed s e) :
    AllTallied (step s e) := by
  cases e with
  | submit req => exact processSubmit_tallied hs (by simpa [refreshed] using ok)
  | submitModel req model => exact processSparkSubmit_tallied hs
  | world w =>
    have same : Touches (fun _ => False) s (w.apply s) := .of_eq rfl rfl rfl
    exact same.quiet _ hs
  | _ => exact faithful_rule.step rfl _ hs

theorem empty_tallied : AllTallied Store.empty :=
  ⟨fun o ho => absurd ho (Table.not_mem_empty o), fun t ht => absurd ht (Table.not_mem_empty t)⟩

theorem aggregate_finished {statuses : List TargetStatus} {rollout : Option RolloutState}
    (settled : ∀ st ∈ statuses, targetTerminal st)
    (ended : ∀ state, rollout = some state → state = .completed ∨ state = .cancelled) :
    aggregate statuses rollout ≠ .queued ∧ aggregate statuses rollout ≠ .running := by
  have unstarted : (statuses.countP fun st =>
      st == .queued || st == .accepted || st == .running || st == .awaitingConfirmation) = 0 := by
    rw [List.countP_eq_zero]
    intro st hst
    have final := settled st hst
    cases st <;> simp_all [targetTerminal, rolloutFailure]
  have plain : aggregate statuses rollout = aggregate statuses none := by
    cases rollout with
    | none => rfl
    | some state => rcases ended state rfl with rfl | rfl <;> rfl
  rw [plain]
  unfold aggregate
  dsimp only
  rw [unstarted]
  constructor <;> split_ifs <;> simp_all

/-- While no submission leaves rejected targets unrefreshed, an operation whose targets are settled has the
computed status. -/
theorem operation_status_agrees (events : List Event)
    (ok : Meets step (fun s e => refreshed s e) Store.empty events) :
    let s := run step Store.empty events
    ∀ o ∈ s.operations,
      (∀ t ∈ s.targets, t.operationId = o.id → targetTerminal t.status) →
      o.status = recomputed s o.id ∧
      ((∀ r ∈ s.rollouts, r.operationId = o.id → r.state = .completed ∨ r.state = .cancelled) →
        o.status ≠ .queued ∧ o.status ≠ .running) := by
  intro s o ho finished
  have tallied : AllTallied s :=
    run_invariant AllTallied (fun s e h ok => step_tallied s e h ok) empty_tallied ok
  have settled : ∀ st ∈ statusesOf s o.id, targetTerminal st := by
    intro st hst
    obtain ⟨t, ht, own, rfl⟩ := mem_statusesOf.mp hst
    exact finished t ht own
  have computed : o.status = recomputed s o.id := by
    obtain same | ⟨st, hst, unsettled⟩ := tallied.agrees o ho id
    · exact same
    · rw [settled st hst] at unsettled
      cases unsettled
  refine ⟨computed, fun ended => ?_⟩
  rw [computed]
  refine aggregate_finished settled fun state found => ?_
  obtain ⟨r, hr, rfl⟩ := Option.map_eq_some_iff.mp found
  obtain ⟨hmem, own⟩ := Table.find?_some hr
  exact ended r hmem (beq_iff_eq.mp own)

theorem operation_status_agrees_reported :
    ∃ o ∈ (run step Store.empty DispatchSafety.reportedFailure).operations,
      o.status = .completedWithErrors ∧ o.status ≠ .queued ∧ o.status ≠ .running := by
  have agrees := operation_status_agrees DispatchSafety.reportedFailure (by decide)
  refine ⟨_, List.mem_cons_self .., by decide, ?_⟩
  exact (agrees _ (List.mem_cons_self ..) (by decide)).2 (by decide)

def unknownAgent : List Event := [.submit (DispatchSafety.request .agentCollectNow [])]

theorem rejected_operation_stays_queued :
    ∃ o ∈ (run step Store.empty unknownAgent).operations, o.status = .queued ∧
      (∀ t ∈ (run step Store.empty unknownAgent).targets, t.operationId = o.id →
        t.status = .rejected) ∧
      (run step Store.empty unknownAgent).rollouts.rows = [] ∧
      recomputed (run step Store.empty unknownAgent) o.id = .completedWithErrors := by
  decide

end Monik.StatusAgreement
