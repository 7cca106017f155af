import Monik.DispatchSafety
import Monik.RolloutSafety

/-! Wave safety of batched rollouts over whole runs, at any clock readings, while agents, release
metadata and the other tables change freely. -/

namespace Monik.WaveSafety
open Protocol Tables ControllerStore Operations JobEvolution JobSteps Rollouts RolloutSteps
open StoreWrites Submission SubmissionSteps ServerSteps RolloutInvariant Runs
open DispatchSafety (World)

inductive Event
  | insert (op : NewOperation) (model : Option ModelIntent)
  | publish (op release : String) (plan : List PreparedUpdateTarget) (opts : RolloutOptions)
      (now : Time)
  | tick (expireNow now : Time)
  | claim (agent : String) (limit : Int) (expireNow tickNow now : Time)
      (authority : JobEnvelope → Except StoreError Bool)
  | receipt (agent : String) (r : JobReceipt) (spark : SparkAnswers)
  | control (id : String) (expected : Int) (pause : Bool) (controlOp : String) (now : Time)
  | cancel (op : String)
  | expire (now : Time)
  | reopen
  | world (w : World)

/-- `ControlRollout` is called by the handlers of `update.pause` and `update.resume`, with the
operation they handle. -/
def controls (s : Store) (controlOp : String) : Bool :=
  (s.operations.count fun o => o.id == controlOp &&
    (o.action == .updatePause || o.action == .updateResume)) == 1

def transact (m : Machine) (r : Tx) : Machine := { m with store := commit m.store r }

def step (m : Machine) : Event → Machine
  | .insert op model => transact m (insertOperation m.store op model)
  | .publish op release plan opts now =>
    transact m (publishBatchedUpdatePlan m.store op release plan opts now)
  | .tick expireNow now =>
    { m with store := (advanceRollouts m.store expireNow now).1
             ticks := m.ticks ++ RolloutSafety.ticksOf m.store expireNow now }
  | .claim agent limit expireNow tickNow now authority =>
    let (store, out) := claimPendingJobs m.store agent limit expireNow tickNow now authority
    ⟨store, m.ticks ++ RolloutSafety.ticksOf m.store expireNow tickNow,
      m.claimed ++ out.map JobEnvelope.jobId⟩
  | .receipt agent r spark => transact m (applyReceipt m.store agent r spark)
  | .control id expected pause controlOp now =>
    if controls m.store controlOp then
      transact m (controlRollout m.store id expected pause controlOp now)
    else m
  | .cancel op => transact m (cancelPending m.store op)
  | .expire now => transact m (expireAndBlockJobs m.store now)
  | .reopen => { m with store := Rollouts.reopen m.store }
  | .world w => { m with store := w.apply m.store }

def initial : Machine := ⟨Store.empty, [], []⟩

theorem initial_safe : Safe initial where
  linked := Linked.empty
  inStep := fun t _ hp => absurd hp.1 (Table.not_mem_empty t)
  rollout_operation := fun r hr => absurd hr (Table.not_mem_empty r)
  member_rollout := fun x hx => absurd hx (Table.not_mem_empty x)
  earlier := fun r hr => absurd hr (Table.not_mem_empty r)
  reached := fun r hr => absurd hr (Table.not_mem_empty r)
  waiting := fun x hx => absurd hx (Table.not_mem_empty x)
  window := fun r hr => absurd hr (Table.not_mem_empty r)
  observed := fun x hx => absurd hx (Table.not_mem_empty x)
  delivered := fun j hj => absurd hj (Table.not_mem_empty j)

variable {m : Machine}

theorem transact_safe {r : Tx} (h : Safe m)
    (keeps : ∀ u, r = .ok u → Safe ⟨u, m.ticks, m.claimed⟩) : Safe (transact m r) :=
  commit_invariant (fun u => Safe ⟨u, m.ticks, m.claimed⟩) h keeps

theorem controls_noJobs {s : Store} {controlOp : String} (hl : Linked s)
    (h : controls s controlOp) : NoJobs s controlOp := by
  obtain ⟨o, ho, hm⟩ := Table.exists_of_count_pos (by rw [beq_iff_eq.mp h]; decide)
  rw [Bool.and_eq_true, beq_iff_eq, Bool.or_eq_true, beq_iff_eq, beq_iff_eq] at hm
  intro j hj same
  obtain ⟨o', ho', hid, hact⟩ := hl.action j hj
  have scope := hl.scope j hj
  rw [← hact, ← s.operations.eq_of_key ho ho' (hm.1.trans (hid.trans same).symm)] at scope
  rcases hm.2 with action | action <;> rw [action] at scope <;> cases scope

theorem step_safe (e : Event) (h : Safe m) : Safe (step m e) := by
  cases e with
  | insert op model => exact transact_safe h fun _ hu => RolloutSafety.Safe.insertOperation h hu
  | publish op release plan opts now => exact transact_safe h fun _ hu => RolloutSafety.Safe.publish h hu
  | tick expireNow now => exact RolloutSafety.Safe.advanceRollouts h expireNow now
  | claim agent limit expireNow tickNow now authority =>
    exact RolloutSafety.Safe.claimPendingJobs h agent limit expireNow tickNow now authority
  | receipt agent r spark =>
    exact transact_safe h fun _ hu => h.same (applyReceipt_steps h.linked hu) (applyReceipt_writes trivial hu).same
  | control id expected pause controlOp now =>
    change Safe (if controls m.store controlOp then _ else m)
    split
    · rename_i allowed
      exact transact_safe h fun _ hu =>
        RolloutSafety.Safe.controlRollout h (controls_noJobs h.linked allowed) hu
    · exact h
  | cancel op => exact transact_safe h fun _ hu => RolloutSafety.Safe.cancelPending h hu
  | expire now => exact transact_safe h fun _ hu => RolloutSafety.Safe.expire h hu
  | reopen => exact RolloutSafety.Safe.reopen h
  | world w => exact h.same (evolves_of_eq rfl rfl rfl) ⟨rfl, rfl⟩

theorem run_safe (events : List Event) : Safe (run step initial events) :=
  run_preserves Safe (fun _ e h => step_safe e h) initial_safe events

theorem rollout_running {s : Store} {id : String}
    (h : (s.rollout id).all (fun r => r.state == .running)) {r : RolloutRow}
    (hr : r ∈ s.rollouts) (own : r.operationId = id) : r.state = .running := by
  cases hf : s.rollout id with
  | none =>
    have none := Table.find?_none hf hr
    simp [own] at none
  | some r' =>
    obtain ⟨hr', hid⟩ := Table.find?_some hf
    rw [hf] at h
    rw [s.rollouts.eq_of_key hr hr' (own.trans (beq_iff_eq.mp hid).symm)]
    simpa using h

theorem Safe.claimed_job {s : Store} {ticks : List Tick} {claimed : List String}
    (h : Safe ⟨s, ticks, claimed⟩) {agent : String} {now : Time} {j : JobRow} (hj : j ∈ s.jobs)
    (selected : selectable s agent now j) : j.status ≠ .preparing ∧ j.status ≠ .rolloutHeld ∧
    (∀ x ∈ s.members, x.key = j.key → x.releasedAt ≠ none) ∧
    (j.jobId ∉ claimed → ∀ r ∈ s.rollouts, r.operationId = j.operationId → r.state = .running) := by
  simp only [selectable, Bool.and_eq_true, Bool.or_eq_true, beq_iff_eq] at selected
  obtain ⟨⟨⟨-, dispatchable⟩, -⟩, rollout⟩ := selected
  refine ⟨?_, ?_, ?_, ?_⟩
  · intro preparing
    rw [preparing] at dispatchable
    cases dispatchable
  · intro held
    rw [held] at dispatchable
    cases dispatchable
  · intro x hx hk unreleased
    obtain held | closed := h.waiting x hx unreleased j hj hk.symm
    · rw [held] at dispatchable
      cases dispatchable
    · rw [terminal_not_dispatchable closed] at dispatchable
      cases dispatchable
  · intro first r hr own
    obtain delivered | running := rollout
    · exact absurd (h.delivered j hj delivered) first
    · exact rollout_running running hr own

/-- When a member of a later wave is released, every member of earlier waves has succeeded and a whole
window of stable ticks has ended; a claim never returns an unreleased job. -/
theorem waves_released_safely (events : List Event) :
    let m := run step initial events
    (∀ x ∈ m.store.members, ∀ time, x.releasedAt = some time → 0 < x.wave →
      (∀ y ∈ m.store.members, y.operationId = x.operationId → y.wave < x.wave →
        ∃ t ∈ m.store.targets, t.key = y.key ∧ t.status = .succeeded) ∧
      ∃ r ∈ m.store.rollouts, r.operationId = x.operationId ∧
        ∃ since, r.observeSeconds * second ≤ time - since ∧
          Window m.ticks x.operationId since time) ∧
    ∀ agent limit expireNow tickNow now authority,
      let selecting := (advanceRollouts m.store expireNow tickNow).1
      ∀ env ∈ (claimPendingJobs m.store agent limit expireNow tickNow now authority).2,
        ∃ j ∈ selecting.jobs, j.jobId = env.jobId ∧ j.key = (env.operationId, agent) ∧
          j.status ≠ .preparing ∧ j.status ≠ .rolloutHeld ∧
          (∀ x ∈ selecting.members, x.key = j.key → x.releasedAt ≠ none) ∧
          (env.jobId ∉ m.claimed → ∀ r ∈ selecting.rollouts, r.operationId = env.operationId →
            r.state = .running) := by
  have safe := run_safe events
  refine ⟨fun x hx time released positive => ⟨fun y hy same below => ?_, ?_⟩, ?_⟩
  · obtain ⟨r, hr, own, -⟩ := safe.observed x hx time released positive
    have current := safe.reached r hr x hx own.symm (by simp [released])
    obtain ⟨t, j, hp, hk, done, -⟩ := safe.earlier r hr y hy (same.trans own.symm)
      (below.trans_le current)
    exact ⟨t, hp.1, hk, done⟩
  · exact safe.observed x hx time released positive
  · intro agent limit expireNow tickNow now authority selecting env he
    obtain ⟨j, hj, selected, whole, rfl⟩ := claimPendingJobs_mem he
    have ticked := RolloutSafety.Safe.advanceRollouts safe expireNow tickNow
    obtain ⟨published, unheld, released, running⟩ := Safe.claimed_job ticked hj selected
    simp only [selectable, Bool.and_eq_true, beq_iff_eq] at selected
    simp only [intact, Bool.and_eq_true, beq_iff_eq] at whole
    obtain ⟨⟨⟨⟨sameJob, sameOp⟩, -⟩, -⟩, -⟩ := whole
    refine ⟨j, hj, sameJob.symm, ?_, published, unheld, released, ?_⟩
    · rw [JobRow.key, sameOp, selected.1.1.1]
    · rw [sameJob, sameOp]
      exact running

end Monik.WaveSafety
