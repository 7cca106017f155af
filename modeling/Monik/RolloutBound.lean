import Monik.WaveSafety

/-! How many rollouts are active: publication is refused while sixteen are, and a tick looks at the
sixteen oldest. A blocked rollout re-enters through cancellation, which does not look at the bound.
-/

namespace Monik.RolloutBound
open Protocol Tables ControllerStore Operations JobSteps Rollouts RolloutSteps SubmissionSteps
open StoreWrites RolloutInvariant Runs
open WaveSafety

variable {id reason op : String} {state : RolloutState} {r : Rollout} {now : Time}

def step (m : Machine) : Event → Machine
  | .control id expected pause controlOp now =>
    transact m (controlRollout m.store id expected pause controlOp now)
  | e => WaveSafety.step m e

def activeCount (s : Store) : Nat := s.rollouts.count active

def blockedRow (op : String) (r : RolloutRow) : Bool := r.operationId == op && r.state == .blocked

def overfills (m : Machine) : Event → Bool
  | .cancel op => decide (16 ≤ activeCount m.store) && m.store.rollouts.count (blockedRow op) != 0
  | _ => false

variable {s s' : Store}

theorem activeCount_same (h : SameRollouts s s') : activeCount s' = activeCount s := by
  rw [activeCount, activeCount, h.rollouts]

theorem activeCount_le {g : RolloutRow → RolloutRow} (rows : s'.rollouts.rows = s.rollouts.rows.map g)
    (enters : ∀ r ∈ s.rollouts, active (g r) → active r) : activeCount s' ≤ activeCount s := by
  rw [activeCount, Table.count, rows, List.countP_map]
  exact List.countP_mono_left enters

theorem activeCount_le_of_state {p : RolloutRow → Bool} {f : RolloutRow → RolloutRow}
    (rows : s'.rollouts.rows = s.rollouts.rows.map fun r => if p r then f r else r)
    (state : ∀ r, (f r).state = r.state) : activeCount s' ≤ activeCount s := by
  refine activeCount_le rows fun r _ h => ?_
  split at h
  · rwa [active, state] at h
  · exact h

theorem setRolloutState_le (enters : ∀ r ∈ s.rollouts, r.operationId = id →
    (state = .running ∨ state = .paused ∨ state = .cancelling) → active r) :
    activeCount (setRolloutState s id state reason) ≤ activeCount s := by
  refine activeCount_le rfl fun r hr h => ?_
  split at h
  · rename_i own
    refine enters r hr (beq_iff_eq.mp own) ?_
    simpa [active, or_assoc] using h
  · exact h

theorem setRolloutState_leaves (left : state = .cancelled ∨ state = .blocked ∨ state = .completed) :
    activeCount (setRolloutState s id state reason) ≤ activeCount s := by
  refine setRolloutState_le fun r _ _ entered => ?_
  rcases left with rfl | rfl | rfl <;> simp at entered

theorem releaseWave_le {wave : Nat} (h : releaseWave s r wave now = .ok s') : activeCount s' ≤ activeCount s := by
  obtain ⟨_, rfl⟩ | ⟨expires, u, -, hu, rfl⟩ := releaseWave_cases h
  · exact setRolloutState_leaves (.inr (.inl rfl))
  · have same := (releaseMembers_members hu).1
    have started : activeCount (startWave u r.row.operationId now) ≤ activeCount u :=
      activeCount_le_of_state rfl fun _ => rfl
    rwa [activeCount, activeCount, same] at started

theorem advanceWindow_le (h : advanceWindow s r now = .ok s') : activeCount s' ≤ activeCount s := by
  obtain rfl | ⟨_, hr⟩ | ⟨-, u, hu, hr⟩ := advanceWindow_cases h
  · exact activeCount_le_of_state rfl fun _ => rfl
  · rw [activeCount_same (refreshOperation_same hr)]
    exact setRolloutState_leaves (.inr (.inr rfl))
  · rw [activeCount_same (refreshOperation_same hr)]
    exact (releaseWave_le hu).trans (activeCount_le_of_state rfl fun _ => rfl)

theorem advanceRollout_le (h : advanceRollout s r now = .ok s') : activeCount s' ≤ activeCount s := by
  obtain rfl | ⟨state, _, left, hr⟩ | ⟨-, hw⟩ := advanceRollout_cases h
  · exact le_refl _
  · rw [activeCount_same (refreshOperation_same hr)]
    exact setRolloutState_leaves (left.imp_right .inl)
  · exact advanceWindow_le hw

theorem advanceRollouts_le (s : Store) (expireNow now : Time) :
    activeCount (advanceRollouts s expireNow now).1 ≤ activeCount s := by
  unfold advanceRollouts
  split
  · exact le_refl _
  rename_i u hu
  have expired := activeCount_same (expireAndBlockJobs_writes hu).same
  split
  · exact expired.le
  rename_i v hv
  refine le_of_le_of_eq ?_ expired
  refine foldlM_invariant (fun w => activeCount w ≤ activeCount u) hv (le_refl _) ?_
  intro id _ w w' hw bound
  obtain ⟨r, -, ha⟩ := bind_ok.mp hw
  exact (advanceRollout_le ha).trans bound

theorem claimPendingJobs_le (s : Store) (agent : String) (limit : Int)
    (expireNow tickNow now : Time) (authority : JobEnvelope → Except StoreError Bool) :
    activeCount (claimPendingJobs s agent limit expireNow tickNow now authority).1 ≤ activeCount s := by
  have ticked := advanceRollouts_le s expireNow tickNow
  obtain same | ⟨v, out, hv, same⟩ :=
    claimPendingJobs_cases s agent limit expireNow tickNow now authority
  · rw [same]
    exact ticked
  · rw [same]
    exact (activeCount_same (claimJobs_writes hv).same).le.trans ticked

theorem controlRollout_le {controlOp : String} {expected : Int} {pause : Bool}
    (h : controlRollout s id expected pause controlOp now = .ok s') : activeCount s' ≤ activeCount s := by
  obtain ⟨r, state, reason, u, hr, moved, hu, rest⟩ := controlRollout_ok h
  have read := readRollout_ok hr
  have written : activeCount u ≤ activeCount s := by
    rw [activeCount_same (refreshOperation_same hu)]
    refine setRolloutState_le fun x hx own _ => ?_
    rw [s.rollouts.eq_of_key hx read.row (own.trans read.id_eq.symm)]
    rcases moved with ⟨-, from_⟩ | ⟨-, from_⟩ <;> simp [active, from_]
  obtain rfl | ⟨w, v, hv, hr⟩ := rest
  · exact written
  · rw [activeCount_same ((updateTarget_same hv).trans (refreshOperation_same hr))]
    exact written

theorem cancelPending_le (h : cancelPending s op = .ok s') :
    activeCount s' ≤ activeCount s + s.rollouts.count (blockedRow op) := by
  rw [activeCount, (RolloutSafety.cancelPending_frame h).1]
  refine Table.count_map_le rfl fun r _ entered => ?_
  split at entered
  · rename_i selected
    cases hs : r.state <;> simp_all [active, blockedRow]
  · exact .inl entered

theorem blockedRow_count_le (op : String) (t : Table RolloutRow RolloutRow.operationId) :
    t.count (blockedRow op) ≤ 1 := by
  by_cases present : 0 < t.count (blockedRow op)
  · obtain ⟨r, hr, hb⟩ := Table.exists_of_count_pos present
    refine (Table.count_eq_one hr hb fun x hx => ?_).le
    simp only [blockedRow, Bool.and_eq_true, beq_iff_eq] at hb hx
    exact hx.1.trans hb.1.symm
  · omega

theorem insertMembers_rollouts {waves : List MemberRow} (h : waves.foldlM insertMember s = .ok s') :
    s'.rollouts = s.rollouts :=
  foldlM_invariant (fun u => u.rollouts = s.rollouts) h rfl fun _ _ _ _ hv hu =>
    (RolloutSafety.insertMember_frame hv).1.trans hu

theorem publish_le {release : String} {plan : List PreparedUpdateTarget} {opts : RolloutOptions} (h : publishBatchedUpdatePlan s op release plan opts now = .ok s') :
    activeCount s < 16 ∧ activeCount s' ≤ activeCount s + 1 := by
  unfold publishBatchedUpdatePlan at h
  split_ifs at h with _ full
  refine ⟨not_le.mp full, ?_⟩
  split at h
  · cases h
  dsimp only at h
  split at h
  · cases h
  rename_i rollouts inserted
  obtain ⟨u, hu, h⟩ := bind_ok.mp h
  obtain ⟨v, hv, h⟩ := bind_ok.mp h
  obtain ⟨r, -, h⟩ := bind_ok.mp h
  obtain ⟨w, hw, h⟩ := bind_ok.mp h
  have grown : rollouts.count active = activeCount s + 1 := by
    rw [Table.count, Table.insert_rows inserted, List.countP_append]
    rfl
  have held := (Writes.foldlM .refl (fun _ _ _ => holdTarget_writes) hu).same.rollouts
  have frozen := insertMembers_rollouts hv
  calc activeCount s' = activeCount w := activeCount_same (refreshOperation_same h)
    _ ≤ activeCount v := releaseWave_le hw
    _ = rollouts.count active := by rw [activeCount, frozen, held]
    _ = activeCount s + 1 := grown

theorem insertOperation_count {op : NewOperation} {model : Option ModelIntent}
    (h : insertOperation s op model = .ok s') : activeCount s' = activeCount s := by
  obtain ⟨u, hi, ⟨-, rfl⟩ | ⟨m, -, hm⟩⟩ := insertOperation_ok h
  · exact activeCount_same hi.same
  · exact activeCount_same (hi.same.trans (insertIntent_same hm))

theorem transact_le {m : Machine} {r : Tx} (bounded : activeCount m.store ≤ 16)
    (h : ∀ u, r = .ok u → activeCount u ≤ 16) : activeCount (transact m r).store ≤ 16 :=
  commit_invariant (fun u => activeCount u ≤ 16) bounded h

theorem step_le (m : Machine) (e : Event) (bounded : activeCount m.store ≤ 16)
    (free : overfills m e = false) : activeCount (step m e).store ≤ 16 := by
  cases e with
  | insert op model => exact transact_le bounded fun _ hu => (insertOperation_count hu).le.trans bounded
  | publish op release plan opts now =>
    refine transact_le bounded fun _ hu => ?_
    have grown := publish_le hu
    omega
  | tick expireNow now => exact (advanceRollouts_le m.store expireNow now).trans bounded
  | claim agent limit expireNow tickNow now authority =>
    exact (claimPendingJobs_le m.store agent limit expireNow tickNow now authority).trans bounded
  | receipt agent r spark =>
    exact transact_le bounded fun _ hu => (activeCount_same (applyReceipt_writes trivial hu).same).le.trans bounded
  | control id expected pause controlOp now =>
    exact transact_le bounded fun _ hu => (controlRollout_le hu).trans bounded
  | cancel op =>
    refine transact_le bounded fun _ hu => (cancelPending_le hu).trans ?_
    have one := blockedRow_count_le op m.store.rollouts
    simp only [overfills, Bool.and_eq_false_iff, decide_eq_false_iff_not, bne_eq_false_iff_eq] at free
    omega
  | expire now =>
    exact transact_le bounded fun _ hu =>
      (activeCount_same (expireAndBlockJobs_writes hu).same).le.trans bounded
  | reopen => exact le_trans (activeCount_le_of_state rfl fun _ => rfl) bounded
  | world w => exact bounded

theorem active_scanned (bounded : activeCount s ≤ 16) {r : RolloutRow} (hr : r ∈ s.rollouts)
    (running : active r) : r.operationId ∈ activeIds s := by
  have short : ((s.rollouts.rows.filter active).insertionSort earlier).length ≤ 16 := by
    rw [List.length_insertionSort, ← List.countP_eq_length_filter]
    exact bounded
  rw [activeIds, List.take_of_length_le short]
  refine List.mem_map_of_mem ?_
  rw [List.mem_insertionSort, List.mem_filter]
  exact ⟨hr, running⟩

theorem readings_all {ids : List String} (h : ids.foldlM (advanceOne now) s = .ok s') :
    ∀ id ∈ ids, ∃ t ∈ RolloutSafety.readings now ids s, t.rollout.row.operationId = id := by
  induction ids generalizing s with
  | nil => exact fun id hid => absurd hid List.not_mem_nil
  | cons first ids ih =>
    obtain ⟨u, hu, rest⟩ := bind_ok.mp h
    obtain ⟨r, hr, ha⟩ := bind_ok.mp hu
    intro id hid
    simp only [RolloutSafety.readings, hr, ha, List.mem_cons]
    obtain rfl | hid := List.mem_cons.mp hid
    · exact ⟨_, .inl rfl, (readRollout_ok hr).id_eq⟩
    · obtain ⟨t, ht, own⟩ := ih rest id hid
      exact ⟨t, .inr ht, own⟩

theorem ticked_all (bounded : activeCount s ≤ 16) {expireNow : Time}
    (commits : (advanceRollouts s expireNow now).2 = none) {r : RolloutRow} (hr : r ∈ s.rollouts)
    (running : active r) :
    ∃ t ∈ RolloutSafety.ticksOf s expireNow now, t.rollout.row.operationId = r.operationId := by
  unfold advanceRollouts at commits
  cases hu : expireAndBlockJobs s expireNow with
  | error e => simp [hu] at commits
  | ok u =>
    cases hv : advanceActive u now with
    | error e => simp [hu, hv] at commits
    | ok v =>
      have same := (expireAndBlockJobs_writes hu).same
      have scanned := active_scanned ((activeCount_same same).le.trans bounded)
        (same.rollouts.symm ▸ hr) running
      simpa [RolloutSafety.ticksOf, hu, hv] using readings_all hv _ scanned

/-- While no blocked rollout is cancelled beside sixteen active ones, at most sixteen are active, and every
tick scans them all. -/
theorem active_rollouts_bounded (events : List Event)
    (room : Meets step (fun m e => overfills m e = false) WaveSafety.initial events) :
    let s := (run step WaveSafety.initial events).store
    s.rollouts.count active ≤ 16 ∧
    (∀ r ∈ s.rollouts, active r → r.operationId ∈ activeIds s) ∧
    ∀ expireNow now, (advanceRollouts s expireNow now).2 = none →
      ∀ r ∈ s.rollouts, active r →
        ∃ t ∈ RolloutSafety.ticksOf s expireNow now, t.rollout.row.operationId = r.operationId := by
  have bounded : activeCount (run step WaveSafety.initial events).store ≤ 16 :=
    run_invariant (fun m => activeCount m.store ≤ 16) (fun m e h free => step_le m e h free)
      (by decide) room
  exact ⟨bounded, fun r hr running => active_scanned bounded hr running,
    fun expireNow now commits r hr running => ticked_all bounded commits hr running⟩

def fleet : List String :=
  ["a0", "a1", "a2", "a3", "a4", "a5", "a6", "a7", "a8", "a9", "b0", "b1", "b2", "b3", "b4", "b5", "b6"]

def managed (id : String) : AgentRow :=
  ⟨id, false, false, true, "general", "linux", "amd64", true, "s1", "d1", some 0, 0, "", 0, "c1", 0, 0⟩

def managedFleet : DispatchSafety.World :=
  ⟨⟨fleet.map managed, by decide⟩, .empty, .empty, .empty, ⟨[⟨"v2", 1000 * hour⟩], by simp⟩⟩

def rollOut (now : Time) (id : String) : List Event :=
  [.insert
    { id, action := .updateRollout, actor := "owner", clientRequestKey := id, requestHash := ""
      createdAt := now, deadline := some (now + 24 * hour), params := []
      targets := [(⟨id, .queued, "queued", "queued", false⟩, id)] } none,
    .publish id "v2" [⟨id, .queued, "update.queued", "verified release pinned",
      [("release_id", .str "v2"), ("os", .str "linux"), ("arch", .str "amd64")]⟩] ⟨1, 15⟩ now]

def cancelledRollout : List Event := .world managedFleet :: rollOut 1 "a0" ++ [.cancel "a0"]

theorem active_rollouts_bounded_cancelled :
    ∃ r ∈ (run step WaveSafety.initial cancelledRollout).store.rollouts, active r ∧
      r.operationId ∈ activeIds (run step WaveSafety.initial cancelledRollout).store := by
  have all := (active_rollouts_bounded cancelledRollout (by decide)).2.1
  exact ⟨_, List.mem_cons_self .., by decide, all _ (List.mem_cons_self ..) (by decide)⟩

def crowded : List Event :=
  .world managedFleet :: rollOut 1 "a0" ++ [.tick (25 * hour) (25 * hour)] ++
    fleet.tail.flatMap (rollOut (26 * hour)) ++ [.cancel "a0"]

theorem cancelled_rollout_exceeds_bound :
    (run step WaveSafety.initial crowded).store.rollouts.count active = 17 ∧
      ∃ r ∈ (run step WaveSafety.initial crowded).store.rollouts, active r ∧
        r.operationId ∉ activeIds (run step WaveSafety.initial crowded).store := by
  decide +kernel

end Monik.RolloutBound
