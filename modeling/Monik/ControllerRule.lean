import Monik.DispatchSafety
import Monik.ReportHandler

/-! A relation on controller states that is reflexive, transitive and kept by each basic transaction
is kept by every step: submissions, claims with expiry and rollout ticks, reports with their
receipts. Rows that a submission or a report adds first are no rewriting. -/

namespace Monik.ControllerRule
open Protocol Tables ControllerStore Operations Rollouts RolloutSteps StoreWrites Submission SubmissionSteps
open DispatchSafety (Event step)
open Ingestion

theorem patchJobParams_writes {p : Powers} (s : Store) (op agent : String) (extra : Fields) :
    Writes p s (patchJobParams s op agent extra) := by
  unfold patchJobParams
  split
  · exact .refl
  · exact .jobs .refl fun _ _ _ => .patch _

section Agents

variable {p : Powers} (report : p.report) (agents : p.agents) {s s' : Store}
include report agents

theorem bumpDesired_writes {op : NewOperation} {hash : String → String} (h : bumpDesired s op hash = .ok s') :
    Writes p s s' := by
  obtain ⟨u, hu, hr⟩ := bind_ok.mp h
  refine (Writes.foldlM .refl (fun v w t hw => ?_) hu).refresh hr
  unfold bumpAgent at hw
  split at hw <;> cases hw
  exact Writes.targets (.single (.agents v _ _ agents)) (.inl report) fun _ => rfl

theorem revokeOperationAgents_writes {op : String} (h : revokeOperationAgents s op = .ok s') : Writes p s s' := by
  unfold revokeOperationAgents at h
  split_ifs at h
  dsimp only at h
  split_ifs at h
  obtain ⟨u, hu, hr⟩ := bind_ok.mp h
  refine (Writes.foldlM .refl (fun v w t hw => ?_) hu).refresh hr
  unfold revokeAgent at hw
  split_ifs at hw
  · cases hw
    exact .refl
  · exact Writes.update (.single (.agents v _ _ agents)) (.inl report) hw

end Agents

structure Rule (R : Store → Store → Prop) : Prop where
  refl : ∀ s, R s s
  trans : ∀ {s u v}, R s u → R u v → R s v
  update : ∀ {s s' op agent w}, updateTargetAndRefresh s op agent w = .ok s' → R s s'
  mark : ∀ {s s' op agent w}, w.status.terminal → markTargetAndJob s op agent w = .ok s' →
    R s s'
  patch : ∀ s op agent extra, R s (patchJobParams s op agent extra)
  secret : ∀ (s : Store) secrets, R s { s with secrets }
  bump : ∀ {s s' op hash}, bumpDesired s op hash = .ok s' → R s s'
  revoke : ∀ {s s' op}, revokeOperationAgents s op = .ok s' → R s s'
  plan : ∀ {s s' op plan}, publishUpdatePlan s op plan = .ok s' → R s s'
  batch : ∀ {s s' op release plan opts now},
    publishBatchedUpdatePlan s op release plan opts now = .ok s' → R s s'
  control : ∀ {s s' id expected pause controlOp now},
    controlRollout s id expected pause controlOp now = .ok s' → R s s'
  cancel : ∀ {s s' op}, cancelPending s op = .ok s' → R s s'
  receipt : ∀ {s s' agent r spark}, applyReceipt s agent r spark = .ok s' → R s s'
  expire : ∀ {s s' now}, expireAndBlockJobs s now = .ok s' → R s s'
  advance : ∀ {s s' r now}, advanceRollout s r now = .ok s' → R s s'
  claim : ∀ {s s' agent limit now authority out},
    claimJobs s agent limit now authority = .ok (s', out) → R s s'
  supersede : ∀ {s s' agent parent stop}, supersedeSparkRestart s agent parent stop = .ok s' → R s s'
  reopen : ∀ s, R s (Rollouts.reopen s)

namespace Rule

variable {R : Store → Store → Prop} {s s' : Store} {op : NewOperation} {req : Request}

theorem mono {Q : Store → Store → Prop} (k : Rule R) (le : ∀ {s u}, R s u → Q s u)
    (trans : ∀ {s u v}, Q s u → Q u v → Q s v) : Rule Q where
  refl := fun s => le (k.refl s)
  trans := trans
  update := fun h => le (k.update h)
  mark := fun final h => le (k.mark final h)
  patch := fun s op agent extra => le (k.patch s op agent extra)
  secret := fun s secrets => le (k.secret s secrets)
  bump := fun h => le (k.bump h)
  revoke := fun h => le (k.revoke h)
  plan := fun h => le (k.plan h)
  batch := fun h => le (k.batch h)
  control := fun h => le (k.control h)
  cancel := fun h => le (k.cancel h)
  receipt := fun h => le (k.receipt h)
  expire := fun h => le (k.expire h)
  advance := fun h => le (k.advance h)
  claim := fun h => le (k.claim h)
  supersede := fun h => le (k.supersede h)
  reopen := fun s => le (k.reopen s)

theorem of_writes (refl : ∀ s, R s s) (trans : ∀ {s u v}, R s u → R u v → R s v)
    (writes : ∀ {s u}, Writes Powers.all s u → R s u) : Rule R where
  refl := refl
  trans := trans
  update := fun h => writes (updateTargetAndRefresh_writes trivial h)
  mark := fun final h => writes (markTargetAndJob_writes trivial trivial final h)
  patch := fun s op agent extra => writes (patchJobParams_writes s op agent extra)
  secret := fun s secrets => writes (.single (.secrets s secrets))
  bump := fun h => writes (bumpDesired_writes trivial trivial h)
  revoke := fun h => writes (revokeOperationAgents_writes trivial trivial h)
  plan := fun h => writes (publishUpdatePlan_writes trivial h)
  batch := fun h => writes (publishBatchedUpdatePlan_writes trivial h)
  control := fun h => writes (controlRollout_writes trivial trivial h)
  cancel := fun h => writes (cancelPending_writes trivial h)
  receipt := fun h => writes (applyReceipt_writes trivial h)
  expire := fun h => writes (expireAndBlockJobs_writes h)
  advance := fun h => writes (advanceRollout_writes trivial h)
  claim := fun h => writes (claimJobs_writes h)
  supersede := fun h => writes (supersedeSparkRestart_writes trivial h)
  reopen := fun s => writes (.single (.rollouts s _ _ trivial))

section

variable (k : Rule R)
include k

theorem commit {r : Tx} (h : ∀ u, r = .ok u → R s u) : R s (Tables.commit s r) :=
  commit_invariant (R s) (k.refl s) h

theorem foldl {α : Type} {f : Store → α → Store} (step : ∀ s x, R s (f s x)) (xs : List α) (s : Store)
    : R s (xs.foldl f s) :=
  foldl_related k.refl k.trans step xs s

theorem foldlM {α : Type} {f : Store → α → Tx} {xs : List α}
    (step : ∀ u v x, f u x = .ok v → R u v) (h : xs.foldlM f s = .ok s') : R s s' :=
  foldlM_related k.refl k.trans step h

theorem queueTarget (extra : Fields) (w : TargetWrite) (agent : String) : R s (queueTarget op extra w s agent) :=
  k.trans (k.patch s op.id agent extra) (k.commit fun _ h => k.update h)

theorem queueAll (stage message : String) (status : TargetResult → TargetStatus) :
    R s (queueAll s op req stage message status) := by
  unfold Submission.queueAll
  apply k.foldl
  intro u t
  exact k.queueTarget req.patch _ t.agentId

theorem activateTarget (t : TargetResult) : R s (activateTarget op req s t) := by
  unfold Submission.activateTarget
  split
  · exact k.queueTarget _ _ _
  · exact k.commit fun _ h => k.mark rfl h

theorem restartTargets (ts : List TargetResult) : R s (restartTargets op req ts s).1 := by
  induction ts generalizing s with
  | nil => exact k.refl s
  | cons t ts ih =>
    unfold Submission.restartTargets
    split
    · exact ih
    · split_ifs
      · exact k.refl s
      · split
        · exact k.refl s
        · rename_i u hu
          exact k.trans (k.mark rfl hu) ih
      · exact k.trans (k.commit fun _ h => k.mark rfl h) ih
      · exact k.trans (k.queueTarget _ _ _) ih

theorem replaceSecret : R s (replaceSecret s op req).1 := by
  unfold Submission.replaceSecret
  split
  · split_ifs
    · exact k.refl s
    · split
      · exact k.refl s
      · rename_i secrets _
        exact k.trans (k.secret s secrets) (k.queueTarget _ _ _)
  · exact k.refl s

theorem orFail {r : Tx} (h : ∀ u, r = .ok u → R s u) : R s (orFail s r).1 := by
  cases r with
  | error e => exact k.refl s
  | ok u => exact h u rfl

theorem confirmServer (c : Confirmation) : R s (confirmServer s op c).1 := by
  unfold Submission.confirmServer
  split
  · rename_i u hu
    exact k.update hu
  · exact k.refl s

theorem handleRollout : R s (handleRollout s op req).1 := by
  unfold Submission.handleRollout
  split
  · exact k.orFail fun _ h => k.plan h
  · split
    · exact k.refl s
    · split_ifs
      · exact k.orFail fun _ h => k.plan h
      · exact k.orFail fun _ h => k.batch h
      · exact k.orFail fun _ h => k.plan h

theorem serverEffect : R s (serverEffect s op req).1 := by
  unfold Submission.serverEffect
  split
  case h_1 => exact k.orFail fun _ h => k.revoke h
  case h_2 =>
    dsimp only
    split
    · exact k.refl s
    · rename_i u hu
      exact k.trans (k.cancel hu) (k.confirmServer _)
  case h_7 => exact k.replaceSecret
  case h_10 => exact k.foldl (fun _ t => k.activateTarget t) _ s
  case h_12 => exact k.handleRollout
  case h_13 => exact k.handleRollout
  case h_14 => exact k.orFail fun _ h => k.control h
  case h_15 => exact k.orFail fun _ h => k.control h
  case h_16 => exact k.restartTargets _
  case h_21 =>
    split
    · exact k.confirmServer _
    · exact k.refl s
  all_goals first
    | exact k.orFail fun _ h => k.bump h
    | exact k.queueAll _ _ _

theorem executeServerSide : R s (executeServerSide s op req).1 := by
  unfold Submission.executeServerSide
  split
  · exact k.refl s
  · exact k.serverEffect

theorem closeTargets (e : ServerError) : R s (closeTargets s op e) := by
  refine k.foldl (fun u t => ?_) _ s
  unfold closeTarget
  split
  · exact k.refl u
  · split
    · exact k.commit fun _ h => k.update h
    · split_ifs
      · exact k.commit fun _ h => k.mark rfl h
      · exact k.commit fun _ h => k.update h

theorem insertIntent (intent : ∀ (s : Store) intents, R s { s with intents })
    {m : ModelIntent} (h : insertIntent s op m = .ok s') : R s s' := by
  unfold Operations.insertIntent at h
  split at h
  · split at h
    · cases h
    · rename_i intents _
      exact k.trans (intent s intents) (k.foldlM (fun _ _ _ => k.supersede) h)
  · cases h

theorem advanceRollouts (s : Store) (expireNow now : Time) : R s (advanceRollouts s expireNow now).1 := by
  unfold Rollouts.advanceRollouts
  split
  · exact k.refl s
  rename_i u hu
  have expired := k.expire hu
  split
  · exact expired
  rename_i v hv
  refine k.trans expired (k.foldlM (fun w w' id hw => ?_) hv)
  obtain ⟨r, -, ha⟩ := bind_ok.mp hw
  exact k.advance ha

theorem claimPendingJobs (s : Store) (agent : String) (limit : Int)
    (expireNow tickNow now : Time) (authority : JobEnvelope → Except StoreError Bool) :
    R s (claimPendingJobs s agent limit expireNow tickNow now authority).1 := by
  have ticked := k.advanceRollouts s expireNow tickNow
  obtain same | ⟨v, out, hv, same⟩ :=
    claimPendingJobs_cases s agent limit expireNow tickNow now authority
  · rw [same]
    exact ticked
  · rw [same]
    exact k.trans ticked (k.claim hv)

end

def rewrites : Event → Bool
  | .submit _ => false
  | .submitModel _ _ => false
  | .world _ => false
  | _ => true

section

variable (k : Rule R)
include k

theorem step {e : Event} (h : rewrites e) : R s (step s e) := by
  cases e with
  | submit req => cases h
  | submitModel req model => cases h
  | claim agent limit expireNow tickNow now authority =>
    exact k.claimPendingJobs s agent limit expireNow tickNow now authority
  | receipt agent r spark => exact k.commit fun _ h => k.receipt h
  | cancel op => exact k.commit fun _ h => k.cancel h
  | expire now => exact k.commit fun _ h => k.expire h
  | advance expireNow now => exact k.advanceRollouts s expireNow now
  | reopen => exact k.reopen s
  | world w => cases h

theorem processSubmit (s : Store) (req : Request) : processSubmit s req = s ∨
      ∃ u, insertOperation s (newOperation s req) none = .ok u ∧ R u (processSubmit s req) := by
  obtain same | ⟨-, u, hu, rest⟩ := processSubmit_cases s req
  · exact .inl same
  · refine .inr ⟨u, hu, ?_⟩
    have effect : R u (Submission.executeServerSide u (newOperation s req) req).1 :=
      k.executeServerSide
    obtain done | ⟨e, failed⟩ := rest
    · rwa [done]
    · rw [failed]
      exact k.trans effect (k.closeTargets e)

/-- Every step keeps `R` if the insertion of an operation does, up to a change of the outside world. -/
theorem step_inside (insert : ∀ {s u op model}, insertOperation s op model = .ok u → R s u) (s : Store) (e : Event)
    (inside : ∀ w, e ≠ .world w) : R s (DispatchSafety.step s e) := by
  cases e with
  | submit req =>
    obtain same | ⟨u, inserted, kept⟩ := k.processSubmit s req
    · rw [DispatchSafety.step, same]
      exact k.refl s
    · exact k.trans (insert inserted) kept
  | submitModel req model =>
    rw [DispatchSafety.step, processSparkSubmit]
    split
    · split
      · exact k.refl s
      · exact k.commit fun _ inserted => insert inserted
    · exact k.refl s
  | world w => exact absurd rfl (inside w)
  | _ => exact k.step rfl

theorem applyReceipts (agent : String) (spark : JobReceipt → SparkAnswers) (rs : List JobReceipt) (s : Store)
    : R s (ReportHandler.applyReceipts agent spark rs s).1 := by
  induction rs generalizing s with
  | nil => exact k.refl s
  | cons r rs ih =>
    unfold ReportHandler.applyReceipts
    split
    · exact ih s
    · rename_i u hu
      exact k.trans (k.receipt hu) (ih u)

theorem reconcileUnverified (agent : String) (x : ReportHandler.Request) (s : Store) :
    R s (ReportHandler.reconcileUnverified s agent x) :=
  ReportHandler.reconcileReceipts_invariant (R s) (k.refl s) fun _ _ _ _ _ _ _ h hu => k.trans hu (k.receipt h)

theorem poll (controller : String) (s : Store) (rep : AgentReport)
    (accepted : AcceptedReport) (acks : List String) (x : ReportHandler.Request) :
    R s (ReportHandler.poll controller s rep accepted acks x).1 := by
  have claimed := k.claimPendingJobs s rep.agentId 8 x.expireNow x.tickNow x.claimNow x.authority
  unfold Rollouts.claimPendingJobs at claimed
  unfold ReportHandler.poll
  split
  · exact k.refl s
  split_ifs
  · exact k.refl s
  · exact k.refl s
  · exact k.refl s
  · split <;> rename_i result <;> rw [result] at claimed <;> exact claimed

theorem handleReport {c : Codec} {rep : AgentReport} {x : ReportHandler.Request}
    (accept : ∀ {u out}, acceptReport c s rep x.call = .ok (u, out) → R s u) (controller : String) :
    R s (ReportHandler.handleReport c controller s rep x).1 := by
  unfold ReportHandler.handleReport
  split
  · exact k.refl s
  split
  · exact k.refl s
  rename_i u accepted hu
  have checked : R s (if accepted.live then ReportHandler.reconcileUnverified u rep.agentId x else u) := by
    split
    · exact k.trans (accept hu) (k.reconcileUnverified rep.agentId x u)
    · exact accept hu
  dsimp only
  split
  · exact checked
  · exact k.trans (k.trans checked (k.applyReceipts _ _ _ _)) (k.poll ..)

end

end Rule

end Monik.ControllerRule
