import Monik.JobSteps

/-! What one update may do to a row, under powers to record results, to close jobs, and to write
rollouts or agents; a transaction is a sequence of updates. -/

namespace Monik.StoreWrites
open Protocol Tables ControllerStore Operations JobEvolution JobSteps

structure Powers where
  report : Prop
  close : Prop
  rollouts : Prop
  agents : Prop

inductive JobWrite (p : Powers) (j : JobRow) : JobRow → Prop
  | patch (envelope : JobEnvelope) : JobWrite p j { j with envelope }
  | close {status : TargetStatus} (permitted : p.close ∨ j.status.terminal = false)
      (final : status.terminal) : JobWrite p j { j with status := .of status }
  | guard {status : TargetStatus} {now : Time} (guarded : j.status.guarded)
      (outcome : guardOutcome now j = some status) : JobWrite p j { j with status := .of status }
  | record {status : TargetStatus} (permitted : p.report) (unsettled : j.status.terminal = false)
      (decided : status ≠ .queued ∧ status ≠ .waitingOffline) (r : JobReceipt) :
      JobWrite p j { j with status := .of status, result := some r }
  | deliver (waits : j.status = .of .queued ∨ j.status = .of .waitingOffline) (time : Time) :
      JobWrite p j { j with status := .delivered, deliveredAt := some time }
  | release (held : j.status = .rolloutHeld) (status : TargetStatus) (envelope : JobEnvelope) (deadline : Time) :
      JobWrite p j { j with status := .of status, envelope, deadline }
  | prepare (preparing : j.status = .preparing) (status : JobStatus) (envelope : JobEnvelope) :
      JobWrite p j { j with status, envelope }

inductive Write (p : Powers) : Store → Store → Prop
  | jobs {s : Store} {q : JobRow → Bool} {g : JobRow → JobRow} (keep : ∀ j, (g j).jobId = j.jobId)
      (rows : ∀ j ∈ s.jobs, q j → JobWrite p j (g j)) : Write p s (s.setJobs q g keep)
  | targets {s : Store} {q : TargetRow → Bool} {w : TargetRow → TargetRow} (keep : ∀ t, (w t).key = t.key)
      (job : ∀ t, (w t).jobId = t.jobId) (quiet : p.report ∨ ∀ t, (w t).status ≠ .rejected) :
      Write p s (s.setTargets q w keep)
  | operations {s s' : Store} {op : String} (refreshed : refreshOperation s op = .ok s') : Write p s s'
  | secrets (s : Store) (secrets : Table SecretRow SecretRow.id) : Write p s { s with secrets }
  | rollouts (s : Store) (rollouts : Table RolloutRow RolloutRow.operationId) (members : Table MemberRow MemberRow.key)
      (permitted : p.rollouts) : Write p s { s with rollouts, members }
  | agents (s : Store) (agents : Table AgentRow AgentRow.id) (overlaps : Table OverlapRow OverlapRow.agentId)
      (permitted : p.agents) : Write p s { s with agents, overlaps }

abbrev Writes (p : Powers) := Relation.ReflTransGen (Write p)

variable {p : Powers} {s s' u : Store} {op agent : String} {w : TargetWrite} {now : Time}

theorem Writes.related {R : Store → Store → Prop} (refl : ∀ s, R s s) (trans : ∀ {s t u}, R s t → R t u → R s u)
    (single : ∀ {s s'}, Write p s s' → R s s') (h : Writes p s s') : R s s' := by
  induction h with
  | refl => exact refl s
  | tail _ last ih => exact trans ih (single last)

theorem Writes.jobs (h : Writes p s u) {q : JobRow → Bool} {g : JobRow → JobRow} {keep : ∀ j, (g j).jobId = j.jobId}
    (rows : ∀ j ∈ u.jobs, q j → JobWrite p j (g j)) : Writes p s (u.setJobs q g keep) :=
  h.tail (.jobs keep rows)

theorem Writes.targets (h : Writes p s u) {q : TargetRow → Bool} {w : TargetRow → TargetRow}
    {keep : ∀ t, (w t).key = t.key} (quiet : p.report ∨ ∀ t, (w t).status ≠ .rejected)
    (job : ∀ t, (w t).jobId = t.jobId) : Writes p s (u.setTargets q w keep) :=
  h.tail (.targets keep job quiet)

theorem Writes.update (h : Writes p s u) (quiet : p.report ∨ w.status ≠ .rejected)
    (written : updateTarget u op agent w = .ok s') : Writes p s s' := by
  rw [(updateTarget_ok written).1]
  exact h.targets (quiet.imp_right fun other _ => other) (fun _ => rfl)

theorem Writes.refresh (h : Writes p s u) (refreshed : refreshOperation u op = .ok s') : Writes p s s' :=
  h.tail (.operations refreshed)

theorem Writes.foldl {α : Type*} {f : Store → α → Store} (step : ∀ s x, Writes p s (f s x)) (xs : List α)
    (s : Store) : Writes p s (xs.foldl f s) :=
  foldl_related (fun _ => .refl) .trans step xs s

theorem Writes.foldlM {α : Type*} {f : Store → α → Tx} {xs : List α} (h : Writes p s u)
    (step : ∀ s t x, f s x = .ok t → Writes p s t) (run : xs.foldlM f u = .ok s') : Writes p s s' :=
  h.trans (foldlM_related (fun _ => .refl) .trans step run)

theorem updateTargetAndRefresh_writes (report : p.report) (h : updateTargetAndRefresh s op agent w = .ok s') :
    Writes p s s' := by
  obtain ⟨u, written, refreshed⟩ := bind_ok.mp h
  exact (Writes.update .refl (.inl report) written).refresh refreshed

theorem markTargetAndJob_writes (report : p.report) (close : p.close) (final : w.status.terminal)
    (h : markTargetAndJob s op agent w = .ok s') : Writes p s s' := by
  obtain ⟨u, written, refreshed⟩ := bind_ok.mp h
  exact ((Writes.update .refl (.inl report) written).jobs fun _ _ _ => .close (.inl close) final).refresh refreshed

theorem supersedeSparkRestart_writes (close : p.close) {parent stop : String}
    (h : supersedeSparkRestart s agent parent stop = .ok s') : Writes p s s' := by
  unfold supersedeSparkRestart at h
  split at h
  · cases h
  · obtain ⟨u, written, refreshed⟩ := bind_ok.mp h
    exact ((Writes.update .refl (.inr (by simp)) written).jobs fun _ _ _ => .close (.inl close) rfl).refresh refreshed

theorem applyReceipt_writes (report : p.report) {r : JobReceipt} {spark : SparkAnswers}
    (h : applyReceipt s agent r spark = .ok s') : Writes p s s' := by
  obtain rfl | ⟨j, hj, -, -, unsettled, -, -, recorded⟩ := applyReceipt_cases h
  · exact .refl
  refine Writes.refresh (.targets (.jobs .refl fun k hk selected => ?_) (.inl report) (by intro; rfl)) recorded
  rw [Bool.and_eq_true, beq_iff_eq] at selected
  rw [s.jobs.eq_of_key hk hj selected.1]
  exact .record report unsettled (judge_reported (applyReceipt_reported h)) r

theorem guardOutcome_ne_rejected {j : JobRow} {status : TargetStatus} (h : guardOutcome now j = some status) :
    status ≠ .rejected := by
  rintro rfl
  unfold guardOutcome at h
  repeat' split at h
  all_goals cases h

theorem guardJob_writes {j : JobRow} (hj : j ∈ s.jobs) (guarded : j.status.guarded) :
    Writes p s (guardJob now s j) := by
  unfold guardJob
  split
  · exact .refl
  · rename_i status outcome
    refine Writes.targets (.jobs .refl fun k hk selected => ?_) (.inr fun _ => guardOutcome_ne_rejected outcome)
      fun _ => rfl
    rw [s.jobs.eq_of_key hk hj (beq_iff_eq.mp selected)]
    exact .guard guarded outcome

theorem expireAndBlockJobs_writes (h : expireAndBlockJobs s now = .ok s') : Writes p s s' := by
  have guarded : Writes p s ((guardedJobs s).foldl (guardJob now) s) :=
    guardJobs_rule (fun _ => .refl) .trans (fun _ => True) (fun _ hj guarded => ⟨guardJob_writes hj guarded, trivial⟩)
      trivial (fun _ => guardedJobs_mem) (guardedJobs_distinct s)
  exact guarded.foldlM (fun _ _ _ => Writes.refresh .refl) h

theorem cancelPending_writes (rollouts : p.rollouts) (h : cancelPending s op = .ok s') : Writes p s s' := by
  unfold cancelPending at h
  split at h
  · cases h
  have closes (u : Store) {q : JobRow → Bool} (unsettled : ∀ j, q j → j.status.terminal = false) :
      Writes p u (u.setJobStatus q (.of .cancelledBeforeExec)) :=
    .jobs .refl fun j _ selected => .close (.inr (unsettled j selected)) rfl
  have cancels (u : Store) (q : TargetRow → Bool) (stage message : String) :
      Writes p u (u.setTargets q (cancelTarget stage message) fun _ => rfl) :=
    .targets .refl (.inr fun _ => by simp [cancelTarget]) fun _ => rfl
  refine Writes.refresh (.tail ?_ (.rollouts _ _ _ rollouts)) h
  refine (((cancels s _ _ _).trans (closes _ fun _ => restartJob_unsettled)).trans (cancels _ _ _ _)).trans
    (closes _ fun j selected => ?_)
  exact unclaimed_unsettled (Bool.and_eq_true_iff.mp selected).2

theorem claimJobs_writes {limit : Int} {authority : JobEnvelope → Except StoreError Bool} {out : List JobEnvelope}
    (h : claimJobs s agent limit now authority = .ok (s', out)) : Writes p s s' := by
  obtain ⟨envs, -, delivered⟩ := bind_ok.mp h
  cases delivered
  refine Writes.foldl (f := deliver agent now) (fun u env => .jobs .refl fun j _ selected => ?_) out s
  simp only [Bool.and_eq_true, Bool.or_eq_true, beq_iff_eq] at selected
  exact .deliver selected.2 _

structure SameRollouts (s s' : Store) : Prop where
  rollouts : s'.rollouts = s.rollouts
  members : s'.members = s.members

theorem SameRollouts.refl (s : Store) : SameRollouts s s := ⟨rfl, rfl⟩

theorem SameRollouts.trans (h : SameRollouts s u) (h' : SameRollouts u s') : SameRollouts s s' :=
  ⟨h'.rollouts.trans h.rollouts, h'.members.trans h.members⟩

def Powers.all : Powers := ⟨True, True, True, True⟩

def Powers.jobs : Powers := ⟨True, True, False, False⟩

theorem Writes.same (h : Writes .jobs s s') : SameRollouts s s' := by
  refine h.related .refl .trans fun write => ?_
  cases write with
  | operations refreshed =>
    obtain ⟨_, rfl, -⟩ := refreshOperation_ok refreshed
    exact ⟨rfl, rfl⟩
  | rollouts _ _ permitted => exact permitted.elim
  | _ => exact ⟨rfl, rfl⟩

theorem refreshOperation_same (h : refreshOperation s op = .ok s') : SameRollouts s s' :=
  Writes.same (.refresh .refl h)

theorem updateTarget_same (h : updateTarget s op agent w = .ok s') : SameRollouts s s' :=
  Writes.same (.update .refl (.inl trivial) h)

end Monik.StoreWrites
