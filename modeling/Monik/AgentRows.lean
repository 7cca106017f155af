import Monik.JobPermanence

/-! Which transactions write agent rows: of operations, jobs, receipts and rollouts only a new
desired configuration and a revocation, so a relation on agents is checked for these two. -/

namespace Monik.AgentRows
open Protocol Tables ControllerStore Operations Rollouts RolloutSteps Submission SubmissionSteps
open JobEvolution JobSteps StoreWrites ControllerRule

variable {R : Store → Store → Prop}

structure Untouched (s s' : Store) : Prop where
  agents : s'.agents = s.agents
  overlaps : s'.overlaps = s.overlaps

namespace Untouched

variable {s s' s'' : Store}

theorem refl (s : Store) : Untouched s s := ⟨rfl, rfl⟩

theorem trans (h : Untouched s s') (h' : Untouched s' s'') : Untouched s s'' :=
  ⟨h'.agents.trans h.agents, h'.overlaps.trans h.overlaps⟩

theorem of_writes (h : Writes ⟨True, True, True, False⟩ s s') : Untouched s s' := by
  refine h.related refl trans fun write => ?_
  cases write with
  | operations refreshed =>
    obtain ⟨operations, rfl, -⟩ := refreshOperation_ok refreshed
    exact ⟨rfl, rfl⟩
  | agents _ _ permitted => exact permitted.elim
  | _ => exact ⟨rfl, rfl⟩

theorem operation {op : NewOperation} {model : Option ModelIntent}
    (h : insertOperation s op model = .ok s') : Untouched s s' := by
  obtain ⟨-, operations, u, -, hu, rest⟩ := insertOperation_inserts h
  have frame := insertTargets_frame hu
  have rows : Untouched s u := ⟨frame.agents, frame.overlaps⟩
  obtain ⟨-, rfl⟩ | ⟨m, -, rest⟩ := rest
  · exact rows
  · unfold insertIntent at rest
    split at rest
    · split at rest
      · cases rest
      have superseded := of_writes (.foldlM .refl (fun _ _ _ => supersedeSparkRestart_writes trivial) rest)
      exact rows.trans ⟨superseded.agents, superseded.overlaps⟩
    · cases rest

end Untouched

theorem rule (untouched : ∀ {s s'}, Untouched s s' → R s s') (trans : ∀ {s u v}, R s u → R u v → R s v)
    (bump : ∀ {op : NewOperation} {hash : String → String} {s s' : Store} {t : TargetResult},
    bumpAgent op hash s t = .ok s' → R s s')
    (revoke : ∀ {op : String} {s s' : Store} {t : TargetRow}, revokeAgent op s t = .ok s' → R s s') : Rule R where
  refl := fun s => untouched (.refl s)
  trans := trans
  update := fun h => untouched (.of_writes (updateTargetAndRefresh_writes trivial h))
  mark := fun final h => untouched (.of_writes (markTargetAndJob_writes trivial trivial final h))
  patch := fun s op agent extra => untouched (.of_writes (patchJobParams_writes s op agent extra))
  secret := fun _ _ => untouched ⟨rfl, rfl⟩
  bump := fun {s s' op hash} h => by
    obtain ⟨u, hu, refreshed⟩ := bind_ok.mp h
    exact trans (foldlM_invariant (R s) hu (untouched (.refl s)) fun t _ v w bumped kept =>
      trans kept (bump bumped)) (untouched (.of_writes (.refresh .refl refreshed)))
  revoke := fun {s s' op} h => by
    unfold revokeOperationAgents at h
    split_ifs at h
    dsimp only at h
    split_ifs at h
    obtain ⟨u, hu, refreshed⟩ := bind_ok.mp h
    exact trans (foldlM_invariant (R s) hu (untouched (.refl s)) fun t _ v w revoked kept =>
      trans kept (revoke revoked)) (untouched (.of_writes (.refresh .refl refreshed)))
  plan := fun h => untouched (.of_writes (publishUpdatePlan_writes trivial h))
  batch := fun h => untouched (.of_writes (publishBatchedUpdatePlan_writes trivial h))
  control := fun h => untouched (.of_writes (controlRollout_writes trivial trivial h))
  cancel := fun h => untouched (.of_writes (cancelPending_writes trivial h))
  receipt := fun h => untouched (.of_writes (applyReceipt_writes trivial h))
  expire := fun h => untouched (.of_writes (expireAndBlockJobs_writes h))
  advance := fun h => untouched (.of_writes (advanceRollout_writes trivial h))
  claim := fun h => untouched (.of_writes (claimJobs_writes h))
  supersede := fun h => untouched (.of_writes (supersedeSparkRestart_writes trivial h))
  reopen := fun _ => untouched ⟨rfl, rfl⟩

theorem acceptReport_agents {c : Ingestion.Codec} {s s' : Store} {rep : AgentReport} {call : Ingestion.Call}
    {out : Ingestion.AcceptedReport} (h : Ingestion.acceptReport c s rep call = .ok (s', out)) :
    s'.overlaps = s.overlaps ∧ (s'.agents = s.agents ∨
      s'.agents = s.agents.update (fun a => a.id == rep.agentId) (Ingestion.touchAgent rep call) fun _ => rfl) := by
  unfold Ingestion.acceptReport at h
  split at h
  · cases h
  split at h
  · cases h
  split at h
  · cases h
  split at h
  · split at h <;> cases h
    exact ⟨rfl, .inl rfl⟩
  · unfold Ingestion.commitReport at h
    split at h
    · cases h
    split at h
    · cases h
    obtain ⟨u, hu, h⟩ := bind_ok.mp h
    dsimp only at h
    split at h <;> cases h
    obtain ⟨⟨samples, rfl⟩, -⟩ := Ingestion.insertSparkSample_ok hu
    obtain ⟨rows, hosts, -⟩ := Ingestion.insertHostSample_ok s rep call.received
    rw [hosts]
    split
    · exact ⟨rfl, .inr rfl⟩
    · exact ⟨rfl, .inl rfl⟩

end Monik.AgentRows
