import Monik.RolloutSteps
import Monik.SubmissionSteps

/-! Claims, expiry, cancellation and rollout ticks leave stored results in place and mark no target
as an unverified success. -/

namespace Monik.ResultSteps
open Protocol Tables ControllerStore Operations JobEvolution JobSteps Rollouts RolloutSteps StoreWrites

def Unverified (t : TargetRow) : Prop := t.status = .rejected ∧ t.stage = "unverified_result"

structure Keeps (s s' : Store) : Prop where
  jobs : ∀ j' ∈ s'.jobs, ∃ j ∈ s.jobs, j.jobId = j'.jobId ∧ j.createdAt = j'.createdAt ∧
    j.result = j'.result
  targets : ∀ t' ∈ s'.targets, ∃ t ∈ s.targets, t.key = t'.key ∧ (Unverified t' → Unverified t)
  ingests : s'.ingests = s.ingests

variable {s s' s'' : Store}

theorem Keeps.of_eq (jobs : s'.jobs = s.jobs) (targets : s'.targets = s.targets)
    (ingests : s'.ingests = s.ingests) : Keeps s s' :=
  ⟨fun j hj => ⟨j, jobs ▸ hj, rfl, rfl, rfl⟩, fun t ht => ⟨t, targets ▸ ht, rfl, id⟩, ingests⟩

theorem Keeps.refl (s : Store) : Keeps s s := .of_eq rfl rfl rfl

theorem Keeps.trans (h : Keeps s s') (h' : Keeps s' s'') : Keeps s s'' := by
  refine ⟨fun j'' hj'' => ?_, fun t'' ht'' => ?_, h'.ingests.trans h.ingests⟩
  · obtain ⟨j', hj', id', created', result'⟩ := h'.jobs j'' hj''
    obtain ⟨j, hj, id, created, result⟩ := h.jobs j' hj'
    exact ⟨j, hj, id.trans id', created.trans created', result.trans result'⟩
  · obtain ⟨t', ht', key', back'⟩ := h'.targets t'' ht''
    obtain ⟨t, ht, key, back⟩ := h.targets t' ht'
    exact ⟨t, ht, key.trans key', back ∘ back'⟩

theorem not_unverified {t : TargetRow} (h : t.status ≠ .rejected) : ¬Unverified t :=
  fun bad => h bad.1

def silent : Powers := ⟨False, False, True, False⟩

theorem JobWrite.same {j j' : JobRow} (h : JobWrite silent j j') :
    j.jobId = j'.jobId ∧ j.createdAt = j'.createdAt ∧ j.result = j'.result := by
  cases h with
  | record permitted => exact permitted.elim
  | _ => exact ⟨rfl, rfl, rfl⟩

theorem keeps_of_writes (h : Writes silent s s') : Keeps s s' := by
  refine h.related .refl .trans fun write => ?_
  cases write with
  | jobs keep rows =>
    refine ⟨fun j' hj' => ?_, fun t ht => ⟨t, ht, rfl, id⟩, rfl⟩
    obtain ⟨j, hj, rfl⟩ := (mem_setJobs keep).mp hj'
    refine ⟨j, hj, ?_⟩
    split
    · exact JobWrite.same (rows j hj ‹_›)
    · exact ⟨rfl, rfl, rfl⟩
  | targets keep _ quiet =>
    refine ⟨fun j hj => ⟨j, hj, rfl, rfl, rfl⟩, fun t' ht' => ?_, rfl⟩
    obtain ⟨t, ht, rfl⟩ := (mem_setTargets keep).mp ht'
    refine ⟨t, ht, ?_⟩
    split
    · exact ⟨(keep t).symm, fun bad => absurd bad (not_unverified (quiet.resolve_left id t))⟩
    · exact ⟨rfl, id⟩
  | operations refreshed =>
    obtain ⟨_, rfl, -⟩ := refreshOperation_ok refreshed
    exact .of_eq rfl rfl rfl
  | _ => exact .of_eq rfl rfl rfl

end Monik.ResultSteps
