import Mathlib.Data.List.Dedup
import Monik.JobPermanence

/-! Whether `expireAndBlockJobs` makes progress. It reads the first thousand open jobs by deadline
and passes over model jobs that an agent took up, so a thousand such jobs hide every later one. -/

namespace Monik.ExpiryProgress
open Protocol Tables ControllerStore Operations JobEvolution JobSteps

variable {s s' : Store} {now : Time} {j k e : JobRow}

def expirable (j : JobRow) : Bool :=
  match j.status with
  | .preparing | .delivered | .of .queued | .of .waitingOffline => true
  | .of .accepted | .of .running | .of .awaitingConfirmation => !j.action.isModel
  | _ => false

def overdue (now : Time) (j : JobRow) : Bool := expirable j && decide (j.deadline ≤ now)

def passedOver (j : JobRow) : Bool := j.status.guarded && !expirable j

def ahead (s : Store) (j : JobRow) : Nat := s.jobs.count fun k => passedOver k && decide (byDeadline k j)

def call (now : Time) (s : Store) : Store := commit s (expireAndBlockJobs s now)

def Progress (s : Store) (now : Time) : Prop :=
  (∃ j ∈ s.jobs, ∃ j' ∈ (call now s).jobs, j'.jobId = j.jobId ∧ j'.status ≠ j.status) ∨
    ∀ j ∈ (call now s).jobs, overdue now j = false

/-! One job. -/

theorem expirable_guarded (h : expirable j) : j.status.guarded := by
  unfold expirable at h
  split at h <;> simp_all [JobStatus.guarded]

theorem guardOutcome_passedOver (h : passedOver j) : guardOutcome now j = none := by
  obtain ⟨jobId, operationId, agentId, action, envelope, status, createdAt, deadline, deliveredAt, result⟩ := j
  unfold passedOver expirable at h
  unfold guardOutcome
  cases status with
  | of target => cases target <;> cases action <;> simp_all [JobStatus.guarded, Action.isModel, Action.unavailable]
  | _ => simp [JobStatus.guarded] at h

theorem guardOutcome_overdue (h : overdue now j) : ∃ status, guardOutcome now j = some status := by
  obtain ⟨jobId, operationId, agentId, action, envelope, status, createdAt, deadline, deliveredAt, result⟩ := j
  simp only [overdue, Bool.and_eq_true, decide_eq_true_eq] at h
  unfold expirable at h
  unfold guardOutcome
  cases status with
  | of target => cases target <;> cases action <;> simp_all [Action.isModel, Action.unavailable, Action.isUpdate]
  | _ => cases action <;> simp_all [Action.isModel, Action.unavailable, Action.isUpdate]

theorem guardOutcome_closed {status : TargetStatus} (h : guardOutcome now j = some status) :
    (JobStatus.of status).guarded = false := by
  unfold guardOutcome at h
  split_ifs at h
  all_goals first
    | (cases h; rfl)
    | (split at h <;> cases h <;> rfl)

/-! One call. -/

def close (now : Time) (k j : JobRow) : JobRow :=
  if k.jobId = j.jobId then (guardOutcome now j).elim k fun status => { k with status := .of status } else k

theorem guardJob_jobs (now : Time) (s : Store) (j : JobRow) :
    (guardJob now s j).jobs.rows = s.jobs.rows.map fun k => close now k j := by
  unfold guardJob close
  cases guardOutcome now j with
  | none => simp
  | some status => simp [Store.setTargets, Store.setJobStatus, Store.setJobs, Table.update]

theorem foldl_guardJob_jobs (now : Time) (items : List JobRow) (s : Store) :
    (items.foldl (guardJob now) s).jobs.rows = s.jobs.rows.map fun k => items.foldl (close now) k := by
  induction items generalizing s with
  | nil => simp
  | cons j rest ih => simp [ih, guardJob_jobs]

theorem foldl_close_other {items : List JobRow} (others : ∀ j ∈ items, j.jobId ≠ k.jobId) :
    items.foldl (close now) k = k := by
  induction items with
  | nil => rfl
  | cons j rest ih =>
    have first : close now k j = k := by simp [close, Ne.symm (others j (by simp))]
    rw [List.foldl_cons, first]
    exact ih fun a mem => others a (by simp [mem])

theorem foldl_close_own {items : List JobRow} (distinct : (items.map JobRow.jobId).Nodup) (mem : k ∈ items) :
    items.foldl (close now) k = (guardOutcome now k).elim k fun status => { k with status := .of status } := by
  induction items with
  | nil => cases mem
  | cons j rest ih =>
    rw [List.map_cons, List.nodup_cons] at distinct
    have apart : ∀ a ∈ rest, a.jobId ≠ j.jobId := fun a later same => distinct.1 (List.mem_map.mpr ⟨a, later, same⟩)
    rw [List.foldl_cons]
    rcases List.mem_cons.mp mem with rfl | later
    · cases outcome : guardOutcome now k with
      | none => simpa [close, outcome] using foldl_close_other apart
      | some status => simpa [close, outcome] using foldl_close_other (k := { k with status := .of status }) apart
    · have first : close now k j = k := by simp [close, apart k later]
      rw [first]
      exact ih distinct.2 later

def closed (now : Time) (s : Store) (k : JobRow) : JobRow := (guardedJobs s).foldl (close now) k

theorem closed_cases (mem : k ∈ s.jobs) : (closed now s k = k ∧ (k ∈ guardedJobs s → guardOutcome now k = none)) ∨
    ∃ status, k ∈ guardedJobs s ∧ guardOutcome now k = some status ∧ closed now s k = { k with status := .of status } := by
  by_cases read : k ∈ guardedJobs s
  · have own : closed now s k = _ := foldl_close_own (guardedJobs_distinct s) read
    cases outcome : guardOutcome now k with
    | none => exact .inl ⟨by simpa [outcome] using own, fun _ => rfl⟩
    | some status => exact .inr ⟨status, read, rfl, by simpa [outcome] using own⟩
  · refine .inl ⟨foldl_close_other fun j there same => read ?_, fun there => absurd there read⟩
    rwa [← s.jobs.eq_of_key (guardedJobs_mem there).1 mem same]

def Owned (s : Store) : Prop := ∀ j ∈ s.jobs, ∃ o ∈ s.operations, o.id = j.operationId

theorem foldlM_refresh {ops : List String} (known : ∀ op ∈ ops, ∃ o ∈ s.operations, o.id = op) :
    ∃ s', ops.foldlM refreshOperation s = .ok s' ∧ s'.jobs = s.jobs ∧
      ∀ id, (∃ o ∈ s.operations, o.id = id) → ∃ o ∈ s'.operations, o.id = id := by
  induction ops generalizing s with
  | nil => exact ⟨s, rfl, rfl, fun _ h => h⟩
  | cons op rest ih =>
    obtain ⟨o, there, rfl⟩ := known op (by simp)
    obtain ⟨u, first⟩ := refreshOperation_total there
    obtain ⟨operations, rfl, f, rows, same⟩ := refreshOperation_ok first
    have keeps : ∀ id, (∃ o ∈ s.operations, o.id = id) → ∃ o ∈ operations, o.id = id := by
      rintro id ⟨a, mem, its⟩
      refine ⟨f a, ?_, (same a).1.trans its⟩
      change f a ∈ operations.rows
      rw [rows]
      exact List.mem_map_of_mem mem
    obtain ⟨s', later, jobs, kept⟩ := @ih { s with operations } fun id mem => keeps id (known id (by simp [mem]))
    exact ⟨s', by simp [List.foldlM_cons, first, later, bind, Except.bind], jobs, fun id h => kept id (keeps id h)⟩

theorem call_jobs (owned : Owned s) (now : Time) :
    (call now s).jobs.rows = s.jobs.rows.map (closed now s) ∧ Owned (call now s) := by
  have operations : ∀ (items : List JobRow) (s : Store), (items.foldl (guardJob now) s).operations = s.operations := by
    intro items
    induction items with
    | nil => exact fun s => rfl
    | cons j rest ih =>
      intro s
      rw [List.foldl_cons, ih]
      unfold guardJob
      split <;> rfl
  have known : ∀ op ∈ (((guardedJobs s).filter fun j => (guardOutcome now j).isSome).map JobRow.operationId).dedup,
      ∃ o ∈ ((guardedJobs s).foldl (guardJob now) s).operations, o.id = op := by
    intro op mem
    obtain ⟨j, there, rfl⟩ := List.mem_map.mp (List.mem_dedup.mp mem)
    rw [operations]
    exact owned j (guardedJobs_mem (List.mem_filter.mp there).1).1
  obtain ⟨s', done, jobs, kept⟩ := foldlM_refresh known
  have after : call now s = s' := by
    unfold call expireAndBlockJobs
    rw [done]
    rfl
  have rows : s'.jobs.rows = s.jobs.rows.map (closed now s) := by
    rw [jobs]
    exact foldl_guardJob_jobs now (guardedJobs s) s
  rw [after]
  refine ⟨rows, fun j mem => kept j.operationId ?_⟩
  have old : j ∈ s'.jobs.rows := mem
  rw [rows] at old
  obtain ⟨k, there, rfl⟩ := List.mem_map.mp old
  rw [operations]
  rcases closed_cases there with ⟨same, -⟩ | ⟨status, -, -, same⟩
  · rw [same]
    exact owned k there
  · rw [same]
    exact owned k there

/-! The window. -/

theorem byDeadline_antisymm (first : byDeadline j k) (second : byDeadline k j) : j.jobId = k.jobId := by
  rcases first with h | ⟨h, le⟩
  · rcases second with h' | ⟨h', -⟩
    · exact absurd h (lt_asymm h')
    · exact absurd h'.symm (ne_of_lt h)
  · rcases second with h' | ⟨-, le'⟩
    · exact absurd h.symm (ne_of_lt h')
    · exact String.le_antisymm le le'

theorem byDeadline_le (h : byDeadline j k) : j.deadline ≤ k.deadline :=
  h.elim le_of_lt fun both => le_of_eq both.1

/-- `ORDER BY .. LIMIT k` shows no row that more than `k` rows come before. -/
theorem countP_le_of_mem_take {α : Type} {le : α → α → Prop} [DecidableRel le] {l : List α} (order : l.Pairwise le)
    (nodup : l.Nodup) {x : α} (antisymm : ∀ y ∈ l, le x y → le y x → x = y) {n : Nat} (mem : x ∈ l.take n) :
    l.countP (fun y => decide (le y x)) ≤ n := by
  induction l generalizing n with
  | nil => simp
  | cons a rest ih =>
    rw [List.pairwise_cons] at order
    rw [List.nodup_cons] at nodup
    cases n with
    | zero => simp at mem
    | succ n =>
      rw [List.countP_cons]
      rcases List.mem_cons.mp mem with rfl | later
      · have none_ : rest.countP (fun y => decide (le y x)) = 0 := by
          refine List.countP_eq_zero.mpr fun y there before => nodup.1 ?_
          rwa [antisymm y (by simp [there]) (order.1 y there) (of_decide_eq_true before)]
        split <;> omega
      · have bound := ih order.2 nodup.2 (fun y there => antisymm y (by simp [there])) later
        split <;> omega

theorem countP_lt {α : Type} {l : List α} {p q : α → Bool} (le : ∀ x ∈ l, p x → q x) {x : α}
    (mem : x ∈ l) (out : p x = false) (in_ : q x) : l.countP p < l.countP q := by
  induction l with
  | nil => cases mem
  | cons a rest ih =>
    have bound : rest.countP p ≤ rest.countP q := List.countP_mono_left fun y there => le y (by simp [there])
    rw [List.countP_cons, List.countP_cons]
    rcases List.mem_cons.mp mem with rfl | later
    · simp [out, in_]
      omega
    · have strict := ih (fun y there => le y (by simp [there])) later
      have first := le a (by simp)
      cases pa : p a with
      | false => simp; omega
      | true => simp [first pa]; omega

theorem countP_le_add {α : Type} {l : List α} {p q r : α → Bool}
    (cover : ∀ x ∈ l, r x → p x ∨ q x) : l.countP r ≤ l.countP p + l.countP q := by
  induction l with
  | nil => simp
  | cons a rest ih =>
    have bound := ih fun x there => cover x (by simp [there])
    rw [List.countP_cons, List.countP_cons, List.countP_cons]
    by_cases met : r a
    · rcases cover a (by simp) met with first | second
      · rw [if_pos met, if_pos first]
        omega
      · rw [if_pos met, if_pos second]
        omega
    · rw [if_neg met]
      omega

def open_ (s : Store) : List JobRow := s.jobs.rows.filter fun j => j.status.guarded

theorem ahead_eq (s : Store) (j : JobRow) :
    ahead s j = (open_ s).countP fun k => passedOver k && decide (byDeadline k j) := by
  unfold open_
  rw [List.countP_filter]
  refine List.countP_congr fun k _ => ?_
  unfold passedOver
  cases k.status.guarded <;> simp

theorem open_nodup (s : Store) : (open_ s).Nodup := (s.jobs.unique.of_map JobRow.jobId).filter _

theorem ahead_lt_of_read (read : e ∈ guardedJobs s) (due : expirable e) : ahead s e < 1000 := by
  obtain ⟨stored, guarded⟩ := guardedJobs_mem read
  have sorted := List.perm_insertionSort byDeadline (open_ s)
  have few : (open_ s).countP (fun k => decide (byDeadline k e)) ≤ 1000 := by
    rw [← sorted.countP_eq]
    refine countP_le_of_mem_take (List.pairwise_insertionSort byDeadline _) (sorted.nodup_iff.mpr (open_nodup s)) ?_ read
    intro k mem first second
    have there := List.mem_of_mem_filter (List.mem_insertionSort byDeadline |>.mp mem)
    exact s.jobs.eq_of_key stored there (byDeadline_antisymm first second)
  rw [ahead_eq]
  refine lt_of_lt_of_le (countP_lt (x := e) ?_ (List.mem_filter.mpr ⟨stored, guarded⟩) ?_ ?_) few
  · simp
  · simp [passedOver, due]
  · simpa using refl_of byDeadline e

theorem first_read (stored : e ∈ s.jobs) (due : overdue now e) (few : ahead s e < 1000) :
    ∃ first ∈ guardedJobs s, overdue now first := by
  have mem : e ∈ (s.jobs.rows.filter (overdue now)).insertionSort byDeadline :=
    (List.mem_insertionSort byDeadline).mpr (List.mem_filter.mpr ⟨stored, due⟩)
  have order := List.pairwise_insertionSort byDeadline (s.jobs.rows.filter (overdue now))
  have all : ∀ k, k ∈ s.jobs.rows.filter (overdue now) →
      k ∈ (s.jobs.rows.filter (overdue now)).insertionSort byDeadline := fun k => (List.mem_insertionSort byDeadline).mpr
  have back : ∀ k, k ∈ (s.jobs.rows.filter (overdue now)).insertionSort byDeadline → k ∈ s.jobs ∧ overdue now k :=
    fun k there => List.mem_filter.mp ((List.mem_insertionSort byDeadline).mp there)
  cases list : (s.jobs.rows.filter (overdue now)).insertionSort byDeadline with
  | nil => simp [list] at mem
  | cons first rest =>
    rw [list] at mem order all back
    obtain ⟨there, late⟩ := back first (by simp)
    have least : ∀ k ∈ s.jobs, overdue now k → byDeadline first k := by
      intro k its due
      rcases List.mem_cons.mp (all k (List.mem_filter.mpr ⟨its, due⟩)) with rfl | later
      · exact refl_of byDeadline k
      · exact (List.pairwise_cons.mp order).1 k later
    have late' := late
    simp only [overdue, Bool.and_eq_true, decide_eq_true_eq] at late
    refine ⟨first, mem_limit (List.mem_filter.mpr ⟨there, expirable_guarded late.1⟩) ?_, late'⟩
    have cover : (open_ s).countP (fun k => decide (byDeadline k first)) ≤
        (open_ s).countP (fun k => passedOver k && decide (byDeadline k e)) +
          (open_ s).countP (fun k => decide (k = first)) := by
      refine countP_le_add fun k mem before => ?_
      obtain ⟨its, guarded⟩ := List.mem_filter.mp mem
      have le : byDeadline k first := of_decide_eq_true before
      cases ends : expirable k with
      | false => simp [passedOver, guarded, ends, trans_of byDeadline le (least e stored due)]
      | true =>
        have dueToo : overdue now k := by simp [overdue, ends, le_trans (byDeadline_le le) late.2]
        simp [s.jobs.eq_of_key its there (byDeadline_antisymm le (least k its dueToo))]
    have one : (open_ s).countP (fun k => decide (k = first)) ≤ 1 :=
      countP_le_one (open_nodup s) fun x _ y _ hx hy => by simp_all
    rw [← ahead_eq] at cover
    exact Nat.le_trans cover (by omega)

/-! Progress. -/

theorem overdue_closed (mem : k ∈ s.jobs) (due : overdue now (closed now s k)) : closed now s k = k := by
  rcases closed_cases mem with ⟨same, -⟩ | ⟨status, -, outcome, same⟩
  · exact same
  · rw [same] at due
    have guarded := expirable_guarded (Bool.and_eq_true_iff.mp due).1
    rw [guardOutcome_closed outcome] at guarded
    cases guarded

theorem mem_call (owned : Owned s) : k ∈ (call now s).jobs ↔ ∃ j ∈ s.jobs, closed now s j = k := by
  change k ∈ (call now s).jobs.rows ↔ _
  rw [(call_jobs owned now).1]
  exact List.mem_map

theorem ahead_mono (before : byDeadline j k) : ahead s j ≤ ahead s k := by
  refine List.countP_mono_left fun a _ met => ?_
  rw [Bool.and_eq_true, decide_eq_true_eq] at met ⊢
  exact ⟨met.1, trans_of byDeadline met.2 before⟩

theorem exists_few_ahead (read : k ∈ guardedJobs s) (ends : guardOutcome now k ≠ none) (stored : e ∈ s.jobs)
    (due : overdue now e) : ∃ j ∈ s.jobs, overdue now j ∧ ahead s j < 1000 := by
  obtain ⟨there, guarded⟩ := guardedJobs_mem read
  have expires : expirable k := by
    by_contra lasts
    exact ends (guardOutcome_passedOver (by simp [passedOver, guarded, lasts]))
  have few := ahead_lt_of_read read expires
  by_cases late : k.deadline ≤ now
  · exact ⟨k, there, by simp [overdue, expires, late], few⟩
  · have before : e.deadline ≤ now := by simp_all [overdue]
    exact ⟨e, stored, due, lt_of_le_of_lt (ahead_mono (.inl (lt_of_le_of_lt before (not_le.mp late)))) few⟩

theorem closed_jobId (mem : k ∈ s.jobs) : (closed now s k).jobId = k.jobId := by
  rcases closed_cases mem with ⟨same, -⟩ | ⟨status, -, -, same⟩ <;> rw [same]

theorem progress_iff (owned : Owned s) (now : Time) : Progress s now ↔
    (∀ j ∈ s.jobs, overdue now j = false) ∨ ∃ j ∈ s.jobs, overdue now j ∧ ahead s j < 1000 := by
  constructor
  · intro progress
    by_contra none_
    simp only [not_or, not_forall, Bool.not_eq_false] at none_
    obtain ⟨⟨e, stored, due⟩, few⟩ := none_
    rcases progress with ⟨j, mem, j', after, id, changed⟩ | clear
    · obtain ⟨k, there, rfl⟩ := (mem_call owned).mp after
      rw [closed_jobId there] at id
      rw [s.jobs.eq_of_key there mem id] at changed
      rcases closed_cases mem with ⟨same, -⟩ | ⟨status, read, outcome, -⟩
      · exact changed (by rw [same])
      · exact few (exists_few_ahead read (by simp [outcome]) stored due)
    · rcases closed_cases stored with ⟨same, -⟩ | ⟨status, read, outcome, -⟩
      · have kept := clear e ((mem_call owned).mpr ⟨e, stored, same⟩)
        rw [due] at kept
        cases kept
      · exact few (exists_few_ahead read (by simp [outcome]) stored due)
  · rintro (none_ | ⟨e, stored, due, few⟩)
    · refine .inr fun k mem => Bool.eq_false_iff.mpr fun due => ?_
      obtain ⟨j, there, rfl⟩ := (mem_call owned).mp mem
      rw [overdue_closed there due, none_ j there] at due
      cases due
    · obtain ⟨first, read, late⟩ := first_read stored due few
      obtain ⟨there, guarded⟩ := guardedJobs_mem read
      obtain ⟨status, outcome⟩ := guardOutcome_overdue late
      refine .inl ⟨first, there, closed now s first, (mem_call owned).mpr ⟨first, there, rfl⟩, closed_jobId there, ?_⟩
      intro same
      rcases closed_cases there with ⟨-, ends⟩ | ⟨status', -, outcome', after⟩
      · rw [ends read] at outcome
        cases outcome
      · rw [after] at same
        rw [← same, guardOutcome_closed outcome'] at guarded
        cases guarded

/-! Repeated calls. -/

def calls (now : Time) (n : Nat) (s : Store) : Store := (call now)^[n] s

theorem calls_succ (now : Time) (n : Nat) (s : Store) : calls now (n + 1) s = calls now n (call now s) := rfl

theorem passedOver_closed (mem : k ∈ s.jobs) : passedOver (closed now s k) = passedOver k := by
  rcases closed_cases mem with ⟨same, -⟩ | ⟨status, -, outcome, same⟩
  · rw [same]
  · have before : passedOver k = false := by
      by_contra passed
      rw [guardOutcome_passedOver (by simpa using passed)] at outcome
      cases outcome
    rw [same, before]
    simp [passedOver, guardOutcome_closed outcome]

theorem ahead_call (owned : Owned s) (j : JobRow) : ahead (call now s) j = ahead s j := by
  unfold ahead Table.count
  rw [(call_jobs owned now).1, List.countP_map]
  refine List.countP_congr fun k mem => ?_
  have order : byDeadline (closed now s k) j ↔ byDeadline k j := by
    rcases closed_cases mem with ⟨same, -⟩ | ⟨status, -, -, same⟩
    · rw [same]
    · rw [same]
      exact Iff.rfl
  simp [passedOver_closed mem, order]

theorem count_overdue_call (owned : Owned s) (stored : e ∈ s.jobs) (due : overdue now e) (few : ahead s e < 1000) :
    (call now s).jobs.count (overdue now) < s.jobs.count (overdue now) := by
  unfold Table.count
  rw [(call_jobs owned now).1, List.countP_map]
  obtain ⟨first, read, late⟩ := first_read stored due few
  obtain ⟨there, -⟩ := guardedJobs_mem read
  refine countP_lt (x := first) (fun k mem later => ?_) there ?_ late
  · rwa [Function.comp_apply, overdue_closed mem later] at later
  · by_contra still
    have same := overdue_closed there (by simpa using still)
    rcases closed_cases there with ⟨-, ends⟩ | ⟨status, -, outcome, after⟩
    · obtain ⟨status, outcome⟩ := guardOutcome_overdue late
      rw [ends read] at outcome
      cases outcome
    · have guarded := expirable_guarded (Bool.and_eq_true_iff.mp late).1
      rw [← same, after] at guarded
      simp [guardOutcome_closed outcome] at guarded

theorem cleared_iff (owned : Owned s) (now : Time) : (∃ n, ∀ j ∈ (calls now n s).jobs, overdue now j = false) ↔
    ∀ j ∈ s.jobs, overdue now j → ahead s j < 1000 := by
  constructor
  · rintro ⟨n, clear⟩ e stored due
    by_contra many
    induction n generalizing s with
    | zero =>
      have kept := clear e stored
      rw [due] at kept
      cases kept
    | succ n ih =>
      refine ih (call_jobs owned now).2 clear ((mem_call owned).mpr ⟨e, stored, ?_⟩) (by rwa [ahead_call owned])
      rcases closed_cases stored with ⟨same, -⟩ | ⟨status, read, -, -⟩
      · exact same
      · exact absurd (ahead_lt_of_read read (Bool.and_eq_true_iff.mp due).1) many
  · intro few
    induction count : s.jobs.count (overdue now) using Nat.strong_induction_on generalizing s with
    | _ n ih =>
      by_cases none_ : ∀ j ∈ s.jobs, overdue now j = false
      · exact ⟨0, none_⟩
      · simp only [not_forall, Bool.not_eq_false] at none_
        obtain ⟨e, stored, due⟩ := none_
        have fewer := count_overdue_call owned stored due (few e stored due)
        rw [count] at fewer
        obtain ⟨n, clear⟩ := ih _ fewer (call_jobs owned now).2 (fun j mem late => by
          obtain ⟨k, there, rfl⟩ := (mem_call owned).mp mem
          have same := overdue_closed there late
          rw [same] at late ⊢
          rw [ahead_call owned]
          exact few k there late) rfl
        exact ⟨n + 1, clear⟩

/-- A call makes progress just when nothing is overdue or fewer than a thousand jobs are passed over before
an overdue one. -/
theorem expiry_progresses_iff (s : Store) (owned : Owned s) (now : Time) :
    (Progress s now ↔
      (∀ j ∈ s.jobs, overdue now j = false) ∨ ∃ j ∈ s.jobs, overdue now j ∧ ahead s j < 1000) ∧
    ((∃ n, ∀ j ∈ (calls now n s).jobs, overdue now j = false) ↔
      ∀ j ∈ s.jobs, overdue now j → ahead s j < 1000) :=
  ⟨progress_iff owned now, cleared_iff owned now⟩

theorem owned_of_linked (h : Linked s) : Owned s := by
  intro j mem
  obtain ⟨o, there, own, -⟩ := h.action j mem
  exact ⟨o, there, own⟩

/-! Model jobs that were taken up and never reported on, each of its own operation and agent, and one
queued job after them. -/

def jobAt (id : String) (action : Action) (status : JobStatus) (deadline : Time) : JobRow :=
  ⟨id, id, id, action, ⟨id, id, action, schemaVersion, 0, some deadline, .nil⟩, status, 0, deadline, none, none⟩

def queuedJob : JobRow := jobAt "q" .agentCollectNow (.of .queued) 1

def lostJob (n : Nat) : JobRow :=
  jobAt (String.ofList (List.replicate (n + 1) 'm')) .modelStart (.of .running) 0

def crowd (n : Nat) : List JobRow := (List.range n).map lostJob ++ [queuedJob]

theorem mem_crowd {n : Nat} : j ∈ crowd n ↔ (∃ m < n, lostJob m = j) ∨ j = queuedJob := by simp [crowd]

theorem crowd_ids (n : Nat) : ((crowd n).map JobRow.jobId).Nodup := by
  have length : ∀ m, (lostJob m).jobId.length = m + 1 := by simp [lostJob, jobAt]
  rw [crowd, List.map_append, List.map_map]
  refine List.Nodup.append (List.nodup_range.map fun a b same => ?_) (by simp) ?_
  · have lengths := congrArg String.length same
    simpa [length] using lengths
  · intro id mem last
    obtain ⟨m, -, rfl⟩ := List.mem_map.mp mem
    simp [lostJob, jobAt, queuedJob, List.replicate_succ, String.ext_iff] at last

def crowded (n : Nat) : Store :=
  { Store.empty with
    operations := ⟨(crowd n).map fun j => ⟨j.jobId, j.action, .running, 1, "owner", j.jobId, "", 0, none⟩,
      by rw [List.map_map]; exact crowd_ids n⟩
    targets := ⟨(crowd n).map fun j => ⟨j.jobId, j.jobId, .running, "", "", "", false, [], j.jobId⟩, by
      rw [List.map_map]
      exact List.Nodup.of_map Prod.fst (by rw [List.map_map]; exact crowd_ids n)⟩
    jobs := ⟨crowd n, crowd_ids n⟩ }

theorem crowded_linked (n : Nat) : Linked (crowded n) := by
  have own : ∀ j ∈ crowd n, j.operationId = j.jobId ∧ j.agentId = j.jobId ∧ j.action.scope = .agents := by
    intro j mem
    rcases mem_crowd.mp mem with ⟨m, -, rfl⟩ | rfl <;> exact ⟨rfl, rfl, rfl⟩
  constructor
  · intro j mem
    obtain ⟨operation, agent, -⟩ := own j mem
    exact ⟨_, List.mem_map_of_mem mem, by rw [JobRow.key, operation, agent]; rfl, rfl⟩
  · intro t mem
    obtain ⟨j, there, rfl⟩ := List.mem_map.mp mem
    exact ⟨_, List.mem_map_of_mem there, rfl⟩
  · intro j mem
    exact ⟨_, List.mem_map_of_mem mem, (own j mem).1.symm, rfl⟩
  · exact fun j mem => (own j mem).2.2

theorem ahead_crowded (n : Nat) : ahead (crowded n) queuedJob = n := by
  have rows : (crowded n).jobs.rows = (List.range n).map lostJob ++ [queuedJob] := rfl
  have all : ((List.range n).map lostJob).countP (fun k => passedOver k && decide (byDeadline k queuedJob)) =
      ((List.range n).map lostJob).length := by
    refine List.countP_eq_length.mpr fun k mem => ?_
    obtain ⟨m, -, rfl⟩ := List.mem_map.mp mem
    have passed : passedOver (lostJob m) := rfl
    have before : byDeadline (lostJob m) queuedJob := .inl Int.zero_lt_one
    simp [passed, before]
  have last : passedOver queuedJob = false := rfl
  unfold ahead Table.count
  rw [rows, List.countP_append, all]
  simp [last]

theorem overdue_crowded {n : Nat} (mem : j ∈ (crowded n).jobs) (due : overdue 1 j) : j = queuedJob := by
  rcases mem_crowd.mp mem with ⟨m, -, rfl⟩ | last
  · simp [overdue, expirable, lostJob, jobAt, Action.isModel] at due
  · exact last

theorem last_place_expires :
    Progress (crowded 999) 1 ∧ ∃ n, ∀ j ∈ (calls 1 n (crowded 999)).jobs, overdue 1 j = false := by
  have few : ahead (crowded 999) queuedJob < 1000 := (ahead_crowded 999).trans_lt (by decide)
  have law := expiry_progresses_iff (crowded 999) (owned_of_linked (crowded_linked 999)) 1
  refine ⟨law.1.mpr (.inr ⟨queuedJob, mem_crowd.mpr (.inr rfl), by decide, few⟩), law.2.mpr fun j mem due => ?_⟩
  rw [overdue_crowded mem due]
  exact few

theorem crowded_jobs_hide_overdue : Linked (crowded 1000) ∧ ¬Progress (crowded 1000) 1 ∧
    ∀ n, ∃ j ∈ (calls 1 n (crowded 1000)).jobs, overdue 1 j := by
  have owned : Owned (crowded 1000) := owned_of_linked (crowded_linked 1000)
  have there : queuedJob ∈ (crowded 1000).jobs := mem_crowd.mpr (.inr rfl)
  have due : overdue 1 queuedJob := by decide
  have many : ¬ahead (crowded 1000) queuedJob < 1000 := (ahead_crowded 1000).symm.le.not_gt
  refine ⟨crowded_linked 1000, fun progress => ?_, fun n => ?_⟩
  · rcases (progress_iff owned 1).mp progress with none_ | ⟨j, mem, late, few⟩
    · rw [none_ queuedJob there] at due
      cases due
    · rw [overdue_crowded mem late] at few
      exact many few
  · by_contra clear
    simp only [not_exists, not_and, Bool.not_eq_true] at clear
    exact many ((cleared_iff owned 1).mp ⟨n, clear⟩ queuedJob there due)

end Monik.ExpiryProgress
