import Mathlib.Tactic.Linarith
import Monik.Ingestion
import Monik.Runs

/-! Exactly-once ingestion: a receipt is deleted after twice the retention from its arrival, when
its observation is outside the admission window. -/

namespace Monik.IngestionSafety
open Protocol Tables ControllerStore Ingestion Runs

variable {accepted : List AgentReport} {rep r : AgentReport} {s : Store} {clock readAt now : Time} {t : RawTable}
    {call : Call}

structure Machine where
  store : Store
  clock : Time
  accepted : List AgentReport
  hosts : List (AgentReport × HostSampleRow)
  checks : List (AgentReport × ObservationRow)
  sparks : List (AgentReport × SparkSampleRow)

inductive Event
  | accept (rep : AgentReport) (call : Call)
  /-- One deletion of a pass that read the clock at `readAt`. -/
  | delete (table : RawTable) (readAt now : Time)
  | retain (now : Time) (budget : Nat)
  | other (agents : Table AgentRow AgentRow.id) (services : Table ServiceRow ServiceRow.id)
      (jobs : Table JobRow JobRow.jobId)

def Timely (m : Machine) : Event → Prop
  | .accept _ call => m.clock ≤ call.opened ∧ call.opened ≤ call.validated ∧
      call.validated ≤ call.received
  | .delete _ readAt now => readAt ≤ now ∧ m.clock ≤ now
  | .retain now _ => m.clock ≤ now
  | .other _ _ _ => True

def logged {ρ : Type} (rep : AgentReport) (before after : List ρ) : List (AgentReport × ρ) :=
  (after.drop before.length).map fun row => (rep.observation, row)

def step (c : Codec) (m : Machine) : Event → Machine
  | .accept rep call =>
    match acceptReport c m.store rep call with
    | .error _ => { m with clock := call.received }
    | .ok (s, out) =>
      { store := s
        clock := call.received
        accepted := if out.duplicate then m.accepted else m.accepted ++ [rep.observation]
        hosts := m.hosts ++ logged rep m.store.hostSamples s.hostSamples
        checks := m.checks ++ logged rep m.store.observations s.observations
        sparks := m.sparks ++ logged rep m.store.sparkSamples.rows s.sparkSamples.rows }
  | .delete table readAt now =>
    { m with store := (deleteBatch rawRetention readAt m.store table).1, clock := now }
  | .retain now budget => { m with store := retainRaw rawRetention now budget m.store, clock := now }
  | .other agents services jobs => { m with store := { m.store with agents, services, jobs } }

def Remembered (c : Codec) (s : Store) (clock : Time) (r : AgentReport) : Prop :=
  (∃ i ∈ s.ingests, i.key = r.key ∧ i.payloadHash = payloadHash c r ∧
    r.observedAt ≤ i.receivedAt + 5 * minute) ∨ r.observedAt < clock - rawRetention

def brought {ρ : Type} (log : List (AgentReport × ρ)) (r : AgentReport) : Nat :=
  log.countP fun e => decide (e.1 = r)

structure Once (c : Codec) (m : Machine) : Prop where
  remembered : ∀ r ∈ m.accepted, Remembered c m.store m.clock r
  receipts : ∀ i ∈ m.store.ingests, ∃ r ∈ m.accepted, i.key = r.key ∧
    i.payloadHash = payloadHash c r
  accepted : m.accepted.Nodup
  hosts : ∀ r, brought m.hosts r ≤ m.accepted.count r * 1
  checks : ∀ r, brought m.checks r ≤ m.accepted.count r * r.checks.length
  sparks : ∀ r, brought m.sparks r ≤ m.accepted.count r * 1

theorem brought_append {ρ : Type} (log more : List (AgentReport × ρ)) (r : AgentReport) :
    brought (log ++ more) r = brought log r + brought more r :=
  List.countP_append

theorem brought_logged {ρ : Type} (rep r : AgentReport) (before rows : List ρ) :
    brought (logged rep before (before ++ rows)) r = if rep.observation = r then rows.length else 0 := by
  unfold logged
  rw [List.drop_left, brought, List.countP_map]
  by_cases same : rep.observation = r
  · simp [Function.comp_def, same]
  · simp [Function.comp_def, same]

/-- Each acceptance brings at most `bound` rows, so a report brings at most `bound` for each
time it was accepted. -/
theorem bound_accept {ρ : Type} {log : List (AgentReport × ρ)} {before after : List ρ} (bound : AgentReport → Nat)
    (h : ∀ r, brought log r ≤ accepted.count r * bound r)
    (added : ∃ rows, after = before ++ rows ∧ rows.length ≤ bound rep.observation) (r : AgentReport) :
    brought (log ++ logged rep before after) r ≤ (accepted ++ [rep.observation]).count r * bound r := by
  obtain ⟨rows, rfl, short⟩ := added
  rw [brought_append, brought_logged, List.count_append, Nat.add_mul]
  refine Nat.add_le_add (h r) ?_
  by_cases same : rep.observation = r
  · subst same
    simpa using short
  · simp [same]

theorem bound_duplicate {ρ : Type} {log : List (AgentReport × ρ)} {rows : List ρ} :
    log ++ logged rep rows rows = log := by
  simp [logged]

variable {c : Codec} {m : Machine}

theorem Remembered.later {clock' : Time} (h : Remembered c s clock r) (le : clock ≤ clock') :
    Remembered c s clock' r := by
  obtain kept | old := h
  · exact .inl kept
  · exact .inr (lt_of_lt_of_le old (Int.sub_le_sub_right le _))

theorem Remembered.delete (h : Remembered c s clock r) (read : readAt ≤ now) (le : clock ≤ now) :
    Remembered c (deleteBatch rawRetention readAt s t).1 now r := by
  obtain ⟨i, hi, hk, hh, near⟩ | old := h
  · by_cases young : readAt - 2 * rawRetention ≤ i.receivedAt
    · exact .inl ⟨i, deleteBatch_ingests hi young, hk, hh, near⟩
    · right
      have late : i.receivedAt < readAt - 2 * rawRetention := not_le.mp young
      have skew : (5 : Int) * minute ≤ rawRetention := by decide
      calc r.observedAt ≤ i.receivedAt + 5 * minute := near
        _ < readAt - 2 * rawRetention + 5 * minute := by linarith
        _ ≤ now - rawRetention := by linarith
  · exact Remembered.later (.inr old) le

theorem Once.delete (h : Once c m) (read : readAt ≤ now) (le : m.clock ≤ now) :
    Once c { m with store := (deleteBatch rawRetention readAt m.store t).1, clock := now } where
  remembered := fun r hr => (h.remembered r hr).delete read le
  receipts := fun i hi => h.receipts i (deleteBatch_ingests_sub hi)
  accepted := h.accepted
  hosts := h.hosts
  checks := h.checks
  sparks := h.sparks

theorem Once.retain {budget : Nat} (h : Once c m) (le : m.clock ≤ now) :
    Once c { m with store := retainRaw rawRetention now budget m.store, clock := now } := by
  obtain ⟨done, same⟩ := retainRaw_batches rawRetention now budget m.store
  rw [same]
  have start : Once c { m with clock := now } :=
    ⟨fun r hr => (h.remembered r hr).later le, h.receipts, h.accepted, h.hosts, h.checks, h.sparks⟩
  clear same
  revert start
  generalize m.store = s
  intro start
  induction done generalizing s with
  | nil => exact start
  | cons t done ih => exact ih _ (Once.delete (m := ⟨s, now, _, _, _, _⟩) start le_rfl le_rfl)

theorem Once.unseen (h : Once c m) (opened : m.clock ≤ call.opened)
    (window : inWindow rep.observedAt call.opened) (fresh : ∀ i ∈ m.store.ingests, i.key ≠ rep.key) :
    rep.observation ∉ m.accepted := by
  intro seen
  obtain ⟨i, hi, hk, -, -⟩ | old := h.remembered _ seen
  · exact fresh i hi hk
  · simp only [inWindow, Bool.and_eq_true, decide_eq_true_eq] at window
    have late : rep.observedAt < call.opened - rawRetention :=
      lt_of_lt_of_le old (Int.sub_le_sub_right opened _)
    exact absurd window.1 (not_le.mpr late)

theorem Once.accept (h : Once c m) (timely : Timely m (.accept rep call)) : Once c (step c m (.accept rep call)) := by
  obtain ⟨opened, validated, received⟩ := timely
  have le : m.clock ≤ call.received := opened.trans (validated.trans received)
  cases accepted : acceptReport c m.store rep call with
  | error e =>
    simp only [step, accepted]
    exact ⟨fun r hr => (h.remembered r hr).later le, h.receipts, h.accepted, h.hosts, h.checks,
      h.sparks⟩
  | ok result =>
    obtain ⟨s, out⟩ := result
    simp only [step, accepted]
    obtain ⟨window, ⟨duplicate, rfl, -⟩ | ⟨new, added⟩⟩ := acceptReport_ok accepted
    · simp only [duplicate, if_true, bound_duplicate]
      exact ⟨fun r hr => (h.remembered r hr).later le, h.receipts, h.accepted, h.hosts, h.checks,
        h.sparks⟩
    · simp only [new]
      constructor
      case remembered =>
        intro r hr
        obtain hr | hr := List.mem_append.mp hr
        · obtain ⟨i, hi, kept⟩ | old := (h.remembered r hr).later le
          · exact .inl ⟨i, (added.receipt i).mpr (.inl hi), kept⟩
          · exact .inr old
        · rw [List.mem_singleton.mp hr]
          refine .inl ⟨receiptRow c rep call, (added.receipt _).mpr (.inr rfl), rfl, rfl, ?_⟩
          simp only [inWindow, Bool.and_eq_true, decide_eq_true_eq] at window
          have skew : call.opened + 5 * minute ≤ call.received + 5 * minute :=
            Int.add_le_add_right (validated.trans received) _
          exact window.2.trans skew
      case receipts =>
        intro i hi
        obtain hi | rfl := (added.receipt i).mp hi
        · obtain ⟨r, hr, same⟩ := h.receipts i hi
          exact ⟨r, List.mem_append_left _ hr, same⟩
        · exact ⟨rep.observation, List.mem_append_right _ (List.mem_singleton.mpr rfl), rfl, rfl⟩
      case accepted =>
        refine List.Nodup.append h.accepted (List.nodup_singleton _) ?_
        intro r hr hr'
        rw [List.mem_singleton.mp hr'] at hr
        exact h.unseen opened window added.fresh hr
      case hosts => exact bound_accept (fun _ => 1) h.hosts added.host
      case checks =>
        refine bound_accept (fun r => r.checks.length) h.checks ?_
        obtain ⟨rows, grown, len⟩ := added.checks
        exact ⟨rows, grown, len.le⟩
      case sparks => exact bound_accept (fun _ => 1) h.sparks added.spark

theorem Once.step (e : Event) (h : Once c m) (timely : Timely m e) : Once c (step c m e) := by
  cases e with
  | accept rep call => exact h.accept timely
  | delete table readAt now => exact h.delete timely.1 timely.2
  | retain now budget => exact h.retain timely
  | other agents services jobs =>
    exact ⟨h.remembered, h.receipts, h.accepted, h.hosts, h.checks, h.sparks⟩

def initial (clock : Time) : Machine := ⟨Store.empty, clock, [], [], [], []⟩

theorem initial_once (clock : Time) : Once c (initial clock) :=
  ⟨fun _ hr => absurd hr List.not_mem_nil, fun i hi => absurd hi (Table.not_mem_empty i),
    List.nodup_nil, fun _ => Nat.zero_le _, fun _ => Nat.zero_le _, fun _ => Nat.zero_le _⟩

theorem run_once {events : List Event} (timely : Meets (IngestionSafety.step c) Timely (initial clock) events) :
    Once c (run (IngestionSafety.step c) (initial clock) events) :=
  run_invariant (Once c) (fun _ e h ok => h.step e ok) (initial_once clock) timely

theorem acceptReport_conflict (call : Call) {i : IngestRow}
    (hi : i ∈ s.ingests) (same : i.key = rep.key) (other : i.payloadHash ≠ payloadHash c rep) :
    ∃ e, acceptReport c s rep call = .error e := by
  simp only [IngestRow.key, AgentReport.key, Prod.mk.injEq] at same
  unfold acceptReport
  split
  · exact ⟨_, rfl⟩
  split
  · exact ⟨_, rfl⟩
  split
  · exact ⟨_, rfl⟩
  split
  · rename_i prior hprior
    obtain ⟨hp, hm⟩ := Table.find?_some hprior
    simp only [Bool.and_eq_true, beq_iff_eq] at hm
    have eq : prior = i := s.ingests.eq_of_key hp hi (by
      simp [IngestRow.key, same, hm.1.1, hm.1.2, hm.2])
    rw [eq, if_pos other]
    exact ⟨_, rfl⟩
  · rename_i none
    have absent := Table.find?_none none hi
    simp [same] at absent

theorem brought_once {ρ : Type} {log : List (AgentReport × ρ)} {bound : Nat} (h : brought log r ≤ accepted.count r * bound)
    (once : accepted.Nodup) : brought log r ≤ bound := by
  have atMost : accepted.count r ≤ 1 := List.nodup_iff_count_le_one.mp once r
  calc brought log r ≤ accepted.count r * bound := h
    _ ≤ 1 * bound := Nat.mul_le_mul_right bound atMost
    _ = bound := Nat.one_mul bound

/-- Under a clock that does not run backwards each report is new at most once; while its receipt is
retained, another payload under its identity is refused. -/
theorem reports_ingested_once (c : Codec) (collisionFree : Function.Injective c.sha256)
    (clock : Time) (events : List Event)
    (timely : Meets (step c) Timely (initial clock) events) :
    let m := run (step c) (initial clock) events
    m.accepted.Nodup ∧
    (∀ r, brought m.hosts r ≤ 1 ∧ brought m.checks r ≤ r.checks.length ∧ brought m.sparks r ≤ 1) ∧
    ∀ i ∈ m.store.ingests, ∃ r ∈ m.accepted, i.key = r.key ∧
      ∀ rep call, rep.key = i.key → observationPayload c rep ≠ observationPayload c r →
        (∃ e, acceptReport c m.store rep call = .error e) ∧
          (step c m (.accept rep call)).store = m.store := by
  have once := run_once timely
  refine ⟨once.accepted, fun r => ⟨brought_once (once.hosts r) once.accepted,
    brought_once (once.checks r) once.accepted, brought_once (once.sparks r) once.accepted⟩, ?_⟩
  intro i hi
  obtain ⟨r, hr, hk, hash⟩ := once.receipts i hi
  refine ⟨r, hr, hk, fun rep call same other => ?_⟩
  have differs : i.payloadHash ≠ payloadHash c rep := by
    rw [hash]
    intro equal
    exact other (collisionFree equal).symm
  obtain ⟨e, refused⟩ := acceptReport_conflict call hi same.symm differs
  refine ⟨⟨e, refused⟩, ?_⟩
  simp only [step, refused]

def reportingAgent : AgentRow :=
  ⟨"a1", false, false, true, "general", "linux", "amd64", true, "", "", none, 0, "", 0, "c1", 0, 0⟩

def firstReport (live : Bool) : AgentReport :=
  { agentFlavor := "general", schemaVersion := schemaVersion, agentId := "a1", sessionId := "s1"
    sequence := 1, observedAt := 0, reportedAt := 0, configRevision := 0, configHash := ""
    endpointGeneration := 0, workerDigest := "", managedReady := true, immutableRelease := true
    host := some ⟨"linux", "amd64", ""⟩, checks := [], discovery := none, spark := none
    jobReceipts := [], isLive := live, rest := "" }

def callAt (now : Time) : Call := ⟨now, now, now, true, true, true, true, true, none⟩

def resent : List Event :=
  [.other ⟨[reportingAgent], by simp⟩ .empty .empty, .accept (firstReport true) (callAt 0),
    .accept (firstReport false) (callAt second), .retain (100 * hour) 8,
    .accept (firstReport false) (callAt (100 * hour))]

theorem reports_ingested_once_resent :
    let m := run (step ⟨AgentReport.rest, id⟩) (initial 0) resent
    m.accepted = [(firstReport false).observation] ∧ m.store.ingests.rows = [] ∧
      brought m.hosts (firstReport false).observation ≤ 1 := by
  refine ⟨by decide, by decide, ?_⟩
  have timely : Meets (step ⟨AgentReport.rest, id⟩) Timely (initial 0) resent := by
    refine ⟨trivial, ?_, ?_, ?_, ?_, trivial⟩ <;> unfold Timely <;> decide
  exact ((reports_ingested_once ⟨AgentReport.rest, id⟩ Function.injective_id 0 resent timely).2.1 _).1

end Monik.IngestionSafety
