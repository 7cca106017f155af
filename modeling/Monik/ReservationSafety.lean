import Monik.JobPermanence
import Monik.SparkReservation

/-! Reservations of a Spark profile exclude each other, over submissions, start stages, reports,
receipts, claims, cancellation, expiry and rollout ticks in any order. An unresolved start may be
accompanied by one stop; any other pair is refused, or the stop closes the restart in its
transaction. -/

namespace Monik.ReservationSafety
open Protocol Tables ControllerStore Operations JobEvolution JobSteps RolloutSteps Submission
open StoreWrites SubmissionSteps ServerSteps ControllerRule JobPermanence Runs SparkReservation

variable {i i' : IntentRow} {agent profile stop : String} {action : Action} {op : NewOperation}
    {intents : Table IntentRow IntentRow.operationId} {json : StageJson} {view : SparkView} {parents : List String}
    {m : ModelIntent} {x : TargetResult × String} {e : DispatchSafety.Event}

inductive Event
  | spark (sub : SparkSubmission)
  | authorize (call : StageCall)
  | report (rep : AgentReport) (call : Ingestion.Call)
  | control (e : DispatchSafety.Event)

/-- Model actions are only submitted with an intent, and only the two transactions above write
`spark_intents`. -/
def step (c : Ingestion.Codec) (json : StageJson) (s : Store) : Event → Store
  | .spark sub => submitSpark json s sub
  | .authorize call =>
    match authorizeSparkStartStage json s call with
    | .ok (u, _) => u
    | .error _ => s
  | .report rep call =>
    match Ingestion.acceptReport c s rep call with
    | .ok (u, _) => u
    | .error _ => s
  | .control (.submitModel _ _) => s
  | .control (.world w) => { w with intents := s.intents }.apply s
  | .control e => DispatchSafety.step s e

variable {own : String → Prop} {p : Permits} {s s' u : Store} {key : String × String} {a b : Statuses}

theorem unresolved_iff {t : TargetRow} :
    unresolved t ↔ t.status.terminal = false ∧ t.status ≠ .waitingOffline := by
  cases h : t.status <;> simp [unresolved, h, TargetStatus.terminal]

structure Tame (a : Statuses) : Prop where
  inStep : InStep a
  online : a.1 ≠ .waitingOffline
  prepared : a.2 ≠ .preparing
  unheld : a.2 ≠ .rolloutHeld

theorem Tame.settled {status : TargetStatus} (online : status ≠ .waitingOffline) : Tame (status, .of status) :=
  ⟨.settled status, online, by simp, by simp⟩

theorem tame_move (m : Move p key a b) (foreign : ¬p.own key) (ha : Tame a) :
    Tame b ∧ (a.1.terminal → b.1.terminal) := by
  have inStep := m.inStep ha.inStep
  cases m with
  | settle status unsettled _ prepared =>
    refine ⟨.settled fun waits => ha.prepared (prepared waits), fun final => ?_⟩
    have closed := ha.inStep.closed final
    rw [unsettled] at closed
    cases closed
  | withdraw _ _ => exact ⟨⟨inStep, ha.online, by simp, by simp⟩, id⟩
  | hold => exact absurd rfl ha.prepared
  | claim _ _ => exact ⟨⟨inStep, ha.online, by simp, by simp⟩, id⟩
  | release _ _ => exact absurd rfl ha.unheld
  | note permitted _ _ => exact absurd permitted foreign
  | mark permitted _ _ => exact absurd permitted foreign
  | close permitted _ => exact absurd permitted foreign

def Keeps (own : String → Prop) (key : String × String) (a b : Statuses) : Prop :=
  own key.1 ∨ (Tame a → Tame b ∧ (a.1.terminal → b.1.terminal))

theorem Keeps.path (h : Relation.ReflTransGen (Keeps own key) a b) (foreign : ¬own key.1)
    (ha : Tame a) : Tame b ∧ (a.1.terminal → b.1.terminal) := by
  induction h with
  | refl => exact ⟨ha, id⟩
  | tail _ last ih =>
    obtain mine | kept := last
    · exact absurd mine foreign
    · exact ⟨(kept ih.1).1, (kept ih.1).2 ∘ ih.2⟩

theorem keeps_of_tentative (mine : p.own key → own key.1) (m : Tentative p key a b) : Keeps own key a b := by
  by_cases permitted : p.own key
  · exact .inl (mine permitted)
  · exact .inr fun ha => tame_move (m ha.inStep) permitted ha

theorem keeps_of_move (mine : p.own key → own key.1) (m : Move p key a b) : Keeps own key a b :=
  keeps_of_tentative mine fun _ => m

def others : Permits := ⟨fun _ => True, fun _ => True, fun _ => False⟩

theorem keeps_of_steps (h : Steps others s s') : Evolves (Keeps own) s s' :=
  h.mono fun _ _ _ => keeps_of_move False.elim

theorem cancelPending_keeps {op : String} (hl : Linked s) (h : cancelPending s op = .ok s') :
    Evolves (Keeps own) s s' :=
  (cancelPending_evolves (p := others) hl h).mono fun _ _ _ => keeps_of_tentative False.elim

structure Sound (s : Store) : Prop where
  linked : Linked s
  tame : ∀ t j, Paired s t j → j.action.isModel → Tame (t.status, j.status)
  job : ∀ i ∈ s.intents, ∃ j ∈ s.jobs, j.key = (i.operationId, i.agentId) ∧ j.action.isModel
  intent : ∀ o ∈ s.operations, o.action.isModel → ∀ t ∈ s.targets, t.operationId = o.id →
    ∃ i ∈ s.intents, t.key = (i.operationId, i.agentId)

structure Rewritten (own : String → Prop) (s s' : Store) : Prop where
  evolves : Evolves (Keeps own) s s'
  intents : ∃ f : IntentRow → IntentRow, s'.intents.rows = s.intents.rows.map f ∧
    ∀ i, (f i).operationId = i.operationId ∧ (f i).agentId = i.agentId ∧ (f i).profileId = i.profileId

theorem Rewritten.of_same (evolves : Evolves (Keeps own) s s') (intents : s'.intents = s.intents) :
    Rewritten own s s' :=
  ⟨evolves, id, by rw [intents, List.map_id], fun _ => ⟨rfl, rfl, rfl⟩⟩

theorem Rewritten.refl (s : Store) : Rewritten own s s := .of_same (Evolves.refl s) rfl

theorem Rewritten.of_intent (h : Rewritten own s s') (hi : i ∈ s.intents) :
    ∃ i' ∈ s'.intents, i'.operationId = i.operationId ∧ i'.agentId = i.agentId := by
  obtain ⟨f, rows, keep⟩ := h.intents
  refine ⟨f i, ?_, (keep i).1, (keep i).2.1⟩
  rw [← Table.mem_rows, rows]
  exact List.mem_map_of_mem hi

theorem Rewritten.intent (h : Rewritten own s s') (hi' : i' ∈ s'.intents) :
    ∃ i ∈ s.intents, i'.operationId = i.operationId ∧ i'.agentId = i.agentId ∧ i'.profileId = i.profileId := by
  obtain ⟨f, rows, keep⟩ := h.intents
  rw [← Table.mem_rows, rows] at hi'
  obtain ⟨i, hi, rfl⟩ := List.mem_map.mp hi'
  exact ⟨i, hi, keep i⟩

def Foreign (own : String → Prop) (s : Store) : Prop :=
  ∀ j ∈ s.jobs, j.action.isModel → ¬own j.operationId

theorem Sound.rewritten (h : Sound s) (r : Rewritten own s s') (foreign : Foreign own s) : Sound s' := by
  have linked := r.evolves.linked h.linked
  obtain ⟨e⟩ := r.evolves
  refine ⟨linked, fun t' j' hp' model => ?_, fun i' hi' => ?_, fun o' ho' model t' ht' same => ?_⟩
  · obtain ⟨t, j, hp, rfl, rfl⟩ := e.of_paired hp'
    rw [(e.job_keeps j).2.2] at model
    exact (Keeps.path (e.moves t j hp) (foreign j hp.2.1 model) (h.tame t j hp model)).1
  · obtain ⟨i, hi, op, agent, -⟩ := r.intent hi'
    obtain ⟨j, hj, key, model⟩ := h.job i hi
    refine ⟨e.job j, e.mem_jobs.mpr ⟨j, hj, rfl⟩, ?_, ?_⟩
    · rw [(e.job_keeps j).1, key, op, agent]
    · rw [(e.job_keeps j).2.2]
      exact model
  · obtain ⟨o, ho, rfl⟩ := e.mem_operations.mp ho'
    obtain ⟨t, ht, rfl⟩ := e.mem_targets.mp ht'
    rw [(e.operation_keeps o).2] at model
    rw [(e.operation_keeps o).1, e.target_operationId] at same
    obtain ⟨i, hi, key⟩ := h.intent o ho model t ht same
    obtain ⟨i', hi', op, agent⟩ := r.of_intent hi
    exact ⟨i', hi', by rw [(e.target_keeps t).1, key, op, agent]⟩

theorem mem_pending : (i, action) ∈ pending s agent profile ↔ i ∈ s.intents ∧ i.agentId = agent ∧
      i.profileId = profile ∧ (∃ o ∈ s.operations, o.id = i.operationId ∧ o.action = action) ∧
      ∃ t ∈ s.targets, t.key = (i.operationId, i.agentId) ∧ unresolved t := by
  simp only [pending, List.mem_filterMap, Store.operation]
  constructor
  · rintro ⟨i', hi', found⟩
    split at found
    · rename_i same
      simp only [Bool.and_eq_true, beq_iff_eq] at same
      split at found
      · rename_i o t ho ht
        split at found
        · rename_i openTarget
          cases found
          obtain ⟨ho, hid⟩ := Table.find?_some ho
          obtain ⟨ht, hk⟩ := Table.find?_some ht
          exact ⟨hi', same.1, same.2, ⟨o, ho, beq_iff_eq.mp hid, rfl⟩, t, ht, hasKey_iff.mp hk,
            openTarget⟩
        · cases found
      · cases found
    · cases found
  · rintro ⟨hi, rfl, rfl, ⟨o, ho, hid, rfl⟩, t, ht, hk, openTarget⟩
    refine ⟨i, hi, ?_⟩
    have row : s.operations.find? (fun o => o.id == i.operationId) = some o :=
      Table.find?_key.mpr ⟨ho, hid⟩
    have target : s.targets.find? (hasKey i.operationId i.agentId) = some t :=
      Table.find?_eq_some ht (hasKey_iff.mpr hk) fun t' h => (hasKey_iff.mp h).trans hk.symm
    simp [row, target, openTarget]

theorem Sound.pending_of_rewritten (h : Sound s) (r : Rewritten own s s') (foreign : Foreign own s)
    (hp : (i', action) ∈ pending s' agent profile) :
    ∃ i, (i, action) ∈ pending s agent profile ∧ i.operationId = i'.operationId := by
  obtain ⟨hi', rfl, rfl, ⟨o', ho', hid, rfl⟩, t', ht', hk, openTarget⟩ := mem_pending.mp hp
  obtain ⟨i, hi, op, agent, profile⟩ := r.intent hi'
  obtain ⟨e⟩ := r.evolves
  obtain ⟨o, ho, rfl⟩ := e.mem_operations.mp ho'
  obtain ⟨t, ht, rfl⟩ := e.mem_targets.mp ht'
  obtain ⟨j, hj, jk, model⟩ := h.job i hi
  have tk : t.key = (i.operationId, i.agentId) := by rw [← (e.target_keeps t).1, hk, op, agent]
  have paired : Paired s t j := ⟨ht, hj, tk.trans jk.symm⟩
  have tame := h.tame t j paired model
  have kept := (Keeps.path (e.moves t j paired) (foreign j hj model) tame).2
  refine ⟨i, mem_pending.mpr ⟨hi, agent.symm, profile.symm, ⟨o, ho, ?_, ?_⟩, t, ht, tk, ?_⟩, op.symm⟩
  · rw [← (e.operation_keeps o).1, hid, op]
  · exact (e.operation_keeps o).2.symm
  · refine unresolved_iff.mpr ⟨Bool.eq_false_iff.mpr fun final => ?_, tame.online⟩
    have closed := kept final
    rw [(unresolved_iff.mp openTarget).1] at closed
    cases closed

/-! Insertion of an operation. -/

theorem model_plain (h : action.isModel) : action.isUpdate = false := by
  cases action <;> first | rfl | cases h

theorem Sound.inserted (h : Sound s) (hi : Inserted op s u) (old : ∀ i ∈ s.intents, i ∈ intents)
    (new : ∀ i ∈ intents, i ∈ s.intents ∨ op.action.isModel ∧
    ∃ x ∈ op.targets, needsJob op x.1 ∧ i.operationId = op.id ∧ i.agentId = x.1.agentId)
    (queued : op.action.isModel → ∀ x ∈ op.targets, x.1.status = .queued ∧
    ∃ i ∈ intents, i.operationId = op.id ∧ i.agentId = x.1.agentId) : Sound { u with intents } := by
  have linked := hi.linked h.linked
  obtain ⟨row, hrow, hid, hact⟩ := hi.row
  refine ⟨⟨linked.target, linked.operation, linked.action, linked.scope⟩, fun t j hp model => ?_,
    fun i hm => ?_, fun o ho model t ht same => ?_⟩
  · obtain before | ⟨x, hx, -, rfl, rfl⟩ := hi.paired h.linked hp
    · exact h.tame t j before model
    · have status := (queued model x hx).1
      have plain := model_plain model
      change Tame (x.1.status, newJobStatus op.action x.1.status)
      rw [newJobStatus, status, show op.action.isUpdate = false from plain]
      exact .settled (by simp)
  · obtain before | ⟨model, x, hx, needs, same⟩ := new i hm
    · obtain ⟨j, hj, rest⟩ := h.job i before
      exact ⟨j, hi.grown.old_jobs j hj, rest⟩
    · refine ⟨_, hi.new_job x hx needs, ?_, model⟩
      rw [same.1, same.2]
      rfl
  · obtain before | ⟨x, hx, rfl⟩ := hi.grown.new_targets t ht
    · obtain ⟨o₀, ho₀, hid₀⟩ := h.linked.operation t before
      have eq : o₀ = o := u.operations.eq_of_key (hi.old_operations o₀ ho₀) ho (hid₀.trans same)
      obtain ⟨i, hm, key⟩ := h.intent o (eq ▸ ho₀) model t before same
      exact ⟨i, old i hm, key⟩
    · have eq : row = o := u.operations.eq_of_key hrow ho (hid.trans same)
      rw [← eq, hact] at model
      obtain ⟨i, hm, op, agent⟩ := (queued model x hx).2
      exact ⟨i, hm, by rw [op, agent]; rfl⟩

theorem Sound.pending_of_inserted (h : Sound s) (hi : Inserted op s u) (before : i ∈ s.intents)
    (hp : (i, action) ∈ pending { u with intents } agent profile) : (i, action) ∈ pending s agent profile := by
  obtain ⟨-, hagent, hprofile, ⟨o, ho, hid, hact⟩, t, ht, hk, openTarget⟩ := mem_pending.mp hp
  obtain ⟨j, hj, jk, -⟩ := h.job i before
  obtain ⟨t₀, ht₀, hk₀, -⟩ := h.linked.target j hj
  obtain ⟨o₀, ho₀, hid₀, -⟩ := h.linked.action j hj
  have target : t₀ = t :=
    u.targets.eq_of_key (hi.grown.old_targets t₀ ht₀) ht (hk₀.trans (jk.trans hk.symm))
  have opId : j.operationId = i.operationId := congrArg Prod.fst jk
  have row : o₀ = o :=
    u.operations.eq_of_key (hi.old_operations o₀ ho₀) ho (by rw [hid₀, opId, hid])
  exact mem_pending.mpr ⟨before, hagent, hprofile, ⟨o, row ▸ ho₀, hid, hact⟩, t, target ▸ ht₀, hk,
    openTarget⟩

theorem closeTargets_keeps (e : ServerError) (s : Store) : Evolves (Keeps (· = op.id)) s (closeTargets s op e) := by
  refine foldl_related Evolves.refl Evolves.trans (fun u t => ?_) _ s
  have mine : ∀ (agent : String) (a b : Statuses),
      Relation.ReflTransGen (Keeps (· = op.id) (op.id, agent)) a b := fun _ _ _ => .single (.inl rfl)
  unfold closeTarget
  split
  · exact Evolves.refl u
  · split
    · exact commit_evolves fun _ h => updateTargetAndRefresh_evolves h fun _ _ _ _ => mine _ _ _
    · split_ifs
      · exact commit_evolves fun _ h => markTargetAndJob_evolves h fun _ _ _ _ => mine _ _ _
      · exact commit_evolves fun _ h => updateTargetAndRefresh_evolves h fun _ _ _ _ => mine _ _ _

theorem executeServerSide_keeps (req : Request) (hl : Linked s) (row : HasRow s op) (hw : Waiting op) :
    Evolves (Keeps (· = op.id)) s (executeServerSide s op req).1 :=
  executeServerSide_evolves req (fun _ _ _ => keeps_of_move id) (fun _ _ => cancelPending_keeps hl)
    hl row hw

def Apart (s : Store) : Prop :=
  ∀ agent profile, ∀ x ∈ pending s agent profile, ∀ y ∈ pending s agent profile,
    x.1.operationId ≠ y.1.operationId →
      x.2 = .modelStart ∧ y.2 = .modelStop ∨ x.2 = .modelStop ∧ y.2 = .modelStart

structure Exclusive (s : Store) : Prop where
  sound : Sound s
  apart : Apart s

theorem Exclusive.empty : Exclusive Store.empty := by
  refine ⟨⟨Linked.empty, fun t _ hp => ?_, fun i hi => ?_, fun o ho => ?_⟩, fun _ _ x hx => ?_⟩
  · exact absurd hp.1 (Table.not_mem_empty t)
  · exact absurd hi (Table.not_mem_empty i)
  · exact absurd ho (Table.not_mem_empty o)
  · exact absurd (mem_pending.mp hx).1 (Table.not_mem_empty x.1)

theorem Exclusive.rewritten (h : Exclusive s) (r : Rewritten own s s') (foreign : Foreign own s) : Exclusive s' := by
  refine ⟨h.sound.rewritten r foreign, fun agent profile x hx y hy other => ?_⟩
  obtain ⟨i, hi, opx⟩ := h.sound.pending_of_rewritten r foreign hx
  obtain ⟨k, hk, opy⟩ := h.sound.pending_of_rewritten r foreign hy
  exact h.apart agent profile (i, x.2) hi (k, y.2) hk (by rw [opx, opy]; exact other)

theorem foreign_none (s : Store) : Foreign (fun _ => False) s := fun _ _ _ h => h

theorem Exclusive.plain (h : Exclusive s) (hi : Inserted op s u) (plain : op.action.isModel = false) : Exclusive u := by
  have same : u = { u with intents := s.intents } := by rw [← hi.intents]
  have sound : Sound { u with intents := s.intents } :=
    h.sound.inserted hi (fun _ h => h) (fun _ h => .inl h) fun model => by rw [plain] at model; cases model
  rw [same]
  refine ⟨sound, fun agent profile x hx y hy other => h.apart agent profile x ?_ y ?_ other⟩
  · exact h.sound.pending_of_inserted hi (mem_pending.mp hx).1 hx
  · exact h.sound.pending_of_inserted hi (mem_pending.mp hy).1 hy

theorem foreign_own (hl : Linked s) (row : HasRow s op) (plain : op.action.isModel = false) :
    Foreign (· = op.id) s := by
  intro j hj model same
  obtain ⟨o, ho, hid, hact⟩ := hl.action j hj
  obtain ⟨o', ho', hid', hact'⟩ := row
  have eq : o = o' := s.operations.eq_of_key ho ho' (by rw [hid, hid', same])
  rw [← hact, eq, hact', plain] at model
  cases model

theorem Exclusive.submit (h : Exclusive s) (req : Request) : Exclusive (processSubmit s req) := by
  obtain same | ⟨plain, u, hu, rest⟩ := processSubmit_cases s req
  · rwa [same]
  obtain kept | ⟨u', hu', kept⟩ := jobs_rule.processSubmit s req
  · rwa [kept]
  obtain rfl : u = u' := by rw [hu] at hu'; cases hu'; rfl
  obtain ⟨v, hi, ⟨-, rfl⟩ | ⟨m, hm, -⟩⟩ := insertOperation_ok hu
  · have inserted := h.plain hi plain
    have effect := executeServerSide_keeps req inserted.sound.linked hi.row (newOperation_waiting s req)
    refine inserted.rewritten (.of_same ?_ kept.intents)
      (foreign_own inserted.sound.linked hi.row plain)
    obtain done | ⟨e, failed⟩ := rest
    · rwa [done]
    · rw [failed]
      exact effect.trans (closeTargets_keeps e _)
  · cases hm

/-! Insertion of a model action. -/

theorem supersedes_issued (h : supersedes json s view agent profile i = .ok true) :
    i.stageAuthorization ≠ "" := by
  intro unissued
  unfold supersedes at h
  rw [if_pos unissued] at h
  cases h

theorem stopReservation_some {rows : List (IntentRow × Action)}
    (h : stopReservation json s view agent profile rows = .ok (some parents)) :
    ∀ x ∈ rows, x.2 = .modelStart ∨
      x.2 = .modelRestart ∧ x.1.stageAuthorization ≠ "" ∧ x.1.operationId ∈ parents := by
  induction rows generalizing parents with
  | nil => simp
  | cons y rows ih =>
    obtain ⟨i, action⟩ := y
    unfold stopReservation at h
    split_ifs at h with start restart
    · exact List.forall_mem_cons.mpr ⟨.inl start, ih h⟩
    · cases h
    · split at h
      · cases h
      · cases h
      · rename_i allowed
        split at h
        · cases h
        · cases h
        · rename_i rest later
          cases h
          refine List.forall_mem_cons.mpr ⟨.inr ⟨not_not.mp restart, supersedes_issued allowed,
            List.mem_cons_self ..⟩, fun x hx => (ih later x hx).imp_right fun closed => ?_⟩
          exact ⟨closed.1, closed.2.1, List.mem_cons_of_mem _ closed.2.2⟩

theorem modelIntent_ok {sub : SparkSubmission} (h : modelIntent json s sub agent = .ok m) :
    ∀ x ∈ pending s agent m.profileId,
      sub.req.action = .modelStop ∧ (x.2 = .modelStart ∨ x.2 = .modelRestart ∧
        x.1.stageAuthorization ≠ "" ∧ x.1.operationId ∈ m.superseded) := by
  unfold modelIntent at h
  split at h
  · cases h
  split at h
  · cases h
  split at h
  · cases h
  split at h
  · cases h
  · cases h
  · rename_i reserved
    cases h
    unfold sparkProfileReservation at reserved
    split_ifs at reserved with stop idle
    · exact fun x hx => ⟨stop, stopReservation_some reserved x hx⟩
    · intro x hx
      rw [List.isEmpty_iff.mp idle] at hx
      cases hx
    · cases reserved

theorem supersedeSparkRestart_target {parent : String}
    (h : supersedeSparkRestart s agent parent stop = .ok s') {t' : TargetRow} (ht' : t' ∈ s'.targets) :
    ∃ t ∈ s.targets, t'.key = t.key ∧ (t.status = .failed → t'.status = .failed) ∧
      (t.key = (parent, agent) → t'.status = .failed) := by
  unfold supersedeSparkRestart at h
  split at h
  · cases h
  · obtain ⟨u, hu, hr⟩ := bind_ok.mp h
    obtain ⟨operations, rfl, -⟩ := refreshOperation_ok hr
    rw [(updateTarget_ok hu).1] at ht'
    obtain ⟨t, ht, rfl⟩ := (mem_setTargets (f := TargetWrite.apply _) fun _ => rfl).mp ht'
    refine ⟨t, ht, ?_, ?_, fun key => ?_⟩
    · split <;> rfl
    · split
      · exact fun _ => rfl
      · exact id
    · rw [if_pos (hasKey_iff.mpr key)]
      rfl

section

variable (h : parents.foldlM (fun s parent => supersedeSparkRestart s agent parent stop) s = .ok s')
include h

theorem superseded_closed :
    ∀ t' ∈ s'.targets, ∃ t ∈ s.targets, t'.key = t.key ∧ (t.status = .failed → t'.status = .failed) ∧
      ∀ parent ∈ parents, t.key = (parent, agent) → t'.status = .failed := by
  induction parents generalizing s with
  | nil =>
    cases h
    exact fun t' ht' => ⟨t', ht', rfl, id, by simp⟩
  | cons parent parents ih =>
    obtain ⟨u, hu, rest⟩ := bind_ok.mp h
    intro t' ht'
    obtain ⟨v, hv, vk, kept, closed⟩ := ih rest t' ht'
    obtain ⟨t, ht, tk, kept', closed'⟩ := supersedeSparkRestart_target hu hv
    refine ⟨t, ht, vk.trans tk, kept ∘ kept', List.forall_mem_cons.mpr ⟨kept ∘ closed', ?_⟩⟩
    exact fun other hm key => closed other hm (tk.trans key)

theorem supersede_keeps : Evolves (Keeps own) s s' := by
  have closes : ∀ (key : String × String) (a : Statuses),
      Keeps own key a (TargetStatus.failed, JobStatus.of .failed) :=
    fun _ _ => .inr fun _ => ⟨.settled (by simp), fun _ => rfl⟩
  exact foldlM_invariant (Evolves (Keeps own) s) h (Evolves.refl s) fun parent _ u v hv hu =>
    hu.trans (supersedeSparkRestart_evolves hv fun _ _ _ _ => .single (closes _ _))

theorem supersede_intents : s'.intents = s.intents :=
  (jobs_rule.foldlM (fun _ _ _ => jobs_rule.supersede) h).intents

end

theorem Sound.supersedable_of_pending (hi : Inserted op s u) (hp : (i, .modelRestart) ∈ pending s agent profile)
    (issued : i.stageAuthorization ≠ "") : supersedable u agent profile i.operationId := by
  obtain ⟨hi', rfl, rfl, ⟨o, ho, hid, hact⟩, t, ht, hk, openTarget⟩ := mem_pending.mp hp
  have row : (u.operations.count fun o => o.id == i.operationId && o.action == .modelRestart) = 1 :=
    Table.count_eq_one (hi.old_operations o ho) (by simp [hid, hact]) fun o' h => by
      simp only [Bool.and_eq_true, beq_iff_eq] at h
      rw [h.1, hid]
  have target : (u.targets.count fun t => hasKey i.operationId i.agentId t && unresolved t) = 1 :=
    Table.count_eq_one (hi.grown.old_targets t ht)
      (by rw [openTarget, hasKey_iff.mpr hk]; rfl) fun t' h => by
        rw [Bool.and_eq_true] at h
        rw [hasKey_iff.mp h.1, hk]
  have intent : (u.intents.count fun k => k.operationId == i.operationId && k.agentId == i.agentId &&
      k.profileId == i.profileId && k.stageAuthorization != "") = 1 :=
    Table.count_eq_one (by rw [hi.intents]; exact hi') (by simp [issued]) fun k h => by
      simp only [Bool.and_eq_true, beq_iff_eq] at h
      exact h.1.1.1
  simp [supersedable, row, target, intent]

theorem insertIntent_ok (targets : op.targets = [x]) (h : insertIntent u op m = .ok s') :
    ∃ intents, u.intents.insert (newIntent op.id x.1.agentId m) = some intents ∧ (m.superseded.filter fun parent =>
          op.action == .modelStop && supersedable u x.1.agentId m.profileId parent).foldlM
        (fun s parent => supersedeSparkRestart s x.1.agentId parent op.id) { u with intents } = .ok s' := by
  unfold insertIntent at h
  rw [targets] at h
  dsimp only at h
  split at h
  · cases h
  · rename_i intents inserted
    exact ⟨intents, inserted, h⟩

theorem Exclusive.insert (h : Exclusive s) (hi : Inserted op s u) (targets : op.targets = [x])
    (queued : x.1.status = .queued) (model : op.action.isModel)
    (granted : ∀ y ∈ pending s x.1.agentId m.profileId, op.action = .modelStop ∧
    (y.2 = .modelStart ∨ y.2 = .modelRestart ∧ y.1.stageAuthorization ≠ "" ∧ y.1.operationId ∈ m.superseded))
    (hm : insertIntent u op m = .ok s') : Exclusive s' := by
  obtain ⟨intents, added, closing⟩ := insertIntent_ok targets hm
  obtain ⟨-, mem⟩ := Table.insert_some added
  rw [hi.intents] at mem
  have scope : op.action.scope = .agents := by
    cases action : op.action <;> rw [action] at model <;> first | rfl | cases model
  have sound : Sound { u with intents } := by
    refine h.sound.inserted hi (fun i hi => (mem i).mpr (.inl hi)) (fun i hi => ?_) fun _ y hy => ?_
    · refine ((mem i).mp hi).imp_right fun new => ⟨model, x, by simp [targets], ?_, ?_⟩
      · simp [needsJob, scope, queued]
      · rw [new]
        exact ⟨rfl, rfl⟩
    · rw [targets, List.mem_singleton] at hy
      rw [hy]
      exact ⟨queued, _, (mem _).mpr (.inr rfl), rfl, rfl⟩
  have rewritten : Rewritten (fun _ => False) { u with intents } s' :=
    .of_same (supersede_keeps closing) (supersede_intents closing)
  -- an unresolved operation is the new one, or it was unresolved and was not superseded
  have old : ∀ agent profile, ∀ y ∈ pending s' agent profile,
      y.1.operationId = op.id ∧ y.2 = op.action ∧ agent = x.1.agentId ∧ profile = m.profileId ∨
        y ∈ pending s agent profile ∧ (agent = x.1.agentId → profile = m.profileId →
          op.action = .modelStop ∧ y.2 = .modelStart) := by
    intro agent profile y hy
    obtain ⟨i, hp, same⟩ := sound.pending_of_rewritten rewritten (foreign_none _) hy
    obtain ⟨hy', -, -, -, t', ht', key', openTarget⟩ := mem_pending.mp hy
    obtain ⟨hi', rfl, rfl, ⟨o, ho, hid, hact⟩, -⟩ := mem_pending.mp hp
    rw [supersede_intents closing] at hy'
    obtain rfl : i = y.1 := intents.eq_of_key hi' hy' same
    obtain before | new := (mem y.1).mp hi'
    · have oldY := h.sound.pending_of_inserted hi before hp
      refine .inr ⟨oldY, fun agent profile => ?_⟩
      rw [agent, profile] at oldY
      obtain ⟨stop, start | ⟨restart, issued, parent⟩⟩ := granted _ oldY
      · exact ⟨stop, start⟩
      · rw [restart] at oldY
        have closes := Sound.supersedable_of_pending hi oldY issued
        obtain ⟨t, -, sameKey, -, closed⟩ := superseded_closed closing t' ht'
        have failed := closed y.1.operationId (by simp [parent, stop, closes])
          (by rw [← sameKey, key', agent])
        simp [unresolved, failed] at openTarget
    · obtain ⟨row, hrow, rid, ract⟩ := hi.row
      have eq : o = row := u.operations.eq_of_key ho hrow (by rw [hid, new, rid]; rfl)
      refine .inl ⟨by rw [new]; rfl, ?_, by rw [new]; rfl, by rw [new]; rfl⟩
      rw [← hact, eq, ract]
  refine ⟨sound.rewritten rewritten (foreign_none _), fun agent profile y hy z hz other => ?_⟩
  obtain ⟨yop, yact, rfl, rfl⟩ | ⟨oldY, whenY⟩ := old agent profile y hy
  · obtain ⟨zop, -⟩ | ⟨oldZ, whenZ⟩ := old _ _ z hz
    · exact absurd (yop.trans zop.symm) other
    · have both := whenZ rfl rfl
      exact .inr ⟨yact.trans both.1, both.2⟩
  · obtain ⟨zop, zact, rfl, rfl⟩ | ⟨oldZ, whenZ⟩ := old agent profile z hz
    · have both := whenY rfl rfl
      exact .inl ⟨both.2, zact.trans both.1⟩
    · exact h.apart agent profile y oldY z oldZ other

theorem Exclusive.spark (h : Exclusive s) (json : StageJson) (sub : SparkSubmission) :
    Exclusive (submitSpark json s sub) := by
  unfold submitSpark
  split
  · rename_i agent targets
    split
    · exact h
    · split
      · exact h
      · rename_i m intent
        unfold processSparkSubmit
        rw [targets]
        dsimp only
        split
        · exact h
        · rename_i model
          simp only [Bool.or_eq_true, not_or, Bool.not_eq_true', Bool.not_eq_false] at model
          refine commit_invariant Exclusive h fun s' hs' => ?_
          obtain ⟨u, hi, ⟨none, -⟩ | ⟨m', same, hm⟩⟩ := insertOperation_ok hs'
          · cases none
          · cases same
            exact h.insert hi rfl rfl model.1 (modelIntent_ok intent) hm
  · exact h

/-! The other transactions. -/

theorem authorize_rewritten {call : StageCall} {auth : StageAuthorization}
    (h : authorizeSparkStartStage json s call = .ok (s', auth)) : Rewritten (fun _ => False) s s' := by
  obtain ⟨i, -, j, -, -, -, -, -, -, -, ⟨-, rfl, -⟩ | ⟨-, rfl, -⟩⟩ := authorizeSparkStartStage_ok h
  · exact .refl _
  · refine ⟨evolves_of_eq rfl rfl rfl, _, rfl, fun i => ?_⟩
    split <;> exact ⟨rfl, rfl, rfl⟩

theorem report_rewritten {c : Ingestion.Codec} {rep : AgentReport} {call : Ingestion.Call}
    {out : Ingestion.AcceptedReport} (h : Ingestion.acceptReport c s rep call = .ok (s', out)) :
    Rewritten (fun _ => False) s s' := by
  obtain ⟨-, ⟨-, rfl, -⟩ | ⟨-, added⟩⟩ := Ingestion.acceptReport_ok h
  · exact .refl s'
  · obtain ⟨operations, targets, jobs⟩ := added.control
    exact .of_same (evolves_of_eq targets jobs operations) added.intents

theorem control_keeps (hl : Linked s) (h : Rule.rewrites e) :
    Evolves (Keeps own) s (DispatchSafety.step s e) := by
  cases e with
  | submit req => cases h
  | submitModel req model => cases h
  | claim agent limit expireNow tickNow now authority =>
    exact keeps_of_steps (claimPendingJobs_steps (fun _ => trivial) (fun _ => trivial) hl agent limit
      expireNow tickNow now authority)
  | receipt agent r spark =>
    exact commit_evolves fun _ h => keeps_of_steps (applyReceipt_steps hl h)
  | cancel op => exact commit_evolves fun _ h => cancelPending_keeps hl h
  | expire now => exact commit_evolves fun _ h => keeps_of_steps (expireAndBlockJobs_steps hl h)
  | advance expireNow now =>
    exact keeps_of_steps (advanceRollouts_steps (fun _ => trivial) hl expireNow now)
  | reopen => exact reopen_evolves s
  | world w => cases h

theorem Exclusive.control (h : Exclusive s) (rewrites : Rule.rewrites e) : Exclusive (DispatchSafety.step s e) :=
  h.rewritten (.of_same (control_keeps h.sound.linked rewrites) (jobs_rule.step rewrites).intents)
    (foreign_none s)

theorem step_control (c : Ingestion.Codec) (json : StageJson) (h : Rule.rewrites e) :
    step c json s (.control e) = DispatchSafety.step s e := by
  cases e <;> first | rfl | cases h

theorem Exclusive.step (c : Ingestion.Codec) (json : StageJson) (h : Exclusive s) (e : Event) :
    Exclusive (step c json s e) := by
  cases e with
  | spark sub => exact h.spark json sub
  | authorize call =>
    change Exclusive (match authorizeSparkStartStage json s call with
      | .ok (u, _) => u
      | .error _ => s)
    split
    · rename_i ok
      exact h.rewritten (authorize_rewritten ok) (foreign_none s)
    · exact h
  | report rep call =>
    change Exclusive (match Ingestion.acceptReport c s rep call with
      | .ok (u, _) => u
      | .error _ => s)
    split
    · rename_i ok
      exact h.rewritten (report_rewritten ok) (foreign_none s)
    · exact h
  | control e =>
    by_cases rewrites : Rule.rewrites e
    · rw [step_control c json rewrites]
      exact h.control rewrites
    · cases e with
      | submit req => exact h.submit req
      | submitModel req model => exact h
      | world w => exact h.rewritten (.of_same (evolves_of_eq rfl rfl rfl) rfl) (foreign_none s)
      | _ => exact absurd rfl rewrites

theorem run_exclusive (c : Ingestion.Codec) (json : StageJson) (events : List Event) :
    Exclusive (run (step c json) Store.empty events) :=
  run_preserves Exclusive (fun _ e h => h.step c json e) Exclusive.empty events

theorem pending_nodup (s : Store) (agent profile : String) : (pending s agent profile).Nodup := by
  refine List.Nodup.filterMap (fun i k x hi hk => ?_) s.intents.unique.of_map
  have first : x.1 = i := by grind
  have second : x.1 = k := by grind
  exact first.symm.trans second

theorem Exclusive.same_or_apart (h : Exclusive s)
    {x y : IntentRow × Action} (hx : x ∈ pending s agent profile) (hy : y ∈ pending s agent profile) :
    x = y ∨ x.2 = .modelStart ∧ y.2 = .modelStop ∨ x.2 = .modelStop ∧ y.2 = .modelStart := by
  by_cases same : x.1.operationId = y.1.operationId
  · obtain ⟨hi, -, -, ⟨o, ho, hid, hact⟩, -⟩ := mem_pending.mp hx
    obtain ⟨hk, -, -, ⟨o', ho', hid', hact'⟩, -⟩ := mem_pending.mp hy
    have intent : x.1 = y.1 := s.intents.eq_of_key hi hk same
    have row : o = o' := s.operations.eq_of_key ho ho' (by rw [hid, hid', same])
    exact .inl (Prod.ext intent (by rw [← hact, row, hact']))
  · exact .inr (h.apart agent profile x hx y hy same)

/-- For every agent and profile at most one stop, at most one start or restart, never a restart beside a
stop; every unresolved target of a model operation is among them. -/
theorem reservations_exclusive (c : Ingestion.Codec) (json : StageJson) (events : List Event) :
    (∀ agent profile,
      (pending (run (step c json) Store.empty events) agent profile).countP
          (fun x => x.2 == .modelStop) ≤ 1 ∧
        (pending (run (step c json) Store.empty events) agent profile).countP
          (fun x => x.2 == .modelStart || x.2 == .modelRestart) ≤ 1 ∧
        ¬((∃ x ∈ pending (run (step c json) Store.empty events) agent profile, x.2 = .modelRestart) ∧
          ∃ y ∈ pending (run (step c json) Store.empty events) agent profile, y.2 = .modelStop)) ∧
    ∀ o ∈ (run (step c json) Store.empty events).operations, o.action.isModel →
      ∀ t ∈ (run (step c json) Store.empty events).targets, t.operationId = o.id →
        unresolved t → ∃ i, t.key = (i.operationId, i.agentId) ∧
          (i, o.action) ∈ pending (run (step c json) Store.empty events) t.agentId i.profileId := by
  have exclusive := run_exclusive c json events
  refine ⟨fun agent profile => ⟨?_, ?_, ?_⟩, fun o ho model t ht same openTarget => ?_⟩
  · refine countP_le_one (pending_nodup _ agent profile) fun x hx y hy stopX stopY => ?_
    simp only [beq_iff_eq] at stopX stopY
    simpa [stopX, stopY] using exclusive.same_or_apart hx hy
  · refine countP_le_one (pending_nodup _ agent profile) fun x hx y hy startX startY => ?_
    obtain same | ⟨-, stop⟩ | ⟨stop, -⟩ := exclusive.same_or_apart hx hy
    · exact same
    · rw [stop] at startY
      simp at startY
    · rw [stop] at startX
      simp at startX
  · rintro ⟨⟨x, hx, restart⟩, y, hy, stop⟩
    obtain same | ⟨start, -⟩ | ⟨-, start⟩ := exclusive.same_or_apart hx hy
    · rw [same, stop] at restart
      cases restart
    · rw [restart] at start
      cases start
    · rw [stop] at start
      cases start
  · obtain ⟨i, hi, key⟩ := exclusive.sound.intent o ho model t ht same
    have agent : i.agentId = t.agentId := (congrArg Prod.snd key).symm
    have op : o.id = i.operationId := same.symm.trans (congrArg Prod.fst key)
    exact ⟨i, key, mem_pending.mpr ⟨hi, agent, rfl, ⟨o, ho, op, rfl⟩, t, ht, key, openTarget⟩⟩

end Monik.ReservationSafety
