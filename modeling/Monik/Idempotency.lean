import Mathlib.Data.List.Sort
import Monik.StatusAgreement

/-! Idempotency keys: a request is compared with the stored operation of its actor and key by a
digest of action, target mode, sorted targets and parameters, but not of the base revision. -/

namespace Monik.Idempotency
open Protocol Tables ControllerStore Operations Submission StoreWrites ControllerRule Runs
open StatusAgreement

variable {P : Type}

variable {op : NewOperation} {model : Option ModelIntent} {o : OperationRow} {actor key id hash : String}

structure SubmitOperation (P : Type) where
  action : Action
  targetMode : String
  targetIds : List String
  params : P
  baseRevision : Option Int
  clientRequestKey : String

/-- The struct that `RequestHash` digests; the text `action|target_mode` stands for the pair. -/
structure Canonical (P : Type) where
  action : Action × String
  targets : List String
  params : P

structure Format (P : Type) where
  /-- Secret values give way to their digest, names are trimmed, derived fields are added. -/
  rewrite : Action → P → P
  baseRevision : P → Option Int
  fields : P → Fields
  digest : Canonical P → String

variable (f : Format P)

def rewritten (q : SubmitOperation P) : P := f.rewrite q.action q.params

def canonical (q : SubmitOperation P) : Canonical P :=
  ⟨(q.action, q.targetMode), q.targetIds.insertionSort (· ≤ ·), rewritten f q⟩

def requestHash (q : SubmitOperation P) : String := f.digest (canonical f q)

inductive LookupError
  | notFound
  | idempotencyConflict

def keyed (actor key : String) (o : OperationRow) : Bool := o.actor == actor && o.clientRequestKey == key

def lookupIdempotency (s : Store) (actor key hash : String) : Except LookupError OperationRow :=
  match s.operations.find? (keyed actor key) with
  | none => .error .notFound
  | some o => if o.requestHash ≠ hash then .error .idempotencyConflict else .ok o

/-- A submission by a session: whether the checks before the lookup pass, and what is decided after it. -/
structure Submitted (P : Type) where
  actor : String
  request : SubmitOperation P
  admitted : Bool
  work : Request
  model : ModelIntent

def reachesLookup (x : Submitted P) : Bool :=
  x.admitted && !(x.request.action.isModel && x.request.baseRevision.isSome)

def configures : Action → Bool
  | .checkApply | .profileApply | .servicePause | .serviceIgnore => true
  | _ => false

def configChanged (s : Store) (targets : List String) (q : SubmitOperation P) : Bool :=
  match q.baseRevision.or (f.baseRevision (rewritten f q)) with
  | none => false
  | some base => configures q.action && targets.any fun id => (s.agent id).all (·.desiredRevision != base)

inductive Answer
  | refused
  | existing (o : OperationRow)
  | idempotencyConflict
  | configConflict
  | processed (o : Option OperationRow)
  deriving DecidableEq

def request (x : Submitted P) : Request :=
  { x.work with
    action := x.request.action
    actor := x.actor
    clientRequestKey := x.request.clientRequestKey
    requestHash := requestHash f x.request
    params := f.fields (rewritten f x.request)
    targetIds := if x.request.targetMode = "all" then x.work.targetIds else x.request.targetIds }

def process (s : Store) (x : Submitted P) : Store :=
  if x.request.action.isModel then processSparkSubmit s (request f x) x.model else processSubmit s (request f x)

def submit (s : Store) (x : Submitted P) : Store × Answer :=
  if !reachesLookup x then (s, .refused)
  else
    match lookupIdempotency s x.actor x.request.clientRequestKey (requestHash f x.request) with
    | .ok o => (s, .existing o)
    | .error .idempotencyConflict => (s, .idempotencyConflict)
    | .error .notFound =>
      if configChanged f s (expandTargets (request f x).targetIds) x.request then (s, .configConflict)
      else
        let s := process f s x
        (s, .processed (s.operations.find? (keyed x.actor x.request.clientRequestKey)))

inductive Event (P : Type)
  | submit (x : Submitted P)
  | control (e : DispatchSafety.Event)

def step (s : Store) : Event P → Store
  | .submit x => (submit f s x).1
  | .control e => DispatchSafety.step s e

def signature (o : OperationRow) : String × (String × String) × String :=
  (o.id, (o.actor, o.clientRequestKey), o.requestHash)

def signatures (s : Store) : List (String × (String × String) × String) := s.operations.rows.map signature

def Keyed (s : Store) : Prop := ((signatures s).map fun x => x.2.1).Nodup

structure Grows (s s' : Store) : Prop where
  stay : ∀ x ∈ signatures s, x ∈ signatures s'
  keyed : Keyed s → Keyed s'

variable {s s' : Store}

theorem Grows.of_eq (same : signatures s' = signatures s) : Grows s s' :=
  ⟨fun _ hx => by rwa [same], fun h => by rwa [Keyed, same]⟩

theorem Grows.trans {u : Store} (h : Grows s s') (h' : Grows s' u) : Grows s u :=
  ⟨fun x hx => h'.stay x (h.stay x hx), fun hs => h'.keyed (h.keyed hs)⟩

theorem signatures_of_writes (h : Writes Powers.all s s') : signatures s' = signatures s := by
  refine Writes.related (R := fun s s' => signatures s' = signatures s) (fun _ => rfl) (fun first rest => rest.trans first)
    (fun {s _} write => ?_) h
  cases write with
  | operations refreshed =>
    obtain ⟨operations, rfl, rows⟩ := refreshOperation_rows refreshed
    simp only [signatures, rows, List.map_map]
    refine List.map_congr_left fun o _ => ?_
    simp only [Function.comp_apply, restate]
    split <;> rfl
  | _ => rfl

theorem signatures_rule : Rule fun s s' => signatures s' = signatures s :=
  .of_writes (fun _ => rfl) (fun first rest => rest.trans first) signatures_of_writes

theorem grows_rule : Rule Grows := signatures_rule.mono Grows.of_eq Grows.trans

theorem insertOperation_signatures (h : insertOperation s op model = .ok s') :
    (∀ o ∈ s.operations, keyed op.actor op.clientRequestKey o = false) ∧
      signatures s' = signatures s ++ [(op.id, (op.actor, op.clientRequestKey), op.requestHash)] := by
  obtain ⟨free, operations, u, inserted, targets, rest⟩ := SubmissionSteps.insertOperation_inserts h
  have kept := (SubmissionSteps.insertTargets_frame targets).operations
  have added : signatures u = signatures s ++ [(op.id, (op.actor, op.clientRequestKey), op.requestHash)] := by
    simp only [signatures, kept, Table.insert_rows inserted, List.map_append]
    rfl
  refine ⟨fun o ho => ?_, ?_⟩
  · simp only [Table.count, List.countP_eq_zero] at free
    exact Bool.eq_false_iff.mpr (free o ho)
  · obtain ⟨-, rfl⟩ | ⟨m, -, rest⟩ := rest
    · exact added
    · exact (signatures_rule.insertIntent (fun _ _ => rfl) rest).trans added

theorem insertOperation_grows (h : insertOperation s op model = .ok s') : Grows s s' := by
  obtain ⟨free, added⟩ := insertOperation_signatures h
  refine ⟨fun x hx => by simp [added, hx], fun hs => ?_⟩
  rw [Keyed, added, List.map_append, List.nodup_append]
  refine ⟨hs, by simp, fun a ha b hb => ?_⟩
  simp only [signatures, List.map_map, List.mem_map] at ha
  obtain ⟨o, ho, rfl⟩ := ha
  have other := free o ho
  simp only [List.map_cons, List.map_nil, List.mem_singleton] at hb
  rintro rfl
  simp only [Function.comp_apply, signature, Prod.mk.injEq] at hb
  simp [keyed, hb] at other

theorem control_grows (s : Store) (e : DispatchSafety.Event) : Grows s (DispatchSafety.step s e) := by
  have kept := grows_rule.step_inside insertOperation_grows s e
  cases e with
  | world w => exact .of_eq rfl
  | _ => exact kept fun _ => by simp

theorem process_eq (s : Store) (x : Submitted P) : ∃ e, process f s x = DispatchSafety.step s e := by
  unfold process
  split
  · exact ⟨.submitModel (request f x) x.model, rfl⟩
  · exact ⟨.submit (request f x), rfl⟩

theorem process_signatures (s : Store) (x : Submitted P) :
    signatures (process f s x) = signatures s ∨ ∃ id, signatures (process f s x) =
      signatures s ++ [(id, (x.actor, x.request.clientRequestKey), requestHash f x.request)] := by
  unfold process
  split
  · unfold processSparkSubmit
    split
    · split
      · exact .inl rfl
      · refine commit_invariant (fun u => signatures u = signatures s ∨ ∃ id, signatures u = signatures s ++ [(id, _)])
          (.inl rfl) fun u inserted => .inr ⟨_, (insertOperation_signatures inserted).2⟩
    · exact .inl rfl
  · obtain same | ⟨u, inserted, kept⟩ := signatures_rule.processSubmit s (request f x)
    · exact .inl (congrArg signatures same)
    · exact .inr ⟨_, kept.trans (insertOperation_signatures inserted).2⟩

theorem step_grows (s : Store) (e : Event P) : Grows s (step f s e) := by
  cases e with
  | control e => exact control_grows s e
  | submit x =>
    simp only [step, submit]
    split
    · exact .of_eq rfl
    · split
      · exact .of_eq rfl
      · exact .of_eq rfl
      · split
        · exact .of_eq rfl
        · obtain ⟨e, same⟩ := process_eq f s x
          simp only [same]
          exact control_grows s e

theorem run_grows (s : Store) (events : List (Event P)) : Grows s (run (step f) s events) :=
  run_preserves (Grows s) (fun u e h => h.trans (step_grows f u e)) (.of_eq rfl) events

theorem empty_keyed : Keyed Store.empty := List.nodup_nil

theorem Keyed.unique (hs : Keyed s) {p : OperationRow} (ho : o ∈ s.operations) (hp : p ∈ s.operations) (first : keyed actor key o) (second : keyed actor key p) :
    o = p := by
  rw [Keyed, signatures, List.map_map] at hs
  simp only [keyed, Bool.and_eq_true, beq_iff_eq] at first second
  exact List.inj_on_of_nodup_map hs ho hp (by simp [signature, first, second])

theorem find_of_signature (hs : Keyed s) (stored : (id, (actor, key), hash) ∈ signatures s) :
    ∃ o, s.operations.find? (keyed actor key) = some o ∧ signature o = (id, (actor, key), hash) := by
  obtain ⟨o, ho, same⟩ := List.mem_map.mp stored
  have selected : keyed actor key o := by
    simp only [signature, Prod.mk.injEq] at same
    simp [keyed, same]
  cases found : s.operations.find? (keyed actor key) with
  | none => rw [Table.find?_none found ho] at selected; cases selected
  | some p =>
    obtain ⟨hp, other⟩ := Table.find?_some found
    exact ⟨p, rfl, by rw [hs.unique hp ho other selected, same]⟩

theorem count_of_signature (hs : Keyed s) (stored : (id, (actor, key), hash) ∈ signatures s) :
    s.operations.count (keyed actor key) = 1 := by
  obtain ⟨o, found, -⟩ := find_of_signature hs stored
  obtain ⟨ho, selected⟩ := Table.find?_some found
  refine le_antisymm (countP_le_one s.operations.unique.of_map fun a ha b hb => hs.unique ha hb) ?_
  exact List.countP_pos_iff.mpr ⟨o, ho, selected⟩

theorem created_signature {x : Submitted P} (created : (submit f s x).2 = .processed (some o)) :
    (o.id, (x.actor, x.request.clientRequestKey), requestHash f x.request) ∈ signatures (submit f s x).1 := by
  unfold submit at created ⊢
  split at created
  · cases created
  rename_i reaches
  rw [if_neg reaches]
  split at created
  · cases created
  · cases created
  rename_i none
  split at created
  · cases created
  rename_i current
  simp only [if_neg current]
  simp only [Answer.processed.injEq] at created
  obtain ⟨ho, selected⟩ := Table.find?_some created
  have listed : signature o ∈ signatures (process f s x) := List.mem_map.mpr ⟨o, ho, rfl⟩
  have fresh : signature o ∉ signatures s := by
    intro old
    obtain ⟨p, hp, same⟩ := List.mem_map.mp old
    unfold lookupIdempotency at none
    split at none
    · rename_i missing
      have other := Table.find?_none missing hp
      simp only [signature, Prod.mk.injEq] at same
      simp only [keyed, same] at other selected
      rw [selected] at other
      cases other
    · split at none <;> cases none
  obtain same | ⟨id, added⟩ := process_signatures f s x
  · rw [same] at listed
    exact absurd listed fresh
  · rw [added, List.mem_append, List.mem_singleton] at listed
    have own := listed.resolve_left fresh
    rw [added, ← own]
    simp only [signature, Prod.mk.injEq] at own
    simp [signature, own]

theorem submit_answer (hs : Keyed s) {x : Submitted P} (reaches : reachesLookup x)
    (stored : (id, (x.actor, x.request.clientRequestKey), hash) ∈ signatures s) :
    if hash = requestHash f x.request then ∃ o, (submit f s x).2 = .existing o ∧ o.id = id
    else (submit f s x).2 = .idempotencyConflict := by
  obtain ⟨o, found, same⟩ := find_of_signature hs stored
  simp only [signature, Prod.mk.injEq] at same
  simp only [submit, reaches, lookupIdempotency, found, same, Bool.not_true, Bool.false_eq_true, if_false]
  split
  · rename_i equal
    exact ⟨o, by simp [equal], same.1⟩
  · simp

structure Agree (q r : SubmitOperation P) : Prop where
  action : q.action = r.action
  targetMode : q.targetMode = r.targetMode
  targetIds : q.targetIds.Perm r.targetIds
  params : rewritten f q = rewritten f r

structure SameRequest (q r : SubmitOperation P) : Prop extends Agree f q r where
  baseRevision : q.baseRevision = r.baseRevision

theorem canonical_eq_iff {q r : SubmitOperation P} : canonical f q = canonical f r ↔ Agree f q r := by
  simp only [canonical, Canonical.mk.injEq, Prod.mk.injEq]
  constructor
  · rintro ⟨⟨action, mode⟩, targets, params⟩
    refine ⟨action, mode, ?_, params⟩
    have sorted := List.perm_insertionSort (· ≤ ·) r.targetIds
    rw [← targets] at sorted
    exact (List.perm_insertionSort (· ≤ ·) q.targetIds).symm.trans sorted
  · rintro ⟨action, mode, targets, params⟩
    refine ⟨⟨action, mode⟩, ?_, params⟩
    have perm := ((List.perm_insertionSort (· ≤ ·) q.targetIds).trans targets).trans
      (List.perm_insertionSort (· ≤ ·) r.targetIds).symm
    exact perm.eq_of_pairwise' (List.pairwise_insertionSort _ _) (List.pairwise_insertionSort _ _)

/-- The second submission gets the first's operation exactly when the requests are the same. -/
structure Lawful (id : String) (same : Prop) (answer : Answer) : Prop where
  existing : (∃ o, answer = .existing o ∧ o.id = id) ↔ same
  conflict : ¬ same → answer = .idempotencyConflict

theorem lawful_of_agree {q r : SubmitOperation P} {answer : Answer}
    (decided : (Agree f q r ∧ ∃ o, answer = .existing o ∧ o.id = id) ∨ (¬ Agree f q r ∧ answer = .idempotencyConflict)) :
    Lawful id (SameRequest f q r) answer ↔ (Agree f q r → q.baseRevision = r.baseRevision) := by
  constructor
  · intro lawful agree
    obtain ⟨-, answered⟩ | ⟨different, -⟩ := decided
    · exact (lawful.existing.mp answered).baseRevision
    · exact absurd agree different
  · intro base
    obtain ⟨agree, answered⟩ | ⟨different, conflict⟩ := decided
    · have same : SameRequest f q r := ⟨agree, base agree⟩
      exact ⟨⟨fun _ => same, fun _ => answered⟩, fun other => absurd same other⟩
    · refine ⟨⟨?_, fun same => absurd same.toAgree different⟩, fun _ => conflict⟩
      rintro ⟨o, existing, -⟩
      rw [conflict] at existing
      cases existing

/-- A key stands for one request exactly as long as requests that agree otherwise name the same base
revision; it never has a second operation. -/
theorem key_identifies_request_iff (before between : List (Event P)) {first second : Submitted P} {o : OperationRow}
    (created : (submit f (run (step f) Store.empty before) first).2 = .processed (some o))
    (actor : second.actor = first.actor)
    (key : second.request.clientRequestKey = first.request.clientRequestKey) (reaches : reachesLookup second)
    (separated : requestHash f first.request = requestHash f second.request →
      canonical f first.request = canonical f second.request) :
    (Lawful o.id (SameRequest f first.request second.request)
        (submit f (run (step f) Store.empty (before ++ .submit first :: between)) second).2 ↔
      (Agree f first.request second.request → first.request.baseRevision = second.request.baseRevision)) ∧
    ∀ later, (run (step f) Store.empty (before ++ .submit first :: between ++ .submit second :: later)).operations.count
      (keyed first.actor first.request.clientRequestKey) = 1 := by
  have stored := created_signature f created
  have reached (events : List (Event P)) : Keyed (run (step f) Store.empty events) :=
    (run_grows f Store.empty events).keyed empty_keyed
  have kept (events : List (Event P)) : (o.id, (first.actor, first.request.clientRequestKey), requestHash f first.request) ∈
      signatures (run (step f) Store.empty (before ++ .submit first :: events)) := by
    rw [run_append]
    exact (run_grows f _ events).stay _ stored
  refine ⟨lawful_of_agree f ?_, fun later => ?_⟩
  · have found := kept between
    rw [← actor, ← key] at found
    have answer := submit_answer f (reached _) reaches found
    split at answer
    · rename_i equal
      exact .inl ⟨(canonical_eq_iff f).mp (separated equal), answer⟩
    · rename_i different
      refine .inr ⟨fun agree => different ?_, answer⟩
      rw [requestHash, (canonical_eq_iff f).mpr agree, requestHash]
  · rw [List.append_assoc, List.cons_append]
    exact count_of_signature (reached _) (kept _)

def plainFormat : Format Unit := ⟨fun _ p => p, fun _ => none, fun _ => [], fun c => c.action.2⟩

def profileAt (base : Int) : Submitted Unit :=
  ⟨"owner", ⟨.profileApply, "selected", ["a1"], (), some base, "k1"⟩, true,
    DispatchSafety.request .profileApply [], ⟨"", "", "", "", "", false, []⟩⟩

def profileApplied : Store := run (step plainFormat) Store.empty [.control (.world DispatchSafety.oneAgent), .submit (profileAt 0)]

def profileOperation : OperationRow :=
  ⟨"op1", .profileApply, .running, 2, "owner", "k1", "selected", 1, some 86400000000001⟩

theorem repeated_profile_identified :
    Lawful profileOperation.id (SameRequest plainFormat (profileAt 0).request (profileAt 0).request)
      (submit plainFormat profileApplied (profileAt 0)).2 := by
  refine (key_identifies_request_iff plainFormat [.control (.world DispatchSafety.oneAgent)] [] ?_ rfl rfl rfl
    fun _ => rfl).1.mpr fun _ => rfl
  decide +kernel

/-- A profile reviewed at revision 7 is answered with the operation of revision 0, though by itself it is
refused. -/
theorem other_base_answered :
    (submit plainFormat (run (step plainFormat) Store.empty [.control (.world DispatchSafety.oneAgent)]) (profileAt 7)).2 =
      .configConflict ∧
    ¬ Lawful profileOperation.id (SameRequest plainFormat (profileAt 0).request (profileAt 7).request)
      (submit plainFormat profileApplied (profileAt 7)).2 := by
  refine ⟨by decide +kernel, fun lawful => ?_⟩
  have answered : (submit plainFormat profileApplied (profileAt 7)).2 = .existing profileOperation := by
    decide +kernel
  have same := (lawful.existing.mp ⟨_, answered, rfl⟩).baseRevision
  exact absurd same (by decide)

end Monik.Idempotency
