import Monik.RolloutSteps
import Monik.StageAuthority

/-! Attention and acknowledgement of operations (`storage/operation_attention.go`). Transactions end
with a synchronization that writes the reasons down as one text, and a new reason begins a
generation; reading acknowledges the generation. -/

namespace Monik.OperationAttention
open Protocol Tables ControllerStore Runs

variable {s : Store} {id text : String} {dirty : String → Prop}

def targetNeedsAttention : TargetStatus → Bool
  | .waitingOffline | .failed | .rejected | .expired | .unknownResult | .rolledBack | .unsupported =>
    true
  | _ => false

deriving instance Encodable for TargetStatus

structure AttentionReason where
  agent : String
  status : TargetStatus
  stage : String
  code : String
  message : String
  deriving DecidableEq, Encodable

/-- `reasons` is `none` for a slice that was never made. -/
structure AttentionSnapshot where
  reasons : Option (List AttentionReason)
  fallback : String
  deriving DecidableEq, Encodable

def AttentionSnapshot.all (x : AttentionSnapshot) : List AttentionReason := x.reasons.getD []

def AttentionSnapshot.nothing : AttentionSnapshot := ⟨none, ""⟩

/-- The texts that `encoding/json` writes for snapshots: none is empty, and each is read back. -/
structure SnapshotCodec where
  marshal : AttentionSnapshot → String
  unmarshal : String → Option AttentionSnapshot
  roundTrip : ∀ x, unmarshal (marshal x) = some x
  nonempty : ∀ x, marshal x ≠ ""

instance : Inhabited SnapshotCodec :=
  ⟨⟨EncodedText.marshal, EncodedText.unmarshal, EncodedText.unmarshal_marshal, EncodedText.marshal_ne_empty⟩⟩

def fallbackText : OperationStatus → String
  | .attentionRequired => "attention_required"
  | .completedWithErrors => "completed_with_errors"
  | _ => ""

def attentionReason (t : TargetRow) : AttentionReason :=
  ⟨t.agentId, t.status, t.stage, t.errorCode, t.message⟩

def attentionReasons (targets : List TargetRow) : List AttentionReason :=
  (targets.filter fun t => targetNeedsAttention t.status).map attentionReason

variable (c : SnapshotCodec)

def attentionFingerprint (status : OperationStatus) (targets : List TargetRow) : String × Bool :=
  let reasons := (attentionReasons targets).insertionSort fun x y => x.agent ≤ y.agent
  let fallback := if reasons.isEmpty then fallbackText status else ""
  if reasons.isEmpty && fallback == "" then ("", false)
  else (c.marshal ⟨some reasons, fallback⟩, true)

def introducesAttention (previous current : String) : Bool :=
  if current == "" then false
  else
    match c.unmarshal current with
    | none => true
    | some next =>
      if previous == "" then true
      else
        match c.unmarshal previous with
        | none => true
        | some old =>
          if next.fallback != "" && next.fallback != old.fallback then true
          else next.all.any fun reason => !(old.all.contains reason)

def rolloutBlocked (reason : String) : String := "rollout.blocked:" ++ reason

structure AttentionRow where
  operationId : String
  generation : Int
  fingerprint : String
  required : Bool
  acknowledgedGeneration : Int

def AttentionRow.read (r : AttentionRow) : Bool := r.acknowledgedGeneration == r.generation

def AttentionRow.write (introduced : Int) (fingerprint : String) (required : Bool) (r : AttentionRow) :
    AttentionRow :=
  { r with generation := r.generation + introduced, fingerprint, required }

variable {r' : AttentionRow}

theorem mem_write {t : Table AttentionRow AttentionRow.operationId} {p : AttentionRow → Bool}
    {introduced : Int} {fingerprint : String} {required : Bool} :
    r' ∈ t.update p (AttentionRow.write introduced fingerprint required) (fun _ => rfl) ↔
      ∃ r ∈ t, (if p r then r.write introduced fingerprint required else r) = r' :=
  Table.mem_update (f := AttentionRow.write introduced fingerprint required) fun _ => rfl

def AttentionRow.acknowledge (ack : Int) (r : AttentionRow) : AttentionRow :=
  { r with acknowledgedGeneration := ack }

structure AuditRow where
  at_ : Time
  (actor action entity detail : String)

structure Notices where
  store : Store
  attention : Table AttentionRow AttentionRow.operationId
  audit : List AuditRow

def Notices.row (m : Notices) (id : String) : Option AttentionRow :=
  m.attention.find? fun r => r.operationId == id

def targetsWith (s : Store) (id : String) : List TargetRow :=
  s.targets.rows.filter fun t => t.operationId == id

/-- The text of `syncOperationAttentionTx`; a blocked rollout takes the place of the status text. -/
def currentFingerprint (s : Store) (id : String) (status : OperationStatus) (targets : List TargetRow) :
    Except StoreError (String × Bool) :=
  let computed := attentionFingerprint c status targets
  match s.rollout id with
  | none => .ok computed
  | some r =>
    if r.state = .blocked then
      if computed.1 = "" then
        .ok (c.marshal { AttentionSnapshot.nothing with fallback := rolloutBlocked r.reason }, true)
      else
        match c.unmarshal computed.1 with
        | none => .error (.refused "attention snapshot")
        | some snapshot => .ok (c.marshal { snapshot with fallback := rolloutBlocked r.reason }, true)
    else .ok computed

def syncOperationAttention (m : Notices) (id : String) (status : OperationStatus)
    (targets : List TargetRow) : Except StoreError Notices := do
  let (fingerprint, required) ← currentFingerprint c m.store id status targets
  match m.row id with
  | none =>
    match m.attention.insert ⟨id, 1, fingerprint, required, 0⟩ with
    | none => .error (.refused "operation_attention key")
    | some attention => .ok { m with attention }
  | some previous =>
    if fingerprint = previous.fingerprint then .ok m
    else
      let introduced : Int := if introducesAttention c previous.fingerprint fingerprint then 1 else 0
      let attention := m.attention.update (fun r => r.operationId == id)
        (AttentionRow.write introduced fingerprint required) fun _ => rfl
      .ok { m with attention }

def syncOperation (m : Notices) (id : String) : Except StoreError Notices :=
  match m.store.operation id with
  | none => .error .notFound
  | some o => syncOperationAttention c m id o.status (targetsWith m.store id)

def nextBatch (s : Store) (lastId : String) : List OperationRow :=
  ((s.operations.rows.filter fun o => decide (lastId < o.id)).insertionSort fun x y => x.id ≤ y.id).take 500

/-- `initializeOperationAttention`, stopped after at most the given number of rounds; each round
is a transaction. -/
def initializeOperationAttention (m : Notices) (lastId : String) : Nat → Notices
  | 0 => m
  | rounds + 1 =>
    let items := nextBatch m.store lastId
    match items.foldlM (fun m o => syncOperationAttention c m o.id o.status (targetsWith m.store o.id)) m with
    | .error _ => m
    | .ok m =>
      if items.length < 500 then m
      else initializeOperationAttention m ((items.getLast?.map OperationRow.id).getD lastId) rounds

structure OperationReadTarget where
  id : String
  attentionRevision : Int

def validSelection (actor : String) (selection : List OperationReadTarget) : Bool :=
  actor != "" && !selection.isEmpty && decide (selection.length ≤ 100) &&
    (selection.all fun v => v.id != "" && decide (v.id.utf8ByteSize ≤ 128) &&
      decide (1 ≤ v.attentionRevision)) &&
    decide (selection.map OperationReadTarget.id).Nodup

def selectedNotices (m : Notices) (selection : List OperationReadTarget) :
    Except StoreError (List AttentionRow) :=
  selection.mapM fun v =>
    match m.row v.id with
    | none => .error .notFound
    | some r => if r.generation ≠ v.attentionRevision then .error .conflict else .ok r

def markNotice (actor : String) (read : Bool) (now : Time) (m : Notices) (n : AttentionRow) : Notices :=
  if read == n.read then m
  else
    let ack : Int := if read then n.generation else 0
    { m with
      attention := m.attention.update (fun r => r.operationId == n.operationId)
        (AttentionRow.acknowledge ack) fun _ => rfl
      audit := m.audit ++ [⟨now, actor, if read then "operation.read" else "operation.unread",
        n.operationId, "attention_revision=" ++ toString n.generation ++ "; execution unchanged"⟩] }

def markOperationsRead (m : Notices) (actor : String) (read : Bool)
    (selection : List OperationReadTarget) (now : Time) : Except StoreError Notices :=
  if validSelection actor selection then do
    let notices ← selectedNotices m selection
    .ok (notices.foldl (markNotice actor read now) m)
  else .error (.refused "invalid operation query")

def content (text : String) : AttentionSnapshot :=
  if text = "" then .nothing else (c.unmarshal text).getD .nothing

theorem content_marshal (x : AttentionSnapshot) : content c (c.marshal x) = x := by
  simp [content, c.nonempty, c.roundTrip]

structure Within (later earlier : AttentionSnapshot) : Prop where
  reasons : ∀ r ∈ later.all, r ∈ earlier.all
  fallback : later.fallback ≠ "" → later.fallback = earlier.fallback

theorem Within.refl (x : AttentionSnapshot) : Within x x := ⟨fun _ h => h, fun _ => rfl⟩

theorem within_of_not_introduces {previous current : String} (h : introducesAttention c previous current = false) :
    Within (content c current) (content c previous) := by
  unfold introducesAttention at h
  split at h
  · rename_i empty
    rw [beq_iff_eq] at empty
    rw [content, if_pos empty]
    exact ⟨fun _ none' => absurd none' List.not_mem_nil, fun some' => absurd rfl some'⟩
  rename_i written
  split at h
  · cases h
  rename_i next hnext
  split at h
  · cases h
  rename_i known
  split at h
  · cases h
  rename_i old hold
  split at h
  · cases h
  rename_i same
  rw [beq_iff_eq] at written known
  rw [content, content, if_neg written, if_neg known, hnext, hold]
  constructor
  · intro r hr
    by_contra new
    have found : (next.all.any fun reason => !(old.all.contains reason)) :=
      List.any_eq_true.mpr ⟨r, hr, by simpa using new⟩
    rw [h] at found
    cases found
  · intro some'
    by_contra differs
    exact same (by simp [show next.fallback ≠ "" from some', show next.fallback ≠ old.fallback from differs])

def blockReason (s : Store) (id : String) : Option String :=
  match s.rollout id with
  | none => none
  | some r => if r.state = .blocked then some r.reason else none

structure Tells (text : String) (s : Store) (id : String) : Prop where
  reasons : ∀ r, r ∈ (content c text).all ↔ r ∈ attentionReasons (targetsWith s id)
  block : ∀ b, (content c text).fallback = rolloutBlocked b ↔ blockReason s id = some b

theorem rolloutBlocked_injective {a b : String} (h : rolloutBlocked a = rolloutBlocked b) : a = b := by
  simpa [rolloutBlocked] using h

theorem rolloutBlocked_ne_empty (b : String) : rolloutBlocked b ≠ "" := by
  simp [rolloutBlocked]

theorem rolloutBlocked_ne_fallbackText (b : String) (status : OperationStatus) :
    fallbackText status ≠ rolloutBlocked b := by
  intro same
  have heads := congrArg (fun text => text.toList.head?) same
  cases status <;> simp [fallbackText, rolloutBlocked] at heads

theorem attentionFingerprint_cases (status : OperationStatus) (targets : List TargetRow) :
    attentionFingerprint c status targets = ("", false) ∧ attentionReasons targets = [] ∨
      ∃ x, attentionFingerprint c status targets = (c.marshal x, true) ∧
        (∀ r, r ∈ x.all ↔ r ∈ attentionReasons targets) ∧ ∀ b, x.fallback ≠ rolloutBlocked b := by
  unfold attentionFingerprint
  extract_lets reasons fallback
  have same : ∀ r, r ∈ reasons ↔ r ∈ attentionReasons targets := fun r => List.mem_insertionSort _
  have plain : ∀ b, fallback ≠ rolloutBlocked b := by
    intro b
    unfold fallback
    split
    · exact rolloutBlocked_ne_fallbackText b status
    · exact (rolloutBlocked_ne_empty b).symm
  by_cases nothing : (reasons.isEmpty && fallback == "")
  · rw [if_pos nothing]
    rw [Bool.and_eq_true, List.isEmpty_iff] at nothing
    refine .inl ⟨rfl, List.eq_nil_iff_forall_not_mem.mpr fun r hr => ?_⟩
    rw [← same r, nothing.1] at hr
    exact absurd hr List.not_mem_nil
  · rw [if_neg nothing]
    exact .inr ⟨_, rfl, same, plain⟩

theorem attentionFingerprint_tells (status : OperationStatus) (free : ∀ b, blockReason s id ≠ some b) :
    Tells c (attentionFingerprint c status (targetsWith s id)).1 s id := by
  obtain ⟨text, none'⟩ | ⟨x, text, listed, plain⟩ := attentionFingerprint_cases c status (targetsWith s id)
  · rw [text]
    refine ⟨fun r => ?_, fun b => iff_of_false (rolloutBlocked_ne_empty b).symm (free b)⟩
    simp [none', content, AttentionSnapshot.nothing, AttentionSnapshot.all]
  · rw [text]
    constructor <;> rw [content_marshal]
    · exact listed
    · exact fun b => iff_of_false (plain b) (free b)

theorem currentFingerprint_tells (s : Store) (id : String) (status : OperationStatus) :
    ∃ text required, currentFingerprint c s id status (targetsWith s id) = .ok (text, required) ∧
      Tells c text s id := by
  unfold currentFingerprint
  cases rollout : s.rollout id with
  | none =>
    exact ⟨_, _, rfl, attentionFingerprint_tells c status fun b => by simp [blockReason, rollout]⟩
  | some r =>
    dsimp only
    by_cases blocked : r.state = .blocked
    · rw [if_pos blocked]
      have stated : ∀ b, rolloutBlocked r.reason = rolloutBlocked b ↔ blockReason s id = some b := by
        intro b
        simp only [blockReason, rollout, if_pos blocked, Option.some.injEq]
        exact ⟨rolloutBlocked_injective, congrArg rolloutBlocked⟩
      obtain ⟨text, none'⟩ | ⟨x, text, listed, -⟩ := attentionFingerprint_cases c status (targetsWith s id)
      · rw [text, if_pos rfl]
        refine ⟨_, _, rfl, ?_, ?_⟩ <;> rw [content_marshal]
        · rw [none']
          exact fun _ => Iff.rfl
        · exact stated
      · rw [text, if_neg (c.nonempty x)]
        rw [c.roundTrip]
        refine ⟨_, _, rfl, ?_, ?_⟩ <;> rw [content_marshal]
        · exact listed
        · exact stated
    · rw [if_neg blocked]
      exact ⟨_, _, rfl, attentionFingerprint_tells c status fun b => by
        simp [blockReason, rollout, blocked]⟩

structure RowStep (r r' : AttentionRow) : Prop where
  operationId : r'.operationId = r.operationId
  generation : r.generation ≤ r'.generation
  within : r'.generation = r.generation → Within (content c r'.fingerprint) (content c r.fingerprint)

theorem RowStep.refl (r : AttentionRow) : RowStep c r r := ⟨rfl, le_rfl, fun _ => .refl _⟩

variable {r : AttentionRow}

structure Stepped (m m' : Notices) : Prop where
  old : ∀ r ∈ m.attention, ∃ r' ∈ m'.attention, RowStep c r r'
  origin : ∀ r' ∈ m'.attention,
    (∃ r ∈ m.attention, RowStep c r r' ∧ r'.acknowledgedGeneration = r.acknowledgedGeneration) ∨
      1 ≤ r'.generation ∧ r'.acknowledgedGeneration = 0

theorem Stepped.refl (m : Notices) : Stepped c m m :=
  ⟨fun r hr => ⟨r, hr, .refl c r⟩, fun r hr => .inl ⟨r, hr, .refl c r, rfl⟩⟩

/-- What a synchronization of `id` did: it counted the operation's new reasons and wrote them down. -/
structure Synced (id : String) (m m' : Notices) : Prop where
  store : m'.store = m.store
  stepped : Stepped c m m'
  others : ∀ r' ∈ m'.attention, r'.operationId ≠ id → r' ∈ m.attention
  told : ∀ r' ∈ m'.attention, r'.operationId = id → Tells c r'.fingerprint m.store id

variable {m : Notices}

theorem row_some (h : m.row id = some r) : r ∈ m.attention ∧ r.operationId = id := by
  obtain ⟨hr, same⟩ := Table.find?_some h
  exact ⟨hr, beq_iff_eq.mp same⟩

theorem row_none (h : m.row id = none) (hr : r ∈ m.attention) : r.operationId ≠ id := by
  have out := Table.find?_none h hr
  simpa using out

variable {m' : Notices}

variable {c} in
theorem syncOperationAttention_ok {status : OperationStatus}
    (h : syncOperationAttention c m id status (targetsWith m.store id) = .ok m') : Synced c id m m' := by
  obtain ⟨text, required, computed, tells⟩ := currentFingerprint_tells c m.store id status
  obtain ⟨⟨text', required'⟩, computed', h⟩ := bind_ok.mp h
  rw [computed] at computed'
  cases computed'
  dsimp only at h
  split at h
  · rename_i absent
    split at h
    · cases h
    · rename_i attention inserted
      cases h
      obtain ⟨-, mem⟩ := Table.insert_some inserted
      refine ⟨rfl, ⟨fun r hr => ⟨r, (mem r).mpr (.inl hr), .refl c r⟩, fun r' hr' => ?_⟩,
        fun r' hr' other => ?_, fun r' hr' mine => ?_⟩
      · obtain old | rfl := (mem r').mp hr'
        · exact .inl ⟨r', old, .refl c r', rfl⟩
        · exact .inr ⟨le_rfl, rfl⟩
      · obtain old | rfl := (mem r').mp hr'
        · exact old
        · exact absurd rfl other
      · obtain old | rfl := (mem r').mp hr'
        · exact absurd mine (row_none absent old)
        · exact tells
  · rename_i previous found
    obtain ⟨present, named⟩ := row_some found
    have only : ∀ r ∈ m.attention, r.operationId = id → r = previous :=
      fun r hr mine => m.attention.eq_of_key hr present (mine.trans named.symm)
    split at h
    · rename_i same
      cases h
      refine ⟨rfl, .refl c m, fun _ hr _ => hr, fun r hr mine => ?_⟩
      rw [only r hr mine, ← same]
      exact tells
    · cases h
      -- The only row that is written is `previous`.
      have written : ∀ r ∈ m.attention, r.operationId = id → RowStep c r (r.write
          (if introducesAttention c previous.fingerprint text then 1 else 0) text required) := by
        intro r hr mine
        rw [only r hr mine]
        constructor
        · rfl
        · dsimp only [AttentionRow.write]
          split <;> omega
        · dsimp only [AttentionRow.write]
          intro unchanged
          refine within_of_not_introduces c (Bool.not_eq_true _ ▸ fun new => ?_)
          rw [if_pos new] at unchanged
          omega
      refine ⟨rfl, ⟨fun r hr => ?_, fun r' hr' => ?_⟩, fun r' hr' other => ?_, fun r' hr' mine => ?_⟩
      · refine ⟨_, mem_write.mpr ⟨r, hr, rfl⟩, ?_⟩
        split
        · rename_i mine
          exact written r hr (beq_iff_eq.mp mine)
        · exact .refl c r
      · obtain ⟨r, hr, rfl⟩ := mem_write.mp hr'
        refine .inl ⟨r, hr, ?_⟩
        split
        · rename_i mine
          exact ⟨written r hr (beq_iff_eq.mp mine), rfl⟩
        · exact ⟨.refl c r, rfl⟩
      · obtain ⟨r, hr, rfl⟩ := mem_write.mp hr'
        split at other
        · rename_i mine
          exact absurd (beq_iff_eq.mp mine) other
        · rename_i mine
          rw [if_neg mine]
          exact hr
      · obtain ⟨r, hr, rfl⟩ := mem_write.mp hr'
        split at mine
        · rename_i selected
          rw [if_pos selected]
          exact tells
        · rename_i unselected
          exact absurd (beq_iff_eq.mpr mine) unselected

theorem Stepped.counted (h : Stepped c m m')
    (counted : ∀ r ∈ m.attention, 1 ≤ r.generation ∧ r.acknowledgedGeneration ≤ r.generation) :
    ∀ r ∈ m'.attention, 1 ≤ r.generation ∧ r.acknowledgedGeneration ≤ r.generation := by
  intro r' hr'
  obtain ⟨r, hr, step, same⟩ | ⟨positive, zero⟩ := h.origin r' hr'
  · have before := counted r hr
    have grows := step.generation
    omega
  · omega

inductive Action
  | write (s : Store)
  | sync (id : String)

structure Entry where
  operationId : String
  acknowledged : Bool
  reasons : List AttentionReason
  block : Option String

def Notices.entry (m : Notices) (acknowledged : Bool) (id : String) : Entry :=
  ⟨id, acknowledged, attentionReasons (targetsWith m.store id), blockReason m.store id⟩

structure History where
  notices : Notices
  log : List Entry

def Action.apply (h : History) : Action → Except StoreError History
  | .write s => .ok { h with notices := { h.notices with store := s } }
  | .sync id => do
    let notices ← syncOperation c h.notices id
    .ok { notices, log := h.log ++ [notices.entry false id] }

def newlyMarked (m : Notices) (read : Bool) (selection : List OperationReadTarget) : List String :=
  (selection.map OperationReadTarget.id).filter fun id => (m.row id).any fun r => r.read != read

inductive Event
  | transaction (actions : List Action)
  | markRead (actor : String) (read : Bool) (selection : List OperationReadTarget) (now : Time)

def step (h : History) : Event → History
  | .transaction actions => commit h (actions.foldlM (Action.apply c) h)
  | .markRead actor read selection now =>
    match markOperationsRead h.notices actor read selection now with
    | .error _ => h
    | .ok notices =>
      { notices
        log := h.log ++ if read then
          (newlyMarked h.notices read selection).map (notices.entry true) else [] }

def start : History := ⟨⟨.empty, .empty, []⟩, []⟩

def SameReasons (s s' : Store) (id : String) : Prop :=
  targetsWith s' id = targetsWith s id ∧ blockReason s' id = blockReason s id

/-- The operations written and not synchronized since, `dirty` before the actions. -/
def dirtyAfter (s : Store) (dirty : String → Prop) : List Action → String → Prop
  | [] => dirty
  | .write s' :: rest => dirtyAfter s' (fun id => dirty id ∨ ¬SameReasons s s' id) rest
  | .sync id :: rest => dirtyAfter s (fun k => dirty k ∧ k ≠ id) rest

def Event.Followed (h : History) : Event → Prop
  | .transaction actions => ∀ id, ¬dirtyAfter h.notices.store (fun _ => False) actions id
  | .markRead _ _ _ _ => True

structure Covers (e : Entry) (x : AttentionSnapshot) : Prop where
  reasons : ∀ r ∈ x.all, r ∈ e.reasons
  block : ∀ b, x.fallback = rolloutBlocked b → e.block = some b

theorem Covers.within {e : Entry} {x y : AttentionSnapshot} (h : Covers e x) (inside : Within y x) : Covers e y := by
  refine ⟨fun r hr => h.reasons r (inside.reasons r hr), fun b blocked => h.block b ?_⟩
  rw [← inside.fallback (blocked ▸ rolloutBlocked_ne_empty b), blocked]

variable {c} in
theorem Tells.covers (h : Tells c text m.store id) (acknowledged : Bool) :
    Covers (m.entry acknowledged id) (content c text) :=
  ⟨fun r hr => (h.reasons r).mp hr, fun b blocked => (h.block b).mp blocked⟩

/-- The record has the last acknowledgement; it and every synchronization since had every reason of the row.
-/
def Acknowledged (r : AttentionRow) (log : List Entry) : Prop :=
  ∃ pre e post, log = pre ++ e :: post ∧ e.operationId = r.operationId ∧ e.acknowledged ∧
    (∀ x ∈ post, x.operationId = r.operationId → x.acknowledged = false) ∧
    ∀ x ∈ e :: post, x.operationId = r.operationId → Covers x (content c r.fingerprint)

variable {c} in
theorem Acknowledged.append {log more : List Entry} (h : Acknowledged c r log)
    (same : r'.operationId = r.operationId) (inside : Within (content c r'.fingerprint) (content c r.fingerprint))
    (plain : ∀ x ∈ more, x.operationId = r'.operationId →
    x.acknowledged = false ∧ Covers x (content c r'.fingerprint)) : Acknowledged c r' (log ++ more) := by
  obtain ⟨pre, e, post, split, mine, acknowledged, last, covers⟩ := h
  refine ⟨pre, e, post ++ more, by simp [split], mine.trans same.symm, acknowledged, fun x hx named => ?_,
    fun x hx named => ?_⟩
  · obtain hx | hx := List.mem_append.mp hx
    · exact last x hx (named.trans same)
    · exact (plain x hx named).1
  · rw [← List.cons_append] at hx
    obtain hx | hx := List.mem_append.mp hx
    · exact (covers x hx (named.trans same)).within inside
    · exact (plain x hx named).2

/-- The rows tell the store outside `dirty`, and what counts as read was acknowledged. -/
structure Accounted (dirty : String → Prop) (h : History) : Prop where
  told : ∀ r ∈ h.notices.attention, ¬dirty r.operationId →
    Tells c r.fingerprint h.notices.store r.operationId
  counted : ∀ r ∈ h.notices.attention, 1 ≤ r.generation ∧ r.acknowledgedGeneration ≤ r.generation
  seen : ∀ r ∈ h.notices.attention, r.read → Acknowledged c r h.log

theorem read_iff : r.read ↔ r.acknowledgedGeneration = r.generation := by
  simp [AttentionRow.read]

variable {c} in
theorem Stepped.read (h : Stepped c m m')
    (counted : ∀ r ∈ m.attention, 1 ≤ r.generation ∧ r.acknowledgedGeneration ≤ r.generation) (hr' : r' ∈ m'.attention) (read : r'.read) :
    ∃ r ∈ m.attention, r.read ∧ RowStep c r r' ∧
      Within (content c r'.fingerprint) (content c r.fingerprint) := by
  rw [read_iff] at read
  obtain ⟨r, hr, step, same⟩ | ⟨positive, zero⟩ := h.origin r' hr'
  · have before := counted r hr
    have grows := step.generation
    have still : r'.generation = r.generation := by omega
    exact ⟨r, hr, read_iff.mpr (by omega), step, step.within still⟩
  · omega

variable {h : History}

variable {c} in
theorem Accounted.sync (ok : Accounted c dirty h) (synced : Synced c id h.notices m) :
    Accounted c (fun k => dirty k ∧ k ≠ id) ⟨m, h.log ++ [m.entry false id]⟩ := by
  have told : ∀ r ∈ m.attention, ¬(dirty r.operationId ∧ r.operationId ≠ id) →
      Tells c r.fingerprint m.store r.operationId := by
    intro r hr clean
    rw [synced.store]
    by_cases mine : r.operationId = id
    · rw [mine]
      exact synced.told r hr mine
    · exact ok.told r (synced.others r hr mine) fun still => clean ⟨still, mine⟩
  refine ⟨told, synced.stepped.counted c ok.counted, fun r' hr' read => ?_⟩
  obtain ⟨r, hr, before, step, inside⟩ := synced.stepped.read ok.counted hr' read
  refine (ok.seen r hr before).append step.operationId inside fun x hx named => ?_
  rw [List.mem_singleton] at hx
  subst hx
  have mine : id = r'.operationId := named
  subst mine
  exact ⟨rfl, (told r' hr' fun both => both.2 rfl).covers false⟩

variable {c} in
theorem Tells.same {s' : Store} (h : Tells c text s id) (same : SameReasons s s' id) : Tells c text s' id :=
  ⟨by rw [same.1]; exact h.reasons, by rw [same.2]; exact h.block⟩

variable {c} in
theorem Accounted.write (ok : Accounted c dirty h) (s : Store) :
    Accounted c (fun id => dirty id ∨ ¬SameReasons h.notices.store s id)
      { h with notices := { h.notices with store := s } } := by
  refine ⟨fun r hr clean => ?_, ok.counted, ok.seen⟩
  rw [not_or, not_not] at clean
  exact (ok.told r hr clean.1).same clean.2

/-- The operations of a transaction keep account; what the rest still owes is in `dirtyAfter`. -/
theorem actions_accounted {actions : List Action} {h' : History}
    (ok : Accounted c dirty h) (done : actions.foldlM (Action.apply c) h = .ok h') :
    Accounted c (dirtyAfter h.notices.store dirty actions) h' := by
  induction actions generalizing dirty h with
  | nil =>
    cases done
    exact ok
  | cons a rest ih =>
    obtain ⟨u, hu, later⟩ := bind_ok.mp done
    cases a with
    | write s =>
      cases hu
      exact ih (ok.write s) later
    | sync id =>
      obtain ⟨m, hm, hu⟩ := bind_ok.mp hu
      cases hu
      unfold syncOperation at hm
      split at hm
      · cases hm
      · have synced := syncOperationAttention_ok hm
        have next := ih (ok.sync synced) later
        rw [synced.store] at next
        exact next

def Grows (m m' : Notices) : Prop :=
  ∀ r ∈ m.attention, ∃ r' ∈ m'.attention, r'.operationId = r.operationId ∧ r.generation ≤ r'.generation

theorem Grows.refl (m : Notices) : Grows m m := fun r hr => ⟨r, hr, rfl, le_rfl⟩

theorem Grows.trans {m'' : Notices} (h : Grows m m') (h' : Grows m' m'') : Grows m m'' := by
  intro r hr
  obtain ⟨r', hr', same, more⟩ := h r hr
  obtain ⟨r'', hr'', same', more'⟩ := h' r' hr'
  exact ⟨r'', hr'', same'.trans same, more.trans more'⟩

theorem actions_grow {actions : List Action} {h' : History} (done : actions.foldlM (Action.apply c) h = .ok h') :
    Grows h.notices h'.notices := by
  refine foldlM_invariant (fun u => Grows h.notices u.notices) done (.refl _) fun a _ u v hv grown => ?_
  cases a with
  | write s =>
    cases hv
    exact grown
  | sync id =>
    obtain ⟨m, hm, hv⟩ := bind_ok.mp hv
    cases hv
    refine grown.trans fun r hr => ?_
    unfold syncOperation at hm
    split at hm
    · cases hm
    · obtain ⟨r', hr', stepped⟩ := (syncOperationAttention_ok hm).stepped.old r hr
      exact ⟨r', hr', stepped.operationId, stepped.generation⟩

def markRow (read : Bool) (r n : AttentionRow) : AttentionRow :=
  if read != n.read && r.operationId == n.operationId then
    r.acknowledge (if read then n.generation else 0)
  else r

theorem markRow_other {read : Bool} {n : AttentionRow} (other : r.operationId ≠ n.operationId) :
    markRow read r n = r := by
  simp [markRow, other]

theorem markRow_operationId (read : Bool) (r n : AttentionRow) : (markRow read r n).operationId = r.operationId := by
  unfold markRow
  split <;> rfl

theorem markNotice_rows (actor : String) (read : Bool) (now : Time) (m : Notices) (n : AttentionRow) :
    (markNotice actor read now m n).store = m.store ∧
      (markNotice actor read now m n).attention.rows = m.attention.rows.map (markRow read · n) := by
  unfold markNotice markRow
  by_cases already : read = n.read
  · simp [already]
  · simp [already, Table.update]

theorem markNotices_rows (actor : String) (read : Bool) (now : Time) (notices : List AttentionRow)
    (m : Notices) : (notices.foldl (markNotice actor read now) m).store = m.store ∧
      (notices.foldl (markNotice actor read now) m).attention.rows =
        m.attention.rows.map (notices.foldl (markRow read)) := by
  induction notices generalizing m with
  | nil => exact ⟨rfl, (List.map_id _).symm⟩
  | cons n notices ih =>
    obtain ⟨store, rows⟩ := ih (markNotice actor read now m n)
    obtain ⟨store', rows'⟩ := markNotice_rows actor read now m n
    refine ⟨store.trans store', rows.trans ?_⟩
    rw [rows', List.map_map]
    rfl

variable {notices : List AttentionRow}

theorem marked_other {read : Bool} (other : ∀ n ∈ notices, n.operationId ≠ r.operationId) :
    notices.foldl (markRow read) r = r := by
  induction notices with
  | nil => rfl
  | cons n notices ih =>
    rw [List.foldl_cons, markRow_other (other n (by simp)).symm]
    exact ih fun k hk => other k (List.mem_cons_of_mem n hk)

theorem marked_own {read : Bool} (distinct : (notices.map AttentionRow.operationId).Nodup) (hr : r ∈ notices) :
    notices.foldl (markRow read) r = markRow read r r := by
  induction notices with
  | nil => exact absurd hr List.not_mem_nil
  | cons n notices ih =>
    rw [List.map_cons, List.nodup_cons] at distinct
    rw [List.foldl_cons]
    obtain rfl | hr := List.mem_cons.mp hr
    · refine marked_other fun k hk named => distinct.1 ?_
      exact List.mem_map.mpr ⟨k, hk, named.trans (markRow_operationId read r r)⟩
    · rw [markRow_other fun same => distinct.1 (List.mem_map.mpr ⟨r, hr, same⟩)]
      exact ih distinct.2 hr

variable {selection : List OperationReadTarget}

theorem selectedNotices_ok (h : selectedNotices m selection = .ok notices) :
    notices.map AttentionRow.operationId = selection.map OperationReadTarget.id ∧ ∀ n ∈ notices, n ∈ m.attention := by
  unfold selectedNotices at h
  induction selection generalizing notices with
  | nil =>
    cases h
    exact ⟨rfl, fun n hn => absurd hn List.not_mem_nil⟩
  | cons v selection ih =>
    rw [List.mapM_cons] at h
    obtain ⟨n, hn, h⟩ := bind_ok.mp h
    obtain ⟨rest, hrest, h⟩ := bind_ok.mp h
    cases h
    split at hn
    · cases hn
    · rename_i r found
      split_ifs at hn
      cases hn
      obtain ⟨present, named⟩ := row_some found
      obtain ⟨ids, members⟩ := ih hrest
      refine ⟨by rw [List.map_cons, List.map_cons, ids, named], fun k hk => ?_⟩
      obtain rfl | hk := List.mem_cons.mp hk
      · exact present
      · exact members k hk

theorem mem_newlyMarked {read : Bool} (hr : r ∈ m.attention) : r.operationId ∈ newlyMarked m read selection ↔
      r.operationId ∈ selection.map OperationReadTarget.id ∧ r.read ≠ read := by
  have found : m.row r.operationId = some r := Table.find?_key.mpr ⟨hr, rfl⟩
  simp [newlyMarked, found]

theorem markOperationsRead_ok {actor : String} {read : Bool} {now : Time}
    (h : markOperationsRead m actor read selection now = .ok m') :
    m'.store = m.store ∧ (selection.map OperationReadTarget.id).Nodup ∧
      ∃ f : AttentionRow → AttentionRow, m'.attention.rows = m.attention.rows.map f ∧
        ∀ r ∈ m.attention, f r = if r.operationId ∈ newlyMarked m read selection then
          r.acknowledge (if read then r.generation else 0) else r := by
  unfold markOperationsRead at h
  split at h
  · rename_i valid
    obtain ⟨notices, selected, h⟩ := bind_ok.mp h
    cases h
    obtain ⟨ids, members⟩ := selectedNotices_ok selected
    simp only [validSelection, Bool.and_eq_true, decide_eq_true_eq] at valid
    have distinct : (notices.map AttentionRow.operationId).Nodup := ids ▸ valid.2
    obtain ⟨store, rows⟩ := markNotices_rows actor read now notices m
    refine ⟨store, valid.2, _, rows, fun r hr => ?_⟩
    by_cases listed : r.operationId ∈ selection.map OperationReadTarget.id
    · obtain ⟨n, hn, named⟩ := List.mem_map.mp (ids ▸ listed)
      obtain rfl := m.attention.eq_of_key (members n hn) hr named
      rw [marked_own distinct hn, markRow]
      by_cases same : n.read = read
      · rw [if_neg fun new => ((mem_newlyMarked hr).mp new).2 same]
        simp [same]
      · rw [if_pos ((mem_newlyMarked hr).mpr ⟨listed, same⟩)]
        simp [Ne.symm same]
    · rw [if_neg fun new => listed ((mem_newlyMarked hr).mp new).1]
      refine marked_other fun n hn named => listed ?_
      rw [← ids, ← named]
      exact List.mem_map_of_mem hn
  · cases h

variable {c} in
theorem Accounted.markRead (ok : Accounted c (fun _ => False) h) (actor : String) (read : Bool)
    (selection : List OperationReadTarget) (now : Time) :
    Accounted c (fun _ => False) (step c h (.markRead actor read selection now)) := by
  dsimp only [step]
  split
  · exact ok
  rename_i m marks
  obtain ⟨store, distinct, f, rows, writes⟩ := markOperationsRead_ok marks
  have origin : ∀ r' ∈ m.attention, ∃ r ∈ h.notices.attention, r' = if r.operationId ∈
      newlyMarked h.notices read selection then r.acknowledge (if read then r.generation else 0) else r := by
    intro r' hr'
    rw [← Table.mem_rows, rows] at hr'
    obtain ⟨r, hr, rfl⟩ := List.mem_map.mp hr'
    exact ⟨r, hr, writes r hr⟩
  have told : ∀ r ∈ h.notices.attention, Tells c r.fingerprint m.store r.operationId :=
    fun r hr => store ▸ ok.told r hr id
  constructor
  · intro r' hr' _
    obtain ⟨r, hr, rfl⟩ := origin r' hr'
    split <;> exact told r hr
  · intro r' hr'
    obtain ⟨r, hr, rfl⟩ := origin r' hr'
    have before := ok.counted r hr
    split
    · dsimp only [AttentionRow.acknowledge]
      split <;> omega
    · exact before
  · intro r' hr' isRead
    obtain ⟨r, hr, rfl⟩ := origin r' hr'
    have before := ok.counted r hr
    split at isRead
    · rename_i marked'
      rw [if_pos marked']
      cases read with
      | false =>
        have zero : (0 : Int) = r.generation := read_iff.mp isRead
        omega
      | true =>
        -- The acknowledgement of this row is one of the new entries, and the only one of its id.
        have once : (newlyMarked h.notices true selection).Nodup := distinct.filter _
        obtain ⟨l, l', split⟩ := List.append_of_mem marked'
        rw [if_pos rfl, split]
        rw [split, List.nodup_append] at once
        have after : r.operationId ∉ l' := (List.nodup_cons.mp once.2.1).1
        refine ⟨h.log ++ l.map (m.entry true), m.entry true r.operationId, l'.map (m.entry true),
          by simp, rfl, rfl, fun x hx named => ?_, fun x hx named => ?_⟩
        · obtain ⟨id, hid, rfl⟩ := List.mem_map.mp hx
          have same : id = r.operationId := named
          exact absurd (same ▸ hid) after
        · obtain rfl | hx := List.mem_cons.mp hx
          · exact (told r hr).covers true
          · obtain ⟨id, hid, rfl⟩ := List.mem_map.mp hx
            have same : id = r.operationId := named
            exact absurd (same ▸ hid) after
    · rename_i kept
      rw [if_neg kept]
      refine (ok.seen r hr isRead).append rfl (.refl _) fun x hx named => ?_
      split at hx
      · obtain ⟨id, hid, rfl⟩ := List.mem_map.mp hx
        have same : id = r.operationId := named
        exact absurd (same ▸ hid) kept
      · exact absurd hx List.not_mem_nil

theorem step_accounted (h : History) (e : Event) (ok : Accounted c (fun _ => False) h)
    (followed : e.Followed h) : Accounted c (fun _ => False) (step c h e) := by
  cases e with
  | transaction actions =>
    refine commit_invariant (Accounted c fun _ => False) ok fun h' done => ?_
    have reached := actions_accounted c ok done
    exact ⟨fun r hr _ => reached.told r hr (followed r.operationId), reached.counted, reached.seen⟩
  | markRead actor read selection now => exact ok.markRead actor read selection now

theorem step_grows (h : History) (e : Event) : Grows h.notices (step c h e).notices := by
  cases e with
  | transaction actions =>
    exact commit_invariant (fun h' : History => Grows h.notices h'.notices) (.refl _) fun _ => actions_grow c
  | markRead actor read selection now =>
    dsimp only [step]
    split
    · exact .refl _
    · rename_i m marks
      obtain ⟨-, -, f, rows, writes⟩ := markOperationsRead_ok marks
      intro r hr
      refine ⟨f r, by rw [← Table.mem_rows, rows]; exact List.mem_map_of_mem hr, ?_⟩
      rw [writes r hr]
      split <;> exact ⟨rfl, le_rfl⟩

theorem run_grows (h : History) (events : List Event) : Grows h.notices (run (step c) h events).notices :=
  run_preserves (fun h' : History => Grows h.notices h'.notices) (fun h' e grown => grown.trans (step_grows c h' e))
    (.refl _) events

theorem syncs_followed (s : Store) (ids : List String) (id : String) :
    ¬dirtyAfter s (fun _ => False) (ids.map Action.sync) id := by
  have clean : ∀ dirty : String → Prop, (∀ k, ¬dirty k) → ¬dirtyAfter s dirty (ids.map Action.sync) id := by
    induction ids with
    | nil => exact fun _ none' => none' id
    | cons _ rest ih => exact fun _ none' => ih _ fun k both => none' k both.1
  exact clean _ fun _ => not_false

theorem syncs_apply {items : List OperationRow} (stored : ∀ o ∈ items, h.notices.store.operation o.id = some o)
    (synced : items.foldlM (fun m o => syncOperationAttention c m o.id o.status
    (targetsWith m.store o.id)) h.notices = .ok m) :
    ∃ h', (items.map fun o => Action.sync o.id).foldlM (Action.apply c) h = .ok h' ∧ h'.notices = m := by
  induction items generalizing h with
  | nil =>
    cases synced
    exact ⟨h, rfl, rfl⟩
  | cons o items ih =>
    rw [List.foldlM_cons] at synced
    obtain ⟨u, first, rest⟩ := bind_ok.mp synced
    have same := (syncOperationAttention_ok first).store
    obtain ⟨h', done, reached⟩ := @ih ⟨u, h.log ++ [u.entry false o.id]⟩
      (fun k hk => same ▸ stored k (List.mem_cons_of_mem o hk)) rest
    refine ⟨h', ?_, reached⟩
    have begun : Action.apply c h (.sync o.id) = .ok ⟨u, h.log ++ [u.entry false o.id]⟩ := by
      rw [Action.apply, syncOperation, stored o (by simp)]
      dsimp only
      rw [first]
      rfl
    rw [List.map_cons, List.foldlM_cons, begun]
    exact done

theorem nextBatch_stored {lastId : String} {o : OperationRow} (ho : o ∈ nextBatch s lastId) :
    s.operation o.id = some o := by
  have listed := List.mem_of_mem_take ho
  rw [List.mem_insertionSort, List.mem_filter] at listed
  exact Table.find?_key.mpr ⟨listed.1, rfl⟩

theorem initializeOperationAttention_run (h : History) (lastId : String) (rounds : Nat) :
    ∃ events, Meets (step c) (fun h e => e.Followed h) h events ∧
      (run (step c) h events).notices = initializeOperationAttention c h.notices lastId rounds := by
  induction rounds generalizing h lastId with
  | zero => exact ⟨[], trivial, rfl⟩
  | succ rounds ih =>
    unfold initializeOperationAttention
    dsimp only
    split
    · exact ⟨[], trivial, rfl⟩
    · rename_i m synced
      obtain ⟨h', done, reached⟩ := syncs_apply c (fun o ho => nextBatch_stored ho) synced
      have round : step c h (.transaction ((nextBatch h.notices.store lastId).map fun o => .sync o.id)) = h' := by
        rw [step, done]
        rfl
      have followed : (Event.transaction
          ((nextBatch h.notices.store lastId).map fun o => .sync o.id)).Followed h := by
        intro id
        have clean := syncs_followed h.notices.store ((nextBatch h.notices.store lastId).map OperationRow.id) id
        rwa [List.map_map] at clean
      split
      · refine ⟨[_], ⟨followed, trivial⟩, ?_⟩
        rw [run_cons, round]
        exact reached
      · obtain ⟨events, later, final⟩ := ih h' _
        refine ⟨_ :: events, ⟨followed, round ▸ later⟩, ?_⟩
        rw [run_cons, round, final, reached]

theorem Accounted.start : Accounted c (fun _ => False) start where
  told := fun r hr => absurd hr (Table.not_mem_empty r)
  counted := fun r hr => absurd hr (Table.not_mem_empty r)
  seen := fun r hr => absurd hr (Table.not_mem_empty r)

/-- Of an operation that counts as read every reason was there at its last acknowledgement and at every
synchronization since; generations never decrease. -/
theorem acknowledgement_hides_no_reason (before after : List Event)
    (followed : Meets (step c) (fun h e => e.Followed h) start (before ++ after)) :
    (∀ r ∈ (run (step c) start before).notices.attention,
      ∃ r' ∈ (run (step c) start (before ++ after)).notices.attention,
        r'.operationId = r.operationId ∧ r.generation ≤ r'.generation) ∧
    (∀ r ∈ (run (step c) start (before ++ after)).notices.attention,
      r.acknowledgedGeneration = r.generation →
      ∃ pre e post, (run (step c) start (before ++ after)).log = pre ++ e :: post ∧
        e.operationId = r.operationId ∧ e.acknowledged ∧
        (∀ x ∈ post, x.operationId = r.operationId → x.acknowledged = false) ∧
        ∀ x ∈ e :: post, x.operationId = r.operationId →
          (∀ reason ∈ attentionReasons
              (targetsWith (run (step c) start (before ++ after)).notices.store r.operationId),
            reason ∈ x.reasons) ∧
          ∀ b, blockReason (run (step c) start (before ++ after)).notices.store r.operationId = some b →
            x.block = some b) ∧
    ∀ m m' actor read selection now, markOperationsRead m actor read selection now = .ok m' →
      m'.store = m.store := by
  have ok := run_invariant (Accounted c fun _ => False) (step_accounted c) (.start c) followed
  refine ⟨?_, fun r hr read => ?_, fun _ _ _ _ _ _ marks => (markOperationsRead_ok marks).1⟩
  · rw [run_append]
    exact run_grows c _ after
  · obtain ⟨pre, e, post, split, mine, acknowledged, last, covers⟩ := ok.seen r hr (read_iff.mpr read)
    have told := ok.told r hr not_false
    refine ⟨pre, e, post, split, mine, acknowledged, last, fun x hx named => ⟨fun reason present => ?_,
      fun b blocked => ?_⟩⟩
    · exact (covers x hx named).reasons reason ((told.reasons reason).mpr present)
    · exact (covers x hx named).block b ((told.block b).mpr blocked)

def oneTarget (status : TargetStatus) (message : String) : Store :=
  { Store.empty with
    operations := ⟨[⟨"op1", .agentCollectNow, .running, 1, "owner", "k1", "h1", 1, none⟩], List.nodup_singleton _⟩
    targets := ⟨[⟨"op1", "a1", status, "collect", message, "", false, [], "j1"⟩], List.nodup_singleton _⟩ }

def readFailure : List Event :=
  [.transaction [.write (oneTarget .failed "host unreadable"), .sync "op1"],
    .markRead "owner" true [⟨"op1", 1⟩] 2]

theorem oneTarget_elsewhere {status : TargetStatus} {message : String} (other : id ≠ "op1") :
    SameReasons Store.empty (oneTarget status message) id := by
  constructor
  · simp [targetsWith, oneTarget, Store.empty, Table.empty, Ne.symm other]
  · rfl

theorem readFailure_followed : Meets (step c) (fun h e => e.Followed h) start (readFailure ++ []) := by
  refine ⟨fun id dirty => ?_, trivial, trivial⟩
  obtain ⟨changed, other⟩ : (False ∨ ¬SameReasons Store.empty _ id) ∧ id ≠ "op1" := dirty
  exact changed.elim not_false.elim fun differs => differs (oneTarget_elsewhere other)

theorem readFailure_read : ∃ r ∈ (run (step c) start (readFailure ++ [])).notices.attention,
    r.acknowledgedGeneration = r.generation := by
  refine ⟨_, List.mem_cons_self .., ?_⟩
  rfl

theorem acknowledgement_hides_no_reason_failure :
    ∃ r ∈ (run (step default) start (readFailure ++ [])).notices.attention,
      r.acknowledgedGeneration = r.generation ∧
      ∃ pre e post, (run (step default) start (readFailure ++ [])).log = pre ++ e :: post ∧
        e.acknowledged ∧
        ∀ reason ∈ attentionReasons
            (targetsWith (run (step default) start (readFailure ++ [])).notices.store r.operationId),
          reason ∈ e.reasons := by
  obtain ⟨r, hr, read⟩ := readFailure_read default
  obtain ⟨pre, e, post, split, mine, acknowledged, -, covers⟩ :=
    (acknowledgement_hides_no_reason default readFailure [] (readFailure_followed default)).2.1 r hr read
  exact ⟨r, hr, read, pre, e, post, split, acknowledged, (covers e (by simp) mine).1⟩

end Monik.OperationAttention
