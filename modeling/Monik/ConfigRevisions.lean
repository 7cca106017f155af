import Monik.Registration
import Monik.Ingestion
import Monik.Submission
import Monik.JobEvolution

/-! The revisions of an agent's configuration. An edit reads the agent's row and publishes later: an
operation for all its agents under a comparison of each revision (`bumpDesired`), a discovered
inventory under a weaker one (`ensureBaselineChecks`, `SetDesired`). A live report acknowledges a
revision (`SetApplied`). -/

namespace Monik.ConfigRevisions
open Protocol Tables ControllerStore Registration

variable {Config : Type}

structure Configs (Config : Type) extends Hashes where
  json : Config → String
  parse : String → Option Config
  valid : Config → Bool
  initial : Config

def Configs.hashConfig (k : Configs Config) (c : Config) : String := k.sha256 (k.json c)

structure Draft where
  agentId : String
  before : Int
  body : String
  hash : String

/-- The reading half of `bumpDesired` and `ensureBaselineChecks`; `edit` changes the stored text and checks
its services. -/
def draft (k : Configs Config) (r : Registry) (id : String) (edit : String → Except String Config) :
    Except String Draft :=
  match r.store.agent id, r.details.find? fun d => d.agentId == id with
  | some a, some d => do
    let cfg ← edit d.desiredConfig
    if k.valid cfg then return ⟨id, a.desiredRevision, k.json cfg, k.hashConfig cfg⟩
    else .error "invalid configuration"
  | _, _ => .error "not found"

/-- The two statements of a publication: the agent's row, if it meets `current`, and the revision. -/
def writeDesired (r : Registry) (id : String) (current : Int → Bool) (revision : Int)
    (hash body : String) : Except StoreError Registry :=
  let named := fun a : AgentRow => a.id == id && current a.desiredRevision
  if r.store.agents.count named ≠ 1 then .error .conflict
  else
    match r.revisions.insert ⟨id, revision, hash, body⟩ with
    | none => .error (.refused "UNIQUE constraint failed: config_revisions.agent_id, config_revisions.revision")
    | some revisions =>
      let agents := r.store.agents.update named (fun a => { a with desiredRevision := revision }) fun _ => rfl
      let details := r.details.update (fun d => d.agentId == id)
        (fun d => { d with desiredHash := hash, desiredConfig := body }) fun _ => rfl
      .ok { r with store := { r.store with agents }, details, revisions }

def setDesired (r : Registry) (id : String) (revision : Int) (hash body : String) :
    Except StoreError Registry :=
  writeDesired r id (· ≤ revision) revision hash body

def ensureBaselineChecks (r : Registry) (d : Draft) : Except StoreError Registry :=
  setDesired r d.agentId (d.before + 1) d.hash d.body

def bumpAgent (opId : String) (r : Registry) (d : Draft) : Except StoreError Registry := do
  let r ← writeDesired r d.agentId (· == d.before) (d.before + 1) d.hash d.body
  let evidence : Fields := [("revision", .int (d.before + 1)), ("hash", .str d.hash)]
  let store := r.store.setTargets (hasKey opId d.agentId) (fun t => { t with
    stage := "desired_committed"
    message := "Desired configuration committed; waiting for agent"
    evidence }) fun _ => rfl
  return { r with store }

def bumpDesired (r : Registry) (opId : String) (changes : List Draft) : Except StoreError Registry := do
  let r ← changes.foldlM (bumpAgent opId) r
  let store ← refreshOperation r.store opId
  return { r with store }

def acceptLive (r : Registry) (rep : AgentReport) (call : Ingestion.Call) : Registry :=
  let known := r.revisions.count fun v =>
    v.agentId == rep.agentId && v.revision == rep.configRevision && v.hash == rep.configHash
  { r with store := Ingestion.touchLive r.store rep { call with revisionKnown := known > 0 } }

def otherRow (f : AgentRow → AgentRow) (a : AgentRow) : AgentRow :=
  { f a with id := a.id, desiredRevision := a.desiredRevision, appliedRevision := a.appliedRevision
             appliedHash := a.appliedHash }

def otherWrites (r : Registry) (store : Store) (f : AgentRow → AgentRow) : Registry :=
  let agents := r.store.agents.update (fun _ => true) (otherRow f) fun _ => rfl
  { r with store := { store with agents } }

def Published (r : Registry) (id : String) (revision : Int) (hash : String) : Prop :=
  ∃ body, (⟨id, revision, hash, body⟩ : RevisionRow) ∈ r.revisions

structure Book (r : Registry) : Prop where
  positive : ∀ v ∈ r.revisions, 0 < v.revision
  owned : ∀ v ∈ r.revisions, ∃ a ∈ r.store.agents, a.id = v.agentId ∧ v.revision ≤ a.desiredRevision
  desired : ∀ a ∈ r.store.agents, ∃ d ∈ r.details, d.agentId = a.id ∧
    (⟨a.id, a.desiredRevision, d.desiredHash, d.desiredConfig⟩ : RevisionRow) ∈ r.revisions
  applied : ∀ a ∈ r.store.agents, a.appliedRevision = 0 ∧ a.appliedHash = "" ∨
    Published r a.id a.appliedRevision a.appliedHash

structure Grows (r r' : Registry) : Prop where
  revisions : ∀ v ∈ r.revisions, v ∈ r'.revisions
  agents : ∀ a ∈ r.store.agents, ∃ a' ∈ r'.store.agents, a'.id = a.id ∧
    a.appliedRevision ≤ a'.appliedRevision ∧ a.desiredRevision ≤ a'.desiredRevision

variable {r'' : Registry}

namespace Grows

theorem refl (r : Registry) : Grows r r :=
  ⟨fun _ => id, fun a ha => ⟨a, ha, rfl, le_refl _, le_refl _⟩⟩

theorem trans {r r' : Registry} (h : Grows r r') (h' : Grows r' r'') : Grows r r'' := by
  refine ⟨fun v hv => h'.revisions v (h.revisions v hv), fun a ha => ?_⟩
  obtain ⟨b, hb, sameId, applied, desired⟩ := h.agents a ha
  obtain ⟨c, hc, sameId', applied', desired'⟩ := h'.agents b hb
  exact ⟨c, hc, sameId'.trans sameId, applied.trans applied', desired.trans desired'⟩

theorem published {r r' : Registry} (h : Grows r r') {id hash : String} {revision : Int}
    (known : Published r id revision hash) : Published r' id revision hash := by
  obtain ⟨body, mem⟩ := known
  exact ⟨body, h.revisions _ mem⟩

end Grows

theorem Published.unique {r : Registry} {id hash hash' : String} {revision : Int}
    (h : Published r id revision hash) (h' : Published r id revision hash') : hash = hash' := by
  obtain ⟨body, mem⟩ := h
  obtain ⟨body', mem'⟩ := h'
  have same := Table.eq_of_key r.revisions mem mem' rfl
  exact congrArg RevisionRow.hash same

namespace Book

variable {r r' : Registry}

theorem desired_positive (book : Book r) {a : AgentRow} (ha : a ∈ r.store.agents) : 0 < a.desiredRevision := by
  obtain ⟨d, -, -, mem⟩ := book.desired a ha
  exact book.positive _ mem

theorem published_le (book : Book r) {a : AgentRow} (ha : a ∈ r.store.agents) {revision : Int}
    {hash : String} (known : Published r a.id revision hash) : revision ≤ a.desiredRevision := by
  obtain ⟨body, mem⟩ := known
  obtain ⟨b, hb, same, below⟩ := book.owned _ mem
  rwa [Table.eq_of_key r.store.agents hb ha same] at below

theorem applied_le (book : Book r) {a : AgentRow} (ha : a ∈ r.store.agents) :
    a.appliedRevision ≤ a.desiredRevision := by
  rcases book.applied a ha with ⟨none, -⟩ | known
  · rw [none]
    exact le_of_lt (book.desired_positive ha)
  · exact book.published_le ha known

theorem same_desired (book : Book r) (book' : Book r') (grown : Grows r r') {a a' : AgentRow}
    (ha : a ∈ r.store.agents) (ha' : a' ∈ r'.store.agents) (sameId : a'.id = a.id)
    (same : a'.desiredRevision = a.desiredRevision) {d d' : DetailRow} (hd : d ∈ r.details)
    (hd' : d' ∈ r'.details) (owner : d.agentId = a.id) (owner' : d'.agentId = a.id) :
    d'.desiredHash = d.desiredHash ∧ d'.desiredConfig = d.desiredConfig := by
  obtain ⟨e, he, ownerE, mem⟩ := book.desired a ha
  obtain ⟨e', he', ownerE', mem'⟩ := book'.desired a' ha'
  rw [Table.eq_of_key r.details hd he (owner.trans ownerE.symm),
    Table.eq_of_key r'.details hd' he' (owner'.trans (sameId.symm.trans ownerE'.symm))]
  have rows := Table.eq_of_key r'.revisions mem' (grown.revisions _ mem)
    (congrArg₂ Prod.mk sameId same)
  exact ⟨congrArg RevisionRow.hash rows, congrArg RevisionRow.body rows⟩

end Book

variable {r r' : Registry}

structure Publishes (r r' : Registry) (id : String) (revision : Int) (hash body : String)
    (a : AgentRow) : Prop where
  mem : a ∈ r.store.agents
  owner : a.id = id
  fresh : ∀ v ∈ r.revisions, v.key ≠ (id, revision)
  revisions : ∀ v, v ∈ r'.revisions ↔ v ∈ r.revisions ∨ v = ⟨id, revision, hash, body⟩
  agents : ∀ b, b ∈ r'.store.agents ↔ ∃ c ∈ r.store.agents,
    (if c.id = id then { c with desiredRevision := revision } else c) = b
  details : ∀ d, d ∈ r'.details ↔ ∃ e ∈ r.details,
    (if e.agentId = id then { e with desiredHash := hash, desiredConfig := body } else e) = d

variable {current : Int → Bool}

theorem writeDesired_ok {id hash body : String} {revision : Int}
    (h : writeDesired r id current revision hash body = .ok r') :
    ∃ a, Publishes r r' id revision hash body a ∧ current a.desiredRevision := by
  unfold writeDesired at h
  dsimp only at h
  split at h
  · cases h
  rename_i one
  split at h
  · cases h
  rename_i revisions inserted
  cases h
  obtain ⟨a, ha, named⟩ := Table.exists_of_count_pos (by rw [not_not.mp one]; decide)
  rw [Bool.and_eq_true, beq_iff_eq] at named
  refine ⟨a, ⟨ha, named.1, (Table.insert_some inserted).1, (Table.insert_some inserted).2, fun b => ?_,
    fun d => ?_⟩, named.2⟩
  · refine (Table.mem_update (f := fun c : AgentRow => { c with desiredRevision := revision })
      fun _ => rfl).trans ?_
    refine exists_congr fun c => and_congr_right fun hc => ?_
    by_cases same : c.id = id
    · have only : c = a := Table.eq_of_key r.store.agents hc ha (same.trans named.1.symm)
      rw [only, named.1, named.2]
      simp
    · simp [same]
  · refine (Table.mem_update
      (f := fun e : DetailRow => { e with desiredHash := hash, desiredConfig := body }) fun _ => rfl).trans ?_
    simp only [beq_iff_eq]

namespace Publishes

variable {id hash body : String} {revision : Int} {a : AgentRow}

theorem rises (h : Publishes r r' id revision hash body a) (book : Book r)
    (above : a.desiredRevision ≤ revision) : a.desiredRevision < revision := by
  obtain ⟨d, -, -, mem⟩ := book.desired a h.mem
  refine lt_of_le_of_ne above fun same => h.fresh _ mem ?_
  rw [RevisionRow.key, h.owner, same]

theorem grows (h : Publishes r r' id revision hash body a) (above : a.desiredRevision ≤ revision) : Grows r r' := by
  refine ⟨fun v hv => (h.revisions v).mpr (.inl hv), fun b hb => ?_⟩
  refine ⟨_, (h.agents _).mpr ⟨b, hb, rfl⟩, ?_⟩
  split
  · rename_i same
    rw [Table.eq_of_key r.store.agents hb h.mem (same.trans h.owner.symm)]
    exact ⟨rfl, le_refl _, above⟩
  · exact ⟨rfl, le_refl _, le_refl _⟩

theorem book (h : Publishes r r' id revision hash body a) (book : Book r)
    (above : a.desiredRevision ≤ revision) : Book r' := by
  have grown := h.grows above
  refine ⟨fun v hv => ?_, fun v hv => ?_, fun b hb => ?_, fun b hb => ?_⟩
  · rcases (h.revisions v).mp hv with old | rfl
    · exact book.positive v old
    · exact (book.desired_positive h.mem).trans_le above
  · rcases (h.revisions v).mp hv with old | rfl
    · obtain ⟨b, hb, owner, below⟩ := book.owned v old
      obtain ⟨c, hc, same, -, higher⟩ := grown.agents b hb
      exact ⟨c, hc, same.trans owner, below.trans higher⟩
    · refine ⟨_, (h.agents _).mpr ⟨a, h.mem, rfl⟩, ?_⟩
      rw [if_pos h.owner]
      exact ⟨h.owner, le_refl _⟩
  · obtain ⟨c, hc, rfl⟩ := (h.agents b).mp hb
    obtain ⟨e, he, owner, mem⟩ := book.desired c hc
    refine ⟨_, (h.details _).mpr ⟨e, he, rfl⟩, ?_⟩
    by_cases same : c.id = id
    · rw [if_pos same, if_pos (owner.trans same)]
      exact ⟨owner, (h.revisions _).mpr (.inr (by rw [same]))⟩
    · rw [if_neg same, if_neg fun other => same (owner.symm.trans other)]
      exact ⟨owner, grown.revisions _ mem⟩
  · obtain ⟨c, hc, rfl⟩ := (h.agents b).mp hb
    have kept := (book.applied c hc).imp_right grown.published
    split
    · exact kept
    · exact kept

end Publishes

def Raises (r r' : Registry) (id : String) : Prop :=
  ∀ a ∈ r.store.agents, a.id = id → ∃ a' ∈ r'.store.agents, a'.id = id ∧ a.desiredRevision < a'.desiredRevision

theorem Raises.grows {r r' : Registry} {id : String} (h : Raises r r' id) (grown : Grows r' r'') : Raises r r'' id := by
  intro a ha owner
  obtain ⟨b, hb, same, higher⟩ := h a ha owner
  obtain ⟨c, hc, same', -, above⟩ := grown.agents b hb
  exact ⟨c, hc, same'.trans same, higher.trans_le above⟩

theorem Grows.raises {r r' : Registry} {id : String} (grown : Grows r r') (h : Raises r' r'' id) : Raises r r'' id := by
  intro a ha owner
  obtain ⟨b, hb, same, -, above⟩ := grown.agents a ha
  obtain ⟨c, hc, same', higher⟩ := h b hb (same.trans owner)
  exact ⟨c, hc, same', above.trans_lt higher⟩

structure Keeps (r r' : Registry) : Prop where
  grows : Grows r r'
  book : Book r'

theorem writeDesired_keeps {id hash body : String} {revision : Int}
    (below : ∀ n, current n → n ≤ revision) (book : Book r)
    (h : writeDesired r id current revision hash body = .ok r') : Keeps r r' ∧ Raises r r' id := by
  obtain ⟨a, publishes, matched⟩ := writeDesired_ok h
  have above := below _ matched
  refine ⟨⟨publishes.grows above, publishes.book book above⟩, fun b hb owner => ?_⟩
  rw [Table.eq_of_key r.store.agents hb publishes.mem (owner.trans publishes.owner.symm)]
  refine ⟨_, (publishes.agents _).mpr ⟨a, publishes.mem, rfl⟩, ?_⟩
  rw [if_pos publishes.owner]
  exact ⟨publishes.owner, publishes.rises book above⟩

theorem ensureBaselineChecks_keeps {d : Draft} (book : Book r) (h : ensureBaselineChecks r d = .ok r') :
    Keeps r r' ∧ Raises r r' d.agentId :=
  writeDesired_keeps (fun _ below => of_decide_eq_true below) book h

variable {opId : String}

theorem bumpAgent_keeps {d : Draft} (book : Book r) (h : bumpAgent opId r d = .ok r') :
    Keeps r r' ∧ Raises r r' d.agentId := by
  obtain ⟨u, written, h⟩ := bind_ok.mp h
  cases h
  have below : ∀ n, (n == d.before) → n ≤ d.before + 1 := by
    intro n same
    rw [beq_iff_eq] at same
    omega
  obtain ⟨kept, raised⟩ := writeDesired_keeps below book written
  exact ⟨⟨⟨kept.grows.revisions, kept.grows.agents⟩,
    ⟨kept.book.positive, kept.book.owned, kept.book.desired, kept.book.applied⟩⟩, raised⟩

variable {changes : List Draft}

theorem bumpDrafts_keeps (book : Book r) (h : changes.foldlM (bumpAgent opId) r = .ok r') :
    Keeps r r' ∧ ∀ d ∈ changes, Raises r r' d.agentId := by
  induction changes generalizing r with
  | nil =>
    cases h
    exact ⟨⟨.refl _, book⟩, fun d hd => absurd hd List.not_mem_nil⟩
  | cons d changes ih =>
    obtain ⟨u, first, rest⟩ := bind_ok.mp h
    obtain ⟨kept, raised⟩ := bumpAgent_keeps book first
    obtain ⟨kept', raised'⟩ := ih kept.book rest
    refine ⟨⟨kept.grows.trans kept'.grows, kept'.book⟩, fun e he => ?_⟩
    rcases List.mem_cons.mp he with rfl | later
    · exact raised.grows kept'.grows
    · exact kept.grows.raises (raised' e later)

theorem bumpDesired_keeps (book : Book r) (h : bumpDesired r opId changes = .ok r') :
    Keeps r r' ∧ ∀ d ∈ changes, Raises r r' d.agentId := by
  obtain ⟨u, bumped, h⟩ := bind_ok.mp h
  obtain ⟨store, refreshed, h⟩ := bind_ok.mp h
  cases h
  obtain ⟨operations, rfl, -⟩ := JobEvolution.refreshOperation_ok refreshed
  obtain ⟨kept, raised⟩ := bumpDrafts_keeps book bumped
  exact ⟨⟨⟨kept.grows.revisions, kept.grows.agents⟩,
    ⟨kept.book.positive, kept.book.owned, kept.book.desired, kept.book.applied⟩⟩, raised⟩

theorem keeps_of_rows {store : Store} {p : AgentRow → Bool} (f : AgentRow → AgentRow)
    (keep : ∀ a, (f a).id = a.id) (book : Book r) (agents : store.agents = r.store.agents.update p f keep)
    (desired : ∀ a, (f a).desiredRevision = a.desiredRevision) (applied : ∀ a ∈ r.store.agents, p a →
      (f a).appliedRevision = a.appliedRevision ∧ (f a).appliedHash = a.appliedHash ∨
      a.appliedRevision ≤ (f a).appliedRevision ∧ Published r a.id (f a).appliedRevision (f a).appliedHash) :
    Keeps r { r with store } := by
  have rows : ∀ b, b ∈ store.agents ↔ ∃ a ∈ r.store.agents, (if p a then f a else a) = b := by
    intro b
    rw [agents]
    exact Table.mem_update keep
  have grown : Grows r { r with store } := by
    refine ⟨fun _ => id, fun a ha => ⟨_, (rows _).mpr ⟨a, ha, rfl⟩, ?_⟩⟩
    split
    · rename_i chosen
      refine ⟨keep a, ?_, le_of_eq (desired a).symm⟩
      rcases applied a ha chosen with ⟨same, -⟩ | ⟨higher, -⟩
      · exact le_of_eq same.symm
      · exact higher
    · exact ⟨rfl, le_refl _, le_refl _⟩
  refine ⟨grown, book.positive, fun v hv => ?_, fun b hb => ?_, fun b hb => ?_⟩
  · obtain ⟨a, ha, owner, below⟩ := book.owned v hv
    obtain ⟨b, hb, same, -, higher⟩ := grown.agents a ha
    exact ⟨b, hb, same.trans owner, below.trans higher⟩
  · obtain ⟨a, ha, rfl⟩ := (rows b).mp hb
    obtain ⟨d, hd, owner, mem⟩ := book.desired a ha
    refine ⟨d, hd, ?_⟩
    split
    · rw [keep, desired]
      exact ⟨owner, mem⟩
    · exact ⟨owner, mem⟩
  · obtain ⟨a, ha, rfl⟩ := (rows b).mp hb
    split
    · rename_i chosen
      rw [keep]
      rcases applied a ha chosen with ⟨same, sameHash⟩ | ⟨-, known⟩
      · rw [same, sameHash]
        exact book.applied a ha
      · exact .inr known
    · exact book.applied a ha

theorem otherWrites_keeps (store : Store) (f : AgentRow → AgentRow) (book : Book r) : Keeps r (otherWrites r store f) :=
  keeps_of_rows (otherRow f) (fun _ => rfl) book rfl (fun _ => rfl) fun _ _ _ => .inl ⟨rfl, rfl⟩

theorem acceptLive_keeps (rep : AgentReport) (call : Ingestion.Call) (book : Book r) :
    Keeps r (acceptLive r rep call) := by
  refine keeps_of_rows (Ingestion.touchAgent rep _) (fun _ => rfl) book rfl (fun _ => rfl)
    fun a ha chosen => ?_
  rw [beq_iff_eq] at chosen
  simp only [Ingestion.touchAgent]
  split
  · rename_i applies
    obtain ⟨v, hv, named⟩ := Table.exists_of_count_pos (of_decide_eq_true applies.2.2.2)
    simp only [Bool.and_eq_true, beq_iff_eq] at named
    refine .inr ⟨applies.2.2.1, v.body, ?_⟩
    rw [chosen, ← named.1.1, ← named.1.2, ← named.2]
    exact hv
  · exact .inl ⟨rfl, rfl⟩

theorem insertIdentity_keeps {n : NewAgent} {credentialHash : String} (first : 0 < n.desiredRevision)
    (book : Book r) (h : insertIdentity r n credentialHash = .ok r') : Keeps r r' := by
  unfold insertIdentity at h
  split at h
  · cases h
  rename_i u inserted
  unfold insertAgent at inserted
  split at inserted
  · cases inserted
  rename_i agents row
  cases inserted
  split at h
  · cases h
  rename_i revisions published
  cases h
  obtain ⟨fresh, rows⟩ := Table.insert_some row
  obtain ⟨-, versions⟩ := Table.insert_some published
  have grown : ∀ v ∈ r.revisions, v ∈ revisions := fun v hv => (versions v).mpr (.inl hv)
  refine ⟨⟨grown, fun a ha => ⟨a, (rows a).mpr (.inl ha), rfl, le_refl _, le_refl _⟩⟩,
    fun v hv => ?_, fun v hv => ?_, fun a ha => ?_, fun a ha => ?_⟩
  · rcases (versions v).mp hv with old | rfl
    · exact book.positive v old
    · exact first
  · rcases (versions v).mp hv with old | rfl
    · obtain ⟨a, ha, owner, below⟩ := book.owned v old
      exact ⟨a, (rows a).mpr (.inl ha), owner, below⟩
    · exact ⟨n.row credentialHash, (rows _).mpr (.inr rfl), rfl, le_refl _⟩
  · rcases (rows a).mp ha with old | rfl
    · obtain ⟨d, hd, owner, mem⟩ := book.desired a old
      refine ⟨d, Table.mem_upsert.mpr (.inl ⟨hd, fun same => ?_⟩), owner, grown _ mem⟩
      exact fresh a old (owner.symm.trans same)
    · exact ⟨_, Table.mem_upsert.mpr (.inr rfl), rfl, (versions _).mpr (.inr rfl)⟩
  · rcases (rows a).mp ha with old | rfl
    · refine (book.applied a old).imp_right fun known => ?_
      obtain ⟨body, mem⟩ := known
      exact ⟨body, grown _ mem⟩
    · exact .inl ⟨rfl, rfl⟩

end Monik.ConfigRevisions
