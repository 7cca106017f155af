import Monik.LiveReports

/-! When a service is missing, in terms of scans. The store's count and time stand for a complete
scan without the target that no later one contradicts; a second one, a minute later, makes the
service missing. -/

namespace Monik.ServiceAbsence
open Protocol Tables Runs ControllerStore Ingestion SparkIngestion ServiceInventory LiveReports

variable {canonical : Canonical} {agent : String} {d : DiscoveryDelta} {v u : Inventory} {r : EndpointRow}

variable {id target : String} {listeners : List EndpointRow} {r' : EndpointRow} {eps : List DiscoveredEndpoint}

def isListenerService (r : EndpointRow) : Bool := r.source.startsWith "listener"

theorem likeListener_of_listener (listener : isListenerService r) : likeListener r.source := by
  unfold isListenerService at listener
  unfold likeListener
  rw [String.startsWith_string_iff] at listener ⊢
  obtain ⟨rest, whole⟩ := listener
  refine ⟨rest.map Char.toLower, ?_⟩
  rw [String.toList_map, ← whole, List.map_append]
  rfl

def presenceOf (v : Inventory) (id : String) : Option PresenceRow := v.presence.find? fun p => p.serviceId == id

theorem presenceOf_upsert (v : Inventory) (p : PresenceRow) (services : Table EndpointRow EndpointRow.id) (id : String) :
    presenceOf { v with services, presence := v.presence.upsert p } id = if p.serviceId = id then some p else presenceOf v id :=
  Table.find?_upsert v.presence p id

/-! One scan. -/

def judged (canonical : Canonical) (d : DiscoveryDelta) (r : EndpointRow) (known : Option PresenceRow) :
    Option PresenceRow :=
  match canonical r.dialTarget with
  | none => known
  | some target =>
    if d.listenerTargets.contains target then some (seenAt r.id d.endedAt)
    else if !d.listenerCoverageComplete then known
    else some (absentRow d r known)

theorem reconcileRecord_own {known : Option PresenceRow} (same : known = presenceOf v r.id) :
    presenceOf (reconcileRecord canonical d v (r, known)) r.id = judged canonical d r known := by
  unfold reconcileRecord judged
  cases canonical r.dialTarget with
  | none => exact same.symm
  | some target =>
    dsimp only
    split
    · exact (presenceOf_upsert ..).trans (if_pos rfl)
    · split
      · exact same.symm
      · exact (presenceOf_upsert ..).trans (if_pos rfl)

theorem reconcileRecord_other {known : Option PresenceRow} (other : r.id ≠ id) :
    presenceOf (reconcileRecord canonical d v (r, known)) id = presenceOf v id := by
  unfold reconcileRecord
  cases canonical r.dialTarget with
  | none => rfl
  | some target =>
    dsimp only
    split
    · exact (presenceOf_upsert ..).trans (if_neg other)
    · split
      · rfl
      · exact (presenceOf_upsert ..).trans (if_neg other)

structure Same (r r' : EndpointRow) : Prop where
  id : r'.id = r.id
  agentId : r'.agentId = r.agentId
  dialTarget : r'.dialTarget = r.dialTarget
  hostHeader : r'.hostHeader = r.hostHeader
  source : r'.source = r.source

theorem Same.trans {a b c : EndpointRow} (first : Same a b) (second : Same b c) : Same a c :=
  ⟨second.id.trans first.id, second.agentId.trans first.agentId, second.dialTarget.trans first.dialTarget,
    second.hostHeader.trans first.hostHeader, second.source.trans first.source⟩

theorem reconcileRecord_services (canonical : Canonical) (d : DiscoveryDelta) (v : Inventory)
    (record : EndpointRow × Option PresenceRow) :
    ∀ r' ∈ (reconcileRecord canonical d v record).services, ∃ r ∈ v.services, Same r r' := by
  intro r' mem
  have kept : r' ∈ v.services → ∃ r ∈ v.services, Same r r' := fun mem => ⟨r', mem, rfl, rfl, rfl, rfl, rfl⟩
  unfold reconcileRecord at mem
  split at mem
  · exact kept mem
  · split at mem
    · obtain ⟨r, there, rfl⟩ := List.mem_map.mp mem
      refine ⟨r, there, ?_⟩
      split <;> exact ⟨rfl, rfl, rfl, rfl, rfl⟩
    · split at mem
      · exact kept mem
      · exact kept mem

theorem foldl_reconcileRecord_services (records : List (EndpointRow × Option PresenceRow)) (v : Inventory) :
    ∀ r' ∈ (records.foldl (reconcileRecord canonical d) v).services, ∃ r ∈ v.services, Same r r' := by
  induction records generalizing v with
  | nil => exact fun r' mem => ⟨r', mem, rfl, rfl, rfl, rfl, rfl⟩
  | cons record rest ih =>
    intro r' mem
    obtain ⟨middle, there, later⟩ := ih _ r' mem
    obtain ⟨r, mem, first⟩ := reconcileRecord_services canonical d v record middle there
    exact ⟨r, mem, first.trans later⟩

theorem foldl_reconcileRecord_other {known : EndpointRow → Option PresenceRow} (others : ∀ r ∈ listeners, r.id ≠ id) :
    presenceOf ((listeners.map fun r => (r, known r)).foldl (reconcileRecord canonical d) v) id = presenceOf v id := by
  induction listeners generalizing v with
  | nil => rfl
  | cons r rest ih =>
    rw [List.map_cons, List.foldl_cons, ih fun a mem => others a (List.mem_cons_of_mem _ mem)]
    exact reconcileRecord_other (others r (List.mem_cons_self ..))

theorem foldl_reconcileRecord_own {known : EndpointRow → Option PresenceRow}
    (nodup : (listeners.map EndpointRow.id).Nodup) (read : ∀ r ∈ listeners, known r = presenceOf v r.id)
    (mem : r ∈ listeners) :
    presenceOf ((listeners.map fun r => (r, known r)).foldl (reconcileRecord canonical d) v) r.id =
      judged canonical d r (known r) := by
  induction listeners generalizing v with
  | nil => cases mem
  | cons a rest ih =>
    rw [List.map_cons, List.nodup_cons] at nodup
    have apart : ∀ b ∈ rest, b.id ≠ a.id := fun b there same => nodup.1 (List.mem_map.mpr ⟨b, there, same⟩)
    rw [List.map_cons, List.foldl_cons]
    rcases List.mem_cons.mp mem with rfl | later
    · rw [foldl_reconcileRecord_other apart]
      exact reconcileRecord_own (read r (List.mem_cons_self ..))
    · refine ih nodup.2 (fun b there => ?_) later
      rw [read b (List.mem_cons_of_mem _ there)]
      exact (reconcileRecord_other (apart b there).symm).symm

theorem reconcileInventory_services :
    ∀ r' ∈ (reconcileInventory canonical agent d v).services, ∃ r ∈ v.services, Same r r' := by
  unfold reconcileInventory
  split
  · exact fun r' mem => ⟨r', mem, rfl, rfl, rfl, rfl, rfl⟩
  · exact foldl_reconcileRecord_services _ v

theorem reconcileInventory_own (version : d.inventoryVersion = 1) (mem : r ∈ v.services) (mine : r.agentId = agent)
    (listener : likeListener r.source) :
    presenceOf (reconcileInventory canonical agent d v) r.id = judged canonical d r (presenceOf v r.id) := by
  unfold reconcileInventory
  rw [if_neg (not_not.mpr version)]
  refine foldl_reconcileRecord_own ?_ (fun _ _ => rfl) ?_
  · exact (List.filter_sublist.map EndpointRow.id).nodup v.services.unique
  · exact List.mem_filter.mpr ⟨mem, by simp [mine, listener]⟩

theorem reconcileInventory_other (other : d.inventoryVersion = 1 → ∀ r ∈ v.services, r.agentId = agent → r.id ≠ id) :
    presenceOf (reconcileInventory canonical agent d v) id = presenceOf v id := by
  unfold reconcileInventory
  split
  · rfl
  · rename_i version
    refine foldl_reconcileRecord_other fun r mem => ?_
    obtain ⟨there, chosen⟩ := List.mem_filter.mp mem
    have mine : r.agentId = agent := by simp_all
    exact other (not_not.mp version) r there mine

/-! What a presence stands for. -/

structure Lacks (d : DiscoveryDelta) (target : String) : Prop where
  version : d.inventoryVersion = 1
  complete : d.listenerCoverageComplete
  absent : target ∉ d.listenerTargets

def Contains (d : DiscoveryDelta) (target : String) : Prop := d.inventoryVersion = 1 ∧ target ∈ d.listenerTargets

def Identifies (d : DiscoveryDelta) (r : EndpointRow) : Prop :=
  ∃ ep ∈ d.confirmed, ep.dialTarget = r.dialTarget ∧ ep.hostHeader = r.hostHeader

def Shows (canonical : Canonical) (d : DiscoveryDelta) (r : EndpointRow) : Prop :=
  (∃ target, canonical r.dialTarget = some target ∧ Contains d target) ∨ Identifies d r

/-- A complete scan without the target that ended then, and no later discovery that shows it. -/
def AbsentSince (canonical : Canonical) (history : List DiscoveryDelta) (r : EndpointRow) (since : Time) : Prop :=
  ∃ target later first earlier, canonical r.dialTarget = some target ∧ history = later ++ first :: earlier ∧
    Lacks first target ∧ first.endedAt = since ∧ ∀ d ∈ later, ¬Shows canonical d r

def SecondWithout (canonical : Canonical) (history : List DiscoveryDelta) (d : DiscoveryDelta) (r : EndpointRow) : Prop :=
  ∃ target, canonical r.dialTarget = some target ∧ Lacks d target ∧
    ∃ since, AbsentSince canonical history r since ∧ serviceAbsenceGrace ≤ d.endedAt - since

def IsReset (known : Option PresenceRow) : Prop :=
  ∃ p, known = some p ∧ p.missingSince = none ∧ p.absentSnapshots = 0 ∧ p.state = .present

def Explained (canonical : Canonical) (history : List DiscoveryDelta) (r : EndpointRow) (known : Option PresenceRow) : Prop :=
  IsReset known ∨ ∃ p since, known = some p ∧ p.missingSince = some since ∧ AbsentSince canonical history r since

variable {history : List DiscoveryDelta} {known : Option PresenceRow}

theorem isReset_seenAt (id : String) (now : Time) : IsReset (some (seenAt id now)) := ⟨_, rfl, rfl, rfl, rfl⟩

theorem AbsentSince.cons {since : Time} (absent : AbsentSince canonical history r since)
    (unseen : ¬Shows canonical d r) : AbsentSince canonical (d :: history) r since := by
  obtain ⟨target, later, first, earlier, its, rfl, lacks, ended, quiet⟩ := absent
  refine ⟨target, d :: later, first, earlier, its, rfl, lacks, ended, ?_⟩
  simpa using ⟨unseen, quiet⟩

theorem Explained.cons (explained : Explained canonical history r known) (unseen : ¬Shows canonical d r) :
    Explained canonical (d :: history) r known := by
  rcases explained with reset | ⟨p, since, found, its, absent⟩
  · exact .inl reset
  · exact .inr ⟨p, since, found, its, absent.cons unseen⟩

theorem Explained.same (same : Same r r') (explained : Explained canonical history r known) :
    Explained canonical history r' known := by
  unfold Explained AbsentSince Shows Identifies at explained ⊢
  rw [same.dialTarget, same.hostHeader]
  exact explained

theorem SecondWithout.same (same : Same r r') (second : SecondWithout canonical history d r) :
    SecondWithout canonical history d r' := by
  unfold SecondWithout AbsentSince Shows Identifies at second ⊢
  rw [same.dialTarget, same.hostHeader]
  exact second

theorem judged_cases (canonical : Canonical) (r : EndpointRow) (known : Option PresenceRow)
    (version : d.inventoryVersion = 1) : IsReset (judged canonical d r known) ∨
      (judged canonical d r known = known ∧ ∀ target, canonical r.dialTarget = some target → ¬Contains d target) ∨
      ∃ target, canonical r.dialTarget = some target ∧ Lacks d target ∧
        judged canonical d r known = some (absentRow d r known) := by
  unfold judged
  cases canonical r.dialTarget with
  | none => exact .inr (.inl ⟨rfl, by simp⟩)
  | some target =>
    by_cases there : target ∈ d.listenerTargets
    · left
      simp only [List.contains_eq_mem, there, decide_true, if_true]
      exact isReset_seenAt r.id d.endedAt
    · right
      simp only [List.contains_eq_mem, there, decide_false, Bool.false_eq_true, if_false]
      cases complete : d.listenerCoverageComplete with
      | false =>
        refine .inl ⟨rfl, fun other its => ?_⟩
        cases its
        exact fun contains => there contains.2
      | true => exact .inr ⟨target, rfl, ⟨version, complete, there⟩, rfl⟩

theorem absentRow_explained (its : canonical r.dialTarget = some target) (lacks : Lacks d target)
    (explained : Explained canonical history r known) (unseen : IsReset known ∨ ¬Identifies d r) :
    Explained canonical (d :: history) r (some (absentRow d r known)) := by
  right
  rcases explained with ⟨p, rfl, none_, -⟩ | ⟨p, since, rfl, since_, absent⟩
  · refine ⟨_, d.endedAt, rfl, by simp [absentRow, none_], target, [], d, history, its, rfl, lacks, rfl, by simp⟩
  · refine ⟨_, since, rfl, by simp [absentRow, since_], absent.cons ?_⟩
    rcases unseen with ⟨_, found, none_, -⟩ | unseen
    · cases found
      rw [since_] at none_
      cases none_
    · rintro (⟨_, same, contains⟩ | identified)
      · rw [its] at same
        cases same
        exact lacks.absent contains.2
      · exact unseen identified

theorem absentRow_missing (its : canonical r.dialTarget = some target) (lacks : Lacks d target)
    (explained : Explained canonical history r known) (missing : (absentRow d r known).state = .missing) :
    SecondWithout canonical history d r := by
  rcases explained with ⟨p, rfl, -, zero, -⟩ | ⟨p, since, rfl, since_, absent⟩
  · simp [absentRow, zero] at missing
  · refine ⟨target, its, lacks, since, absent, ?_⟩
    by_contra short
    simp [absentRow, since_, short] at missing

theorem judged_explained (version : d.inventoryVersion = 1) (explained : Explained canonical history r known)
    (unseen : IsReset known ∨ ¬Identifies d r) : Explained canonical (d :: history) r (judged canonical d r known) := by
  rcases judged_cases canonical r known version with
    reset | ⟨same, quiet⟩ | ⟨target, its, lacks, written⟩
  · exact .inl reset
  · rw [same]
    rcases unseen with reset | unseen
    · exact .inl reset
    · refine explained.cons ?_
      rintro (⟨target, its, contains⟩ | identified)
      · exact quiet target its contains
      · exact unseen identified
  · rw [written]
    exact absentRow_explained its lacks explained unseen

def IsMissing (known : Option PresenceRow) : Prop := ∃ p, known = some p ∧ p.state = .missing

theorem judged_missing (version : d.inventoryVersion = 1) (explained : Explained canonical history r known)
    (missing : IsMissing (judged canonical d r known)) : IsMissing known ∨ SecondWithout canonical history d r := by
  rcases judged_cases canonical r known version with
    ⟨p, found, -, -, present⟩ | ⟨same, -⟩ | ⟨target, its, lacks, written⟩
  · obtain ⟨q, found', gone⟩ := missing
    rw [found] at found'
    cases found'
    rw [present] at gone
    cases gone
  · rw [same] at missing
    exact .inl missing
  · obtain ⟨q, found, gone⟩ := missing
    rw [written] at found
    cases found
    exact .inr (absentRow_missing its lacks explained gone)

/-! The endpoints of a discovery. -/

/-- A logical endpoint has one row: `UNIQUE(agent_id, dial_target, host_header)`. -/
def Logical (v : Inventory) : Prop :=
  ∀ a ∈ v.services, ∀ b ∈ v.services, a.agentId = b.agentId → a.dialTarget = b.dialTarget →
    a.hostHeader = b.hostHeader → a = b

def Names (agent : String) (ep : DiscoveredEndpoint) (r : EndpointRow) : Prop :=
  r.agentId = agent ∧ ep.dialTarget = r.dialTarget ∧ ep.hostHeader = r.hostHeader

variable {newId : DiscoveredEndpoint → String} {now : Time} {ep : DiscoveredEndpoint}

theorem names_iff : (r.agentId == agent && r.dialTarget == ep.dialTarget && r.hostHeader == ep.hostHeader) ↔
    Names agent ep r := by
  unfold Names
  rw [Bool.and_eq_true, Bool.and_eq_true, beq_iff_eq, beq_iff_eq, beq_iff_eq, and_assoc, eq_comm (a := r.dialTarget),
    eq_comm (a := r.hostHeader)]

theorem upsertService_ok (h : upsertService agent newId now v ep = .ok u) : ∃ id,
    ((∃ e ∈ v.services, Names agent ep e ∧ e.id = id ∧
        u.services = v.services.update (fun k => k.id == id) (rediscover ep now) fun _ => rfl) ∨
      ((∀ r ∈ v.services, ¬Names agent ep r) ∧ v.services.insert (endpointRow agent id ep now) = some u.services)) ∧
    ∀ x, presenceOf u x =
      if ep.source.startsWith "listener" ∧ id = x then some (seenAt id now) else presenceOf v x := by
  have presence : ∀ id services, ∀ x, presenceOf { v with
      services
      identified := v.identified.upsert ⟨id, ep, now⟩
      presence := if ep.source.startsWith "listener" then v.presence.upsert (seenAt id now) else v.presence } x =
      if ep.source.startsWith "listener" ∧ id = x then some (seenAt id now) else presenceOf v x := by
    intro id services x
    cases ep.source.startsWith "listener" with
    | false => simp [presenceOf]
    | true =>
      simp only [if_true, true_and]
      exact presenceOf_upsert v (seenAt id now) services x
  unfold upsertService at h
  cases found : v.services.find? fun r =>
      r.agentId == agent && r.dialTarget == ep.dialTarget && r.hostHeader == ep.hostHeader with
  | some e =>
    rw [found] at h
    cases h
    obtain ⟨mem, its⟩ := Table.find?_some found
    exact ⟨e.id, .inl ⟨e, mem, names_iff.mp its, rfl, rfl⟩, presence _ _⟩
  | none =>
    rw [found] at h
    cases inserted : v.services.insert (endpointRow agent (newId ep) ep now) with
    | none =>
      rw [inserted] at h
      cases h
    | some services =>
      rw [inserted] at h
      cases h
      refine ⟨newId ep, .inr ⟨fun r mem named => ?_, inserted⟩, presence _ _⟩
      have clash := Table.find?_none found mem
      rw [names_iff.mpr named] at clash
      cases clash

theorem upsertService_row (logical : Logical v) (h : upsertService agent newId now v ep = .ok u) :
    ∀ r ∈ u.services, (Names agent ep r ∧ (isListenerService r → IsReset (presenceOf u r.id))) ∨
      (¬Names agent ep r ∧ r ∈ v.services ∧ presenceOf u r.id = presenceOf v r.id) := by
  obtain ⟨id, stored, presence⟩ := upsertService_ok h
  have seen : ∀ r : EndpointRow, r.id = id → r.source = ep.source → isListenerService r →
      IsReset (presenceOf u r.id) := by
    intro r its source listener
    rw [presence, its, if_pos ⟨source ▸ listener, rfl⟩]
    exact isReset_seenAt id now
  intro r mem
  rcases stored with ⟨e, there, named, rfl, services⟩ | ⟨new, inserted⟩
  · rw [services] at mem
    obtain ⟨a, old, rfl⟩ := (Table.mem_update (f := rediscover ep now) fun _ => rfl).mp mem
    split
    · rename_i own
      rw [v.services.eq_of_key old there (beq_iff_eq.mp own)]
      exact .inl ⟨named, seen _ rfl rfl⟩
    · rename_i other
      have apart : a.id ≠ e.id := fun same => other (beq_iff_eq.mpr same)
      refine .inr ⟨fun clash => ?_, old, ?_⟩
      · rw [logical a old e there (clash.1.trans named.1.symm) (clash.2.1.symm.trans named.2.1)
          (clash.2.2.symm.trans named.2.2)] at apart
        exact apart rfl
      · rw [presence, if_neg fun same => apart same.2.symm]
  · obtain ⟨fresh, rows⟩ := Table.insert_some inserted
    rcases (rows r).mp mem with old | rfl
    · refine .inr ⟨new r old, old, ?_⟩
      rw [presence, if_neg fun same => fresh r old same.2.symm]
    · exact .inl ⟨⟨rfl, rfl, rfl⟩, seen _ rfl rfl⟩

theorem upsertService_logical (logical : Logical v) (h : upsertService agent newId now v ep = .ok u) : Logical u := by
  obtain ⟨id, stored, -⟩ := upsertService_ok h
  intro a memA b memB
  rcases stored with ⟨e, -, -, -, services⟩ | ⟨new, inserted⟩
  · rw [services] at memA memB
    obtain ⟨a₀, oldA, rfl⟩ := (Table.mem_update (f := rediscover ep now) fun _ => rfl).mp memA
    obtain ⟨b₀, oldB, rfl⟩ := (Table.mem_update (f := rediscover ep now) fun _ => rfl).mp memB
    have same : ∀ (c : Bool) (x : EndpointRow), (if c then rediscover ep now x else x).agentId = x.agentId ∧
        (if c then rediscover ep now x else x).dialTarget = x.dialTarget ∧
        (if c then rediscover ep now x else x).hostHeader = x.hostHeader := by
      intro c x
      cases c <;> exact ⟨rfl, rfl, rfl⟩
    intro agents targets hosts
    rw [(same _ a₀).1, (same _ b₀).1] at agents
    rw [(same _ a₀).2.1, (same _ b₀).2.1] at targets
    rw [(same _ a₀).2.2, (same _ b₀).2.2] at hosts
    rw [logical a₀ oldA b₀ oldB agents targets hosts]
  · obtain ⟨-, rows⟩ := Table.insert_some inserted
    intro agents targets hosts
    rcases (rows a).mp memA with oldA | rfl
    · rcases (rows b).mp memB with oldB | rfl
      · exact logical a oldA b oldB agents targets hosts
      · exact absurd ⟨agents, targets.symm, hosts.symm⟩ (new a oldA)
    · rcases (rows b).mp memB with oldB | rfl
      · exact absurd ⟨agents.symm, targets, hosts⟩ (new b oldB)
      · rfl

theorem foldlM_upsertService (logical : Logical v) (h : eps.foldlM (upsertService agent newId now) v = .ok u) :
    Logical u ∧ ∀ r ∈ u.services, isListenerService r → IsReset (presenceOf u r.id) ∨
      (r ∈ v.services ∧ presenceOf u r.id = presenceOf v r.id ∧ ∀ ep ∈ eps, ¬Names agent ep r) := by
  induction eps generalizing v with
  | nil =>
    cases h
    exact ⟨logical, fun r mem _ => .inr ⟨mem, rfl, by simp⟩⟩
  | cons ep rest ih =>
    obtain ⟨w, first, later⟩ := bind_ok.mp h
    obtain ⟨logical', rows⟩ := ih (upsertService_logical logical first) later
    refine ⟨logical', fun r mem listener => ?_⟩
    rcases rows r mem listener with reset | ⟨middle, same, others⟩
    · exact .inl reset
    · rcases upsertService_row logical first r middle with ⟨-, seen⟩ | ⟨other, old, before⟩
      · rw [same]
        exact .inl (seen listener)
      · exact .inr ⟨old, same.trans before, by simpa using ⟨other, others⟩⟩

theorem IsReset.not_missing (reset : IsReset known) : ¬IsMissing known := by
  rintro ⟨p, found, missing⟩
  obtain ⟨q, found', -, -, present⟩ := reset
  rw [found] at found'
  cases found'
  rw [missing] at present
  cases present

variable {histories : String → List DiscoveryDelta} {payload : String}

theorem reconcileInventory_logical (logical : Logical v) : Logical (reconcileInventory canonical agent d v) := by
  intro a memA b memB agents targets hosts
  obtain ⟨a₀, oldA, sameA⟩ := reconcileInventory_services a memA
  obtain ⟨b₀, oldB, sameB⟩ := reconcileInventory_services b memB
  have same : a₀ = b₀ := logical a₀ oldA b₀ oldB (sameA.agentId.symm.trans (agents.trans sameB.agentId))
    (sameA.dialTarget.symm.trans (targets.trans sameB.dialTarget))
    (sameA.hostHeader.symm.trans (hosts.trans sameB.hostHeader))
  refine Table.eq_of_key _ memA memB ?_
  rw [sameA.id, sameB.id, same]

theorem reconcileInventory_explained (mem : r ∈ v.services) (mine : r.agentId = agent)
    (listener : isListenerService r) (explained : Explained canonical history r (presenceOf v r.id))
    (unseen : IsReset (presenceOf v r.id) ∨ ¬Identifies d r) :
    Explained canonical (d :: history) r (presenceOf (reconcileInventory canonical agent d v) r.id) ∧
      (IsMissing (presenceOf (reconcileInventory canonical agent d v) r.id) →
        IsMissing (presenceOf v r.id) ∨ SecondWithout canonical history d r) := by
  by_cases version : d.inventoryVersion = 1
  · rw [reconcileInventory_own version mem mine (likeListener_of_listener listener)]
    exact ⟨judged_explained version explained unseen, judged_missing version explained⟩
  · rw [reconcileInventory_other fun counted => absurd counted version]
    refine ⟨?_, .inl⟩
    rcases unseen with reset | unseen
    · exact .inl reset
    · refine explained.cons ?_
      rintro (⟨_, -, contains⟩ | identified)
      · exact version contains.1
      · exact unseen identified

theorem acceptDiscovery_explained (logical : Logical v) (explained : ∀ r ∈ v.services, isListenerService r →
      Explained canonical (histories r.agentId) r (presenceOf v r.id)) (new : inventoryIsNew v agent d now)
    (h : acceptDiscovery canonical agent newId now payload d v = .ok u) :
    Logical u ∧ ∀ r ∈ u.services, isListenerService r →
      Explained canonical (if r.agentId = agent then d :: histories agent else histories r.agentId) r (presenceOf u r.id) ∧
      (IsMissing (presenceOf u r.id) → IsMissing (presenceOf v r.id) ∨
        r.agentId = agent ∧ SecondWithout canonical (histories agent) d r) := by
  unfold acceptDiscovery at h
  rw [if_pos new] at h
  obtain ⟨w, stored, h⟩ := bind_ok.mp h
  cases h
  obtain ⟨logical', rows⟩ := foldlM_upsertService (v := { v with scans := v.scans.upsert ⟨agent, payload⟩ }) logical stored
  refine ⟨reconcileInventory_logical logical', fun r' mem listener => ?_⟩
  obtain ⟨r, there, same⟩ := reconcileInventory_services r' mem
  have listens : isListenerService r := by
    unfold isListenerService at listener ⊢
    rwa [same.source] at listener
  -- when the scan is judged, the row is as if just seen, or it is as before and not named
  have before := rows r there listens
  have known : Explained canonical (histories r.agentId) r (presenceOf w r.id) := by
    rcases before with reset | ⟨old, kept, -⟩
    · exact .inl reset
    · rw [kept]
      exact explained r old listens
  have missing : IsMissing (presenceOf w r.id) → IsMissing (presenceOf v r.id) := by
    intro gone
    rcases before with reset | ⟨-, kept, -⟩
    · exact absurd gone reset.not_missing
    · rwa [kept] at gone
  rw [same.id, same.agentId]
  by_cases mine : r.agentId = agent
  · have unseen : IsReset (presenceOf w r.id) ∨ ¬Identifies d r := by
      rcases before with reset | ⟨-, -, others⟩
      · exact .inl reset
      · refine .inr ?_
        rintro ⟨ep, confirmed, named⟩
        exact others ep confirmed ⟨mine, named⟩
    rw [mine] at known
    obtain ⟨after, entered⟩ := reconcileInventory_explained there mine listens known unseen
    rw [if_pos mine]
    refine ⟨after.same same, fun gone => ?_⟩
    rcases entered gone with was | second
    · exact .inl (missing was)
    · exact .inr ⟨mine, second.same same⟩
  · have apart : d.inventoryVersion = 1 → ∀ a ∈ w.services, a.agentId = agent → a.id ≠ r.id := by
      intro _ a memA its clash
      rw [w.services.eq_of_key memA there clash] at its
      exact mine its
    rw [reconcileInventory_other apart, if_neg mine]
    exact ⟨known.same same, fun gone => .inl (missing gone)⟩

/-! Whole runs. -/

structure Machine where
  store : LiveStore
  taken : List (String × DiscoveryDelta)

def Machine.start : Machine := ⟨⟨⟨.empty, .empty⟩, .empty⟩, []⟩

abbrev Machine.inventory (m : Machine) : Inventory := m.store.inventory

def Machine.scansOf (m : Machine) (agent : String) : List DiscoveryDelta :=
  (m.taken.filter fun scan => scan.1 == agent).map Prod.snd

inductive Event
  | accept (rep : AgentReport) (call : LiveCall)
  | other (spark : SparkStore)

def takenFrom (f : Formats) (s : LiveStore) (rep : AgentReport) (call : LiveCall) (out : AcceptedReport) :
    Option DiscoveryDelta :=
  (rep.discovery.map fun d => f.delta d.body).filter fun d =>
    out.live && inventoryIsNew s.inventory rep.agentId d call.received

def step (f : Formats) (m : Machine) : Event → Machine
  | .accept rep call =>
    match acceptReport f m.store rep call with
    | .error _ => m
    | .ok (store, out) =>
      { store, taken := (takenFrom f m.store rep call out).toList.map (fun d => (rep.agentId, d)) ++ m.taken }
  | .other spark => { m with store := { m.store with spark } }

variable {f : Formats} {m : Machine}

theorem acceptReport_inventory {s s' : LiveStore} {rep : AgentReport} {call : LiveCall} {out : AcceptedReport}
    (h : acceptReport f s rep call = .ok (s', out)) : (takenFrom f s rep call out = none ∧ s'.inventory = s.inventory) ∨
      ∃ d payload, takenFrom f s rep call out = some d ∧ inventoryIsNew s.inventory rep.agentId d call.received ∧
        acceptDiscovery f.canonical rep.agentId call.newId call.received payload d s.inventory = .ok s'.inventory := by
  obtain ⟨⟨spark, out'⟩, -, h⟩ := bind_ok.mp h
  unfold takenFrom
  cases found : rep.discovery with
  | none =>
    rw [found] at h
    cases h
    exact .inl ⟨rfl, rfl⟩
  | some d =>
    rw [found] at h
    dsimp only at h
    split at h
    · rename_i live
      obtain ⟨inventory, accepted, h⟩ := bind_ok.mp h
      cases h
      cases new : inventoryIsNew s.inventory rep.agentId (f.delta d.body) call.received with
      | true => exact .inr ⟨f.delta d.body, d.body, by simp [live, new], new, accepted⟩
      | false =>
        refine .inl ⟨by simp [new], ?_⟩
        unfold acceptDiscovery at accepted
        rw [new] at accepted
        cases accepted
        rfl
    · rename_i idle
      cases h
      exact .inl ⟨by simp [idle], rfl⟩

theorem step_cases (f : Formats) (m : Machine) (e : Event) :
    ((step f m e).taken = m.taken ∧ (step f m e).inventory = m.inventory) ∨
      ∃ agent newId now payload d, (step f m e).taken = (agent, d) :: m.taken ∧
        inventoryIsNew m.inventory agent d now ∧
        acceptDiscovery f.canonical agent newId now payload d m.inventory = .ok (step f m e).inventory := by
  cases e with
  | other spark => exact .inl ⟨rfl, rfl⟩
  | accept rep call =>
    dsimp only [step]
    cases h : acceptReport f m.store rep call with
    | error e => exact .inl ⟨rfl, rfl⟩
    | ok result =>
      obtain ⟨store, out⟩ := result
      rcases acceptReport_inventory h with ⟨none_, same⟩ | ⟨d, payload, some_, new, accepted⟩
      · exact .inl ⟨by simp [none_], same⟩
      · exact .inr ⟨rep.agentId, call.newId, call.received, payload, d, by simp [some_], new, accepted⟩

theorem scansOf_cons {m m' : Machine} {agent : String} (h : m'.taken = (agent, d) :: m.taken) (other : String) :
    m'.scansOf other = if other = agent then d :: m.scansOf agent else m.scansOf other := by
  unfold Machine.scansOf
  rw [h, List.filter_cons]
  by_cases same : other = agent
  · simp [same]
  · simp [same, Ne.symm same]

def Machine.snapshots (m : Machine) (agent : String) : List DiscoveryDelta :=
  (m.scansOf agent).filter fun d => d.inventoryVersion == 1

theorem snapshots_cons {m m' : Machine} {agent : String} (h : m'.taken = (agent, d) :: m.taken) (other : String) :
    m'.snapshots other = if d.inventoryVersion = 1 ∧ agent = other then d :: m.snapshots agent
      else m.snapshots other := by
  unfold Machine.snapshots
  rw [scansOf_cons h]
  by_cases same : other = agent
  · by_cases version : d.inventoryVersion = 1
    · simp [same, version]
    · simp [same, version]
  · simp [same, Ne.symm same]

structure Kept (f : Formats) (m : Machine) : Prop where
  logical : Logical m.inventory
  explained : ∀ r ∈ m.inventory.services, isListenerService r →
    Explained f.canonical (m.scansOf r.agentId) r (presenceOf m.inventory r.id)
  rising : ∀ agent, (m.snapshots agent).Pairwise fun later earlier => earlier.startedAt < later.startedAt
  checkpoint : ∀ agent, m.inventory.checkpoint agent = (m.snapshots agent).head?.map (checkpointRow agent)

theorem kept_start (f : Formats) : Kept f .start := by
  refine ⟨?_, ?_, fun _ => .nil, fun _ => rfl⟩
  · intro a mem
    cases mem
  · intro r mem
    cases mem

theorem reconcileInventory_checkpoint (other : String) : (reconcileInventory canonical agent d v).checkpoint other =
    if d.inventoryVersion = 1 ∧ agent = other then some (checkpointRow agent d) else v.checkpoint other := by
  have same : ∀ records v, (List.foldl (reconcileRecord canonical d) v records).checkpoints = v.checkpoints := by
    intro records
    induction records with
    | nil => exact fun v => rfl
    | cons record rest ih => exact fun v => (ih _).trans (reconcileRecord_checkpoints canonical d v record)
  unfold reconcileInventory
  by_cases version : d.inventoryVersion = 1
  · simp only [same, version, true_and]
    exact Table.find?_upsert v.checkpoints (checkpointRow agent d) other
  · rw [if_pos version, if_neg fun both => version both.1]

theorem acceptDiscovery_checkpoint (new : inventoryIsNew v agent d now)
    (h : acceptDiscovery canonical agent newId now payload d v = .ok u) (other : String) :
    u.checkpoint other = if d.inventoryVersion = 1 ∧ agent = other then some (checkpointRow agent d)
      else v.checkpoint other := by
  unfold acceptDiscovery at h
  rw [if_pos new] at h
  obtain ⟨w, stored, h⟩ := bind_ok.mp h
  cases h
  have same : w.checkpoints = v.checkpoints :=
    foldlM_invariant (fun w : Inventory => w.checkpoints = v.checkpoints) stored rfl
      fun _ _ _ _ hw before => (upsertService_checkpoints hw).trans before
  rw [reconcileInventory_checkpoint]
  unfold Inventory.checkpoint
  rw [same]

theorem Kept.newer (kept : Kept f m) (version : d.inventoryVersion = 1)
    (new : inventoryIsNew m.inventory agent d now) : ∀ x ∈ m.snapshots agent, x.startedAt < d.startedAt := by
  have last := kept.checkpoint agent
  have rising := kept.rising agent
  unfold inventoryIsNew at new
  rw [if_neg (by simp [version])] at new
  split at new
  · cases new
  · rw [last] at new
    cases scans : m.snapshots agent with
    | nil => simp
    | cons head rest =>
      rw [scans, List.pairwise_cons] at rising
      rw [scans] at new
      have first : head.startedAt < d.startedAt := by simpa [checkpointRow] using new
      intro x mem
      rcases List.mem_cons.mp mem with rfl | older
      · exact first
      · exact lt_trans (rising.1 x older) first

theorem Kept.step (kept : Kept f m) (e : Event) : Kept f (step f m e) := by
  rcases step_cases f m e with ⟨taken, same⟩ | ⟨agent, newId, now, payload, d, taken, new, accepted⟩
  · have scans : ∀ agent, (ServiceAbsence.step f m e).scansOf agent = m.scansOf agent := by
      intro agent
      unfold Machine.scansOf
      rw [taken]
    refine ⟨?_, ?_, ?_, ?_⟩
    · rw [same]
      exact kept.logical
    · intro r
      rw [same, scans]
      exact kept.explained r
    · intro agent
      unfold Machine.snapshots
      rw [scans]
      exact kept.rising agent
    · intro agent
      unfold Machine.snapshots
      rw [same, scans]
      exact kept.checkpoint agent
  · obtain ⟨logical, explained⟩ := acceptDiscovery_explained kept.logical kept.explained new accepted
    refine ⟨logical, ?_, ?_, ?_⟩
    · intro r mem listener
      rw [scansOf_cons taken]
      exact (explained r mem listener).1
    · intro other
      rw [snapshots_cons taken]
      split
      · rename_i mine
        exact List.pairwise_cons.mpr ⟨kept.newer mine.1 new, kept.rising agent⟩
      · exact kept.rising other
    · intro other
      rw [snapshots_cons taken, acceptDiscovery_checkpoint new accepted]
      split
      · rename_i mine
        rw [mine.2]
        rfl
      · exact kept.checkpoint other

def Unadvanced (before after : Option PresenceRow) : Prop := after = before ∨ IsReset after

theorem Unadvanced.trans {a b c : Option PresenceRow} (first : Unadvanced a b) (second : Unadvanced b c) :
    Unadvanced a c := by
  rcases second with rfl | reset
  · exact first
  · exact .inr reset

theorem foldlM_upsertService_unadvanced (h : eps.foldlM (upsertService agent newId now) v = .ok u) :
    Unadvanced (presenceOf v id) (presenceOf u id) := by
  refine foldlM_invariant (fun w : Inventory => Unadvanced (presenceOf v id) (presenceOf w id)) h (.inl rfl) ?_
  intro w w' ep _ stored before
  obtain ⟨own, -, presence⟩ := upsertService_ok stored
  refine before.trans ?_
  rw [presence]
  split
  · exact .inr (isReset_seenAt own now)
  · exact .inl rfl

theorem reconcileRecord_unadvanced {record : EndpointRow × Option PresenceRow}
    (incomplete : d.listenerCoverageComplete = false) :
    Unadvanced (presenceOf v id) (presenceOf (reconcileRecord canonical d v record) id) := by
  unfold reconcileRecord
  cases canonical record.1.dialTarget with
  | none => exact .inl rfl
  | some target =>
    dsimp only
    split
    · rw [presenceOf_upsert]
      split
      · exact .inr (isReset_seenAt _ _)
      · exact .inl rfl
    · rw [if_pos (by simp [incomplete])]
      exact .inl rfl

theorem reconcileInventory_unadvanced (incomplete : d.listenerCoverageComplete = false) :
    Unadvanced (presenceOf v id) (presenceOf (reconcileInventory canonical agent d v) id) := by
  have loop : ∀ records v, Unadvanced (presenceOf v id)
      (presenceOf (List.foldl (reconcileRecord canonical d) v records) id) := by
    intro records
    induction records with
    | nil => exact fun v => .inl rfl
    | cons record rest ih => exact fun v => (reconcileRecord_unadvanced incomplete).trans (ih _)
  unfold reconcileInventory
  split
  · exact .inl rfl
  · exact loop _ v

theorem acceptDiscovery_unadvanced (h : acceptDiscovery canonical agent newId now payload d v = .ok u) (id : String) :
    Unadvanced (presenceOf v id) (presenceOf u id) ∨ d.inventoryVersion = 1 ∧ d.listenerCoverageComplete := by
  unfold acceptDiscovery at h
  split at h
  · obtain ⟨w, stored, h⟩ := bind_ok.mp h
    cases h
    have first : Unadvanced (presenceOf v id) (presenceOf w id) :=
      foldlM_upsertService_unadvanced (v := { v with scans := v.scans.upsert ⟨agent, payload⟩ }) stored
    by_cases version : d.inventoryVersion = 1
    · cases complete : d.listenerCoverageComplete with
      | true => exact .inr ⟨version, rfl⟩
      | false => exact .inl (first.trans (reconcileInventory_unadvanced complete))
    · left
      rwa [reconcileInventory_other fun counted => absurd counted version]
  · cases h
    exact .inl (.inl rfl)

/-- A service becomes missing only by the second of two complete scans without its target, a minute apart
with nothing between that shows it. -/
theorem missing_after_two_scans (f : Formats) (events : List Event) :
    let m := run (ServiceAbsence.step f) .start events
    (∀ e, let m' := ServiceAbsence.step f m e
      (∀ r ∈ m'.inventory.services, isListenerService r → IsMissing (presenceOf m'.inventory r.id) →
        ¬IsMissing (presenceOf m.inventory r.id) → ∃ d, m'.scansOf r.agentId = d :: m.scansOf r.agentId ∧
          SecondWithout f.canonical (m.scansOf r.agentId) d r) ∧
      (∀ id, Unadvanced (presenceOf m.inventory id) (presenceOf m'.inventory id) ∨
        ∃ agent d, m'.taken = (agent, d) :: m.taken ∧ d.inventoryVersion = 1 ∧ d.listenerCoverageComplete ∧
          ∀ x ∈ m.snapshots agent, x.startedAt < d.startedAt)) ∧
    (∀ agent, (m.snapshots agent).Pairwise fun later earlier => earlier.startedAt < later.startedAt) ∧
    (∀ agent, m.inventory.checkpoint agent = (m.snapshots agent).head?.map (checkpointRow agent)) := by
  have kept : Kept f (run (ServiceAbsence.step f) .start events) :=
    run_preserves (Kept f) (fun _ e kept => kept.step e) (kept_start f) events
  generalize run (ServiceAbsence.step f) .start events = m at kept
  refine ⟨fun e => ⟨fun r mem listener gone was => ?_, fun id => ?_⟩, kept.rising, kept.checkpoint⟩
  · rcases step_cases f m e with ⟨-, same⟩ | ⟨agent, newId, now, payload, d, taken, new, accepted⟩
    · rw [same] at gone
      exact absurd gone was
    · obtain ⟨-, explained⟩ := acceptDiscovery_explained kept.logical kept.explained new accepted
      rcases (explained r mem listener).2 gone with before | ⟨mine, second⟩
      · exact absurd before was
      · refine ⟨d, ?_, mine ▸ second⟩
        rw [scansOf_cons taken, if_pos mine, mine]
  · rcases step_cases f m e with ⟨-, same⟩ | ⟨agent, newId, now, payload, d, taken, new, accepted⟩
    · rw [same]
      exact .inl (.inl rfl)
    · rcases acceptDiscovery_unadvanced accepted id with kept_ | ⟨version, complete⟩
      · exact .inl kept_
      · exact .inr ⟨agent, d, taken, version, complete, kept.newer version new⟩

def threeScans : Formats :=
  { formats with
    delta := fun body =>
      if body = "seen" then
        ⟨1, true, ["127.0.0.1:80"], "snapshot", 1,
          [⟨"127.0.0.1:80", "http://127.0.0.1", "", "", true, false, "nginx", "listener"⟩], [], minute, minute⟩
      else if body = "gone" then ⟨1, true, [], "snapshot", 0, [], [], 2 * minute, 2 * minute⟩
      else ⟨1, true, [], "snapshot", 0, [], [], 3 * minute, 3 * minute⟩ }

def scanReport (n : Int) (body : String) : Event :=
  .accept { IngestionSafety.firstReport true with
    sequence := n, observedAt := n * minute, discovery := some ⟨n * minute, [], 0, 0, body⟩ } (callAt (n * minute))

def scanned : List Event :=
  [.other ⟨{ Store.empty with agents := ⟨[IngestionSafety.reportingAgent], List.nodup_singleton _⟩ }, .empty⟩,
    scanReport 1 "seen", scanReport 2 "gone"]

def scannedService : EndpointRow :=
  ⟨"", "a1", "http://127.0.0.1", "http://127.0.0.1", "127.0.0.1:80", "", "", "nginx", "listener", true, false, minute,
    minute, some minute⟩

theorem missing_after_third_report :
    let m := run (ServiceAbsence.step threeScans) .start scanned
    ∃ r ∈ (ServiceAbsence.step threeScans m (scanReport 3 "again")).inventory.services,
      isListenerService r ∧ ∃ d, SecondWithout threeScans.canonical (m.scansOf r.agentId) d r := by
  intro m
  have there : scannedService ∈ (ServiceAbsence.step threeScans m (scanReport 3 "again")).inventory.services.rows := by decide +kernel
  have gone : presenceOf (ServiceAbsence.step threeScans m (scanReport 3 "again")).inventory scannedService.id =
      some ⟨"", .missing, some minute, some (2 * minute), 2⟩ := by decide +kernel
  have before : presenceOf m.inventory scannedService.id = some ⟨"", .unconfirmed, some minute, some (2 * minute), 1⟩ := by
    decide +kernel
  have was : ¬IsMissing (presenceOf m.inventory scannedService.id) := by
    rw [before]
    simp [IsMissing]
  obtain ⟨d, -, second⟩ := ((missing_after_two_scans threeScans scanned).1 (scanReport 3 "again")).1 scannedService there
    (by decide +kernel) ⟨_, gone, rfl⟩ was
  exact ⟨scannedService, there, by decide +kernel, d, second⟩

end Monik.ServiceAbsence
