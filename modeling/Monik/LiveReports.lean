import Mathlib.Data.List.Chain
import Mathlib.Tactic.Linarith
import Monik.IngestionSafety
import Monik.ServiceInventory
import Monik.SparkBudget

/-! Live reports over whole runs. The live state of an agent is taken from a report only if that is
live, of a new session or a higher sequence number, and not observed before the last one; its time
is read from its receipt or, once that is deleted, bounded by the admission window. -/

namespace Monik.LiveReports
open Protocol Tables ControllerStore Ingestion SparkIngestion ServiceInventory Runs

variable {c : Codec} {s s' : Store} {ag : AgentRow} {rep r : AgentReport} {call : Call} {out : AcceptedReport}
    {clock readAt now : Time} {t : RawTable}

structure LiveStore where
  spark : SparkStore
  inventory : Inventory

/-- How payloads are read: the two codecs, the text of a discovery, and `CanonicalListenerTarget`. -/
structure Formats where
  codec : Codec
  json : SparkJson
  delta : String → DiscoveryDelta
  canonical : Canonical

structure LiveCall extends Call where
  classified : Bool
  newId : DiscoveredEndpoint → String

variable (f : Formats)

def inventoryCall (s : LiveStore) (rep : AgentReport) (call : LiveCall) : Call :=
  match rep.discovery with
  | none => call.toCall
  | some d =>
    let accepted := acceptDiscovery f.canonical rep.agentId call.newId call.received d.body
      (f.delta d.body) s.inventory
    { call.toCall with
      inventoryValid := validateInventory f.canonical (f.delta d.body) rep.observedAt call.opened == none
      discovered := (accepted.map Inventory.owners).toOption }

def acceptReport (s : LiveStore) (rep : AgentReport) (call : LiveCall) :
    Except StoreError (LiveStore × AcceptedReport) := do
  let (spark, out) ← SparkIngestion.acceptReport f.json f.codec s.spark rep (inventoryCall f s rep call)
    call.classified
  match rep.discovery with
  | none => .ok ({ s with spark }, out)
  | some d =>
    if out.live then do
      let inventory ← acceptDiscovery f.canonical rep.agentId call.newId call.received d.body
        (f.delta d.body) s.inventory
      .ok (⟨spark, inventory⟩, out)
    else .ok ({ s with spark }, out)

theorem inventoryCall_clock (s : LiveStore) (rep : AgentReport) (call : LiveCall) :
    (inventoryCall f s rep call).opened = call.opened ∧ (inventoryCall f s rep call).received = call.received := by
  unfold inventoryCall
  split <;> exact ⟨rfl, rfl⟩

structure Accepted (c : Codec) (s s' : Store) (rep : AgentReport) (call : Call) (out : AcceptedReport) :
    Prop where
  named : rep.sessionId ≠ ""
  window : inWindow rep.observedAt call.opened
  idle : out.live = false → s'.agents = s.agents ∧ s'.services = s.services
  duplicate : out.duplicate → s' = s ∧ out.live = false
  fresh : out.duplicate = false → Added c s s' rep call
  live : out.live → ∃ ag, s.agent rep.agentId = some ag ∧ isLive s ag rep ∧
    s'.agents = s.agents.update (fun a => a.id == rep.agentId) (touchAgent rep call) fun _ => rfl

theorem commitReport_live (h : commitReport c s ag rep call = .ok (s', out)) :
    out.live = isLive s ag rep ∧ (out.live = false → s'.agents = s.agents ∧ s'.services = s.services) ∧
      (out.live → s'.agents =
        s.agents.update (fun a => a.id == rep.agentId) (touchAgent rep call) fun _ => rfl) := by
  unfold commitReport at h
  split at h
  · cases h
  split at h
  · cases h
  obtain ⟨u, hu, h⟩ := bind_ok.mp h
  dsimp only at h
  split at h <;> cases h
  obtain ⟨⟨samples, rfl⟩, -⟩ := insertSparkSample_ok hu
  obtain ⟨rows, hosts, -⟩ := insertHostSample_ok s rep call.received
  rw [hosts]
  refine ⟨rfl, fun idle => ?_, fun live => ?_⟩
  · dsimp only at idle
    rw [if_neg (by simp [idle])]
    exact ⟨rfl, rfl⟩
  · rw [if_pos live]
    rfl

theorem acceptReport_accepted (h : Ingestion.acceptReport c s rep call = .ok (s', out)) :
    Accepted c s s' rep call out := by
  obtain ⟨window, outcome⟩ := acceptReport_ok h
  unfold Ingestion.acceptReport at h
  split at h
  · cases h
  rename_i admitted
  have named : rep.sessionId ≠ "" := by
    unfold refusal at admitted
    split_ifs at admitted with identity
    simp only [not_or] at identity
    exact identity.2.2.1
  split at h
  · cases h
  rename_i ag found
  split at h
  · cases h
  split at h
  · split at h
    · cases h
    · cases h
      exact ⟨named, window, fun _ => ⟨rfl, rfl⟩, fun _ => ⟨rfl, rfl⟩, fun new => Bool.noConfusion new,
        fun live => Bool.noConfusion live⟩
  · obtain ⟨new, added⟩ := commitReport_ok h
    obtain ⟨same, idle, touched⟩ := commitReport_live h
    refine ⟨named, window, idle, fun duplicate => ?_, fun _ => added, fun live =>
      ⟨ag, found, same ▸ live, touched live⟩⟩
    rw [new] at duplicate
    cases duplicate

/-- The whole call: the tables of ingestion as before, and without liveness neither
`spark_latest` nor the inventory is written. -/
theorem acceptReport_cases {f : Formats} {s s' : LiveStore} {call : LiveCall} (h : acceptReport f s rep call = .ok (s', out)) :
    (∃ answered : Call, answered.opened = call.opened ∧ answered.received = call.received ∧
      Accepted f.codec s.spark.store s'.spark.store rep answered out) ∧
      (out.live = false → s'.spark.latest = s.spark.latest ∧ s'.inventory = s.inventory) := by
  obtain ⟨⟨spark, out'⟩, accepted, h⟩ := bind_ok.mp h
  obtain ⟨ingested, latest⟩ := SparkBudget.acceptReport_cases accepted
  have clock := inventoryCall_clock f s rep call
  have written : s'.spark = spark ∧ out = out' ∧ (out.live = false → s'.inventory = s.inventory) := by
    dsimp only at h
    split at h
    · cases h
      exact ⟨rfl, rfl, fun _ => rfl⟩
    · split at h
      · rename_i live
        obtain ⟨inventory, -, h⟩ := bind_ok.mp h
        cases h
        refine ⟨rfl, rfl, fun idle => ?_⟩
        rw [live] at idle
        cases idle
      · cases h
        exact ⟨rfl, rfl, fun _ => rfl⟩
  obtain ⟨rfl, rfl, inventory⟩ := written
  refine ⟨⟨sparkCall f.json rep (inventoryCall f s rep call), clock.1, clock.2,
    acceptReport_accepted ingested⟩, fun idle => ⟨?_, inventory idle⟩⟩
  obtain same | ⟨_, -, live, -⟩ := latest
  · exact same
  · rw [idle] at live
    cases live

structure Machine where
  store : LiveStore
  clock : Time
  live : List AgentReport

abbrev Machine.tables (m : Machine) : Store := m.store.spark.store

def Machine.of (m : Machine) (agent : String) : List AgentReport :=
  m.live.filter fun r => r.agentId == agent

inductive Event
  | accept (rep : AgentReport) (call : LiveCall)
  /-- One deletion of a cleanup pass that read the clock at `readAt`. -/
  | delete (table : RawTable) (readAt now : Time)
  | retain (now : Time) (budget : Nat)
  | enroll (a : AgentRow)
  /-- Other transactions: they write any column but the session and its sequence number, and any
  table but the receipts and the times of the scans. -/
  | other (rewrite : AgentRow → AgentRow) (s : LiveStore)

def setTables (s : LiveStore) (store : Store) : LiveStore := { s with spark := { s.spark with store } }

def keepSession (rewrite : AgentRow → AgentRow) (a : AgentRow) : AgentRow :=
  { rewrite a with id := a.id, sessionId := a.sessionId, lastSeq := a.lastSeq }

def step (m : Machine) : Event → Machine
  | .accept rep call =>
    match acceptReport f m.store rep call with
    | .error _ => { m with clock := call.received }
    | .ok (store, out) =>
      { store, clock := call.received, live := if out.live then m.live ++ [rep] else m.live }
  | .delete table readAt now =>
    { m with store := setTables m.store (deleteBatch rawRetention readAt m.tables table).1, clock := now }
  | .retain now budget =>
    { m with store := setTables m.store (retainRaw rawRetention now budget m.tables), clock := now }
  | .enroll a =>
    match m.tables.agents.insert { a with sessionId := "", lastSeq := 0 } with
    | none => m
    | some agents => { m with store := setTables m.store { m.tables with agents } }
  | .other rewrite s =>
    let agents := m.tables.agents.update (fun _ => true) (keepSession rewrite) fun _ => rfl
    let inventory := { s.inventory with checkpoints := m.store.inventory.checkpoints }
    { m with store := setTables { s with inventory } { s.spark.store with agents, ingests := m.tables.ingests } }

def Timely (m : Machine) : Event → Prop
  | .accept _ call => m.clock ≤ call.opened ∧ call.opened ≤ call.received
  | .delete _ readAt now => readAt ≤ now ∧ m.clock ≤ now
  | .retain now _ => m.clock ≤ now
  | _ => True

def initial (clock : Time) : Machine := ⟨⟨⟨.empty, .empty⟩, .empty⟩, clock, []⟩

/-- The report's receipt is there, or reports admitted now are later; no receipt under its identity is
earlier. -/
structure Known (ingests : Table IngestRow IngestRow.key) (clock : Time) (r : AgentReport) : Prop where
  receipt : (∃ i ∈ ingests, i.key = r.key) ∨ r.observedAt < clock - rawRetention
  bound : ∀ i ∈ ingests, i.key = r.key → r.observedAt ≤ i.observedAt

def Current (m : Machine) (a : AgentRow) : Prop :=
  m.of a.id = [] ∧ a.sessionId = "" ∨
    ∃ r, (m.of a.id).getLast? = some r ∧ a.sessionId = r.sessionId ∧ a.lastSeq = r.sequence ∧
      Known m.tables.ingests m.clock r

def Precedes (x y : AgentReport) : Prop :=
  x.observedAt ≤ y.observedAt ∧ (x.sessionId = y.sessionId → x.sequence < y.sequence)

structure Forward (m : Machine) : Prop where
  rising : ∀ agent, (m.of agent).IsChain Precedes
  near : ∀ i ∈ m.tables.ingests, i.observedAt ≤ i.receivedAt + 5 * minute
  current : ∀ a ∈ m.tables.agents, Current m a
  enrolled : ∀ r ∈ m.live, r.sessionId ≠ "" ∧ ∃ a ∈ m.tables.agents, a.id = r.agentId

theorem Known.later {ingests : Table IngestRow IngestRow.key} {clock' : Time}
    (h : Known ingests clock r) (le : clock ≤ clock') : Known ingests clock' r :=
  ⟨h.receipt.imp_right fun old => lt_of_lt_of_le old (Int.sub_le_sub_right le _), h.bound⟩

theorem Known.delete (h : Known s.ingests clock r) (near : ∀ i ∈ s.ingests, i.observedAt ≤ i.receivedAt + 5 * minute)
    (read : readAt ≤ now) (le : clock ≤ now) : Known (deleteBatch rawRetention readAt s t).1.ingests now r := by
  refine ⟨?_, fun i hi => h.bound i (deleteBatch_ingests_sub hi)⟩
  obtain ⟨i, hi, same⟩ | old := (h.later le).receipt
  · by_cases young : readAt - 2 * rawRetention ≤ i.receivedAt
    · exact .inl ⟨i, deleteBatch_ingests hi young, same⟩
    · right
      have late : i.receivedAt < readAt - 2 * rawRetention := not_le.mp young
      have skew : (5 : Int) * minute ≤ rawRetention := by decide
      calc r.observedAt ≤ i.observedAt := h.bound i hi same
        _ ≤ i.receivedAt + 5 * minute := near i hi
        _ < readAt - 2 * rawRetention + 5 * minute := by linarith
        _ ≤ now - rawRetention := by linarith
  · exact .inr old

theorem deleteBatch_agents (maxAge now : Time) (s : Store) (t : RawTable) :
    (deleteBatch maxAge now s t).1.agents = s.agents := by
  cases t <;> rfl

variable {m : Machine}

theorem Forward.delete (h : Forward m) (read : readAt ≤ now) (le : m.clock ≤ now) :
    Forward { m with store := setTables m.store (deleteBatch rawRetention readAt m.tables t).1, clock := now } where
  rising := h.rising
  near := fun i hi => h.near i (deleteBatch_ingests_sub hi)
  current := by
    intro a ha
    have ha' : a ∈ m.tables.agents := deleteBatch_agents rawRetention readAt m.tables t ▸ ha
    obtain none' | ⟨r, last, session, seq, known⟩ := h.current a ha'
    · exact .inl none'
    · exact .inr ⟨r, last, session, seq, known.delete h.near read le⟩
  enrolled := by
    intro r hr
    obtain ⟨session, a, ha, named⟩ := h.enrolled r hr
    exact ⟨session, a, (deleteBatch_agents rawRetention readAt m.tables t).symm ▸ ha, named⟩

theorem Forward.tick (h : Forward m) (le : m.clock ≤ now) : Forward { m with clock := now } where
  rising := h.rising
  near := h.near
  current := by
    intro a ha
    obtain none' | ⟨r, last, session, seq, known⟩ := h.current a ha
    · exact .inl none'
    · exact .inr ⟨r, last, session, seq, known.later le⟩
  enrolled := h.enrolled

theorem Forward.retain {budget : Nat} (h : Forward m) (le : m.clock ≤ now) :
    Forward { m with store := setTables m.store (retainRaw rawRetention now budget m.tables), clock := now } := by
  obtain ⟨done, same⟩ := retainRaw_batches rawRetention now budget m.tables
  rw [same]
  clear same
  induction done generalizing m with
  | nil => exact h.tick le
  | cons t done ih => exact ih (h.delete (t := t) le_rfl le) le_rfl

theorem Forward.enroll (h : Forward m) (a : AgentRow) : Forward (step f m (.enroll a)) := by
  dsimp only [step]
  split
  · exact h
  rename_i agents inserted
  obtain ⟨fresh, mem⟩ := Table.insert_some inserted
  refine ⟨h.rising, h.near, fun b hb => ?_, fun r hr => ?_⟩
  · obtain old | rfl := (mem b).mp hb
    · exact h.current b old
    · refine .inl ⟨List.filter_eq_nil_iff.mpr fun r hr mine => ?_, rfl⟩
      obtain ⟨-, b, hb, named⟩ := h.enrolled r hr
      exact fresh b hb (named.trans (beq_iff_eq.mp mine))
  · obtain ⟨session, b, hb, named⟩ := h.enrolled r hr
    exact ⟨session, b, (mem b).mpr (.inl hb), named⟩

theorem Forward.other (h : Forward m) (rewrite : AgentRow → AgentRow) (s : LiveStore) :
    Forward (step f m (.other rewrite s)) := by
  have mem : ∀ b, b ∈ (step f m (.other rewrite s)).tables.agents ↔
      ∃ a ∈ m.tables.agents, keepSession rewrite a = b := fun b =>
    Table.mem_update (f := keepSession rewrite) fun _ => rfl
  refine ⟨h.rising, h.near, fun b hb => ?_, fun r hr => ?_⟩
  · obtain ⟨a, ha, rfl⟩ := (mem b).mp hb
    exact h.current a ha
  · obtain ⟨session, a, ha, named⟩ := h.enrolled r hr
    exact ⟨session, keepSession rewrite a, (mem _).mpr ⟨a, ha, rfl⟩, named⟩

theorem Known.accept (h : Known s.ingests clock r) (added : Added c s s' rep call) (opened : clock ≤ call.opened)
    (received : call.opened ≤ call.received) (window : inWindow rep.observedAt call.opened) :
    Known s'.ingests call.received r := by
  have le : clock ≤ call.received := opened.trans received
  constructor
  · obtain ⟨i, hi, same⟩ | old := (h.later le).receipt
    · exact .inl ⟨i, (added.receipt i).mpr (.inl hi), same⟩
    · exact .inr old
  · intro i hi same
    obtain hi | rfl := (added.receipt i).mp hi
    · exact h.bound i hi same
    · obtain ⟨i, hi, same'⟩ | old := h.receipt
      · exact absurd (same'.trans same.symm) (added.fresh i hi)
      · simp only [inWindow, Bool.and_eq_true, decide_eq_true_eq] at window
        have before : r.observedAt < call.opened - rawRetention :=
          lt_of_lt_of_le old (Int.sub_le_sub_right opened _)
        exact (le_of_lt before).trans window.1

theorem Known.self (added : Added c s s' rep call) : Known s'.ingests clock rep := by
  refine ⟨.inl ⟨_, (added.receipt _).mpr (.inr rfl), rfl⟩, fun i hi same => ?_⟩
  obtain hi | rfl := (added.receipt i).mp hi
  · exact absurd same (added.fresh i hi)
  · exact le_rfl

theorem follows_last {opened : Time}
    (live : isLive s ag rep) (session : ag.sessionId = r.sessionId) (seq : ag.lastSeq = r.sequence)
    (named : r.sessionId ≠ "") (mine : r.agentId = rep.agentId) (known : Known s.ingests clock r)
    (le : clock ≤ opened) (window : inWindow rep.observedAt opened) :
    Precedes r rep := by
  simp only [isLive, Bool.and_eq_true, Bool.or_eq_true, bne_iff_ne, beq_iff_eq, decide_eq_true_eq,
    session, seq, named, false_or] at live
  obtain ⟨⟨-, newer⟩, observed⟩ := live
  refine ⟨?_, fun same => newer.resolve_left fun differs => differs same⟩
  obtain ⟨i, hi, key⟩ | old := known.receipt
  · simp only [IngestRow.key, AgentReport.key, Prod.mk.injEq] at key
    have found : (s.ingests.find? fun i => i.agentId == rep.agentId && i.sessionId == r.sessionId &&
        i.seq == r.sequence) = some i := by
      refine Table.find?_eq_some hi (by simp [key, mine]) fun j picked => ?_
      simp only [Bool.and_eq_true, beq_iff_eq] at picked
      simp [IngestRow.key, key, mine, picked]
    rw [found, Option.all_some, decide_eq_true_eq] at observed
    exact (known.bound i hi (by simp [IngestRow.key, AgentReport.key, key])).trans observed
  · simp only [inWindow, Bool.and_eq_true, decide_eq_true_eq] at window
    have before : r.observedAt < opened - rawRetention :=
      lt_of_lt_of_le old (Int.sub_le_sub_right le _)
    exact (le_of_lt before).trans window.1

theorem mem_of {agent : String} : r ∈ m.of agent ↔ r ∈ m.live ∧ r.agentId = agent := by
  simp [Machine.of]

theorem Forward.backfill {m' : Machine} (h : Forward m) (live : m'.live = m.live)
    (agents : m'.tables.agents = m.tables.agents)
    (near : ∀ i ∈ m'.tables.ingests, i.observedAt ≤ i.receivedAt + 5 * minute)
    (known : ∀ r, Known m.tables.ingests m.clock r → Known m'.tables.ingests m'.clock r) : Forward m' := by
  have same : ∀ agent, m'.of agent = m.of agent := fun agent => by rw [Machine.of, live, Machine.of]
  refine ⟨fun agent => same agent ▸ h.rising agent, near,
    fun a ha => ?_, fun r hr => ?_⟩
  · unfold Current
    rw [same]
    exact (h.current a (agents ▸ ha)).imp_right fun ⟨r, last, session, seq, before⟩ =>
      ⟨r, last, session, seq, known r before⟩
  · rw [agents]
    exact h.enrolled r (live ▸ hr)

theorem Forward.follows (h : Forward m) (accepted : Accepted c m.tables s' rep call out)
    (opened : m.clock ≤ call.opened) (live : out.live) (last : (m.of rep.agentId).getLast? = some r) :
    Precedes r rep := by
  obtain ⟨ag, found, isLive, -⟩ := accepted.live live
  obtain ⟨present, named⟩ := agent_eq_some.mp found
  obtain ⟨none', -⟩ | ⟨r', last', session, seq, known⟩ := h.current ag present
  · rw [← named, none'] at last
    cases last
  · rw [named, last] at last'
    cases last'
    obtain ⟨seen, mine⟩ := mem_of.mp (List.mem_of_getLast? last)
    exact follows_last isLive session seq (h.enrolled r seen).1 mine known opened accepted.window

theorem Forward.append (h : Forward m) {store : LiveStore} {answered : Call}
    (near : ∀ i ∈ store.spark.store.ingests, i.observedAt ≤ i.receivedAt + 5 * minute)
    (known : ∀ r, Known m.tables.ingests m.clock r → Known store.spark.store.ingests now r)
    (follows : ∀ r, (m.of rep.agentId).getLast? = some r → Precedes r rep)
    (itself : Known store.spark.store.ingests now rep) (named : rep.sessionId ≠ "")
    (present : ∃ a ∈ m.tables.agents, a.id = rep.agentId)
    (mem : ∀ b, b ∈ store.spark.store.agents ↔ ∃ a ∈ m.tables.agents,
    (if a.id == rep.agentId then touchAgent rep answered a else a) = b) :
    Forward ⟨store, now, m.live ++ [rep]⟩ := by
  have mine : (Machine.mk store now (m.live ++ [rep])).of rep.agentId = m.of rep.agentId ++ [rep] := by
    simp [Machine.of]
  have others : ∀ agent, agent ≠ rep.agentId →
      (Machine.mk store now (m.live ++ [rep])).of agent = m.of agent := by
    intro agent other
    simp [Machine.of, Ne.symm other]
  constructor
  · intro agent
    by_cases same : agent = rep.agentId
    · rw [same, mine, List.isChain_append]
      refine ⟨h.rising rep.agentId, List.isChain_singleton _, fun x hx y hy => ?_⟩
      cases hy
      exact follows x hx
    · rw [others agent same]
      exact h.rising agent
  · exact near
  · intro b hb
    obtain ⟨a, ha, rfl⟩ := (mem b).mp hb
    split
    · rename_i selected
      have same := beq_iff_eq.mp selected
      refine .inr ⟨rep, ?_, rfl, rfl, itself⟩
      change ((Machine.mk store now (m.live ++ [rep])).of a.id).getLast? = some rep
      rw [same, mine]
      exact List.getLast?_concat
    · rename_i unselected
      have other : a.id ≠ rep.agentId := fun same => unselected (beq_iff_eq.mpr same)
      unfold Current
      rw [others a.id other]
      exact (h.current a ha).imp_right fun ⟨r, last, session, seq, before⟩ =>
        ⟨r, last, session, seq, known r before⟩
  · have still : ∀ a ∈ m.tables.agents, ∃ b ∈ store.spark.store.agents, b.id = a.id := by
      intro a ha
      refine ⟨_, (mem _).mpr ⟨a, ha, rfl⟩, ?_⟩
      split <;> rfl
    intro r hr
    obtain hr | hr := List.mem_append.mp hr
    · obtain ⟨session, a, ha, owner⟩ := h.enrolled r hr
      obtain ⟨b, hb, same⟩ := still a ha
      exact ⟨session, b, hb, same.trans owner⟩
    · obtain rfl := List.mem_singleton.mp hr
      obtain ⟨a, ha, owner⟩ := present
      obtain ⟨b, hb, same⟩ := still a ha
      exact ⟨named, b, hb, same.trans owner⟩

theorem Forward.accept (h : Forward m) (rep : AgentReport) (call : LiveCall) (timely : Timely m (.accept rep call)) :
    Forward (step f m (.accept rep call)) := by
  obtain ⟨opened, received⟩ := timely
  have le : m.clock ≤ call.received := opened.trans received
  dsimp only [step]
  split
  · exact h.tick le
  rename_i store out result
  obtain ⟨⟨answered, same, same', accepted⟩, -⟩ := acceptReport_cases result
  cases duplicate : out.duplicate with
  | true =>
    obtain ⟨kept, idle⟩ := accepted.duplicate duplicate
    rw [if_neg (by simp [idle])]
    have ingests : store.spark.store.ingests = m.tables.ingests := congrArg Store.ingests kept
    refine h.backfill rfl (congrArg Store.agents kept) (fun i hi => h.near i (ingests ▸ hi)) fun r known => ?_
    rw [ingests]
    exact known.later le
  | false =>
    have added := accepted.fresh duplicate
    have near : ∀ i ∈ store.spark.store.ingests, i.observedAt ≤ i.receivedAt + 5 * minute := by
      intro i hi
      obtain hi | rfl := (added.receipt i).mp hi
      · exact h.near i hi
      · have window := accepted.window
        simp only [inWindow, Bool.and_eq_true, decide_eq_true_eq] at window
        have skew : answered.opened + 5 * minute ≤ answered.received + 5 * minute :=
          Int.add_le_add_right (by rw [same, same']; exact received) _
        exact window.2.trans skew
    have known : ∀ r, Known m.tables.ingests m.clock r →
        Known store.spark.store.ingests call.received r := by
      intro r before
      rw [← same'] at received ⊢
      rw [← same] at received opened
      exact before.accept added opened received accepted.window
    cases live : out.live with
    | false => exact h.backfill rfl (accepted.idle live).1 near known
    | true =>
      obtain ⟨ag, found, -, touched⟩ := accepted.live live
      have mem : ∀ b, b ∈ store.spark.store.agents ↔ ∃ a ∈ m.tables.agents,
          (if a.id == rep.agentId then touchAgent rep answered a else a) = b := by
        intro b
        rw [touched]
        exact Table.mem_update (f := touchAgent rep answered) fun _ => rfl
      exact h.append near known (fun r last => h.follows accepted (same ▸ opened) live last)
        (.self added) accepted.named ⟨ag, agent_eq_some.mp found⟩ mem

theorem step_forward (m : Machine) (e : Event) (h : Forward m) (timely : Timely m e) : Forward (step f m e) := by
  cases e with
  | accept rep call => exact h.accept f rep call timely
  | delete table readAt now => exact h.delete timely.1 timely.2
  | retain now budget => exact h.retain timely
  | enroll a => exact h.enroll f a
  | other rewrite s => exact h.other f rewrite s

theorem initial_forward (clock : Time) : Forward (initial clock) where
  rising := fun _ => List.isChain_nil
  near := fun i hi => absurd hi (Table.not_mem_empty i)
  current := fun a ha => absurd ha (Table.not_mem_empty a)
  enrolled := fun _ hr => absurd hr List.not_mem_nil

instance observedTrans : IsTrans AgentReport fun x y => x.observedAt ≤ y.observedAt :=
  ⟨fun _ _ _ h h' => le_trans h h'⟩

/-- The observation times of an agent's live reports never decrease, successive ones of a session have
increasing numbers, and other reports change nothing of the live state. -/
theorem live_state_moves_forward (clock : Time) (events : List Event)
    (timely : Meets (step f) Timely (initial clock) events) :
    (∀ agent, ((run (step f) (initial clock) events).of agent).Pairwise
      fun x y => x.observedAt ≤ y.observedAt) ∧
    (∀ agent, ((run (step f) (initial clock) events).of agent).IsChain
      fun x y => x.sessionId = y.sessionId → x.sequence < y.sequence) ∧
    ∀ s s' rep call out, acceptReport f s rep call = .ok (s', out) →
      out.live = false ∨ out.duplicate →
        s'.spark.store.agents = s.spark.store.agents ∧ s'.spark.latest = s.spark.latest ∧
          s'.spark.store.services = s.spark.store.services ∧ s'.inventory = s.inventory := by
  have forward := run_invariant Forward (step_forward f) (initial_forward clock) timely
  refine ⟨fun agent => ?_, fun agent => ?_, fun s s' rep call out accepted quiet => ?_⟩
  · exact List.isChain_iff_pairwise.mp ((forward.rising agent).imp fun _ _ both => both.1)
  · exact (forward.rising agent).imp fun _ _ both => both.2
  · obtain ⟨⟨answered, -, -, ingested⟩, frame⟩ := acceptReport_cases accepted
    have idle : out.live = false := quiet.elim id fun duplicate => (ingested.duplicate duplicate).2
    exact ⟨(ingested.idle idle).1, (frame idle).1, (ingested.idle idle).2, (frame idle).2⟩

def formats : Formats := ⟨⟨AgentReport.rest, id⟩, ⟨fun _ => "", fun _ => none⟩, fun _ => ⟨0, false, [], "", 0, [], [], 0, 0⟩, some⟩

def callAt (now : Time) : LiveCall := ⟨IngestionSafety.callAt now, false, fun _ => ""⟩

def sessionChange : List Event :=
  let first := IngestionSafety.firstReport true
  [.enroll IngestionSafety.reportingAgent, .accept first (callAt 0), .retain (100 * hour) 8,
    .accept { first with sessionId := "s2", observedAt := 100 * hour } (callAt (100 * hour)),
    .accept { first with sequence := 2, observedAt := 99 * hour } (callAt (101 * hour))]

theorem live_state_moves_forward_session :
    (((run (step formats) (initial 0) sessionChange).of "a1").map AgentReport.sessionId = ["s1", "s2"]) ∧
      ((run (step formats) (initial 0) sessionChange).of "a1").Pairwise
        fun x y => x.observedAt ≤ y.observedAt := by
  refine ⟨by decide +kernel, (live_state_moves_forward formats 0 sessionChange ?_).1 "a1"⟩
  refine ⟨trivial, ?_, ?_, ?_, ?_, trivial⟩ <;> unfold Timely <;> decide +kernel

end Monik.LiveReports
