import Mathlib.Data.List.Sort
import Monik.AppliedConfig
import Monik.EncodedText

/-! The checks that a discovered inventory adds to an agent's desired configuration. Its row is read
in one state of the database and written in a later one. -/

namespace Monik.BaselineChecks
open Tables ControllerStore Registration ConfigRevisions Runs
open AppliedConfig (System)

variable {Rest Other : Type}

/-- `rest` stands for the fields that are only copied. -/
structure CheckDefinition (Rest : Type) where
  (id serviceId kind url dialTarget method hostHeader tlsServerName : String)
  (timeoutSeconds intervalSeconds : Int)
  (paused ignored : Bool)
  rest : Rest
  deriving DecidableEq, Encodable

structure AgentConfig (Rest Other : Type) where
  discoveryDisabledTargets : List String
  autoMonitorNew : Bool
  checks : List (CheckDefinition Rest)
  rest : Other
  deriving Encodable

structure CheckSuggestion (Rest : Type) where
  definition : CheckDefinition Rest
  confidence : String
  autoEligible : Bool

structure DiscoveredEndpoint (Rest : Type) where
  suggestions : List (CheckSuggestion Rest)
  (serviceId dialTarget url hostHeader tlsServerName : String)
  speaksHttp : Bool

/-- Two capabilities of the agent, the owner and the dial target of a service, and the two values
that `idgen.New` has for the check at a place. -/
structure Call where
  (supportsCustom supportsSelective : Bool)
  service : String → Option (String × String)
  newId : Nat → String × String

structure Codec (Rest Other : Type) extends Configs (AgentConfig Rest Other) where
  parse_json : ∀ c, parse (json c) = some c

def baseline [Inhabited Rest] (ep : DiscoveredEndpoint Rest) (id : String) : CheckDefinition Rest :=
  ⟨id, ep.serviceId, "baseline_http", ep.url, ep.dialTarget, "GET", ep.hostHeader, ep.tlsServerName, 2, 5, false, false,
    default⟩

def CheckSuggestion.eligible (s : CheckSuggestion Rest) : Bool := s.autoEligible && s.confidence == "high"

def newCheck [Inhabited Rest] (call : Call) (autoMonitorNew : Bool) (ids : String × String)
    (ep : DiscoveredEndpoint Rest) : CheckDefinition Rest :=
  let d := match (if call.supportsCustom then ep.suggestions.find? CheckSuggestion.eligible else none) with
    | some s => { s.definition with id := ids.2, serviceId := ep.serviceId }
    | none => baseline ep ids.1
  { d with paused := !autoMonitorNew }

/-- `known` has the services of the checks so far. -/
def visit [Inhabited Rest] (call : Call) (autoMonitorNew : Bool) (checks : List (CheckDefinition Rest))
    (ep : DiscoveredEndpoint Rest) : List (CheckDefinition Rest) :=
  if !ep.speaksHttp || (checks.map (·.serviceId)).contains ep.serviceId then checks
  else checks ++ [newCheck call autoMonitorNew (call.newId checks.length) ep]

def disabledTarget (call : Call) (agentId : String) (seen : List String) (d : CheckDefinition Rest) :
    Except String (List String) :=
  if !d.paused && !d.ignored then .ok seen
  else
    match call.service d.serviceId with
    | some (owner, target) =>
      if owner ≠ agentId then .error "disabled service is not owned by this agent"
      else .ok (if target = "" then seen else seen.insert target)
    | none => .error "disabled service is not owned by this agent"

def monitoringExclusions (call : Call) (agentId : String) (cfg : AgentConfig Rest Other) :
    Except String (AgentConfig Rest Other) := do
  if !call.supportsSelective then return { cfg with discoveryDisabledTargets := [] }
  let seen ← cfg.checks.foldlM (disabledTarget call agentId) []
  return { cfg with discoveryDisabledTargets := seen.insertionSort (· ≤ ·) }

def stored (k : Codec Rest Other) (desiredConfig : String) : Option (AgentConfig Rest Other) :=
  if desiredConfig = "" then some k.initial else k.parse desiredConfig

def ensureBaselineChecks [Inhabited Rest] (k : Codec Rest Other) (call : Call) (seen r : Registry) (agentId : String)
    (endpoints : List (DiscoveredEndpoint Rest)) : Except StoreError Registry :=
  if endpoints.isEmpty then .ok r
  else
    match seen.store.agent agentId, seen.details.find? fun d => d.agentId == agentId with
    | some a, some d =>
      match stored k d.desiredConfig with
      | none => .error (.refused "invalid JSON")
      | some cfg =>
        let checks := endpoints.foldl (visit call cfg.autoMonitorNew) cfg.checks
        if checks.length = cfg.checks.length then .ok r
        else
          match monitoringExclusions call agentId { cfg with checks } with
          | .error text => .error (.refused text)
          | .ok cfg =>
            if k.valid cfg then
              ConfigRevisions.ensureBaselineChecks r ⟨agentId, a.desiredRevision, k.json cfg, k.hashConfig cfg⟩
            else .error (.refused "invalid configuration")
    | _, _ => .error .notFound

/-- The check is the endpoint's baseline, or a suggestion of high confidence for automatic use. -/
def Proposed [Inhabited Rest] (ep : DiscoveredEndpoint Rest) (c : CheckDefinition Rest) : Prop :=
  c.serviceId = ep.serviceId ∧
    (c = { baseline ep c.id with paused := c.paused } ∨ ∃ s ∈ ep.suggestions, s.autoEligible ∧
      s.confidence = "high" ∧ c = { s.definition with id := c.id, serviceId := c.serviceId, paused := c.paused })

structure Extends [Inhabited Rest] (endpoints : List (DiscoveredEndpoint Rest))
    (old added : List (CheckDefinition Rest)) : Prop where
  once : (added.map (·.serviceId)).Nodup
  services : ∀ id, id ∈ added.map (·.serviceId) ↔
    id ∉ old.map (·.serviceId) ∧ ∃ ep ∈ endpoints, ep.speaksHttp ∧ ep.serviceId = id
  proposed : ∀ c ∈ added, ∃ ep ∈ endpoints, ep.speaksHttp ∧ Proposed ep c

/-- The agent's next revision extends the checks of the one it replaces. -/
def Extended [Inhabited Rest] (k : Codec Rest Other) (r r' : Registry) (agentId : String)
    (endpoints : List (DiscoveredEndpoint Rest)) : Prop :=
  ∃ a, ∃ d ∈ r.details, ∃ cfg cfg' added, d.agentId = agentId ∧ stored k d.desiredConfig = some cfg ∧
    Publishes r r' agentId (a.desiredRevision + 1) (k.hashConfig cfg') (k.json cfg') a ∧
    k.parse (k.json cfg') = some cfg' ∧ cfg'.checks = cfg.checks ++ added ∧ added ≠ [] ∧
    Extends endpoints cfg.checks added ∧
    cfg' = { cfg with checks := cfg'.checks, discoveryDisabledTargets := cfg'.discoveryDisabledTargets }

theorem monitoringExclusions_ok {call : Call} {agentId : String} {cfg cfg' : AgentConfig Rest Other}
    (h : monitoringExclusions call agentId cfg = .ok cfg') :
    cfg' = { cfg with discoveryDisabledTargets := cfg'.discoveryDisabledTargets } := by
  unfold monitoringExclusions at h
  split at h
  · cases h
    rfl
  · obtain ⟨seen, -, h⟩ := bind_ok.mp h
    cases h
    rfl

variable [Inhabited Rest] {auto : Bool} {old added : List (CheckDefinition Rest)}
  {past endpoints : List (DiscoveredEndpoint Rest)} {ep : DiscoveredEndpoint Rest}

theorem newCheck_proposed (call : Call) (auto : Bool) (ids : String × String) (ep : DiscoveredEndpoint Rest) :
    Proposed ep (newCheck call auto ids ep) := by
  unfold newCheck
  split
  · rename_i s first
    split at first
    · have good := List.find?_some first
      simp only [CheckSuggestion.eligible, Bool.and_eq_true, beq_iff_eq] at good
      exact ⟨rfl, .inr ⟨s, List.mem_of_find?_eq_some first, good.1, good.2, rfl⟩⟩
    · cases first
  · exact ⟨rfl, .inl rfl⟩

theorem visit_extends (call : Call) (auto : Bool) (ep : DiscoveredEndpoint Rest) (h : Extends past old added) :
    ∃ added', visit call auto (old ++ added) ep = old ++ added' ∧ Extends (past ++ [ep]) old added' := by
  have once := h.once
  have services := h.services
  have shown := h.proposed
  unfold visit
  split
  · exact ⟨added, rfl, once, by grind, by grind⟩
  · rename_i taken
    have proposed := newCheck_proposed call auto (call.newId (old ++ added).length) ep
    generalize newCheck call auto _ ep = c at *
    have same := proposed.1
    simp only [Bool.or_eq_true, Bool.not_eq_true', not_or, Bool.not_eq_false, List.contains_iff_mem, List.map_append,
      List.mem_append] at taken
    refine ⟨added ++ [c], List.append_assoc _ _ _, ?_, fun id => ?_, fun x hx => ?_⟩
    · simp only [List.map_append, List.nodup_append]
      grind
    · simp only [List.map_append, List.mem_append, services, List.map_cons, List.map_nil, List.mem_singleton, same]
      grind
    · rcases List.mem_append.mp hx with before | last
      · grind
      · rw [List.mem_singleton.mp last]
        exact ⟨ep, by simp, taken.1, proposed⟩

theorem visits_extend (call : Call) (auto : Bool) (endpoints : List (DiscoveredEndpoint Rest)) (h : Extends past old added) :
    ∃ added', endpoints.foldl (visit call auto) (old ++ added) = old ++ added' ∧
      Extends (past ++ endpoints) old added' := by
  induction endpoints generalizing past added with
  | nil => exact ⟨added, rfl, by rwa [List.append_nil]⟩
  | cons ep rest ih =>
    obtain ⟨added', visited, h'⟩ := visit_extends call auto ep h
    rw [List.append_cons, List.foldl_cons, visited]
    exact ih h'

variable {seen now : Registry}

/-- A revision that stands for what was read is written only over what was read. -/
theorem publishes_unchanged (seenBook : Book seen) (book : Book now) (grows : Grows seen now) {a : AgentRow}
    {d : DetailRow} {agentId hash body : String} {r' : Registry} (ha : a ∈ seen.store.agents)
    (owner : a.id = agentId) (hd : d ∈ seen.details) (owned : d.agentId = agentId)
    (h : ConfigRevisions.ensureBaselineChecks now ⟨agentId, a.desiredRevision, body, hash⟩ = .ok r') :
    ∃ b, ∃ e ∈ now.details, e.agentId = agentId ∧ e.desiredConfig = d.desiredConfig ∧
      Publishes now r' agentId (b.desiredRevision + 1) hash body b := by
  unfold ConfigRevisions.ensureBaselineChecks setDesired at h
  obtain ⟨b, publishes, below⟩ := writeDesired_ok h
  have below := of_decide_eq_true below
  have lower := publishes.rises book below
  obtain ⟨c, hc, same, -, above⟩ := grows.agents a ha
  obtain rfl := Table.eq_of_key now.store.agents hc publishes.mem (same.trans (owner.trans publishes.owner.symm))
  have unmoved : c.desiredRevision = a.desiredRevision := by dsimp only at lower; omega
  obtain ⟨e, he, ownerE, -⟩ := book.desired c hc
  have text := seenBook.same_desired book grows ha hc same unmoved hd he (owned.trans owner.symm)
    (ownerE.trans same)
  refine ⟨c, e, he, ownerE.trans publishes.owner, text.2, ?_⟩
  rw [unmoved]
  exact publishes

theorem ensureBaselineChecks_ok (seenBook : Book seen) (book : Book now) (grows : Grows seen now)
    {k : Codec Rest Other} {call : Call} {agentId : String} {r' : Registry}
    (h : ensureBaselineChecks k call seen now agentId endpoints = .ok r') :
    r' = now ∨ Extended k now r' agentId endpoints := by
  unfold ensureBaselineChecks at h
  split at h
  · cases h
    exact .inl rfl
  split at h
  · rename_i a d found detail
    split at h
    · cases h
    rename_i cfg read
    have start : Extends [] cfg.checks [] := ⟨List.nodup_nil, by simp, by simp⟩
    obtain ⟨added, checks, extended⟩ := visits_extend call cfg.autoMonitorNew endpoints start
    rw [List.append_nil] at checks
    dsimp only at h
    rw [checks] at h
    split_ifs at h with unchanged
    · cases h
      exact .inl rfl
    split at h
    · cases h
    rename_i cfg' excluded
    split_ifs at h
    obtain ⟨ha, owner⟩ := Table.find?_key.mp found
    obtain ⟨hd, owned⟩ := Table.find?_key.mp detail
    obtain ⟨b, e, he, ownerE, text, publishes⟩ :=
      publishes_unchanged seenBook book grows ha owner hd owned h
    have kept := monitoringExclusions_ok excluded
    refine .inr ⟨b, e, he, cfg, cfg', added, ownerE, text ▸ read, publishes, k.parse_json cfg', ?_, ?_, extended, ?_⟩
    · rw [kept]
    · rintro rfl
      simp at unchanged
    · rw [kept]
  · cases h

/-- For every inventory, whatever is written before the reading and between it and the publication; a
failed call leaves the database as it was. -/
theorem discovery_keeps_monitoring_choices (k : Codec Rest Other) (call : Call) (me agentId : String)
    (before between : List (AppliedConfig.Event (AgentConfig Rest Other)))
    (endpoints : List (DiscoveredEndpoint Rest)) :
    let seen := run (AppliedConfig.step k.toConfigs me) System.initial before
    let now := (run (AppliedConfig.step k.toConfigs me) seen between).registry
    let r' := (ensureBaselineChecks k call seen.registry now agentId endpoints).toOption.getD now
    r' = now ∨ Extended k now r' agentId endpoints := by
  intro seen now r'
  have first := (AppliedConfig.run_agrees (AppliedConfig.initial_agrees k.toConfigs me) before).1
  obtain ⟨last, forward⟩ := AppliedConfig.run_agrees first between
  cases result : ensureBaselineChecks k call seen.registry now agentId endpoints with
  | error e => exact .inl (by simp [r', result, Except.toOption])
  | ok u =>
    have ended : r' = u := by simp [r', result, Except.toOption]
    rw [ended]
    exact ensureBaselineChecks_ok first.book last.book forward.grows result

/-! An enrolled agent with one check finds a service twice, with a suggestion, and its old one again. -/

def oldCheck : CheckDefinition Unit :=
  ⟨"c1", "old", "http", "http://127.0.0.1:80/", "127.0.0.1:80", "GET", "", "", 2, 5, true, false, ()⟩

def suggested : CheckSuggestion Unit := ⟨{ oldCheck with url := "http://127.0.0.1:81/readyz" }, "high", true⟩

def enrolledConfig : AgentConfig Unit Unit := ⟨[], true, [oldCheck], ()⟩

def textCodec : Codec Unit Unit where
  hashToken t := t
  sha256 t := t
  defaultConfig _ := EncodedText.marshal enrolledConfig
  json := EncodedText.marshal
  parse := EncodedText.unmarshal
  valid _ := true
  initial := ⟨[], true, [], ()⟩
  parse_json := EncodedText.unmarshal_marshal

def newService : DiscoveredEndpoint Unit := ⟨[suggested], "new", "127.0.0.1:81", "", "", "", true⟩

def inventory : List (DiscoveredEndpoint Unit) :=
  [newService, { newService with suggestions := [] }, { newService with serviceId := "old" }]

def selectiveCall : Call := ⟨true, false, fun _ => none, fun _ => ("c2", "c3")⟩

/-- The suggestion of the first endpoint, in the place of the second check. -/
def extendedConfig : AgentConfig Unit Unit :=
  { enrolledConfig with
    checks := [oldCheck, { suggested.definition with id := "c3", serviceId := "new", paused := false }] }

theorem stored_json (c : AgentConfig Unit Unit) : stored textCodec (textCodec.json c) = some c := by
  have some_text : textCodec.json c ≠ "" := EncodedText.marshal_ne_empty c
  rw [stored, if_neg some_text]
  exact textCodec.parse_json c


theorem inventory_extends (seen now : Registry) {a : AgentRow} {d : DetailRow} (found : seen.store.agent "a1" = some a)
    (detail : (seen.details.find? fun d => d.agentId == "a1") = some d)
    (text : d.desiredConfig = textCodec.json enrolledConfig) (first : a.desiredRevision = 1) :
    ensureBaselineChecks textCodec selectiveCall seen now "a1" inventory = ConfigRevisions.ensureBaselineChecks now
      ⟨"a1", 1, textCodec.json extendedConfig, textCodec.hashConfig extendedConfig⟩ := by
  have checks : inventory.foldl (visit selectiveCall enrolledConfig.autoMonitorNew) enrolledConfig.checks =
      extendedConfig.checks := by decide +kernel
  have more : ¬extendedConfig.checks.length = enrolledConfig.checks.length := by decide
  have kept : monitoringExclusions selectiveCall "a1" { enrolledConfig with checks := extendedConfig.checks } =
      .ok extendedConfig := rfl
  have valid : textCodec.valid extendedConfig := rfl
  have listed : inventory.isEmpty = false := rfl
  unfold ensureBaselineChecks
  simp only [listed, found, detail, text, stored_json, checks, if_neg more, kept, valid, first, if_true,
    Bool.false_eq_true, if_false]

def registered : System (AgentConfig Unit Unit) :=
  run (AppliedConfig.step textCodec.toConfigs "a1") System.initial
    [.register "a1" "host" "host" "linux" "amd64" "verifier"]

theorem new_service_published_once :
    let now := (run (AppliedConfig.step textCodec.toConfigs "a1") registered [.other Store.empty id]).registry
    let r' := (ensureBaselineChecks textCodec selectiveCall registered.registry now "a1" inventory).toOption.getD now
    Extended textCodec now r' "a1" inventory ∧
      (r'.revisions.rows.map fun v => (v.revision, v.body)) =
        [(1, textCodec.json enrolledConfig), (2, textCodec.json extendedConfig)] := by
  intro now r'
  have written : ∀ body hash, ∃ r, ConfigRevisions.ensureBaselineChecks now ⟨"a1", 1, body, hash⟩ = .ok r ∧
      (r.revisions.rows.map fun v => (v.revision, v.body)) = [(1, textCodec.json enrolledConfig), (2, body)] :=
    fun _ _ => ⟨_, rfl, rfl⟩
  obtain ⟨r, published, rows⟩ := written (textCodec.json extendedConfig) (textCodec.hashConfig extendedConfig)
  have result : r' = r := by
    have extended := inventory_extends registered.registry now rfl rfl rfl rfl
    simp only [r', extended, published]
    rfl
  rcases discovery_keeps_monitoring_choices textCodec selectiveCall "a1" "a1"
    [.register "a1" "host" "host" "linux" "amd64" "verifier"] [.other Store.empty id] inventory with same | extended
  · have one : now.revisions.rows.length = 1 := rfl
    have two := congrArg List.length rows
    rw [← result, show r' = now from same, List.length_map, one] at two
    cases two
  · exact ⟨extended, result ▸ rows⟩

end Monik.BaselineChecks
