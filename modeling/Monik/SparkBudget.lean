import Monik.Runs
import Monik.SparkIngestion

/-! When a valid live report is refused for its Spark extension: the lists united over packets are
bounded, and a report that would outgrow them is refused as a whole. -/

namespace Monik.SparkBudget
open Protocol Tables ControllerStore Ingestion KeyedMerge SparkProjection SparkIngestion Runs

inductive Event
  | report (rep : AgentReport) (call : Call) (classified : Bool)
  | other (store : Store)

def step (json : SparkJson) (c : Codec) (s : SparkStore) : Event → SparkStore
  | .report rep call classified =>
    match SparkIngestion.acceptReport json c s rep call classified with
    | .ok (s, _) => s
    | .error _ => s
  | .other store => { s with store }

def HasRoom (current : Option (String × SparkExtension)) (r : SparkExtension) : Prop :=
  ∀ before c, current = some (before, c) →
    (c.metrics.map SparkMetric.metricId ++ r.metrics.map SparkMetric.metricId).dedup.length ≤ 512 ∧
    (c.modelStates.map SparkModelState.profileId ++
      r.modelStates.map SparkModelState.profileId).dedup.length ≤ 64 ∧
    ∀ i b, r.inventory = some i → c.inventory = some b → b.observedAt < i.observedAt →
      i.complete = false →
      ((b.profiles.map SparkProfile.profileId ++ i.profiles.map SparkProfile.profileId).filter
        fun id => !i.removedProfileIds.contains id).dedup.length ≤ 64

def Bounded (s : SparkStore) : Prop :=
  ∀ row ∈ s.latest, ∀ i, row.payload.inventory = some i → i.profiles.length ≤ 64

variable {json : SparkJson} {codec : Codec} {s s' : SparkStore} {rep : AgentReport} {call : Call}
  {classified : Bool} {r : SparkExtension}

theorem pruneStates_inventory (m : SparkExtension) : (pruneStates m).inventory = m.inventory := by
  unfold pruneStates
  split <;> simp [*]

theorem withinBudget_iff {m : SparkExtension} :
    withinBudget m ↔ m.metrics.length ≤ 512 ∧ m.modelStates.length ≤ 64 ∧
      ∀ i, m.inventory = some i → i.profiles.length ≤ 64 := by
  simp [withinBudget, Option.all_eq_true, and_assoc]

theorem acceptLatest_ok {received : Time} {latest : Table LatestRow LatestRow.agentId}
    (h : acceptLatest s rep r received classified = .ok latest) :
    let merged := mergeSpark (s.snapshot rep.agentId classified) rep.sessionId r
    withinBudget merged ∧
      latest = s.latest.upsert
        ⟨rep.agentId, rep.sessionId, rep.sequence, rep.observedAt, received, pruneStates merged⟩ := by
  unfold acceptLatest at h
  dsimp only at h
  split at h
  · cases h
  · rename_i fits
    simp only [Bool.not_eq_true, Bool.not_eq_false'] at fits
    cases h
    exact ⟨fits, rfl⟩

theorem acceptReport_cases {out : AcceptedReport}
    (h : SparkIngestion.acceptReport json codec s rep call classified = .ok (s', out)) :
    Ingestion.acceptReport codec s.store rep (sparkCall json rep call) = .ok (s'.store, out) ∧ (s'.latest = s.latest ∨
        ∃ r, rep.spark.bind json.unmarshal = some r ∧ out.live ∧
          acceptLatest s rep r call.received classified = .ok s'.latest) := by
  unfold SparkIngestion.acceptReport at h
  split at h
  · cases h
  rename_i store out' accepted
  split at h
  · cases h
    exact ⟨accepted, .inl rfl⟩
  rename_i r extension
  split at h
  · rename_i live
    split at h
    · cases h
    · rename_i latest merged
      cases h
      exact ⟨accepted, .inr ⟨r, extension, live, merged⟩⟩
  · cases h
    exact ⟨accepted, .inl rfl⟩

theorem Bounded.step (h : Bounded s) (e : Event) : Bounded (step json codec s e) := by
  cases e with
  | other store => exact h
  | report rep call classified =>
    simp only [SparkBudget.step]
    split
    · rename_i u out accepted
      obtain ⟨-, same | ⟨r, -, -, stored⟩⟩ := acceptReport_cases accepted
      · intro row hrow
        rw [same] at hrow
        exact h row hrow
      · obtain ⟨fits, latest⟩ := acceptLatest_ok stored
        intro row hrow i hi
        rw [latest] at hrow
        obtain ⟨old, -⟩ | rfl := Table.mem_upsert.mp hrow
        · exact h row old i hi
        · rw [pruneStates_inventory] at hi
          exact (withinBudget_iff.mp fits).2.2 i hi
    · exact h

theorem mergeInventory_length {old new : Option SparkInventory}
    (oldBounded : ∀ b, old = some b → b.profiles.length ≤ 64)
    (newBounded : ∀ i, new = some i → i.profiles.length ≤ 64) :
    (∀ i, mergeInventory old new = some i → i.profiles.length ≤ 64) ↔
      ∀ i b, new = some i → old = some b → b.observedAt < i.observedAt → i.complete = false →
        ((b.profiles.map SparkProfile.profileId ++ i.profiles.map SparkProfile.profileId).filter
          fun id => !i.removedProfileIds.contains id).dedup.length ≤ 64 := by
  cases new with
  | none => simpa [mergeInventory] using oldBounded
  | some i =>
    cases old with
    | none => simpa [mergeInventory] using newBounded
    | some b =>
      have merged := length_mergeAll SparkProfile.profileId i.removedProfileIds b.profiles i.profiles
      constructor
      · rintro bounded _ _ ⟨⟩ ⟨⟩ newer incomplete
        have laid : mergeInventory (some b) (some i) = some { i with
            profiles := mergeAll SparkProfile.profileId i.removedProfileIds b.profiles i.profiles } := by
          simp [mergeInventory, newer, incomplete]
        rw [← merged]
        exact bounded _ laid
      · intro room m hm
        unfold mergeInventory at hm
        dsimp only at hm
        split at hm
        · exact oldBounded m hm
        rename_i newer
        split at hm
        · exact newBounded m hm
        rename_i incomplete
        cases hm
        have bound := room i b rfl rfl (not_le.mp newer) (by simpa using incomplete)
        rw [← merged] at bound
        exact bound

theorem validateSpark_bounds {report now : Time} (valid : validateSpark r report now = none) :
    r.metrics.length ≤ 512 ∧ r.modelStates.length ≤ 64 ∧ ∀ i, r.inventory = some i → i.profiles.length ≤ 64 := by
  unfold validateSpark at valid
  split at valid
  · cases valid
  rename_i small
  simp only [Bool.or_eq_true, not_or, decide_eq_true_eq, not_lt] at small
  refine ⟨small.1.2, small.2, fun i hi => ?_⟩
  have checked : checkInventory i report now = none := by
    have rest := (Option.or_eq_none_iff.mp (Option.or_eq_none_iff.mp valid).2).1
    rw [hi] at rest
    exact rest
  unfold checkInventory at checked
  split at checked
  · cases checked
  rename_i fields
  simp only [Bool.or_eq_true, not_or, decide_eq_true_eq, not_lt] at fields
  exact fields.1.2

theorem withinBudget_merge {current : Option (String × SparkExtension)} {session : String}
    {report now : Time} (valid : validateSpark r report now = none)
    (bounded : ∀ before c, current = some (before, c) → ∀ b, c.inventory = some b → b.profiles.length ≤ 64) :
    withinBudget (mergeSpark current session r) ↔ HasRoom current r := by
  have limits := validateSpark_bounds valid
  rw [withinBudget_iff]
  cases current with
  | none => exact ⟨fun _ => nofun, fun _ => limits⟩
  | some current =>
    obtain ⟨before, c⟩ := current
    have inventory := mergeInventory_length (bounded before c rfl) limits.2.2
    have metrics := length_mergeNewer SparkMetric.metricId
      (fun m => m.observation.observedAt) c.metrics r.metrics
    have states := length_mergeNewer SparkModelState.profileId
      SparkModelState.observedAt c.modelStates r.modelStates
    simp only [mergeSpark, mergeMetrics, mergeStates, metrics, states, inventory, HasRoom,
      Option.some.injEq, Prod.mk.injEq]
    constructor
    · rintro room _ _ ⟨rfl, rfl⟩
      exact room
    · exact fun room => room before c ⟨rfl, rfl⟩

theorem Bounded.snapshot (h : Bounded s) {agent before : String} {c : SparkExtension}
    (found : s.snapshot agent classified = some (before, c)) {b : SparkInventory}
    (hb : c.inventory = some b) : b.profiles.length ≤ 64 := by
  unfold SparkStore.snapshot at found
  split at found
  · rename_i row stored
    cases found
    exact h row (Table.find?_some stored).1 b hb
  · split at found
    · cases found
      cases hb
    · cases found

/-- After any reports, a valid live report that the other tables accept is committed exactly if
there is room for the identifiers it brings. -/
theorem spark_report_committed_iff (json : SparkJson) (codec : Codec) (store : Store)
    (events : List Event) (rep : AgentReport) (call : Call) (classified : Bool) (r : SparkExtension)
    (extension : rep.spark.bind json.unmarshal = some r)
    (valid : validateSpark r rep.observedAt call.opened = none) :
    let s := run (step json codec) ⟨store, .empty⟩ events
    (∃ u, Ingestion.acceptReport codec s.store rep (sparkCall json rep call) = .ok (u, ⟨false, true⟩)) →
      ((∃ u, SparkIngestion.acceptReport json codec s rep call classified = .ok (u, ⟨false, true⟩)) ↔
        HasRoom (s.snapshot rep.agentId classified) r) := by
  rintro s ⟨u, accepted⟩
  have bounded : Bounded s := run_preserves Bounded (fun _ e h => h.step e) (fun _ h => absurd h (Table.not_mem_empty _)) events
  have fits : withinBudget (mergeSpark (s.snapshot rep.agentId classified) rep.sessionId r) ↔
      HasRoom (s.snapshot rep.agentId classified) r :=
    withinBudget_merge valid fun _ _ found _ hb => bounded.snapshot found hb
  rw [← fits]
  unfold SparkIngestion.acceptReport acceptLatest
  simp only [accepted, extension, if_true]
  cases withinBudget (mergeSpark (s.snapshot rep.agentId classified) rep.sessionId r) with
  | true => simp
  | false => simp

def letters : List Char := ['a', 'b', 'c', 'd', 'e', 'f', 'g', 'h']

def names : List String := letters.flatMap fun a => letters.map fun b => String.ofList [a, b]

def stopped (id : String) : SparkModelState := ⟨id, 0, minute, .stopped, .notApplicable, .ok, ""⟩

def revision : String := "sha256:" ++ String.ofList (List.replicate 64 '0')

def profile (id : String) : SparkProfile :=
  { logAllowed := false, profileId := id, displayName := id, profileRevision := revision
    engine := .unknown, supervisor := .unknown, controlAllowed := false, controlReason := "observed"
    configuredModelRef := "", settings := [], allowedActions := [], engineVersion := none
    supervisorVersion := none, endpointHint := none, modelAliases := [] }

def earlier : SparkExtension := ⟨1, .unknown, [], none, names.map stopped, none⟩

def fewer : SparkExtension := ⟨1, .unknown, [], none, (names.drop 1).map stopped, none⟩

def later : SparkExtension :=
  ⟨1, .unknown, [], some ⟨revision, true, minute, [profile "q"], []⟩, [stopped "q"], none⟩

def texts : SparkJson where
  marshal _ := ""
  unmarshal text := [("earlier", earlier), ("fewer", fewer), ("later", later)].lookup text

def hashes : Codec := ⟨fun rep => rep.rest, fun text => text⟩

def enrolled : Store :=
  { Store.empty with
    agents := ⟨[⟨"a1", false, false, true, "general", "linux", "amd64", true, "", "d1", none, 0, "", 0,
      "c1", 0, 0⟩], by simp⟩ }

def packet (sequence : Int) (text : String) : AgentReport :=
  { agentFlavor := "spark-light", schemaVersion := schemaVersion, agentId := "a1", sessionId := "s1", sequence
    observedAt := minute, reportedAt := minute, configRevision := 0, configHash := "", endpointGeneration := 0
    workerDigest := "", managedReady := false, immutableRelease := false, host := none, checks := []
    discovery := none, spark := some text, jobReceipts := [], isLive := true, rest := text }

def atMinute : Call := ⟨minute, minute, minute, false, true, true, false, false, none⟩

theorem last_free_state_committed :
    let s := run (step texts hashes) ⟨enrolled, .empty⟩ [.report (packet 1 "fewer") atMinute false]
    s.snapshot "a1" false = some ("s1", fewer) ∧
      ∃ u, SparkIngestion.acceptReport texts hashes s (packet 2 "later") atMinute false =
        .ok (u, ⟨false, true⟩) := by
  intro s
  have stored : s.snapshot "a1" false = some ("s1", fewer) := by decide +kernel
  refine ⟨stored, (spark_report_committed_iff texts hashes enrolled _ (packet 2 "later") atMinute false later
    rfl (by decide +kernel) ⟨_, rfl⟩).mpr ?_⟩
  intro before c found
  cases stored.symm.trans found
  exact ⟨by decide +kernel, by decide +kernel, nofun⟩

theorem replaced_profiles_refused :
    let s := run (step texts hashes) ⟨enrolled, .empty⟩ [.report (packet 1 "earlier") atMinute false]
    validateSpark later minute minute = none ∧
      ((Ingestion.acceptReport hashes s.store (packet 2 "later")
        (sparkCall texts (packet 2 "later") atMinute)).toOption.map Prod.snd) = some ⟨false, true⟩ ∧
      (SparkIngestion.acceptReport texts hashes s (packet 2 "later") atMinute false).toOption.isNone ∧
      (pruneStates (mergeSpark (s.snapshot "a1" false) "s1" later)).modelStates = [stopped "q"] := by
  decide +kernel

end Monik.SparkBudget
