import Monik.IncidentRuns

/-! Host rules and their incidents (`storage/monitoring_policy.go`, `evalHostIncidents`). A new
version closes every open host incident and its streaks; an observation is judged by the version in
force when it was made, while it still is. Percentages are rational; the table of versions holds
host rules only. -/

namespace Monik.HostRules
open Protocol Tables Runs ControllerStore Incidents IncidentRuns

structure HostThreshold where
  metric : String
  warning : Rat
  critical : Rat
  recovery : Rat
  persistSeconds : Int
  recoverSeconds : Int

def defaultThresholds : List HostThreshold :=
  [⟨"cpu", 85, 95, 80, 60, 30⟩, ⟨"ram", 85, 95, 80, 60, 30⟩, ⟨"disk", 85, 95, 80, 60, 30⟩]

def thresholdError (r : HostThreshold) : Option String :=
  if r.recovery < 0 ∨ r.warning ≤ r.recovery ∨ r.warning < 1 ∨ r.critical ≤ r.warning ∨ 100 < r.critical then
    some "require 0 <= recovery < warning < critical <= 100"
  else if r.persistSeconds < 5 ∨ 3600 < r.persistSeconds ∨ r.recoverSeconds < 5 ∨ 3600 < r.recoverSeconds then
    some "durations must be 5..3600 seconds"
  else none

def thresholdsError (seen : List String) : List HostThreshold → Option String
  | [] => none
  | r :: rest =>
    if (r.metric ≠ "cpu" ∧ r.metric ≠ "ram" ∧ r.metric ≠ "disk") ∨ seen.contains r.metric then
      some "unknown or duplicate metric"
    else
      match thresholdError r with
      | some e => some e
      | none => thresholdsError (r.metric :: seen) rest

def validateThresholds (list : List HostThreshold) : Option String :=
  if list.length ≠ 3 then some "exactly one cpu, ram and disk rule is required" else thresholdsError [] list

structure RuleVersionRow where
  id : Int
  body : List HostThreshold
  effectiveFrom : Time
  effectiveTo : Option Time

structure HostRuleVersion where
  revision : Int
  effectiveFrom : Option Time
  rules : List HostThreshold

structure Save where
  base : Int
  revision : Int
  rules : List HostThreshold
  savedAt : Time

structure Monitoring where
  clock : Time
  versions : List RuleVersionRow
  store : IncidentStore
  saves : List Save

def Monitoring.start (clock : Time) : Monitoring := ⟨clock, [], .empty, []⟩

def Monitoring.revision (m : Monitoring) : Int := m.versions.foldr (fun v n => max v.id n) 0

def latestVersion (a b : RuleVersionRow) : Prop :=
  b.effectiveFrom < a.effectiveFrom ∨ b.effectiveFrom = a.effectiveFrom ∧ b.id ≤ a.id

instance : DecidableRel latestVersion := fun _ _ => inferInstanceAs (Decidable (_ ∨ _ ∧ _))

def RuleVersionRow.inForce (t : Time) (v : RuleVersionRow) : Bool :=
  decide (v.effectiveFrom ≤ t) && v.effectiveTo.all fun until_ => decide (t < until_)

def RuleVersionRow.version (v : RuleVersionRow) : HostRuleVersion := ⟨v.id, some v.effectiveFrom, v.body⟩

def defaultVersion : HostRuleVersion := ⟨0, none, defaultThresholds⟩

def Monitoring.hostRulesAt (m : Monitoring) (t : Time) : HostRuleVersion :=
  ((((m.versions.filter (RuleVersionRow.inForce t)).insertionSort latestVersion).head?).map
    RuleVersionRow.version).getD defaultVersion

def isHost (subject : Subject) : Bool :=
  subject.entityType == "agent" && (subject.metric == "cpu" || subject.metric == "ram" || subject.metric == "disk")

def policyChanged (now : Time) (r : IncidentRow) : IncidentRow :=
  { r with
    status := .policyChanged, resolvedAt := some now
    reason := r.reason ++ "; rule policy changed, not observed recovery" }

def closeHostIncidents (now : Time) (s : IncidentStore) : IncidentStore :=
  { s with
    incidents := s.incidents.update (fun r => isHost r.subject && r.isOpen) (policyChanged now) fun _ => rfl
    streaks := s.streaks.delete fun r => isHost r.subject }

def saveHostRules (m : Monitoring) (base : Int) (list : List HostThreshold) : Except StoreError Monitoring :=
  match validateThresholds list with
  | some e => .error (.refused e)
  | none =>
    if base < 0 ∨ m.revision ≠ base then .error .conflict
    else
      let id := m.revision + 1
      let closed := m.versions.map fun v =>
        if v.effectiveTo = none then { v with effectiveTo := some m.clock } else v
      .ok { m with
        versions := ⟨id, list, m.clock, none⟩ :: closed
        store := closeHostIncidents m.clock m.store
        saves := ⟨base, id, list, m.clock⟩ :: m.saves }

/-! Evaluation of a report. -/

structure HostMetrics where
  cpuPercent : Option Rat
  /-- the used part of the memory; `none` without a total -/
  ramPercent : Option Rat
  disks : List Rat

def fullest (disks : List Rat) : Rat := disks.foldl (fun value d => if value < d then d else value) 0

def HostMetrics.reading (h : HostMetrics) (metric : String) : Option Rat :=
  if metric = "cpu" then h.cpuPercent
  else if metric = "ram" then h.ramPercent
  else if metric = "disk" ∧ h.disks ≠ [] then some (fullest h.disks)
  else none

def evaluateHost (h : HostMetrics) (rules : List HostThreshold) : List (String × String) :=
  rules.filterMap fun r =>
    match h.reading r.metric with
    | none => none
    | some v =>
      if r.critical ≤ v then some (r.metric, "critical")
      else if r.warning ≤ v then some (r.metric, "warning")
      else none

def ruleThresholds (rule : HostThreshold) : Thresholds :=
  ⟨rule.persistSeconds * second, rule.recoverSeconds * second, staleContact, 1, 1⟩

/-- The observation of one rule. `describe` is the text of its reason. -/
def ruleObservation (describe : HostThreshold → Rat → Int → String) (version : HostRuleVersion) (agent : String)
    (h : HostMetrics) (at_ : Time) (maintenance : Bool) (rule : HostThreshold) : Observation :=
  let value := (h.reading rule.metric).getD 0
  let breach := (evaluateHost h version.rules).reverse.find? fun b => b.1 == rule.metric
  { subject := ⟨"agent", agent, rule.metric⟩, observedAt := at_, known := (h.reading rule.metric).isSome
    failed := breach.isSome, severity := (breach.map Prod.snd).getD "", reason := describe rule value version.revision
    ruleVersion := version.revision, holdRecovery := decide (rule.recovery < value), maintenance }

/-- A superseded version judges nothing. -/
def evalHostIncidents (describe : HostThreshold → Rat → Int → String) (m : Monitoring) (agent : String)
    (h : HostMetrics) (at_ : Time) (maintenance : Bool) : IncidentStore :=
  if m.clock + 5 * second < at_ ∨ staleContact < m.clock - at_ then m.store
  else
    let version := m.hostRulesAt at_
    if (m.hostRulesAt m.clock).revision ≠ version.revision then m.store
    else version.rules.foldl (fun s rule =>
      commit s (observeIncident (ruleThresholds rule) s
        (ruleObservation describe version agent h at_ maintenance rule))) m.store

def acknowledged (acked : Option (Time × String)) (r : IncidentRow) : IncidentRow := { r with acked }

inductive Event
  | pass (d : Nat)
  | saveHostRules (base : Int) (list : List HostThreshold)
  | report (agent : String) (h : HostMetrics) (at_ : Time) (maintenance : Bool)
  | service (t : Thresholds) (o : Observation)
  | acknowledge (id : Nat) (acked : Option (Time × String))

def step (describe : HostThreshold → Rat → Int → String) (m : Monitoring) : Event → Monitoring
  | .pass d => { m with clock := m.clock + d }
  | .saveHostRules base list => commit m (saveHostRules m base list)
  | .report agent h at_ maintenance => { m with store := evalHostIncidents describe m agent h at_ maintenance }
  | .service t o => { m with store := commit m.store (observeIncident t m.store
      { o with subject := { o.subject with entityType := "service" } }) }
  | .acknowledge id acked =>
    { m with store := { m.store with
        incidents := m.store.incidents.update (fun r => r.id == id) (acknowledged acked) fun _ => rfl } }

/-! The versions are the saves, each in force until the next. -/

variable {m : Monitoring} {saves : List Save} {until_ : Option Time} {t : Time}

def Save.version (s : Save) : HostRuleVersion := ⟨s.revision, some s.savedAt, s.rules⟩

def rowsUntil : Option Time → List Save → List RuleVersionRow
  | _, [] => []
  | until_, s :: rest => ⟨s.revision, s.rules, s.savedAt, until_⟩ :: rowsUntil (some s.savedAt) rest

def lastRevision (saves : List Save) : Int := (saves.head?.map Save.revision).getD 0

def Chained : List Save → Prop
  | [] => True
  | s :: rest => s.base = lastRevision rest ∧ s.revision = s.base + 1 ∧ (∀ p ∈ rest, p.savedAt ≤ s.savedAt) ∧ Chained rest

theorem maxId_rowsUntil (chained : Chained saves) :
    (rowsUntil until_ saves).foldr (fun v n => max v.id n) 0 = lastRevision saves := by
  induction saves generalizing until_ with
  | nil => rfl
  | cons s rest ih =>
    obtain ⟨base, revision, -, earlier⟩ := chained
    rw [rowsUntil, List.foldr_cons, ih earlier]
    have last : lastRevision (s :: rest) = s.revision := rfl
    refine max_eq_left ?_
    simp only [revision, base]
    omega

theorem rowsUntil_closed {v : RuleVersionRow} (mem : v ∈ rowsUntil (some t) saves) : v.effectiveTo ≠ none := by
  induction saves generalizing t with
  | nil => cases mem
  | cons s rest ih =>
    rcases List.mem_cons.mp mem with rfl | later
    · simp
    · exact ih later

theorem close_rowsUntil (now : Time) : ((rowsUntil none saves).map fun v =>
    if v.effectiveTo = none then { v with effectiveTo := some now } else v) = rowsUntil (some now) saves := by
  cases saves with
  | nil => rfl
  | cons s rest =>
    have same : ((rowsUntil (some s.savedAt) rest).map fun v =>
        if v.effectiveTo = none then { v with effectiveTo := some now } else v) = rowsUntil (some s.savedAt) rest := by
      refine (List.map_congr_left fun v mem => ?_).trans (List.map_id _)
      rw [if_neg (rowsUntil_closed mem)]
      rfl
    simp [rowsUntil, same]

theorem filter_rowsUntil (chained : Chained saves) (ends : ∀ u ∈ until_, ∀ s ∈ saves, s.savedAt ≤ u) :
    ((rowsUntil until_ saves).filter (RuleVersionRow.inForce t)).map RuleVersionRow.version =
      if until_.all fun u => decide (t < u) then ((saves.find? fun s => decide (s.savedAt ≤ t)).map Save.version).toList
      else [] := by
  induction saves generalizing until_ with
  | nil => simp [rowsUntil]
  | cons s rest ih =>
    obtain ⟨-, -, older, earlier⟩ := chained
    have rest_ := @ih (some s.savedAt) earlier (by simpa using older)
    rw [rowsUntil, List.filter_cons, List.find?_cons]
    by_cases begun : s.savedAt ≤ t
    · have ended : ((rowsUntil (some s.savedAt) rest).filter (RuleVersionRow.inForce t)).map RuleVersionRow.version = [] := by
        rw [rest_, if_neg (by simpa using begun)]
      cases still : until_.all fun u => decide (t < u) with
      | false => simp [RuleVersionRow.inForce, begun, still, ended]
      | true => simp [RuleVersionRow.inForce, begun, still, ended, RuleVersionRow.version, Save.version]
    · have still : (until_.all fun u => decide (t < u)) := by
        cases until_ with
        | none => rfl
        | some u => simpa using lt_of_lt_of_le (not_le.mp begun) (ends u rfl s (List.mem_cons_self ..))
      simp only [RuleVersionRow.inForce, begun, decide_false, Bool.false_and, Bool.false_eq_true, if_false, still, if_true]
      have pending : t < s.savedAt := not_le.mp begun
      simpa [pending, RuleVersionRow.inForce] using rest_

theorem head?_insertionSort {α β : Type} {le : α → α → Prop} [DecidableRel le] {l : List α} {f : α → β} {o : Option β}
    (h : l.map f = o.toList) : ((l.insertionSort le).head?).map f = o := by
  cases l with
  | nil =>
    cases o with
    | none => rfl
    | some b => simp at h
  | cons a rest =>
    cases o with
    | none => simp at h
    | some b =>
      simp only [List.map_cons, Option.toList_some, List.cons.injEq, List.map_eq_nil_iff] at h
      rw [h.2, ← h.1]
      rfl

structure Versioned (m : Monitoring) : Prop where
  rows : m.versions = rowsUntil none m.saves
  chained : Chained m.saves
  past : ∀ s ∈ m.saves, s.savedAt ≤ m.clock

theorem Versioned.revision (versioned : Versioned m) : m.revision = lastRevision m.saves := by
  rw [Monitoring.revision, versioned.rows, maxId_rowsUntil versioned.chained]

theorem Versioned.hostRulesAt (versioned : Versioned m) : m.hostRulesAt t =
    ((m.saves.find? fun s => decide (s.savedAt ≤ t)).map Save.version).getD defaultVersion := by
  rw [Monitoring.hostRulesAt, versioned.rows]
  congr 1
  refine head?_insertionSort ?_
  rw [filter_rowsUntil versioned.chained (by simp)]
  simp

theorem Versioned.current (versioned : Versioned m) : (m.hostRulesAt m.clock).revision = m.revision := by
  have past := versioned.past
  rw [versioned.hostRulesAt, versioned.revision]
  cases saved : m.saves with
  | nil => rfl
  | cons s rest =>
    rw [saved] at past
    rw [List.find?_cons_of_pos (by simpa using past s (List.mem_cons_self ..))]
    rfl

theorem Versioned.save {base : Int} {list : List HostThreshold} {after : Monitoring} (versioned : Versioned m)
    (h : saveHostRules m base list = .ok after) : Versioned after := by
  unfold saveHostRules at h
  split at h
  · cases h
  · split at h
    · cases h
    · rename_i fresh
      cases h
      have same : m.revision = base := not_not.mp (not_or.mp fresh).2
      refine ⟨?_, ⟨?_, ?_, versioned.past, versioned.chained⟩, ?_⟩
      · simp only [rowsUntil]
        rw [versioned.rows, close_rowsUntil]
      · rw [← same, versioned.revision]
      · simp only [same]
      · intro s mem
        rcases List.mem_cons.mp mem with rfl | old
        · exact le_refl _
        · exact versioned.past s old

theorem base_lt_lastRevision (chained : Chained saves) : ∀ s ∈ saves, s.base < lastRevision saves := by
  induction saves with
  | nil => simp
  | cons p rest ih =>
    obtain ⟨base, revision, -, earlier⟩ := chained
    have last : lastRevision (p :: rest) = p.base + 1 := revision
    intro s mem
    rcases List.mem_cons.mp mem with rfl | old
    · omega
    · have low := ih earlier s old
      omega

theorem nodup_bases (chained : Chained saves) : (saves.map Save.base).Nodup := by
  induction saves with
  | nil => simp
  | cons p rest ih =>
    obtain ⟨base, -, -, earlier⟩ := chained
    rw [List.map_cons, List.nodup_cons]
    refine ⟨fun mem => ?_, ih earlier⟩
    obtain ⟨s, old, same⟩ := List.mem_map.mp mem
    have low := base_lt_lastRevision earlier s old
    omega

/-! The open incidents of the hosts. -/

variable {thresholds : Thresholds} {s : IncidentStore} {o : Observation}

theorem respond_ruleVersion {streak : Streak} {current : Option IncidentRow} {id : Nat} {w : IncidentRow}
    (opened : w.isOpen) (h : (respond thresholds streak current o id).2 = some w) :
    (∃ r, current = some r ∧ w.ruleVersion = r.ruleVersion) ∨ w.ruleVersion = o.ruleVersion := by
  have confirmed : ∀ streak r, (confirm thresholds streak o r).ruleVersion = r.ruleVersion := by
    intro streak r
    unfold confirm
    split <;> rfl
  unfold respond at h
  split at h
  · cases h
    cases current with
    | none => exact .inr (confirmed _ _)
    | some r => exact .inl ⟨r, rfl, confirmed _ _⟩
  · split at h
    · cases h
    · split at h
      · obtain ⟨r, -, rfl⟩ := Option.map_eq_some_iff.mp h
        cases opened
      · cases h

def Carries (version : Int) (s : IncidentStore) : Prop :=
  ∀ r ∈ s.incidents, r.isOpen → isHost r.subject → r.ruleVersion = version

theorem carries_observed {version : Int} (sound : Sound s) (carries : Carries version s)
    (under : isHost o.subject → o.ruleVersion = version) : Carries version (s.observed thresholds o) := by
  intro r mem opened host
  rcases (mem_observed sound).mp mem with ⟨old, -⟩ | written
  · exact carries r old opened host
  · have subject := writtenRows_subject written
    rcases respond_ruleVersion opened (writtenRows_open opened written) with ⟨found, held, same⟩ | new
    · obtain ⟨there, its, open_⟩ := current_some (going_some held)
      rw [same]
      refine carries found there open_ ?_
      rw [its, ← subject]
      exact host
    · rw [new]
      refine under ?_
      rw [← subject]
      exact host

structure Judged (version : Int) (s : IncidentStore) : Prop where
  sound : Sound s
  carries : Carries version s

theorem Judged.observe {version : Int} (judged : Judged version s)
    (under : isHost o.subject → o.ruleVersion = version) :
    Judged version (commit s (observeIncident thresholds s o)) := by
  unfold observeIncident
  split
  · exact judged
  · split
    · exact ⟨sound_observed judged.sound, carries_observed judged.sound judged.carries under⟩
    · exact judged

theorem sound_update {sel : IncidentRow → Bool} {f : IncidentRow → IncidentRow} (key : ∀ r, (f r).id = r.id)
    (subject : ∀ r, (f r).subject = r.subject) (opens : ∀ r, (f r).isOpen → r.isOpen)
    (streaks : Table StreakRow StreakRow.subject) (sound : Sound s) :
    Sound { s with incidents := s.incidents.update sel f key, streaks } := by
  have before : ∀ r ∈ s.incidents.update sel f key, ∃ a ∈ s.incidents,
      r = (if sel a then f a else a) ∧ r.id = a.id ∧ r.subject = a.subject ∧ (r.isOpen → a.isOpen) := by
    intro r mem
    obtain ⟨a, there, rfl⟩ := (Table.mem_update key).mp mem
    refine ⟨a, there, rfl, ?_⟩
    cases sel a with
    | false => simp
    | true => exact ⟨key a, subject a, opens a⟩
  refine ⟨?_, ?_⟩
  · intro r mem
    obtain ⟨a, there, -, id, -⟩ := before r mem
    rw [id]
    exact sound.drawn a there
  · intro r memR p memP openR openP same
    obtain ⟨a, thereA, rfl, -, subjectA, openA⟩ := before r memR
    obtain ⟨b, thereB, rfl, -, subjectB, openB⟩ := before p memP
    rw [sound.one a thereA b thereB (openA openR) (openB openP) (subjectA.symm.trans (same.trans subjectB))]

theorem judged_close {version : Int} (now : Time) (sound : Sound s) : Judged version (closeHostIncidents now s) := by
  have closed : ∀ r, (policyChanged now r).isOpen → r.isOpen := by
    intro r opened
    cases opened
  refine ⟨sound_update (f := policyChanged now) (fun _ => rfl) (fun _ => rfl) closed _ sound, ?_⟩
  intro r mem opened host
  obtain ⟨a, -, rfl⟩ := (Table.mem_update (f := policyChanged now) fun _ => rfl).mp mem
  split at opened
  · cases opened
  · rename_i other
    rw [if_neg other] at host
    exact absurd (Bool.and_eq_true_iff.mpr ⟨host, opened⟩) other

theorem Judged.acknowledge {version : Int} (id : Nat) (acked : Option (Time × String)) (judged : Judged version s) :
    Judged version { s with
      incidents := s.incidents.update (fun r => r.id == id) (acknowledged acked) fun _ => rfl } := by
  refine ⟨sound_update (f := acknowledged acked) (fun _ => rfl) (fun _ => rfl) (fun _ h => h) _ judged.sound, ?_⟩
  intro r mem opened host
  obtain ⟨a, there, rfl⟩ := (Table.mem_update (f := acknowledged acked) fun _ => rfl).mp mem
  split at opened
  · rename_i chosen
    rw [if_pos chosen] at host ⊢
    exact judged.carries a there opened host
  · rename_i other
    rw [if_neg other] at host ⊢
    exact judged.carries a there opened host

variable {describe : HostThreshold → Rat → Int → String}

theorem Judged.observeRules (version : HostRuleVersion) (agent : String) (h : HostMetrics) (at_ : Time)
    (maintenance : Bool) (rules : List HostThreshold) (judged : Judged version.revision s) :
    Judged version.revision (rules.foldl (fun s rule => commit s (observeIncident (ruleThresholds rule) s
        (ruleObservation describe version agent h at_ maintenance rule))) s) := by
  induction rules generalizing s with
  | nil => exact judged
  | cons rule rest ih => exact ih (judged.observe fun _ => rfl)

theorem Judged.report (versioned : Versioned m) (judged : Judged m.revision m.store) (agent : String) (h : HostMetrics)
    (at_ : Time) (maintenance : Bool) : Judged m.revision (evalHostIncidents describe m agent h at_ maintenance) := by
  unfold evalHostIncidents
  split
  · exact judged
  · dsimp only
    split
    · exact judged
    · rename_i current
      have under : (m.hostRulesAt at_).revision = m.revision := by
        rw [← versioned.current]
        exact (not_not.mp current).symm
      rw [← under] at judged ⊢
      exact judged.observeRules _ agent h at_ maintenance _

structure Kept (m : Monitoring) : Prop where
  versioned : Versioned m
  judged : Judged m.revision m.store

theorem kept_start (clock : Time) : Kept (.start clock) := by
  refine ⟨⟨rfl, trivial, ?_⟩, sound_empty, ?_⟩
  · intro s mem
    cases mem
  · intro r mem
    cases mem

theorem Kept.step (kept : Kept m) (e : Event) : Kept (step describe m e) := by
  obtain ⟨versioned, judged⟩ := kept
  cases e with
  | pass d =>
    refine ⟨⟨versioned.rows, versioned.chained, fun s mem => le_trans (versioned.past s mem) ?_⟩, judged⟩
    exact Int.le_add_of_nonneg_right (Int.natCast_nonneg d)
  | saveHostRules base list =>
    refine commit_invariant Kept ⟨versioned, judged⟩ fun after saved => ⟨versioned.save saved, ?_⟩
    unfold HostRules.saveHostRules at saved
    split at saved
    · cases saved
    · split at saved
      · cases saved
      · cases saved
        exact judged_close m.clock judged.sound
  | report agent h at_ maintenance =>
    exact ⟨⟨versioned.rows, versioned.chained, versioned.past⟩, judged.report versioned agent h at_ maintenance⟩
  | service t o =>
    refine ⟨⟨versioned.rows, versioned.chained, versioned.past⟩, judged.observe fun host => ?_⟩
    simp [isHost] at host
  | acknowledge id acked =>
    exact ⟨⟨versioned.rows, versioned.chained, versioned.past⟩, judged.acknowledge id acked⟩

/-- Open host incidents carry the current revision, the rules at a time are those saved last by then, and no
two saves had one base. -/
theorem host_incidents_follow_rules (describe : HostThreshold → Rat → Int → String) (clock : Time)
    (events : List Event) :
    let m := run (step describe) (.start clock) events
    (∀ r ∈ m.store.incidents, r.isOpen → isHost r.subject → r.ruleVersion = m.revision) ∧
      (m.hostRulesAt m.clock).revision = m.revision ∧
      (∀ t, m.hostRulesAt t =
        ((m.saves.find? fun s => decide (s.savedAt ≤ t)).map Save.version).getD defaultVersion) ∧
      (∀ base, (m.saves.map Save.base).count base ≤ 1) := by
  have kept : Kept (run (step describe) (.start clock) events) :=
    run_preserves Kept (fun _ e kept => kept.step e) (kept_start clock) events
  exact ⟨kept.judged.carries, kept.versioned.current, fun _ => kept.versioned.hostRulesAt,
    List.nodup_iff_count_le_one.mp (nodup_bases kept.versioned.chained)⟩

def hotReports : List Event :=
  let hot : HostMetrics := ⟨some 96, none, []⟩
  [.saveHostRules 0 defaultThresholds, .report "a" hot (99 * second) false, .report "a" hot (100 * second) false]

theorem host_incidents_follow_saved_rules :
    let m := run (step fun _ _ _ => "") (.start (100 * second)) hotReports
    ∃ r ∈ m.store.incidents, r.isOpen ∧ isHost r.subject ∧ r.openedAt = 100 * second ∧
      r.ruleVersion = m.revision := by
  intro m
  have opened : ∃ r ∈ m.store.incidents.rows, r.isOpen ∧ isHost r.subject ∧ r.openedAt = 100 * second := by
    decide +kernel
  obtain ⟨r, mem, open_, host, at_⟩ := opened
  exact ⟨r, mem, open_, host, at_, (host_incidents_follow_rules _ _ hotReports).1 r mem open_ host⟩

end Monik.HostRules
