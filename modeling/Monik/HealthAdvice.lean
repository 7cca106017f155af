import Mathlib.Data.List.Sort

/-! `SuggestHealth` of the discovery advisor. `budget` is the number of candidates looked at before
the context ends; there is no `control` if it ends before the negative control. -/

namespace Monik.HealthAdvice

inductive Purpose
  | readiness | application | liveness | responsiveness
  deriving DecidableEq

inductive BodyState
  | sampled | empty | other
  deriving DecidableEq

structure Observation where
  /-- `Transport` is "ok". -/
  ok : Bool
  status : Option Nat
  /-- The health word and the body state of the feedback. -/
  feedback : Option (String × BodyState)

inductive Confidence
  | high | medium | low
  deriving DecidableEq

/-- Of the definition only its path and purpose. -/
structure CheckSuggestion where
  path : String
  purpose : Purpose
  confidence : Confidence
  status : Nat
  health : String
  autoEligible : Bool
  deriving DecidableEq

def healthPaths : List (String × Purpose) :=
  [("/readyz", .readiness), ("/ready", .readiness), ("/healthz", .readiness), ("/health", .application),
    ("/actuator/health", .application), ("/livez", .liveness), ("/-/ready", .readiness),
    ("/-/healthy", .liveness), ("/api/health", .application)]

def positiveHealth (s : String) : Bool := ["ok", "up", "healthy", "ready", "pass", "true"].contains s.toLower

def negativeHealth (s : String) : Bool := s != "" && !positiveHealth s

def closed (code : Nat) : Bool := decide (500 ≤ code) || code == 401 || code == 403

def advise (observe : String → Observation) (candidate : String × Purpose) : Option CheckSuggestion :=
  let obs := observe candidate.1
  match obs.status, obs.feedback with
  | some code, some (health, body) =>
    if !obs.ok then none
    else if closed code && health == "" && candidate.2 != .liveness then
      some ⟨candidate.1, candidate.2, .medium, code, "", false⟩
    else if (decide (300 ≤ code) && decide (code < 400)) || code == 404 || code == 401 || code == 403 then none
    else if health == "" then
      if code == 200 && body == .empty then some ⟨candidate.1, .responsiveness, .medium, 200, "", false⟩ else none
    else if body != .sampled then none
    else some ⟨candidate.1, candidate.2, .high, code, health, true⟩
  | _, _ => none

def unready (observe : String → Observation) (candidate : String × Purpose) : Bool :=
  (advise observe candidate).any fun s => closed s.status && s.health == ""

def adverseSuggestion (s : CheckSuggestion) : Bool := negativeHealth s.health || closed s.status

def purposeRank : Purpose → Nat
  | .readiness => 0
  | .application => 1
  | _ => 2

def rank (s : CheckSuggestion) : Nat :=
  (if adverseSuggestion s then 0 else 8) + (if s.health != "" then 0 else 4) + purposeRank s.purpose

def missingRoute (control : Observation) : Bool := control.ok && (control.status == some 404 || control.status == some 410)

def candidates (observe : String → Observation) (budget : Nat) : List (String × Purpose) :=
  let root : List (String × Purpose) := if (observe "/").feedback.any (·.1 != "") then [("/", .application)] else []
  (root ++ healthPaths).take budget

def correct (control : Option Observation) (ambiguousUnready : Bool) (s : CheckSuggestion) : CheckSuggestion :=
  let s := if control.isNone then { s with autoEligible := false, confidence := .medium }
    else if control.any missingRoute then s else { s with autoEligible := false, confidence := .low }
  if ambiguousUnready then { s with autoEligible := false } else s

def suggestHealth (observe : String → Observation) (budget : Nat) (control : Option Observation) :
    List CheckSuggestion :=
  let root := observe "/"
  if !root.ok || root.status == some 401 || root.status == some 403 then []
  else
    let out := (candidates observe budget).filterMap (advise observe)
    let ambiguousUnready := (candidates observe budget).any (unready observe)
    ((out.map (correct control ambiguousUnready)).insertionSort fun a b => rank a ≤ rank b).take 4

/-- The suggestions that `ensureBaselineChecks` takes. -/
def eligible (s : CheckSuggestion) : Bool := s.autoEligible && s.confidence == .high

/-- A candidate that is no liveness route answered with an error or requires authentication. -/
def failing (observe : String → Observation) (candidate : String × Purpose) : Bool :=
  (observe candidate.1).ok && (observe candidate.1).status.any closed && candidate.2 != .liveness

def Unmasked (observe : String → Observation) (budget : Nat) (control : Option Observation) : Prop :=
  (∀ s ∈ suggestHealth observe budget control, s.autoEligible → control.any missingRoute) ∧
  (suggestHealth observe budget control).Pairwise
    (fun a b => adverseSuggestion b → adverseSuggestion a) ∧
  ((candidates observe budget).any (failing observe) →
    ∀ s, (suggestHealth observe budget control).find? eligible = some s → adverseSuggestion s)

instance rank_total : Std.Total fun a b : CheckSuggestion => rank a ≤ rank b := ⟨fun _ _ => Nat.le_total _ _⟩

instance rank_trans : IsTrans CheckSuggestion fun a b => rank a ≤ rank b := ⟨fun _ _ _ => Nat.le_trans⟩

variable {observe : String → Observation} {control : Option Observation} {s : CheckSuggestion}

theorem correct_eligible (amb : Bool) :
    adverseSuggestion (correct control amb s) = adverseSuggestion s ∧ (correct control amb s).health = s.health ∧
      ((correct control amb s).autoEligible → s.autoEligible ∧ control.any missingRoute ∧ amb = false) ∧
      (control.any missingRoute → amb = false → correct control amb s = s) := by
  cases control with
  | none => cases amb <;> simp [correct, adverseSuggestion]
  | some c => cases amb <;> cases h : missingRoute c <;> simp [correct, adverseSuggestion, h]

theorem advise_shape {x : String × Purpose} (h : advise observe x = some s) :
    eligible s ∧ s.health ≠ "" ∨
      eligible s = false ∧ s.health = "" ∧ (unready observe x ∨ adverseSuggestion s = false) := by
  have given := h
  dsimp only [advise] at h
  split at h
  · split_ifs at h <;> cases h
    · simp_all [eligible, unready]
    · simp [eligible, adverseSuggestion, negativeHealth, closed]
    · simp_all [eligible]
  · cases h

theorem rank_adverse {a b : CheckSuggestion} (le : rank a ≤ rank b) (h : adverseSuggestion b) :
    adverseSuggestion a := by
  have small : purposeRank b.purpose ≤ 2 := by cases b.purpose <;> simp [purposeRank]
  by_contra passing
  simp only [rank, h, passing, if_true] at le
  split_ifs at le <;> simp at le <;> omega

theorem rank_health {a b : CheckSuggestion} (le : rank a ≤ rank b) (passing : adverseSuggestion a = false)
    (h : b.health ≠ "") : a.health ≠ "" := by
  have small : purposeRank b.purpose ≤ 2 := by cases b.purpose <;> simp [purposeRank]
  intro none
  simp [rank, passing, none, h] at le
  split_ifs at le <;> omega

theorem first_eligible {l : List CheckSuggestion} (sorted : l.Pairwise fun a b => rank a ≤ rank b)
    (shape : ∀ s ∈ l, eligible s ∧ s.health ≠ "" ∨
      eligible s = false ∧ s.health = "" ∧ adverseSuggestion s = false) :
    (∀ s, (l.take 4).find? eligible = some s → adverseSuggestion s) ↔
      ((∃ s ∈ l, eligible s) → ∃ s ∈ l, adverseSuggestion s) := by
  cases l with
  | nil => simp
  | cons a rest =>
    have least : ∀ b ∈ a :: rest, rank a ≤ rank b := by
      intro b mem
      rcases List.mem_cons.mp mem with rfl | later
      · exact Nat.le_refl _
      · exact (List.pairwise_cons.mp sorted).1 b later
    rcases shape a List.mem_cons_self with ⟨first, -⟩ | ⟨first, none, passing⟩
    · simp only [List.take_succ_cons, List.find?_cons, first, Option.some.injEq, forall_eq']
      constructor
      · intro adverse _
        exact ⟨a, List.mem_cons_self, adverse⟩
      · intro h
        obtain ⟨b, mem, adverse⟩ := h ⟨a, List.mem_cons_self, first⟩
        exact rank_adverse (least b mem) adverse
    · -- the first has no health word, so no other one has
      have all : ∀ b ∈ a :: rest, eligible b = false := by
        intro b mem
        rcases shape b mem with ⟨-, word⟩ | ⟨other, -⟩
        · exact absurd none (rank_health (least b mem) passing word)
        · exact other
      constructor
      · rintro - ⟨b, mem, h⟩
        rw [all b mem] at h
        cases h
      · intro _ b found
        have mem := List.mem_of_mem_take (List.mem_of_find?_eq_some found)
        have h := List.find?_some found
        rw [all b mem] at h
        cases h

def rootOpen (observe : String → Observation) : Bool :=
  !(!(observe "/").ok || (observe "/").status == some 401 || (observe "/").status == some 403)

/-- The answer has a health word in a sampled body, and its status is no redirect and not 404, 401 or 403. -/
def worded (obs : Observation) : Bool :=
  obs.ok && obs.status.any (fun code =>
      !((decide (300 ≤ code) && decide (code < 400)) || code == 404 || code == 401 || code == 403)) &&
    obs.feedback.any fun f => f.1 != "" && f.2 == .sampled

/-- The answer shows a failure: an error or a refusal without a health word, or a worded answer with a
negative word or an error. A refusal with a health word shows none, nor does an unsampled error with one. -/
def shown (obs : Observation) (purpose : Purpose) : Bool :=
  (obs.ok && obs.status.any closed && obs.feedback.any (·.1 == "") && purpose != .liveness) ||
    (worded obs && (obs.status.any closed || obs.feedback.any (negativeHealth ·.1)))

theorem advise_worded (observe : String → Observation) (x : String × Purpose) :
    (advise observe x).any eligible = worded (observe x.1) ∧
      (advise observe x).any adverseSuggestion = shown (observe x.1) x.2 := by
  unfold advise shown worded
  generalize observe x.1 = obs
  obtain ⟨ok, status, feedback⟩ := obs
  cases status with
  | none => simp
  | some code =>
    cases feedback with
    | none => simp
    | some f =>
      dsimp only
      split_ifs <;> grind [eligible, adverseSuggestion, negativeHealth, closed]

theorem exists_advised (observe : String → Observation) (l : List (String × Purpose))
    (q : CheckSuggestion → Bool) :
    (∃ s ∈ l.filterMap (advise observe), q s) ↔ ∃ x ∈ l, (advise observe x).any q := by
  simp only [List.mem_filterMap, Option.any_eq_true]
  grind

/-- A failing route is masked exactly if an answer of some candidate is worded and none of them shows a
failure. -/
theorem suggestions_unmasked_iff (observe : String → Observation) (budget : Nat)
    (control : Option Observation) :
    Unmasked observe budget control ↔
      (rootOpen observe → control.any missingRoute →
        (candidates observe budget).any (failing observe) →
        (∃ x ∈ candidates observe budget, worded (observe x.1)) →
        ∃ x ∈ candidates observe budget, shown (observe x.1) x.2) := by
  simp only [← (advise_worded observe _).1, ← (advise_worded observe _).2, ← exists_advised]
  by_cases root : rootOpen observe
  swap
  · have none : suggestHealth observe budget control = [] := by
      simp only [rootOpen, Bool.not_eq_true, Bool.not_eq_false'] at root
      simp only [suggestHealth, root, if_true]
    simp [Unmasked, none, root]
  set advice := (candidates observe budget).filterMap (advise observe) with made
  set amb := (candidates observe budget).any (unready observe) with unresolved
  set l := (advice.map (correct control amb)).insertionSort fun a b => rank a ≤ rank b with order
  have result : suggestHealth observe budget control = l.take 4 := by
    have closed : (!(observe "/").ok || (observe "/").status == some 401 || (observe "/").status == some 403) = false := by
      simpa [rootOpen] using root
    simp only [suggestHealth, closed, Bool.false_eq_true, if_false]
    rfl
  have sorted : l.Pairwise fun a b => rank a ≤ rank b := List.pairwise_insertionSort _ _
  have mem : ∀ s, s ∈ l ↔ ∃ x ∈ advice, correct control amb x = s := by
    intro s
    rw [order, List.mem_insertionSort, List.mem_map]
  have controlled : ∀ s ∈ l, s.autoEligible → control.any missingRoute ∧ amb = false := by
    intro s hs auto
    obtain ⟨x, -, rfl⟩ := (mem s).mp hs
    exact ((correct_eligible amb).2.2.1 auto).2
  have ordered : (l.take 4).Pairwise fun a b => adverseSuggestion b → adverseSuggestion a :=
    (sorted.sublist (List.take_sublist 4 l)).imp fun le => rank_adverse le
  simp only [Unmasked, result, ordered, true_and, root, forall_true_left]
  rw [and_iff_right fun s hs auto => (controlled s (List.mem_of_mem_take hs) auto).1]
  by_cases taken : control.any missingRoute ∧ amb = false
  · have same : advice.map (correct control amb) = advice := by
      rw [List.map_congr_left fun x _ => (correct_eligible amb).2.2.2 taken.1 taken.2, List.map_id']
    have members : ∀ s, s ∈ l ↔ s ∈ advice := by
      intro s
      rw [order, same, List.mem_insertionSort]
    have shape : ∀ s ∈ l, eligible s ∧ s.health ≠ "" ∨
        eligible s = false ∧ s.health = "" ∧ adverseSuggestion s = false := by
      intro s hs
      obtain ⟨x, hx, found⟩ := List.mem_filterMap.mp ((members s).mp hs)
      rcases advise_shape found with ok | ⟨other, wordless, cause | passing⟩
      · exact .inl ok
      · have open_ := List.any_eq_true.mpr ⟨x, hx, cause⟩
        rw [← unresolved, taken.2] at open_
        cases open_
      · exact .inr ⟨other, wordless, passing⟩
    simp only [first_eligible sorted shape, members, taken.1, forall_true_left]
  · have none : ∀ s, (l.take 4).find? eligible ≠ some s := by
      intro s found
      have auto := List.find?_some found
      simp only [eligible, Bool.and_eq_true] at auto
      exact taken (controlled s (List.mem_of_mem_take (List.mem_of_find?_eq_some found)) auto.1)
    refine iff_of_true (fun _ s found => absurd found (none s)) fun route _ _ => ?_
    -- the control is in order, so a candidate is unresolved; its suggestion is adverse
    have open_ : amb := by simpa [route] using taken
    obtain ⟨x, hx, cause⟩ := List.any_eq_true.mp open_
    unfold unready at cause
    cases found : advise observe x with
    | none => simp [found] at cause
    | some s =>
      simp only [found, Option.any_some, Bool.and_eq_true] at cause
      exact ⟨s, List.mem_filterMap.mpr ⟨x, hx, found⟩, by simp [adverseSuggestion, cause.1]⟩

def guarded : String → Observation
  | "/readyz" => ⟨true, some 401, some ("down", .sampled)⟩
  | "/livez" => ⟨true, some 200, some ("ok", .sampled)⟩
  | _ => ⟨true, some 404, some ("", .sampled)⟩

theorem guarded_readiness_masked :
    (candidates guarded 9).any (failing guarded) ∧
      (suggestHealth guarded 9 (some (guarded "/none"))).find? eligible =
        some ⟨"/livez", .liveness, .high, 200, "ok", true⟩ ∧
      adverseSuggestion ⟨"/livez", .liveness, .high, 200, "ok", true⟩ = false := by
  decide +kernel

end Monik.HealthAdvice
