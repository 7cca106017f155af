import Mathlib.Algebra.Ring.Int.Defs
import Mathlib.Data.List.Nodup
import Monik.Redaction
import Monik.Runs

/-! `LogHub`: its critical sections in any order. A channel is known by its viewer's number; which ones
have room is part of the event. `CloseAll` is a `CloseProfile` for each profile; the tail of a
subscription is left out. -/

namespace Monik.LogViewers
open Runs JsonText LogBatches Redaction

def logProfileBytes : Int := 262144

/-- With the sequences that `append` delivered; a send or a close after the close panics. -/
inductive Channel
  | opened (sent : List Nat)
  | closed (sent : List Nat)
  | panicked

def Channel.send (sequence : Nat) : Channel → Channel
  | .opened sent => .opened (sent ++ [sequence])
  | _ => .panicked

def Channel.close : Channel → Channel
  | .opened sent => .closed sent
  | _ => .panicked

/-- With the lengths of the retained texts; `returned` says that the collector has left its loop. -/
structure LogProfile where
  records : List Nat
  used : Int
  seq : Nat
  closing : Bool
  returned : Bool

/-- The map of profiles is its keys and their values, the viewers of all profiles are in one list, and
`once` has those whose `Close` has run. -/
structure LogHub where
  profiles : List String
  profile : String → LogProfile
  registered : List (Nat × String)
  viewers : Int
  next : Nat
  channels : Nat → Channel
  once : List Nat

def newLogHub : LogHub := ⟨[], fun _ => ⟨[], 0, 0, false, false⟩, [], 0, 0, fun _ => .panicked, []⟩

/-- A loop over the viewers of a profile: what becomes of each channel, and whether the viewer stays.
Without viewers the collector is cancelled and nothing is retained. -/
def LogHub.visit (h : LogHub) (id : String) (p : LogProfile) (each : Nat → Channel → Channel × Bool) : LogHub :=
  let gone := fun e : Nat × String => e.2 == id && !(each e.1 (h.channels e.1)).2
  let registered := h.registered.filter fun e => !gone e
  let settled := if registered.any (·.2 == id) then p else { p with closing := true, records := [], used := 0 }
  { h with
    profile := fun i => if i = id then settled else h.profile i
    registered
    viewers := h.viewers - h.registered.countP gone
    channels := fun v => if (v, id) ∈ h.registered then (each v (h.channels v)).1 else h.channels v }

def subscribe (h : LogHub) (id : String) : Except String LogHub :=
  if 16 ≤ h.viewers then .error "log_viewer_limit"
  else if id ∈ h.profiles ∧ (h.profile id).closing then .error "log_source_cleanup_pending"
  else if id ∉ h.profiles ∧ 4 ≤ h.profiles.length then .error "log_profile_limit"
  else .ok { h with
    profiles := if id ∈ h.profiles then h.profiles else id :: h.profiles
    profile := fun i => if i = id ∧ id ∉ h.profiles then ⟨[], 0, 0, false, false⟩ else h.profile i
    registered := (h.next + 1, id) :: h.registered
    viewers := h.viewers + 1
    next := h.next + 1
    channels := fun v => if v = h.next + 1 then .opened [] else h.channels v }

/-- `Close` of a subscription, and the end of its context. -/
def closeFn (h : LogHub) (id : String) (viewer : Nat) : LogHub :=
  if viewer ∈ h.once then h
  else
    let h := { h with once := viewer :: h.once }
    if id ∈ h.profiles then
      h.visit id (h.profile id) fun v ch => if v = viewer then (ch.close, false) else (ch, true)
    else h

def makeRoom (size : Int) : List Nat → Int → List Nat × Int
  | [], used => ([], used)
  | r :: rest, used =>
    if logProfileBytes < used + size ∨ 4096 ≤ rest.length + 1 then makeRoom size rest (used - (r + 1))
    else (r :: rest, used)

def LogProfile.retain (p : LogProfile) (text : List Char) : LogProfile :=
  let size := byteSize text + 1
  let kept := makeRoom size p.records p.used
  { p with seq := p.seq + 1, records := kept.1 ++ [byteSize text], used := kept.2 + size }

/-- `appendRedacted`, its guard passed. -/
def append (h : LogHub) (id : String) (r : Redactor) (line : Bytes) (room : Nat → Bool) : LogHub :=
  if id ∈ h.profiles then
    h.visit id ((h.profile id).retain (r.clean line)) fun v ch =>
      if room v then (ch.send ((h.profile id).seq + 1), true) else (ch.close, false)
  else h

/-- The record that is sent first, if there is room, has no sequence. -/
def closeProfile (h : LogHub) (id : String) : LogHub :=
  if id ∈ h.profiles ∧ !(h.profile id).closing then h.visit id (h.profile id) fun _ ch => (ch.close, false)
  else h

/-- The collector closes the profile, or was cancelled, and then the profile is closed already. -/
def leave (h : LogHub) (id : String) : LogHub :=
  let h := closeProfile h id
  { h with profile := fun i => if i = id then { h.profile i with returned := true } else h.profile i }

def collected (h : LogHub) (id : String) : LogHub :=
  if (h.profile id).returned then { h with profiles := h.profiles.filter (· ≠ id) } else h

inductive Event
  | subscribe (id : String)
  | close (id : String) (viewer : Nat)
  | append (id : String) (r : Redactor) (line : Bytes) (room : Nat → Bool)
  | closeProfile (id : String)
  | leave (id : String)
  | collected (id : String)

def step (h : LogHub) : Event → LogHub
  | .subscribe id => (subscribe h id).toOption.getD h
  | .close id viewer => closeFn h id viewer
  | .append id r line room => append h id r line room
  | .closeProfile id => closeProfile h id
  | .leave id => leave h id
  | .collected id => collected h id

def charged (records : List Nat) : Int := (records.map fun r : Nat => (r : Int) + 1).sum

def Fair (p : LogProfile) : Prop := p.used = charged p.records ∧ p.used ≤ logProfileBytes

/-- What `append` has delivered of a profile with the sequence `seq`. -/
def Served (seq : Nat) (sent : List Nat) : Prop := sent.Pairwise (· < ·) ∧ ∀ s ∈ sent, s ≤ seq

structure Sound (h : LogHub) : Prop where
  few : h.profiles.length ≤ 4
  fair : ∀ id ∈ h.profiles, Fair (h.profile id)
  closing : ∀ id ∈ h.profiles, (h.profile id).closing → ∀ v, (v, id) ∉ h.registered
  returned : ∀ id ∈ h.profiles, (h.profile id).returned → (h.profile id).closing
  counted : h.viewers = h.registered.length ∧ h.viewers ≤ 16
  ids : (h.registered.map (·.1)).Nodup
  opened : ∀ v id, (v, id) ∈ h.registered → id ∈ h.profiles ∧ 0 < v ∧ v ≤ h.next ∧
    ∃ sent, h.channels v = .opened sent ∧ Served (h.profile id).seq sent
  closed : ∀ v, 0 < v → v ≤ h.next → (∀ id, (v, id) ∉ h.registered) →
    ∃ sent, h.channels v = .closed sent ∧ sent.Pairwise (· < ·)

variable {h : LogHub} {id : String} {p : LogProfile} {each : Nat → Channel → Channel × Bool}

theorem makeRoom_charged {size : Int} {records : List Nat} {used : Int} (total : used = charged records)
    (small : size ≤ logProfileBytes) : (makeRoom size records used).2 = charged (makeRoom size records used).1 ∧
      (makeRoom size records used).2 + size ≤ logProfileBytes := by
  induction records generalizing used with
  | nil =>
    subst total
    exact ⟨rfl, by simpa [makeRoom, charged] using small⟩
  | cons r rest ih =>
    unfold makeRoom
    split
    · refine ih ?_
      simp only [total, charged, List.map_cons, List.sum_cons]
      omega
    · exact ⟨total, by omega⟩

/-- The loop leaves an open channel open, or closes it and removes its viewer. -/
def Treats (each : Nat → Channel → Channel × Bool) (seq seq' : Nat) : Prop :=
  ∀ v sent, Served seq sent →
    (∃ sent', each v (.opened sent) = (.opened sent', true) ∧ Served seq' sent') ∨
      ∃ sent', each v (.opened sent) = (.closed sent', false) ∧ sent'.Pairwise (· < ·)

theorem Sound.visit (s : Sound h) (mem : id ∈ h.profiles) (fair : Fair p) (closing : p.closing = (h.profile id).closing)
    (returned : p.returned = (h.profile id).returned) (treats : Treats each (h.profile id).seq p.seq) :
    Sound (h.visit id p each) := by
  have one : ∀ {v o o'}, (v, o) ∈ h.registered → (v, o') ∈ h.registered → o = o' := fun mem mem' =>
    congrArg Prod.snd (List.inj_on_of_nodup_map s.ids mem mem' rfl)
  have treated : ∀ v, (v, id) ∈ h.registered →
      (∃ sent, each v (h.channels v) = (.opened sent, true) ∧ Served p.seq sent) ∨
        ∃ sent, each v (h.channels v) = (.closed sent, false) ∧ sent.Pairwise (· < ·) := by
    intro v mem
    obtain ⟨-, -, -, sent, ch, served⟩ := s.opened _ _ mem
    exact ch ▸ treats v sent served
  obtain ⟨few, fairAll, closingAll, returnedAll, counted, ids, opened, closed⟩ := s
  unfold LogHub.visit
  extract_lets gone registered settled
  have left : ∀ v o, (v, o) ∈ registered ↔ (v, o) ∈ h.registered ∧ gone (v, o) = false := by simp [registered]
  have some : registered.any (·.2 == id) ↔ ∃ v, (v, id) ∈ registered := by simp
  have sequence : settled.seq = p.seq := by grind
  have accounted : Fair settled := by
    dsimp only [settled]
    split
    · exact fair
    · exact ⟨rfl, by simp [logProfileBytes]⟩
  refine ⟨few, by grind, by grind, by grind, ?_, ids.sublist (List.filter_sublist.map _), ?_, ?_⟩
  · have total := List.length_eq_countP_add_countP gone (l := h.registered)
    simp only [registered, ← List.countP_eq_length_filter]
    simp only [Bool.not_eq_true, Bool.decide_eq_false] at total
    omega
  · grind
  · grind

theorem retain_fair (fair : Fair p) (r : Redactor) (line : Bytes) :
    Fair (p.retain (r.clean line)) := by
  have short := clean_bounded r line
  have small : ((byteSize (r.clean line) + 1 : Nat) : Int) ≤ logProfileBytes := by
    unfold logMaxLine at short
    unfold logProfileBytes
    omega
  obtain ⟨total, fits⟩ := makeRoom_charged fair.1 small
  refine ⟨?_, fits⟩
  simp only [LogProfile.retain, total]
  simp [charged]

theorem treats_close (each : Nat → Channel → Channel × Bool) (seq : Nat)
    (known : ∀ v ch, each v ch = (ch, true) ∨ each v ch = (ch.close, false)) : Treats each seq seq := by
  intro v sent served
  rcases known v (.opened sent) with stays | closes
  · exact .inl ⟨sent, stays, served⟩
  · exact .inr ⟨sent, closes, served.1⟩

theorem treats_send (room : Nat → Bool) (seq : Nat) :
    Treats (fun v ch => if room v then (ch.send (seq + 1), true) else (ch.close, false)) seq (seq + 1) := by
  intro v sent served
  dsimp only
  split
  · refine .inl ⟨sent ++ [seq + 1], rfl, ?_⟩
    simp only [Served, List.pairwise_append] at *
    grind
  · exact .inr ⟨sent, rfl, served.1⟩

theorem closeProfile_sound (s : Sound h) (id : String) : Sound (closeProfile h id) := by
  unfold closeProfile
  split
  · rename_i found
    exact s.visit found.1 (s.fair id found.1) rfl rfl (treats_close _ _ fun _ _ => .inr rfl)
  · exact s

theorem closeProfile_closing (h : LogHub) (id : String) (mem : id ∈ (closeProfile h id).profiles) :
    ((closeProfile h id).profile id).closing := by
  unfold closeProfile at mem ⊢
  split
  · simp [LogHub.visit]
  · grind

theorem subscribe_sound {h' : LogHub} (s : Sound h) (ok : subscribe h id = .ok h') : Sound h' := by
  obtain ⟨few, fair, closing, returned, counted, ids, opened, closed⟩ := s
  unfold subscribe at ok
  split at ok
  · cases ok
  split at ok
  · cases ok
  split at ok
  · cases ok
  cases ok
  have new : Fair ⟨[], 0, 0, false, false⟩ := ⟨rfl, by decide⟩
  have first : ∀ seq, Served seq [] := fun _ => ⟨.nil, by simp⟩
  refine ⟨by grind, by grind, by grind, by grind, ?_, ?_, fun v o mem => ?_, by grind⟩
  · simp only [List.length_cons]
    omega
  · grind
  · rcases List.mem_cons.mp mem with same | old
    · cases same
      exact ⟨by grind, by omega, Nat.le_refl _, [], if_pos rfl, first _⟩
    · grind

theorem step_sound (h : LogHub) (e : Event) (s : Sound h) : Sound (step h e) := by
  cases e with
  | subscribe id =>
    dsimp only [step]
    cases result : subscribe h id with
    | error => exact s
    | ok h' => exact subscribe_sound s result
  | close id viewer =>
    dsimp only [step, closeFn]
    split
    · exact s
    have s : Sound { h with once := viewer :: h.once } :=
      ⟨s.few, s.fair, s.closing, s.returned, s.counted, s.ids, s.opened, s.closed⟩
    split
    · rename_i mem
      refine s.visit mem (s.fair id mem) rfl rfl (treats_close _ _ fun v ch => ?_)
      split
      · exact .inr rfl
      · exact .inl rfl
    · exact s
  | append id r line room =>
    dsimp only [step, append]
    split
    · rename_i mem
      exact s.visit mem (retain_fair (s.fair id mem) r line) rfl rfl (treats_send room _)
    · exact s
  | closeProfile id => exact closeProfile_sound s id
  | leave id =>
    obtain ⟨few, fair, closing, returned, counted, ids, opened, closed⟩ := closeProfile_sound s id
    have shut := closeProfile_closing h id
    dsimp only [step, leave]
    generalize closeProfile h id = h at *
    refine ⟨few, ?_, by grind, by grind, counted, ids, by grind, closed⟩
    grind [Fair]
  | collected id =>
    obtain ⟨few, fair, closing, returned, counted, ids, opened, closed⟩ := s
    dsimp only [step, collected]
    split
    · exact ⟨Nat.le_trans (List.length_filter_le _ _) few, by grind, by grind, by grind, counted, ids, by grind, closed⟩
    · exact ⟨few, fair, closing, returned, counted, ids, opened, closed⟩

theorem log_hub_accounts (events : List Event) : Sound (run step newLogHub events) := by
  refine run_preserves Sound step_sound ?_ events
  constructor <;> simp [newLogHub]
  omega

end Monik.LogViewers
