import Monik.SparkRequests

/-! The generations that snapshots report. Every section keeps or raises them and saves what is in
memory, so the broker is a counter that names instances. -/

namespace Monik.SparkGenerations
open Protocol Tables Persistence Runs NamedGenerations SparkPolicy SparkCoordinator SparkExecute SparkExisting
open SparkBroker SparkSections SparkRequests

variable {c : Coordinator}

variable {b : Broker} {probes : List Probing} {i : Nat}

/-! The broker as a counter that names instances. -/

def noteOf (o : Observed) : Note String String := ⟨o.state.profileId, o.state.generation, o.identity, o.tick⟩

def collected (probe : Probing) : List Observed := probe.states ++ (probe.engine.map (·.2.2)).toList

def notes (states : List Observed) : Set (Note String String) :=
  {n | ∃ o ∈ states, o.state.quality = .ok ∧ noteOf o = n}

def probed (probes : List Probing) : Set (Note String String) := {n | ∃ probe ∈ probes, n ∈ notes (collected probe)}

def answered (answers : List Answer) : Set (Note String String) := {n | ∃ a ∈ answers, n ∈ notes a.states}

def diskBook (disk : Option Journal) : Book String String := book ((disk.map Journal.profiles).getD Table.empty)

def naming (b : Broker) : Naming String String :=
  ⟨b.running.map bookOf, diskBook b.disk, probed b.probes, answered b.answers, b.tick⟩

abbrev Moves := Relation.ReflTransGen (@Step String String)

theorem moves_eq {s s' : Naming String String} (h : s' = s) : Moves s s' := by
  rw [h]

theorem moves_release (alive : b.running = some c) (now : Time) (h' : Hold)
    (leaves : Leaves (fun _ => True) now (b.hold c) h') : Moves (naming b) (naming (b.release h')) := by
  have current : (naming b).current = some (bookOf c) := by
    rw [naming, alive]
    rfl
  rcases leaves.disk with same | ⟨c', saved, before, after⟩
  · refine .trans (.single (.move (bookOf h'.coordinator) current leaves.memory.rises)) (moves_eq ?_)
    rw [naming, naming, Broker.release, same]
    rfl
  · refine .trans (.single (.move (bookOf c') current before.rises)) ?_
    refine .trans (.single (.save rfl)) (.trans (.single (.move (bookOf h'.coordinator) rfl after.rises)) (moves_eq ?_))
    rw [naming, Broker.release, saved]
    rfl

theorem probed_set (new : Probing) (extra : Set (Note String String))
    {old : Probing} (there : probes[i]? = some old) (sub : notes (collected new) ⊆ extra ∪ notes (collected old)) :
    probed (probes.set i new) ⊆ extra ∪ probed probes := by
  rintro n ⟨probe, mem, hn⟩
  rcases List.mem_or_eq_of_mem_set mem with other | rfl
  · exact .inr ⟨probe, other, hn⟩
  · exact (sub hn).imp id fun seen => ⟨old, List.mem_of_getElem? there, seen⟩

theorem probed_sublist {probes' : List Probing} (sub : probes'.Sublist probes) : probed probes' ⊆ probed probes := by
  rintro n ⟨probe, mem, hn⟩
  exact ⟨probe, sub.subset mem, hn⟩

theorem observeProfile_cases (c : Coordinator) (enabled : Bool) (p : Profile) (tick : Nat) (env : Probe) :
    ((observeProfile c enabled p tick env).1 = c ∧ (observeProfile c enabled p tick env).2.state.quality ≠ .ok) ∨
    Rises (bookOf c) (bookOf (observeProfile c enabled p tick env).1) ∧ noteOf (observeProfile c enabled p tick env).2 =
        ⟨p.id, (bookOf (observeProfile c enabled p tick env).1 p.id).1,
          (bookOf (observeProfile c enabled p tick env).1 p.id).2, tick⟩ := by
  unfold observeProfile
  split
  · exact .inl ⟨rfl, nofun⟩
  rename_i i _
  split
  · exact .inl ⟨rfl, nofun⟩
  · refine .inr ⟨rises_observeLocked c p i env.now, ?_⟩
    rw [bookOf_observeLocked, if_pos rfl]
    rfl

theorem moves_observed (alive : b.running = some c) (env : Probe) {enabled : Bool}
    {session : String} {control : SparkProjection.SparkControlState} {p : Profile} {rest : List Profile} {states : List Observed}
    (there : b.probes[i]? = some ⟨enabled, session, control, p :: rest, none, states⟩) (new : Probing)
    (fresh : ∀ o ∈ collected new, o ∈ states ∨ o = (observeProfile c enabled p b.tick env).2) :
    Moves (naming b) (naming { b with
      running := some (observeProfile c enabled p b.tick env).1, probes := b.probes.set i new, tick := b.tick + 1 }) := by
  have current : (naming b).current = some (bookOf c) := by
    rw [naming, alive]
    rfl
  rcases observeProfile_cases c enabled p b.tick env with ⟨same, unseen⟩ | ⟨rises, note⟩
  · have sub : probed (b.probes.set i new) ⊆ probed b.probes := by
      have grown := probed_set new ∅ there ?_
      · rwa [Set.empty_union] at grown
      rintro n ⟨o, ho, ok, rfl⟩
      rcases fresh o ho with old | rfl
      · exact .inr ⟨o, List.mem_append_left _ old, ok, rfl⟩
      · exact absurd ok unseen
    have kept : some (bookOf (observeProfile c enabled p b.tick env).1) = (naming b).current := by rw [current, same]
    exact .trans (.single (.pass _)) (.trans (.single (.forget sub)) (moves_eq (Naming.ext kept rfl rfl rfl rfl)))
  · have sub : probed (b.probes.set i new) ⊆
        insert (noteOf (observeProfile c enabled p b.tick env).2) (probed b.probes) := by
      have grown := probed_set new {noteOf (observeProfile c enabled p b.tick env).2} there ?_
      · rwa [Set.singleton_union] at grown
      rintro n ⟨o, ho, ok, rfl⟩
      rcases fresh o ho with old | rfl
      · exact .inr ⟨o, List.mem_append_left _ old, ok, rfl⟩
      · exact .inl rfl
    rw [note] at sub
    refine .trans (.single (.move _ current rises)) (.trans (.single (.note p.id rfl)) ?_)
    refine .trans (.single (.forget sub)) (moves_eq ?_)
    rfl

theorem moves_observe (alive : b.running = some c) (i : Nat) (env : Probe) :
    Moves (naming b) (naming (b.observe c i env)) := by
  unfold Broker.observe
  split
  · rename_i there
    cases asksEngine _ env with
    | none => exact moves_observed alive env there _ (by simp [collected])
    | some instance_ => exact moves_observed alive env there _ (by simp [collected])
  · exact .refl

theorem noteOf_withReadiness (p : Profile) (i : Instance) (o : Observed) (env : Probe) :
    noteOf (withReadiness p i o env) = noteOf o ∧ (withReadiness p i o env).state.quality = o.state.quality := by
  unfold withReadiness
  split <;> exact ⟨rfl, rfl⟩

theorem moves_ready (alive : b.running = some c) (i : Nat) (env : Probe) :
    Moves (naming b) (naming (b.ready c i env)) := by
  unfold Broker.ready
  split
  rotate_left
  · exact .refl
  rename_i enabled session control rest p instance_ o states there
  set o' := withReadiness p instance_ o env with o'_eq
  obtain ⟨note, quality⟩ := noteOf_withReadiness p instance_ o env
  have sub : probed (b.probes.set i ⟨enabled, session, control, rest, none, states ++ [o']⟩) ⊆ probed b.probes := by
    have grown := probed_set ⟨enabled, session, control, rest, none, states ++ [o']⟩ ∅ there ?_
    · rwa [Set.empty_union] at grown
    rintro n ⟨x, hx, ok, rfl⟩
    have cases_ : x ∈ states ∨ x = o' := by simpa [collected] using hx
    rcases cases_ with old | rfl
    · exact .inr ⟨x, List.mem_append_left _ old, ok, rfl⟩
    · exact .inr ⟨o, List.mem_append_right _ (List.mem_singleton.mpr rfl), quality ▸ ok, note.symm⟩
  have same : bookOf (releaseReady c p o') = bookOf c := by
    unfold releaseReady
    split
    · exact bookOf_putRuntime_same rfl rfl
    · rfl
  refine .trans (.single (.forget sub)) (moves_eq ?_)
  rw [naming, naming, alive, Option.map_some, Option.map_some, same]

theorem moves_publish (ok : BrokerOk (fun _ => True) b) (alive : b.running = some c) (i : Nat) (w : WriteOutcome) :
    Moves (naming b) (naming (b.publish c i w)) := by
  unfold Broker.publish
  split
  rotate_left
  · exact .refl
  rename_i enabled session control states there
  dsimp only
  have saved := moves_release alive 0 (saveLocked (b.hold c) w).1 (.saved (.refl (ok.memory c alive)))
  have sub : probed (b.probes.eraseIdx i) ⊆ probed b.probes := probed_sublist (List.eraseIdx_sublist _ _)
  refine saved.trans ?_
  split
  · rename_i ok
    have done : w = .done := by simpa [saveLocked] using ok
    subst done
    have mine : notes states ⊆ probed b.probes := by
      rintro n ⟨o, ho, seen⟩
      exact ⟨_, List.mem_of_getElem? there, o, List.mem_append_left _ ho, seen⟩
    have added : answered (⟨session, control, states⟩ :: b.answers) = answered b.answers ∪ notes states := by
      ext n
      simp [answered, or_comm]
    refine .trans (.single (.release rfl rfl mine)) (.trans (.single (.forget sub)) (moves_eq ?_))
    exact Naming.ext rfl rfl rfl added rfl
  · exact .single (.forget sub)

theorem moves_open (dead : b.running = none) (policy : Policy) (epoch : String) (w : WriteOutcome) (k : Kernel) :
    Moves (naming b) (naming (step k b (.openCoordinator policy epoch w))) := by
  have same : bookOf (openCoordinator policy b.disk epoch) = diskBook b.disk := by
    unfold openCoordinator bookOf diskBook
    cases b.disk with
    | none =>
      dsimp only
      split <;> rfl
    | some j =>
      dsimp only
      split <;> rfl
  unfold step
  rw [dead]
  dsimp only
  split
  · rename_i ok
    have done : w = .done := by simpa [saveLocked] using ok
    subst done
    have current : (naming b).current = none := by
      rw [naming, dead]
      rfl
    refine .trans (.single (.wake current)) (.trans (.single (.save rfl)) (moves_eq ?_))
    exact Naming.ext (congrArg some same) same rfl rfl rfl
  · -- the journal may have been replaced, but holds the generations that were read
    have kept : diskBook (w.write b.disk (some (openCoordinator policy b.disk epoch).journal)) = diskBook b.disk := by
      rcases w.write_cases b.disk (some (openCoordinator policy b.disk epoch).journal) with old | new
      · rw [old]
      · rw [new]
        exact same
    exact moves_eq (Naming.ext (congrArg (Option.map bookOf) dead.symm) kept rfl rfl rfl)

theorem moves_step (k : Kernel) (ok : BrokerOk (fun _ => True) b) (e : Event) :
    Moves (naming b) (naming (step k b e)) := by
  cases alive : b.running with
  | none =>
    cases e with
    | openCoordinator policy epoch w => exact moves_open alive policy epoch w k
    | _ =>
      unfold step
      rw [alive]
  | some c =>
    unfold step
    rw [alive]
    cases e with
    | execute r => exact .refl
    | executeLocal id profileId action confirm =>
      dsimp only [Broker.serve]
      split <;> exact .refl
    | previousAction id profileId action =>
      dsimp only [Broker.serve]
      split <;> exact .refl
    | bind session =>
      dsimp only [Broker.serve]
      split
      · exact .refl
      · refine moves_eq ?_
        rw [naming, naming, alive]
        rfl
    | go i pick env =>
      dsimp only [Broker.serve]
      unfold Broker.go
      split
      · exact .refl
      rename_i t found
      split
      · exact .refl
      · have threadOk := ok.threads t (List.mem_of_getElem? found)
        exact moves_release alive _ _ (leaves_go k (h := b.hold c) (ok.memory c alive) threadOk pick env).1
    | snapshot now =>
      dsimp only [Broker.serve]
      split
      · exact .refl
      · refine moves_eq ?_
        have same : probed (b.probes ++ [beginSnapshot c now]) = probed b.probes := by
          ext n
          simp [probed, notes, collected, beginSnapshot]
        rw [naming, naming, same]
    | observe i env =>
      dsimp only [Broker.serve]
      split
      · exact .refl
      · exact moves_observe alive i env
    | ready i env =>
      dsimp only [Broker.serve]
      split
      · exact .refl
      · exact moves_ready alive i env
    | publish i w =>
      dsimp only [Broker.serve]
      split
      · exact .refl
      · exact moves_publish ok alive i w
    | crash =>
      refine .trans (.single (.crash _)) (moves_eq ?_)
      have none : probed [] = ∅ := by
        ext n
        simp [probed]
      dsimp only [Broker.serve]
      rw [naming, naming, none]
      rfl
    | openCoordinator policy epoch w => exact .refl

theorem moves_run (k : Kernel) (events : List Event) :
    Moves (.start (book Table.empty)) (naming (run (step k) .start events)) := by
  have start : naming .start = .start (book Table.empty) := by
    have nothing : probed [] = ∅ := by
      ext n
      simp [probed]
    have silent : answered [] = ∅ := by
      ext n
      simp [answered]
    rw [naming, Broker.start, nothing, silent]
    rfl
  have reached := run_preserves
    (fun b => BrokerOk (fun _ => True) b ∧ Moves (.start (book Table.empty)) (naming b))
    (fun b e reached => ⟨(served_step k reached.1 e fun _ _ => trivial).ok, reached.2.trans (moves_step k reached.1 e)⟩)
    ⟨brokerOk_start, by rw [start]⟩ events
  exact reached.2

/-- Two states of one profile in snapshots, both of quality `ok`, whatever happened between them: the same
generation means the same instance, and the later one's is not smaller. -/
theorem generation_names_one_instance (k : Kernel) (events : List Event) (a b : Answer)
    (ha : a ∈ (run (step k) .start events).answers) (hb : b ∈ (run (step k) .start events).answers)
    (o o' : Observed) (ho : o ∈ a.states) (ho' : o' ∈ b.states)
    (profile : o.state.profileId = o'.state.profileId) (ok : o.state.quality = .ok) (ok' : o'.state.quality = .ok) :
    (a.control.epoch = b.control.epoch → o.state.generation = o'.state.generation → o.identity = o'.identity) ∧
      (o.tick ≤ o'.tick → o.state.generation ≤ o'.state.generation) := by
  have first : noteOf o ∈ answered (run (step k) .start events).answers := ⟨a, ha, o, ho, ok, rfl⟩
  have second : noteOf o' ∈ answered (run (step k) .start events).answers := ⟨b, hb, o', ho', ok', rfl⟩
  obtain ⟨unique, ordered⟩ := released_names_one (moves_run k events) first second profile
  exact ⟨fun _ => unique, ordered⟩

/-! A run with two snapshots, and a crash in which the generation of a third is lost. -/

def onePolicy : Policy where
  enabled := true
  profiles := [{ id := "m", allowedActions := [], observationOnly := false, kind := .docker, definitionHash := ""
                 sharedLock := "", backendRevision := "", exclusionGroups := [], requiredMemoryBytes := 0
                 osHeadroomBytes := 0, blockUnknownMemory := false, port := 0, revision := "" }]
  hash := "policy"
  existing_ungrouped := by
    intro p hp
    rw [List.mem_singleton.mp hp]
    exact fun _ => rfl

def stoppedAs (identity : String) : Probe :=
  ⟨hour, some ⟨.stopped, identity, 0, true, true, none⟩, .unknown, ""⟩

def snapshotOf (identity : String) (w : WriteOutcome) : List Event :=
  [.snapshot hour, .observe 0 (stoppedAs identity), .publish 0 w]

def lostGeneration : List Event :=
  [.openCoordinator onePolicy "e1" .done, .bind "s1"] ++ snapshotOf "x" .done ++ snapshotOf "y" .failed ++
    [.crash, .openCoordinator onePolicy "e2" .done, .bind "s1"] ++ snapshotOf "z" .done

def answerOf (generation : Int) (identity : String) (tick : Nat) : Answer :=
  ⟨"s1", ⟨true, some "e1", hour, ""⟩,
    [⟨⟨"m", generation, hour, .stopped, .notApplicable, .ok, ""⟩, identity, tick⟩]⟩

def plainKernel : Kernel where
  digest r := r.jobId
  localStageId id := id ++ "-start"
  checks :=
    { identity := fun p _ i => p ++ i, validateExistingReceipt := fun _ _ => true
      validateExistingSnapshot := fun _ _ _ => true, validExistingShutdown := fun _ _ _ _ => true
      compatibleExistingPhysical := fun _ _ => true, existingReadyPhysical := fun _ _ => true }

theorem lostGeneration_answers : (run (step plainKernel) .start lostGeneration).answers =
    [answerOf 2 "z" 2, answerOf 1 "x" 0] := by
  decide +kernel

theorem generation_names_one_instance_after_crash :
    (run (step plainKernel) .start lostGeneration).answers = [answerOf 2 "z" 2, answerOf 1 "x" 0] ∧
      (1 : Int) ≤ 2 := by
  refine ⟨lostGeneration_answers, ?_⟩
  have mem (a : Answer) (ha : a = answerOf 2 "z" 2 ∨ a = answerOf 1 "x" 0) :
      a ∈ (run (step plainKernel) .start lostGeneration).answers := by
    rw [lostGeneration_answers]
    simpa using ha
  exact (generation_names_one_instance plainKernel lostGeneration (answerOf 1 "x" 0) (answerOf 2 "z" 2)
    (mem _ (.inr rfl)) (mem _ (.inl rfl)) _ _ (List.mem_singleton.mpr rfl) (List.mem_singleton.mpr rfl) rfl rfl
    rfl).2 (by decide)

end Monik.SparkGenerations
