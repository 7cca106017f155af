import Monik.SpoolAccounting
import Mathlib.Data.List.Sort
import Mathlib.Logic.Equiv.Nat

/-! Runs of a spool whose process may stop between any two operations. Pending retirements are
finished by opening, pushing and listing, but not by dropping. -/

namespace Monik.SpoolRuns
open Protocol Tables Persistence CrashPoints Runs Spool SpoolAccounting

variable {d : Disk} {m : Ledger} {rep : AgentReport}

structure System where
  disk : Disk
  store : Option Ledger
  calls : List (String × String × Int)
  /-- The reports whose `Push` returned without an error. -/
  pushed : List AgentReport

inductive Event
  | push (rep : AgentReport) (env : Push) (cut : Option Nat)
  | list (limit : Nat) (env : Listing) (cut : Option Nat)
  | drop (rep : AgentReport) (env : Drop) (cut : Option Nat)
  | openSpool (env : Opening) (cut : Option Nat)
  | crash

def oldFiles (old : List (String × File)) : Map Place File :=
  old.foldl (fun files f => files.put (.old f.1) f.2) Table.empty

theorem get_oldFiles (old : List (String × File)) (name : Time × String) :
    (oldFiles old).get (.record name) = none := by
  suffices h : ∀ files : Map Place File, files.get (.record name) = none →
      (old.foldl (fun files f => files.put (.old f.1) f.2) files).get (.record name) = none from
    h _ (Map.get_empty _)
  induction old with
  | nil => exact fun _ => id
  | cons f old ih =>
    intro files absent
    refine ih _ ?_
    rw [Map.get_put, if_neg nofun]
    exact absent

def System.start (old : List (String × File)) : System :=
  ⟨⟨oldFiles old, none, [], [], []⟩, none, [], []⟩

def step (k : Library) (s : System) : Event → System
  | .push rep env cut =>
    match s.store with
    | none => s
    | some m =>
      let p := push k m rep env
      let r := (p s.disk).result
      { disk := p.leaves s.disk cut
        store := if cut.isNone then some r.1 else none
        calls := rep.key :: s.calls
        pushed := if cut.isNone ∧ r.2 = none then rep :: s.pushed else s.pushed }
  | .list limit env cut =>
    match s.store with
    | none => s
    | some m =>
      let p := listLimit k m limit env
      { s with disk := p.leaves s.disk cut, store := if cut.isNone then some (p s.disk).result.1 else none }
  | .drop rep env cut =>
    match s.store with
    | none => s
    | some m =>
      { s with disk := (dropReport k rep env).leaves s.disk cut, store := if cut.isNone then some m else none }
  | .openSpool env cut =>
    let p := openSpool k env
    { s with disk := p.leaves s.disk cut, store := if cut.isNone then (p s.disk).result.toOption else none }
  | .crash => { s with store := none }

def Allowed (k : Library) (s : System) : Event → Prop
  | .push rep _ _ => rep.key ∉ s.calls
  | .drop rep _ _ => ∀ m, s.store = some m → place k rep ∈ m.pending → s.disk.files.get (place k rep) = none
  | _ => True

structure Consistent (k : Library) (s : System) : Prop where
  accounts : Accounts k s.disk
  synced : ∀ m, s.store = some m → m = s.disk.loss
  calls : ∀ w ∈ s.disk.written, w.1.key ∈ s.calls
  pushed : ∀ r ∈ s.pushed, ∃ t, (r, t) ∈ s.disk.written

theorem consistent_start (k : Library) (old : List (String × File)) : Consistent k (.start old) := by
  refine ⟨⟨rfl, List.forall_mem_nil _, nofun, fun name f file => ?_, fun _ _ mem => absurd mem List.not_mem_nil,
    List.forall_mem_nil _, .nil, List.forall_mem_nil _⟩, nofun, List.forall_mem_nil _, List.forall_mem_nil _⟩
  cases file.symm.trans (get_oldFiles old name)

variable {k : Library} {s : System}

theorem synced_left {α : Type} {p : Proc Disk α} {cut : Option Nat}
    (synced : m = (p d).state.loss) (m' : Ledger) (h : (if cut.isNone then some m else none) = some m') :
    m' = (p.leaves d cut).loss := by
  cases cut with
  | none =>
    cases h
    exact synced
  | some n => cases h

theorem toOption_eq_some {r : Except String Ledger} (h : r.toOption = some m) : r = .ok m := by
  cases r with
  | error => cases h
  | ok v => exact congrArg Except.ok (Option.some.inj h)

theorem Consistent.logged (h : Consistent k s) {store : Option Ledger}
    (logged : Logged k s.disk.written d) (synced : ∀ m, store = some m → m = d.loss) :
    Consistent k { s with disk := d, store } := by
  refine ⟨logged.accounts, synced, fun w hw => ?_, fun r hr => ?_⟩
  · exact h.calls w (logged.written ▸ hw)
  · obtain ⟨t, mem⟩ := h.pushed r hr
    exact ⟨t, logged.written.symm ▸ mem⟩

theorem Consistent.push (h : Consistent k s) (store : s.store = some m) (new : rep.key ∉ s.calls) (env : Push) :
    Holds (Writes k s.disk.written rep env.mod) (push k m rep env) (Pushed k s.disk.written rep env s.disk) s.disk := by
  rw [h.synced m store]
  exact push_holds rep env ⟨h.accounts, rfl⟩ fun w hw same => new (same ▸ h.calls w hw)

theorem Consistent.list (h : Consistent k s) (store : s.store = some m) (limit : Nat) (env : Listing) :
    Holds (Logged k s.disk.written) (listLimit k m limit env) (Listed k s.disk.written env s.disk) s.disk := by
  rw [h.synced m store]
  exact listLimit_holds limit env ⟨h.accounts, rfl⟩

theorem Consistent.drop (h : Consistent k s) (store : s.store = some m)
    (free : place k rep ∈ m.pending → s.disk.files.get (place k rep) = none) (env : Drop) :
    Holds (Logged k s.disk.written) (dropReport k rep env) (fun _ => Dropped k s.disk.written s.disk) s.disk := by
  rw [h.synced m store] at free
  exact dropReport_holds env ⟨h.accounts, rfl⟩ free

theorem step_consistent (h : Consistent k s) (e : Event) (ok : Allowed k s e) : Consistent k (step k s e) := by
  have start : Logged k s.disk.written s.disk := ⟨h.accounts, rfl⟩
  cases e with
  | push rep env cut =>
    unfold step
    cases store : s.store with
    | none => exact h
    | some m =>
      have holds := h.push store ok env
      have left := holds.leaves (.inl start) (fun _ _ pushed => pushed.writes) cut
      have grown : ∀ w ∈ s.disk.written, w ∈ ((Spool.push k m rep env).leaves s.disk cut).written := by
        intro w hw
        rcases left with same | added
        · rwa [same.written]
        · rw [added.written]
          exact List.mem_append_left _ hw
      refine ⟨left.elim Logged.accounts Logged.accounts, synced_left holds.2.synced, fun w hw => ?_,
        fun r hr => ?_⟩
      · rcases left with same | added
        · exact List.mem_cons_of_mem _ (h.calls w (same.written ▸ hw))
        · rcases List.mem_append.mp (added.written ▸ hw) with old | new
          · exact List.mem_cons_of_mem _ (h.calls w old)
          · rw [List.mem_singleton.mp new]
            exact List.mem_cons_self
      · dsimp only at hr
        split at hr
        · rename_i done
          rcases List.mem_cons.mp hr with rfl | before
          · cases Option.isNone_iff_eq_none.mp done.1
            exact ⟨env.mod, (holds.2.done done.2).1⟩
          · obtain ⟨t, mem⟩ := h.pushed r before
            exact ⟨t, grown _ mem⟩
        · obtain ⟨t, mem⟩ := h.pushed r hr
          exact ⟨t, grown _ mem⟩
  | list limit env cut =>
    unfold step
    cases store : s.store with
    | none => exact h
    | some m =>
      have holds := h.list store limit env
      exact h.logged (holds.leaves start (fun _ _ listed => listed.logged) cut) (synced_left holds.2.synced)
  | drop rep env cut =>
    unfold step
    cases store : s.store with
    | none => exact h
    | some m =>
      have holds := h.drop store (ok m store) env
      refine h.logged (holds.leaves start (fun _ _ dropped => dropped.logged) cut) (synced_left ?_)
      exact (h.synced m store).trans holds.2.loss.symm
  | openSpool env cut =>
    have holds := openSpool_holds env start
    refine h.logged (holds.leaves start (fun _ _ opened => opened.logged) cut) fun m store => ?_
    cases cut with
    | none => exact (holds.2.store m (toOption_eq_some store)).1
    | some n => cases store
  | crash => exact { h with synced := nofun }

def Reliable : Event → Prop
  | .push _ env _ => Removes env.trim.first ∧ ∀ n, Removes (env.trim.batch n).after
  | .list _ env _ => Removes env.trim.first ∧ ∀ n, Removes (env.trim.batch n).after
  | _ => True

structure Settled (k : Library) (s : System) : Prop extends Consistent k s where
  cleared : ∀ m, s.store = some m → Cleared s.disk

theorem Settled.allowed_drop (h : Settled k s) (rep : AgentReport) (env : Drop) (cut : Option Nat) :
    Allowed k s (.drop rep env cut) := by
  intro m store waiting
  rw [h.synced m store] at waiting
  exact h.cleared m store _ waiting

theorem step_settled (h : Settled k s) (e : Event) (ok : Allowed k s e) (sure : Reliable e) :
    Settled k (step k s e) := by
  refine ⟨step_consistent h.toConsistent e ok, fun m' left => ?_⟩
  cases e with
  | push rep env cut =>
    unfold step at left ⊢
    cases store : s.store with
    | none => rw [store] at left; cases store.symm.trans left
    | some m =>
      rw [store] at left
      cases cut with
      | none => exact (h.toConsistent.push store ok env).2.cleared sure (h.cleared m store)
      | some n => cases left
  | list limit env cut =>
    unfold step at left ⊢
    cases store : s.store with
    | none => rw [store] at left; cases store.symm.trans left
    | some m =>
      rw [store] at left
      cases cut with
      | none => exact (h.toConsistent.list store limit env).2.cleared sure (h.cleared m store)
      | some n => cases left
  | drop rep env cut =>
    unfold step at left ⊢
    cases store : s.store with
    | none => rw [store] at left; cases store.symm.trans left
    | some m =>
      rw [store] at left
      cases cut with
      | none =>
        have dropped := (h.toConsistent.drop store (ok m store) env).2
        exact fun p hp => dropped.shrinks p (h.cleared m store p (dropped.loss ▸ hp))
      | some n => cases left
  | openSpool env cut =>
    cases cut with
    | none =>
      obtain ⟨synced, idle⟩ := (openSpool_holds env ⟨h.accounts, rfl⟩).2.store m' (toOption_eq_some left)
      exact cleared_of_idle (synced ▸ idle)
    | some n => cases left
  | crash => cases left

def Undisturbed (s : System) : Event → Prop
  | .push rep env cut => Reliable (.push rep env cut) ∧ rep.key ∉ s.calls
  | e => Reliable e

theorem Settled.allowed (h : Settled k s) {e : Event} (ok : Undisturbed s e) : Allowed k s e ∧ Reliable e := by
  cases e with
  | push rep env cut => exact ok.symm
  | drop rep env cut => exact ⟨h.allowed_drop rep env cut, ok⟩
  | list | openSpool | crash => exact ⟨trivial, ok⟩

theorem Settled.meets {events : List Event} (h : Settled k s)
    (undisturbed : Meets (step k) Undisturbed s events) : Meets (step k) (Allowed k) s events := by
  induction events generalizing s with
  | nil => trivial
  | cons e events ih =>
    obtain ⟨ok, sure⟩ := h.allowed undisturbed.1
    exact ⟨ok, ih (step_settled h e ok sure) undisturbed.2⟩

theorem undisturbed_allowed {old : List (String × File)} {events : List Event}
    (undisturbed : Meets (step k) Undisturbed (.start old) events) : Meets (step k) (Allowed k) (.start old) events :=
  Settled.meets ⟨consistent_start k old, nofun⟩ undisturbed

def InRecord (k : Library) (d : Disk) (r : AgentReport) : Prop :=
  (d.files.get (place k r)).isSome ∧ place k r ∉ d.loss.pending

def Accounted (k : Library) (d : Disk) (r : AgentReport) (mod : Time) : Prop :=
  InRecord k d r ∧ ¬Acknowledged d r ∧ countOf d (place k r) = 0 ∨
  ¬InRecord k d r ∧ Acknowledged d r ∧ countOf d (place k r) = 0 ∨
  ¬InRecord k d r ∧ ¬Acknowledged d r ∧ countOf d (place k r) = 1 ∧ Covers d.loss mod

theorem accounted (h : Accounts k d) {r : AgentReport} {mod : Time} (mem : (r, mod) ∈ d.written) :
    Accounted k d r mod := by
  cases h.classes _ mem with
  | kept f file fresh uncounted =>
    refine .inl ⟨⟨by rw [file]; rfl, fun waiting => ?_⟩, fresh, uncounted⟩
    exact absurd uncounted (Nat.pos_iff_ne_zero.mp (counted_pos (h.pending _ waiting)))
  | acknowledged gone removed uncounted =>
    refine .inr (.inl ⟨fun there => ?_, removed, uncounted⟩)
    cases Option.isSome_iff_ne_none.mp there.1 gone
  | lost gone fresh counted entry =>
    refine .inr (.inr ⟨fun there => ?_, fresh, counted, h.interval _ entry⟩)
    rcases gone with missing | waiting
    · cases Option.isSome_iff_ne_none.mp there.1 missing
    · exact there.2 waiting

/-- While each identity is pushed once and no record with a pending retirement is dropped, every pushed
report is in one class, and the ledger counts what was lost. -/
theorem spool_accounts_for_every_report (k : Library) (old : List (String × File)) (events : List Event)
    (allowed : Meets (step k) (Allowed k) (.start old) events) :
    let s := run (step k) (.start old) events
    s.disk.loss.dropped = s.disk.lost.length ∧
    (∀ r ∈ s.pushed, ∃ mod, (r, mod) ∈ s.disk.written ∧ Accounted k s.disk r mod) ∧
    (∀ m, s.store = some m → ∀ rep env, rep.key ∉ s.calls → (push k m rep env s.disk).result.2 = none →
      Within env.trim.now (push k m rep env s.disk).state.files.rows) ∧
    ∀ m, s.store = some m → ∀ limit env, (listLimit k m limit env s.disk).result.2.2 = none →
      Within env.trim.now (listLimit k m limit env s.disk).state.files.rows := by
  intro s
  have h : Consistent k s :=
    run_invariant (Consistent k) (fun _ e h ok => step_consistent h e ok) (consistent_start k old) allowed
  refine ⟨h.accounts.total, fun r hr => ?_, fun m store rep env new done => ?_,
    fun m store limit env done => ?_⟩
  · obtain ⟨mod, mem⟩ := h.pushed r hr
    exact ⟨mod, mem, accounted h.accounts mem⟩
  · exact ((h.push store new env).2.done done).2
  · exact (h.list store limit env).2.within done

/-! A library, and a run of it in which a deletion fails. -/

def mark : List Char → List Char
  | [] => ['z']
  | c :: rest => 'c' :: c :: mark rest

theorem mark_append {a b x y : List Char} (h : mark a ++ x = mark b ++ y) : a = b ∧ x = y := by
  induction a generalizing b with
  | nil =>
    cases b with
    | nil => exact ⟨rfl, by simpa [mark] using h⟩
    | cons c b => simp [mark] at h
  | cons c a ih =>
    cases b with
    | nil => simp [mark] at h
    | cons d b =>
      simp only [mark, List.cons_append, List.cons.injEq, true_and] at h
      obtain ⟨rfl, rest⟩ := ih h.2
      exact ⟨by rw [h.1], rest⟩

def plainDigest (key : String × String × Int) : String :=
  String.ofList (mark key.1.toList ++ (mark key.2.1.toList ++ List.replicate (Equiv.intEquivNat key.2.2) 'n'))

theorem plainDigest_injective {a b : String × String × Int} (h : plainDigest a = plainDigest b) : a = b := by
  obtain ⟨agent, rest⟩ := mark_append (String.ofList_injective h)
  obtain ⟨session, count⟩ := mark_append rest
  have sequence : a.2.2 = b.2.2 := by
    refine Equiv.intEquivNat.injective ?_
    simpa using congrArg List.length count
  exact Prod.ext (String.toList_injective agent) (Prod.ext (String.toList_injective session) sequence)

def plain : Library where
  digest := plainDigest
  injective := fun _ _ => plainDigest_injective
  stamp := fun _ => "t"
  codec := ⟨AgentReport.rest, id⟩
  bytes := fun _ => 100
  byMod := List.insertionSort fun a b => a.2.mod ≤ b.2.mod
  perm := List.perm_insertionSort _
  sorted := fun l => by
    have total : Std.Total fun a b : Entry => a.2.mod ≤ b.2.mod := ⟨fun _ _ => le_total _ _⟩
    have trans : IsTrans Entry fun a b => a.2.mod ≤ b.2.mod := ⟨fun _ _ _ => le_trans⟩
    exact List.pairwise_insertionSort _ l

def report (n : Int) : AgentReport :=
  { agentFlavor := "general", schemaVersion := 2, agentId := "a1", sessionId := "s1"
    sequence := n, observedAt := n * hour, reportedAt := 0, configRevision := 0, configHash := ""
    endpointGeneration := 0, workerDigest := "", managedReady := true, immutableRelease := true
    host := none, checks := [], discovery := none, spark := none
    jobReceipts := [], isLive := true, rest := "" }

def smooth : Finish := ⟨fun _ => .ok (), fun _ => .ok (), .ok (), true⟩

def pushAt (now : Time) (deletes : Except String Unit) : Push :=
  ⟨.ok (), true, now, ⟨smooth, .ok (), now, fun _ => ⟨smooth, true, { smooth with remove := fun _ => deletes }⟩⟩⟩

def retiring (deletes : Except String Unit) : List Event :=
  [.openSpool ⟨.ok (), .ok (), smooth⟩ none, .push (report 1) (pushAt hour (.ok ())) none,
    .push (report 2) (pushAt (2 * hour) deletes) none]

def acknowledging : Event := .drop (report 1) ⟨fun _ => .ok (), fun _ => .ok ()⟩ none

theorem spool_accounts_when_deletions_succeed :
    let s := run (step plain) (.start []) (retiring (.ok ()) ++ [acknowledging])
    s.pushed = [report 2, report 1] ∧ s.disk.lost = [(place plain (report 1), hour)] ∧
      ∀ r ∈ s.pushed, ∃ mod, (r, mod) ∈ s.disk.written ∧ Accounted plain s.disk r mod := by
  refine ⟨by decide +kernel, by decide +kernel, ?_⟩
  have sure : Removes smooth := fun _ => ⟨rfl, rfl⟩
  have undisturbed : Meets (step plain) Undisturbed (.start []) (retiring (.ok ()) ++ [acknowledging]) := by
    exact ⟨trivial, ⟨⟨sure, fun _ => sure⟩, by decide +kernel⟩, ⟨⟨sure, fun _ => sure⟩, by decide +kernel⟩,
      trivial, trivial⟩
  exact (spool_accounts_for_every_report plain [] _ (undisturbed_allowed undisturbed)).2.1

theorem retired_report_is_acknowledged :
    let s := run (step plain) (.start []) (retiring (.error "device busy") ++ [acknowledging])
    report 1 ∈ s.pushed ∧ Acknowledged s.disk (report 1) ∧ countOf s.disk (place plain (report 1)) = 1 ∧
      s.disk.loss.dropped = 1 ∧ s.disk.loss.pending = [place plain (report 1)] ∧
      ∀ mod, ¬Accounted plain s.disk (report 1) mod := by
  intro s
  have acknowledged : Acknowledged s.disk (report 1) := ⟨report 1, by decide +kernel, rfl⟩
  have counted : countOf s.disk (place plain (report 1)) = 1 := by decide +kernel
  refine ⟨by decide +kernel, acknowledged, counted, by decide +kernel, by decide +kernel, ?_⟩
  rintro mod (⟨-, fresh, -⟩ | ⟨-, -, uncounted⟩ | ⟨-, fresh, -⟩)
  · exact fresh acknowledged
  · cases uncounted
  · exact fresh acknowledged

end Monik.SpoolRuns
