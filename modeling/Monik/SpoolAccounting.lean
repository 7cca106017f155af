import Monik.Spool
import Monik.Runs

/-! Every spooled report is there, was removed on acknowledgement, or is counted as lost; each
operation on the disk keeps the account. -/

namespace Monik.SpoolAccounting
open Protocol Tables Persistence CrashPoints Runs Spool
open AgentRuntime (recordName sameReport)

variable {p : Place} {f : File} {rep : AgentReport} {v v' : Ledger} {e : Entry} {entries rest retiring : List Entry}
    {places : List Place}

def countOf (d : Disk) (p : Place) : Nat := (d.lost.map Prod.fst).count p

def Acknowledged (d : Disk) (r : AgentReport) : Prop := ∃ x ∈ d.removed, x.key = r.key

variable {k : Library} {d d' : Disk}

theorem place_injective {a b : AgentReport} (h : place k a = place k b) : a.key = b.key := by
  injection h with same
  exact k.injective _ _ (congrArg Prod.snd same)

inductive Class (k : Library) (d : Disk) (w : AgentReport × Time) : Prop
  | kept (f : File) (file : d.files.get (place k w.1) = some f) (fresh : ¬Acknowledged d w.1)
      (uncounted : countOf d (place k w.1) = 0)
  | acknowledged (gone : d.files.get (place k w.1) = none) (removed : Acknowledged d w.1)
      (uncounted : countOf d (place k w.1) = 0)
  | lost (gone : d.files.get (place k w.1) = none ∨ place k w.1 ∈ d.loss.pending)
      (fresh : ¬Acknowledged d w.1) (counted : countOf d (place k w.1) = 1)
      (entry : (place k w.1, w.2) ∈ d.lost)

theorem Class.untouched {w : AgentReport × Time} (h : Class k d w)
    (file : d'.files.get (place k w.1) = d.files.get (place k w.1))
    (acknowledged : Acknowledged d' w.1 ↔ Acknowledged d w.1)
    (count : countOf d' (place k w.1) = countOf d (place k w.1))
    (pending : place k w.1 ∈ d.loss.pending → place k w.1 ∈ d'.loss.pending)
    (lost : ∀ x ∈ d.lost, x ∈ d'.lost) : Class k d' w := by
  cases h with
  | kept f found fresh uncounted =>
    exact .kept f (file.trans found) (fresh ∘ acknowledged.mp) (count.trans uncounted)
  | acknowledged gone removed uncounted =>
    exact .acknowledged (file.trans gone) (acknowledged.mpr removed) (count.trans uncounted)
  | lost gone fresh counted entry =>
    exact .lost (gone.imp file.trans pending) (fresh ∘ acknowledged.mp) (count.trans counted) (lost _ entry)

structure Accounts (k : Library) (d : Disk) : Prop where
  total : d.loss.dropped = d.lost.length
  interval : ∀ x ∈ d.lost, ∃ a b, d.loss.fromTime = some a ∧ d.loss.toTime = some b ∧ a ≤ x.2 ∧ x.2 ≤ b
  pending : ∀ p ∈ d.loss.pending, p ∈ d.lost.map Prod.fst
  files : ∀ name f, d.files.get (.record name) = some f →
    (f.report, f.mod) ∈ d.written ∧ Place.record name = place k f.report
  owned : ∀ name t, (Place.record name, t) ∈ d.lost → ∃ w ∈ d.written, Place.record name = place k w.1
  removed : ∀ r ∈ d.removed, ∃ w ∈ d.written, w.1.key = r.key
  distinct : (d.written.map fun w => w.1.key).Nodup
  classes : ∀ w ∈ d.written, Class k d w

theorem counted_pos (h : p ∈ d.lost.map Prod.fst) : 0 < countOf d p :=
  List.count_pos_iff.mpr h

theorem Accounts.uncounted (h : Accounts k d) {name : Time × String}
    (file : d.files.get (.record name) = some f) (free : Place.record name ∉ d.loss.pending) :
    countOf d (.record name) = 0 ∧ ∀ w ∈ d.written, place k w.1 = .record name → ¬Acknowledged d w.1 := by
  obtain ⟨mem, same⟩ := h.files name f file
  have alone : ∀ w ∈ d.written, place k w.1 = .record name → w = (f.report, f.mod) := by
    intro w hw at_
    exact List.inj_on_of_nodup_map h.distinct hw mem (place_injective (at_.trans same))
  have fresh : countOf d (.record name) = 0 ∧ ¬Acknowledged d f.report := by
    rw [same] at file free ⊢
    cases h.classes _ mem with
    | kept _ _ fresh uncounted => exact ⟨uncounted, fresh⟩
    | acknowledged gone => cases file.symm.trans gone
    | lost gone =>
      rcases gone with missing | waiting
      · cases file.symm.trans missing
      · exact absurd waiting free
  refine ⟨fresh.1, fun w hw at_ => ?_⟩
  rw [alone w hw at_]
  exact fresh.2

theorem Accounts.erasePending (h : Accounts k d) (waiting : p ∈ d.loss.pending) :
    Accounts k { d with files := d.files.erase p } := by
  refine ⟨h.total, h.interval, h.pending, fun name f file => ?_, h.owned, h.removed, h.distinct,
    fun w hw => ?_⟩
  · rw [Map.get_erase] at file
    split at file
    · cases file
    · exact h.files name f file
  · by_cases same : place k w.1 = p
    · have counted := counted_pos (h.pending p waiting)
      cases h.classes w hw with
      | kept _ _ _ uncounted | acknowledged _ _ uncounted =>
        rw [same] at uncounted
        omega
      | lost _ fresh counted entry =>
        exact .lost (.inl (by rw [Map.get_erase, if_pos same])) fresh counted entry
    · refine (h.classes w hw).untouched ?_ .rfl rfl id fun _ => id
      rw [Map.get_erase, if_neg same]

theorem Accounts.clear (h : Accounts k d) (gone : ∀ p ∈ d.loss.pending, d.files.get p = none) :
    Accounts k { d with ledger := some { d.loss with pending := [] } } := by
  refine ⟨h.total, h.interval, nofun, h.files, h.owned, h.removed, h.distinct, fun w hw => ?_⟩
  cases h.classes w hw with
  | kept f file fresh uncounted => exact .kept f file fresh uncounted
  | acknowledged gone removed uncounted => exact .acknowledged gone removed uncounted
  | lost left fresh counted entry => exact .lost (.inl (left.elim id (gone _))) fresh counted entry

theorem Accounts.write (h : Accounts k d) {mod : Time} {size : Nat} (new : ∀ w ∈ d.written, w.1.key ≠ rep.key) :
    Accounts k { d with files := d.files.put (place k rep) ⟨rep, mod, size⟩
                        written := d.written ++ [(rep, mod)] } := by
  have apart : ∀ w ∈ d.written, place k w.1 ≠ place k rep :=
    fun w hw same => new w hw (place_injective same)
  refine ⟨h.total, h.interval, h.pending, fun name f file => ?_, fun name t mem => ?_, fun r hr => ?_, ?_,
    fun w hw => ?_⟩
  · rw [Map.get_put] at file
    split at file
    · rename_i same
      cases file
      exact ⟨List.mem_append_right _ (List.mem_singleton.mpr rfl), same⟩
    · obtain ⟨mem, same⟩ := h.files name f file
      exact ⟨List.mem_append_left _ mem, same⟩
  · obtain ⟨w, hw, same⟩ := h.owned name t mem
    exact ⟨w, List.mem_append_left _ hw, same⟩
  · obtain ⟨w, hw, same⟩ := h.removed r hr
    exact ⟨w, List.mem_append_left _ hw, same⟩
  · rw [List.map_append]
    refine List.Nodup.append h.distinct (List.nodup_singleton _) fun key old added => ?_
    obtain ⟨w, hw, rfl⟩ := List.mem_map.mp old
    exact new w hw (List.mem_singleton.mp added)
  · rcases List.mem_append.mp hw with old | added
    · refine (h.classes w old).untouched ?_ .rfl rfl id fun _ => id
      rw [Map.get_put, if_neg (apart w old)]
    · cases List.mem_singleton.mp added
      refine .kept _ (Map.get_put_self _ _ _) ?_ (List.count_eq_zero.mpr ?_)
      · rintro ⟨x, hx, same⟩
        obtain ⟨w, hw, key⟩ := h.removed x hx
        exact new w hw (key.trans same)
      · intro counted
        obtain ⟨⟨p, t⟩, mem, same⟩ := List.mem_map.mp counted
        cases same
        obtain ⟨w, hw, at_⟩ := h.owned _ t mem
        exact apart w hw at_.symm

def Covers (v : Ledger) (t : Time) : Prop :=
  ∃ a b, v.fromTime = some a ∧ v.toTime = some b ∧ a ≤ t ∧ t ≤ b

theorem addLoss_ok (h : addLoss k v e = .ok v') :
    v'.dropped = v.dropped + 1 ∧ v'.pending = v.pending ++ [e.1] ∧ validLossPath (e.1.rel k) = true ∧
      Covers v' e.2.mod ∧ ∀ t, Covers v t → Covers v' t := by
  unfold addLoss at h
  split_ifs at h with invalid full
  cases h
  refine ⟨rfl, rfl, Bool.of_not_eq_false invalid, ?_, fun t covered => ?_⟩
  · refine ⟨_, _, rfl, rfl, ?_, ?_⟩
    · split
      · exact le_refl _
      · split
        · exact le_refl _
        · exact not_lt.mp ‹_›
    · split
      · exact le_refl _
      · split
        · exact le_refl _
        · exact not_lt.mp ‹_›
  · obtain ⟨a, b, lower, upper, above, below⟩ := covered
    refine ⟨_, _, rfl, rfl, ?_, ?_⟩
    · rw [lower]
      dsimp only
      split
      · exact (le_of_lt ‹_›).trans above
      · exact above
    · rw [upper]
      dsimp only
      split
      · exact below.trans (le_of_lt ‹_›)
      · exact below

theorem addLosses_ok (h : entries.foldlM (addLoss k) v = .ok v') :
    v'.dropped = v.dropped + entries.length ∧ v'.pending = v.pending ++ entries.map Prod.fst ∧
      (∀ e ∈ entries, validLossPath (e.1.rel k) = true ∧ Covers v' e.2.mod) ∧ ∀ t, Covers v t → Covers v' t := by
  induction entries generalizing v with
  | nil =>
    cases h
    simp
  | cons e entries ih =>
    obtain ⟨u, first, rest⟩ := bind_ok.mp h
    obtain ⟨dropped, pending, valid, covered, wider⟩ := addLoss_ok first
    obtain ⟨dropped', pending', covered', wider'⟩ := ih rest
    refine ⟨?_, ?_, fun x hx => ?_, fun t ht => wider' t (wider t ht)⟩
    · rw [dropped', dropped, List.length_cons]
      push_cast
      omega
    · rw [pending', pending, List.map_cons, List.append_assoc, List.singleton_append]
    · rcases List.mem_cons.mp hx with rfl | later
      · exact ⟨valid, wider' _ covered⟩
      · exact covered' x later

theorem Accounts.retire (h : Accounts k d) (idle : d.loss.pending = [])
    (files : ∀ e ∈ entries, d.files.get e.1 = some e.2) (distinct : (entries.map Prod.fst).Nodup)
    (added : entries.foldlM (addLoss k) d.loss = .ok v) :
    Accounts k { d with ledger := some v, lost := d.lost ++ entries.map fun e => (e.1, e.2.mod) } := by
  obtain ⟨dropped, pending, covered, wider⟩ := addLosses_ok added
  rw [idle, List.nil_append] at pending
  have places : (entries.map fun e => (e.1, e.2.mod)).map Prod.fst = entries.map Prod.fst := by
    rw [List.map_map]
    rfl
  have count (p : Place) : ((d.lost ++ entries.map fun e => (e.1, e.2.mod)).map Prod.fst).count p =
      countOf d p + (entries.map Prod.fst).count p := by
    rw [List.map_append, List.count_append, places]
    rfl
  refine ⟨?_, fun x hx => ?_, fun p hp => ?_, h.files, fun name t mem => ?_, h.removed, h.distinct,
    fun w hw => ?_⟩
  · change v.dropped = _
    rw [dropped, h.total, List.length_append, List.length_map]
    push_cast
    rfl
  · rcases List.mem_append.mp hx with old | new
    · exact wider x.2 (h.interval x old)
    · obtain ⟨e, he, rfl⟩ := List.mem_map.mp new
      exact (covered e he).2
  · change p ∈ v.pending at hp
    rw [pending] at hp
    rw [List.map_append, places]
    exact List.mem_append_right _ hp
  · rcases List.mem_append.mp mem with old | new
    · exact h.owned name t old
    · obtain ⟨e, he, same⟩ := List.mem_map.mp new
      have file := files e he
      rw [congrArg Prod.fst same] at file
      obtain ⟨written, at_⟩ := h.files name e.2 file
      exact ⟨_, written, at_⟩
  · by_cases chosen : place k w.1 ∈ entries.map Prod.fst
    · obtain ⟨e, he, at_⟩ := List.mem_map.mp chosen
      have file := files e he
      rw [at_] at file
      obtain ⟨written, same⟩ := h.files _ e.2 file
      have own : w = (e.2.report, e.2.mod) :=
        List.inj_on_of_nodup_map h.distinct hw written (place_injective same)
      obtain ⟨uncounted, fresh⟩ := h.uncounted file (by rw [idle]; exact List.not_mem_nil)
      refine .lost (.inr (by change _ ∈ v.pending; rw [pending]; exact chosen)) (fresh w hw rfl) ?_ ?_
      · change ((d.lost ++ entries.map fun e => (e.1, e.2.mod)).map Prod.fst).count (place k w.1) = 1
        rw [count, List.count_eq_one_of_mem distinct chosen]
        exact congrArg (· + 1) uncounted
      · refine List.mem_append_right _ (List.mem_map.mpr ⟨e, he, ?_⟩)
        rw [at_, own]
    · refine (h.classes w hw).untouched rfl .rfl ?_ (fun waiting => ?_) fun x => List.mem_append_left _
      · exact (count _).trans (by rw [List.count_eq_zero.mpr chosen, Nat.add_zero])
      · rw [idle] at waiting
        exact absurd waiting List.not_mem_nil

theorem Accounts.acknowledge (h : Accounts k d)
    (file : d.files.get (place k rep) = some f) (free : place k rep ∉ d.loss.pending) :
    Accounts k { d with files := d.files.erase (place k rep), removed := d.removed ++ [rep] } := by
  obtain ⟨uncounted, -⟩ := h.uncounted file free
  obtain ⟨written, same⟩ := h.files _ f file
  refine ⟨h.total, h.interval, h.pending, fun name g found => ?_, h.owned, fun r hr => ?_, h.distinct,
    fun w hw => ?_⟩
  · rw [Map.get_erase] at found
    split at found
    · cases found
    · exact h.files name g found
  · rcases List.mem_append.mp hr with old | new
    · exact h.removed r old
    · rw [List.mem_singleton.mp new]
      exact ⟨_, written, (place_injective same).symm⟩
  · by_cases own : w.1.key = rep.key
    · have at_ : place k w.1 = place k rep := by
        have alone : w = (f.report, f.mod) := List.inj_on_of_nodup_map h.distinct hw written
          (own.trans (place_injective same))
        rw [alone]
        exact same.symm
      refine .acknowledged ?_ ⟨rep, List.mem_append_right _ (List.mem_singleton.mpr rfl), own.symm⟩ ?_
      · rw [Map.get_erase, if_pos at_]
      · rw [at_]
        exact uncounted
    · have apart : place k w.1 ≠ place k rep := fun at_ => own (place_injective at_)
      refine (h.classes w hw).untouched ?_ ⟨?_, ?_⟩ rfl id fun _ => id
      · rw [Map.get_erase, if_neg apart]
      · rintro ⟨x, hx, key⟩
        rcases List.mem_append.mp hx with old | new
        · exact ⟨x, old, key⟩
        · rw [List.mem_singleton.mp new] at key
          exact absurd key.symm own
      · rintro ⟨x, hx, key⟩
        exact ⟨x, List.mem_append_left _ hx, key⟩

theorem Accounts.eraseOld (h : Accounts k d) (name : String) :
    Accounts k { d with files := d.files.erase (.old name) } := by
  have get (r : Time × String) : (d.files.erase (.old name)).get (.record r) = d.files.get (.record r) := by
    rw [Map.get_erase, if_neg nofun]
  exact ⟨h.total, h.interval, h.pending, fun r f file => h.files r f ((get r).symm.trans file), h.owned,
    h.removed, h.distinct, fun w hw => (h.classes w hw).untouched (get _) .rfl rfl id fun _ => id⟩

/-! The procedures. -/

structure Logged (k : Library) (log : List (AgentReport × Time)) (d : Disk) : Prop where
  accounts : Accounts k d
  written : d.written = log

variable {log : List (AgentReport × Time)}

theorem save_holds {inv : Disk → Prop} {post : Bool → Disk → Prop} {done : Bool} {f : Disk → Disk}
    (old : inv d) (new : inv (f d)) (failed : post false d) (replaced : post true (f d)) :
    Holds inv (save done f) post d := by
  cases done with
  | true => exact .replace_done new replaced
  | false => exact .replace_failed old failed

def without (places : List Place) (rows : List Entry) : List Entry := rows.filter fun e => e.1 ∉ places

theorem without_nil (rows : List Entry) : without [] rows = rows := by
  simp [without]

theorem without_cons (p : Place) (places : List Place) (rows : List Entry) :
    without (p :: places) rows = without places (rows.filter fun e => !(e.1 == p)) := by
  rw [without, without, List.filter_filter]
  congr 1
  funext e
  by_cases same : e.1 = p <;> simp [same]

theorem without_perm {rows taken : List Entry} (split : rows.Perm (taken ++ rest))
    (distinct : (rows.map Prod.fst).Nodup) : (without (taken.map Prod.fst) rows).Perm rest := by
  have keys : ((taken ++ rest).map Prod.fst).Nodup := (split.map Prod.fst).nodup_iff.mp distinct
  rw [List.map_append, List.nodup_append] at keys
  have gone : taken.filter (fun e => e.1 ∉ taken.map Prod.fst) = [] := by
    refine List.filter_eq_nil_iff.mpr fun e he => ?_
    simpa using ⟨e.2, he⟩
  have stays : rest.filter (fun e => e.1 ∉ taken.map Prod.fst) = rest := by
    refine List.filter_eq_self.mpr fun e he => ?_
    rw [decide_eq_true_eq]
    exact fun taken => keys.2.2 _ taken _ (List.mem_map_of_mem he) rfl
  have filtered := split.filter fun e => decide (e.1 ∉ taken.map Prod.fst)
  rw [List.filter_append, gone, stays, List.nil_append] at filtered
  exact filtered

theorem get_of_rows {rows : Map Place File} (h : e ∈ rows.rows) : rows.get e.1 = some e.2 :=
  Map.get_eq_some.mpr h

theorem get_without {files files' : Map Place File}
    (rows : files'.rows = without places files.rows) (hp : p ∈ places) : files'.get p = none := by
  refine Option.eq_none_iff_forall_ne_some.mpr fun f found => ?_
  have mem : (p, f) ∈ files'.rows := Map.get_eq_some.mp found
  rw [rows, without, List.mem_filter, decide_eq_true_eq] at mem
  exact mem.2 hp

def Removes (env : Finish) : Prop := ∀ p, env.examine p = .ok () ∧ env.remove p = .ok ()

structure Swept (k : Library) (log : List (AgentReport × Time)) (env : Finish) (places : List Place) (d : Disk)
    (failed : Option String) (d' : Disk) : Prop where
  logged : Logged k log d'
  loss : d'.loss = d.loss
  shrinks : ∀ p, d.files.get p = none → d'.files.get p = none
  rows : failed = none → d'.files.rows = without places d.files.rows
  complete : Removes env → (∀ p ∈ places, validLossPath (p.rel k) = true) → failed = none

theorem removePending_holds (env : Finish) (places : List Place) (h : Logged k log d)
    (waiting : ∀ p ∈ places, p ∈ d.loss.pending) :
    Holds (Logged k log) (removePending k env places) (Swept k log env places d) d := by
  induction places generalizing d with
  | nil => exact .pure ⟨h, rfl, fun _ => id, fun _ => (without_nil _).symm, fun _ _ => rfl⟩
  | cons p rest ih =>
    have later : ∀ q ∈ rest, q ∈ d.loss.pending := fun q hq => waiting q (List.mem_cons_of_mem p hq)
    unfold removePending
    split
    · rename_i invalid
      refine .pure ⟨h, rfl, fun _ => id, nofun, fun _ valid => ?_⟩
      rw [valid p List.mem_cons_self] at invalid
      cases invalid
    split
    · rename_i text refused
      refine .pure ⟨h, rfl, fun _ => id, nofun, fun sure _ => ?_⟩
      rw [(sure p).1] at refused
      cases refused
    refine .bind (.read ?_)
    split
    · rename_i missing
      rw [Option.isNone_iff_eq_none] at missing
      refine (ih h later).mono (fun _ => id) fun failed d' swept => ?_
      refine { swept with rows := fun done => ?_, complete := fun sure valid => ?_ }
      · rw [swept.rows done, without_cons]
        congr 1
        refine (List.filter_eq_self.mpr fun e he => ?_).symm
        have other : e.1 ≠ p := by
          rintro rfl
          cases (get_of_rows he).symm.trans missing
        simpa using other
      · exact swept.complete sure fun q hq => valid q (List.mem_cons_of_mem p hq)
    · split
      · rename_i text refused
        refine .pure ⟨h, rfl, fun _ => id, nofun, fun sure _ => ?_⟩
        rw [(sure p).2] at refused
        cases refused
      · have erased : Logged k log { d with files := d.files.erase p } :=
          ⟨h.accounts.erasePending (waiting p List.mem_cons_self), h.written⟩
        refine .bind (.op erased ((ih erased later).mono (fun _ => id) fun failed d' swept => ?_))
        refine ⟨swept.logged, swept.loss, fun q gone => swept.shrinks q ?_, fun done => ?_,
          fun sure valid => swept.complete sure fun q hq => valid q (List.mem_cons_of_mem p hq)⟩
        · rw [Map.get_erase, gone, ite_self]
        · rw [swept.rows done, without_cons]
          rfl

def Cleared (d : Disk) : Prop := ∀ p ∈ d.loss.pending, d.files.get p = none

structure Finished (k : Library) (log : List (AgentReport × Time)) (env : Finish) (d : Disk)
    (r : Ledger × Option String) (d' : Disk) : Prop where
  logged : Logged k log d'
  synced : r.1 = d'.loss
  done : r.2 = none → d'.loss.pending = [] ∧ d'.files.rows = without d.loss.pending d.files.rows
  cleared : Removes env → Cleared d ∨ (∀ p ∈ d.loss.pending, validLossPath (p.rel k) = true) → Cleared d'

theorem finishLoss_holds (env : Finish) (h : Logged k log d) :
    Holds (Logged k log) (finishLoss k d.loss env) (Finished k log env d) d := by
  unfold finishLoss
  split
  · rename_i idle
    refine .pure ⟨h, rfl, fun _ => ⟨idle, ?_⟩, fun _ _ => ?_⟩
    · rw [idle, without_nil]
    · unfold Cleared
      rw [idle]
      exact nofun
  refine .bind ((removePending_holds env d.loss.pending h fun _ => id).mono (fun _ => id) ?_)
  intro failed u swept
  have cleared : Removes env → Cleared d ∨ (∀ p ∈ d.loss.pending, validLossPath (p.rel k) = true) → Cleared u := by
    intro sure before p hp
    rw [swept.loss] at hp
    rcases before with gone | valid
    · exact swept.shrinks p (gone p hp)
    · exact get_without (swept.rows (swept.complete sure valid)) hp
  split
  · exact .pure ⟨swept.logged, swept.loss.symm, nofun, cleared⟩
  split
  · exact .pure ⟨swept.logged, swept.loss.symm, nofun, cleared⟩
  have rows := swept.rows rfl
  have gone : ∀ p ∈ u.loss.pending, u.files.get p = none := by
    intro p hp
    rw [swept.loss] at hp
    exact get_without rows hp
  have emptied : Logged k log { u with ledger := some { d.loss with pending := [] } } :=
    ⟨swept.loss ▸ swept.logged.accounts.clear gone, swept.logged.written⟩
  exact .bind (save_holds swept.logged emptied
    (.pure ⟨swept.logged, swept.loss.symm, nofun, cleared⟩)
    (.pure ⟨emptied, rfl, fun _ => ⟨rfl, rows⟩, fun _ _ => nofun⟩))

structure Retired (k : Library) (log : List (AgentReport × Time)) (env : Retire) (entries : List Entry)
    (d : Disk) (r : Ledger × Option String) (d' : Disk) : Prop where
  logged : Logged k log d'
  synced : r.1 = d'.loss
  done : r.2 = none → d'.loss.pending = [] ∧ d'.files.rows = without (entries.map Prod.fst) d.files.rows
  cleared : Removes env.after → Cleared d'

theorem cleared_of_idle (idle : d.loss.pending = []) : Cleared d := by
  unfold Cleared
  rw [idle]
  exact nofun

theorem retireLoss_holds (env : Retire) (h : Logged k log d) (idle : d.loss.pending = [])
    (files : ∀ e ∈ entries, d.files.get e.1 = some e.2) (distinct : (entries.map Prod.fst).Nodup) :
    Holds (Logged k log) (retireLoss k d.loss entries env) (Retired k log env entries d) d := by
  unfold retireLoss
  split
  · rename_i nothing
    refine .pure ⟨h, rfl, fun _ => ⟨idle, ?_⟩, fun _ => cleared_of_idle idle⟩
    rw [nothing, List.map_nil, without_nil]
  split
  · exact .pure ⟨h, rfl, nofun, fun _ => cleared_of_idle idle⟩
  have before : Holds (Logged k log) (finishLoss k d.loss env.before) (fun r u => r = (d.loss, none) ∧ u = d) d := by
    unfold finishLoss
    rw [if_pos idle]
    exact .pure ⟨rfl, rfl⟩
  refine .bind (before.mono (fun _ => id) ?_)
  rintro _ _ ⟨rfl, rfl⟩
  dsimp only
  split
  · exact .pure ⟨h, rfl, nofun, fun _ => cleared_of_idle idle⟩
  rename_i v added
  obtain ⟨-, pending, valid, -⟩ := addLosses_ok added
  rw [idle, List.nil_append] at pending
  have recorded : Logged k log _ := ⟨h.accounts.retire idle files distinct added, h.written⟩
  refine .bind (save_holds h recorded (.pure ⟨h, rfl, nofun, fun _ => cleared_of_idle idle⟩) ?_)
  refine (finishLoss_holds env.after recorded).mono (fun _ => id) fun r u finished => ?_
  refine ⟨finished.logged, finished.synced, fun ok => ?_, fun sure => ?_⟩
  · obtain ⟨emptied, rows⟩ := finished.done ok
    refine ⟨emptied, rows.trans ?_⟩
    change without v.pending _ = _
    rw [pending]
  · refine finished.cleared sure (.inr fun p hp => ?_)
    change p ∈ v.pending at hp
    rw [pending] at hp
    obtain ⟨e, he, rfl⟩ := List.mem_map.mp hp
    exact (valid e he).1

theorem retireLoss_front (env : Retire) (h : Logged k log d)
    (idle : d.loss.pending = []) (split : d.files.rows.Perm (retiring ++ rest)) :
    Holds (Logged k log) (retireLoss k d.loss retiring env) (Retired k log env retiring d) d := by
  have keys : ((retiring ++ rest).map Prod.fst).Nodup := (split.map Prod.fst).nodup_iff.mp d.files.unique
  rw [List.map_append, List.nodup_append] at keys
  refine retireLoss_holds env h idle (fun e he => get_of_rows ?_) keys.1
  exact split.mem_iff.mpr (List.mem_append_left _ he)

structure Within (now : Time) (rows : List Entry) : Prop where
  bytes : sizes rows ≤ spoolMaxBytes
  age : ∀ e ∈ rows, now - spoolMaxAge < e.2.mod

theorem within_nil (now : Time) : Within now [] := by
  refine ⟨?_, fun e he => absurd he List.not_mem_nil⟩
  simp [sizes]

theorem sizes_perm {a b : List Entry} (h : a.Perm b) : sizes a = sizes b :=
  (h.map _).sum_nat

def young (now : Time) (e : Entry) : Bool := decide (now - spoolMaxAge < e.2.mod)

theorem sizes_le {a b : List Entry} (h : a.Sublist b) : sizes a ≤ sizes b := by
  induction h with
  | slnil => exact le_refl _
  | cons e _ ih =>
    rw [sizes, sizes, List.map_cons, List.sum_cons]
    exact ih.trans (Nat.le_add_left _ _)
  | cons_cons e _ ih =>
    rw [sizes, sizes, List.map_cons, List.map_cons, List.sum_cons, List.sum_cons]
    exact Nat.add_le_add_left ih _

/-- What a trim leaves of the records `rest`, which it may retire from the oldest on. -/
structure Trimmed (k : Library) (log : List (AgentReport × Time)) (env : Trim) (rest : List Entry) (d : Disk)
    (r : Ledger × Option String) (d' : Disk) : Prop where
  logged : Logged k log d'
  synced : r.1 = d'.loss
  within : r.2 = none → Within env.now d'.files.rows
  cleared : (Removes env.first ∧ ∀ n, Removes (env.batch n).after) → Cleared d → Cleared d'
  emptied : r.2 = none → d'.loss.pending = []
  left : r.2 = none → sizes rest ≤ spoolMaxBytes → d'.files.rows.Perm (rest.filter (young env.now))

theorem Retired.trimmed {env : Trim} {n : Nat} {r : Ledger × Option String}
    (h : Retired k log (env.batch n) retiring d r d') (split : d.files.rows.Perm (retiring ++ rest))
    (fits : Within env.now rest) : Trimmed k log env rest d r d' := by
  have left (ok : r.2 = none) : d'.files.rows.Perm rest := (h.done ok).2 ▸ without_perm split d.files.unique
  refine ⟨h.logged, h.synced, fun ok => ?_, fun sure _ => h.cleared (sure.2 n), fun ok => (h.done ok).1, fun ok _ => ?_⟩
  · exact ⟨(sizes_perm (left ok)).trans_le fits.bytes, fun e he => fits.age e ((left ok).mem_iff.mp he)⟩
  · have all : rest.filter (young env.now) = rest := List.filter_eq_self.mpr fun e he => decide_eq_true (fits.age e he)
    rw [all]
    exact left ok

theorem Trimmed.skip {env : Trim} {r : Ledger × Option String} (h : Trimmed k log env rest d r d')
    (over_ : ¬(sizes (e :: rest) ≤ spoolMaxBytes ∧ env.now - spoolMaxAge < e.2.mod)) :
    Trimmed k log env (e :: rest) d r d' := by
  refine { h with left := fun ok fits => ?_ }
  have old : ¬young env.now e = true := fun fresh => over_ ⟨fits, of_decide_eq_true fresh⟩
  rw [List.filter_cons_of_neg old]
  exact h.left ok ((sizes_le (List.sublist_cons_self e rest)).trans fits)

theorem trimLoop_holds (env : Trim) (rest : List Entry) (h : Logged k log d) (idle : d.loss.pending = [])
    (n : Nat) (retiring : List Entry) (split : d.files.rows.Perm (retiring ++ rest))
    (sorted : rest.Pairwise fun a b => a.2.mod ≤ b.2.mod) :
    Holds (Logged k log) (trimLoop k env n d.loss (sizes rest) retiring rest) (Trimmed k log env rest d) d := by
  induction rest generalizing d n retiring with
  | nil =>
    unfold trimLoop
    refine (retireLoss_front (env.batch n) h idle split).mono (fun _ => id) fun r u retired => ?_
    exact retired.trimmed split (within_nil env.now)
  | cons e rest ih =>
    obtain ⟨oldest, later⟩ := List.pairwise_cons.mp sorted
    have moved : d.files.rows.Perm ((retiring ++ [e]) ++ rest) := by
      rw [List.append_assoc, List.singleton_append]
      exact split
    have left : sizes (e :: rest) - e.2.size = sizes rest := by
      simp [sizes]
    unfold trimLoop
    split
    · rename_i enough
      -- the oldest one left is young enough, and so are those behind it
      refine (retireLoss_front (env.batch n) h idle split).mono (fun _ => id) fun r u retired => ?_
      refine retired.trimmed split ⟨enough.1, fun x hx => ?_⟩
      rcases List.mem_cons.mp hx with rfl | behind
      · exact enough.2
      · exact enough.2.trans_le (oldest x behind)
    rename_i more
    dsimp only
    rw [left]
    split
    · refine .bind ((retireLoss_front (env.batch n) h idle moved).mono (fun _ => id) fun r u retired => ?_)
      obtain ⟨m, failed⟩ := r
      cases failed with
      | some text =>
        exact .pure ⟨retired.logged, retired.synced, nofun, fun sure _ => retired.cleared (sure.2 n), nofun, nofun⟩
      | none =>
        obtain ⟨emptied, rows⟩ := retired.done rfl
        have front : u.files.rows.Perm ([] ++ rest) := rows ▸ without_perm moved d.files.unique
        rw [show m = u.loss from retired.synced]
        refine (ih retired.logged emptied (n + 1) [] front later).mono (fun _ => id) fun r w trimmed => ?_
        exact { trimmed.skip more with
          cleared := fun sure _ => trimmed.cleared sure (cleared_of_idle emptied) }
    · exact (ih h idle n (retiring ++ [e]) moved later).mono (fun _ => id) fun r u trimmed => trimmed.skip more

theorem trim_holds (env : Trim) (h : Logged k log d) :
    Holds (Logged k log) (trim k d.loss env) (Trimmed k log env (without d.loss.pending d.files.rows) d) d := by
  refine .bind ((finishLoss_holds env.first h).mono (fun _ => id) fun r u finished => ?_)
  obtain ⟨m, failed⟩ := r
  have synced : m = u.loss := finished.synced
  cases failed with
  | some text =>
    exact .pure ⟨finished.logged, synced, nofun, fun sure before => finished.cleared sure.1 (.inl before), nofun, nofun⟩
  | none =>
    obtain ⟨idle, rows⟩ := finished.done rfl
    dsimp only
    split
    · exact .pure ⟨finished.logged, synced, nofun, fun _ _ => cleared_of_idle idle, nofun, nofun⟩
    rw [synced]
    refine .bind (.read ((trimLoop_holds env _ finished.logged idle 0 [] (k.perm _).symm (k.sorted _)).mono
      (fun _ => id) fun r w trimmed => ?_))
    refine { trimmed with cleared := fun sure _ => trimmed.cleared sure (cleared_of_idle idle), left := fun ok fits => ?_ }
    rw [← rows] at fits ⊢
    exact (trimmed.left ok ((sizes_perm (k.perm _)).trans_le fits)).trans ((k.perm _).filter _)

def Writes (k : Library) (log : List (AgentReport × Time)) (rep : AgentReport) (mod : Time) (d : Disk) : Prop :=
  Logged k log d ∨ Logged k (log ++ [(rep, mod)]) d

structure Pushed (k : Library) (log : List (AgentReport × Time)) (rep : AgentReport) (env : Push) (d : Disk)
    (r : Ledger × Option String) (d' : Disk) : Prop where
  writes : Writes k log rep env.mod d'
  synced : r.1 = d'.loss
  done : r.2 = none → (rep, env.mod) ∈ d'.written ∧ Within env.trim.now d'.files.rows
  cleared : (Removes env.trim.first ∧ ∀ n, Removes (env.trim.batch n).after) → Cleared d → Cleared d'

theorem push_holds (rep : AgentReport) (env : Push) (h : Logged k log d) (new : ∀ w ∈ log, w.1.key ≠ rep.key) :
    Holds (Writes k log rep env.mod) (push k d.loss rep env) (Pushed k log rep env d) d := by
  rw [← h.written] at new
  have accounts := h.accounts
  have failed (text : String) : Pushed k log rep env d (d.loss, some text) d := by
    refine ⟨.inl h, rfl, fun done => ?_, fun _ => id⟩
    cases done
  unfold push
  split
  · exact .pure (failed _)
  refine .bind (.read ?_)
  split
  · -- a record of this identity would have been written before
    rename_i f file
    obtain ⟨mem, same⟩ := accounts.files _ f file
    exact absurd (place_injective same).symm (new _ mem)
  have written : Logged k (log ++ [(rep, env.mod)]) { d with
      files := d.files.put (place k rep) ⟨rep, env.mod, k.bytes rep⟩
      written := d.written ++ [(rep, env.mod)] } :=
    ⟨accounts.write new, congrArg (· ++ [(rep, env.mod)]) h.written⟩
  refine .bind (save_holds (.inl h) (.inr written) (.pure (failed _)) ?_)
  refine (trim_holds env.trim written).mono (fun _ => .inr) fun r u trimmed => ?_
  refine ⟨.inr trimmed.logged, trimmed.synced, fun ok => ⟨?_, trimmed.within ok⟩, fun sure before => ?_⟩
  · rw [trimmed.logged.written]
    exact List.mem_append_right _ (List.mem_singleton.mpr rfl)
  refine trimmed.cleared sure fun p hp => ?_
  have other : p ≠ place k rep := by
    rintro rfl
    obtain ⟨⟨_, t⟩, mem, same⟩ := List.mem_map.mp (accounts.pending _ hp)
    cases same
    obtain ⟨w, hw, at_⟩ := accounts.owned _ t mem
    exact new w hw (place_injective at_).symm
  exact (Map.get_put d.files _ p _).trans ((if_neg other).trans (before p hp))

structure Listed (k : Library) (log : List (AgentReport × Time)) (env : Listing) (d : Disk)
    (r : Ledger × List AgentReport × Option String) (d' : Disk) : Prop where
  logged : Logged k log d'
  synced : r.1 = d'.loss
  within : r.2.2 = none → Within env.trim.now d'.files.rows
  cleared : (Removes env.trim.first ∧ ∀ n, Removes (env.trim.batch n).after) → Cleared d → Cleared d'

theorem listLimit_holds (limit : Nat) (env : Listing) (h : Logged k log d) :
    Holds (Logged k log) (listLimit k d.loss limit env) (Listed k log env d) d := by
  refine .bind ((trim_holds env.trim h).mono (fun _ => id) fun r u trimmed => ?_)
  obtain ⟨m, failed⟩ := r
  have kept (out : List AgentReport) (text : String) : Listed k log env d (m, out, some text) u :=
    ⟨trimmed.logged, trimmed.synced, nofun, trimmed.cleared⟩
  cases failed with
  | some text => exact .pure (kept [] text)
  | none =>
    dsimp only
    split
    · exact .pure (kept [] _)
    refine .bind (.read ?_)
    split
    · exact .pure (kept _ _)
    · exact .pure ⟨trimmed.logged, trimmed.synced, fun _ => trimmed.within rfl,
        trimmed.cleared⟩

structure Dropped (k : Library) (log : List (AgentReport × Time)) (d d' : Disk) : Prop where
  logged : Logged k log d'
  loss : d'.loss = d.loss
  shrinks : ∀ p, d.files.get p = none → d'.files.get p = none

theorem dropPlaces_holds (env : Drop) (h : Logged k log d) (own : ∀ p ∈ places, p = place k rep ∨ ∃ name, p = .old name)
    (free : place k rep ∈ d.loss.pending → d.files.get (place k rep) = none) :
    Holds (Logged k log) (dropPlaces k rep env places) (fun _ => Dropped k log d) d := by
  induction places generalizing d with
  | nil => exact .pure ⟨h, rfl, fun _ => id⟩
  | cons p rest ih =>
    have later : ∀ q ∈ rest, q = place k rep ∨ ∃ name, q = .old name :=
      fun q hq => own q (List.mem_cons_of_mem p hq)
    refine .bind (.read ?_)
    split
    · exact ih h later free
    rename_i f file
    split
    · exact .pure ⟨h, rfl, fun _ => id⟩
    split
    · exact ih h later free
    split
    · exact .pure ⟨h, rfl, fun _ => id⟩
    have erased (q : Place) (gone : d.files.get q = none) : (d.files.erase p).get q = none := by
      rw [Map.get_erase, gone, ite_self]
    have removed : Logged k log { d with
        files := d.files.erase p
        removed := if p = place k rep then d.removed ++ [rep] else d.removed } := by
      refine ⟨?_, h.written⟩
      rcases own p List.mem_cons_self with rfl | ⟨name, rfl⟩
      · rw [if_pos rfl]
        refine h.accounts.acknowledge file fun waiting => ?_
        cases file.symm.trans (free waiting)
      · rw [if_neg nofun]
        exact h.accounts.eraseOld name
    refine .bind (.op removed ((ih removed later fun waiting => erased _ (free waiting)).mono (fun _ => id) ?_))
    exact fun _ u dropped =>
      ⟨dropped.logged, dropped.loss, fun q gone => dropped.shrinks q (erased q gone)⟩

theorem dropReport_holds (env : Drop) (h : Logged k log d)
    (free : place k rep ∈ d.loss.pending → d.files.get (place k rep) = none) :
    Holds (Logged k log) (dropReport k rep env) (fun _ => Dropped k log d) d := by
  refine dropPlaces_holds env h (fun p hp => ?_) free
  rcases List.mem_cons.mp hp with rfl | old
  · exact .inl rfl
  · exact .inr ⟨_, List.mem_singleton.mp old⟩

structure Opened (k : Library) (log : List (AgentReport × Time)) (r : Except String Ledger) (d' : Disk) :
    Prop where
  logged : Logged k log d'
  store : ∀ m, r = .ok m → m = d'.loss ∧ m.pending = []

theorem openSpool_holds (env : Opening) (h : Logged k log d) :
    Holds (Logged k log) (openSpool k env) (Opened k log) d := by
  unfold openSpool
  split
  · exact .pure ⟨h, nofun⟩
  · exact .pure ⟨h, nofun⟩
  refine .bind (.read ?_)
  split
  · rename_i missing
    refine .pure ⟨h, fun m same => ?_⟩
    cases same
    rw [Disk.loss, missing]
    exact ⟨rfl, rfl⟩
  rename_i v found
  have loss : v = d.loss := by rw [Disk.loss, found]; rfl
  split
  · exact .pure ⟨h, nofun⟩
  rw [loss]
  refine .bind ((finishLoss_holds env.finish h).mono (fun _ => id) fun r u finished => ?_)
  obtain ⟨m, failed⟩ := r
  cases failed with
  | some text => exact .pure ⟨finished.logged, nofun⟩
  | none =>
    refine .pure ⟨finished.logged, fun m' same => ?_⟩
    cases same
    have synced : m = u.loss := finished.synced
    exact ⟨synced, synced ▸ (finished.done rfl).1⟩

end Monik.SpoolAccounting
