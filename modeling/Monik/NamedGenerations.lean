import Mathlib.Data.Set.Insert
import Mathlib.Logic.Relation
import Mathlib.Tactic.Set

/-! Counters that name instances: a process raises the number of a key when it finds another
instance, saves now and then, and after a crash has the saved numbers. A number that is released
only once memory is saved names one instance for good. -/

namespace Monik.NamedGenerations

variable {κ ι : Type*}

abbrev Book (κ ι : Type*) := κ → Int × ι

def Rise (x y : Int × ι) : Prop := x = y ∨ x.1 < y.1

variable {x y : Int × ι}

theorem Rise.le (h : Rise x y) : x.1 ≤ y.1 := by
  rcases h with same | more
  · exact le_of_eq (congrArg Prod.fst same)
  · exact le_of_lt more

theorem Rise.trans {z : Int × ι} (h : Rise x y) (h' : Rise y z) : Rise x z := by
  rcases h with rfl | more
  · exact h'
  · exact .inr (lt_of_lt_of_le more h'.le)

def Rises (c c' : Book κ ι) : Prop := ∀ k, Rise (c k) (c' k)

theorem Rises.refl (c : Book κ ι) : Rises c c := fun _ => .inl rfl

variable {c c' : Book κ ι}

theorem Rises.trans {c'' : Book κ ι} (h : Rises c c') (h' : Rises c' c'') : Rises c c'' :=
  fun k => (h k).trans (h' k)

structure Note (κ ι : Type*) where
  key : κ
  number : Int
  name : ι
  tick : Nat

@[ext] structure Naming (κ ι : Type*) where
  current : Option (Book κ ι)
  saved : Book κ ι
  noted : Set (Note κ ι)
  released : Set (Note κ ι)
  tick : Nat

inductive Step : Naming κ ι → Naming κ ι → Prop
  | move {s : Naming κ ι} {c : Book κ ι} (c' : Book κ ι) (alive : s.current = some c) (rises : Rises c c') :
      Step s { s with current := some c' }
  | save {s : Naming κ ι} {c : Book κ ι} (alive : s.current = some c) : Step s { s with saved := c }
  | note {s : Naming κ ι} {c : Book κ ι} (k : κ) (alive : s.current = some c) :
      Step s { s with noted := insert ⟨k, (c k).1, (c k).2, s.tick⟩ s.noted, tick := s.tick + 1 }
  | pass (s : Naming κ ι) : Step s { s with tick := s.tick + 1 }
  | forget {s : Naming κ ι} {noted : Set (Note κ ι)} (sub : noted ⊆ s.noted) : Step s { s with noted }
  | release {s : Naming κ ι} {c : Book κ ι} {notes : Set (Note κ ι)} (alive : s.current = some c)
      (kept : s.saved = c) (sub : notes ⊆ s.noted) : Step s { s with released := s.released ∪ notes }
  | crash (s : Naming κ ι) : Step s { s with current := none, noted := ∅ }
  | wake {s : Naming κ ι} (dead : s.current = none) : Step s { s with current := some s.saved }

def Names (name : κ → Int → ι) (c : Book κ ι) : Prop := ∀ k, name k (c k).1 = (c k).2

variable {name : κ → Int → ι}

theorem Names.rise (h : Names name c) (rises : Rises c c') :
    ∃ name', Names name' c' ∧ ∀ k n, n ≤ (c k).1 → name' k n = name k n := by
  refine ⟨fun k n => if n = (c' k).1 then (c' k).2 else name k n, fun k => if_pos rfl, fun k n low => ?_⟩
  dsimp only
  split
  · rename_i same
    rcases rises k with equal | more
    · rw [same, ← equal]
      exact (h k).symm
    · rw [same] at low
      exact absurd low (not_le.mpr more)
  · rfl

structure Sound (name : κ → Int → ι) (s : Naming κ ι) : Prop where
  saved : Names name s.saved
  current : ∀ c, s.current = some c → Names name c ∧ ∀ k, (s.saved k).1 ≤ (c k).1
  noted : ∀ n ∈ s.noted, ∃ c, s.current = some c ∧ n.number ≤ (c n.key).1
  released : ∀ n ∈ s.released, n.number ≤ (s.saved n.key).1
  named : ∀ n ∈ s.noted ∪ s.released, name n.key n.number = n.name ∧ n.tick < s.tick
  ordered : ∀ n ∈ s.noted ∪ s.released, ∀ m ∈ s.noted ∪ s.released, n.key = m.key → n.tick ≤ m.tick →
    n.number ≤ m.number

variable {s : Naming κ ι} {n : Note κ ι}

theorem Sound.seen (h : Sound name s) (alive : s.current = some c) (mem : n ∈ s.noted ∪ s.released)
    : n.number ≤ (c n.key).1 := by
  rcases mem with noted | released
  · obtain ⟨c', alive', low⟩ := h.noted n noted
    cases alive.symm.trans alive'
    exact low
  · exact (h.released n released).trans ((h.current c alive).2 n.key)

theorem step_sound {s' : Naming κ ι} (st : Step s s') (h : Sound name s) : ∃ name', Sound name' s' := by
  cases st with
  | @move c c' alive rises =>
    obtain ⟨names, above⟩ := h.current c alive
    obtain ⟨name', named, same⟩ := names.rise rises
    refine ⟨name', fun k => ?_, fun b hb => ?_, fun n hn => ?_, h.released, fun n hn => ?_, h.ordered⟩
    · rw [same k _ (above k)]
      exact h.saved k
    · cases hb
      exact ⟨named, fun k => (above k).trans (rises k).le⟩
    · exact ⟨c', rfl, (h.seen alive (.inl hn)).trans (rises n.key).le⟩
    · rw [same n.key _ (h.seen alive hn)]
      exact h.named n hn
  | @save c alive =>
    refine ⟨name, (h.current c alive).1, fun b hb => ?_, h.noted, fun n hn => h.seen alive (.inr hn), h.named,
      h.ordered⟩
    cases alive.symm.trans hb
    exact ⟨(h.current c alive).1, fun k => le_refl _⟩
  | @note c k alive =>
    set new : Note κ ι := ⟨k, (c k).1, (c k).2, s.tick⟩
    have cases_ : ∀ n ∈ insert new s.noted ∪ s.released, n = new ∨ n ∈ s.noted ∪ s.released := by
      rintro n ((rfl | noted) | released)
      · exact .inl rfl
      · exact .inr (.inl noted)
      · exact .inr (.inr released)
    refine ⟨name, h.saved, h.current, fun n hn => ?_, h.released, fun n hn => ?_, fun n hn m hm same order => ?_⟩
    · rcases hn with rfl | noted
      · exact ⟨c, alive, le_refl _⟩
      · exact h.noted n noted
    · rcases cases_ n hn with rfl | old
      · exact ⟨(h.current c alive).1 k, Nat.lt_succ_self _⟩
      · exact ⟨(h.named n old).1, Nat.lt_succ_of_lt (h.named n old).2⟩
    · rcases cases_ n hn with rfl | old
      · rcases cases_ m hm with rfl | before
        · exact le_refl _
        · exact absurd order (not_le.mpr (h.named m before).2)
      · rcases cases_ m hm with rfl | before
        · have low := h.seen alive old
          rw [same] at low
          exact low
        · exact h.ordered n old m before same order
  | pass =>
    refine ⟨name, h.saved, h.current, h.noted, h.released, fun n hn => ?_, h.ordered⟩
    exact ⟨(h.named n hn).1, Nat.lt_succ_of_lt (h.named n hn).2⟩
  | @forget noted sub =>
    have before : ∀ n ∈ noted ∪ s.released, n ∈ s.noted ∪ s.released := fun n hn => hn.imp (@sub n) id
    exact ⟨name, h.saved, h.current, fun n hn => h.noted n (sub hn), h.released,
      fun n hn => h.named n (before n hn), fun n hn m hm => h.ordered n (before n hn) m (before m hm)⟩
  | @release c notes alive kept sub =>
    have before : ∀ n ∈ s.noted ∪ (s.released ∪ notes), n ∈ s.noted ∪ s.released := by
      rintro n (noted | released | new)
      · exact .inl noted
      · exact .inr released
      · exact .inl (sub new)
    refine ⟨name, h.saved, h.current, h.noted, fun n hn => ?_, fun n hn => h.named n (before n hn),
      fun n hn m hm => h.ordered n (before n hn) m (before m hm)⟩
    rcases hn with old | new
    · exact h.released n old
    · rw [kept]
      exact h.seen alive (.inl (sub new))
  | crash =>
    have before : ∀ n ∈ (∅ : Set (Note κ ι)) ∪ s.released, n ∈ s.noted ∪ s.released := by
      rintro n (none | released)
      · cases none
      · exact .inr released
    exact ⟨name, h.saved, nofun, nofun, h.released, fun n hn => h.named n (before n hn),
      fun n hn m hm => h.ordered n (before n hn) m (before m hm)⟩
  | wake dead =>
    refine ⟨name, h.saved, fun c hc => ?_, fun n hn => ?_, h.released, h.named, h.ordered⟩
    · cases hc
      exact ⟨h.saved, fun k => le_refl _⟩
    · obtain ⟨c, alive, -⟩ := h.noted n hn
      cases dead.symm.trans alive

def Naming.start (saved : Book κ ι) : Naming κ ι := ⟨none, saved, ∅, ∅, 0⟩

theorem sound_start (saved : Book κ ι) : Sound (fun k _ => (saved k).2) (Naming.start saved) :=
  ⟨fun _ => rfl, nofun, nofun, nofun, fun _ hn => (hn.elim id id).elim, fun _ hn => (hn.elim id id).elim⟩

variable {saved : Book κ ι}

theorem reach_sound (reach : Relation.ReflTransGen Step (.start saved) s) : ∃ name, Sound name s := by
  induction reach with
  | refl => exact ⟨_, sound_start saved⟩
  | tail _ st ih =>
    obtain ⟨name, h⟩ := ih
    exact step_sound st h

theorem released_names_one (reach : Relation.ReflTransGen Step (.start saved) s) {m : Note κ ι} (hn : n ∈ s.released)
    (hm : m ∈ s.released) (key : n.key = m.key) :
    (n.number = m.number → n.name = m.name) ∧ (n.tick ≤ m.tick → n.number ≤ m.number) := by
  obtain ⟨name, h⟩ := reach_sound reach
  refine ⟨fun same => ?_, h.ordered n (.inr hn) m (.inr hm) key⟩
  rw [← (h.named n (.inr hn)).1, ← (h.named m (.inr hm)).1, key, same]

end Monik.NamedGenerations
