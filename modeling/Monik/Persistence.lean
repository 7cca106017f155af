import Monik.Tables

/-! Finite maps in memory and files that are replaced atomically. -/

namespace Monik.Persistence
open Tables

abbrev Map (κ β : Type*) := Table (κ × β) Prod.fst

namespace Map

variable {κ β : Type*}

def size (m : Map κ β) : Nat := m.rows.length

def mapValues (m : Map κ β) (f : κ → β → β) : Map κ β :=
  m.update (fun _ => true) (fun e => (e.1, f e.1 e.2)) fun _ => rfl

def discard (m : Map κ β) (p : κ → β → Bool) : Map κ β := m.delete fun e => p e.1 e.2

variable {m : Map κ β}

@[simp] theorem size_mapValues (m : Map κ β) (f : κ → β → β) : (m.mapValues f).size = m.size := by
  simp [size, mapValues, Table.update]

theorem mem_mapValues {f : κ → β → β} {e : κ × β} (mem : e ∈ m.mapValues f) : ∃ v, (e.1, v) ∈ m ∧ e.2 = f e.1 v := by
  obtain ⟨old, found, new⟩ := (Table.mem_update (f := fun e : κ × β => (e.1, f e.1 e.2)) fun _ => rfl).mp mem
  subst new
  exact ⟨old.2, found, rfl⟩

theorem size_discard_all {p : κ → β → Bool} (all : ∀ e ∈ m, p e.1 e.2) : (m.discard p).size = 0 := by
  rw [size, List.length_eq_zero_iff, List.eq_nil_iff_forall_not_mem]
  intro e mem
  obtain ⟨old, kept⟩ := Table.mem_delete.mp (Table.mem_rows.mp mem)
  rw [all e old] at kept
  cases kept

variable [DecidableEq κ]

def get (m : Map κ β) (k : κ) : Option β := (m.find? fun e => e.1 == k).map Prod.snd

def put (m : Map κ β) (k : κ) (v : β) : Map κ β := m.upsert (k, v)

def erase (m : Map κ β) (k : κ) : Map κ β := m.delete fun e => e.1 == k

variable {k : κ}

theorem get_eq_some {v : β} : m.get k = some v ↔ (k, v) ∈ m := by
  rw [get, Option.map_eq_some_iff]
  constructor
  · rintro ⟨⟨k', v'⟩, found, rfl⟩
    obtain ⟨mem, rfl⟩ := Table.find?_key.mp found
    exact mem
  · exact fun mem => ⟨(k, v), Table.find?_key.mpr ⟨mem, rfl⟩, rfl⟩

theorem ext_get {m' : Map κ β} {k' : κ} (h : ∀ v, (k, v) ∈ m ↔ (k', v) ∈ m') : m.get k = m'.get k' := by
  apply Option.ext
  intro v
  rw [get_eq_some, get_eq_some]
  exact h v

@[simp] theorem get_empty (k : κ) : get (Table.empty : Map κ β) k = none := rfl

theorem get_put (m : Map κ β) (k k' : κ) (v : β) : (m.put k v).get k' = if k' = k then some v else m.get k' := by
  split
  · rename_i same
    subst same
    exact get_eq_some.mpr (Table.mem_upsert.mpr (.inr rfl))
  · rename_i other
    refine ext_get fun w => ?_
    rw [put, Table.mem_upsert]
    simp [other]

@[simp] theorem get_put_self (m : Map κ β) (k : κ) (v : β) : (m.put k v).get k = some v := by
  simp [get_put]

theorem size_put (fresh : m.get k = none) (v : β) : (m.put k v).size = m.size + 1 := by
  have absent : ∀ e ∈ m, e.1 ≠ k := by
    rintro ⟨k', v'⟩ mem rfl
    rw [get_eq_some.mpr mem] at fresh
    cases fresh
  rw [size, put, Table.upsert_rows (r := (k, v)) absent, List.length_append]
  rfl

theorem put_put (m : Map κ β) (k : κ) (v v' : β) : (m.put k v).put k v' = m.put k v' := by
  apply Table.ext
  simp [put, Table.upsert]

theorem get_erase (m : Map κ β) (k k' : κ) : (m.erase k).get k' = if k' = k then none else m.get k' := by
  split
  · rename_i same
    refine Option.eq_none_iff_forall_ne_some.mpr fun w found => ?_
    rw [get_eq_some, erase, Table.mem_delete] at found
    simp [same] at found
  · rename_i other
    refine ext_get fun w => ?_
    rw [erase, Table.mem_delete]
    simp [other]

@[simp] theorem get_mapValues (m : Map κ β) (f : κ → β → β) (k : κ) :
    (m.mapValues f).get k = (m.get k).map (f k) := by
  apply Option.ext
  intro w
  rw [get_eq_some, mapValues, Table.mem_update (f := fun e => (e.1, f e.1 e.2)) fun _ => rfl,
    Option.map_eq_some_iff]
  constructor
  · rintro ⟨⟨k', v⟩, mem, same⟩
    obtain ⟨rfl, rfl⟩ := same
    exact ⟨v, get_eq_some.mpr mem, rfl⟩
  · rintro ⟨v, found, rfl⟩
    exact ⟨(k, v), get_eq_some.mp found, rfl⟩

@[simp] theorem get_discard (m : Map κ β) (p : κ → β → Bool) (k : κ) :
    (m.discard p).get k = (m.get k).filter fun v => !p k v := by
  apply Option.ext
  intro w
  rw [get_eq_some, discard, Table.mem_delete, Option.filter_eq_some_iff, get_eq_some]
  simp

end Map

/-- How a replacement ends; it can report an error after the rename, when the directory cannot be synced. -/
inductive WriteOutcome
  | done | failed | renamed
  deriving DecidableEq

def WriteOutcome.write {α : Type*} (w : WriteOutcome) (old new : α) : α :=
  match w with
  | .failed => old
  | .done | .renamed => new

theorem WriteOutcome.write_cases {α : Type*} (w : WriteOutcome) (old new : α) :
    w.write old new = old ∨ w.write old new = new := by
  cases w
  · exact .inr rfl
  · exact .inl rfl
  · exact .inr rfl

end Monik.Persistence
