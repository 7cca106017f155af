import Mathlib.Data.List.Sort
import Mathlib.Data.Finset.Card
import Monik.Tables

/-! Lists that stand for maps, in the order of their keys. A merge keeps one entry for every key; an
update wins over an entry that is not newer, or always. -/

namespace Monik.KeyedMerge
open Tables

variable {α κ τ : Type*} [LinearOrder κ] [LinearOrder τ] {key : α → κ} {stamp : α → τ}

def fromList (key : α → κ) (xs : List α) : Table α key := xs.foldl Table.upsert .empty

def sorted (t : Table α key) : List α := t.rows.insertionSort fun a b => key a ≤ key b

/-- `m[key(x)] = x` unless the map has an entry that is at least as new. -/
def putNewer (stamp : α → τ) (t : Table α key) (x : α) : Table α key :=
  if (t.find? fun y => key y == key x).all fun y => decide (stamp y < stamp x) then t.upsert x else t

def mergeNewer (key : α → κ) (stamp : α → τ) (old new : List α) : List α :=
  sorted (new.foldl (putNewer stamp) (fromList key old))

def mergeAll (key : α → κ) (removed : List κ) (old new : List α) : List α :=
  sorted ((fromList key (old ++ new)).delete fun x => removed.contains (key x))

variable {t : Table α key} {x : α}

@[simp] theorem mem_sorted : x ∈ sorted t ↔ x ∈ t :=
  (List.perm_insertionSort _ t.rows).mem_iff

theorem sorted_nodup (t : Table α key) : ((sorted t).map key).Nodup :=
  ((List.perm_insertionSort _ t.rows).map key).nodup_iff.mpr t.unique

def HasKey (t : Table α key) (k : κ) : Prop := ∃ x ∈ t, key x = k

variable {k : κ}

theorem hasKey_upsert : HasKey (t.upsert x) k ↔ HasKey t k ∨ key x = k := by
  constructor
  · rintro ⟨y, hy, rfl⟩
    obtain ⟨old, -⟩ | rfl := Table.mem_upsert.mp hy
    · exact .inl ⟨y, old, rfl⟩
    · exact .inr rfl
  · rintro (⟨y, hy, rfl⟩ | rfl)
    · by_cases same : key y = key x
      · exact ⟨x, Table.mem_upsert.mpr (.inr rfl), same.symm⟩
      · exact ⟨y, Table.mem_upsert.mpr (.inl ⟨hy, same⟩), rfl⟩
    · exact ⟨x, Table.mem_upsert.mpr (.inr rfl), rfl⟩

theorem hasKey_putNewer : HasKey (putNewer stamp t x) k ↔ HasKey t k ∨ key x = k := by
  unfold putNewer
  split
  · exact hasKey_upsert
  · rename_i kept
    have held : HasKey t (key x) := by
      cases found : t.find? fun y => key y == key x with
      | none => simp [found] at kept
      | some y =>
        obtain ⟨mem, same⟩ := Table.find?_key.mp found
        exact ⟨y, mem, same⟩
    constructor
    · exact .inl
    · rintro (h | rfl)
      · exact h
      · exact held

variable {y : α}

theorem mem_putNewer (h : y ∈ putNewer stamp t x) : y ∈ t ∨ y = x := by
  unfold putNewer at h
  split at h
  · exact (Table.mem_upsert.mp h).imp And.left id
  · exact .inl h

variable {put : Table α key → α → Table α key}

omit [LinearOrder κ] in
theorem hasKey_foldl (adds : ∀ t x k, HasKey (put t x) k ↔ HasKey t k ∨ key x = k) (xs : List α) (t : Table α key)
    (k : κ) : HasKey (xs.foldl put t) k ↔ HasKey t k ∨ k ∈ xs.map key := by
  induction xs generalizing t with
  | nil => simp
  | cons x xs ih =>
    simp only [List.foldl_cons, ih, adds, List.map_cons, List.mem_cons, eq_comm, or_assoc]

omit [LinearOrder κ] in
theorem mem_foldl (adds : ∀ t x y, y ∈ put t x → y ∈ t ∨ y = x) (xs : List α) (t : Table α key)
    (h : y ∈ xs.foldl put t) : y ∈ t ∨ y ∈ xs := by
  induction xs generalizing t with
  | nil => exact .inl h
  | cons x xs ih =>
    rw [List.mem_cons]
    obtain old | new := ih (put t x) h
    · exact (adds t x y old).imp_right .inl
    · exact .inr (.inr new)

omit [LinearOrder κ] in
theorem not_hasKey_empty (k : κ) : ¬HasKey (.empty : Table α key) k :=
  fun ⟨x, hx, _⟩ => Table.not_mem_empty x hx

variable {xs : List α}

theorem hasKey_fromList : HasKey (fromList key xs) k ↔ k ∈ xs.map key := by
  rw [fromList, hasKey_foldl (fun _ _ _ => hasKey_upsert), or_iff_right (not_hasKey_empty k)]

theorem mem_fromList (h : y ∈ fromList key xs) : y ∈ xs :=
  (mem_foldl (fun _ _ _ hy => (Table.mem_upsert.mp hy).imp And.left id) xs .empty h).resolve_left
    (Table.not_mem_empty y)

variable {old new : List α}

theorem mem_mergeNewer (h : x ∈ mergeNewer key stamp old new) : x ∈ old ∨ x ∈ new :=
  (mem_foldl (fun _ _ _ => mem_putNewer) new _ (mem_sorted.mp h)).imp_left mem_fromList

theorem mem_keys_sorted : k ∈ (sorted t).map key ↔ HasKey t k := by
  simp only [List.mem_map, mem_sorted, HasKey]

theorem mem_keys_mergeNewer : k ∈ (mergeNewer key stamp old new).map key ↔ k ∈ old.map key ++ new.map key := by
  rw [mergeNewer, mem_keys_sorted, hasKey_foldl (fun _ _ _ => hasKey_putNewer), hasKey_fromList,
    List.mem_append]

theorem mem_keys_mergeAll {removed : List κ} : k ∈ (mergeAll key removed old new).map key ↔
      k ∈ (old.map key ++ new.map key).filter fun k => !removed.contains k := by
  have kept : HasKey ((fromList key (old ++ new)).delete fun x => removed.contains (key x)) k ↔
      HasKey (fromList key (old ++ new)) k ∧ removed.contains k = false := by
    constructor
    · rintro ⟨x, hx, rfl⟩
      obtain ⟨mem, there⟩ := Table.mem_delete.mp hx
      exact ⟨⟨x, mem, rfl⟩, there⟩
    · rintro ⟨⟨x, hx, rfl⟩, there⟩
      exact ⟨x, Table.mem_delete.mpr ⟨hx, there⟩, rfl⟩
  rw [mergeAll, mem_keys_sorted, kept, hasKey_fromList, List.map_append, List.mem_filter]
  simp

theorem length_eq_dedup {ks : List κ} (nodup : (xs.map key).Nodup) (same : ∀ k, k ∈ xs.map key ↔ k ∈ ks)
    : xs.length = ks.dedup.length := by
  have equal : (xs.map key).toFinset = ks.toFinset := by
    ext k
    simp only [List.mem_toFinset, same]
  rw [← List.length_map key, ← List.toFinset_card_of_nodup nodup, equal, List.card_toFinset]

theorem length_mergeNewer (key : α → κ) (stamp : α → τ) (old new : List α) :
    (mergeNewer key stamp old new).length = (old.map key ++ new.map key).dedup.length :=
  length_eq_dedup (sorted_nodup _) fun _ => mem_keys_mergeNewer

theorem length_mergeAll (key : α → κ) (removed : List κ) (old new : List α) : (mergeAll key removed old new).length =
      ((old.map key ++ new.map key).filter fun k => !removed.contains k).dedup.length :=
  length_eq_dedup (sorted_nodup _) fun _ => mem_keys_mergeAll

end Monik.KeyedMerge
