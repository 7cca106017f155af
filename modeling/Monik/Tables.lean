import Mathlib.Data.List.Nodup
import Mathlib.Data.List.Perm.Basic
import Mathlib.Data.List.Sort

/-! Relational tables with a primary key, which no update or insertion can break, and transactions
that return a new state or roll back. -/

namespace Monik.Tables

universe u

variable {ρ κ ε α : Type*} {σ τ : Type u}

@[ext] structure Table (ρ : Type*) {κ : Type*} (key : ρ → κ) where
  rows : List ρ
  unique : (rows.map key).Nodup

namespace Table

variable {key : ρ → κ} {t : Table ρ key} {r : ρ} {p : ρ → Bool}

instance : Membership ρ (Table ρ key) := ⟨fun t r => r ∈ t.rows⟩

instance [DecidableEq ρ] (r : ρ) (t : Table ρ key) : Decidable (r ∈ t) :=
  inferInstanceAs (Decidable (r ∈ t.rows))

theorem mem_rows : r ∈ t.rows ↔ r ∈ t := Iff.rfl

def empty : Table ρ key := ⟨[], by simp⟩

@[simp] theorem not_mem_empty (r : ρ) : r ∉ (empty : Table ρ key) := List.not_mem_nil

theorem eq_of_key (t : Table ρ key) {a b : ρ} (ha : a ∈ t) (hb : b ∈ t) (hk : key a = key b) : a = b :=
  List.inj_on_of_nodup_map t.unique ha hb hk

def find? (t : Table ρ key) (p : ρ → Bool) : Option ρ := t.rows.find? p

theorem find?_some (h : t.find? p = some r) : r ∈ t ∧ p r :=
  ⟨List.mem_of_find?_eq_some h, List.find?_some h⟩

theorem find?_none (h : t.find? p = none) (hr : r ∈ t) : p r = false := by
  have := List.find?_eq_none.mp h r hr
  simpa using this

theorem find?_key [BEq κ] [LawfulBEq κ] {k : κ} : t.find? (fun a => key a == k) = some r ↔ r ∈ t ∧ key r = k := by
  constructor
  · intro h
    obtain ⟨hr, hk⟩ := find?_some h
    exact ⟨hr, beq_iff_eq.mp hk⟩
  · rintro ⟨hr, rfl⟩
    cases found : t.find? fun a => key a == key r with
    | none => simpa using find?_none found hr
    | some a =>
      obtain ⟨ha, hk⟩ := find?_some found
      rw [t.eq_of_key ha hr (beq_iff_eq.mp hk)]

def count (t : Table ρ key) (p : ρ → Bool) : Nat := t.rows.countP p

theorem exists_of_count_pos (h : 0 < t.count p) : ∃ r ∈ t, p r := by
  obtain ⟨r, hr, hp⟩ := List.countP_pos_iff.mp h
  exact ⟨r, hr, hp⟩

theorem count_key [BEq κ] [LawfulBEq κ] (hr : r ∈ t) : t.count (fun a => key a == key r) = 1 := by
  have mapped : t.count (fun a => key a == key r) = (t.rows.map key).count (key r) := by
    rw [count, List.count, List.countP_map]
    rfl
  rw [mapped]
  exact List.count_eq_one_of_mem t.unique (List.mem_map.mpr ⟨r, hr, rfl⟩)

theorem find?_eq_some (hr : r ∈ t) (hp : p r) (only : ∀ a, p a → key a = key r) : t.find? p = some r := by
  cases found : t.find? p with
  | none => rw [find?_none found hr] at hp; cases hp
  | some a =>
    obtain ⟨ha, met⟩ := find?_some found
    rw [t.eq_of_key ha hr (only a met)]

theorem count_eq_one [BEq κ] [LawfulBEq κ] (hr : r ∈ t) (hp : p r) (only : ∀ a, p a → key a = key r)
    : t.count p = 1 := by
  have most : t.count p ≤ t.count fun a => key a == key r :=
    List.countP_mono_left fun a _ ha => beq_iff_eq.mpr (only a ha)
  have least : 0 < t.count p := List.countP_pos_iff.mpr ⟨r, hr, hp⟩
  rw [count_key hr] at most
  omega

/-- `UPDATE .. SET f WHERE p`, where `f` writes no key column. -/
def update (t : Table ρ key) (p : ρ → Bool) (f : ρ → ρ) (keep : ∀ r, key (f r) = key r) :
    Table ρ key where
  rows := t.rows.map fun r => if p r then f r else r
  unique := by
    have same : (t.rows.map fun r => if p r then f r else r).map key = t.rows.map key := by
      rw [List.map_map]
      apply List.map_congr_left
      intro r _
      by_cases h : p r <;> simp [h, keep]
    rw [same]
    exact t.unique

theorem mem_update {f : ρ → ρ} (keep : ∀ r, key (f r) = key r)
    : r ∈ t.update p f keep ↔ ∃ r₀ ∈ t, (if p r₀ then f r₀ else r₀) = r := by
  exact List.mem_map

theorem count_map_le {t t' : Table ρ key} {q extra : ρ → Bool} {g : ρ → ρ} (rows : t'.rows = t.rows.map g)
    (enters : ∀ r ∈ t, q (g r) → q r ∨ extra r) : t'.count q ≤ t.count q + t.count extra := by
  rw [count, rows, List.countP_map]
  have either : t.rows.countP (q ∘ g) ≤ t.rows.countP fun r => q r || extra r :=
    List.countP_mono_left fun r hr h => by simpa using enters r hr h
  refine Nat.le_trans either ?_
  clear either enters rows
  rw [count, count]
  induction t.rows with
  | nil => simp
  | cons r rows ih =>
    simp only [List.countP_cons, Bool.or_eq_true]
    by_cases hq : q r <;> by_cases he : extra r <;> simp [hq, he] <;> omega

def insert [DecidableEq κ] (t : Table ρ key) (r : ρ) : Option (Table ρ key) :=
  if h : key r ∈ t.rows.map key then none
  else some ⟨t.rows ++ [r], by
    rw [List.map_append]
    refine List.Nodup.append t.unique (by simp) ?_
    intro k hk hk'
    simp only [List.map_cons, List.map_nil, List.mem_singleton] at hk'
    exact h (hk' ▸ hk)⟩

theorem insert_some [DecidableEq κ] {t u : Table ρ key} (h : t.insert r = some u) :
    (∀ a ∈ t, key a ≠ key r) ∧ ∀ a, a ∈ u ↔ a ∈ t ∨ a = r := by
  unfold insert at h
  split at h
  · cases h
  · rename_i fresh
    cases h
    refine ⟨fun a ha hk => fresh (List.mem_map.mpr ⟨a, ha, hk⟩), fun a => ?_⟩
    change a ∈ t.rows ++ [r] ↔ _
    simp only [List.mem_append, List.mem_singleton]
    rfl

theorem insert_fresh [DecidableEq κ] (fresh : ∀ a ∈ t, key a ≠ key r) : ∃ u, t.insert r = some u := by
  have absent : key r ∉ t.rows.map key := by
    rintro taken
    obtain ⟨a, ha, same⟩ := List.mem_map.mp taken
    exact fresh a ha same
  exact ⟨_, dif_neg absent⟩

theorem insert_rows [DecidableEq κ] {t u : Table ρ key} (h : t.insert r = some u) : u.rows = t.rows ++ [r] := by
  unfold insert at h
  split at h
  · cases h
  · cases h
    rfl

def upsert [DecidableEq κ] (t : Table ρ key) (r : ρ) : Table ρ key where
  rows := t.rows.filter (fun a => key a ≠ key r) ++ [r]
  unique := by
    rw [List.map_append]
    refine List.Nodup.append ((List.filter_sublist.map key).nodup t.unique) (by simp) ?_
    intro k hk hr
    obtain ⟨a, ha, rfl⟩ := List.mem_map.mp hk
    simp only [List.map_cons, List.map_nil, List.mem_singleton] at hr
    simp [hr] at ha

theorem mem_upsert [DecidableEq κ] {r a : ρ} : a ∈ t.upsert r ↔ (a ∈ t ∧ key a ≠ key r) ∨ a = r := by
  change a ∈ t.rows.filter _ ++ [r] ↔ _
  simp only [List.mem_append, List.mem_filter, decide_eq_true_eq, List.mem_singleton]
  rfl

theorem find?_upsert [BEq κ] [LawfulBEq κ] [DecidableEq κ] (t : Table ρ key) (r : ρ) (k : κ) :
    (t.upsert r).find? (fun a => key a == k) = if key r = k then some r else t.find? fun a => key a == k := by
  apply Option.ext
  intro a
  rw [find?_key, mem_upsert]
  split
  · rename_i same
    rw [Option.some.injEq]
    constructor
    · rintro ⟨⟨-, other⟩ | rfl, its⟩
      · exact absurd (its.trans same.symm) other
      · rfl
    · rintro rfl
      exact ⟨.inr rfl, same⟩
  · rename_i other
    rw [find?_key]
    constructor
    · rintro ⟨⟨mem, -⟩ | rfl, its⟩
      · exact ⟨mem, its⟩
      · exact absurd its other
    · rintro ⟨mem, its⟩
      exact ⟨.inl ⟨mem, fun clash => other (clash.symm.trans its)⟩, its⟩

def delete (t : Table ρ key) (p : ρ → Bool) : Table ρ key where
  rows := t.rows.filter fun r => !p r
  unique := (List.filter_sublist.map key).nodup t.unique

theorem mem_delete : r ∈ t.delete p ↔ r ∈ t ∧ p r = false := by
  change r ∈ t.rows.filter _ ↔ _
  rw [List.mem_filter]
  simp only [Bool.not_eq_true']
  rfl

theorem upsert_rows [DecidableEq κ] (fresh : ∀ a ∈ t, key a ≠ key r) : (t.upsert r).rows = t.rows ++ [r] := by
  have all : t.rows.filter (fun a => key a ≠ key r) = t.rows :=
    List.filter_eq_self.mpr fun a ha => by simpa using fresh a ha
  simp only [upsert, all]

theorem insert_eq_upsert [DecidableEq κ] (fresh : ∀ a ∈ t, key a ≠ key r) : t.insert r = some (t.upsert r) := by
  obtain ⟨u, hu⟩ := insert_fresh fresh
  have rows : u.rows = (t.upsert r).rows := by rw [insert_rows hu, upsert_rows fresh]
  rw [hu, Table.ext rows]

theorem delete_upsert [DecidableEq κ] (fresh : ∀ a ∈ t, key a ≠ key r) :
    ((t.upsert r).delete fun a => key a == key r) = t := by
  apply Table.ext
  simp only [delete, upsert_rows fresh, List.filter_append, List.filter_cons, beq_self_eq_true,
    Bool.not_true, Bool.false_eq_true, if_false, List.filter_nil, List.append_nil]
  exact List.filter_eq_self.mpr fun a ha => by simpa using fresh a ha

end Table

theorem countP_le_one {l : List α} {P : α → Bool} (nodup : l.Nodup)
    (one : ∀ x ∈ l, ∀ y ∈ l, P x → P y → x = y) : l.countP P ≤ 1 := by
  induction l with
  | nil => simp
  | cons x l ih =>
    rw [List.nodup_cons] at nodup
    have rest := ih nodup.2 fun y hy z hz => one y (by simp [hy]) z (by simp [hz])
    by_cases hx : P x
    · have none : l.countP P = 0 := by
        refine List.countP_eq_zero.mpr fun y hy met => nodup.1 ?_
        rwa [one x (by simp) y (by simp [hy]) hx met]
      simp [none, hx]
    · simpa [hx] using rest

theorem mem_take_of_pairwise {le : α → α → Prop} [DecidableRel le] {l : List α} (order : l.Pairwise le)
    {x : α} (reflexive : le x x) (hx : x ∈ l) {k : Nat} (few : l.countP (fun y => le y x) ≤ k) : x ∈ l.take k := by
  induction l generalizing k with
  | nil => cases hx
  | cons y l ih =>
    rw [List.pairwise_cons] at order
    have first : le y x := by
      obtain rfl | later := List.mem_cons.mp hx
      · exact reflexive
      · exact order.1 x later
    rw [List.countP_cons_of_pos (by simpa using first)] at few
    cases k with
    | zero => omega
    | succ k =>
      rw [List.take_succ_cons, List.mem_cons]
      exact (List.mem_cons.mp hx).imp_right fun later => ih order.2 later (by omega)

/-- `ORDER BY .. LIMIT k` shows a row that at most `k` rows, itself among them, come before. -/
theorem mem_limit {le : α → α → Prop} [DecidableRel le] [Std.Total le] [IsTrans α le] {l : List α} {x : α}
    (hx : x ∈ l) {k : Nat} (few : l.countP (fun y => le y x) ≤ k) : x ∈ (l.insertionSort le).take k := by
  refine mem_take_of_pairwise (List.pairwise_insertionSort le l) (refl_of le x) ?_ ?_
  · rwa [List.mem_insertionSort]
  · rwa [(List.perm_insertionSort le l).countP_eq]

theorem Table.limit_distinct {key : ρ → κ} (t : Table ρ key) (p : ρ → Bool) (le : ρ → ρ → Prop) [DecidableRel le]
    (k : Nat) : ((((t.rows.filter p).insertionSort le).take k).map key).Nodup := by
  have sorted : (((t.rows.filter p).insertionSort le).map key).Nodup := by
    rw [((List.perm_insertionSort le _).map key).nodup_iff]
    exact t.unique.sublist (List.filter_sublist.map key)
  exact sorted.sublist ((List.take_sublist _ _).map key)

theorem bind_ok {x : Except ε σ} {f : σ → Except ε τ} {b : τ} : (x >>= f) = .ok b ↔ ∃ a, x = .ok a ∧ f a = .ok b := by
  cases x with
  | error e => simp [bind, Except.bind]
  | ok a => simp [bind, Except.bind]

theorem map_ok {x : Except ε σ} {f : σ → τ} {b : τ} (h : x.map f = .ok b) : ∃ a, x = .ok a ∧ f a = b := by
  cases x with
  | error e => cases h
  | ok a => exact ⟨a, rfl, Except.ok.inj h⟩

theorem foldlM_invariant {step : σ → α → Except ε σ} (inv : σ → Prop) {xs : List α} {s t : σ}
    (run : xs.foldlM step s = .ok t) (start : inv s)
    (preserved : ∀ x ∈ xs, ∀ s t, step s x = .ok t → inv s → inv t) : inv t := by
  induction xs generalizing s with
  | nil =>
    simp only [List.foldlM_nil, pure, Except.pure, Except.ok.injEq] at run
    exact run ▸ start
  | cons x xs ih =>
    obtain ⟨u, hx, rest⟩ := bind_ok.mp run
    exact ih rest (preserved x (by simp) s u hx start)
      fun y hy => preserved y (List.mem_cons_of_mem x hy)

section Related

variable {R : σ → σ → Prop} (refl : ∀ s, R s s) (trans : ∀ {s t u}, R s t → R t u → R s u)
include refl trans

theorem foldl_related {f : σ → α → σ} (step : ∀ s x, R s (f s x)) (xs : List α) (s : σ) : R s (xs.foldl f s) := by
  induction xs generalizing s with
  | nil => exact refl s
  | cons x xs ih => exact trans (step s x) (ih (f s x))

theorem foldlM_related {f : σ → α → Except ε σ} {xs : List α} {s t : σ} (step : ∀ s t x, f s x = .ok t → R s t)
    (run : xs.foldlM f s = .ok t) : R s t :=
  foldlM_invariant (R s) run (refl s) fun x _ u v hv hu => trans hu (step u v x hv)

end Related

def commit (s : σ) : Except ε σ → σ
  | .ok t => t
  | .error _ => s

theorem commit_invariant (inv : σ → Prop) {s : σ} {r : Except ε σ} (start : inv s)
    (preserved : ∀ t, r = .ok t → inv t) : inv (commit s r) := by
  cases r with
  | error e => exact start
  | ok t => exact preserved t rfl

end Monik.Tables
