import Monik.Persistence

/-! Procedures over a durable state that can be cut short between any two operations. `Holds`
asserts an invariant of every state on the way and a postcondition, along the procedure's structure.
-/

namespace Monik.CrashPoints
open Persistence

universe u

variable {σ : Type*} {α β : Type u}

structure Trace (σ : Type*) (α : Type u) where
  passed : List σ
  state : σ
  result : α

def Proc (σ : Type*) (α : Type u) := σ → Trace σ α

variable {p q : Proc σ α}

namespace Proc

instance : Monad (Proc σ) where
  pure a := fun s => ⟨[], s, a⟩
  bind p f := fun s =>
    let t := p s
    let t' := f t.result t.state
    ⟨t.passed ++ t'.passed, t'.state, t'.result⟩

def op (f : σ → σ) : Proc σ PUnit.{u + 1} := fun s => ⟨[f s], f s, ⟨⟩⟩

def read (f : σ → α) : Proc σ α := fun s => ⟨[], s, f s⟩

theorem read_bind (g : σ → α) (f : α → Proc σ β) (s : σ) : (read g >>= f) s = f (g s) s := rfl

theorem op_bind (g : σ → σ) (f : PUnit.{u + 1} → Proc σ β) (s : σ) :
    (op g >>= f) s = ⟨g s :: (f ⟨⟩ (g s)).passed, (f ⟨⟩ (g s)).state, (f ⟨⟩ (g s)).result⟩ := rfl

def replace (o : WriteOutcome) (f : σ → σ) : Proc σ Bool := do
  op fun s => o.write s (f s)
  pure (o == .done)

def stopAt (p : Proc σ α) (s : σ) : Nat → σ
  | 0 => s
  | n + 1 => (p s).passed[n]?.getD (p s).state

def leaves (p : Proc σ α) (s : σ) : Option Nat → σ
  | none => (p s).state
  | some n => p.stopAt s n

def passedBy (p : Proc σ α) (s : σ) : Option Nat → List σ
  | none => (p s).passed
  | some n => (p s).passed.take n

theorem leaves_congr {s : σ} (h : p s = q s) (cut : Option Nat) : p.leaves s cut = q.leaves s cut := by
  cases cut with
  | none => exact congrArg Trace.state h
  | some n => cases n <;> simp only [leaves, stopAt, h]

theorem stopAt_end {s : σ} {n : Nat} (last : (p s).passed.getLast? = some (p s).state) (h : (p s).passed.length ≤ n)
    : p.stopAt s n = (p s).state := by
  cases n with
  | zero =>
    rw [List.eq_nil_of_length_eq_zero (Nat.le_zero.mp h)] at last
    cases last
  | succ n =>
    rw [stopAt]
    by_cases inside : n < (p s).passed.length
    · have final : n = (p s).passed.length - 1 := by omega
      rw [final, ← List.getLast?_eq_getElem?, last, Option.getD_some]
    · rw [List.getElem?_eq_none (Nat.le_of_not_lt inside), Option.getD_none]

end Proc

/-- From `s`, every state that the procedure passes meets `inv`, and it ends as `post` says. -/
def Holds (inv : σ → Prop) (p : Proc σ α) (post : α → σ → Prop) (s : σ) : Prop :=
  (∀ u ∈ (p s).passed, inv u) ∧ post (p s).result (p s).state

namespace Holds

variable {inv : σ → Prop} {s : σ} {post : α → σ → Prop}

theorem pure {a : α} (h : post a s) : Holds inv (Pure.pure a : Proc σ α) post s :=
  ⟨fun _ hu => absurd hu List.not_mem_nil, h⟩

theorem read {f : σ → α} (h : post (f s) s) : Holds inv (.read f) post s :=
  ⟨fun _ hu => absurd hu List.not_mem_nil, h⟩

variable {f : σ → σ}

theorem op {post : PUnit.{u + 1} → σ → Prop} (kept : inv (f s)) (h : post ⟨⟩ (f s)) : Holds inv (.op f) post s := by
  refine ⟨fun u hu => ?_, h⟩
  rw [List.mem_singleton.mp hu]
  exact kept

theorem bind {f : α → Proc σ β} {post : β → σ → Prop} (h : Holds inv p (fun a => Holds inv (f a) post) s)
    : Holds inv (p >>= f) post s := by
  refine ⟨fun u hu => ?_, h.2.2⟩
  exact (List.mem_append.mp hu).elim (h.1 u) (h.2.1 u)

variable {o : WriteOutcome}

theorem replace {post : Bool → σ → Prop} (old : inv s) (new : inv (f s))
    (failed : post false s) (renamed : post false (f s)) (done : post true (f s)) :
    Holds inv (.replace o f) post s := by
  cases o with
  | done => exact bind (op new (pure done))
  | failed => exact bind (op old (pure failed))
  | renamed => exact bind (op new (pure renamed))

theorem replace_failed {post : Bool → σ → Prop} (old : inv s) (failed : post false s) :
    Holds inv (.replace .failed f) post s :=
  bind (op old (pure failed))

theorem replace_done {post : Bool → σ → Prop} (new : inv (f s)) (done : post true (f s)) :
    Holds inv (.replace .done f) post s :=
  bind (op new (pure done))

theorem replace_written {post : Bool → σ → Prop} (written : o ≠ .failed)
    (new : inv (f s)) (renamed : post false (f s)) (done : post true (f s)) : Holds inv (.replace o f) post s := by
  cases o with
  | done => exact bind (op new (pure done))
  | failed => exact absurd rfl written
  | renamed => exact bind (op new (pure renamed))

theorem congr (same : p s = q s) (h : Holds inv q post s) : Holds inv p post s := by
  unfold Holds
  rw [same]
  exact h

theorem mono {inv' : σ → Prop} {post' : α → σ → Prop} (h : Holds inv p post s)
    (weaker : ∀ u, inv u → inv' u) (implied : ∀ a u, post a u → post' a u) : Holds inv' p post' s :=
  ⟨fun u hu => weaker u (h.1 u hu), implied _ _ h.2⟩

theorem stopAt_succ (h : Holds inv p post s) (final : ∀ a u, post a u → inv u) (n : Nat)
    : inv (p.stopAt s (n + 1)) := by
  rw [Proc.stopAt]
  cases found : (p s).passed[n]? with
  | none => exact final _ _ h.2
  | some u => exact h.1 u (List.mem_of_getElem? found)

theorem stopAt (h : Holds inv p post s) (start : inv s) (final : ∀ a u, post a u → inv u) (n : Nat)
    : inv (p.stopAt s n) := by
  cases n with
  | zero => exact start
  | succ n => exact h.stopAt_succ final n

theorem leaves (h : Holds inv p post s) (start : inv s) (final : ∀ a u, post a u → inv u) (cut : Option Nat)
    : inv (p.leaves s cut) := by
  cases cut with
  | none => exact final _ _ h.2
  | some n => exact h.stopAt start final n

theorem kept (h : Holds inv p (fun _ => inv) s) (start : inv s) (cut : Option Nat) : inv (p.leaves s cut) :=
  h.leaves start (fun _ _ => id) cut

end Holds

end Monik.CrashPoints
