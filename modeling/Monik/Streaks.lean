import Mathlib.Data.List.Chain
import Mathlib.Data.List.Infix

/-! Runs at the end of a history, newest entry first: every entry counts and follows the one before
it closely enough. -/

namespace Monik.Streaks

variable {α : Type*} {counts : α → Bool} {follows : α → α → Bool}

/-- `follows b a` says that `a` comes soon enough after `b`. -/
structure IsRun (counts : α → Bool) (follows : α → α → Bool) (history run : List α) : Prop where
  front : run <+: history
  counted : ∀ a ∈ run, counts a
  unbroken : run.IsChain fun a b => follows b a

structure Maximal (counts : α → Bool) (follows : α → α → Bool) (history run : List α) : Prop
    extends IsRun counts follows history run where
  longest : ∀ other, IsRun counts follows history other → other.length ≤ run.length

def latest (counts : α → Bool) (follows : α → α → Bool) : List α → List α
  | [] => []
  | a :: rest =>
    if counts a then a :: (if rest.head?.all fun b => follows b a then latest counts follows rest else []) else []

theorem latest_cons (a : α) (rest : List α) : latest counts follows (a :: rest) =
    if counts a then a :: (if rest.head?.all fun b => follows b a then latest counts follows rest else []) else [] := by
  rw [latest]

theorem latest_isRun (history : List α) : IsRun counts follows history (latest counts follows history) := by
  induction history with
  | nil => exact ⟨List.prefix_rfl, by simp [latest], by simp [latest]⟩
  | cons a rest ih =>
    rw [latest_cons]
    split
    · rename_i counted
      split
      · rename_i close
        refine ⟨(List.prefix_cons_inj a).mpr ih.front, ?_, ?_⟩
        · intro b mem
          rcases List.mem_cons.mp mem with rfl | older
          · exact counted
          · exact ih.counted b older
        · refine List.isChain_cons.mpr ⟨fun b first => ?_, ih.unbroken⟩
          have heads : rest.head? = some b := by
            obtain ⟨tail, same⟩ := ih.front
            rw [← same, List.head?_append, first]
            rfl
          rw [heads] at close
          exact close
      · exact ⟨⟨rest, rfl⟩, by simp [counted], by simp⟩
    · exact ⟨List.nil_prefix, by simp, by simp⟩

theorem length_le_latest {history run : List α} (h : IsRun counts follows history run) :
    run.length ≤ (latest counts follows history).length := by
  induction history generalizing run with
  | nil => simp [List.prefix_nil.mp h.front]
  | cons a rest ih =>
    cases run with
    | nil => simp
    | cons b run =>
      obtain ⟨rfl, front⟩ := List.cons_prefix_cons.mp h.front
      rw [latest_cons, if_pos (h.counted b List.mem_cons_self), List.length_cons, List.length_cons]
      obtain ⟨first, unbroken⟩ := List.isChain_cons.mp h.unbroken
      have shorter := ih ⟨front, fun c mem => h.counted c (List.mem_cons_of_mem b mem), unbroken⟩
      split
      · exact Nat.succ_le_succ shorter
      · rename_i far
        cases run with
        | nil => simp
        | cons c run =>
          obtain ⟨tail, rfl⟩ := front
          simp [first c rfl] at far

theorem maximal_iff {history run : List α} :
    Maximal counts follows history run ↔ run = latest counts follows history := by
  constructor
  · intro h
    have ours : IsRun counts follows history (latest counts follows history) := latest_isRun history
    have same : run.length = (latest counts follows history).length :=
      Nat.le_antisymm (length_le_latest h.toIsRun) (h.longest _ ours)
    exact (List.prefix_of_prefix_length_le h.front ours.front same.le).eq_of_length same
  · rintro rfl
    exact ⟨latest_isRun history, fun _ => length_le_latest⟩

end Monik.Streaks
