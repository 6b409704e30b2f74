/-
Counting the read guards of a lock.

A lock keeps only the number of its read guards.  The threads that hold one are
counted by it, so none is held where the number is zero: that is what a write
section waits for.  The number may exceed the known holders.
-/

import Mathlib.Data.Finset.Card
import Mathlib.Logic.Function.Basic

set_option autoImplicit false

namespace EffectProgram

variable {ι : Type} {holds held : ι → Prop} {readers : Nat}

def GuardsCounted (holds : ι → Prop) (readers : Nat) : Prop :=
  ∃ holders : Finset ι, (∀ thread, thread ∈ holders ↔ holds thread) ∧ holders.card ≤ readers

theorem GuardsCounted.none_held (noHolder : ∀ thread, ¬ holds thread) :
    GuardsCounted holds readers := by
  refine ⟨∅, fun thread => ?_, Nat.zero_le _⟩
  simp [noHolder thread]

/-- A write section excludes every guard. -/
theorem GuardsCounted.free (counted : GuardsCounted holds 0) (thread : ι) : ¬ holds thread := by
  obtain ⟨holders, member, few⟩ := counted
  rw [← member thread, Finset.card_eq_zero.mp (Nat.le_zero.mp few)]
  exact Finset.notMem_empty thread

theorem GuardsCounted.congr (counted : GuardsCounted holds readers)
    (same : ∀ thread, held thread ↔ holds thread) : GuardsCounted held readers := by
  obtain ⟨holders, member, few⟩ := counted
  exact ⟨holders, fun thread => (member thread).trans (same thread).symm, few⟩

/-! ### One thread moves

Whether a thread holds a guard is read off its phase, and a step changes the
phase of one thread. -/

variable [DecidableEq ι] {Phase : Type} {HoldsGuard : Phase → Prop} {phases : ι → Phase}
variable {thread : ι} {phase : Phase}

theorem GuardsCounted.keep
    (counted : GuardsCounted (fun other => HoldsGuard (phases other)) readers)
    (same : HoldsGuard phase ↔ HoldsGuard (phases thread)) :
    GuardsCounted (fun other => HoldsGuard (Function.update phases thread phase other))
      readers := by
  refine counted.congr fun other => ?_
  by_cases here : other = thread
  · subst here
    rw [Function.update_self]
    exact same
  · rw [Function.update_of_ne here]

theorem GuardsCounted.acquire
    (counted : GuardsCounted (fun other => HoldsGuard (phases other)) readers)
    (now : HoldsGuard phase) :
    GuardsCounted (fun other => HoldsGuard (Function.update phases thread phase other))
      (readers + 1) := by
  obtain ⟨holders, member, few⟩ := counted
  refine ⟨insert thread holders, fun other => ?_, ?_⟩
  · rw [Finset.mem_insert, member]
    by_cases here : other = thread
    · subst here
      simp only [Function.update_self, true_or, true_iff]
      exact now
    · simp only [here, false_or, Function.update_of_ne here]
  · exact Nat.le_trans (Finset.card_insert_le thread holders) (Nat.succ_le_succ few)

theorem GuardsCounted.release
    (counted : GuardsCounted (fun other => HoldsGuard (phases other)) readers)
    (holder : HoldsGuard (phases thread)) (gone : ¬ HoldsGuard phase) :
    GuardsCounted (fun other => HoldsGuard (Function.update phases thread phase other))
      (readers - 1) := by
  obtain ⟨holders, member, few⟩ := counted
  refine ⟨holders.erase thread, fun other => ?_, ?_⟩
  · rw [Finset.mem_erase, member]
    by_cases here : other = thread
    · subst here
      simp only [Function.update_self, ne_eq, not_true_eq_false, false_and, false_iff]
      exact gone
    · simp only [ne_eq, here, not_false_eq_true, true_and, Function.update_of_ne here]
  · rw [Finset.card_erase_of_mem ((member thread).mpr holder)]
    exact Nat.sub_le_sub_right few 1

end EffectProgram
