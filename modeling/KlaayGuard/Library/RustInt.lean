/-
Arithmetic on `u64` as a build of a Rust program performs it.

A build with overflow checks panics where a sum or a product does not fit; a build
without them keeps the low 64 bits.  A computation that both perform exactly
whenever its result fits composes with further steps.
-/

set_option autoImplicit false

namespace RustInt

inductive OverflowChecks : Type where
  | on
  | off
  deriving DecidableEq, Repr

/-- `a + b`; `none` is the panic. -/
def add (checks : OverflowChecks) (a b : UInt64) : Option UInt64 :=
  match checks with
  | .on => if a.toNat + b.toNat < UInt64.size then some (a + b) else none
  | .off => some (a + b)

/-- `a * b`; `none` is the panic. -/
def mul (checks : OverflowChecks) (a b : UInt64) : Option UInt64 :=
  match checks with
  | .on => if a.toNat * b.toNat < UInt64.size then some (a * b) else none
  | .off => some (a * b)

/-- A computation of the number `n`: exact in every build where `n` fits, and a
panic under overflow checks where it does not. -/
structure Computes (arith : OverflowChecks → Option UInt64) (n : Nat) : Prop where
  exact : n < UInt64.size → ∀ checks, ∃ word, arith checks = some word ∧ word.toNat = n
  overflow : UInt64.size ≤ n → arith .on = none

theorem Computes.fits_iff {arith : OverflowChecks → Option UInt64} {n : Nat}
    (computes : Computes arith n) : arith .on ≠ none ↔ n < UInt64.size := by
  constructor
  · intro returns
    exact Nat.lt_of_not_le fun large => returns (computes.overflow large)
  · intro fits
    obtain ⟨word, returned, _⟩ := computes.exact fits .on
    rw [returned]
    exact nofun

theorem add_computes (a b : UInt64) : Computes (add · a b) (a.toNat + b.toNat) where
  exact := by
    intro fits checks
    refine ⟨a + b, ?_, (UInt64.toNat_add a b).trans (Nat.mod_eq_of_lt fits)⟩
    cases checks with
    | on => exact if_pos fits
    | off => rfl
  overflow := fun large => if_neg (Nat.not_lt.mpr large)

theorem mul_computes (a b : UInt64) : Computes (mul · a b) (a.toNat * b.toNat) where
  exact := by
    intro fits checks
    refine ⟨a * b, ?_, (UInt64.toNat_mul a b).trans (Nat.mod_eq_of_lt fits)⟩
    cases checks with
    | on => exact if_pos fits
    | off => rfl
  overflow := fun large => if_neg (Nat.not_lt.mpr large)

theorem Computes.mul {arith : OverflowChecks → Option UInt64} {n : Nat}
    (computes : Computes arith n) {b : UInt64} (positive : 0 < b.toNat) :
    Computes (fun checks => (arith checks).bind (RustInt.mul checks · b)) (n * b.toNat) where
  exact := by
    intro fits checks
    have factor : n < UInt64.size := Nat.lt_of_le_of_lt (Nat.le_mul_of_pos_right n positive) fits
    obtain ⟨word, returned, rfl⟩ := computes.exact factor checks
    rw [returned]
    exact (mul_computes word b).exact fits checks
  overflow := by
    intro large
    by_cases factor : n < UInt64.size
    · obtain ⟨word, returned, rfl⟩ := computes.exact factor .on
      rw [returned]
      exact (mul_computes word b).overflow large
    · rw [computes.overflow (Nat.le_of_not_lt factor)]
      rfl

/-- An unused earlier result only matters where it overflows, and then so does the later one. -/
theorem Computes.after {first arith : OverflowChecks → Option UInt64} {k n : Nat}
    (computes : Computes arith n) (computesFirst : Computes first k) (le : k ≤ n) :
    Computes (fun checks => (first checks).bind fun _ => arith checks) n where
  exact := by
    intro fits checks
    obtain ⟨_, returned, _⟩ := computesFirst.exact (Nat.lt_of_le_of_lt le fits) checks
    rw [returned]
    exact computes.exact fits checks
  overflow := by
    intro large
    rw [computes.overflow large]
    cases first .on <;> rfl

end RustInt
