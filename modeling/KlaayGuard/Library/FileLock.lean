/-
Advisory locks on files, as the kernel keeps them.

A lock is on an inode and not on a name.  The table of holders has one entry for
an inode, which is the exclusiveness of the lock; what a lock on a name needs
besides is that the name still leads to the locked inode.  A process guards the
name when both are so, and then no other one does.
-/

import Mathlib.Logic.Function.Basic

set_option autoImplicit false

namespace FileLock

/-- One file name and the processes that open it, each at most once at a time. -/
structure Kernel (ι Inode : Type) : Type where
  name : Option Inode
  descriptor : ι → Option Inode
  holder : Inode → Option ι
  alive : ι → Bool

variable {ι Inode : Type} [DecidableEq ι]

namespace Kernel

def start (name : Option Inode) : Kernel ι Inode :=
  { name := name, descriptor := fun _ => none, holder := fun _ => none, alive := fun _ => true }

def openAs (k : Kernel ι Inode) (process : ι) (inode : Inode) : Kernel ι Inode :=
  { k with name := some inode, descriptor := Function.update k.descriptor process (some inode) }

def lock [DecidableEq Inode] (k : Kernel ι Inode) (process : ι) (inode : Inode) : Kernel ι Inode :=
  { k with holder := Function.update k.holder inode (some process) }

def close (k : Kernel ι Inode) (process : ι) : Kernel ι Inode :=
  { k with
    descriptor := Function.update k.descriptor process none
    holder := fun inode => if k.holder inode = some process then none else k.holder inode }

def exit (k : Kernel ι Inode) (process : ι) : Kernel ι Inode :=
  { k.close process with alive := Function.update k.alive process false }

def redirect (k : Kernel ι Inode) (name : Option Inode) : Kernel ι Inode :=
  { k with name := name }

/-- Locks and descriptors are those of the living. -/
structure Consistent (k : Kernel ι Inode) : Prop where
  held_open : ∀ inode process, k.holder inode = some process →
    k.descriptor process = some inode
  open_alive : ∀ process inode, k.descriptor process = some inode → k.alive process = true

/-- The process holds the lock on the inode that the name leads to. -/
def Guards (k : Kernel ι Inode) (process : ι) : Prop :=
  ∃ inode, k.name = some inode ∧ k.holder inode = some process

omit [DecidableEq ι] in
theorem Guards.unique {k : Kernel ι Inode} {first second : ι} (guards : k.Guards first)
    (others : k.Guards second) : first = second := by
  obtain ⟨inode, named, held⟩ := guards
  obtain ⟨other, namedOther, heldOther⟩ := others
  rw [named] at namedOther
  cases namedOther
  rw [held] at heldOther
  exact Option.some.inj heldOther

omit [DecidableEq ι] in
theorem leads_of_absent {k : Kernel ι Inode} (absent : k.name = none) (inode : Inode) :
    ∀ other, k.name = some other → other = inode := by
  intro other named
  rw [absent] at named
  cases named

omit [DecidableEq ι] in
theorem start_consistent (name : Option Inode) : (start name : Kernel ι Inode).Consistent :=
  { held_open := fun _ _ held => nomatch held
    open_alive := fun _ _ opened => nomatch opened }

theorem Consistent.openAs {k : Kernel ι Inode} (consistent : k.Consistent) {process : ι}
    (closed : k.descriptor process = none) (alive : k.alive process = true) (inode : Inode) :
    (k.openAs process inode).Consistent := by
  constructor
  · intro other holder held
    have opened := consistent.held_open other holder held
    have differs : holder ≠ process := by
      rintro rfl
      rw [closed] at opened
      cases opened
    simp only [Kernel.openAs, Function.update_of_ne differs]
    exact opened
  · intro other inode' opened
    by_cases same : other = process
    · subst same
      exact alive
    · simp only [Kernel.openAs, Function.update_of_ne same] at opened
      exact consistent.open_alive other inode' opened

omit [DecidableEq ι] in
theorem Consistent.lock [DecidableEq Inode] {k : Kernel ι Inode} (consistent : k.Consistent)
    {process : ι} {inode : Inode} (opened : k.descriptor process = some inode) :
    (k.lock process inode).Consistent := by
  constructor
  · intro other holder held
    by_cases same : other = inode
    · subst same
      simp only [Kernel.lock, Function.update_self, Option.some.injEq] at held
      subst held
      exact opened
    · simp only [Kernel.lock, Function.update_of_ne same] at held
      exact consistent.held_open other holder held
  · exact consistent.open_alive

theorem holder_close {k : Kernel ι Inode} {process holder : ι} {inode : Inode} :
    (k.close process).holder inode = some holder ↔
      k.holder inode = some holder ∧ holder ≠ process := by
  simp only [Kernel.close]
  by_cases own : k.holder inode = some process
  · rw [if_pos own, own]
    constructor
    · intro held
      cases held
    · rintro ⟨same, differs⟩
      exact absurd (Option.some.inj same).symm differs
  · rw [if_neg own]
    constructor
    · intro held
      refine ⟨held, ?_⟩
      rintro rfl
      exact own held
    · exact fun both => both.1

theorem descriptor_close_of_ne (k : Kernel ι Inode) {process other : ι}
    (differs : other ≠ process) :
    (k.close process).descriptor other = k.descriptor other :=
  Function.update_of_ne differs _ _

theorem Consistent.close {k : Kernel ι Inode} (consistent : k.Consistent) (process : ι) :
    (k.close process).Consistent := by
  constructor
  · intro inode holder held
    obtain ⟨before, differs⟩ := holder_close.mp held
    rw [descriptor_close_of_ne k differs]
    exact consistent.held_open inode holder before
  · intro other inode opened
    by_cases same : other = process
    · subst same
      simp [Kernel.close] at opened
    · rw [descriptor_close_of_ne k same] at opened
      exact consistent.open_alive other inode opened

theorem Consistent.exit {k : Kernel ι Inode} (consistent : k.Consistent) (process : ι) :
    (k.exit process).Consistent := by
  have closed := consistent.close process
  constructor
  · exact closed.held_open
  · intro other inode opened
    have differs : other ≠ process := by
      rintro rfl
      simp [Kernel.exit, Kernel.close] at opened
    simp only [Kernel.exit, Function.update_of_ne differs]
    exact closed.open_alive other inode opened

omit [DecidableEq ι] in
theorem Consistent.redirect {k : Kernel ι Inode} (consistent : k.Consistent)
    (name : Option Inode) : (k.redirect name).Consistent :=
  { held_open := consistent.held_open, open_alive := consistent.open_alive }

end Kernel

end FileLock
