/-
A notification with one stored permit, and an interval that skips missed ticks.

A `Notify` keeps at most one permit.  It hands a permit to a future that waits,
and a future that is dropped with a permit it was handed passes it on.  An
interval's first tick is due at once; a tick taken late is followed by the next
one on the old schedule.  Time is a number of nanoseconds given from outside.
-/

import Mathlib.Order.Basic

set_option autoImplicit false

namespace Tokio

/-- The one future that waits: not registered, registered, or handed a permit
it has not yet taken. -/
inductive Waiter : Type where
  | absent
  | registered
  | handed
  deriving DecidableEq, Repr

structure Notify : Type where
  permit : Bool
  waiter : Waiter
  deriving DecidableEq, Repr

namespace Notify

/-- `notify_one`: a waiting future comes before the stored permit. -/
def notifyOne (notify : Notify) : Notify :=
  match notify.waiter with
  | .registered => { notify with waiter := .handed }
  | _ => { notify with permit := true }

/-- Whether one poll finds the future ready, and what it leaves. -/
def poll (notify : Notify) : Bool × Notify :=
  match notify.waiter with
  | .handed => (true, { notify with waiter := .absent })
  | .registered => (false, notify)
  | .absent =>
      if notify.permit then (true, { notify with permit := false })
      else (false, { notify with waiter := .registered })

/-- The future is dropped, and a permit it was handed goes back. -/
def drop (notify : Notify) : Notify :=
  { permit := notify.permit || notify.waiter == .handed, waiter := .absent }

/-- A notification that nobody has taken: stored, or handed to the future. -/
def Held (notify : Notify) : Prop := notify.permit = true ∨ notify.waiter = .handed

def Settled (notify : Notify) : Prop := notify.waiter = .registered → notify.permit = false

variable {notify : Notify}

theorem held_notifyOne (notify : Notify) : notify.notifyOne.Held := by
  unfold notifyOne
  split
  · exact Or.inr rfl
  · exact Or.inl rfl

theorem settled_notifyOne (notify : Notify) : notify.notifyOne.Settled := by
  unfold notifyOne
  split
  · intro registered
    cases registered
  · rename_i other
    exact fun registered => absurd registered other

theorem Held.drop (held : notify.Held) : notify.drop.Held := by
  refine Or.inl ?_
  rcases held with stored | handed
  · rw [Notify.drop, stored, Bool.true_or]
  · rw [Notify.drop, handed]
    exact Bool.or_true _

theorem settled_drop : notify.drop.Settled := by
  intro registered
  cases registered

theorem held_of_poll (ready : notify.poll.1 = true) : notify.Held := by
  unfold poll at ready
  split at ready
  · rename_i handed
    exact Or.inr handed
  · cases ready
  · split at ready
    · rename_i stored
      exact Or.inl stored
    · cases ready

theorem poll_pending (pending : notify.poll.1 = false) (settled : notify.Settled) :
    ¬ notify.Held ∧ ¬ notify.poll.2.Held := by
  unfold poll at pending ⊢
  split at pending
  · cases pending
  · rename_i registered
    have free : ¬ notify.Held := by
      rintro (stored | handed)
      · rw [settled registered] at stored
        cases stored
      · rw [registered] at handed
        cases handed
    exact ⟨free, free⟩
  · rename_i absent
    split at pending
    · cases pending
    · rename_i none
      constructor
      · rintro (stored | handed)
        · exact none stored
        · rw [absent] at handed
          cases handed
      · rw [if_neg none]
        rintro (stored | handed)
        · exact none stored
        · cases handed

theorem settled_poll (settled : notify.Settled) : notify.poll.2.Settled := by
  unfold poll
  split
  · intro registered
    cases registered
  · exact settled
  · rename_i absent
    split
    · exact fun registered => absurd registered (by rw [absent]; decide)
    · rename_i none
      exact fun _ => Bool.eq_false_iff.mpr none

end Notify

structure Interval : Type where
  period : Nat
  /-- When the next tick is due. -/
  deadline : Nat
  /-- A zero period is refused when the interval is made. -/
  running : 0 < period

namespace Interval

/-- How late a tick may be taken and still count as on time. -/
def slack : Nat := 5000000

def starting (period now : Nat) (running : 0 < period) : Interval :=
  { period := period, deadline := now, running := running }

def Due (interval : Interval) (now : Nat) : Prop := interval.deadline ≤ now

/-- A tick is taken; `MissedTickBehavior::Skip`. -/
def tick (interval : Interval) (now : Nat) : Interval :=
  { interval with
    deadline :=
      if interval.deadline + slack < now then
        now + interval.period - (now - interval.deadline) % interval.period
      else interval.deadline + interval.period }

def reset (interval : Interval) (now : Nat) : Interval :=
  { interval with deadline := now + interval.period }

theorem period_tick (interval : Interval) (now : Nat) :
    (interval.tick now).period = interval.period := by
  cases interval with
  | mk period deadline running => rfl

theorem tick_on_time (interval : Interval) :
    interval.tick interval.deadline =
      { interval with deadline := interval.deadline + interval.period } := by
  have notLate : ¬ interval.deadline + slack < interval.deadline := by omega
  rw [tick, if_neg notLate]

/-- However late a tick is taken, the next one is due a period later at most. -/
theorem deadline_tick_le (interval : Interval) {now : Nat} (due : interval.Due now) :
    (interval.tick now).deadline ≤ now + interval.period := by
  unfold Due at due
  unfold tick
  dsimp only
  split <;> omega

theorem not_due_reset (interval : Interval) (now : Nat) : ¬ (interval.reset now).Due now := by
  have running := interval.running
  simp only [Due, reset]
  omega

end Interval

end Tokio
