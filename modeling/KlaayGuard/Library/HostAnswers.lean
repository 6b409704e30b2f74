/-
Programs that only ask, over a host whose answers do not change.

Every action has one answer then, and a program has one result: the one it comes
to when each action is given its answer.
-/

import KlaayGuard.Library.Assertions

set_option autoImplicit false

namespace EffectProgram

variable {Action : Type} {Reply : Action → Type} {α β State : Type}
variable {answer : ∀ action, Reply action}

namespace Prog

def answered (answer : ∀ action, Reply action) : Prog Action Reply α → α
  | .done result => result
  | .act action next => (next (answer action)).answered answer

@[simp] theorem answered_pure (result : α) :
    (pure result : Prog Action Reply α).answered answer = result := rfl

@[simp] theorem answered_perform (action : Action) :
    (perform action : Prog Action Reply (Reply action)).answered answer = answer action := rfl

@[simp] theorem answered_bind (program : Prog Action Reply α)
    (continuation : α → Prog Action Reply β) :
    (program >>= continuation).answered answer =
      (continuation (program.answered answer)).answered answer := by
  induction program with
  | done result => rfl
  | act action next ih => exact ih (answer action)

/-- Two hosts that give the same answers to what a program may ask lead it to one result. -/
theorem Only.answered_congr {kind : Action → Prop} {program : Prog Action Reply α}
    (only : program.Only kind) {other : ∀ action, Reply action}
    (same : ∀ action, kind action → answer action = other action) :
    program.answered answer = program.answered other := by
  induction program with
  | done result => rfl
  | act action next ih =>
      rw [answered, answered, same action only.1]
      exact ih (other action) (only.2 (other action))

theorem Runs.answered {semantics : State → (action : Action) → Reply action → State → Prop}
    {program : Prog Action Reply α} {before after : State} {events : List (Event Action Reply)}
    {result : α} (run : Runs semantics program before events after result)
    (fixed : ∀ event ∈ events, event.reply = answer event.action) :
    result = program.answered answer := by
  induction run with
  | done result state => rfl
  | act performed rest ih =>
      have later := ih fun event member => fixed event (List.mem_cons_of_mem _ member)
      rw [later, Prog.answered, ← fixed _ List.mem_cons_self]

theorem exists_answered_run (answer : ∀ action, Reply action) (program : Prog Action Reply α) :
    ∃ events, Runs (fun (_ : Unit) action reply (_ : Unit) => reply = answer action) program ()
        events () (program.answered answer) ∧
      ∀ event ∈ events, event.reply = answer event.action := by
  induction program with
  | done result => exact ⟨[], .done result (), fun _ member => absurd member List.not_mem_nil⟩
  | act action next ih =>
      obtain ⟨events, run, answers⟩ := ih (answer action)
      refine ⟨⟨action, answer action⟩ :: events, .act rfl run, fun event member => ?_⟩
      rcases List.mem_cons.mp member with rfl | member
      · rfl
      · exact answers event member

/-- A program that only asks a fixed host comes to its answer, among whatever other actions. -/
theorem lift_keeps_answered {Wider Wide : Type} {WiderReply : Wider → Type}
    {wide : Wide → (action : Wider) → WiderReply action → Wide → Prop}
    {embed : Action → Wider} {back : ∀ action, WiderReply (embed action) → Reply action}
    {always : List (Event Wider WiderReply) → Wide → Prop}
    (asks : ∀ state action reply after, wide state (embed action) reply after →
      back action reply = answer action ∧ after = state)
    (stable : ∀ history action reply state, always history state →
      always (history ++ [⟨embed action, reply⟩]) state)
    (program : Prog Action Reply α) {history : List (Event Wider WiderReply)} {state : Wide}
    (holds : always history state) :
    (program.lift embed back).Keeps wide always
      (fun events after result => always events after ∧ after = state ∧
        result = program.answered answer) history state := by
  induction program generalizing history with
  | done result => exact ⟨holds, holds, rfl, rfl⟩
  | act action next ih =>
      refine ⟨holds, fun reply after performed => ?_⟩
      obtain ⟨answers, rfl⟩ := asks _ _ _ _ performed
      have later := ih (back action reply) (stable _ action reply _ holds)
      rw [Prog.answered, ← answers]
      exact later

end Prog

end EffectProgram
