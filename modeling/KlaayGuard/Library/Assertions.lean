/-
What holds at every moment of one program's run, and what holds at its end.

An assertion speaks of the events so far and of the state.  `Prog.Keeps` is the
rule of one program over one semantics: the first assertion holds before every
action and at the end, the second one relates the end to the result.
-/

import KlaayGuard.Library.EffectProgram

set_option autoImplicit false

namespace EffectProgram

variable {Action : Type} {Reply : Action → Type} {α β State : Type}
variable {semantics : State → (action : Action) → Reply action → State → Prop}

namespace Prog

/-- Whatever replies the program gets: `always` at every moment from here on,
and `returns` with the result at the end. -/
def Keeps (semantics : State → (action : Action) → Reply action → State → Prop)
    (always : List (Event Action Reply) → State → Prop)
    (returns : List (Event Action Reply) → State → α → Prop) :
    Prog Action Reply α → List (Event Action Reply) → State → Prop
  | .done result, history, state => always history state ∧ returns history state result
  | .act action next, history, state =>
      always history state ∧ ∀ reply after, semantics state action reply after →
        (next reply).Keeps semantics always returns (history ++ [⟨action, reply⟩]) after

variable {always : List (Event Action Reply) → State → Prop}
variable {returns : List (Event Action Reply) → State → α → Prop}
variable {history events : List (Event Action Reply)} {before after : State}

theorem keeps_perform {action : Action} {continuation : Reply action → Prog Action Reply α} :
    (perform action >>= continuation).Keeps semantics always returns history before ↔
      always history before ∧ ∀ reply after, semantics before action reply after →
        (continuation reply).Keeps semantics always returns (history ++ [⟨action, reply⟩]) after :=
  Iff.rfl

/-- The rule of a sequence: its second program keeps on from whatever end the
first one may have. -/
theorem Keeps.bind {ends : List (Event Action Reply) → State → α → Prop}
    {returns : List (Event Action Reply) → State → β → Prop}
    {program : Prog Action Reply α} {continuation : α → Prog Action Reply β}
    (first : program.Keeps semantics always ends history before)
    (second : ∀ history state result, ends history state result →
      (continuation result).Keeps semantics always returns history state) :
    (program >>= continuation).Keeps semantics always returns history before := by
  induction program generalizing history before with
  | done result => exact second _ _ _ first.2
  | act action next ih =>
      exact ⟨first.1, fun reply after performed => ih reply (first.2 reply after performed)⟩

theorem Keeps.mono {weaker : List (Event Action Reply) → State → Prop}
    {ends : List (Event Action Reply) → State → α → Prop} {program : Prog Action Reply α}
    (keeps : program.Keeps semantics always returns history before)
    (always_le : ∀ history state, always history state → weaker history state)
    (returns_le : ∀ history state result, always history state → returns history state result →
      ends history state result) :
    program.Keeps semantics weaker ends history before := by
  induction program generalizing history before with
  | done result => exact ⟨always_le _ _ keeps.1, returns_le _ _ _ keeps.1 keeps.2⟩
  | act action next ih =>
      exact ⟨always_le _ _ keeps.1, fun reply after performed =>
        ih reply (keeps.2 reply after performed)⟩

theorem Keeps.and {always' : List (Event Action Reply) → State → Prop}
    {returns' : List (Event Action Reply) → State → α → Prop} {program : Prog Action Reply α}
    (left : program.Keeps semantics always returns history before)
    (right : program.Keeps semantics always' returns' history before) :
    program.Keeps semantics (fun history state => always history state ∧ always' history state)
      (fun history state result => returns history state result ∧ returns' history state result)
      history before := by
  induction program generalizing history before with
  | done result => exact ⟨⟨left.1, right.1⟩, left.2, right.2⟩
  | act action next ih =>
      exact ⟨⟨left.1, right.1⟩, fun reply after performed =>
        ih reply (left.2 reply after performed) (right.2 reply after performed)⟩

/-- What every action of a kind keeps, a program of such actions keeps throughout. -/
theorem keeps_of_only {kind : Action → Prop} {program : Prog Action Reply α}
    (only : program.Only kind)
    (kept : ∀ history state action reply after, kind action → always history state →
      semantics state action reply after → always (history ++ [⟨action, reply⟩]) after)
    (holds : always history before) :
    program.Keeps semantics always (fun history state _ => always history state)
      history before := by
  induction program generalizing history before with
  | done result => exact ⟨holds, holds⟩
  | act action next ih =>
      exact ⟨holds, fun reply after performed =>
        ih reply (only.2 reply) (kept _ _ _ _ _ only.1 holds performed)⟩

theorem Keeps.here {program : Prog Action Reply α}
    (keeps : program.Keeps semantics always returns history before) : always history before := by
  cases program with
  | done result => exact keeps.1
  | act action next => exact keeps.1

theorem Keeps.begins {program : Prog Action Reply α}
    (keeps : program.Keeps semantics always returns history before)
    (run : Begins semantics program before events after) : always (history ++ events) after := by
  induction run generalizing history with
  | here =>
      rw [List.append_nil]
      exact keeps.here
  | act performed rest ih =>
      rw [List.append_cons]
      exact ih (keeps.2 _ _ performed)

theorem Keeps.runs {program : Prog Action Reply α} {result : α}
    (keeps : program.Keeps semantics always returns history before)
    (run : Runs semantics program before events after result) :
    returns (history ++ events) after result := by
  induction run generalizing history with
  | done =>
      rw [List.append_nil]
      exact keeps.2
  | act performed rest ih =>
      rw [List.append_cons]
      exact ih (keeps.2 _ _ performed)

section Lift

variable {Wider Wide : Type} {WiderReply : Wider → Type}
variable {wide : Wide → (action : Wider) → WiderReply action → Wide → Prop}
variable {embed : Action → Wider} {back : ∀ action, WiderReply (embed action) → Reply action}

/-- What a program keeps, it keeps of a part of a wider state, as long as its actions do to
that part what they do by themselves. -/
theorem Keeps.lift (part : Wide → State) (own : Event Wider WiderReply → Option (Event Action Reply))
    (owned : ∀ action reply, own ⟨embed action, reply⟩ = some ⟨action, back action reply⟩)
    (acts : ∀ state action reply after, wide state (embed action) reply after →
      semantics (part state) action (back action reply) (part after))
    {program : Prog Action Reply α} {events : List (Event Wider WiderReply)} {state : Wide}
    (keeps : program.Keeps semantics always returns (events.filterMap own) (part state)) :
    (program.lift embed back).Keeps wide
      (fun events state => always (events.filterMap own) (part state))
      (fun events state result => returns (events.filterMap own) (part state) result)
      events state := by
  induction program generalizing events state with
  | done result => exact keeps
  | act action next ih =>
      refine ⟨keeps.1, fun reply after performed => ih _ ?_⟩
      have later := keeps.2 _ _ (acts _ _ _ _ performed)
      rw [List.filterMap_append, List.filterMap_cons_some (owned action reply), List.filterMap_nil]
      exact later

end Lift

end Prog

end EffectProgram
