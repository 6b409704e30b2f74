/-
What a program's actions tell about the replies it got.

Two programs are alike up to a stop if they perform the same actions for as long as neither
stops and the replies they get are alike.  A program that is alike to itself keeps the
difference between such replies to itself until it stops.
-/

import Mathlib.Data.List.Forall2
import KlaayGuard.Library.EffectProgram

set_option autoImplicit false

namespace EffectProgram.Prog

variable {Action : Type} {Reply : Action → Type} {α β : Type}

inductive Alike (stops : Action → Prop) (alike : (action : Action) → Reply action →
    Reply action → Prop) (ends : α → α → Prop) :
    Prog Action Reply α → Prog Action Reply α → Prop where
  | done {left right : α} (same : ends left right) : Alike stops alike ends (.done left) (.done right)
  | stopped {left right : Action} {leftNext : Reply left → Prog Action Reply α}
      {rightNext : Reply right → Prog Action Reply α}
      (leftStops : stops left) (rightStops : stops right) :
      Alike stops alike ends (.act left leftNext) (.act right rightNext)
  | act {action : Action} {leftNext rightNext : Reply action → Prog Action Reply α}
      (rest : ∀ left right, alike action left right →
        Alike stops alike ends (leftNext left) (rightNext right)) :
      Alike stops alike ends (.act action leftNext) (.act action rightNext)

variable {stops : Action → Prop}
variable {alike : (action : Action) → Reply action → Reply action → Prop}

theorem Alike.bind {ends : α → α → Prop} {after : β → β → Prop}
    {left right : Prog Action Reply α} {leftNext rightNext : α → Prog Action Reply β}
    (first : Alike stops alike ends left right)
    (second : ∀ leftValue rightValue, ends leftValue rightValue →
      Alike stops alike after (leftNext leftValue) (rightNext rightValue)) :
    Alike stops alike after (left >>= leftNext) (right >>= rightNext) := by
  induction first with
  | done same => exact second _ _ same
  | stopped leftStops rightStops => exact .stopped leftStops rightStops
  | act rest ih => exact .act fun left right isAlike => ih left right isAlike

theorem Alike.of_only {kind : Action → Prop} {program : Prog Action Reply α}
    (only : program.Only kind)
    (same : ∀ action left right, kind action → alike action left right → left = right) :
    Alike stops alike Eq program program := by
  induction program with
  | done result => exact .done rfl
  | act action next ih =>
      refine .act fun left right isAlike => ?_
      obtain rfl := same action left right only.1 isAlike
      exact ih left (only.2 left)

inductive AlikeEvent (alike : (action : Action) → Reply action → Reply action → Prop) :
    Event Action Reply → Event Action Reply → Prop where
  | intro {action : Action} {left right : Reply action} (isAlike : alike action left right) :
      AlikeEvent alike ⟨action, left⟩ ⟨action, right⟩

def AnyReply : Unit → (action : Action) → Reply action → Unit → Prop := fun _ _ _ _ => True

theorem begins_anyReply {action : Action} {next : Reply action → Prog Action Reply α}
    {reply : Reply action} {events : List (Event Action Reply)}
    (rest : Begins AnyReply (next reply) () events ()) :
    Begins AnyReply (.act action next) () (⟨action, reply⟩ :: events) () :=
  .act trivial rest

/-- What one program does before it stops, the other does on replies that are alike. -/
theorem Alike.begins {ends : α → α → Prop} {left right : Prog Action Reply α}
    {events others : List (Event Action Reply)} (isAlike : Alike stops alike ends left right)
    (run : Begins AnyReply left () events ()) (replies : List.Forall₂ (AlikeEvent alike) events others)
    (goesOn : ∀ event ∈ events, ¬ stops event.action) : Begins AnyReply right () others () := by
  induction isAlike generalizing events others with
  | done same =>
      obtain ⟨rfl, -⟩ := begins_done.mp run
      cases replies
      exact .here _ _
  | stopped leftStops rightStops =>
      cases run with
      | here => cases replies; exact .here _ _
      | act performed rest => exact absurd leftStops (goesOn _ List.mem_cons_self)
  | act rest ih =>
      cases run with
      | here => cases replies; exact .here _ _
      | act performed later =>
          cases replies with
          | cons first replies =>
              cases first with
              | intro isAlike =>
                  exact begins_anyReply (ih _ _ isAlike later replies fun event member =>
                    goesOn event (List.mem_cons_of_mem _ member))

end EffectProgram.Prog
