/-
Programs as trees of atomic actions, and what one program does on its own.

A program performs an action, receives the reply the outside world gives it,
and goes on with the program chosen by that reply.  A semantics says which
replies an action may receive in a shared state and which state it leaves.
`Prog.Runs` is the sequential meaning; the interleaved meaning of several
programs over one shared state is built on the same trees elsewhere.
-/

import Mathlib.Logic.Relation

set_option autoImplicit false

namespace EffectProgram

inductive Prog (Action : Type) (Reply : Action → Type) (α : Type) : Type where
  | done (result : α)
  | act (action : Action) (next : Reply action → Prog Action Reply α)

structure Event (Action : Type) (Reply : Action → Type) : Type where
  action : Action
  reply : Reply action

variable {Action : Type} {Reply : Action → Type} {α β State : Type}

namespace Prog

def bind (program : Prog Action Reply α) (continuation : α → Prog Action Reply β) :
    Prog Action Reply β :=
  match program with
  | .done result => continuation result
  | .act action next => .act action (fun reply => (next reply).bind continuation)

def perform (action : Action) : Prog Action Reply (Reply action) :=
  .act action .done

instance : Monad (Prog Action Reply) where
  pure := .done
  bind := bind

@[simp] theorem pure_eq (result : α) :
    (pure result : Prog Action Reply α) = .done result := rfl

@[simp] theorem done_bind (result : α) (continuation : α → Prog Action Reply β) :
    (Prog.done result >>= continuation) = continuation result := rfl

@[simp] theorem act_bind (action : Action) (next : Reply action → Prog Action Reply α)
    (continuation : α → Prog Action Reply β) :
    (Prog.act action next >>= continuation) =
      .act action (fun reply => next reply >>= continuation) := rfl

@[simp] theorem perform_bind (action : Action)
    (continuation : Reply action → Prog Action Reply β) :
    (perform action >>= continuation) = .act action continuation := rfl

theorem bind_assoc {γ : Type} (program : Prog Action Reply α)
    (first : α → Prog Action Reply β) (second : β → Prog Action Reply γ) :
    (program >>= first) >>= second = program >>= fun result => first result >>= second := by
  induction program with
  | done result => rfl
  | act action next ih =>
      simp only [act_bind]
      congr 1
      funext reply
      exact ih reply

/-- `program` started in the first state performs the listed events, in order,
and finishes in the second state with the given result. -/
inductive Runs (semantics : State → (action : Action) → Reply action → State → Prop) :
    Prog Action Reply α → State → List (Event Action Reply) → State → α → Prop where
  | done (result : α) (state : State) : Runs semantics (.done result) state [] state result
  | act {action : Action} {next : Reply action → Prog Action Reply α}
      {before middle after : State} {reply : Reply action}
      {events : List (Event Action Reply)} {result : α}
      (performed : semantics before action reply middle)
      (rest : Runs semantics (next reply) middle events after result) :
      Runs semantics (.act action next) before (⟨action, reply⟩ :: events) after result

variable {semantics : State → (action : Action) → Reply action → State → Prop}

@[simp] theorem runs_done {result result' : α} {before after : State}
    {events : List (Event Action Reply)} :
    Runs semantics (.done result) before events after result' ↔
      events = [] ∧ after = before ∧ result' = result := by
  constructor
  · intro run
    cases run
    exact ⟨rfl, rfl, rfl⟩
  · rintro ⟨rfl, rfl, rfl⟩
    exact .done _ _

@[simp] theorem runs_act {action : Action} {next : Reply action → Prog Action Reply α}
    {before after : State} {events : List (Event Action Reply)} {result : α} :
    Runs semantics (.act action next) before events after result ↔
      ∃ reply middle rest, semantics before action reply middle ∧
        events = ⟨action, reply⟩ :: rest ∧
        Runs semantics (next reply) middle rest after result := by
  constructor
  · intro run
    cases run with
    | act performed rest => exact ⟨_, _, _, performed, rfl, rest⟩
  · rintro ⟨reply, middle, rest, performed, rfl, run⟩
    exact .act performed run

theorem runs_perform_bind {action : Action} {next : Reply action → Prog Action Reply α}
    {before after : State} {events : List (Event Action Reply)} {result : α} :
    Runs semantics (perform action >>= next) before events after result ↔
      ∃ reply middle rest, semantics before action reply middle ∧
        events = ⟨action, reply⟩ :: rest ∧ Runs semantics (next reply) middle rest after result :=
  runs_act

/-- A run of a sequence is a run of its first program followed by a run of the
program its result selects. -/
theorem runs_bind {program : Prog Action Reply α} {continuation : α → Prog Action Reply β}
    {before after : State} {events : List (Event Action Reply)} {result : β} :
    Runs semantics (program >>= continuation) before events after result ↔
      ∃ middle value first second,
        Runs semantics program before first middle value ∧
        Runs semantics (continuation value) middle second after result ∧
        events = first ++ second := by
  induction program generalizing before events with
  | done value =>
      simp only [done_bind, runs_done]
      constructor
      · intro run
        exact ⟨before, value, [], events, ⟨rfl, rfl, rfl⟩, run, rfl⟩
      · rintro ⟨middle, value', first, second, ⟨rfl, rfl, rfl⟩, run, rfl⟩
        exact run
  | act action next ih =>
      simp only [act_bind, runs_act]
      constructor
      · rintro ⟨reply, middle, rest, performed, rfl, run⟩
        obtain ⟨late, value, first, second, head, tail, rfl⟩ := (ih reply).mp run
        exact ⟨late, value, ⟨action, reply⟩ :: first, second,
          ⟨reply, middle, first, performed, rfl, head⟩, tail, rfl⟩
      · rintro ⟨late, value, first, second, ⟨reply, middle, rest, performed, rfl, head⟩,
          tail, rfl⟩
        exact ⟨reply, middle, rest ++ second, performed, rfl,
          (ih reply).mpr ⟨late, value, rest, second, head, tail, rfl⟩⟩

theorem Runs.result_unique {program : Prog Action Reply α} {before before' after after' : State}
    {events : List (Event Action Reply)} {result result' : α}
    (run : Runs semantics program before events after result)
    (run' : Runs semantics program before' events after' result') : result = result' := by
  induction run generalizing before' with
  | done result state => exact (runs_done.mp run').2.2.symm
  | act performed rest ih =>
      cases run' with
      | act performed' rest' => exact ih rest'

/-! ### Runs that are cut off -/

/-- `program` started in the first state has performed the listed events, in
order, and the second state is the one it has reached. -/
inductive Begins (semantics : State → (action : Action) → Reply action → State → Prop) :
    Prog Action Reply α → State → List (Event Action Reply) → State → Prop where
  | here (program : Prog Action Reply α) (state : State) :
      Begins semantics program state [] state
  | act {action : Action} {next : Reply action → Prog Action Reply α}
      {before middle after : State} {reply : Reply action}
      {events : List (Event Action Reply)}
      (performed : semantics before action reply middle)
      (rest : Begins semantics (next reply) middle events after) :
      Begins semantics (.act action next) before (⟨action, reply⟩ :: events) after

theorem Runs.begins {program : Prog Action Reply α} {before after : State}
    {events : List (Event Action Reply)} {result : α}
    (run : Runs semantics program before events after result) :
    Begins semantics program before events after := by
  induction run with
  | done result state => exact .here _ _
  | act performed rest ih => exact .act performed ih

theorem Begins.mono {wider : State → (action : Action) → Reply action → State → Prop}
    (wide : ∀ before action reply after, semantics before action reply after →
      wider before action reply after)
    {program : Prog Action Reply α} {before after : State} {events : List (Event Action Reply)}
    (run : Begins semantics program before events after) :
    Begins wider program before events after := by
  induction run with
  | here program state => exact .here _ _
  | act performed rest ih => exact .act (wide _ _ _ _ performed) ih

theorem begins_done {result : α} {before after : State} {events : List (Event Action Reply)} :
    Begins semantics (.done result) before events after ↔ events = [] ∧ after = before := by
  constructor
  · intro run
    cases run
    exact ⟨rfl, rfl⟩
  · rintro ⟨rfl, rfl⟩
    exact .here _ _

theorem begins_act {action : Action} {next : Reply action → Prog Action Reply α}
    {before after : State} {events : List (Event Action Reply)} :
    Begins semantics (.act action next) before events after ↔
      (events = [] ∧ after = before) ∨
        ∃ reply middle rest, semantics before action reply middle ∧
          events = ⟨action, reply⟩ :: rest ∧
          Begins semantics (next reply) middle rest after := by
  constructor
  · intro run
    cases run with
    | here => exact Or.inl ⟨rfl, rfl⟩
    | act performed rest => exact Or.inr ⟨_, _, _, performed, rfl, rest⟩
  · rintro (⟨rfl, rfl⟩ | ⟨reply, middle, rest, performed, rfl, run⟩)
    · exact .here _ _
    · exact .act performed run

/-- A cut-off sequence is cut off in its first program or in the one that
follows. -/
theorem begins_bind {program : Prog Action Reply α} {continuation : α → Prog Action Reply β}
    {before after : State} {events : List (Event Action Reply)} :
    Begins semantics (program >>= continuation) before events after →
      Begins semantics program before events after ∨
        ∃ middle value first second,
          Runs semantics program before first middle value ∧
          Begins semantics (continuation value) middle second after ∧
          events = first ++ second := by
  induction program generalizing before events with
  | done value =>
      intro run
      exact Or.inr ⟨before, value, [], events, .done _ _, run, rfl⟩
  | act action next ih =>
      rw [act_bind, begins_act]
      rintro (⟨rfl, rfl⟩ | ⟨reply, middle, rest, performed, rfl, run⟩)
      · exact Or.inl (.here _ _)
      · rcases ih reply run with inside | ⟨late, value, first, second, head, tail, rfl⟩
        · exact Or.inl (.act performed inside)
        · exact Or.inr ⟨late, value, ⟨action, reply⟩ :: first, second,
            .act performed head, tail, rfl⟩

theorem Runs.begins_bind {program : Prog Action Reply α} {continuation : α → Prog Action Reply β}
    {before middle after : State} {first second : List (Event Action Reply)} {value : α}
    (run : Runs semantics program before first middle value)
    (rest : Begins semantics (continuation value) middle second after) :
    Begins semantics (program >>= continuation) before (first ++ second) after := by
  induction run with
  | done value state => exact rest
  | act performed _ ih => exact .act performed (ih rest)

/-- Where every action gets some reply, a program that was cut off can go on to
its end. -/
theorem Begins.completes
    (replies : ∀ state action, ∃ reply after, semantics state action reply after)
    {program : Prog Action Reply α} {before middle : State} {events : List (Event Action Reply)}
    (run : Begins semantics program before events middle) :
    ∃ more after result, Runs semantics program before (events ++ more) after result := by
  induction run with
  | here program state =>
      induction program generalizing state with
      | done result => exact ⟨[], state, result, .done result state⟩
      | act action next ih =>
          obtain ⟨reply, middle, performed⟩ := replies state action
          obtain ⟨more, after, result, rest⟩ := ih reply middle
          exact ⟨⟨action, reply⟩ :: more, after, result, .act performed rest⟩
  | act performed _ ih =>
      obtain ⟨more, after, result, rest⟩ := ih
      exact ⟨more, after, result, .act performed rest⟩

/-- The program performs only actions of this kind, whatever replies it gets. -/
def Only (kind : Action → Prop) : Prog Action Reply α → Prop
  | .done _ => True
  | .act action next => kind action ∧ ∀ reply, (next reply).Only kind

variable {kind : Action → Prop}

@[simp] theorem only_done {result : α} :
    (Prog.done result : Prog Action Reply α).Only kind := trivial

@[simp] theorem only_act {action : Action} {next : Reply action → Prog Action Reply α} :
    (Prog.act action next).Only kind ↔ kind action ∧ ∀ reply, (next reply).Only kind := Iff.rfl

theorem Only.bind {program : Prog Action Reply α} {continuation : α → Prog Action Reply β}
    (first : program.Only kind) (second : ∀ value, (continuation value).Only kind) :
    (program >>= continuation).Only kind := by
  induction program with
  | done value => exact second value
  | act action next ih => exact ⟨first.1, fun reply => ih reply (first.2 reply)⟩

theorem Only.mono {weaker : Action → Prop} {program : Prog Action Reply α}
    (only : program.Only kind) (weaken : ∀ action, kind action → weaker action) :
    program.Only weaker := by
  induction program with
  | done result => trivial
  | act action next ih => exact ⟨weaken action only.1, fun reply => ih reply (only.2 reply)⟩

theorem only_of_forall (every : ∀ action, kind action) (program : Prog Action Reply α) :
    program.Only kind := by
  induction program with
  | done result => trivial
  | act action next ih => exact ⟨every action, ih⟩

theorem Begins.only {program : Prog Action Reply α} {before after : State}
    {events : List (Event Action Reply)}
    (run : Begins semantics program before events after) (only : program.Only kind) :
    ∀ event ∈ events, kind event.action := by
  induction run with
  | here => exact fun _ member => absurd member List.not_mem_nil
  | act performed rest ih =>
      intro event member
      rcases List.mem_cons.mp member with rfl | member
      · exact only.1
      · exact ih (only.2 _) event member

/-- What every action of a kind keeps, a program of such actions keeps. -/
theorem Begins.invariant (Keeps : State → Prop) {program : Prog Action Reply α}
    {before after : State} {events : List (Event Action Reply)}
    (run : Begins semantics program before events after) (only : program.Only kind)
    (preserved : ∀ {state action reply state'}, kind action → Keeps state →
      semantics state action reply state' → Keeps state')
    (start : Keeps before) : Keeps after := by
  induction run with
  | here => exact start
  | act performed rest ih => exact ih (only.2 _) (preserved only.1 start performed)

theorem Begins.invariant_of_events (Keeps : State → Prop) {program : Prog Action Reply α}
    {before after : State} {events : List (Event Action Reply)}
    (run : Begins semantics program before events after)
    (preserved : ∀ {state event state'}, event ∈ events → Keeps state →
      semantics state event.action event.reply state' → Keeps state')
    (start : Keeps before) : Keeps after := by
  induction run with
  | here => exact start
  | act performed rest ih =>
      refine ih (fun member => preserved (List.mem_cons_of_mem _ member)) ?_
      exact preserved List.mem_cons_self start performed

theorem Runs.only {program : Prog Action Reply α} {before after : State}
    {events : List (Event Action Reply)} {result : α}
    (run : Runs semantics program before events after result) (only : program.Only kind) :
    ∀ event ∈ events, kind event.action := run.begins.only only

section Lift

variable {Wider : Type} {WiderReply : Wider → Type}

/-- The program with every action taken into a wider set, and every reply taken
back. -/
def lift (embed : Action → Wider) (back : ∀ action, WiderReply (embed action) → Reply action) :
    Prog Action Reply α → Prog Wider WiderReply α
  | .done result => .done result
  | .act action next => .act (embed action) fun reply => (next (back action reply)).lift embed back

variable {embed : Action → Wider} {back : ∀ action, WiderReply (embed action) → Reply action}

theorem Only.lift {wider : Wider → Prop} {program : Prog Action Reply α} (only : program.Only kind)
    (taken : ∀ action, kind action → wider (embed action)) :
    (program.lift embed back).Only wider := by
  induction program with
  | done result => trivial
  | act action next ih => exact ⟨taken action only.1, fun reply => ih _ (only.2 _)⟩

end Lift

end Prog

end EffectProgram
