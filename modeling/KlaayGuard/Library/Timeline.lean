/-
Runs against a clock, while the world goes its own way.

Every action takes one tick.  What may answer it depends on the tick alone, so a
world that changes by itself is a function of the clock.  A run may be read against
the record of a longer one that it is part of: then every answer it met is on record
under the tick it came at.
-/

import KlaayGuard.Library.EffectProgram

set_option autoImplicit false

namespace EffectProgram

variable {Action : Type} {Reply : Action → Type} {α : Type}

def Timed (possible : Nat → (action : Action) → Reply action → Prop) (clock : Nat)
    (action : Action) (reply : Reply action) (after : Nat) : Prop :=
  possible clock action reply ∧ after = clock + 1

/-- The event at a tick, in a record that begins at another. -/
def At (start : Nat) (events : List (Event Action Reply)) (time : Nat)
    (event : Event Action Reply) : Prop :=
  start ≤ time ∧ events[time - start]? = some event

variable {start : Nat} {events : List (Event Action Reply)} {event : Event Action Reply}

theorem At.mem {time : Nat} (happened : At start events time event) : event ∈ events :=
  List.mem_of_getElem? happened.2

theorem At.early {time : Nat} (happened : At start events time event) :
    time < start + events.length := by
  obtain ⟨late, found⟩ := happened
  obtain ⟨inside, -⟩ := List.getElem?_eq_some_iff.mp found
  omega

theorem At.append {time : Nat} {later : List (Event Action Reply)}
    (happened : At start (events ++ later) time event) :
    At start events time event ∨ At (start + events.length) later time event := by
  obtain ⟨late, found⟩ := happened
  rw [List.getElem?_append] at found
  split at found
  · exact Or.inl ⟨late, found⟩
  · refine Or.inr ⟨by omega, ?_⟩
    rw [← found]
    congr 1
    omega

namespace Prog

variable {possible : Nat → (action : Action) → Reply action → Prop}
variable {program : Prog Action Reply α} {clock clock' : Nat} {result : α}

theorem Runs.clock_eq (run : Runs (Timed possible) program clock events clock' result) :
    clock' = clock + events.length := by
  induction run with
  | done => rfl
  | act performed rest ih =>
      have tick := performed.2
      rw [List.length_cons]
      omega

theorem Runs.clock_le (run : Runs (Timed possible) program clock events clock' result) :
    clock ≤ clock' := by
  rw [run.clock_eq]
  exact Nat.le_add_right _ _

theorem runs_perform {action : Action} {next : Reply action → Prog Action Reply α} :
    Runs (Timed possible) (perform action >>= next) clock events clock' result ↔
      ∃ reply rest, possible clock action reply ∧ events = ⟨action, reply⟩ :: rest ∧
        Runs (Timed possible) (next reply) (clock + 1) rest clock' result := by
  constructor
  · intro run
    obtain ⟨reply, _, rest, ⟨answer, rfl⟩, same, run⟩ := runs_act.mp run
    exact ⟨reply, rest, answer, same, run⟩
  · rintro ⟨reply, rest, answer, rfl, run⟩
    exact .act ⟨answer, rfl⟩ run

theorem Runs.possible_at {time : Nat} {action : Action} {reply : Reply action}
    (run : Runs (Timed possible) program clock events clock' result)
    (happened : At clock events time ⟨action, reply⟩) : possible time action reply := by
  induction run with
  | done => cases happened.mem
  | @act first next before middle after answer rest result performed _ ih =>
      obtain ⟨answered, rfl⟩ := performed
      obtain ⟨late, found⟩ := happened
      rcases Nat.eq_or_lt_of_le late with rfl | late
      · rw [Nat.sub_self, List.getElem?_cons_zero] at found
        cases found
        exact answered
      · have shifted : time - before = time - (before + 1) + 1 := by omega
        rw [shifted, List.getElem?_cons_succ] at found
        exact ih ⟨late, found⟩

theorem Runs.recorded {part : List (Event Action Reply)}
    (run : Runs (Timed possible) program clock part clock' result)
    (inside : ∀ time event, At clock part time event → At start events time event) :
    Runs (Timed fun time action reply =>
      possible time action reply ∧ At start events time ⟨action, reply⟩)
      program clock part clock' result := by
  induction run with
  | done result clock => exact .done _ _
  | @act action next before middle after reply rest result performed _ ih =>
      obtain ⟨answer, rfl⟩ := performed
      have here : At before (⟨action, reply⟩ :: rest) before ⟨action, reply⟩ :=
        ⟨Nat.le_refl _, by rw [Nat.sub_self]; rfl⟩
      refine .act ⟨⟨answer, inside _ _ here⟩, rfl⟩ (ih fun time event happened => inside _ _ ?_)
      obtain ⟨late, found⟩ := happened
      refine ⟨by omega, ?_⟩
      have shifted : time - before = time - (before + 1) + 1 := by omega
      rw [shifted, List.getElem?_cons_succ]
      exact found

/-- The run and its result where each tick has one answer to each action. -/
def execute (answer : Nat → (action : Action) → Reply action) :
    Prog Action Reply α → Nat → List (Event Action Reply) × Nat × α
  | .done result, clock => ([], clock, result)
  | .act action next, clock =>
      let rest := (next (answer clock action)).execute answer (clock + 1)
      (⟨action, answer clock action⟩ :: rest.1, rest.2)

theorem execute_runs {answer : Nat → (action : Action) → Reply action}
    (sound : ∀ time action, possible time action (answer time action))
    (program : Prog Action Reply α) (clock : Nat) :
    Runs (Timed possible) program clock (program.execute answer clock).1
      (program.execute answer clock).2.1 (program.execute answer clock).2.2 := by
  induction program generalizing clock with
  | done result => exact .done _ _
  | act action next ih => exact .act ⟨sound clock action, rfl⟩ (ih _ _)

end Prog

end EffectProgram
