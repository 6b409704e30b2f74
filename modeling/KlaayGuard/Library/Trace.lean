/-
Finite runs of a labelled transition relation.

A trace keeps the label of every step, so a law may speak of what happened
before and after one of them.
-/

set_option autoImplicit false

namespace EffectProgram

variable {State Label : Type}

inductive Trace (step : State → Label → State → Prop) : State → List Label → State → Prop where
  | nil (state : State) : Trace step state [] state
  | cons {before middle after : State} {label : Label} {labels : List Label}
      (taken : step before label middle) (rest : Trace step middle labels after) :
      Trace step before (label :: labels) after

variable {step : State → Label → State → Prop}

theorem Trace.append_iff {before after : State} {first second : List Label} :
    Trace step before (first ++ second) after ↔
      ∃ middle, Trace step before first middle ∧ Trace step middle second after := by
  induction first generalizing before with
  | nil =>
      constructor
      · intro trace
        exact ⟨before, .nil before, trace⟩
      · rintro ⟨middle, head, tail⟩
        cases head
        exact tail
  | cons label labels ih =>
      constructor
      · intro trace
        cases trace with
        | cons taken rest =>
            obtain ⟨middle, head, tail⟩ := ih.mp rest
            exact ⟨middle, .cons taken head, tail⟩
      · rintro ⟨middle, head, tail⟩
        cases head with
        | cons taken rest => exact .cons taken (ih.mpr ⟨middle, rest, tail⟩)

theorem Trace.split {before after : State} {first second : List Label} {label : Label}
    (trace : Trace step before (first ++ label :: second) after) :
    ∃ early late, Trace step before first early ∧ step early label late ∧
      Trace step late second after := by
  obtain ⟨early, head, tail⟩ := append_iff.mp trace
  cases tail with
  | cons taken rest => exact ⟨early, _, head, taken, rest⟩

/-- The trace rule: when every allowed step from a state with the invariant
keeps it and is a good one, a trace of allowed steps keeps it and all of its
steps are good. -/
theorem Trace.invariant (Keeps : State → Prop) (Allowed Good : Label → Prop)
    {before after : State} {labels : List Label}
    (preserved : ∀ {state label state'}, Keeps state → Allowed label →
      step state label state' → Keeps state' ∧ Good label)
    (trace : Trace step before labels after) (start : Keeps before)
    (allowed : ∀ label ∈ labels, Allowed label) :
    Keeps after ∧ ∀ label ∈ labels, Good label := by
  induction trace with
  | nil state => exact ⟨start, fun _ member => absurd member List.not_mem_nil⟩
  | @cons before middle after label labels taken rest ih =>
      obtain ⟨keeps, good⟩ := preserved start (allowed label List.mem_cons_self) taken
      obtain ⟨kept, goods⟩ := ih keeps fun other member =>
        allowed other (List.mem_cons_of_mem _ member)
      refine ⟨kept, fun other member => ?_⟩
      rcases List.mem_cons.mp member with rfl | member
      · exact good
      · exact goods other member

end EffectProgram
