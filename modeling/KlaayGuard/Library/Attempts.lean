/-
Attempts at one thing, one after the other, each by a process with a key of its own.

An attempt starts from the state that the one before it left, and returns or is cut off.
What it makes it makes under names that its key decides, so it can clear what an earlier
attempt left there only where the two have one key.
-/

import Mathlib.Data.List.Basic

set_option autoImplicit false

namespace Attempts

structure Attempt (Key Step State : Type) : Type where
  key : Key
  before : State
  steps : List Step
  after : State
  returned : Bool

variable {Key Step State Name : Type}

def Chain (Possible : Attempt Key Step State → Prop) (start : State) :
    List (Attempt Key Step State) → State → Prop
  | [], final => final = start
  | attempt :: rest, final =>
      attempt.before = start ∧ Possible attempt ∧ Chain Possible attempt.after rest final

variable {Possible : Attempt Key Step State → Prop} {start final : State}

theorem chain_append {front back : List (Attempt Key Step State)} :
    Chain Possible start (front ++ back) final ↔
      ∃ middle, Chain Possible start front middle ∧ Chain Possible middle back final := by
  induction front generalizing start with
  | nil =>
      constructor
      · intro chain
        exact ⟨start, rfl, chain⟩
      · rintro ⟨middle, rfl, chain⟩
        exact chain
  | cons attempt rest ih =>
      simp only [List.cons_append, Chain, ih]
      constructor
      · rintro ⟨follows, possible, middle, front, back⟩
        exact ⟨middle, ⟨follows, possible, front⟩, back⟩
      · rintro ⟨middle, ⟨follows, possible, front⟩, back⟩
        exact ⟨follows, possible, middle, front, back⟩

theorem Chain.possible {attempts : List (Attempt Key Step State)}
    (chain : Chain Possible start attempts final) : ∀ attempt ∈ attempts, Possible attempt := by
  intro attempt member
  obtain ⟨front, back, rfl⟩ := List.append_of_mem member
  obtain ⟨_, _, _, possible, _⟩ := chain_append.mp chain
  exact possible

/-- How names go with keys, when a name is there, and which steps clear it. -/
structure Naming (Key Step State Name : Type) : Type where
  Names : Key → Name → Prop
  There : State → Name → Prop
  Clears : Step → Name → Prop

variable (naming : Naming Key Step State Name)

/-- What was there at the start is there at the end, and no step has cleared it. -/
def Naming.Leaves (attempt : Attempt Key Step State) (name : Name) : Prop :=
  naming.There attempt.before name ∧ naming.There attempt.after name ∧
    ∀ step ∈ attempt.steps, ¬ naming.Clears step name

/-- Something stands under the attempt's own names when it starts. -/
def Naming.FindsOwn (attempt : Attempt Key Step State) : Prop :=
  ∃ name, naming.Names attempt.key name ∧ naming.There attempt.before name

/-- An attempt that returns leaves nothing under the names of an earlier one. -/
def Naming.Tidy (attempts : List (Attempt Key Step State)) : Prop :=
  ∀ earlier attempt later, attempts = earlier ++ attempt :: later → attempt.returned = true →
    ∀ old ∈ earlier, ∀ name, naming.Names old.key name → ¬ naming.Leaves attempt name

/-- Where an attempt has left something and none of its key has come since, an attempt
that returns has its key. -/
def Naming.Inherited (attempts : List (Attempt Key Step State)) : Prop :=
  ∀ first old between attempt later,
    attempts = first ++ old :: (between ++ attempt :: later) → attempt.returned = true →
    (∀ other ∈ between, other.key ≠ old.key) →
    (∃ name, naming.Names old.key name ∧ naming.There old.after name) → old.key = attempt.key

variable {naming}

/-- Attempts of other keys leave a name alone. -/
def Naming.Foreign (naming : Naming Key Step State Name)
    (Possible : Attempt Key Step State → Prop) : Prop :=
  ∀ attempt key name, Possible attempt → naming.Names key name → key ≠ attempt.key →
    (naming.There attempt.after name ↔ naming.There attempt.before name) ∧
      ∀ step ∈ attempt.steps, ¬ naming.Clears step name

variable {attempts : List (Attempt Key Step State)}

theorem Chain.there_iff (foreign : naming.Foreign Possible) {key : Key} {name : Name}
    (named : naming.Names key name) (chain : Chain Possible start attempts final)
    (others : ∀ attempt ∈ attempts, attempt.key ≠ key) :
    naming.There final name ↔ naming.There start name := by
  induction attempts generalizing start with
  | nil =>
      obtain rfl : final = start := chain
      rfl
  | cons attempt rest ih =>
      obtain ⟨rfl, possible, chain⟩ := chain
      have differ := others attempt List.mem_cons_self
      have rests := ih chain fun other member => others other (List.mem_cons_of_mem _ member)
      exact rests.trans (foreign attempt key name possible named differ.symm).1

theorem Chain.between {first between later : List (Attempt Key Step State)}
    {old attempt : Attempt Key Step State}
    (chain : Chain Possible start (first ++ old :: (between ++ attempt :: later)) final) :
    Chain Possible old.after between attempt.before ∧ Possible attempt := by
  obtain ⟨_, _, _, _, chain⟩ := chain_append.mp chain
  obtain ⟨middle, inside, rfl, possible, _⟩ := chain_append.mp chain
  exact ⟨inside, possible⟩

theorem last_of_key {key : Key} {earlier : List (Attempt Key Step State)}
    (some : ∃ old ∈ earlier, old.key = key) :
    ∃ first old between, earlier = first ++ old :: between ∧ old.key = key ∧
      ∀ other ∈ between, other.key ≠ key := by
  induction earlier with
  | nil =>
      obtain ⟨_, member, _⟩ := some
      cases member
  | cons head rest ih =>
      by_cases later : ∃ old ∈ rest, old.key = key
      · obtain ⟨first, old, between, rfl, same, others⟩ := ih later
        exact ⟨head :: first, old, between, rfl, same, others⟩
      · obtain ⟨old, member, same⟩ := some
        rcases List.mem_cons.mp member with rfl | inRest
        · exact ⟨[], old, rest, rfl, same, fun other inside equal => later ⟨other, inside, equal⟩⟩
        · exact absurd ⟨old, inRest, same⟩ later

/-- What is left by a key that does not come back stays. -/
theorem Naming.Tidy.inherited (foreign : naming.Foreign Possible)
    (chain : Chain Possible start attempts final) (tidy : naming.Tidy attempts) :
    naming.Inherited attempts := by
  rintro first old between attempt later rfl returned others ⟨name, named, left⟩
  by_contra differ
  obtain ⟨inside, possible⟩ := chain.between
  have there := (inside.there_iff foreign named others).mpr left
  obtain ⟨stays, uncleared⟩ := foreign attempt old.key name possible named differ
  have split : first ++ old :: (between ++ attempt :: later) =
      (first ++ old :: between) ++ attempt :: later := by simp
  exact tidy _ attempt later split returned old (by simp) name named
    ⟨there, stays.mpr there, uncleared⟩

/-- Where the key comes back and clears its own names, nothing stays. -/
theorem Naming.Inherited.tidy (foreign : naming.Foreign Possible)
    (clears : ∀ attempt ∈ attempts, attempt.returned = true → ∀ name,
      naming.Names attempt.key name → ¬ naming.Leaves attempt name)
    (chain : Chain Possible start attempts final) (inherited : naming.Inherited attempts) :
    naming.Tidy attempts := by
  rintro earlier attempt later rfl returned older member name named leaves
  obtain ⟨first, old, between, rfl, sameKey, others⟩ := last_of_key ⟨older, member, rfl⟩
  rw [← sameKey] at named others
  have split : first ++ old :: between ++ attempt :: later =
      first ++ old :: (between ++ attempt :: later) := by simp
  have inside := (split ▸ chain).between.1
  have left := (inside.there_iff foreign named others).mp leaves.1
  have same := inherited first old between attempt later split returned others ⟨name, named, left⟩
  exact clears attempt (by simp) returned name (same ▸ named) leaves

end Attempts
