/-
Queries of URLs: parameters with an `&` between them, and lookup by key.

A parameter is a pair `key=value` or a bare text.  The value of a key is the one that
stands first behind it.  A well-formed list of parameters comes back from its text.
-/

import KlaayGuard.Library.RustText
import KlaayGuard.Library.SpacedText

set_option autoImplicit false

namespace QueryText

open RustText

def keyed (key value : List Char) : List Char := key ++ '=' :: value

/-- The value that stands first behind the key. -/
inductive FirstValue (key : List Char) : List (List Char) → List Char → Prop where
  | here {part value : List Char} (parts : List (List Char)) (isKeyed : part = keyed key value) :
      FirstValue key (part :: parts) value
  | later {part value : List Char} {parts : List (List Char)}
      (other : ∀ value, part ≠ keyed key value) :
      FirstValue key parts value → FirstValue key (part :: parts) value

section FirstValue

variable {key value : List Char} {parts : List (List Char)}

theorem FirstValue.mem (first : FirstValue key parts value) : keyed key value ∈ parts := by
  induction first with
  | here _ isKeyed => exact isKeyed ▸ List.mem_cons_self
  | later _ _ ih => exact List.mem_cons_of_mem _ ih

theorem FirstValue.append {before : List (List Char)}
    (others : ∀ part ∈ before, ∀ value, part ≠ keyed key value)
    (first : FirstValue key parts value) : FirstValue key (before ++ parts) value := by
  induction before with
  | nil => exact first
  | cons part before ih =>
      refine .later (others part List.mem_cons_self) (ih ?_)
      exact fun other member => others other (List.mem_cons_of_mem _ member)

theorem firstValue_keyed_iff {found : List Char} :
    FirstValue key (keyed key value :: parts) found ↔ value = found := by
  constructor
  · intro first
    cases first with
    | here _ isKeyed => exact (List.cons.inj (List.append_cancel_left isKeyed)).2
    | later other _ => exact absurd rfl (other value)
  · rintro rfl
    exact .here parts rfl

theorem firstValue_other_iff {part : List Char} (other : ∀ value, part ≠ keyed key value) :
    FirstValue key (part :: parts) value ↔ FirstValue key parts value := by
  constructor
  · intro first
    cases first with
    | here _ isKeyed => exact absurd isKeyed (other value)
    | later _ first => exact first
  · exact .later other

theorem splitOnce_keyed_iff (plain : '=' ∉ key) {part : List Char} :
    splitOnce '=' part = some (key, value) ↔ part = keyed key value := by
  rw [splitOnce_eq_some_iff]
  exact and_iff_left plain

theorem find?_pairs_eq_some_iff (plain : '=' ∉ key) :
    ((parts.filterMap (splitOnce '=')).find? fun pair => pair.1 == key).map Prod.snd =
      some value ↔ FirstValue key parts value := by
  induction parts with
  | nil =>
      constructor
      · intro found
        cases found
      · intro first
        cases first
  | cons part parts ih =>
      cases cut : splitOnce '=' part with
      | none =>
          have other : ∀ value, part ≠ keyed key value := by
            intro value isKeyed
            rw [(splitOnce_keyed_iff plain).mpr isKeyed] at cut
            cases cut
          rw [List.filterMap_cons_none cut, firstValue_other_iff other, ih]
      | some pair =>
          obtain ⟨front, back⟩ := pair
          rw [List.filterMap_cons_some cut]
          by_cases same : front = key
          · subst same
            rw [(splitOnce_keyed_iff plain).mp cut, firstValue_keyed_iff,
              List.find?_cons_of_pos (by simp), Option.map_some, Option.some.injEq]
          · have other : ∀ value, part ≠ keyed key value := by
              intro value isKeyed
              rw [(splitOnce_keyed_iff plain).mpr isKeyed, Option.some.injEq,
                Prod.mk.injEq] at cut
              exact same cut.1.symm
            rw [List.find?_cons_of_neg (by simpa using same), firstValue_other_iff other, ih]

end FirstValue

/-- A parameter of a query: `key=value`, or a bare text, which has no key. -/
inductive Parameter : Type where
  | bare (text : List Char)
  | pair (key value : List Char)
  deriving DecidableEq, Repr

namespace Parameter

def key : Parameter → Option (List Char)
  | bare _ => none
  | pair key _ => some key

def text : Parameter → List Char
  | bare text => text
  | pair key value => keyed key value

def name : Parameter → List Char
  | bare text => text
  | pair key _ => key

/-- Nothing in the parameter ends it early. -/
structure WellFormed (parameter : Parameter) : Prop where
  nameEnds : '=' ∉ parameter.name
  inQuery : '&' ∉ parameter.text
  inTarget : ∀ c ∈ parameter.text, isWhitespace c = false

theorem wellFormed_iff {parameter : Parameter} :
    parameter.WellFormed ↔ '=' ∉ parameter.name ∧ '&' ∉ parameter.text ∧
      parameter.text.all (!isWhitespace ·) = true := by
  constructor
  · intro wellFormed
    exact ⟨wellFormed.nameEnds, wellFormed.inQuery, by simpa using wellFormed.inTarget⟩
  · rintro ⟨nameEnds, inQuery, inTarget⟩
    exact ⟨nameEnds, inQuery, by simpa using inTarget⟩

instance (parameter : Parameter) : Decidable parameter.WellFormed :=
  decidable_of_iff _ wellFormed_iff.symm

theorem WellFormed.text_ne_keyed {parameter : Parameter} {key : List Char}
    (wellFormed : parameter.WellFormed) (plain : '=' ∉ key) (other : parameter.key ≠ some key)
    (value : List Char) : parameter.text ≠ keyed key value := by
  intro same
  cases parameter with
  | bare text =>
      have inText : '=' ∈ text := by
        rw [show text = keyed key value from same]
        exact List.mem_append_right _ List.mem_cons_self
      exact wellFormed.nameEnds inText
  | pair front back =>
      have keys : front = key := (cut_inj wellFormed.nameEnds plain same).1
      exact other (congrArg some keys)

end Parameter

def render (parameters : List Parameter) : List Char :=
  ['&'].intercalate (parameters.map Parameter.text)

theorem splitOn_render {parameters : List Parameter} (some : parameters ≠ [])
    (wellFormed : ∀ parameter ∈ parameters, parameter.WellFormed) :
    (render parameters).splitOn '&' = parameters.map Parameter.text := by
  refine List.splitOn_intercalate '&' ?_ (mt List.map_eq_nil_iff.mp some)
  intro part isPart
  obtain ⟨parameter, member, rfl⟩ := List.mem_map.mp isPart
  exact (wellFormed parameter member).inQuery

theorem not_isWhitespace_of_mem_render {parameters : List Parameter}
    (wellFormed : ∀ parameter ∈ parameters, parameter.WellFormed) :
    ∀ c ∈ render parameters, isWhitespace c = false := by
  intro c member
  rcases SpacedText.mem_intercalate member with rfl | ⟨part, isPart, inPart⟩
  · decide
  · obtain ⟨parameter, listed, rfl⟩ := List.mem_map.mp isPart
    exact (wellFormed parameter listed).inTarget c inPart

end QueryText
