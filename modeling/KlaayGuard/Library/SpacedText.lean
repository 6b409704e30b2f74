/-
Texts whose words stand one separator apart.

Joining words gives such a text, joining two such texts gives another, and so does
cutting one short behind a mark.  Cut apart at the separators, it has no empty piece.
-/

import Mathlib.Data.List.Chain

set_option autoImplicit false

namespace SpacedText

variable {α : Type}

/-- No separator beside another one, and none at either end. -/
structure Spaced (space : α) (text : List α) : Prop where
  single : text.IsChain fun left right => ¬ (left = space ∧ right = space)
  head : text.head? ≠ some space
  last : text.getLast? ≠ some space

variable {space : α} {text : List α}

theorem Spaced.nil : Spaced space [] where
  single := .nil
  head := nofun
  last := nofun

theorem Spaced.word (whole : space ∉ text) : Spaced space text where
  single := by
    rw [List.isChain_iff_forall_rel_of_append_cons_cons]
    rintro left right front back rfl ⟨rfl, _⟩
    exact whole (by simp)
  head := fun atHead => whole (List.mem_of_head? atHead)
  last := fun atLast => whole (List.mem_of_getLast? atLast)

theorem Spaced.join {front back : List α} (frontSpaced : Spaced space front)
    (backSpaced : Spaced space back) (frontNonempty : front ≠ []) (backNonempty : back ≠ []) :
    Spaced space (front ++ space :: back) where
  single := by
    rw [List.isChain_append, List.isChain_cons]
    refine ⟨frontSpaced.single, ⟨?_, backSpaced.single⟩, ?_⟩
    · rintro next atHead ⟨_, rfl⟩
      exact backSpaced.head atHead
    · rintro before atLast _ _ ⟨rfl, _⟩
      exact frontSpaced.last atLast
  head := by
    rw [List.head?_append_of_ne_nil _ frontNonempty]
    exact frontSpaced.head
  last := by
    rw [List.getLast?_append_of_ne_nil _ (List.cons_ne_nil _ _),
      List.getLast?_cons_of_ne_nil backNonempty]
    exact backSpaced.last

theorem intercalate_ne_nil {words : List (List α)} (some : words ≠ [])
    (nonempty : ∀ word ∈ words, word ≠ []) : [space].intercalate words ≠ [] := by
  cases words with
  | nil => exact absurd rfl some
  | cons word others =>
      have first := nonempty word List.mem_cons_self
      cases others with
      | nil =>
          rw [List.intercalate_singleton]
          exact first
      | cons next others =>
          rw [List.intercalate_cons_cons, List.append_assoc]
          exact List.append_ne_nil_of_left_ne_nil first _

theorem mem_intercalate {words : List (List α)} {a : α}
    (member : a ∈ [space].intercalate words) : a = space ∨ ∃ word ∈ words, a ∈ word := by
  induction words with
  | nil => cases member
  | cons word others ih =>
      cases others with
      | nil =>
          rw [List.intercalate_singleton] at member
          exact .inr ⟨word, List.mem_cons_self, member⟩
      | cons next others =>
          rw [List.intercalate_cons_cons, List.append_assoc, List.singleton_append,
            List.mem_append, List.mem_cons] at member
          rcases member with here | atSpace | later
          · exact .inr ⟨word, List.mem_cons_self, here⟩
          · exact .inl atSpace
          · rcases ih later with atSpace | ⟨other, listed, inOther⟩
            · exact .inl atSpace
            · exact .inr ⟨other, List.mem_cons_of_mem _ listed, inOther⟩

theorem intercalate_append {front back : List (List α)} (frontSome : front ≠ [])
    (backSome : back ≠ []) :
    [space].intercalate (front ++ back) =
      [space].intercalate front ++ space :: [space].intercalate back := by
  induction front with
  | nil => exact absurd rfl frontSome
  | cons word others ih =>
      cases others with
      | nil =>
          rw [List.singleton_append, List.intercalate_cons_of_ne_nil backSome,
            List.intercalate_singleton, List.append_assoc, List.singleton_append]
      | cons next others =>
          have more : next :: others ++ back ≠ [] := List.cons_ne_nil _ _
          rw [List.cons_append, List.intercalate_cons_of_ne_nil more, ih (List.cons_ne_nil _ _),
            List.intercalate_cons_cons, List.append_assoc, List.append_assoc, List.append_assoc]

theorem any_intercalate {p : α → Bool} (atSpace : p space = true) (words : List (List α)) :
    ([space].intercalate words).any p = (1 < words.length || words.any (·.any p)) := by
  cases words with
  | nil => rfl
  | cons word others =>
      cases others with
      | nil => simp
      | cons next others =>
          rw [List.intercalate_cons_cons, List.any_append, List.any_append]
          simp [atSpace]

theorem Spaced.intercalate {words : List (List α)} (nonempty : ∀ word ∈ words, word ≠ [])
    (whole : ∀ word ∈ words, space ∉ word) : Spaced space ([space].intercalate words) := by
  induction words with
  | nil => exact .nil
  | cons word others ih =>
      have spaced := Spaced.word (whole word List.mem_cons_self)
      have later := ih (fun other member => nonempty other (List.mem_cons_of_mem _ member))
        fun other member => whole other (List.mem_cons_of_mem _ member)
      cases others with
      | nil =>
          rw [List.intercalate_singleton]
          exact spaced
      | cons next others =>
          have more : [space].intercalate (next :: others) ≠ [] :=
            intercalate_ne_nil (List.cons_ne_nil _ _)
              fun other member => nonempty other (List.mem_cons_of_mem _ member)
          rw [List.intercalate_cons_cons, List.append_assoc, List.singleton_append]
          exact spaced.join later (nonempty word List.mem_cons_self) more

theorem Spaced.cut (spaced : Spaced space text) {mark : α} (visible : mark ≠ space)
    (count : Nat) : Spaced space (text.take count ++ [mark]) where
  single := by
    rw [List.isChain_append]
    refine ⟨spaced.single.take count, .singleton _, ?_⟩
    rintro before _ after atHead ⟨_, rfl⟩
    exact visible (Option.some.inj atHead)
  head := by
    rw [List.head?_append, List.head?_take]
    split
    · simpa using visible
    · cases atHead : text.head? with
      | none => simpa using visible
      | some first =>
          have notSpace := spaced.head
          rw [atHead] at notSpace
          exact notSpace
  last := by
    rw [List.getLast?_concat]
    simpa using visible

private theorem pieces_of_spaced [BEq α] [LawfulBEq α] {text : List α}
    (single : text.IsChain fun left right => ¬ (left = space ∧ right = space))
    (last : text.getLast? ≠ some space) :
    (∀ piece ∈ (text.splitOn space).tail, piece ≠ []) ∧
      (text ≠ [] → text.head? ≠ some space → ∀ piece ∈ text.splitOn space, piece ≠ []) := by
  induction text with
  | nil => simp
  | cons c rest ih =>
      obtain ⟨next, restSingle⟩ := List.isChain_cons.mp single
      have restLast : rest.getLast? ≠ some space := by
        intro atLast
        rw [List.getLast?_cons, atLast] at last
        exact last rfl
      obtain ⟨others, all⟩ := ih restSingle restLast
      rw [List.splitOn_cons_eq_if_modifyHead]
      by_cases here : c = space
      · rw [if_pos (beq_iff_eq.mpr here)]
        have restNonempty : rest ≠ [] := by
          rintro rfl
          exact last (congrArg some here)
        have restHead : rest.head? ≠ some space := fun atHead => next space atHead ⟨here, rfl⟩
        exact ⟨all restNonempty restHead, fun _ notHead => absurd (congrArg some here) notHead⟩
      · rw [if_neg (mt beq_iff_eq.mp here)]
        cases pieces : rest.splitOn space with
        | nil => exact absurd pieces (List.splitOn_ne_nil _ _)
        | cons head tail =>
            rw [pieces] at others
            exact ⟨others, fun _ _ => List.forall_mem_cons.mpr ⟨List.cons_ne_nil _ _, others⟩⟩

theorem Spaced.pieces [BEq α] [LawfulBEq α] (spaced : Spaced space text) (nonempty : text ≠ []) :
    ∀ piece ∈ text.splitOn space, piece ≠ [] :=
  (pieces_of_spaced spaced.single spaced.last).2 nonempty spaced.head

end SpacedText
