/-
Replacing every occurrence of a pattern in a text.

A character that the pattern lacks cuts a text into parts which are replaced each by
itself, so a document keeps whatever structure such characters give it.
-/

import KlaayGuard.Library.RustText

set_option autoImplicit false

namespace RustText

def replaceFrom (pattern replacement : List Char) : Nat → List Char → List Char
  | _, [] => []
  | skip + 1, _ :: rest => replaceFrom pattern replacement skip rest
  | 0, c :: rest =>
      if pattern.isPrefixOf (c :: rest) then
        replacement ++ replaceFrom pattern replacement (pattern.length - 1) rest
      else c :: replaceFrom pattern replacement 0 rest

/-- `str::replace` of a pattern that is not empty: its occurrences from the left, none
of which overlaps the one before. -/
def replace (pattern replacement text : List Char) : List Char :=
  replaceFrom pattern replacement 0 text

variable {pattern replacement : List Char}

theorem replaceFrom_zero (c : Char) (rest : List Char) :
    replaceFrom pattern replacement 0 (c :: rest) =
      if pattern.isPrefixOf (c :: rest) then
        replacement ++ replaceFrom pattern replacement (pattern.length - 1) rest
      else c :: replaceFrom pattern replacement 0 rest := by
  rw [replaceFrom]

/-- A pattern without some character cannot reach across it. -/
theorem isPrefixOf_append_outside {c : Char} (outside : c ∉ pattern) (front back : List Char) :
    pattern.isPrefixOf (front ++ c :: back) = pattern.isPrefixOf front := by
  induction front generalizing pattern with
  | nil =>
      cases pattern with
      | nil => rfl
      | cons head tail =>
          have differ : (head == c) = false := by
            rw [beq_eq_false_iff_ne]
            rintro rfl
            exact outside List.mem_cons_self
          rw [List.nil_append, List.isPrefixOf_cons_cons, differ]
          rfl
  | cons first rest ih =>
      cases pattern with
      | nil => rfl
      | cons head tail =>
          rw [List.cons_append, List.isPrefixOf_cons_cons, List.isPrefixOf_cons_cons,
            ih fun member => outside (List.mem_cons_of_mem _ member)]

private theorem replaceFrom_append_outside {c : Char} (outside : c ∉ pattern)
    (nonempty : pattern ≠ []) (front back : List Char) (skip : Nat) (inside : skip ≤ front.length) :
    replaceFrom pattern replacement skip (front ++ c :: back) =
      replaceFrom pattern replacement skip front ++
        c :: replaceFrom pattern replacement 0 back := by
  induction front generalizing skip with
  | nil =>
      obtain rfl : skip = 0 := Nat.le_zero.mp inside
      have noMatch := isPrefixOf_append_outside outside [] back
      rw [List.nil_append] at noMatch
      have none : pattern.isPrefixOf [] = false := by
        cases pattern with
        | nil => exact absurd rfl nonempty
        | cons head tail => rfl
      rw [List.nil_append, replaceFrom_zero, noMatch, none]
      rfl
  | cons first rest ih =>
      rw [List.cons_append]
      cases skip with
      | succ skip =>
          rw [replaceFrom, replaceFrom]
          exact ih skip (Nat.le_of_succ_le_succ inside)
      | zero =>
          have sameMatch := isPrefixOf_append_outside outside (first :: rest) back
          rw [List.cons_append] at sameMatch
          rw [replaceFrom_zero, replaceFrom_zero, sameMatch]
          split
          · rename_i matched
            have short := (List.isPrefixOf_iff_prefix.mp matched).length_le
            rw [List.length_cons] at short
            rw [ih (pattern.length - 1) (by omega), List.append_assoc]
          · rw [ih 0 (Nat.zero_le _)]
            rfl

/-- What stands on either side of a character the pattern lacks is replaced by itself. -/
theorem replace_append_outside {c : Char} (outside : c ∉ pattern) (nonempty : pattern ≠ [])
    (front back : List Char) :
    replace pattern replacement (front ++ c :: back) =
      replace pattern replacement front ++ c :: replace pattern replacement back :=
  replaceFrom_append_outside outside nonempty front back 0 (Nat.zero_le _)

theorem replace_intercalate {c : Char} (outside : c ∉ pattern) (nonempty : pattern ≠ [])
    (pieces : List (List Char)) :
    replace pattern replacement ([c].intercalate pieces) =
      [c].intercalate (pieces.map (replace pattern replacement)) := by
  induction pieces with
  | nil => rfl
  | cons piece others ih =>
      cases others with
      | nil => rw [List.intercalate_singleton, List.map_singleton, List.intercalate_singleton]
      | cons next others =>
          have more : (next :: others).map (replace pattern replacement) ≠ [] :=
            List.cons_ne_nil _ _
          rw [List.intercalate_cons_cons, List.append_assoc, List.singleton_append,
            replace_append_outside outside nonempty, ih, List.map_cons (l := next :: others),
            List.intercalate_cons_of_ne_nil more, List.append_assoc, List.singleton_append]

theorem replace_of_absent {text : List Char} (absent : contains text pattern = false) :
    replace pattern replacement text = text := by
  induction text with
  | nil => rfl
  | cons c rest ih =>
      have both : (pattern.isPrefixOf (c :: rest) || contains rest pattern) = false := absent
      obtain ⟨here, later⟩ := Bool.or_eq_false_iff.mp both
      rw [replace, replaceFrom_zero, here]
      exact congrArg (c :: ·) (ih later)

private theorem mem_replaceFrom {text : List Char} {skip : Nat} {c : Char}
    (member : c ∈ replaceFrom pattern replacement skip text) : c ∈ text ∨ c ∈ replacement := by
  induction text generalizing skip with
  | nil => rw [replaceFrom] at member; cases member
  | cons first rest ih =>
      cases skip with
      | succ skip =>
          rw [replaceFrom] at member
          exact (ih member).imp_left (List.mem_cons_of_mem _)
      | zero =>
          rw [replaceFrom] at member
          split at member
          · rcases List.mem_append.mp member with new | later
            · exact Or.inr new
            · exact (ih later).imp_left (List.mem_cons_of_mem _)
          · rcases List.mem_cons.mp member with rfl | later
            · exact Or.inl List.mem_cons_self
            · exact (ih later).imp_left (List.mem_cons_of_mem _)

theorem mem_replace {text : List Char} {c : Char}
    (member : c ∈ replace pattern replacement text) : c ∈ text ∨ c ∈ replacement :=
  mem_replaceFrom member

theorem splitOnP_replace {c : Char} (outside : c ∉ pattern) (nonempty : pattern ≠ [])
    (notNew : c ∉ replacement) (text : List Char) :
    (replace pattern replacement text).splitOnP (· == c) =
      (text.splitOnP (· == c)).map (replace pattern replacement) := by
  have pieces : ∀ piece ∈ (text.splitOn c).map (replace pattern replacement), c ∉ piece := by
    intro piece listed member
    obtain ⟨old, isOld, rfl⟩ := List.mem_map.mp listed
    rw [List.splitOn_eq_splitOnP] at isOld
    rcases mem_replace member with inOld | isNew
    · have apart := (mem_of_mem_splitOnP isOld inOld).2
      simp at apart
    · exact notNew isNew
  have some : (text.splitOn c).map (replace pattern replacement) ≠ [] :=
    mt List.map_eq_nil_iff.mp (List.splitOn_ne_nil c text)
  have cut := List.splitOn_intercalate c pieces some
  rwa [← replace_intercalate outside nonempty, List.intercalate_splitOn,
    List.splitOn_eq_splitOnP, List.splitOn_eq_splitOnP] at cut

private theorem replaceFrom_skip (front rest : List Char) :
    replaceFrom pattern replacement front.length (front ++ rest) =
      replaceFrom pattern replacement 0 rest := by
  induction front with
  | nil => rfl
  | cons c front ih =>
      rw [List.length_cons, List.cons_append, replaceFrom]
      exact ih

theorem replace_append (nonempty : pattern ≠ []) (rest : List Char) :
    replace pattern replacement (pattern ++ rest) =
      replacement ++ replace pattern replacement rest := by
  cases pattern with
  | nil => exact absurd rfl nonempty
  | cons c tail =>
      have leads : (c :: tail).isPrefixOf (c :: (tail ++ rest)) = true :=
        List.isPrefixOf_iff_prefix.mpr ⟨rest, rfl⟩
      rw [List.cons_append, replace, replaceFrom_zero, if_pos leads]
      exact congrArg (replacement ++ ·) (replaceFrom_skip tail rest)

theorem replace_char (c : Char) (text : List Char) :
    replace [c] replacement text = text.flatMap fun d => if d = c then replacement else [d] := by
  induction text with
  | nil => rfl
  | cons d rest ih =>
      rw [replace, replaceFrom_zero, List.flatMap_cons, List.isPrefixOf_cons_cons,
        List.isPrefixOf_nil_left, Bool.and_true]
      by_cases same : d = c
      · rw [if_pos same, if_pos (beq_iff_eq.mpr same.symm)]
        exact congrArg (replacement ++ ·) ih
      · rw [if_neg same, if_neg fun found => same (eq_of_beq found).symm]
        exact congrArg (d :: ·) ih

end RustText
