/-
Absolute Unix paths in normal form, as the kernel prints them.

Such a path is its list of names: two of them with the same components are the
same text, and one that encloses another is the shorter text.
-/

import KlaayGuard.Library.RustText

set_option autoImplicit false

namespace RustText

structure IsPathName (name : List Char) : Prop where
  nonempty : name ≠ []
  notDot : name ≠ ['.']
  whole : '/' ∉ name

def normalPath (names : List (List Char)) : List Char :=
  if names = [] then ['/'] else names.flatMap ('/' :: ·)

/-- No empty component, no `.`, and no trailing separator but the root's. -/
def IsNormalPath (path : List Char) : Prop :=
  ∃ names, (∀ name ∈ names, IsPathName name) ∧ path = normalPath names

private theorem isSeparator_of_mem {name : List Char} (proper : IsPathName name) :
    ∀ c ∈ name, (c == '/') = false := by
  intro c member
  rw [beq_eq_false_iff_ne]
  rintro rfl
  exact proper.whole member

private theorem splitOnP_names {names : List (List Char)}
    (proper : ∀ name ∈ names, IsPathName name) :
    (names.flatMap ('/' :: ·)).splitOnP (· == '/') = [] :: names := by
  induction names with
  | nil => rfl
  | cons name rest ih =>
      have later := ih fun other member => proper other (List.mem_cons_of_mem _ member)
      have whole := isSeparator_of_mem (proper name List.mem_cons_self)
      rw [List.flatMap_cons, List.cons_append, List.splitOnP_cons_eq_if_modifyHead,
        if_pos (beq_self_eq_true '/')]
      congr 1
      cases rest with
      | nil =>
          rw [List.flatMap_nil, List.append_nil]
          exact List.splitOnP_eq_singleton whole
      | cons next more =>
          rw [List.flatMap_cons, List.cons_append,
            List.splitOnP_append_cons_of_forall_mem whole '/' (beq_self_eq_true '/')]
          rw [List.flatMap_cons, List.cons_append, List.splitOnP_cons_eq_if_modifyHead,
            if_pos (beq_self_eq_true '/')] at later
          rw [(List.cons.inj later).2]

theorem pathComponents_normalPath {names : List (List Char)}
    (proper : ∀ name ∈ names, IsPathName name) :
    pathComponents (normalPath names) = ['/'] :: names := by
  have kept : names.filter (fun part => part ≠ [] && part ≠ ['.']) = names := by
    rw [List.filter_eq_self]
    intro name member
    simp [(proper name member).nonempty, (proper name member).notDot]
  unfold normalPath
  split
  · rename_i root
    rw [root]
    decide
  · rename_i some_names
    have first : (names.flatMap ('/' :: ·)).head? = some '/' := by
      cases names with
      | nil => exact absurd rfl some_names
      | cons name rest => rfl
    simp only [pathComponents, splitOnP_names proper, first, if_true]
    rw [List.filter_cons_of_neg (by simp), kept]

private theorem normalPath_append (names : List (List Char)) {more : List (List Char)}
    (proper : ∀ name ∈ more, IsPathName name) (deeper : more ≠ []) :
    ∃ tail, tail ≠ [] ∧ normalPath (names ++ more) = normalPath names ++ tail := by
  cases more with
  | nil => exact absurd rfl deeper
  | cons name rest =>
      have whole : names ++ name :: rest ≠ [] := by simp
      rw [normalPath, if_neg whole, List.flatMap_append, List.flatMap_cons, normalPath]
      split
      · rename_i root
        refine ⟨name ++ rest.flatMap ('/' :: ·), ?_, ?_⟩
        · simp [(proper name List.mem_cons_self).nonempty]
        · rw [root]
          rfl
      · exact ⟨_, List.cons_ne_nil _ _, rfl⟩

/-- An enclosing path in normal form is shorter, or the same. -/
theorem IsNormalPath.encloses {outer inner : List Char} (outerNormal : IsNormalPath outer)
    (innerNormal : IsNormalPath inner)
    (encloses : pathComponents outer <+: pathComponents inner) :
    outer = inner ∨ ∃ tail, tail ≠ [] ∧ inner = outer ++ tail := by
  obtain ⟨outerNames, outerProper, rfl⟩ := outerNormal
  obtain ⟨innerNames, innerProper, rfl⟩ := innerNormal
  rw [pathComponents_normalPath outerProper, pathComponents_normalPath innerProper,
    List.prefix_cons_inj] at encloses
  obtain ⟨more, rfl⟩ := encloses
  cases more with
  | nil =>
      rw [List.append_nil]
      exact .inl rfl
  | cons name rest =>
      exact .inr (normalPath_append outerNames
        (fun other member => innerProper other (List.mem_append_right _ member))
        (List.cons_ne_nil _ _))

private theorem pathComponents_relative {first : Char} (relative : first ≠ '/')
    (rest : List Char) :
    ∃ tail more, pathComponents (first :: rest) = (first :: tail) :: more := by
  have notSeparator : (first == '/') = false := beq_eq_false_iff_ne.mpr relative
  have notRoot : (first :: rest).head? ≠ some '/' := by simp [relative]
  simp only [pathComponents, if_neg notRoot, List.splitOnP_cons_eq_if_modifyHead, notSeparator,
    Bool.false_eq_true, if_false]
  cases parts : rest.splitOnP (· == '/') with
  | nil => exact absurd parts (List.splitOnP_ne_nil _ _)
  | cons tail more =>
      rw [List.modifyHead_cons, List.head?_cons]
      split
      · rename_i dot
        rw [List.cons.inj (Option.some.inj dot) |>.1]
        exact ⟨[], _, rfl⟩
      · rename_i notDot
        have proper : first :: tail ≠ ['.'] := fun dot => notDot (congrArg some dot)
        rw [List.filter_cons_of_pos (by simp [proper])]
        exact ⟨tail, _, rfl⟩

/-- Only an absolute path encloses an absolute one, the empty path aside. -/
theorem head?_of_encloses {outer inner : List Char} (nonempty : outer ≠ [])
    (absolute : inner.head? = some '/')
    (encloses : pathComponents outer <+: pathComponents inner) : outer.head? = some '/' := by
  cases outer with
  | nil => exact absurd rfl nonempty
  | cons first rest =>
      by_cases separator : first = '/'
      · rw [separator]
        rfl
      · obtain ⟨tail, more, relative⟩ := pathComponents_relative separator rest
        have root : ∃ names, pathComponents inner = ['/'] :: names := by
          rw [pathComponents]
          exact ⟨_, if_pos absolute⟩
        obtain ⟨names, root⟩ := root
        rw [relative, root] at encloses
        obtain ⟨after, same⟩ := encloses
        exact absurd (List.cons.inj (List.cons.inj same).1).1 separator

end RustText
