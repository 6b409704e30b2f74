/-
Ordered forests whose siblings may be listed in any order.

A scan of a forest in preorder finds the first label of one kind or the last
label of another.  Which labels it can find over all the orders of the siblings
is a matter of the forest's shape alone: the first is one with no label of its
kind above it, the last is one with none below it, and the two come together
unless one subtree would have to be listed both before and after another.
-/

import Mathlib.Data.List.Perm.Basic

set_option autoImplicit false

namespace RoseForest

inductive Rose (α : Type) : Type where
  | node (label : α) (kids : List (Rose α))

variable {α : Type}

def preorder : List (Rose α) → List α
  | [] => []
  | .node label kids :: rest => label :: (preorder kids ++ preorder rest)

theorem forestInduction {motive : List (Rose α) → Prop} (nil : motive [])
    (cons : ∀ label kids rest, motive kids → motive rest → motive (.node label kids :: rest)) :
    ∀ forest, motive forest
  | [] => nil
  | .node label kids :: rest =>
      cons label kids rest (forestInduction nil cons kids) (forestInduction nil cons rest)

@[simp] theorem preorder_nil : preorder ([] : List (Rose α)) = [] := by
  rw [preorder]

@[simp] theorem preorder_cons (label : α) (kids rest : List (Rose α)) :
    preorder (.node label kids :: rest) = label :: (preorder kids ++ preorder rest) := by
  rw [preorder]

@[simp] theorem preorder_append (front back : List (Rose α)) :
    preorder (front ++ back) = preorder front ++ preorder back := by
  induction front with
  | nil => simp
  | cons head tail ih =>
      cases head with
      | node label kids => simp [ih]

theorem preorder_split (head : Rose α) (tail : List (Rose α)) :
    preorder (head :: tail) = preorder [head] ++ preorder tail :=
  preorder_append [head] tail

/-- Every label in preorder, with the labels above it from the root down. -/
def preorderUnder (above : List α) : List (Rose α) → List (List α × α)
  | [] => []
  | .node label kids :: rest =>
      (above, label) :: (preorderUnder (above ++ [label]) kids ++ preorderUnder above rest)

@[simp] theorem preorderUnder_nil (above : List α) :
    preorderUnder above ([] : List (Rose α)) = [] := by
  rw [preorderUnder]

@[simp] theorem preorderUnder_cons (above : List α) (label : α) (kids rest : List (Rose α)) :
    preorderUnder above (.node label kids :: rest) =
      (above, label) :: (preorderUnder (above ++ [label]) kids ++ preorderUnder above rest) := by
  rw [preorderUnder]

/-- One forest lists the siblings of another in a different order, at any depth. -/
inductive Reordered : List (Rose α) → List (Rose α) → Prop where
  | refl (forest : List (Rose α)) : Reordered forest forest
  | swap (first second : Rose α) (rest : List (Rose α)) :
      Reordered (first :: second :: rest) (second :: first :: rest)
  | cons (head : Rose α) {tail other : List (Rose α)} :
      Reordered tail other → Reordered (head :: tail) (head :: other)
  | kids (label : α) (rest : List (Rose α)) {kids other : List (Rose α)} :
      Reordered kids other → Reordered (.node label kids :: rest) (.node label other :: rest)
  | trans {first second third : List (Rose α)} :
      Reordered first second → Reordered second third → Reordered first third

theorem Reordered.of_perm {forest other : List (Rose α)} (permuted : forest.Perm other) :
    Reordered forest other := by
  induction permuted with
  | nil => exact .refl []
  | cons head _ ih => exact .cons head ih
  | swap first second rest => exact .swap second first rest
  | trans _ _ ihFirst ihSecond => exact .trans ihFirst ihSecond

theorem Reordered.append_right {forest other : List (Rose α)} (rest : List (Rose α))
    (reordered : Reordered forest other) : Reordered (forest ++ rest) (other ++ rest) := by
  induction reordered with
  | refl forest => exact .refl _
  | swap first second tail => exact .swap first second (tail ++ rest)
  | cons head _ ih => exact .cons head ih
  | kids label tail inner _ => exact .kids label (tail ++ rest) inner
  | trans _ _ ihFirst ihSecond => exact .trans ihFirst ihSecond

theorem Reordered.append_left {forest other : List (Rose α)} (front : List (Rose α))
    (reordered : Reordered forest other) : Reordered (front ++ forest) (front ++ other) := by
  induction front with
  | nil => exact reordered
  | cons head tail ih => exact .cons head ih

theorem Reordered.preorder_perm {forest other : List (Rose α)}
    (reordered : Reordered forest other) : (preorder forest).Perm (preorder other) := by
  induction reordered with
  | refl forest => exact .refl _
  | swap first second rest =>
      rw [preorder_split first, preorder_split second, preorder_split second (first :: rest),
        preorder_split first rest, ← List.append_assoc, ← List.append_assoc]
      exact List.perm_append_comm.append_right _
  | @cons head tail other _ ih =>
      rw [preorder_split head tail, preorder_split head other]
      exact ih.append_left _
  | kids label rest _ ih =>
      rw [preorder_cons, preorder_cons]
      exact (ih.append_right _).cons label
  | trans _ _ ihFirst ihSecond => exact ihFirst.trans ihSecond

private theorem perm_cons_cases {first second : α} {left right : List α}
    (permuted : (first :: left).Perm (second :: right)) :
    (first = second ∧ left.Perm right) ∨
      ∃ middle, left.Perm (second :: middle) ∧ right.Perm (first :: middle) := by
  rcases List.mem_cons.mp (permuted.mem_iff.mp List.mem_cons_self) with same | later
  · subst same
    exact Or.inl ⟨rfl, permuted.cons_inv⟩
  · obtain ⟨before, after, rfl⟩ := List.append_of_mem later
    have drawn : (second :: (before ++ first :: after)).Perm
        (first :: second :: (before ++ after)) :=
      (List.perm_middle.cons second).trans (.swap first second _)
    exact Or.inr ⟨before ++ after, (permuted.trans drawn).cons_inv, List.perm_middle⟩

/-- Each tree of a reordered forest is a tree of the other, with its kids in
some other order. -/
theorem Reordered.locate {forest other : List (Rose α)} (reordered : Reordered forest other)
    {label : α} {kids rest : List (Rose α)} (listed : other.Perm (.node label kids :: rest)) :
    ∃ kids' rest', forest.Perm (.node label kids' :: rest') ∧ Reordered kids' kids ∧
      Reordered rest' rest := by
  induction reordered generalizing kids rest with
  | refl forest => exact ⟨kids, rest, listed, .refl _, .refl _⟩
  | swap first second tail =>
      exact ⟨kids, rest, (List.Perm.swap second first tail).trans listed, .refl _, .refl _⟩
  | cons head inner ih =>
      rcases perm_cons_cases listed with ⟨rfl, same⟩ | ⟨middle, drawn, left⟩
      · exact ⟨kids, _, .refl _, .refl _, inner.trans (.of_perm same)⟩
      · obtain ⟨kids', rest', located, sameKids, sameRest⟩ := ih drawn
        refine ⟨kids', head :: rest', ?_, sameKids,
          (sameRest.cons head).trans (.of_perm left.symm)⟩
        exact (located.cons head).trans (.swap _ _ _)
  | @kids name tail inner outer changed _ =>
      rcases perm_cons_cases listed with ⟨same, sameTail⟩ | ⟨middle, drawn, left⟩
      · cases same
        exact ⟨inner, tail, .refl _, changed, .of_perm sameTail⟩
      · refine ⟨kids, .node name inner :: middle, ?_, .refl _,
          (changed.kids name middle).trans (.of_perm left.symm)⟩
        exact (drawn.cons _).trans (.swap _ _ _)
  | trans _ _ ihFirst ihSecond =>
      obtain ⟨kids', rest', located, sameKids, sameRest⟩ := ihSecond listed
      obtain ⟨kids'', rest'', before, earlierKids, earlierRest⟩ := ihFirst located
      exact ⟨kids'', rest'', before, earlierKids.trans sameKids, earlierRest.trans sameRest⟩

theorem Reordered.mem {forest other : List (Rose α)} (reordered : Reordered forest other)
    {label : α} {kids : List (Rose α)} (listed : .node label kids ∈ other) :
    ∃ kids', .node label kids' ∈ forest ∧ Reordered kids' kids := by
  obtain ⟨before, after, rfl⟩ := List.append_of_mem listed
  obtain ⟨kids', rest', located, same, _⟩ := reordered.locate List.perm_middle
  exact ⟨kids', located.mem_iff.mpr List.mem_cons_self, same⟩

theorem Reordered.absent {forest other : List (Rose α)} (reordered : Reordered forest other)
    {p : α → Bool} (absent : ∀ label ∈ preorder other, p label = false) :
    ∀ label ∈ preorder forest, p label = false :=
  fun label member => absent label (reordered.preorder_perm.mem_iff.mp member)

/-! ### The first label of a kind -/

/-- A label of the kind with none of the kind above it. -/
inductive Outermost (p : α → Bool) : List (Rose α) → α → Prop where
  | here {forest : List (Rose α)} {label : α} {kids : List (Rose α)}
      (listed : .node label kids ∈ forest) (holds : p label = true) : Outermost p forest label
  | beneath {forest : List (Rose α)} {label found : α} {kids : List (Rose α)}
      (listed : .node label kids ∈ forest) (fails : p label = false)
      (deeper : Outermost p kids found) : Outermost p forest found

theorem Outermost.mono {p : α → Bool} {forest other : List (Rose α)} {found : α}
    (outermost : Outermost p forest found) (within : ∀ node ∈ forest, node ∈ other) :
    Outermost p other found := by
  cases outermost with
  | here listed holds => exact .here (within _ listed) holds
  | beneath listed fails deeper => exact .beneath (within _ listed) fails deeper

theorem Outermost.reordered {p : α → Bool} {forest other : List (Rose α)} {found : α}
    (outermost : Outermost p other found) (same : Reordered forest other) :
    Outermost p forest found := by
  induction outermost generalizing forest with
  | here listed holds =>
      obtain ⟨kids', located, _⟩ := same.mem listed
      exact .here located holds
  | beneath listed fails _ ih =>
      obtain ⟨kids', located, sameKids⟩ := same.mem listed
      exact .beneath located fails (ih sameKids)

theorem outermost_of_find? {p : α → Bool} (forest : List (Rose α)) {found : α}
    (first : (preorder forest).find? p = some found) : Outermost p forest found := by
  induction forest using forestInduction generalizing found with
  | nil => simp at first
  | cons label kids rest ihKids ihRest =>
      rw [preorder_cons, List.find?_cons, List.find?_append] at first
      cases holds : p label with
      | true =>
          rw [holds] at first
          cases first
          exact .here List.mem_cons_self holds
      | false =>
          rw [holds] at first
          rcases Option.or_eq_some_iff.mp first with inKids | ⟨_, inRest⟩
          · exact .beneath List.mem_cons_self holds (ihKids inKids)
          · exact (ihRest inRest).mono fun _ member => List.mem_cons_of_mem _ member

theorem Outermost.brought_first {p : α → Bool} {forest : List (Rose α)} {found : α}
    (outermost : Outermost p forest found) :
    ∃ other, Reordered forest other ∧ (preorder other).find? p = some found := by
  induction outermost with
  | @here forest label kids listed holds =>
      obtain ⟨before, after, rfl⟩ := List.append_of_mem listed
      refine ⟨_, .of_perm List.perm_middle, ?_⟩
      simp [holds]
  | @beneath forest label found kids listed fails _ ih =>
      obtain ⟨before, after, rfl⟩ := List.append_of_mem listed
      obtain ⟨other, reordered, first⟩ := ih
      refine ⟨.node label other :: (before ++ after),
        (Reordered.of_perm List.perm_middle).trans (.kids label _ reordered), ?_⟩
      simp [fails, first]

/-- A property that passes from a label to every label beneath it. -/
def Inherited (c : α → Bool) : List (Rose α) → Prop
  | [] => True
  | .node label kids :: rest =>
      (c label = true → ∀ under ∈ preorder kids, c under = true) ∧
        Inherited c kids ∧ Inherited c rest

theorem Inherited.of_outermost {p c : α → Bool} (forest : List (Rose α))
    (inherited : Inherited c forest)
    (outermost : ∀ found, Outermost p forest found → c found = true) :
    ∀ label ∈ preorder forest, p label = true → c label = true := by
  induction forest using forestInduction with
  | nil => simp
  | cons head kids rest ihKids ihRest =>
      rw [Inherited] at inherited
      obtain ⟨passes, inKids, inRest⟩ := inherited
      intro label member holds
      rw [preorder_cons, List.mem_cons, List.mem_append] at member
      rcases member with rfl | under | later
      · exact outermost label (.here List.mem_cons_self holds)
      · cases top : p head with
        | true => exact passes (outermost head (.here List.mem_cons_self top)) label under
        | false =>
            exact ihKids inKids (fun found deeper =>
              outermost found (.beneath List.mem_cons_self top deeper)) label under holds
      · exact ihRest inRest (fun found deeper =>
          outermost found (deeper.mono fun _ => List.mem_cons_of_mem _)) label later holds

/-! ### The last label of a kind -/

inductive Innermost (p : α → Bool) : List (Rose α) → α → Prop where
  | here {forest : List (Rose α)} {label : α} {kids : List (Rose α)}
      (listed : .node label kids ∈ forest) (holds : p label = true)
      (barren : ∀ under ∈ preorder kids, p under = false) : Innermost p forest label
  | beneath {forest : List (Rose α)} {label found : α} {kids : List (Rose α)}
      (listed : .node label kids ∈ forest) (deeper : Innermost p kids found) :
      Innermost p forest found

theorem Innermost.mono {p : α → Bool} {forest other : List (Rose α)} {found : α}
    (innermost : Innermost p forest found) (within : ∀ node ∈ forest, node ∈ other) :
    Innermost p other found := by
  cases innermost with
  | here listed holds barren => exact .here (within _ listed) holds barren
  | beneath listed deeper => exact .beneath (within _ listed) deeper

theorem Innermost.reordered {p : α → Bool} {forest other : List (Rose α)} {found : α}
    (innermost : Innermost p other found) (same : Reordered forest other) :
    Innermost p forest found := by
  induction innermost generalizing forest with
  | here listed holds barren =>
      obtain ⟨kids', located, sameKids⟩ := same.mem listed
      exact .here located holds (sameKids.absent barren)
  | beneath listed _ ih =>
      obtain ⟨kids', located, sameKids⟩ := same.mem listed
      exact .beneath located (ih sameKids)

theorem findRev?_append (p : α → Bool) (front back : List α) :
    (front ++ back).findRev? p = (back.findRev? p).or (front.findRev? p) := by
  simp

theorem findRev?_cons (p : α → Bool) (head : α) (tail : List α) :
    (head :: tail).findRev? p = (tail.findRev? p).or (if p head then some head else none) := by
  simp [List.find?_singleton]

theorem findRev?_eq_none {p : α → Bool} {labels : List α} :
    labels.findRev? p = none ↔ ∀ label ∈ labels, p label = false := by
  simp

theorem findRev?_flatMap {β : Type} (p : β → Bool) (f : α → List β) (labels : List α) :
    (labels.flatMap f).findRev? p =
      (labels.findRev? fun label => ((f label).findRev? p).isSome).bind fun label =>
        (f label).findRev? p := by
  induction labels with
  | nil => rfl
  | cons head tail ih =>
      rw [List.flatMap_cons, findRev?_append, findRev?_cons, ih]
      cases later : tail.findRev? fun label => ((f label).findRev? p).isSome with
      | some label =>
          have shown : ((f label).findRev? p).isSome = true := by
            rw [List.findRev?_eq_find?_reverse] at later
            have holds := List.find?_some later
            exact holds
          obtain ⟨found, atFound⟩ := Option.isSome_iff_exists.mp shown
          rw [Option.bind_some, atFound, Option.some_or, Option.some_or, Option.bind_some, atFound]
      | none =>
          rw [Option.bind_none, Option.none_or, Option.none_or]
          cases here : (f head).findRev? p with
          | some found => exact here.symm
          | none => rfl

theorem innermost_of_findRev? {p : α → Bool} (forest : List (Rose α)) {found : α}
    (last : (preorder forest).findRev? p = some found) : Innermost p forest found := by
  induction forest using forestInduction generalizing found with
  | nil => simp at last
  | cons label kids rest ihKids ihRest =>
      rw [preorder_cons, findRev?_cons, findRev?_append] at last
      rcases Option.or_eq_some_iff.mp last with under | ⟨none, atTop⟩
      · rcases Option.or_eq_some_iff.mp under with inRest | ⟨_, inKids⟩
        · exact (ihRest inRest).mono fun _ member => List.mem_cons_of_mem _ member
        · exact .beneath List.mem_cons_self (ihKids inKids)
      · by_cases holds : p label = true
        · rw [if_pos holds] at atTop
          cases atTop
          rw [Option.or_eq_none_iff, findRev?_eq_none, findRev?_eq_none] at none
          exact .here List.mem_cons_self holds none.2
        · rw [if_neg holds] at atTop
          cases atTop

theorem Innermost.brought_last {p : α → Bool} {forest : List (Rose α)} {found : α}
    (innermost : Innermost p forest found) :
    ∃ other, Reordered forest other ∧ (preorder other).findRev? p = some found := by
  have moved : ∀ (before after : List (Rose α)) (node : Rose α),
      (before ++ node :: after).Perm (before ++ after ++ [node]) := fun before after node =>
    List.perm_middle.trans (List.perm_append_singleton node (before ++ after)).symm
  induction innermost with
  | @here forest label kids listed holds barren =>
      obtain ⟨before, after, rfl⟩ := List.append_of_mem listed
      refine ⟨_, .of_perm (moved before after _), ?_⟩
      rw [preorder_append, findRev?_append, preorder_cons, findRev?_cons, preorder_nil,
        List.append_nil, findRev?_eq_none.mpr barren, if_pos holds]
      rfl
  | @beneath forest label found kids listed _ ih =>
      obtain ⟨before, after, rfl⟩ := List.append_of_mem listed
      obtain ⟨other, reordered, last⟩ := ih
      refine ⟨before ++ after ++ [.node label other],
        (Reordered.of_perm (moved before after _)).trans
          (.append_left _ (.kids label [] reordered)), ?_⟩
      rw [preorder_append, findRev?_append, preorder_cons, findRev?_cons, preorder_nil,
        List.append_nil, last]
      rfl

/-- The first label of one kind and the last of another that one order of the
siblings can show together: in two trees, or in one tree with the whole first
kind. -/
inductive Ends (q p : α → Bool) : List (Rose α) → α → α → Prop where
  | apart {forest others : List (Rose α)} {front back : Rose α} {early late : α}
      (listed : forest.Perm (front :: back :: others))
      (opening : Outermost q [front] early) (closing : Innermost p [back] late) :
      Ends q p forest early late
  | within {forest kids others : List (Rose α)} {label late : α}
      (listed : forest.Perm (.node label kids :: others))
      (absent : ∀ other ∈ preorder others, q other = false)
      (holds : q label = true) (closing : Innermost p [.node label kids] late) :
      Ends q p forest label late
  | beneath {forest kids others : List (Rose α)} {label early late : α}
      (listed : forest.Perm (.node label kids :: others))
      (absent : ∀ other ∈ preorder others, q other = false)
      (fails : q label = false) (deeper : Ends q p kids early late) :
      Ends q p forest early late

theorem Ends.reordered {q p : α → Bool} {forest other : List (Rose α)} {early late : α}
    (ends : Ends q p other early late) (same : Reordered forest other) :
    Ends q p forest early late := by
  induction ends generalizing forest with
  | @apart other others front back early late listed opening closing =>
      obtain ⟨frontLabel, frontKids⟩ := front
      obtain ⟨backLabel, backKids⟩ := back
      obtain ⟨frontKids', rest, located, sameFront, sameRest⟩ := same.locate listed
      obtain ⟨backKids', rest', inRest, sameBack, _⟩ := sameRest.locate (.refl _)
      exact .apart (located.trans (inRest.cons _)) (opening.reordered (.kids _ [] sameFront))
        (closing.reordered (.kids _ [] sameBack))
  | @within other kids others label late listed absent holds closing =>
      obtain ⟨kids', rest, located, sameKids, sameRest⟩ := same.locate listed
      exact .within located (sameRest.absent absent) holds
        (closing.reordered (.kids label [] sameKids))
  | @beneath other kids others label early late listed absent fails _ ih =>
      obtain ⟨kids', rest, located, sameKids, sameRest⟩ := same.locate listed
      exact .beneath located (sameRest.absent absent) fails (ih sameKids)

private theorem Ends.cons {q p : α → Bool} {forest : List (Rose α)} {early late : α}
    (head : Rose α) (ends : Ends q p forest early late)
    (absentHead : ∀ label ∈ preorder [head], q label = false) :
    Ends q p (head :: forest) early late := by
  have absentBoth : ∀ others : List (Rose α), (∀ label ∈ preorder others, q label = false) →
      ∀ label ∈ preorder (head :: others), q label = false := by
    intro others absent label member
    rw [preorder_split, List.mem_append] at member
    exact member.elim (absentHead label) (absent label)
  cases ends with
  | @apart _ others front back _ _ listed opening closing =>
      have lifted : (head :: forest).Perm (front :: back :: head :: others) :=
        (listed.cons head).trans
          ((List.Perm.swap front head _).trans ((List.Perm.swap back head others).cons front))
      exact .apart lifted opening closing
  | within listed absent holds closing =>
      exact .within ((listed.cons head).trans (.swap _ _ _)) (absentBoth _ absent) holds closing
  | beneath listed absent fails deeper =>
      exact .beneath ((listed.cons head).trans (.swap _ _ _)) (absentBoth _ absent) fails deeper

private theorem Innermost.tree {p : α → Bool} {forest : List (Rose α)} {found : α}
    (innermost : Innermost p forest found) :
    ∃ back others, forest.Perm (back :: others) ∧ Innermost p [back] found := by
  cases innermost with
  | here listed holds barren =>
      obtain ⟨before, after, rfl⟩ := List.append_of_mem listed
      exact ⟨_, _, List.perm_middle, .here List.mem_cons_self holds barren⟩
  | beneath listed deeper =>
      obtain ⟨before, after, rfl⟩ := List.append_of_mem listed
      exact ⟨_, _, List.perm_middle, .beneath List.mem_cons_self deeper⟩

/-- What a scan of the forest shows is a pair that some order can show. -/
theorem ends_of_preorder {q p : α → Bool} (kind : ∀ label, q label = true → p label = true)
    (forest : List (Rose α)) {early late : α} (first : (preorder forest).find? q = some early)
    (last : (preorder forest).findRev? p = some late) : Ends q p forest early late := by
  induction forest using forestInduction generalizing early late with
  | nil => simp at first
  | cons label kids rest ihKids ihRest =>
      rw [preorder_split, List.find?_append] at first
      rw [preorder_split, findRev?_append] at last
      cases inRest : (preorder rest).findRev? p with
      | some found =>
          rw [inRest, Option.some_or] at last
          cases last
          cases inTree : (preorder [.node label kids]).find? q with
          | some found =>
              rw [inTree, Option.some_or] at first
              cases first
              obtain ⟨back, others, located, closing⟩ := (innermost_of_findRev? rest inRest).tree
              exact .apart (located.cons _) (outermost_of_find? _ inTree) closing
          | none =>
              rw [inTree, Option.none_or] at first
              refine (ihRest first inRest).cons (.node label kids) fun name member => ?_
              simpa using List.find?_eq_none.mp inTree name member
      | none =>
          rw [inRest, Option.none_or] at last
          have absent : ∀ other ∈ preorder rest, q other = false := by
            intro other member
            have plain := findRev?_eq_none.mp inRest other member
            by_contra holds
            rw [kind other (by simpa using holds)] at plain
            cases plain
          cases holds : q label with
          | true =>
              have top : (preorder [.node label kids]).find? q = some label := by simp [holds]
              rw [top, Option.some_or] at first
              cases first
              exact .within (.refl _) absent holds (innermost_of_findRev? _ last)
          | false =>
              have none : (preorder rest).find? q = none := by
                rw [List.find?_eq_none]
                intro other member
                simp [absent other member]
              rw [none, Option.or_none, preorder_cons, preorder_nil, List.append_nil,
                List.find?_cons, holds] at first
              rw [preorder_cons, preorder_nil, List.append_nil, findRev?_cons] at last
              have inKids : (preorder kids).findRev? p = some late := by
                cases found : (preorder kids).findRev? p with
                | some other =>
                    rw [found, Option.some_or] at last
                    exact last
                | none =>
                    have plain := findRev?_eq_none.mp found early (List.mem_of_find?_eq_some first)
                    rw [kind early (List.find?_some first)] at plain
                    cases plain
              exact .beneath (.refl _) absent holds (ihKids first inKids)

private theorem Innermost.brought_last_beneath {p : α → Bool} {label found : α}
    {kids : List (Rose α)} (innermost : Innermost p [.node label kids] found) :
    ∃ other, Reordered kids other ∧
      (preorder [.node label other]).findRev? p = some found := by
  cases innermost with
  | here listed holds barren =>
      cases List.mem_singleton.mp listed
      refine ⟨kids, .refl kids, ?_⟩
      rw [preorder_cons, findRev?_cons, preorder_nil, List.append_nil,
        findRev?_eq_none.mpr barren, if_pos holds]
      rfl
  | beneath listed deeper =>
      cases List.mem_singleton.mp listed
      obtain ⟨other, reordered, last⟩ := deeper.brought_last
      refine ⟨other, reordered, ?_⟩
      rw [preorder_cons, findRev?_cons, preorder_nil, List.append_nil, last]
      rfl

/-- Some order of the siblings shows the pair. -/
theorem Ends.brought_together {q p : α → Bool} {forest : List (Rose α)} {early late : α}
    (ends : Ends q p forest early late) :
    ∃ other, Reordered forest other ∧ (preorder other).find? q = some early ∧
      (preorder other).findRev? p = some late := by
  have unseen : ∀ others : List (Rose α), (∀ label ∈ preorder others, q label = false) →
      (preorder others).find? q = none := by
    intro others absent
    rw [List.find?_eq_none]
    intro label member
    simp [absent label member]
  have moved : ∀ {forest others : List (Rose α)} {node : Rose α},
      forest.Perm (node :: others) → forest.Perm (others ++ [node]) := fun listed =>
    listed.trans (List.perm_append_singleton _ _).symm
  induction ends with
  | @apart forest others front back early late listed opening closing =>
      obtain ⟨front', sameFront, first⟩ := opening.brought_first
      obtain ⟨back', sameBack, last⟩ := closing.brought_last
      have placed : Reordered forest (front' ++ (others ++ back')) :=
        (Reordered.of_perm (listed.trans ((moved (.refl _)).cons front))).trans
          ((sameFront.append_right (others ++ [back])).trans
            (.append_left front' (.append_left others sameBack)))
      refine ⟨_, placed, ?_, ?_⟩
      · rw [preorder_append, List.find?_append, first, Option.some_or]
      · rw [preorder_append, preorder_append, findRev?_append, findRev?_append, last]
        rfl
  | @within forest kids others label late listed absent holds closing =>
      obtain ⟨kids', sameKids, last⟩ := closing.brought_last_beneath
      refine ⟨others ++ [.node label kids'], (Reordered.of_perm (moved listed)).trans
        (.append_left others (.kids label [] sameKids)), ?_, ?_⟩
      · rw [preorder_append, List.find?_append, unseen others absent, Option.none_or,
          preorder_cons, List.find?_cons, holds]
      · rw [preorder_append, findRev?_append, last, Option.some_or]
  | @beneath forest kids others label early late listed absent fails _ ih =>
      obtain ⟨kids', sameKids, first, last⟩ := ih
      refine ⟨others ++ [.node label kids'], (Reordered.of_perm (moved listed)).trans
        (.append_left others (.kids label [] sameKids)), ?_, ?_⟩
      · rw [preorder_append, List.find?_append, unseen others absent, Option.none_or,
          preorder_cons, List.find?_cons, fails, preorder_nil, List.append_nil]
        exact first
      · rw [preorder_append, findRev?_append, preorder_cons, findRev?_cons, preorder_nil,
          List.append_nil, last]
        rfl

end RoseForest
