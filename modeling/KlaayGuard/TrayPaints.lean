/-
When a name in the tray shows anything that its holder typed.

A label is made of the words of the chosen fields with one blank between them, and cut
where it is long.  A field is chosen for a character of its line that does not join, and
the blank between two words is one, so words of joiners alone make a label too; and what
the cut leaves can be joiners and blanks.
-/

import KlaayGuard.TrayLine

set_option autoImplicit false

namespace KlaayGuard

open RustText SpacedText

variable (crates : Crates)

def paints (c : Char) : Bool := !separates crates c && !bindsWithoutPainting c

def wordsOf (value : String) : List (List Char) :=
  (value.toList.splitOnP (separates crates)).filter fun part => !part.isEmpty

/-- Words that the code takes for something to show: two of them, or one that paints. -/
def counts (words : List (List Char)) : Bool :=
  1 < words.length || words.any (·.any (paints crates))

def fieldWords (attributes : Value) (key : String) : List (List Char) :=
  match attributes.stringAt key with
  | some value => if counts crates (wordsOf crates value) then wordsOf crates value else []
  | none => []

def nameWords (attributes : Value) : List (List Char) :=
  fieldWords crates attributes "first_name" ++ fieldWords crates attributes "last_name"

/-- The fields that the label is made of: the name where it has any word. -/
def chosenFields (attributes : Value) : List String :=
  if nameWords crates attributes ≠ [] then ["first_name", "last_name"] else ["email"]

def chosenWords (attributes : Value) : List (List Char) :=
  (chosenFields crates attributes).flatMap (fieldWords crates attributes)

def chosenLine (attributes : Value) : List Char := [' '].intercalate (chosenWords crates attributes)

/-- The label is a beginning of the line, marked where it is not all of it, and in that
beginning stands a character of a chosen field's value that paints. -/
def ShowsTyped (attributes : Value) (label : String) : Prop :=
  ∃ kept, kept <+: chosenLine crates attributes ∧
    label.toList = kept ++ (if kept = chosenLine crates attributes then [] else ['…']) ∧
    ∃ c ∈ kept, paints crates c = true ∧
      ∃ key ∈ chosenFields crates attributes, ∃ value,
        attributes.stringAt key = some value ∧ c ∈ value.toList

def attributesOf (me : Value) : Option Value :=
  (me.get "data").bind fun data => data.get "attributes"

def LabelPaints (me : Value) : Prop :=
  ∀ label, identityLabel crates me = some label →
    ∃ attributes ∈ attributesOf me, ShowsTyped crates attributes label

def PaintsEarly (line : List Char) : Prop :=
  ∃ before c after, line = before ++ c :: after ∧ paints crates c = true ∧
    (before.length < labelMaxChars - 1 ∨ (before.length = labelMaxChars - 1 ∧ after = []))

variable {crates}

/-! ### The label by its words -/

theorem oneLine_eq (value : String) :
    oneLine crates value = String.ofList ([' '].intercalate (wordsOf crates value)) := rfl

theorem wordsOf_nonempty {value : String} : ∀ word ∈ wordsOf crates value, word ≠ [] := by
  intro word member
  have nonempty := (List.mem_filter.mp member).2
  rintro rfl
  cases nonempty

theorem mem_of_wordsOf {value : String} {word : List Char} (member : word ∈ wordsOf crates value)
    {c : Char} (inWord : c ∈ word) : c ∈ value.toList ∧ separates crates c = false :=
  mem_of_mem_splitOnP (List.mem_filter.mp member).1 inWord

theorem any_oneLine (value : String) :
    (oneLine crates value).toList.any (fun c => !bindsWithoutPainting c) =
      counts crates (wordsOf crates value) := by
  have same : (wordsOf crates value).any (·.any fun c => !bindsWithoutPainting c) =
      (wordsOf crates value).any (·.any (paints crates)) := by
    rw [Bool.eq_iff_iff]
    simp only [List.any_eq_true]
    constructor
    · rintro ⟨word, member, c, inWord, shown⟩
      have apart := (mem_of_wordsOf member inWord).2
      exact ⟨word, member, c, inWord, by simpa [paints, apart] using shown⟩
    · rintro ⟨word, member, c, inWord, shown⟩
      exact ⟨word, member, c, inWord, (Bool.and_eq_true_iff.mp shown).2⟩
  rw [oneLine_eq, String.toList_ofList, any_intercalate (by decide), same]
  rfl

def lineOf (words : List (List Char)) : Option String :=
  if words = [] then none else some (String.ofList ([' '].intercalate words))

theorem labelField_eq (attributes : Value) (key : String) :
    labelField crates attributes key = lineOf (fieldWords crates attributes key) := by
  rw [labelField, fieldWords]
  cases attributes.stringAt key with
  | none => rfl
  | some value =>
      rw [Option.map_some, Option.filter_some, any_oneLine]
      dsimp only
      by_cases counted : counts crates (wordsOf crates value) = true
      · have some : wordsOf crates value ≠ [] := by
          intro none
          rw [none] at counted
          cases counted
        rw [if_pos counted, if_pos counted, lineOf, if_neg some, oneLine_eq]
      · rw [if_neg counted, if_neg counted]
        rfl

theorem join_lineOf (front back : List (List Char)) :
    " ".intercalate [lineOf front, lineOf back].reduceOption =
      String.ofList ([' '].intercalate (front ++ back)) := by
  by_cases frontNone : front = []
  · subst frontNone
    by_cases backNone : back = []
    · subst backNone
      rfl
    · rw [lineOf, if_pos rfl, lineOf, if_neg backNone]
      exact String.intercalate_singleton
  · by_cases backNone : back = []
    · subst backNone
      rw [lineOf, if_neg frontNone, lineOf, if_pos rfl, List.append_nil]
      exact String.intercalate_singleton
    · rw [lineOf, if_neg frontNone, lineOf, if_neg backNone,
        intercalate_append frontNone backNone]
      change " ".intercalate [_, _] = _
      rw [String.intercalate_cons_cons, String.intercalate_singleton]
      apply String.toList_inj.mp
      simp [String.toList_append]

theorem fieldWords_nonempty {attributes : Value} {key : String} :
    ∀ word ∈ fieldWords crates attributes key, word ≠ [] := by
  intro word member
  rw [fieldWords] at member
  split at member
  · split at member
    · exact wordsOf_nonempty word member
    · cases member
  · cases member

theorem chosenWords_eq (attributes : Value) :
    chosenWords crates attributes =
      if nameWords crates attributes ≠ [] then nameWords crates attributes
      else fieldWords crates attributes "email" := by
  rw [chosenWords, chosenFields]
  split
  · rw [List.flatMap_cons, List.flatMap_cons, List.flatMap_nil, List.append_nil, nameWords]
  · rw [List.flatMap_cons, List.flatMap_nil, List.append_nil]

theorem identityLabel_eq {me attributes : Value}
    (found : attributesOf me = some attributes) :
    identityLabel crates me = (lineOf (chosenWords crates attributes)).map capLabel := by
  rw [identityLabel, ← attributesOf, found]
  dsimp only
  rw [labelField_eq, labelField_eq, labelField_eq, join_lineOf, ← nameWords, chosenWords_eq]
  by_cases named : nameWords crates attributes = []
  · rw [named, if_neg (not_not.mpr rfl)]
    exact if_neg (not_not.mpr rfl)
  · have nonempty : ∀ word ∈ nameWords crates attributes, word ≠ [] := by
      intro word member
      exact (List.mem_append.mp member).elim (fieldWords_nonempty word) (fieldWords_nonempty word)
    have shown : String.ofList ([' '].intercalate (nameWords crates attributes)) ≠ "" := by
      rw [Ne, String.ofList_eq_empty_iff]
      exact intercalate_ne_nil named nonempty
    rw [if_pos named, if_pos shown, lineOf, if_neg named, Option.map_some]

theorem toList_capLabel (line : String) :
    (capLabel line).toList =
      if line.toList.length ≤ labelMaxChars then line.toList
      else line.toList.take (labelMaxChars - 1) ++ ['…'] := by
  rw [capLabel]
  split
  · rfl
  · rw [String.toList_ofList]

def keptPart (line : List Char) : List Char :=
  if line.length ≤ labelMaxChars then line else line.take (labelMaxChars - 1)

theorem keptPart_marked (line : List Char) :
    keptPart line <+: line ∧
      (capLabel (String.ofList line)).toList =
        keptPart line ++ (if keptPart line = line then [] else ['…']) := by
  rw [toList_capLabel, String.toList_ofList, keptPart]
  split
  · rw [if_pos rfl, List.append_nil]
    exact ⟨List.prefix_rfl, rfl⟩
  · rename_i long
    have shorter : line.take (labelMaxChars - 1) ≠ line := by
      intro same
      have lengths := congrArg List.length same
      rw [List.length_take] at lengths
      rw [labelMaxChars] at long lengths
      omega
    rw [if_neg shorter]
    exact ⟨List.take_prefix _ _, rfl⟩

theorem mem_keptPart {line kept : List Char} (starts : kept <+: line)
    (marked : (capLabel (String.ofList line)).toList =
      kept ++ (if kept = line then [] else ['…'])) {c : Char} (member : c ∈ kept) :
    c ∈ keptPart line := by
  rw [toList_capLabel, String.toList_ofList] at marked
  rw [keptPart]
  split
  · exact starts.subset member
  · rename_i long
    rw [if_neg long] at marked
    by_cases whole : kept = line
    · have lengths := congrArg List.length marked
      rw [if_pos whole, whole, List.length_append, List.length_append, List.length_take]
        at lengths
      simp only [labelMaxChars, List.length_cons, List.length_nil] at long lengths
      omega
    · rw [if_neg whole] at marked
      rw [(List.append_inj_left' marked rfl)]
      exact member

theorem paintsEarly_iff {line : List Char} :
    PaintsEarly crates line ↔ ∃ c ∈ keptPart line, paints crates c = true := by
  rw [keptPart]
  constructor
  · rintro ⟨before, c, after, rfl, painted, early⟩
    refine ⟨c, ?_, painted⟩
    split
    · simp
    · rename_i long
      simp only [labelMaxChars, List.length_append, List.length_cons] at early long
      have inside : before.length < 47 := by
        rcases early with early | ⟨atEnd, rfl⟩
        · exact early
        · rw [List.length_nil] at long
          omega
      rw [List.mem_take_iff_getElem]
      refine ⟨before.length, ?_, by simp⟩
      rw [labelMaxChars, List.length_append, List.length_cons]
      omega
  · rintro ⟨c, member, painted⟩
    split at member
    · rename_i short
      obtain ⟨before, after, rfl⟩ := List.append_of_mem member
      refine ⟨before, c, after, rfl, painted, ?_⟩
      rw [labelMaxChars, List.length_append, List.length_cons] at short
      rw [labelMaxChars, ← List.length_eq_zero_iff]
      omega
    · obtain ⟨before, after, kept⟩ := List.append_of_mem member
      refine ⟨before, c, after ++ line.drop (labelMaxChars - 1), ?_, painted, Or.inl ?_⟩
      · rw [← List.cons_append, ← List.append_assoc, ← kept, List.take_append_drop]
      · have lengths := congrArg List.length kept
        rw [List.length_take, List.length_append, List.length_cons] at lengths
        omega

theorem typed_of_paints {attributes : Value} {c : Char}
    (member : c ∈ chosenLine crates attributes) (painted : paints crates c = true) :
    ∃ key ∈ chosenFields crates attributes, ∃ value,
      attributes.stringAt key = some value ∧ c ∈ value.toList := by
  rcases mem_intercalate member with rfl | ⟨word, listed, inWord⟩
  · rw [paints, separates_space] at painted
    cases painted
  · obtain ⟨key, chosen, inField⟩ := List.mem_flatMap.mp listed
    refine ⟨key, chosen, ?_⟩
    rw [fieldWords] at inField
    split at inField
    · rename_i value held
      split at inField
      · exact ⟨value, held, (mem_of_wordsOf inField inWord).1⟩
      · cases inField
    · cases inField

/-- A label shows something that was typed exactly where there is none or a character
that paints stands early enough in the chosen line. -/
theorem label_paints_iff (crates : Crates) (me : Value) :
    LabelPaints crates me ↔ ∀ attributes ∈ attributesOf me,
      chosenWords crates attributes = [] ∨ PaintsEarly crates (chosenLine crates attributes) := by
  cases found : attributesOf me with
  | none =>
      have unnamed : identityLabel crates me = none := by
        rw [identityLabel, ← attributesOf, found]
      constructor
      · intro _ attributes member
        cases member
      · intro _ label labelled
        rw [unnamed] at labelled
        cases labelled
  | some attributes =>
      have labelled : identityLabel crates me = _ := identityLabel_eq found
      rw [lineOf] at labelled
      by_cases unnamed : chosenWords crates attributes = []
      · rw [if_pos unnamed] at labelled
        constructor
        · rintro _ _ ⟨⟩
          exact Or.inl unnamed
        · intro _ label named
          rw [labelled] at named
          cases named
      · rw [if_neg unnamed, Option.map_some] at labelled
        obtain ⟨starts, marked⟩ := keptPart_marked (chosenLine crates attributes)
        constructor
        · rintro shows _ ⟨⟩
          obtain ⟨other, alsoFound, kept, keptStarts, keptMarked, c, member, painted, _⟩ :=
            shows _ labelled
          obtain rfl := Option.some.inj (found.symm.trans alsoFound)
          exact Or.inr (paintsEarly_iff.mpr ⟨c, mem_keptPart keptStarts keptMarked member, painted⟩)
        · intro early label named
          rw [labelled] at named
          obtain ⟨c, member, painted⟩ :=
            paintsEarly_iff.mp ((early attributes rfl).resolve_left unnamed)
          refine ⟨attributes, found, _, starts, ?_, c, member, painted,
            typed_of_paints (starts.subset member) painted⟩
          rw [← Option.some.inj named]
          exact marked

def joinersReply : Value :=
  .object [("data", .object [("attributes", .object [
    ("first_name", .string (String.ofList [Char.ofNat 0x200D, ' ', Char.ofNat 0x200D]))])])]

/-- Two joiners with a blank between them make a label that shows nothing. -/
theorem joiners_make_label : ¬ LabelPaints bidiTable joinersReply := by
  intro paint
  have labelled : identityLabel bidiTable joinersReply =
      some (String.ofList [Char.ofNat 0x200D, ' ', Char.ofNat 0x200D]) := by
    decide +kernel
  obtain ⟨attributes, found, kept, starts, _, c, member, painted, _⟩ := paint _ labelled
  have line : chosenLine bidiTable attributes = [Char.ofNat 0x200D, ' ', Char.ofNat 0x200D] := by
    rw [← Option.some.inj found]
    decide +kernel
  have inLine := starts.subset member
  rw [line] at inLine
  simp only [List.mem_cons, List.not_mem_nil, or_false] at inLine
  rcases inLine with rfl | rfl | rfl <;> exact absurd painted (by decide)

end KlaayGuard
