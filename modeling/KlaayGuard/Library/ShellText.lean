/-
Texts as a POSIX shell keeps lists in them and takes them apart again.

A variable grows by a blank and a word; an expansion outside quotes cuts it into
fields; a `case` pattern asks for a word between two blanks.
-/

import Mathlib.Data.List.DropRight
import Mathlib.Data.List.Infix

set_option autoImplicit false

namespace ShellText

def lineFeed : Char := Char.ofNat 10

def isSeparator (c : Char) : Bool := c == ' ' || c == Char.ofNat 9 || c == lineFeed

def isPatternChar (c : Char) : Bool := c == '*' || c == '?' || c == '['

/-- Field splitting. -/
def fields (text : List Char) : List (List Char) :=
  (text.splitOnP isSeparator).filter (· ≠ [])

/-- `${text%%c*}`. -/
def beforeFirst (c : Char) (text : List Char) : List Char := text.takeWhile (· ≠ c)

/-- `${text##*c}`. -/
def afterLast (c : Char) (text : List Char) : List Char := text.rtakeWhile (· ≠ c)

/-- `case " $text " in *" $word "*)`. -/
def listed (word text : List Char) : Bool :=
  decide (' ' :: word ++ [' '] <:+: ' ' :: text ++ [' '])

/-- What one output line after the other gives in a command substitution. -/
def outputLines (words : List (List Char)) : List Char := [lineFeed].intercalate words

def spaced (words : List (List Char)) : List Char := words.flatMap (' ' :: ·)

/-- A text that stays one field, and itself, outside quotes. -/
structure IsWord (text : List Char) : Prop where
  nonempty : text ≠ []
  whole : ∀ c ∈ text, isSeparator c = false
  literal : ∀ c ∈ text, isPatternChar c = false

variable {text word : List Char} {words : List (List Char)}

theorem isWord_of_all (nonempty : text ≠ [])
    (all : text.all (fun c => !isSeparator c && !isPatternChar c) = true) : IsWord text := by
  have each : ∀ c ∈ text, isSeparator c = false ∧ isPatternChar c = false := by
    intro c member
    have plain := List.all_eq_true.mp all c member
    rwa [Bool.and_eq_true, Bool.not_eq_true', Bool.not_eq_true'] at plain
  exact ⟨nonempty, fun c member => (each c member).1, fun c member => (each c member).2⟩

theorem fields_append (front back : List Char) {c : Char} (cut : isSeparator c = true) :
    fields (front ++ c :: back) = fields front ++ fields back := by
  rw [fields, List.splitOnP_append_cons _ _ cut, List.filter_append]
  rfl

theorem IsWord.fields_eq (isWord : IsWord word) : fields word = [word] := by
  rw [fields, List.splitOnP_eq_singleton isWord.whole]
  simp [isWord.nonempty]

theorem fields_joined {c : Char} (cut : isSeparator c = true)
    (areWords : ∀ word ∈ words, IsWord word) : fields ([c].intercalate words) = words := by
  induction words with
  | nil => rfl
  | cons word words ih =>
      have here := (areWords word List.mem_cons_self).fields_eq
      have later := ih fun other member => areWords other (List.mem_cons_of_mem _ member)
      cases words with
      | nil =>
          rw [List.intercalate_singleton]
          exact here
      | cons next words =>
          rw [List.intercalate_cons_cons, List.append_assoc, List.singleton_append,
            fields_append word _ cut, here]
          exact congrArg (word :: ·) later

theorem fields_outputLines (areWords : ∀ word ∈ words, IsWord word) :
    fields (outputLines words) = words := fields_joined rfl areWords

theorem spaced_cons (word : List Char) (words : List (List Char)) :
    spaced (word :: words) = ' ' :: [' '].intercalate (word :: words) := by
  induction words generalizing word with
  | nil =>
      rw [List.intercalate_singleton]
      exact List.append_nil _
  | cons next words ih =>
      rw [List.intercalate_cons_cons, List.append_assoc, List.singleton_append, ← ih next]
      rfl

theorem fields_spaced (areWords : ∀ word ∈ words, IsWord word) : fields (spaced words) = words := by
  cases words with
  | nil => rfl
  | cons word words =>
      have blank : isSeparator ' ' = true := rfl
      have cut := fields_append [] ([' '].intercalate (word :: words)) blank
      rw [spaced_cons]
      exact cut.trans (fields_joined rfl areWords)

theorem beforeFirst_joined {c : Char} {front : List Char} (plain : c ∉ front) (back : List Char) :
    beforeFirst c (front ++ c :: back) = front := by
  rw [beforeFirst, List.takeWhile_append_of_pos, List.takeWhile_cons_of_neg (by simp),
    List.append_nil]
  intro a member
  simpa using fun same : a = c => plain (same ▸ member)

theorem afterLast_joined {c : Char} {back : List Char} (plain : c ∉ back) (front : List Char) :
    afterLast c (front ++ c :: back) = back := by
  have reversed : c ∉ back.reverse := fun member => plain (List.mem_reverse.mp member)
  have cut := beforeFirst_joined reversed front.reverse
  rw [afterLast, List.rtakeWhile, List.reverse_append, List.reverse_cons, List.append_assoc,
    List.singleton_append]
  exact (congrArg List.reverse cut).trans (List.reverse_reverse back)

theorem listed_here (text word : List Char) : listed word (text ++ ' ' :: word) = true := by
  rw [listed, decide_eq_true_eq]
  exact ⟨' ' :: text, [], by simp⟩

theorem listed_more (found : listed word text = true) (more : List Char) :
    listed word (text ++ ' ' :: more) = true := by
  rw [listed, decide_eq_true_eq] at found ⊢
  obtain ⟨before, after, whole⟩ := found
  exact ⟨before, after ++ more ++ [' '], by
    rw [← List.append_assoc, ← List.append_assoc, whole]
    simp⟩

def grown {α : Type} (wordOf : α → List Char) (items : List α) (text : List Char) : List Char :=
  items.foldl (fun text item => text ++ ' ' :: wordOf item) text

theorem listed_grown_of_listed {α : Type} (wordOf : α → List Char) (items : List α)
    (found : listed word text = true) : listed word (grown wordOf items text) = true := by
  induction items generalizing text with
  | nil => exact found
  | cons item rest ih => exact ih (listed_more found _)

theorem listed_grown {α : Type} (wordOf : α → List Char) {items : List α} {item : α}
    (member : item ∈ items) (text : List Char) :
    listed (wordOf item) (grown wordOf items text) = true := by
  induction items generalizing text with
  | nil => cases member
  | cons head rest ih =>
      rcases List.mem_cons.mp member with rfl | member
      · exact listed_grown_of_listed wordOf rest (listed_here text _)
      · exact ih member _

end ShellText
