/-
XML as a sequence of tags with the texts between them, and its references.

A text in which the five characters of markup are escaped reads back as itself, and
replacing something in a document that can hold no angle bracket leaves its tags alone.
-/

import KlaayGuard.Library.HexText
import KlaayGuard.Library.TextReplace

set_option autoImplicit false

namespace XmlText

open RustText

def quote : Char := Char.ofNat 34

def apostrophe : Char := Char.ofNat 39

def charOf (number : Nat) : Option Char :=
  if number.isValidChar then some (Char.ofNat number) else none

def reference (name : List Char) : Option Char :=
  match String.ofList name with
  | "amp" => some '&'
  | "lt" => some '<'
  | "gt" => some '>'
  | "quot" => some quote
  | "apos" => some apostrophe
  | _ =>
      match name with
      | '#' :: 'x' :: digits =>
          if digits ≠ [] ∧ digits.all isAsciiHexdigit then charOf (HexText.value digits) else none
      | '#' :: digits =>
          if digits ≠ [] ∧ digits.all isAsciiDigit then charOf (decimalValue digits) else none
      | _ => none

/-- The text from a place on; inside a reference, what it has so far, the last character
first. -/
def unescapeFrom : Option (List Char) → List Char → Option (List Char)
  | none, [] => some []
  | some _, [] => none
  | none, c :: rest =>
      if c = '&' then unescapeFrom (some []) rest else (unescapeFrom none rest).map (c :: ·)
  | some name, c :: rest =>
      if c = ';' then
        (reference name.reverse).bind fun d => (unescapeFrom none rest).map (d :: ·)
      else unescapeFrom (some (c :: name)) rest

/-- The characters that a text stands for, where all of its references are well formed. -/
def unescape (text : List Char) : Option (List Char) := unescapeFrom none text

def escapeChar (c : Char) : List Char :=
  if c = '&' then "&amp;".toList
  else if c = '<' then "&lt;".toList
  else if c = '>' then "&gt;".toList
  else if c = quote then "&quot;".toList
  else if c = apostrophe then "&apos;".toList
  else [c]

def escape (text : List Char) : List Char := text.flatMap escapeChar

theorem unescapeFrom_escapeChar (c : Char) (rest : List Char) :
    unescapeFrom none (escapeChar c ++ rest) = (unescapeFrom none rest).map (c :: ·) := by
  rw [escapeChar]
  split_ifs with amp lt gt quot apos
  · subst amp; rfl
  · subst lt; rfl
  · subst gt; rfl
  · subst quot; rfl
  · subst apos; rfl
  · rw [List.singleton_append, unescapeFrom, if_neg amp]

theorem unescape_escape_append (text rest : List Char) :
    unescape (escape text ++ rest) = (unescape rest).map (text ++ ·) := by
  induction text with
  | nil => exact Option.map_id'.symm
  | cons c text ih =>
      rw [escape, List.flatMap_cons, ← escape, List.append_assoc, unescape,
        unescapeFrom_escapeChar, ← unescape, ih, Option.map_map]
      rfl

theorem unescape_of_plain {text : List Char} (plain : '&' ∉ text) : unescape text = some text := by
  induction text with
  | nil => rfl
  | cons c rest ih =>
      have later := ih fun member => plain (List.mem_cons_of_mem _ member)
      have other : c ≠ '&' := by
        rintro rfl
        exact plain List.mem_cons_self
      rw [unescape, unescapeFrom, if_neg other, ← unescape, later]
      rfl

theorem unescape_escape (text : List Char) : unescape (escape text) = some text := by
  have whole := unescape_escape_append text []
  rwa [List.append_nil, unescape_of_plain List.not_mem_nil, Option.map_some,
    List.append_nil] at whole

theorem not_mem_escape (text : List Char) : '<' ∉ escape text ∧ '>' ∉ escape text := by
  have each : ∀ c, '<' ∉ escapeChar c ∧ '>' ∉ escapeChar c := by
    intro c
    rw [escapeChar]
    split_ifs with amp lt gt quot apos
    · decide
    · decide
    · decide
    · decide
    · decide
    · simp only [List.mem_singleton]
      exact ⟨fun same => lt same.symm, fun same => gt same.symm⟩
  constructor
  · intro member
    obtain ⟨c, _, inside⟩ := List.mem_flatMap.mp member
    exact (each c).1 inside
  · intro member
    obtain ⟨c, _, inside⟩ := List.mem_flatMap.mp member
    exact (each c).2 inside

/-- A tag, as it stands between its angle brackets, and the text behind it. -/
def afterTag (piece : List Char) : List Char × List Char :=
  (piece.takeWhile (· ≠ '>'), (piece.dropWhile (· ≠ '>')).drop 1)

def elements (doc : List Char) : List (List Char × List Char) :=
  (doc.splitOnP (· == '<')).tail.map afterTag

def tags (doc : List Char) : List (List Char) := (elements doc).map Prod.fst

section Replacing

variable {pattern replacement : List Char}

structure Textual (pattern replacement : List Char) : Prop where
  nonempty : pattern ≠ []
  noOpening : '<' ∉ pattern
  noClosing : '>' ∉ pattern
  newNoOpening : '<' ∉ replacement
  newNoClosing : '>' ∉ replacement

theorem afterTag_closed {tag : List Char} (unclosed : '>' ∉ tag) (text : List Char) :
    afterTag (tag ++ '>' :: text) = (tag, text) := by
  have inside : ∀ c ∈ tag, decide (c ≠ '>') = true := by
    intro c member
    rw [decide_eq_true_eq]
    rintro rfl
    exact unclosed member
  rw [afterTag, List.takeWhile_append_of_pos inside, List.dropWhile_append_of_pos inside]
  simp

theorem afterTag_unclosed {piece : List Char} (unclosed : '>' ∉ piece) :
    afterTag piece = (piece, []) := by
  have inside : ∀ c ∈ piece, decide (c ≠ '>') = true := by
    intro c member
    rw [decide_eq_true_eq]
    rintro rfl
    exact unclosed member
  rw [afterTag, List.takeWhile_eq_self_iff.mpr inside, List.dropWhile_eq_nil_iff.mpr inside]
  rfl

theorem Textual.afterTag_replace (textual : Textual pattern replacement) (piece : List Char) :
    afterTag (replace pattern replacement piece) =
      (replace pattern replacement (afterTag piece).1,
        replace pattern replacement (afterTag piece).2) := by
  have closing : ∀ {text : List Char}, '>' ∉ text → '>' ∉ replace pattern replacement text :=
    fun outside member => (mem_replace member).elim outside textual.newNoClosing
  by_cases closed : '>' ∈ piece
  · obtain ⟨tag, text, rfl, unclosed⟩ := List.eq_append_cons_of_mem closed
    rw [replace_append_outside textual.noClosing textual.nonempty, afterTag_closed unclosed,
      afterTag_closed (closing unclosed)]
  · rw [afterTag_unclosed closed, afterTag_unclosed (closing closed)]
    rfl

theorem Textual.elements_replace (textual : Textual pattern replacement) (doc : List Char) :
    elements (replace pattern replacement doc) = (elements doc).map fun element =>
      (replace pattern replacement element.1, replace pattern replacement element.2) := by
  rw [elements, splitOnP_replace textual.noOpening textual.nonempty textual.newNoOpening,
    ← List.map_tail, List.map_map, elements, List.map_map]
  exact List.map_congr_left fun piece _ => textual.afterTag_replace piece

end Replacing

end XmlText
