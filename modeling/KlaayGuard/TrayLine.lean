/-
A name in the tray is one safe line.

The line is spaced text without anything that separates words but the space, and what
makes a label of it keeps it so.
-/

import KlaayGuard.TrayLabel
import KlaayGuard.Library.SpacedText

set_option autoImplicit false

namespace KlaayGuard

open RustText SpacedText

variable {crates : Crates}

/-- Unicode's general category of the two characters that the code puts into a label itself. -/
structure MarksPaint (crates : Crates) : Prop where
  space : crates.isFormat ' ' = false
  ellipsis : crates.isFormat '…' = false

/-- What a menu item can hold. -/
structure SafeLine (crates : Crates) (label : String) : Prop where
  nonempty : 1 ≤ label.toList.length
  short : label.toList.length ≤ labelMaxChars
  noControl : ∀ c ∈ label.toList, isControl c = false
  onlySpace : ∀ c ∈ label.toList, isWhitespace c = true → c = ' '
  paints : ∀ c ∈ label.toList, paintsNothing crates c = false
  spaced : Spaced ' ' label.toList

/-- A reply that says no more than a first name. -/
def OnlyFirstName (me : Value) (name : String) : Prop :=
  (me.get "data").bind (fun data => data.get "attributes") =
    some (.object [("first_name", .string name)])

def separates (crates : Crates) (c : Char) : Bool :=
  isControl c || isWhitespace c || paintsNothing crates c

theorem separates_space : separates crates ' ' = true := by
  simp [separates, isWhitespace]

structure IsLine (crates : Crates) (line : List Char) : Prop where
  spaced : Spaced ' ' line
  words : ∀ c ∈ line, separates crates c = true → c = ' '

theorem isLine_oneLine (value : String) : IsLine crates (oneLine crates value).toList := by
  have pieces : ∀ part ∈
      (value.toList.splitOnP (separates crates)).filter (fun part => !part.isEmpty),
      part ≠ [] ∧ ∀ c ∈ part, separates crates c = false := by
    intro part member
    obtain ⟨piece, nonempty⟩ := List.mem_filter.mp member
    refine ⟨?_, fun c inPart => (mem_of_mem_splitOnP piece inPart).2⟩
    rintro rfl
    cases nonempty
  rw [oneLine, String.toList_ofList]
  constructor
  · refine Spaced.intercalate (fun part member => (pieces part member).1) ?_
    intro part member space
    have apart := (pieces part member).2 ' ' space
    rw [separates_space] at apart
    cases apart
  · intro c member separating
    rcases mem_intercalate member with space | ⟨part, listed, inPart⟩
    · exact space
    · have apart := (pieces part listed).2 c inPart
      rw [apart] at separating
      cases separating

theorem IsLine.join {front back : List Char} (frontLine : IsLine crates front)
    (backLine : IsLine crates back) (frontNonempty : front ≠ []) (backNonempty : back ≠ []) :
    IsLine crates (front ++ ' ' :: back) where
  spaced := frontLine.spaced.join backLine.spaced frontNonempty backNonempty
  words := by
    intro c member separating
    rcases List.mem_append.mp member with inFront | behind
    · exact frontLine.words c inFront separating
    · rcases List.mem_cons.mp behind with space | inBack
      · exact space
      · exact backLine.words c inBack separating

theorem separates_ellipsis (marks : MarksPaint crates) : separates crates '…' = false := by
  simp [separates, isControl, isWhitespace, paintsNothing, bindsWithoutPainting, marks.ellipsis]

theorem IsLine.cut (marks : MarksPaint crates) {line : List Char} (isLine : IsLine crates line)
    (count : Nat) : IsLine crates (line.take count ++ ['…']) where
  spaced := isLine.spaced.cut (by decide) count
  words := by
    intro c member separating
    rcases List.mem_append.mp member with kept | mark
    · exact isLine.words c (List.mem_of_mem_take kept) separating
    · rw [List.mem_singleton.mp mark, separates_ellipsis marks] at separating
      cases separating

theorem IsLine.oneLine {line : String} (isLine : IsLine crates line.toList) :
    KlaayGuard.oneLine crates line = line := by
  have cuts : line.toList.splitOnP (separates crates) = line.toList.splitOn ' ' := by
    rw [List.splitOn_eq_splitOnP]
    refine splitOnP_congr fun c member => ?_
    rw [Bool.eq_iff_iff, beq_iff_eq]
    constructor
    · exact isLine.words c member
    · rintro rfl
      exact separates_space
  by_cases empty : line.toList = []
  · rw [String.toList_eq_nil_iff] at empty
    rw [empty]
    rfl
  · have all : (line.toList.splitOn ' ').filter (fun part => !part.isEmpty) =
        line.toList.splitOn ' ' := by
      rw [List.filter_eq_self]
      intro part member
      simpa using isLine.spaced.pieces empty part member
    change String.ofList ([' '].intercalate
      ((line.toList.splitOnP (separates crates)).filter fun part => !part.isEmpty)) = line
    rw [cuts, all, List.intercalate_splitOn, String.ofList_toList]

/-- A line that somebody can see. -/
structure Shown (crates : Crates) (line : String) : Prop where
  isLine : IsLine crates line.toList
  painted : line.toList.any (fun c => !bindsWithoutPainting c) = true

theorem Shown.ne_nil {line : String} (shown : Shown crates line) : line.toList ≠ [] := by
  intro empty
  have painted := shown.painted
  rw [empty] at painted
  cases painted

theorem Shown.labelField {line : String} (shown : Shown crates line) {attributes : Value}
    {key : String} (held : attributes.stringAt key = some line) :
    KlaayGuard.labelField crates attributes key = some line := by
  rw [KlaayGuard.labelField, held, Option.map_some, shown.isLine.oneLine]
  exact Option.filter_some_pos shown.painted

theorem shown_labelField {attributes : Value} {key line : String}
    (field : labelField crates attributes key = some line) : Shown crates line := by
  rw [labelField, Option.filter_eq_some_iff] at field
  obtain ⟨read, painted⟩ := field
  obtain ⟨value, _, rfl⟩ := Option.map_eq_some_iff.mp read
  exact ⟨isLine_oneLine value, painted⟩

theorem Shown.join {front back : String} (frontShown : Shown crates front)
    (backShown : Shown crates back) : Shown crates (front ++ " " ++ back) := by
  have text : (front ++ " " ++ back).toList = front.toList ++ ' ' :: back.toList := by
    simp [String.toList_append]
  constructor
  · rw [text]
    exact frontShown.isLine.join backShown.isLine frontShown.ne_nil backShown.ne_nil
  · rw [text, List.any_append, frontShown.painted, Bool.true_or]

theorem capLabel_of_short {line : String} (short : line.toList.length ≤ labelMaxChars) :
    capLabel line = line :=
  if_pos short

theorem capLabel_short (line : String) : (capLabel line).toList.length ≤ labelMaxChars := by
  rw [capLabel]
  split
  · assumption
  · rw [String.toList_ofList, List.length_append, List.length_take, List.length_singleton,
      labelMaxChars]
    omega

theorem Shown.capLabel (marks : MarksPaint crates) {line : String} (shown : Shown crates line) :
    Shown crates (KlaayGuard.capLabel line) := by
  rw [KlaayGuard.capLabel]
  split
  · exact shown
  · constructor
    · rw [String.toList_ofList]
      exact shown.isLine.cut marks _
    · rw [String.toList_ofList, List.any_append]
      exact Bool.or_eq_true_iff.mpr (.inr (by decide))

theorem shown_fullName {first last : Option String} (firstShown : ∀ line ∈ first, Shown crates line)
    (lastShown : ∀ line ∈ last, Shown crates line)
    (named : " ".intercalate [first, last].reduceOption ≠ "") :
    Shown crates (" ".intercalate [first, last].reduceOption) := by
  cases first with
  | none =>
      cases last with
      | none => exact absurd rfl named
      | some back =>
          change Shown crates (" ".intercalate [back])
          rw [String.intercalate_singleton]
          exact lastShown back rfl
  | some front =>
      cases last with
      | none =>
          change Shown crates (" ".intercalate [front])
          rw [String.intercalate_singleton]
          exact firstShown front rfl
      | some back =>
          change Shown crates (" ".intercalate [front, back])
          rw [String.intercalate_cons_cons, String.intercalate_singleton]
          exact (firstShown front rfl).join (lastShown back rfl)

theorem shown_identityLabel {me : Value} {label : String}
    (labelled : identityLabel crates me = some label) :
    ∃ line, Shown crates line ∧ label = capLabel line := by
  rw [identityLabel] at labelled
  split at labelled
  · cases labelled
  · dsimp only at labelled
    split at labelled
    · rename_i named
      have shown := shown_fullName (fun line field => shown_labelField field)
        (fun line field => shown_labelField field) named
      exact ⟨_, shown, (Option.some.inj labelled).symm⟩
    · obtain ⟨line, field, capped⟩ := Option.map_eq_some_iff.mp labelled
      exact ⟨line, shown_labelField field, capped.symm⟩

theorem identityLabel_onlyFirstName {me : Value} {name : String} (only : OnlyFirstName me name)
    (shown : Shown crates name) (short : name.toList.length ≤ labelMaxChars) :
    identityLabel crates me = some name := by
  have first : labelField crates (.object [("first_name", .string name)]) "first_name" =
      some name := shown.labelField rfl
  have last : labelField crates (.object [("first_name", .string name)]) "last_name" = none := rfl
  have fullName : " ".intercalate [some name, none].reduceOption = name :=
    String.intercalate_singleton
  have named : name ≠ "" := mt String.toList_eq_nil_iff.mpr shown.ne_nil
  rw [identityLabel, only]
  dsimp only
  rw [first, last, fullName, if_pos named, capLabel_of_short short]

theorem Shown.safeLine {line : String} (shown : Shown crates line) (marks : MarksPaint crates)
    (short : line.toList.length ≤ labelMaxChars) : SafeLine crates line where
  nonempty := List.length_pos_iff.mpr shown.ne_nil
  short := short
  noControl := by
    intro c member
    by_contra control
    rw [Bool.not_eq_false] at control
    have space := shown.isLine.words c member (by simp [separates, control])
    rw [space] at control
    cases control
  onlySpace := fun c member blank =>
    shown.isLine.words c member (by simp [separates, blank])
  paints := by
    intro c member
    by_contra hidden
    rw [Bool.not_eq_false] at hidden
    have space := shown.isLine.words c member (by simp [separates, hidden])
    simp [space, paintsNothing, bindsWithoutPainting, marks.space] at hidden
  spaced := shown.isLine.spaced

/-- Every label is one safe line, and a name that is a label already is shown as it is. -/
theorem identityLabel_safe (marks : MarksPaint crates) {me : Value} {label : String}
    (labelled : identityLabel crates me = some label) :
    SafeLine crates label ∧
      ∀ reply, OnlyFirstName reply label → identityLabel crates reply = some label := by
  obtain ⟨line, lineShown, rfl⟩ := shown_identityLabel labelled
  have shown := lineShown.capLabel marks
  have short := capLabel_short line
  exact ⟨shown.safeLine marks short,
    fun reply only => identityLabel_onlyFirstName only shown short⟩

/-- The marks, embeddings, overrides and isolates of bidirectional text, as the table has them. -/
def bidiTable : Crates :=
  { Crates.uncalled with
    isFormat := fun c =>
      let n := c.toNat
      n == 0x061C || (0x200E ≤ n && n ≤ 0x200F) || (0x202A ≤ n && n ≤ 0x202E) ||
        (0x2066 ≤ n && n ≤ 0x2069) }

def restyledReply : Value :=
  .object [("data", .object [("attributes", .object [
    ("first_name", .string ("Emil\n" ++ String.ofList [Char.ofNat 0x202E] ++ "Sign out")),
    ("last_name", .string " Kampp ")])])]

theorem identityLabel_safe_restyled :
    SafeLine bidiTable "Emil Sign out Kampp" ∧
      ∀ reply, OnlyFirstName reply "Emil Sign out Kampp" →
        identityLabel bidiTable reply = some "Emil Sign out Kampp" := by
  have marks : MarksPaint bidiTable := ⟨by decide, by decide⟩
  have labelled : identityLabel bidiTable restyledReply = some "Emil Sign out Kampp" := by
    decide +kernel
  exact identityLabel_safe marks labelled

end KlaayGuard
