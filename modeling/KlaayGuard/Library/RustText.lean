/-
The string operations of the Rust standard library, on lists of characters.

A Rust string is a sequence of Unicode scalar values, which is what a list of
characters is.  Only the decoding of bytes depends on the UTF-8 encoding.  Each
operation comes with the decomposition facts that its callers use, so that they
never unfold it.
-/

import Mathlib.Data.List.DropRight
import Mathlib.Data.List.Infix

set_option autoImplicit false

namespace RustText

/-- `char::is_whitespace`: the Unicode property `White_Space`. -/
def isWhitespace (c : Char) : Bool :=
  let n := c.toNat
  (9 ≤ n && n ≤ 13) || n == 32 || n == 0x85 || n == 0xA0 || n == 0x1680 ||
    (0x2000 ≤ n && n ≤ 0x200A) || n == 0x2028 || n == 0x2029 || n == 0x202F ||
    n == 0x205F || n == 0x3000

/-- `char::is_control`: the general category `Cc`. -/
def isControl (c : Char) : Bool :=
  let n := c.toNat
  n ≤ 0x1F || (0x7F ≤ n && n ≤ 0x9F)

def isAsciiLetter (c : Char) : Bool :=
  let n := c.toNat
  (65 ≤ n && n ≤ 90) || (97 ≤ n && n ≤ 122)

def isAsciiDigit (c : Char) : Bool :=
  let n := c.toNat
  48 ≤ n && n ≤ 57

def isAsciiAlphanumeric (c : Char) : Bool := isAsciiLetter c || isAsciiDigit c

def isAsciiHexdigit (c : Char) : Bool :=
  let n := c.toNat
  isAsciiDigit c || (65 ≤ n && n ≤ 70) || (97 ≤ n && n ≤ 102)

def isAscii (c : Char) : Bool := c.toNat < 128

theorem not_isWhitespace_of_printable {c : Char} (low : 33 ≤ c.toNat) (high : c.toNat ≤ 126) :
    isWhitespace c = false := by
  simp only [isWhitespace, Bool.or_eq_false_iff, Bool.and_eq_false_iff, decide_eq_false_iff_not,
    beq_eq_false_iff_ne]
  omega

theorem printable_of_isAsciiAlphanumeric {c : Char} (alphanumeric : isAsciiAlphanumeric c = true) :
    48 ≤ c.toNat ∧ c.toNat ≤ 122 ∧ c.toNat ≠ 92 := by
  simp only [isAsciiAlphanumeric, isAsciiLetter, isAsciiDigit, Bool.or_eq_true, Bool.and_eq_true,
    decide_eq_true_eq] at alphanumeric
  omega

/-- `str::to_ascii_lowercase`: `Char.toLower` changes the letters `A`–`Z` only. -/
def toAsciiLowercase (text : List Char) : List Char := text.map Char.toLower

theorem toLower_eq_self {c : Char} (notUpper : ¬ (65 ≤ c.toNat ∧ c.toNat ≤ 90)) :
    c.toLower = c := by
  unfold Char.toLower
  rw [dif_neg]
  intro upper
  exact notUpper ⟨upper.1, upper.2⟩

theorem toNat_toLower {c : Char} (upper : 65 ≤ c.toNat ∧ c.toNat ≤ 90) :
    c.toLower.toNat = c.toNat + 32 := by
  have inRange : c.val ≥ 'A'.val ∧ c.val ≤ 'Z'.val := ⟨upper.1, upper.2⟩
  unfold Char.toLower
  rw [dif_pos inRange]
  change (c.val + ('a'.val - 'A'.val)).toNat = c.val.toNat + 32
  have small : c.val.toNat ≤ 90 := upper.2
  rw [UInt32.toNat_add]
  change (c.val.toNat + 32) % 2 ^ 32 = c.val.toNat + 32
  omega

def trimStartMatches (p : Char → Bool) (text : List Char) : List Char := text.dropWhile p

def trimEndMatches (p : Char → Bool) (text : List Char) : List Char := text.rdropWhile p

def trim (text : List Char) : List Char :=
  trimEndMatches isWhitespace (trimStartMatches isWhitespace text)

theorem trimStartMatches_split (p : Char → Bool) (text : List Char) :
    ∃ lead, text = lead ++ trimStartMatches p text ∧ ∀ c ∈ lead, p c = true :=
  ⟨text.takeWhile p, List.takeWhile_append_dropWhile.symm,
    fun _ member => List.mem_takeWhile_imp member⟩

theorem trimEndMatches_split (p : Char → Bool) (text : List Char) :
    ∃ trail, text = trimEndMatches p text ++ trail ∧ ∀ c ∈ trail, p c = true :=
  ⟨text.rtakeWhile p, List.rdropWhile_append_rtakeWhile.symm,
    fun _ member => List.mem_rtakeWhile_imp member⟩

theorem trimStartMatches_append {p : Char → Bool} {lead rest : List Char}
    (matching : ∀ c ∈ lead, p c = true) (stops : ∀ c ∈ rest.head?, p c = false) :
    trimStartMatches p (lead ++ rest) = rest := by
  rw [trimStartMatches, List.dropWhile_append_of_pos matching]
  cases rest with
  | nil => rfl
  | cons c later =>
      have stop := stops c rfl
      rw [List.dropWhile_cons, stop]
      rfl

theorem trimEndMatches_append {p : Char → Bool} {rest trail : List Char}
    (matching : ∀ c ∈ trail, p c = true) (stops : ∀ c ∈ rest.getLast?, p c = false) :
    trimEndMatches p (rest ++ trail) = rest := by
  have mirrored : trimStartMatches p (trail.reverse ++ rest.reverse) = rest.reverse :=
    trimStartMatches_append (fun c member => matching c (List.mem_reverse.mp member))
      (by rwa [List.head?_reverse])
  rw [← List.reverse_append] at mirrored
  rw [trimEndMatches, List.rdropWhile, ← trimStartMatches, mirrored, List.reverse_reverse]

theorem trim_append {lead text trail : List Char} (blankLead : ∀ c ∈ lead, isWhitespace c = true)
    (blankTrail : ∀ c ∈ trail, isWhitespace c = true) (nonempty : text ≠ [])
    (head : ∀ c ∈ text.head?, isWhitespace c = false)
    (last : ∀ c ∈ text.getLast?, isWhitespace c = false) :
    trim (lead ++ text ++ trail) = text := by
  rw [trim, List.append_assoc, trimStartMatches_append blankLead, trimEndMatches_append blankTrail
    last]
  rwa [List.head?_append_of_ne_nil _ nonempty]

theorem trim_split (text : List Char) :
    ∃ lead trail, text = lead ++ trim text ++ trail ∧
      (∀ c ∈ lead, isWhitespace c = true) ∧ ∀ c ∈ trail, isWhitespace c = true := by
  obtain ⟨lead, atLead, leadBlank⟩ := trimStartMatches_split isWhitespace text
  obtain ⟨trail, atTrail, trailBlank⟩ :=
    trimEndMatches_split isWhitespace (trimStartMatches isWhitespace text)
  refine ⟨lead, trail, ?_, leadBlank, trailBlank⟩
  rw [List.append_assoc]
  exact atLead.trans (congrArg (lead ++ ·) atTrail)

theorem trim_eq_nil_of_blank {text : List Char}
    (blank : ∀ c ∈ text, isWhitespace c = true) : trim text = [] := by
  have start : trimStartMatches isWhitespace text = [] := by
    simp only [trimStartMatches, List.dropWhile_eq_nil_iff]
    exact blank
  rw [trim, start]
  rfl

/-- `str::trim_start_matches` with a text pattern, which it removes as often as it
stands there. -/
def trimStartPattern (pattern text : List Char) : List Char :=
  go text.length text
where
  go : Nat → List Char → List Char
    | 0, rest => rest
    | fuel + 1, rest =>
        if pattern.isPrefixOf rest then go fuel (rest.drop pattern.length) else rest

theorem trimStartPattern_split (pattern text : List Char) :
    ∃ count, text = (List.replicate count pattern).flatten ++ trimStartPattern pattern text := by
  unfold trimStartPattern
  generalize text.length = fuel
  induction fuel generalizing text with
  | zero => exact ⟨0, rfl⟩
  | succ fuel ih =>
      rw [trimStartPattern.go]
      by_cases leads : pattern.isPrefixOf text = true
      · rw [if_pos leads]
        rw [List.isPrefixOf_iff_prefix] at leads
        obtain ⟨rest, rfl⟩ := leads
        rw [List.drop_left]
        obtain ⟨count, atRest⟩ := ih rest
        refine ⟨count + 1, ?_⟩
        rw [List.replicate_succ, List.flatten_cons, List.append_assoc, ← atRest]
      · rw [if_neg leads]
        exact ⟨0, rfl⟩

def contains (text pattern : List Char) : Bool := text.tails.any pattern.isPrefixOf

theorem contains_iff_occurs {text pattern : List Char} :
    contains text pattern = true ↔ pattern <:+: text := by
  simp only [contains, List.any_eq_true, List.mem_tails, List.isPrefixOf_iff_prefix]
  rw [List.infix_iff_prefix_suffix]
  exact exists_congr fun _ => and_comm

theorem infix_cut {α : Type} {pattern front back : List α} {separator : α}
    (plain : separator ∉ pattern) (within : pattern <:+: front ++ separator :: back) :
    pattern <:+: front ∨ pattern <:+: back := by
  obtain ⟨lead, trail, whole⟩ := within
  rcases List.append_eq_append_iff.mp whole with ⟨rest, same, _⟩ | ⟨rest, same, tail⟩
  · exact Or.inl ⟨lead, rest, same.symm⟩
  · cases rest with
    | nil =>
        rw [List.append_nil] at same
        exact Or.inl ⟨lead, [], by rw [List.append_nil, same]⟩
    | cons c rest =>
        obtain ⟨rfl, rfl⟩ := List.cons.inj tail
        rcases List.append_eq_append_iff.mp same with ⟨piece, _, splits⟩ | ⟨piece, _, splits⟩
        · subst splits
          exact absurd (List.mem_append_right _ List.mem_cons_self) plain
        · cases piece with
          | nil =>
              rw [List.nil_append] at splits
              exact absurd (splits ▸ List.mem_cons_self) plain
          | cons d piece =>
              obtain ⟨_, rfl⟩ := List.cons.inj splits
              exact Or.inr ⟨piece, trail, rfl⟩

def stripPrefix (pattern text : List Char) : Option (List Char) := pattern.isPrefixOf? text

def endsWith (text pattern : List Char) : Bool := pattern.isSuffixOf text

def eqIgnoreAsciiCase (left right : List Char) : Bool :=
  toAsciiLowercase left == toAsciiLowercase right

theorem length_eq_of_eqIgnoreAsciiCase {left right : List Char}
    (same : eqIgnoreAsciiCase left right = true) : left.length = right.length := by
  have lengths := congrArg List.length (eq_of_beq same)
  rwa [toAsciiLowercase, toAsciiLowercase, List.length_map, List.length_map] at lengths

/-! ### Splitting -/

section Splitting

variable {α β : Type} {separator : α → Bool}

theorem cut_inj {sep : α} {front front' back back' : List α} (plain : sep ∉ front)
    (plain' : sep ∉ front') (same : front ++ sep :: back = front' ++ sep :: back') :
    front = front' ∧ back = back' := by
  induction front generalizing front' with
  | nil =>
      cases front' with
      | nil => exact ⟨rfl, (List.cons.inj same).2⟩
      | cons c rest => exact absurd ((List.cons.inj same).1 ▸ List.mem_cons_self) plain'
  | cons c rest ih =>
      cases front' with
      | nil => exact absurd ((List.cons.inj same).1 ▸ List.mem_cons_self) plain
      | cons d rest' =>
          obtain ⟨here, later⟩ := List.cons.inj same
          obtain ⟨fronts, backs⟩ := ih (fun member => plain (List.mem_cons_of_mem _ member))
            (fun member => plain' (List.mem_cons_of_mem _ member)) later
          rw [here, fronts]
          exact ⟨rfl, backs⟩

theorem cut_inj_right {sep : α} {front front' back back' : List α} (plain : sep ∉ back)
    (plain' : sep ∉ back') (same : front ++ sep :: back = front' ++ sep :: back') :
    front = front' ∧ back = back' := by
  have mirrored := congrArg List.reverse same
  simp only [List.reverse_append, List.reverse_cons, List.append_assoc,
    List.singleton_append] at mirrored
  obtain ⟨backs, fronts⟩ := cut_inj (mt List.mem_reverse.mp plain) (mt List.mem_reverse.mp plain')
    mirrored
  exact ⟨List.reverse_inj.mp fronts, List.reverse_inj.mp backs⟩

theorem splitOnP_separators_append (lead rest : List α)
    (separators : ∀ c ∈ lead, separator c = true) :
    (lead ++ rest).splitOnP separator =
      List.replicate lead.length [] ++ rest.splitOnP separator := by
  induction lead with
  | nil => rfl
  | cons head tail ih =>
      have here := separators head List.mem_cons_self
      have later := ih fun c member => separators c (List.mem_cons_of_mem _ member)
      rw [List.cons_append, List.splitOnP_cons_eq_if_modifyHead, if_pos here, later,
        List.length_cons, List.replicate_succ, List.cons_append]

theorem splitOnP_append_separators (rest trail : List α)
    (separators : ∀ c ∈ trail, separator c = true) :
    (rest ++ trail).splitOnP separator =
      rest.splitOnP separator ++ List.replicate trail.length [] := by
  cases trail with
  | nil => simp
  | cons head tail =>
      have here := separators head List.mem_cons_self
      have later := splitOnP_separators_append tail []
        fun c member => separators c (List.mem_cons_of_mem _ member)
      rw [List.splitOnP_append_cons rest tail here]
      congr 1
      rw [List.append_nil] at later
      rw [later, List.splitOnP_nil, List.length_cons, List.replicate_succ']

theorem mem_of_mem_splitOnP {text piece : List α} (isPiece : piece ∈ text.splitOnP separator)
    {c : α} (member : c ∈ piece) : c ∈ text ∧ separator c = false := by
  induction text generalizing piece with
  | nil =>
      rw [List.splitOnP_nil, List.mem_singleton] at isPiece
      subst isPiece
      cases member
  | cons head tail ih =>
      rw [List.splitOnP_cons_eq_if_modifyHead] at isPiece
      by_cases cut : separator head = true
      · rw [if_pos cut] at isPiece
        rcases List.mem_cons.mp isPiece with empty | later
        · subst empty
          cases member
        · have inTail := ih later member
          exact ⟨List.mem_cons_of_mem _ inTail.1, inTail.2⟩
      · rw [if_neg cut] at isPiece
        cases pieces : tail.splitOnP separator with
        | nil => exact absurd pieces (List.splitOnP_ne_nil _ _)
        | cons first rest =>
            rw [pieces, List.modifyHead_cons] at isPiece
            rcases List.mem_cons.mp isPiece with grown | later
            · subst grown
              rcases List.mem_cons.mp member with same | inFirst
              · subst same
                exact ⟨List.mem_cons_self, by simpa using cut⟩
              · have inTail := ih (by rw [pieces]; exact List.mem_cons_self) inFirst
                exact ⟨List.mem_cons_of_mem _ inTail.1, inTail.2⟩
            · have inTail := ih (by rw [pieces]; exact List.mem_cons_of_mem _ later) member
              exact ⟨List.mem_cons_of_mem _ inTail.1, inTail.2⟩

theorem splitOnP_map (f : β → α) (text : List β) :
    (text.map f).splitOnP separator =
      (text.splitOnP fun c => separator (f c)).map (List.map f) := by
  induction text with
  | nil => rfl
  | cons head tail ih =>
      rw [List.map_cons, List.splitOnP_cons_eq_if_modifyHead,
        List.splitOnP_cons_eq_if_modifyHead, ih]
      by_cases cut : separator (f head) = true
      · simp only [cut, if_true, List.map_cons, List.map_nil]
      · simp only [cut, Bool.false_eq_true, if_false]
        cases tail.splitOnP fun c => separator (f c) <;> rfl

theorem splitOnP_congr {other : α → Bool} {text : List α}
    (agree : ∀ a ∈ text, separator a = other a) :
    text.splitOnP separator = text.splitOnP other := by
  induction text with
  | nil => rfl
  | cons head tail ih =>
      have here := agree head List.mem_cons_self
      have later := ih fun a member => agree a (List.mem_cons_of_mem _ member)
      rw [List.splitOnP_cons_eq_if_modifyHead, List.splitOnP_cons_eq_if_modifyHead, here, later]

/-- Cutting first where only some of the separators stand changes nothing. -/
theorem splitOnP_refine {coarser : α → Bool}
    (refines : ∀ a, coarser a = true → separator a = true) (text : List α) :
    text.splitOnP separator =
      (text.splitOnP coarser).flatMap fun piece => piece.splitOnP separator := by
  induction text with
  | nil => rfl
  | cons c tail ih =>
      rw [List.splitOnP_cons_eq_if_modifyHead, List.splitOnP_cons_eq_if_modifyHead, ih]
      by_cases cut : coarser c = true
      · rw [if_pos cut, if_pos (refines c cut)]
        rfl
      · rw [if_neg cut]
        cases pieces : tail.splitOnP coarser with
        | nil => exact absurd pieces (List.splitOnP_ne_nil _ _)
        | cons head later =>
            rw [List.modifyHead_cons, List.flatMap_cons, List.flatMap_cons,
              List.splitOnP_cons_eq_if_modifyHead]
            split
            · rfl
            · cases words : head.splitOnP separator with
              | nil => exact absurd words (List.splitOnP_ne_nil _ _)
              | cons word others => rfl

theorem splitOnP_append_whole {word : List α} (whole : ∀ c ∈ word, separator c = false)
    (rest : List α) :
    (word ++ rest).splitOnP separator = (rest.splitOnP separator).modifyHead (word ++ ·) := by
  induction word with
  | nil => exact (congrFun List.modifyHead_id _).symm
  | cons head tail ih =>
      have here := whole head List.mem_cons_self
      have later := ih fun c member => whole c (List.mem_cons_of_mem _ member)
      rw [List.cons_append, List.splitOnP_cons_eq_if_modifyHead, here, later,
        List.modifyHead_modifyHead]
      rfl

/-- A word with no separator in it, bordered by separators or by the ends of
the text, is one of the pieces. -/
theorem mem_splitOnP_of_bordered (before word after : List α)
    (whole : ∀ c ∈ word, separator c = false)
    (left : ∀ c ∈ before.getLast?, separator c = true)
    (right : ∀ c ∈ after.head?, separator c = true) :
    word ∈ (before ++ word ++ after).splitOnP separator := by
  have inRest : word ∈ (word ++ after).splitOnP separator := by
    cases after with
    | nil =>
        rw [List.append_nil, List.splitOnP_eq_singleton whole]
        exact List.mem_singleton_self word
    | cons head tail =>
        rw [List.splitOnP_append_cons_of_forall_mem whole head (right head rfl)]
        exact List.mem_cons_self
  rcases List.eq_nil_or_concat before with empty | ⟨initial, last, atLast⟩
  · subst empty
    exact inRest
  · subst atLast
    have cut : separator last = true := left last (by simp)
    rw [List.append_assoc, List.concat_eq_append, List.append_assoc, List.singleton_append,
      List.splitOnP_append_cons initial (word ++ after) cut]
    exact List.mem_append_right _ inRest

end Splitting

def splitOnce (separator : Char) (text : List Char) : Option (List Char × List Char) :=
  if separator ∈ text then
    some (text.takeWhile (· ≠ separator), (text.dropWhile (· ≠ separator)).tail)
  else none

theorem splitOnce_append {separator : Char} {front : List Char} (plain : separator ∉ front)
    (back : List Char) : splitOnce separator (front ++ separator :: back) = some (front, back) := by
  have member : separator ∈ front ++ separator :: back := by simp
  have passed : ∀ c ∈ front, decide (c ≠ separator) = true := by
    intro c inFront
    rw [decide_eq_true_eq]
    rintro rfl
    exact plain inFront
  rw [splitOnce, if_pos member, List.takeWhile_append_of_pos passed,
    List.dropWhile_append_of_pos passed]
  simp

theorem splitOnce_eq_some_iff {separator : Char} {text front back : List Char} :
    splitOnce separator text = some (front, back) ↔
      text = front ++ separator :: back ∧ separator ∉ front := by
  constructor
  · intro cut
    by_cases member : separator ∈ text
    · obtain ⟨first, rest, rfl, plain⟩ := List.eq_append_cons_of_mem member
      rw [splitOnce_append plain, Option.some.injEq, Prod.mk.injEq] at cut
      rw [← cut.1, ← cut.2]
      exact ⟨rfl, plain⟩
    · rw [splitOnce, if_neg member] at cut
      cases cut
  · rintro ⟨rfl, plain⟩
    exact splitOnce_append plain back

def splitWhitespace (text : List Char) : List (List Char) :=
  (text.splitOnP isWhitespace).filter (· ≠ [])

theorem splitWhitespace_append (front back : List Char) {blank : Char}
    (isBlank : isWhitespace blank = true) :
    splitWhitespace (front ++ blank :: back) = splitWhitespace front ++ splitWhitespace back := by
  rw [splitWhitespace, List.splitOnP_append_cons _ _ isBlank, List.filter_append]
  rfl

theorem splitWhitespace_word {word : List Char} (nonempty : word ≠ [])
    (whole : ∀ c ∈ word, isWhitespace c = false) : splitWhitespace word = [word] := by
  rw [splitWhitespace, List.splitOnP_eq_singleton whole]
  simp [nonempty]

/-- `str::lines`: a line ends with a line feed or with a carriage return and a
line feed, and the last one may lack its ending. -/
def lines (text : List Char) : List (List Char) :=
  let pieces := text.splitOnP (· == Char.ofNat 10)
  let ended := pieces.dropLast.map fun line =>
    if line.getLast? = some (Char.ofNat 13) then line.dropLast else line
  ended ++ pieces.getLast?.toList.filter (· ≠ [])

theorem splitOnP_ended {texts : List (List Char)} (whole : ∀ text ∈ texts, Char.ofNat 10 ∉ text)
    (rest : List Char) :
    (texts.flatMap (· ++ [Char.ofNat 10]) ++ rest).splitOnP (· == Char.ofNat 10) =
      texts ++ rest.splitOnP (· == Char.ofNat 10) := by
  induction texts with
  | nil => rfl
  | cons text texts ih =>
      have later := ih fun other member => whole other (List.mem_cons_of_mem _ member)
      have inLine : ∀ c ∈ text, (c == Char.ofNat 10) = false := by
        intro c member
        rw [beq_eq_false_iff_ne]
        rintro rfl
        exact whole text List.mem_cons_self member
      rw [List.flatMap_cons, List.append_assoc, List.append_assoc, List.singleton_append,
        List.splitOnP_append_cons_of_forall_mem inLine _ (beq_self_eq_true _), later]
      rfl

/-- Lines that hold no line ending of their own come back from a text that ends each of them. -/
theorem lines_of_ended {texts : List (List Char)}
    (whole : ∀ text ∈ texts, Char.ofNat 10 ∉ text ∧ text.getLast? ≠ some (Char.ofNat 13)) :
    lines (texts.flatMap (· ++ [Char.ofNat 10])) = texts := by
  have pieces := splitOnP_ended (fun text member => (whole text member).1) []
  rw [List.append_nil, List.splitOnP_nil] at pieces
  have kept : texts.map (fun line =>
      if line.getLast? = some (Char.ofNat 13) then line.dropLast else line) = texts := by
    exact (List.map_congr_left fun text member => if_neg (whole text member).2).trans
      (List.map_id texts)
  rw [lines]
  simp only [pieces, List.dropLast_concat, List.getLast?_concat, kept]
  exact List.append_nil _

/-- A maximal run of characters of one class. -/
def MaximalRun (p : Char → Bool) (text run : List Char) : Prop :=
  ∃ before after, text = before ++ run ++ after ∧ run ≠ [] ∧ (∀ c ∈ run, p c = true) ∧
    (∀ c ∈ before.getLast?, p c = false) ∧ ∀ c ∈ after.head?, p c = false

def decimalValue (digits : List Char) : Nat :=
  digits.foldl (fun total c => 10 * total + (c.toNat - 48)) 0

/-- `str::parse::<u64>`: an optional `+`, then at least one ASCII digit, with a
value that fits. -/
def parseU64 (text : List Char) : Option Nat :=
  let digits := if text.head? = some '+' then text.tail else text
  if digits ≠ [] ∧ digits.all isAsciiDigit = true ∧ decimalValue digits < UInt64.size then
    some (decimalValue digits)
  else none

theorem decimalValue_toDigits (n : Nat) : decimalValue (Nat.toDigits 10 n) = n := by
  unfold decimalValue
  exact Nat.ofDigitChars_eq_foldl.symm.trans Nat.ofDigitChars_ten_toDigits

theorem isAsciiDigit_of_mem_toDigits {n : Nat} {c : Char} (member : c ∈ Nat.toDigits 10 n) :
    isAsciiDigit c = true := by
  have digit := Nat.isDigit_of_mem_toDigits (by decide) (by decide) member
  simp only [Char.isDigit, Bool.and_eq_true, decide_eq_true_eq, UInt32.le_iff_toNat_le] at digit
  simp only [isAsciiDigit, Bool.and_eq_true, decide_eq_true_eq]
  exact digit

theorem isAsciiDigit_of_decimal {n : Nat} {c : Char} (member : c ∈ (toString n).toList) :
    isAsciiDigit c = true := by
  have digits : (toString n).toList = Nat.toDigits 10 n := Nat.toList_repr
  rw [digits] at member
  exact isAsciiDigit_of_mem_toDigits member

theorem parseU64_decimal {n : Nat} (fits : n < UInt64.size) :
    parseU64 (toString n).toList = some n := by
  have digits : (toString n).toList = Nat.toDigits 10 n := Nat.toList_repr
  have unsigned : (Nat.toDigits 10 n).head? ≠ some '+' := by
    intro sign
    have digit := isAsciiDigit_of_mem_toDigits (List.mem_of_head? sign)
    exact absurd digit (by decide)
  have every : (Nat.toDigits 10 n).all isAsciiDigit = true :=
    List.all_eq_true.mpr fun _ member => isAsciiDigit_of_mem_toDigits member
  unfold parseU64
  simp only [digits, if_neg unsigned, decimalValue_toDigits]
  rw [if_pos ⟨Nat.toDigits_ne_nil, every, fits⟩]

/-- `str::parse::<u64>` where the number goes on into arithmetic. -/
def parseUInt64 (text : List Char) : Option UInt64 := (parseU64 text).map UInt64.ofNat

/-! ### Bytes -/

/-- What the bytes before the next one have begun. -/
inductive Utf8State : Type where
  | idle
  /-- The bytes still needed, the value so far, and the range of the next byte. -/
  | pending (needed value low high : Nat)
  deriving DecidableEq, Repr

def replacementCharacter : Char := Char.ofNat 0xFFFD

def utf8Start (byte : Nat) : List Char × Utf8State :=
  if byte < 0x80 then ([Char.ofNat byte], .idle)
  else if 0xC2 ≤ byte ∧ byte ≤ 0xDF then ([], .pending 1 (byte - 0xC0) 0x80 0xBF)
  else if 0xE0 ≤ byte ∧ byte ≤ 0xEF then
    ([], .pending 2 (byte - 0xE0) (if byte = 0xE0 then 0xA0 else 0x80)
      (if byte = 0xED then 0x9F else 0xBF))
  else if 0xF0 ≤ byte ∧ byte ≤ 0xF4 then
    ([], .pending 3 (byte - 0xF0) (if byte = 0xF0 then 0x90 else 0x80)
      (if byte = 0xF4 then 0x8F else 0xBF))
  else ([replacementCharacter], .idle)

def utf8Step (state : Utf8State) (byte : Nat) : List Char × Utf8State :=
  match state with
  | .idle => utf8Start byte
  | .pending needed value low high =>
      if low ≤ byte ∧ byte ≤ high then
        if needed = 1 then ([Char.ofNat (64 * value + (byte - 0x80))], .idle)
        else ([], .pending (needed - 1) (64 * value + (byte - 0x80)) 0x80 0xBF)
      else
        -- The bytes so far are one ill-formed part; this byte starts afresh.
        let (out, next) := utf8Start byte
        (replacementCharacter :: out, next)

def fromUtf8LossyFrom (state : Utf8State) : List UInt8 → List Char
  | [] =>
      match state with
      | .idle => []
      | .pending .. => [replacementCharacter]
  | byte :: rest =>
      let (out, next) := utf8Step state byte.toNat
      out ++ fromUtf8LossyFrom next rest

/-- `String::from_utf8_lossy`: each maximal ill-formed part becomes one U+FFFD. -/
def fromUtf8Lossy (bytes : List UInt8) : List Char := fromUtf8LossyFrom .idle bytes

def byteLen (text : List Char) : Nat := text.foldr (fun c bytes => c.utf8Size + bytes) 0

/-- `str::split_at` a byte position, which panics inside a character and behind the end. -/
def splitAtByte : Nat → List Char → Option (List Char × List Char)
  | 0, text => some ([], text)
  | _ + 1, [] => none
  | position + 1, c :: rest =>
      if c.utf8Size ≤ position + 1 then
        (splitAtByte (position + 1 - c.utf8Size) rest).map fun parts => (c :: parts.1, parts.2)
      else none

/-- `&text[first..last]`. -/
def byteSlice (text : List Char) (first last : Nat) : Option (List Char) :=
  (splitAtByte last text).bind fun upTo =>
    (splitAtByte first upTo.1).map Prod.snd

theorem utf8Size_of_isAscii {c : Char} (ascii : isAscii c = true) : c.utf8Size = 1 := by
  have small : c.toNat < 128 := of_decide_eq_true ascii
  have single : c.val ≤ 0x7f := UInt32.le_iff_toNat_le.mpr (Nat.le_of_lt_succ small)
  exact if_pos single

theorem byteLen_of_ascii {text : List Char} (ascii : ∀ c ∈ text, isAscii c = true) :
    byteLen text = text.length := by
  induction text with
  | nil => rfl
  | cons c rest ih =>
      have later := ih fun other member => ascii other (List.mem_cons_of_mem _ member)
      rw [byteLen, List.foldr_cons, utf8Size_of_isAscii (ascii c List.mem_cons_self), ← byteLen,
        later, List.length_cons, Nat.add_comm]

theorem splitAtByte_append {front : List Char} (ascii : ∀ c ∈ front, isAscii c = true)
    (back : List Char) : splitAtByte front.length (front ++ back) = some (front, back) := by
  induction front with
  | nil => cases back <;> rfl
  | cons c rest ih =>
      have later := ih fun other member => ascii other (List.mem_cons_of_mem _ member)
      rw [List.length_cons, List.cons_append, splitAtByte,
        utf8Size_of_isAscii (ascii c List.mem_cons_self), if_pos (Nat.le_add_left _ _),
        Nat.add_sub_cancel, later]
      rfl

theorem byteSlice_append {front middle : List Char}
    (ascii : ∀ c ∈ front ++ middle, isAscii c = true) (back : List Char) :
    byteSlice (front ++ middle ++ back) front.length (front.length + middle.length) =
      some middle := by
  have whole := splitAtByte_append ascii back
  rw [List.length_append] at whole
  have inner := splitAtByte_append
    (fun c member => ascii c (List.mem_append_left _ member)) middle
  rw [byteSlice, whole, Option.bind_some, inner]
  rfl

def asBytes (text : String) : List UInt8 := text.toByteArray.data.toList

def fromUtf8 (bytes : List UInt8) : Option String := String.fromUTF8? ⟨⟨bytes⟩⟩

@[simp] theorem fromUtf8_asBytes (text : String) : fromUtf8 (asBytes text) = some text := by
  rw [fromUtf8, String.fromUTF8?]
  exact dif_pos text.isValidUTF8

/-! ### Unix paths -/

/-- `Path::components`: the root, then the names; empty parts and every `.` but
a leading one are dropped. -/
def pathComponents (path : List Char) : List (List Char) :=
  let parts := path.splitOnP (· == '/')
  let names := parts.filter fun part => part ≠ [] && part ≠ ['.']
  if path.head? = some '/' then ['/'] :: names
  else if parts.head? = some ['.'] then ['.'] :: names
  else names

def pathStartsWith (path base : List Char) : Bool :=
  (pathComponents base).isPrefixOf (pathComponents path)

/-- `Path::file_name`: the last name, where the path ends in one. -/
def fileName (path : List Char) : Option (List Char) :=
  (pathComponents path).getLast?.filter fun last =>
    last ≠ ['/'] && last ≠ ['.'] && last ≠ ['.', '.']

/-- The path with these components, without redundant separators. -/
def joinComponents (components : List (List Char)) : List Char :=
  if components.head? = some ['/'] then '/' :: List.intercalate ['/'] components.tail
  else List.intercalate ['/'] components

def withFileName (path name : List Char) : List Char :=
  let components := pathComponents path
  let parent := if (fileName path).isSome then components.dropLast else components
  joinComponents (parent ++ [name])

def parent (path : List Char) : Option (List Char) :=
  let components := pathComponents path
  if components = [] ∨ components.getLast? = some ['/'] then none
  else some (joinComponents components.dropLast)

def pathJoin (path name : List Char) : List Char :=
  if name.head? = some '/' then name
  else if path = [] ∨ path.getLast? = some '/' then path ++ name
  else path ++ '/' :: name

/-- `Path::file_stem`, of the name: what stands before its last dot, if anything does. -/
def fileStem (name : List Char) : List Char :=
  let before := (name.rdropWhile (· != '.')).dropLast
  if before = [] then name else before

def withExtension (path ext : List Char) : List Char :=
  match fileName path with
  | none => path
  | some name => withFileName path (fileStem name ++ '.' :: ext)

def IsPlainName (name : List Char) : Prop :=
  '/' ∉ name ∧ name ≠ [] ∧ name ≠ ['.'] ∧ name ≠ ['.', '.']

/-- A path that ends in a separator, or is empty. -/
private def EndsAtSeparator (lead : List Char) : Prop :=
  lead = [] ∨ ∃ front, lead = front ++ ['/']

private theorem intercalate_concat (parent : List (List Char)) (name : List Char) :
    ∃ lead, EndsAtSeparator lead ∧
      List.intercalate ['/'] (parent ++ [name]) = lead ++ name := by
  induction parent with
  | nil => exact ⟨[], Or.inl rfl, by simp⟩
  | cons first rest ih =>
      obtain ⟨lead, ends, whole⟩ := ih
      have more : rest ++ [name] ≠ [] := by simp
      refine ⟨first ++ ['/'] ++ lead, ?_, ?_⟩
      · rcases ends with rfl | ⟨front, rfl⟩
        · exact Or.inr ⟨first, List.append_nil _⟩
        · exact Or.inr ⟨first ++ ['/'] ++ front, (List.append_assoc _ _ _).symm⟩
      · rw [List.cons_append, List.intercalate_cons_of_ne_nil more, whole]
        simp only [List.append_assoc]

private theorem joinComponents_concat {name : List Char} (plain : IsPlainName name)
    (parent : List (List Char)) :
    ∃ lead, EndsAtSeparator lead ∧ joinComponents (parent ++ [name]) = lead ++ name := by
  obtain ⟨lead, ends, whole⟩ := intercalate_concat parent name
  unfold joinComponents
  split
  · rename_i root
    cases parent with
    | nil =>
        rw [List.nil_append, List.head?_cons] at root
        refine absurd ?_ plain.1
        rw [Option.some.inj root]
        exact List.mem_singleton_self _
    | cons first rest =>
        obtain ⟨lead, ends, whole⟩ := intercalate_concat rest name
        refine ⟨'/' :: lead, ?_, congrArg _ whole⟩
        rcases ends with rfl | ⟨front, rfl⟩
        · exact Or.inr ⟨[], rfl⟩
        · exact Or.inr ⟨'/' :: front, rfl⟩
  · exact ⟨lead, ends, whole⟩

private theorem pathComponents_getLast? {name lead : List Char} (plain : IsPlainName name)
    (ends : EndsAtSeparator lead) : (pathComponents (lead ++ name)).getLast? = some name := by
  have whole : ∀ c ∈ name, (c == '/') = false := by
    intro c member
    rw [beq_eq_false_iff_ne]
    rintro rfl
    exact plain.1 member
  have parts : ∃ initial, (lead ++ name).splitOnP (· == '/') = initial ++ [name] := by
    rcases ends with rfl | ⟨front, rfl⟩
    · exact ⟨[], List.splitOnP_eq_singleton whole⟩
    · refine ⟨front.splitOnP (· == '/'), ?_⟩
      rw [List.append_assoc, List.singleton_append, List.splitOnP_append_cons _ _ rfl,
        List.splitOnP_eq_singleton whole]
  obtain ⟨initial, split⟩ := parts
  have kept : [name].filter (fun part => part ≠ [] && part ≠ ['.']) = [name] := by
    simp [plain.2.1, plain.2.2.1]
  simp only [pathComponents, split, List.filter_append, kept]
  split
  · rw [← List.cons_append]
    exact List.getLast?_concat
  · split
    · rw [← List.cons_append]
      exact List.getLast?_concat
    · exact List.getLast?_concat

theorem fileName_withFileName {name : List Char} (plain : IsPlainName name) (path : List Char) :
    fileName (withFileName path name) = some name := by
  rw [withFileName]
  obtain ⟨lead, ends, whole⟩ := joinComponents_concat plain
    (if (fileName path).isSome then (pathComponents path).dropLast else pathComponents path)
  simp only [whole]
  have root : name ≠ ['/'] := by
    rintro rfl
    exact plain.1 (List.mem_singleton_self _)
  rw [fileName, pathComponents_getLast? plain ends]
  simp [root, plain.2.2.1, plain.2.2.2]

theorem fileName_pathJoin {name : List Char} (plain : IsPlainName name) (path : List Char) :
    fileName (pathJoin path name) = some name := by
  have root : name ≠ ['/'] := by
    rintro rfl
    exact plain.1 (List.mem_singleton_self _)
  have relative : name.head? ≠ some '/' := fun atHead => plain.1 (List.mem_of_head? atHead)
  have whole : ∃ lead, EndsAtSeparator lead ∧ pathJoin path name = lead ++ name := by
    rw [pathJoin, if_neg relative]
    split
    · rename_i ended
      rcases ended with rfl | ended
      · exact ⟨[], Or.inl rfl, rfl⟩
      · obtain ⟨front, rfl⟩ := List.getLast?_eq_some_iff.mp ended
        exact ⟨front ++ ['/'], Or.inr ⟨front, rfl⟩, rfl⟩
    · exact ⟨path ++ ['/'], Or.inr ⟨path, rfl⟩, by simp⟩
  obtain ⟨lead, ends, joined⟩ := whole
  rw [fileName, joined, pathComponents_getLast? plain ends]
  simp [root, plain.2.2.1, plain.2.2.2]

theorem pathJoin_inj_right {path name other : List Char} (plain : '/' ∉ name)
    (otherPlain : '/' ∉ other) : pathJoin path name = pathJoin path other ↔ name = other := by
  have relative : ∀ {n : List Char}, '/' ∉ n → n.head? ≠ some '/' :=
    fun plain atHead => plain (List.mem_of_head? atHead)
  rw [pathJoin, pathJoin, if_neg (relative plain), if_neg (relative otherPlain)]
  split
  · exact List.append_right_inj _
  · rw [List.append_right_inj, List.cons.injEq, and_iff_right rfl]

theorem pathJoin_inj_left {path other name : List Char} (plain : '/' ∉ name)
    (some : path ≠ []) (open_ : path.getLast? ≠ Option.some '/') (otherSome : other ≠ [])
    (otherOpen : other.getLast? ≠ Option.some '/') :
    pathJoin path name = pathJoin other name ↔ path = other := by
  have relative : name.head? ≠ Option.some '/' := fun atHead => plain (List.mem_of_head? atHead)
  rw [pathJoin, pathJoin, if_neg relative, if_neg relative, if_neg (by simp [some, open_]),
    if_neg (by simp [otherSome, otherOpen])]
  exact List.append_left_inj _

theorem getLast?_pathJoin (path : List Char) {name : List Char} (plain : '/' ∉ name)
    (nonempty : name ≠ []) :
    pathJoin path name ≠ [] ∧ (pathJoin path name).getLast? = name.getLast? := by
  have relative : name.head? ≠ some '/' := fun atHead => plain (List.mem_of_head? atHead)
  rw [pathJoin, if_neg relative]
  split
  · exact ⟨by simp [nonempty], List.getLast?_append_of_ne_nil _ nonempty⟩
  · refine ⟨by simp, ?_⟩
    rw [List.getLast?_append_of_ne_nil _ (by simp)]
    cases name with
    | nil => exact absurd rfl nonempty
    | cons first rest => rw [List.getLast?_cons_cons]

theorem separator_not_mem_fileName {path name : List Char} (named : fileName path = some name) :
    '/' ∉ name := by
  obtain ⟨last, proper⟩ := Option.filter_eq_some_iff.mp named
  have component := List.mem_of_getLast? last
  have notRoot : name ≠ ['/'] := by
    rintro rfl
    simp at proper
  intro separator
  have piece : name ∈ path.splitOnP (· == '/') ∨ name = ['.'] := by
    unfold pathComponents at component
    simp only at component
    split at component
    · rcases List.mem_cons.mp component with root | kept
      · exact absurd root notRoot
      · exact Or.inl (List.mem_of_mem_filter kept)
    · split at component
      · rcases List.mem_cons.mp component with dot | kept
        · exact Or.inr dot
        · exact Or.inl (List.mem_of_mem_filter kept)
      · exact Or.inl (List.mem_of_mem_filter component)
  rcases piece with piece | rfl
  · have outside := (mem_of_mem_splitOnP piece separator).2
    simp at outside
  · simp at separator

theorem pathStartsWith_refl (path : List Char) : pathStartsWith path path = true := by
  unfold pathStartsWith
  exact List.isPrefixOf_iff_prefix.mpr List.prefix_rfl

end RustText
