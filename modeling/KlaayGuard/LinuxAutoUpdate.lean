/-
Whether a Linux host installs updates by itself, and what the check makes of it.

APT's settings are printed by `apt-config` as quoted shell assignments, dnf's stand in a
configuration file of sections, and systemd prints the state of a timer as a word.
-/

import KlaayGuard.LinuxPosture
import KlaayGuard.Library.Utf8Lossy

set_option autoImplicit false

namespace KlaayGuard

open EffectProgram Prog RustText

def singleQuote : Char := Char.ofNat 39

def reverseSolidus : Char := Char.ofNat 92

/-- A value as a shell reads it back: a quote is closed, escaped and opened again. -/
def shellQuoted (value : List Char) : List Char :=
  singleQuote :: (value.flatMap fun c =>
    if c = singleQuote then [singleQuote, reverseSolidus, singleQuote, singleQuote] else [c]) ++
      [singleQuote]

def unquoted (text : List Char) : List Char :=
  trimEndMatches (· == singleQuote) (trimStartMatches (· == singleQuote) (trim text))

theorem trim_shellQuoted (value : List Char) : trim (shellQuoted value) = shellQuoted value := by
  have visible : isWhitespace singleQuote = false := by decide
  have last : (shellQuoted value).getLast? = some singleQuote := List.getLast?_concat
  have whole := @trim_append [] (shellQuoted value) [] (fun _ member => absurd member
    List.not_mem_nil) (fun _ member => absurd member List.not_mem_nil) nofun
    (fun c atHead => (Option.some.inj atHead) ▸ visible)
    fun c atLast => (Option.some.inj (last.symm.trans atLast)) ▸ visible
  rwa [List.nil_append, List.append_nil] at whole

theorem unquoted_plain {value : List Char} (plain : singleQuote ∉ value) :
    unquoted (shellQuoted value) = value := by
  have kept : (value.flatMap fun c => if c = singleQuote then
      [singleQuote, reverseSolidus, singleQuote, singleQuote] else [c]) = value := by
    refine (List.flatMap_congr fun c member => ?_).trans (List.flatMap_singleton' value)
    rw [if_neg]
    rintro rfl
    exact plain member
  have quoted : ∀ c ∈ [singleQuote], (c == singleQuote) = true := by
    intro c member
    rw [List.mem_singleton.mp member]
    rfl
  have stops : ∀ {c : Char}, c ∈ value → (c == singleQuote) = false := by
    intro c member
    rw [beq_eq_false_iff_ne]
    rintro rfl
    exact plain member
  unfold unquoted
  rw [trim_shellQuoted, shellQuoted, kept]
  cases value with
  | nil => decide
  | cons first rest =>
      have opened : trimStartMatches (· == singleQuote)
          (singleQuote :: first :: rest ++ [singleQuote]) = first :: rest ++ [singleQuote] := by
        refine @trimStartMatches_append _ [singleQuote] _ quoted fun c atHead => ?_
        obtain rfl := Option.some.inj atHead
        exact stops List.mem_cons_self
      rw [opened]
      exact trimEndMatches_append quoted fun c atLast => stops (List.mem_of_getLast? atLast)

theorem mem_trim {text : List Char} {c : Char} (member : c ∈ text)
    (visible : isWhitespace c = false) : c ∈ trim text := by
  obtain ⟨lead, trail, whole, blankLead, blankTrail⟩ := trim_split text
  rw [whole] at member
  rcases List.mem_append.mp member with member | member
  · rcases List.mem_append.mp member with member | member
    · exact absurd (blankLead c member) (Bool.eq_false_iff.mp visible)
    · exact member
  · exact absurd (blankTrail c member) (Bool.eq_false_iff.mp visible)

theorem mem_unquoted {text : List Char} {c : Char} (member : c ∈ text)
    (visible : isWhitespace c = false) (other : c ≠ singleQuote) : c ∈ unquoted text := by
  have noQuote : (c == singleQuote) = false := beq_eq_false_iff_ne.mpr other
  have inTrim := mem_trim member visible
  obtain ⟨front, atFront, quotedFront⟩ := trimStartMatches_split (· == singleQuote) (trim text)
  obtain ⟨back, atBack, quotedBack⟩ := trimEndMatches_split (· == singleQuote)
    (trimStartMatches (· == singleQuote) (trim text))
  rw [atFront] at inTrim
  rcases List.mem_append.mp inTrim with member | member
  · exact absurd (quotedFront c member) (Bool.eq_false_iff.mp noQuote)
  · rw [atBack] at member
    rcases List.mem_append.mp member with member | member
    · exact member
    · exact absurd (quotedBack c member) (Bool.eq_false_iff.mp noQuote)

theorem unquoted_eq_iff {value word : List Char} (plain : singleQuote ∉ word)
    (noSolidus : reverseSolidus ∉ word) : unquoted (shellQuoted value) = word ↔ value = word := by
  by_cases quote : singleQuote ∈ value
  · have escaped : reverseSolidus ∈ shellQuoted value := by
      refine List.mem_append_left _ (List.mem_cons_of_mem _ ?_)
      refine List.mem_flatMap.mpr ⟨singleQuote, quote, ?_⟩
      rw [if_pos rfl]
      decide
    have inside := mem_unquoted escaped (by decide) (by decide)
    constructor
    · rintro rfl
      exact absurd inside noSolidus
    · rintro rfl
      exact absurd quote plain
  · rw [unquoted_plain quote]

def lineEnd : Char := Char.ofNat 10

/-- The settings as they stand after every file is merged. -/
structure AptConfig : Type where
  value : String → Option (List Char)
  whole : ∀ key text, value key = some text → lineEnd ∉ text

namespace AptConfig

variable (config : AptConfig)

def assignment (name value : List Char) : List Char := name ++ '=' :: shellQuoted value

def shellLines : List String → List (List Char)
  | name :: key :: rest =>
      (config.value key).toList.map (assignment name.toList) ++ shellLines rest
  | _ => []

/-- What `apt-config shell` prints for these arguments. -/
def shell (asked : List String) : List Char :=
  (config.shellLines asked).flatMap (· ++ [lineEnd])

theorem lineEnd_not_mem_assignment {name : List Char} (named : lineEnd ∉ name) {value : List Char}
    (whole : lineEnd ∉ value) : lineEnd ∉ assignment name value := by
  intro member
  rcases List.mem_append.mp member with member | member
  · exact named member
  · rcases List.mem_cons.mp member with same | member
    · exact absurd same (by decide)
    · rcases List.mem_append.mp member with member | member
      · rcases List.mem_cons.mp member with same | member
        · exact absurd same (by decide)
        · obtain ⟨c, inValue, piece⟩ := List.mem_flatMap.mp member
          split at piece
          · revert piece
            decide
          · rw [List.mem_singleton.mp piece] at whole
            exact whole inValue
      · exact absurd (List.mem_singleton.mp member) (by decide)

theorem assignment_getLast? (name value : List Char) :
    (assignment name value).getLast? = some singleQuote := by
  have last : assignment name value = (name ++ '=' :: singleQuote ::
      value.flatMap fun c => if c = singleQuote then
        [singleQuote, reverseSolidus, singleQuote, singleQuote] else [c]) ++ [singleQuote] := by
    rw [assignment, List.append_assoc]
    rfl
  rw [last]
  exact List.getLast?_concat

theorem lines_shell {asked : List String} (named : ∀ name ∈ asked, lineEnd ∉ name.toList) :
    lines (config.shell asked) = config.shellLines asked := by
  refine lines_of_ended fun text member => ?_
  have ends : some singleQuote ≠ some (Char.ofNat 13) := by decide
  fun_induction config.shellLines asked with
  | case1 name key rest ih =>
      rcases List.mem_append.mp member with here | later
      · obtain ⟨value, set, rfl⟩ := List.mem_map.mp here
        rw [assignment_getLast?]
        exact ⟨lineEnd_not_mem_assignment (named name List.mem_cons_self)
          (config.whole key value (Option.mem_toList.mp set)), ends⟩
      · exact ih (fun other member => named other
          (List.mem_cons_of_mem _ (List.mem_cons_of_mem _ member))) later
  | case2 => cases member

theorem splitOnce_assignment {name : List Char} (named : '=' ∉ name) (value : List Char) :
    splitOnce '=' (assignment name value) = some (name, shellQuoted value) :=
  splitOnce_append named _

theorem parse_shell : parseAptConfigShell (config.shell aptConfigArgs.tail) =
    (config.value "APT::Periodic::Enable").toList.map
        (fun value => ("E".toList, unquoted (shellQuoted value))) ++
      (config.value "APT::Periodic::Unattended-Upgrade").toList.map
        (fun value => ("U".toList, unquoted (shellQuoted value))) := by
  have trimmed : trim "E".toList = "E".toList ∧ trim "U".toList = "U".toList := by decide
  have enable : ∀ value, splitOnce '=' (assignment "E".toList value) =
      some ("E".toList, shellQuoted value) := splitOnce_assignment (by decide)
  have unattended : ∀ value, splitOnce '=' (assignment "U".toList value) =
      some ("U".toList, shellQuoted value) := splitOnce_assignment (by decide)
  have asked : config.shellLines aptConfigArgs.tail =
      (config.value "APT::Periodic::Enable").toList.map (assignment "E".toList) ++
        (config.value "APT::Periodic::Unattended-Upgrade").toList.map
          (assignment "U".toList) := by
    rw [aptConfigArgs, List.tail_cons, shellLines, shellLines, shellLines, List.append_nil]
    nofun
  unfold parseAptConfigShell
  rw [config.lines_shell (by decide +kernel), asked, List.filterMap_append, List.filterMap_map,
    List.filterMap_map]
  cases config.value "APT::Periodic::Enable" <;>
    cases config.value "APT::Periodic::Unattended-Upgrade" <;>
    simp only [Option.toList_none, Option.toList_some, List.map_nil, List.map_cons,
      List.filterMap_nil, List.filterMap_cons, Function.comp_apply, enable, unattended,
      Option.map_some, trimmed] <;>
    rfl

theorem mapGet_enable : mapGet (parseAptConfigShell (config.shell aptConfigArgs.tail)) "E" =
    (config.value "APT::Periodic::Enable").map fun value => unquoted (shellQuoted value) := by
  rw [parse_shell]
  cases config.value "APT::Periodic::Enable" <;>
    cases config.value "APT::Periodic::Unattended-Upgrade" <;> rfl

theorem mapGet_unattended : mapGet (parseAptConfigShell (config.shell aptConfigArgs.tail)) "U" =
    (config.value "APT::Periodic::Unattended-Upgrade").map
      fun value => unquoted (shellQuoted value) := by
  rw [parse_shell]
  cases config.value "APT::Periodic::Enable" <;>
    cases config.value "APT::Periodic::Unattended-Upgrade" <;> rfl

end AptConfig

/-! ### dnf's configuration -/

inductive ConfEntry : Type where
  | header (name : List Char)
  | assignment (key value : List Char)
  | remark (text : List Char)
  | blank

namespace ConfEntry

def line : ConfEntry → List Char
  | header name => '[' :: (name ++ [']'])
  | assignment key value => key ++ ' ' :: '=' :: (if value = [] then [] else ' ' :: value)
  | remark text => '#' :: text
  | blank => []

def Plain : ConfEntry → Prop
  | header name => lineEnd ∉ name
  | assignment key value => key ≠ [] ∧ key.head? ≠ some '[' ∧
      (∀ c ∈ key, isWhitespace c = false ∧ c ≠ '=') ∧ lineEnd ∉ value ∧
      (∀ c ∈ value.head?, isWhitespace c = false) ∧ ∀ c ∈ value.getLast?, isWhitespace c = false
  | remark text => lineEnd ∉ text ∧ text.getLast? ≠ some (Char.ofNat 13)
  | blank => True

end ConfEntry

/-- This value is the first one that the entries set for this key in this section.  The flag
tells whether they begin inside of the section. -/
inductive SetsFirst (name key value : List Char) : Bool → List ConfEntry → Prop where
  | here {rest : List ConfEntry} : SetsFirst name key value true (.assignment key value :: rest)
  | header {inside : Bool} {other : List Char} {rest : List ConfEntry}
      (later : SetsFirst name key value (other == name) rest) :
      SetsFirst name key value inside (.header other :: rest)
  | assignment {inside : Bool} {key' value' : List Char} {rest : List ConfEntry}
      (other : ¬ (inside = true ∧ key' = key)) (later : SetsFirst name key value inside rest) :
      SetsFirst name key value inside (.assignment key' value' :: rest)
  | remark {inside : Bool} {text : List Char} {rest : List ConfEntry}
      (later : SetsFirst name key value inside rest) :
      SetsFirst name key value inside (.remark text :: rest)
  | blank {inside : Bool} {rest : List ConfEntry} (later : SetsFirst name key value inside rest) :
      SetsFirst name key value inside (.blank :: rest)

abbrev SetsUpdates (value : List Char) : Bool → List ConfEntry → Prop :=
  SetsFirst "commands".toList "apply_updates".toList value

structure ConfFile : Type where
  entries : List ConfEntry
  plain : ∀ entry ∈ entries, entry.Plain

def ConfFile.text (file : ConfFile) : List Char :=
  file.entries.flatMap fun entry => entry.line ++ [lineEnd]

def switchWords : Bool → List String
  | true => ["yes", "true", "1", "on"]
  | false => ["no", "false", "0", "off"]

/-- What the file says of applying updates: its first setting, in any case. -/
def ConfFile.Says (file : ConfFile) (apply : Bool) : Prop :=
  ∃ value, SetsUpdates value false file.entries ∧
    String.ofList (toAsciiLowercase value) ∈ switchWords apply

theorem trim_visible {text : List Char} (nonempty : text ≠ [])
    (first : ∀ c ∈ text.head?, isWhitespace c = false)
    (last : ∀ c ∈ text.getLast?, isWhitespace c = false) : trim text = text := by
  have whole := @trim_append [] text [] (fun _ member => absurd member List.not_mem_nil)
    (fun _ member => absurd member List.not_mem_nil) nonempty first last
  rwa [List.nil_append, List.append_nil] at whole

theorem head?_trim {c : Char} (visible : isWhitespace c = false) (rest : List Char) :
    (trim (c :: rest)).head? = some c := by
  obtain ⟨lead, trail, whole, blankLead, _⟩ := trim_split (c :: rest)
  have noLead : lead = [] := by
    cases lead with
    | nil => rfl
    | cons first others =>
        obtain rfl : c = first := (List.cons.inj whole).1
        exact absurd (blankLead c List.mem_cons_self) (Bool.eq_false_iff.mp visible)
  have inside : c ∈ trim (c :: rest) := mem_trim List.mem_cons_self visible
  rw [noLead, List.nil_append] at whole
  cases kept : trim (c :: rest) with
  | nil =>
      rw [kept] at inside
      cases inside
  | cons first others =>
      rw [kept, List.cons_append] at whole
      rw [(List.cons.inj whole).1]
      rfl

section Reading

variable {inside : Bool} {rest : List (List Char)}

theorem parse_header (name : List Char) :
    parseDnfApplyUpdatesFrom inside ((ConfEntry.header name).line :: rest) =
      parseDnfApplyUpdatesFrom (name == "commands".toList) rest := by
  have trimmed : trim ('[' :: (name ++ [']'])) = '[' :: (name ++ [']']) := by
    have last : ('[' :: (name ++ [']'])).getLast? = some ']' := by
      rw [← List.cons_append]
      exact List.getLast?_concat
    refine trim_visible nofun ?_ ?_
    · intro c atHead
      obtain rfl := Option.some.inj atHead
      decide
    · intro c atLast
      rw [last] at atLast
      obtain rfl := Option.some.inj atLast
      decide
  have commands : "[commands]".toList = '[' :: ("commands".toList ++ [']']) := by decide
  have same : (('[' :: (name ++ [']'])) == "[commands]".toList) = (name == "commands".toList) := by
    rw [commands, Bool.eq_iff_iff, beq_iff_eq, beq_iff_eq, List.cons.injEq,
      List.append_left_inj]
    exact and_iff_right rfl
  rw [parseDnfApplyUpdatesFrom]
  simp only [ConfEntry.line, trimmed, List.head?_cons, if_true, same]

theorem parse_other {raw : List Char} (noHeader : (trim raw).head? ≠ some '[')
    (other : ∀ key value, splitOnce '=' (trim raw) = some (key, value) →
      trim key ≠ "apply_updates".toList) :
    parseDnfApplyUpdatesFrom inside (raw :: rest) = parseDnfApplyUpdatesFrom inside rest := by
  rw [parseDnfApplyUpdatesFrom]
  simp only [if_neg noHeader]
  cases cut : splitOnce '=' (trim raw) with
  | none => rfl
  | some pair =>
      have differs := other pair.1 pair.2 cut
      exact if_neg fun both => differs both.2

theorem parse_remark (text : List Char) :
    parseDnfApplyUpdatesFrom inside ((ConfEntry.remark text).line :: rest) =
      parseDnfApplyUpdatesFrom inside rest := by
  have visible : isWhitespace '#' = false := by decide
  have head : (trim (ConfEntry.remark text).line).head? = some '#' := head?_trim visible text
  refine parse_other ?_ fun key value cut same => ?_
  · rw [head]
    decide
  · obtain ⟨whole, _⟩ := splitOnce_eq_some_iff.mp cut
    have marked : '#' ∈ key := by
      rw [whole] at head
      cases key with
      | nil => exact absurd (Option.some.inj head) (by decide)
      | cons first others =>
          obtain rfl : first = '#' := Option.some.inj head
          exact List.mem_cons_self
    have kept := mem_trim marked visible
    rw [same] at kept
    revert kept
    decide

theorem parse_blank : parseDnfApplyUpdatesFrom inside (ConfEntry.blank.line :: rest) =
    parseDnfApplyUpdatesFrom inside rest := by
  refine parse_other ?_ fun key value cut => ?_
  · decide
  · obtain ⟨whole, _⟩ := splitOnce_eq_some_iff.mp cut
    have nothing : trim ConfEntry.blank.line = [] := by decide
    rw [nothing] at whole
    exact absurd whole.symm (by simp)

theorem dnfApplies_spaced {value : List Char} (first : ∀ c ∈ value.head?, isWhitespace c = false)
    (last : ∀ c ∈ value.getLast?, isWhitespace c = false) :
    dnfApplies (if value = [] then [] else ' ' :: value) = dnfApplies value := by
  by_cases empty : value = []
  · rw [if_pos empty, empty]
  · have blank : ∀ c ∈ [' '], isWhitespace c = true := by
      intro c member
      rw [List.mem_singleton.mp member]
      decide
    have spaced := @trim_append [' '] value [] blank
      (fun _ member => absurd member List.not_mem_nil) empty first last
    rw [List.append_nil, List.singleton_append] at spaced
    unfold dnfApplies
    rw [if_neg empty, spaced, trim_visible empty first last]

theorem parse_assignment {key value : List Char} (plain : (ConfEntry.assignment key value).Plain) :
    parseDnfApplyUpdatesFrom inside ((ConfEntry.assignment key value).line :: rest) =
      if inside = true ∧ key = "apply_updates".toList then dnfApplies value
      else parseDnfApplyUpdatesFrom inside rest := by
  obtain ⟨nonempty, noBracket, word, _, first, last⟩ := plain
  have keyHead : ∀ c ∈ key.head?, isWhitespace c = false :=
    fun c atHead => (word c (List.mem_of_head? atHead)).1
  have keyLast : ∀ c ∈ key.getLast?, isWhitespace c = false :=
    fun c atLast => (word c (List.mem_of_getLast? atLast)).1
  have head : (ConfEntry.assignment key value).line.head? = key.head? :=
    List.head?_append_of_ne_nil _ nonempty
  have trimmed : trim (ConfEntry.assignment key value).line =
      (ConfEntry.assignment key value).line := by
    refine trim_visible (by simp [ConfEntry.line]) ?_ ?_
    · rw [head]
      exact keyHead
    · intro c atLast
      by_cases empty : value = []
      · have equals : (ConfEntry.assignment key value).line = (key ++ [' ']) ++ ['='] := by
          rw [ConfEntry.line, if_pos empty, List.append_assoc]
          rfl
        rw [equals, List.getLast?_concat] at atLast
        obtain rfl := Option.some.inj atLast
        decide
      · have ends : (ConfEntry.assignment key value).line = (key ++ [' ', '=', ' ']) ++ value := by
          rw [ConfEntry.line, if_neg empty, List.append_assoc]
          rfl
        rw [ends, List.getLast?_append_of_ne_nil _ empty] at atLast
        exact last c atLast
  have cut : splitOnce '=' (ConfEntry.assignment key value).line =
      some (key ++ [' '], if value = [] then [] else ' ' :: value) := by
    have noSign : '=' ∉ key ++ [' '] := by
      intro member
      rcases List.mem_append.mp member with member | member
      · exact (word _ member).2 rfl
      · exact absurd (List.mem_singleton.mp member) (by decide)
    have whole := splitOnce_append noSign (if value = [] then [] else ' ' :: value)
    rw [List.append_assoc, List.singleton_append] at whole
    exact whole
  have keyTrimmed : trim (key ++ [' ']) = key := by
    have blank : ∀ c ∈ [' '], isWhitespace c = true := by
      intro c member
      rw [List.mem_singleton.mp member]
      decide
    exact @trim_append [] key [' '] (fun _ member => absurd member List.not_mem_nil) blank
      nonempty keyHead keyLast
  have noHeader : (ConfEntry.assignment key value).line.head? ≠ some '[' := by
    rw [head]
    exact noBracket
  rw [parseDnfApplyUpdatesFrom]
  simp only [trimmed, if_neg noHeader, cut, keyTrimmed, dnfApplies_spaced first last]

end Reading

theorem parse_of_sets {value : List Char} {inside : Bool} {entries : List ConfEntry}
    (plain : ∀ entry ∈ entries, entry.Plain) (sets : SetsUpdates value inside entries) :
    parseDnfApplyUpdatesFrom inside (entries.map ConfEntry.line) = dnfApplies value := by
  induction sets with
  | here => rw [List.map_cons, parse_assignment (plain _ List.mem_cons_self), if_pos ⟨rfl, rfl⟩]
  | header later ih =>
      rw [List.map_cons, parse_header]
      exact ih fun entry member => plain entry (List.mem_cons_of_mem _ member)
  | assignment other later ih =>
      rw [List.map_cons, parse_assignment (plain _ List.mem_cons_self), if_neg other]
      exact ih fun entry member => plain entry (List.mem_cons_of_mem _ member)
  | remark later ih =>
      rw [List.map_cons, parse_remark]
      exact ih fun entry member => plain entry (List.mem_cons_of_mem _ member)
  | blank later ih =>
      rw [List.map_cons, parse_blank]
      exact ih fun entry member => plain entry (List.mem_cons_of_mem _ member)

theorem sets_of_parse {entries : List ConfEntry} (plain : ∀ entry ∈ entries, entry.Plain)
    {inside apply : Bool}
    (parsed : parseDnfApplyUpdatesFrom inside (entries.map ConfEntry.line) = some apply) :
    ∃ value, SetsUpdates value inside entries ∧ dnfApplies value = some apply := by
  induction entries generalizing inside with
  | nil => cases parsed
  | cons entry rest ih =>
      have later : ∀ other ∈ rest, other.Plain :=
        fun other member => plain other (List.mem_cons_of_mem _ member)
      rw [List.map_cons] at parsed
      cases entry with
      | header name =>
          rw [parse_header] at parsed
          obtain ⟨value, sets, applies⟩ := ih later parsed
          exact ⟨value, .header sets, applies⟩
      | assignment key value =>
          rw [parse_assignment (plain _ List.mem_cons_self)] at parsed
          split at parsed
          · rename_i here
            obtain ⟨rfl, rfl⟩ := here
            exact ⟨value, .here, parsed⟩
          · rename_i other
            obtain ⟨value, sets, applies⟩ := ih later parsed
            exact ⟨value, .assignment other sets, applies⟩
      | remark text =>
          rw [parse_remark] at parsed
          obtain ⟨value, sets, applies⟩ := ih later parsed
          exact ⟨value, .remark sets, applies⟩
      | blank =>
          rw [parse_blank] at parsed
          obtain ⟨value, sets, applies⟩ := ih later parsed
          exact ⟨value, .blank sets, applies⟩

theorem SetsFirst.plain_value {name key value : List Char} {inside : Bool}
    {entries : List ConfEntry} (plain : ∀ entry ∈ entries, entry.Plain)
    (sets : SetsFirst name key value inside entries) : trim value = value := by
  induction sets with
  | here =>
      obtain ⟨-, -, -, -, first, last⟩ := plain _ List.mem_cons_self
      by_cases empty : value = []
      · rw [empty]
        rfl
      · exact trim_visible empty first last
  | header later ih | assignment other later ih | remark later ih | blank later ih =>
      exact ih fun entry member => plain entry (List.mem_cons_of_mem _ member)

theorem dnfApplies_iff {value : List Char} (trimmed : trim value = value) (apply : Bool) :
    dnfApplies value = some apply ↔
      String.ofList (toAsciiLowercase value) ∈ switchWords apply := by
  unfold dnfApplies
  rw [trimmed]
  generalize String.ofList (toAsciiLowercase value) = word
  constructor
  · intro applies
    split at applies <;> cases applies <;> decide
  · intro known
    cases apply <;>
      (simp only [switchWords, List.mem_cons, List.not_mem_nil, or_false] at known
       rcases known with rfl | rfl | rfl | rfl <;> rfl)

theorem ConfEntry.Plain.line_whole {entry : ConfEntry} (plain : entry.Plain) :
    lineEnd ∉ entry.line ∧ entry.line.getLast? ≠ some (Char.ofNat 13) := by
  have returnBlank : isWhitespace (Char.ofNat 13) = true := by decide
  cases entry with
  | header name =>
      constructor
      · intro member
        rcases List.mem_cons.mp member with same | member
        · exact absurd same (by decide)
        · rcases List.mem_append.mp member with member | member
          · exact plain member
          · exact absurd (List.mem_singleton.mp member) (by decide)
      · have last : (ConfEntry.header name).line.getLast? = some ']' := by
          rw [ConfEntry.line, ← List.cons_append]
          exact List.getLast?_concat
        rw [last]
        decide
  | assignment key value =>
      obtain ⟨_, _, word, whole, _, last⟩ := plain
      constructor
      · intro member
        rcases List.mem_append.mp member with member | member
        · exact absurd (word _ member).1 (by decide)
        · rcases List.mem_cons.mp member with same | member
          · exact absurd same (by decide)
          · rcases List.mem_cons.mp member with same | member
            · exact absurd same (by decide)
            · split at member
              · cases member
              · rcases List.mem_cons.mp member with same | member
                · exact absurd same (by decide)
                · exact whole member
      · intro atLast
        by_cases empty : value = []
        · have equals : (ConfEntry.assignment key value).line = (key ++ [' ']) ++ ['='] := by
            rw [ConfEntry.line, if_pos empty, List.append_assoc]
            rfl
          rw [equals, List.getLast?_concat] at atLast
          exact absurd (Option.some.inj atLast) (by decide)
        · have ends : (ConfEntry.assignment key value).line = (key ++ [' ', '=', ' ']) ++ value := by
            rw [ConfEntry.line, if_neg empty, List.append_assoc]
            rfl
          rw [ends, List.getLast?_append_of_ne_nil _ empty] at atLast
          rw [last _ atLast] at returnBlank
          cases returnBlank
  | remark text =>
      constructor
      · intro member
        rcases List.mem_cons.mp member with same | member
        · exact absurd same (by decide)
        · exact plain.1 member
      · intro atLast
        cases text with
        | nil => exact absurd (Option.some.inj atLast) (by decide)
        | cons first rest =>
            rw [ConfEntry.line, List.getLast?_cons_cons] at atLast
            exact plain.2 atLast
  | blank => exact ⟨List.not_mem_nil, nofun⟩

theorem ConfFile.parse_text (file : ConfFile) (apply : Bool) :
    parseDnfApplyUpdates file.text = some apply ↔ file.Says apply := by
  have whole : lines file.text = file.entries.map ConfEntry.line := by
    have ended : file.text = (file.entries.map ConfEntry.line).flatMap (· ++ [lineEnd]) := by
      rw [List.flatMap_map]
      rfl
    rw [ended]
    refine lines_of_ended fun text member => ?_
    obtain ⟨entry, inFile, rfl⟩ := List.mem_map.mp member
    exact (file.plain entry inFile).line_whole
  unfold parseDnfApplyUpdates
  rw [whole]
  constructor
  · intro parsed
    obtain ⟨value, sets, applies⟩ := sets_of_parse file.plain parsed
    exact ⟨value, sets, (dnfApplies_iff (sets.plain_value file.plain) apply).mp applies⟩
  · rintro ⟨value, sets, applies⟩
    rw [parse_of_sets file.plain sets]
    exact (dnfApplies_iff (sets.plain_value file.plain) apply).mpr applies

/-! ### The host -/

inductive UnitState : Type where
  | enabled
  | enabledRuntime
  | linked
  | linkedRuntime
  | aliased
  | masked
  | maskedRuntime
  | static
  | indirect
  | disabled
  | generated
  | transient
  | bad
  | notFound
  deriving DecidableEq

def UnitState.word : UnitState → String
  | enabled => "enabled"
  | enabledRuntime => "enabled-runtime"
  | linked => "linked"
  | linkedRuntime => "linked-runtime"
  | aliased => "alias"
  | masked => "masked"
  | maskedRuntime => "masked-runtime"
  | static => "static"
  | indirect => "indirect"
  | disabled => "disabled"
  | generated => "generated"
  | transient => "transient"
  | bad => "bad"
  | notFound => "not-found"

structure UpdatingHost : Type where
  path : Option (List Char)
  isFile : List Char → Bool
  pathExists : List Char → Bool
  /-- The settings that `apt-config` prints from, where it can read them. -/
  apt : Option AptConfig
  conf : List Char → Option ConfFile
  /-- The state of a unit, where there is a systemd. -/
  unit : String → Option UnitState

namespace UpdatingHost

variable (host : UpdatingHost)

def encoded (text : List Char) : List UInt8 := text.flatMap String.utf8EncodeChar

def answerOutput : String → List String → Option CommandStdout
  | "apt-config", "shell" :: asked =>
      match host.apt with
      | none => some ⟨false, []⟩
      | some config => some ⟨true, encoded (config.shell asked)⟩
  | "systemctl", ["is-enabled", unit] =>
      (host.unit unit).map fun state =>
        ⟨decide (state = .enabled), encoded (state.word.toList ++ [lineEnd])⟩
  | _, _ => none

def answer : (action : PostureAction) → action.Reply
  | .readVar name => if name = "PATH" then host.path else none
  | .isFile path => host.isFile path
  | .pathExists path => host.pathExists path
  | .configDir => none
  | .homeDir => none
  | .readToString path => (host.conf path).map ConfFile.text
  | .output program args => host.answerOutput program args

def installed (name : String) : Bool :=
  match host.path with
  | none => false
  | some path => (path.splitOnP (· == ':')).any fun dir => host.isFile (pathJoin dir name.toList)

/-- `unattended-upgrades` is there, switched on, and its timer is not switched off. -/
def AptInstalls (config : AptConfig) : Prop :=
  host.pathExists "/usr/bin/unattended-upgrade".toList = true ∧
    config.value "APT::Periodic::Enable" ≠ some "0".toList ∧
    (∃ value, config.value "APT::Periodic::Unattended-Upgrade" = some value ∧ value ≠ [] ∧
      value ≠ "0".toList) ∧
    host.unit "apt-daily-upgrade.timer" ≠ some .disabled ∧
    host.unit "apt-daily-upgrade.timer" ≠ some .masked

def SaysAt (path : String) (apply : Bool) : Prop :=
  ∃ file, host.conf path.toList = some file ∧ file.Says apply

/-- The administrator's file decides, or the shipped one where that says nothing. -/
def AppliesUpdates : Prop :=
  host.SaysAt "/etc/dnf/automatic.conf" true ∨
    (∀ apply, ¬ host.SaysAt "/etc/dnf/automatic.conf" apply) ∧
      host.SaysAt "/usr/share/dnf5/dnf5-plugins/automatic.conf" true

def DnfInstalls : Prop :=
  host.unit "dnf-automatic-install.timer" = some .enabled ∨
    (host.unit "dnf5-automatic.timer" = some .enabled ∨
      host.unit "dnf-automatic.timer" = some .enabled) ∧ host.AppliesUpdates

def HasDnf : Prop := host.installed "dnf5" = true ∨ host.installed "dnf" = true

def Tells : Prop :=
  if host.installed "apt-config" then host.apt.isSome = true
  else host.HasDnf ∧ host.installed "systemctl" = true

def InstallsUpdates : Prop :=
  if host.installed "apt-config" then ∃ config, host.apt = some config ∧ host.AptInstalls config
  else host.DnfInstalls

end UpdatingHost

/-- The row says whether updates are installed, or that nobody can tell. -/
def ReportsInstaller (row : Value) (tells installs : Prop) : Prop :=
  tells ∧ installs ∧ rowEnabled row = some "yes" ∨
    tells ∧ ¬ installs ∧ rowEnabled row = some "no" ∨
    ¬ tells ∧ rowEnabled row = some "unknown"

/-! ### The questions come to the host -/

namespace UpdatingHost

variable (host : UpdatingHost)

theorem binaryOnPath_answered (name : String) :
    (binaryOnPath name).answered host.answer = host.installed name :=
  KlaayGuard.binaryOnPath_answered host.answer name

theorem systemctlIsEnabled_answered (unit : String) :
    (systemctlIsEnabled unit).answered host.answer =
      (host.unit unit).map fun state => state.word.toList := by
  unfold systemctlIsEnabled
  rw [answered_bind, answered_pure, answered_perform]
  change Option.filter _ (((host.unit unit).map fun state => CommandStdout.mk
    (decide (state = .enabled)) (encoded (state.word.toList ++ [lineEnd]))).map _) = _
  cases host.unit unit with
  | none => rfl
  | some state =>
      simp only [Option.map_some, encoded, fromUtf8Lossy_encoded]
      cases state <;> decide +kernel

theorem unitEnabled_answered (unit : String) :
    (unitEnabled unit).answered host.answer = decide (host.unit unit = some .enabled) := by
  unfold unitEnabled
  rw [answered_bind, answered_pure, systemctlIsEnabled_answered]
  cases host.unit unit with
  | none => rfl
  | some state => cases state <;> decide +kernel

theorem mapGet_zero {setting : Option (List Char)} :
    (setting.map fun value => unquoted (shellQuoted value)) = some "0".toList ↔
      setting = some "0".toList := by
  cases setting with
  | none => simp
  | some value =>
      rw [Option.map_some, Option.some_inj, Option.some_inj]
      exact unquoted_eq_iff (by decide) (by decide)

theorem mapGet_off {setting : Option (List Char)} :
    ((setting.map fun value => unquoted (shellQuoted value)) = none ∨
      (setting.map fun value => unquoted (shellQuoted value)) = some [] ∨
      (setting.map fun value => unquoted (shellQuoted value)) = some "0".toList) ↔
      ¬ ∃ value, setting = some value ∧ value ≠ [] ∧ value ≠ "0".toList := by
  rw [mapGet_zero]
  cases setting with
  | none => simp
  | some value =>
      have empty : unquoted (shellQuoted value) = [] ↔ value = [] :=
        unquoted_eq_iff List.not_mem_nil List.not_mem_nil
      rw [Option.map_some, Option.some_inj, empty, Option.some_inj]
      constructor
      · rintro (none | off) ⟨other, same, nonempty, on⟩
        · cases none
        · obtain rfl := Option.some.inj same
          exact off.elim nonempty on
      · intro off
        refine Or.inr (or_iff_not_imp_left.mpr fun nonempty => ?_)
        exact Classical.byContradiction fun on => off ⟨value, rfl, nonempty, on⟩

theorem timer_off {state : Option UnitState} :
    ((state.map fun state => state.word.toList) = some "disabled".toList ∨
      (state.map fun state => state.word.toList) = some "masked".toList) ↔
      ¬ (state ≠ some .disabled ∧ state ≠ some .masked) := by
  cases state with
  | none => simp
  | some state => cases state <;> decide +kernel

theorem aptConfig_answer :
    (host.answerOutput "apt-config" aptConfigArgs).filter (·.success) =
      host.apt.map fun config => ⟨true, encoded (config.shell aptConfigArgs.tail)⟩ := by
  unfold answerOutput aptConfigArgs
  cases host.apt <;> rfl

theorem apt_reports (apt : host.installed "apt-config" = true) :
    ReportsInstaller (collectAutoUpdateApt.answered host.answer) host.Tells
      host.InstallsUpdates := by
  unfold collectAutoUpdateApt Tells InstallsUpdates
  have asked : host.answer (.output "apt-config" aptConfigArgs) =
      host.answerOutput "apt-config" aptConfigArgs := rfl
  rw [answered_bind, answered_perform, if_pos apt, if_pos apt, asked, aptConfig_answer]
  cases settled : host.apt with
  | none => exact Or.inr (Or.inr ⟨nofun, rfl⟩)
  | some config =>
      have installs : (∃ other, some config = some other ∧ host.AptInstalls other) ↔
          host.AptInstalls config := by
        constructor
        · rintro ⟨other, same, installs⟩
          obtain rfl := Option.some.inj same
          exact installs
        · exact fun installs => ⟨config, rfl, installs⟩
      rw [installs]
      simp only [Option.map_some, answered_bind, answered_pure, answered_perform,
        systemctlIsEnabled_answered, encoded, fromUtf8Lossy_encoded, AptConfig.mapGet_enable,
        AptConfig.mapGet_unattended]
      change ReportsInstaller (autoUpdateRowApt _ _
        (host.pathExists "/usr/bin/unattended-upgrade".toList) _) _ _
      unfold autoUpdateRowApt
      by_cases present : host.pathExists "/usr/bin/unattended-upgrade".toList = true
      · simp only [present, Bool.not_true, Bool.false_eq_true, if_false, mapGet_off, timer_off]
        split
        · rename_i disabled
          exact Or.inr (Or.inl ⟨rfl, fun installs => installs.2.1 (mapGet_zero.mp disabled), rfl⟩)
        · rename_i enabled
          split
          · rename_i off
            exact Or.inr (Or.inl ⟨rfl, fun installs => off installs.2.2.1, rfl⟩)
          · rename_i on
            split
            · rename_i stopped
              exact Or.inr (Or.inl ⟨rfl, fun installs => stopped installs.2.2.2, rfl⟩)
            · rename_i running
              have switchedOn := fun zero => enabled (mapGet_zero.mpr zero)
              exact Or.inl ⟨rfl, ⟨present, switchedOn, Classical.not_not.mp on,
                Classical.not_not.mp running⟩, rfl⟩
      · simp only [Bool.eq_false_iff.mpr present, Bool.not_false, if_true]
        exact Or.inr (Or.inl ⟨rfl, fun installs => present installs.1, rfl⟩)

theorem says_at (path : String) (apply : Bool) :
    (host.answer (.readToString path.toList)).bind parseDnfApplyUpdates = some apply ↔
      host.SaysAt path apply := by
  change ((host.conf path.toList).map ConfFile.text).bind parseDnfApplyUpdates = _ ↔ _
  unfold SaysAt
  cases host.conf path.toList with
  | none => simp
  | some file =>
      rw [Option.map_some, Option.bind_some, file.parse_text]
      constructor
      · exact fun told => ⟨file, rfl, told⟩
      · rintro ⟨other, same, told⟩
        obtain rfl := Option.some.inj same
        exact told

theorem findApplyUpdates_answered (path : List Char) (rest : List (List Char)) :
    (findApplyUpdates (path :: rest)).answered host.answer =
      ((host.answer (.readToString path)).bind parseDnfApplyUpdates).or
        ((findApplyUpdates rest).answered host.answer) := by
  rw [findApplyUpdates, answered_bind, answered_perform]
  cases (host.answer (.readToString path)).bind parseDnfApplyUpdates <;> rfl

theorem findApplyUpdates_iff :
    (findApplyUpdates ["/etc/dnf/automatic.conf".toList,
      "/usr/share/dnf5/dnf5-plugins/automatic.conf".toList]).answered host.answer = some true ↔
      host.AppliesUpdates := by
  have nothing : (findApplyUpdates []).answered host.answer = none := rfl
  rw [findApplyUpdates_answered, findApplyUpdates_answered, nothing, Option.or_none]
  unfold AppliesUpdates
  rw [← says_at, ← says_at]
  have quiet : (∀ apply, ¬ host.SaysAt "/etc/dnf/automatic.conf" apply) ↔
      (host.answer (.readToString "/etc/dnf/automatic.conf".toList)).bind parseDnfApplyUpdates =
        none := by
    rw [Option.eq_none_iff_forall_ne_some]
    exact forall_congr' fun apply => not_congr (host.says_at _ apply).symm
  rw [quiet]
  cases (host.answer (.readToString "/etc/dnf/automatic.conf".toList)).bind
    parseDnfApplyUpdates with
  | none =>
      rw [Option.none_or]
      constructor
      · exact fun shipped => Or.inr ⟨rfl, shipped⟩
      · exact fun applies => applies.elim (fun own => nomatch own) And.right
  | some apply =>
      rw [Option.some_or]
      constructor
      · exact Or.inl
      · exact fun applies => applies.elim id fun both => nomatch both.1

theorem collectAutoUpdateDnf_answered (systemctl : host.installed "systemctl" = true) :
    collectAutoUpdateDnf.answered host.answer =
      autoUpdateRowDnf
        (decide (host.unit "dnf5-automatic.timer" = some .enabled ∨
          host.unit "dnf-automatic.timer" = some .enabled))
        (decide (host.unit "dnf-automatic-install.timer" = some .enabled))
        ((findApplyUpdates ["/etc/dnf/automatic.conf".toList,
          "/usr/share/dnf5/dnf5-plugins/automatic.conf".toList]).answered host.answer) := by
  unfold collectAutoUpdateDnf
  rw [answered_bind, binaryOnPath_answered, systemctl]
  simp only [Bool.not_true, Bool.false_eq_true, if_false, answered_bind, unitEnabled_answered]
  by_cases dnf5 : host.unit "dnf5-automatic.timer" = some .enabled
  · simp only [dnf5, decide_true, if_true, true_or, answered_bind, answered_pure,
      unitEnabled_answered]
  · simp only [dnf5, decide_false, Bool.false_eq_true, if_false, false_or, answered_bind,
      answered_pure, unitEnabled_answered]

theorem dnf_reports (noApt : host.installed "apt-config" = false) (dnf : host.HasDnf) :
    ReportsInstaller (collectAutoUpdateDnf.answered host.answer) host.Tells
      host.InstallsUpdates := by
  unfold Tells InstallsUpdates
  rw [noApt]
  simp only [Bool.false_eq_true, if_false]
  cases systemctl : host.installed "systemctl" with
  | false =>
      have unknown : rowEnabled (collectAutoUpdateDnf.answered host.answer) = some "unknown" := by
        unfold collectAutoUpdateDnf
        rw [answered_bind, binaryOnPath_answered, systemctl]
        rfl
      exact Or.inr (Or.inr ⟨fun tells => Bool.false_ne_true tells.2, unknown⟩)
  | true =>
      rw [host.collectAutoUpdateDnf_answered systemctl]
      unfold autoUpdateRowDnf DnfInstalls
      simp only [Bool.not_eq_true', decide_eq_true_eq, decide_eq_false_iff_not]
      split
      · rename_i installs
        exact Or.inl ⟨⟨dnf, trivial⟩, Or.inl installs, rfl⟩
      · rename_i noInstall
        split
        · rename_i noTimer
          refine Or.inr (Or.inl ⟨⟨dnf, trivial⟩, fun installs => ?_, rfl⟩)
          exact installs.elim noInstall fun both => noTimer both.1
        · rename_i timer
          split
          · rename_i found
            have applies := host.findApplyUpdates_iff.mp found
            exact Or.inl ⟨⟨dnf, trivial⟩, Or.inr ⟨Classical.not_not.mp timer, applies⟩, rfl⟩
          · rename_i notFound
            refine Or.inr (Or.inl ⟨⟨dnf, trivial⟩, fun installs => ?_, rfl⟩)
            refine installs.elim noInstall fun both => notFound ?_
            exact host.findApplyUpdates_iff.mpr both.2

theorem collectAutoUpdate_reports :
    ReportsInstaller (collectAutoUpdate.answered host.answer) host.Tells host.InstallsUpdates := by
  unfold collectAutoUpdate
  rw [answered_bind, binaryOnPath_answered]
  cases apt : host.installed "apt-config" with
  | true => exact host.apt_reports apt
  | false =>
      simp only [Bool.false_eq_true, if_false, answered_bind, binaryOnPath_answered]
      cases dnf5 : host.installed "dnf5" with
      | true => exact host.dnf_reports apt (Or.inl dnf5)
      | false =>
          simp only [Bool.false_eq_true, if_false, answered_bind, binaryOnPath_answered]
          cases dnf : host.installed "dnf" with
          | true => exact host.dnf_reports apt (Or.inr dnf)
          | false =>
              have nothing : ¬ host.Tells := by
                unfold Tells HasDnf
                rw [apt, dnf5, dnf]
                simp
              exact Or.inr (Or.inr ⟨nothing, rfl⟩)

end UpdatingHost

private def appliesYes : ConfFile where
  entries := [.remark " automatic updates".toList, .header "commands".toList,
    .assignment "apply_updates".toList "yes".toList]
  plain := by
    intro entry member
    rcases List.mem_cons.mp member with rfl | member
    · exact ⟨by decide, by decide⟩
    · rcases List.mem_cons.mp member with rfl | member
      · change lineEnd ∉ "commands".toList
        decide
      · obtain rfl := List.mem_singleton.mp member
        refine ⟨by decide, by decide, ?_, by decide, ?_, ?_⟩
        · intro c inKey
          have word : "apply_updates".toList.all
              (fun c => isWhitespace c == false && c != '=') = true := by decide
          have visible := List.all_eq_true.mp word c inKey
          rwa [Bool.and_eq_true, beq_iff_eq, bne_iff_ne] at visible
        · intro c atHead
          obtain rfl := Option.some.inj atHead
          decide
        · intro c atLast
          obtain rfl := Option.some.inj atLast
          decide

private def fedora : UpdatingHost where
  path := some "/usr/bin".toList
  isFile := fun path => path = "/usr/bin/dnf5".toList ∨ path = "/usr/bin/systemctl".toList
  pathExists := fun _ => false
  apt := none
  conf := fun path => if path = "/etc/dnf/automatic.conf".toList then some appliesYes else none
  unit := fun unit =>
    some (if unit = "dnf5-automatic.timer" then .enabled else .notFound)

end KlaayGuard
