/-
The `/klaayguard/config` payload: the platform filter, the read-only gate and
the collection items they leave.

The gate looks at words cut at every character that is not an ASCII letter, an
ASCII digit or `_`.  SQLite reads longer identifiers: `$` and every non-ASCII
character belong to one.  What the gate lets through is therefore stated over
SQLite's own runs of identifier characters, and over the text as it was sent,
not only over the part the gate looked at.
-/

import KlaayGuard.Json
import KlaayGuard.Library.RustText

set_option autoImplicit false

namespace KlaayGuard

open RustText

/-- What is left of a query once `trim`, `trim_end_matches(';')` and `trim`
have run. -/
def trimmedQuery (sql : String) : List Char :=
  trim (trimEndMatches (· == ';') (trim sql.toList))

def isGateWordChar (c : Char) : Bool := isAsciiAlphanumeric c || c == '_'

def isReadOnlyQuery (sql : String) : Bool :=
  let trimmed := trimmedQuery sql
  -- Any remaining ';' means a second statement was stacked on.
  if trimmed.contains ';' then false
  else
    let lower := toAsciiLowercase trimmed
    if !("select".toList.isPrefixOf lower || "with".toList.isPrefixOf lower) then false
    else
      !(lower.splitOnP fun c => !isGateWordChar c).any fun tok =>
        tok = "insert".toList || tok = "update".toList || tok = "delete".toList ||
          tok = "replace".toList

def platformMatches (tag : Option String) (os : String) : Bool :=
  match tag with
  | none => true
  | some tag =>
      if (trim tag.toList).isEmpty then true
      else
        (tag.toList.splitOnP (· == ',')).any fun name =>
          match String.ofList (toAsciiLowercase (trim name)) with
          | "" | "all" | "any" | "null" => true
          | "posix" => os == "linux" || os == "macos"
          | "linux" | "ubuntu" | "centos" => os == "linux"
          | "darwin" | "macos" => os == "macos"
          | other => other == os

inductive CollectionItem : Type where
  | osquery (id sql : String)
  | builtin (id check : String)
  deriving DecidableEq, Repr

/-- The closure `parse_config_items` filters the `data` array with. -/
def parseConfigItem (os : String) (item : Value) : Option CollectionItem :=
  match item.stringAt "id" with
  | none => none
  | some id =>
      if !platformMatches (item.stringAt "platform") os then none
      else if item.stringAt "type" = some "builtin" then
        (item.stringAt "check").map fun check => .builtin id check
      else
        let sql := (item.stringAt "sql").getD ("SELECT * FROM " ++ id)
        if !isReadOnlyQuery sql then none else some (.osquery id sql)

def parseConfigItems (cfg : Value) (os : String) : List CollectionItem :=
  match (cfg.get "data").bind Value.asArray with
  | some arr => arr.filterMap (parseConfigItem os)
  | none => []

theorem parseConfigItem_osquery {os : String} {item : Value} {id sql : String}
    (kept : parseConfigItem os item = some (.osquery id sql)) :
    item.stringAt "id" = some id ∧ isReadOnlyQuery sql = true := by
  unfold parseConfigItem at kept
  cases atId : item.stringAt "id" with
  | none =>
      rw [atId] at kept
      cases kept
  | some found =>
      rw [atId] at kept
      simp only at kept
      split at kept
      · cases kept
      · split at kept
        · cases atCheck : item.stringAt "check" <;> simp [atCheck] at kept
        · split at kept
          · cases kept
          · rename_i accepted
            simp only [Option.some.injEq, CollectionItem.osquery.injEq] at kept
            obtain ⟨rfl, rfl⟩ := kept
            exact ⟨rfl, by simpa using accepted⟩

theorem parseConfigItems_osquery {cfg : Value} {os id sql : String}
    (kept : CollectionItem.osquery id sql ∈ parseConfigItems cfg os) :
    isReadOnlyQuery sql = true := by
  unfold parseConfigItems at kept
  split at kept
  · obtain ⟨item, _member, parsed⟩ := List.mem_filterMap.mp kept
    exact (parseConfigItem_osquery parsed).2
  · cases kept

/-! ### What an accepted query looks like -/

def isSqliteIdentifierChar (c : Char) : Bool :=
  isAsciiAlphanumeric c || c == '_' || c == '$' || !isAscii c

def writeVerbs : List (List Char) :=
  ["insert".toList, "update".toList, "delete".toList, "replace".toList]

/-- The pieces between semicolons that still hold something after a trim. -/
def statements (sql : String) : List (List Char) :=
  (sql.toList.splitOnP (· == ';')).filter fun piece => !(trim piece).isEmpty

theorem isReadOnlyQuery_iff (sql : String) :
    isReadOnlyQuery sql = true ↔
      ';' ∉ trimmedQuery sql ∧
      ("select".toList <+: toAsciiLowercase (trimmedQuery sql) ∨
        "with".toList <+: toAsciiLowercase (trimmedQuery sql)) ∧
      ∀ tok ∈ (toAsciiLowercase (trimmedQuery sql)).splitOnP fun c => !isGateWordChar c,
        tok ∉ writeVerbs := by
  simp only [isReadOnlyQuery, writeVerbs, List.contains_iff_mem, List.mem_cons,
    List.not_mem_nil, or_false, not_or, Bool.if_false_left, Bool.and_eq_true,
    Bool.not_eq_true', decide_eq_false_iff_not, Bool.not_eq_false, Bool.or_eq_true,
    List.isPrefixOf_iff_prefix, List.any_eq_false, decide_eq_true_eq, and_assoc]

theorem trimmedQuery_split (sql : String) :
    ∃ lead trail, sql.toList = lead ++ trimmedQuery sql ++ trail ∧
      (∀ c ∈ lead, isWhitespace c = true) ∧
      ∀ c ∈ trail, isWhitespace c = true ∨ c = ';' := by
  obtain ⟨lead, trail, atText, leadBlank, trailBlank⟩ := trim_split sql.toList
  obtain ⟨closers, atClosers, areClosers⟩ :=
    trimEndMatches_split (· == ';') (trim sql.toList)
  obtain ⟨lead', trail', atCore, leadBlank', trailBlank'⟩ :=
    trim_split (trimEndMatches (· == ';') (trim sql.toList))
  refine ⟨lead ++ lead', trail' ++ closers ++ trail, ?_, ?_, ?_⟩
  · calc
      sql.toList = lead ++ trim sql.toList ++ trail := atText
      _ = lead ++ (trimEndMatches (· == ';') (trim sql.toList) ++ closers) ++ trail := by
        rw [← atClosers]
      _ = lead ++ ((lead' ++ trimmedQuery sql ++ trail') ++ closers) ++ trail := by
        rw [trimmedQuery, ← atCore]
      _ = (lead ++ lead') ++ trimmedQuery sql ++ (trail' ++ closers ++ trail) := by
        simp only [List.append_assoc]
  · intro c member
    rcases List.mem_append.mp member with inLead | inLead
    · exact leadBlank c inLead
    · exact leadBlank' c inLead
  · intro c member
    rcases List.mem_append.mp member with early | inTrail
    · rcases List.mem_append.mp early with inTrail | inClosers
      · exact Or.inl (trailBlank' c inTrail)
      · exact Or.inr (by simpa using areClosers c inClosers)
    · exact Or.inl (trailBlank c inTrail)

private theorem single_statement {body trail : List Char} (noSemicolon : ';' ∉ body)
    (closing : ∀ c ∈ trail, isWhitespace c = true ∨ c = ';') :
    (((body ++ trail).splitOnP (· == ';')).filter
      fun piece => !(trim piece).isEmpty).length ≤ 1 := by
  by_cases closed : ';' ∈ trail
  · obtain ⟨early, late, atTrail, notEarly⟩ := List.eq_append_cons_of_mem closed
    have whole : ∀ c ∈ body ++ early, (c == ';') = false := by
      intro c member
      rw [beq_eq_false_iff_ne]
      rintro rfl
      exact (List.mem_append.mp member).elim noSemicolon notEarly
    have lateBlank : (late.splitOnP (· == ';')).filter
        (fun piece => !(trim piece).isEmpty) = [] := by
      rw [List.filter_eq_nil_iff]
      intro piece isPiece
      have blank : ∀ c ∈ piece, isWhitespace c = true := by
        intro c member
        have inLate := mem_of_mem_splitOnP isPiece member
        have inTrail : c ∈ trail := by
          rw [atTrail]
          exact List.mem_append_right _ (List.mem_cons_of_mem _ inLate.1)
        exact (closing c inTrail).resolve_right (by simpa using inLate.2)
      simp [trim_eq_nil_of_blank blank]
    rw [atTrail, ← List.append_assoc,
      List.splitOnP_append_cons_of_forall_mem whole ';' rfl late,
      List.filter_cons, lateBlank]
    split <;> simp
  · have whole : ∀ c ∈ body ++ trail, (c == ';') = false := by
      intro c member
      rw [beq_eq_false_iff_ne]
      rintro rfl
      exact (List.mem_append.mp member).elim noSemicolon closed
    rw [List.splitOnP_eq_singleton whole, List.filter_cons, List.filter_nil]
    split <;> simp

theorem isGateWordChar_of_blank_or_semicolon {c : Char}
    (outer : isWhitespace c = true ∨ c = ';') : isGateWordChar c = false := by
  rcases outer with blank | semicolon
  · by_contra word
    simp only [isGateWordChar, isAsciiAlphanumeric, isAsciiLetter, isAsciiDigit,
      Bool.not_eq_false, Bool.or_eq_true, Bool.and_eq_true, decide_eq_true_eq,
      beq_iff_eq] at word
    rcases word with alphanumeric | underscore
    · simp only [isWhitespace, Bool.or_eq_true, Bool.and_eq_true, decide_eq_true_eq,
        beq_iff_eq] at blank
      omega
    · subst underscore
      exact absurd blank (by decide)
  · subst semicolon
    decide

theorem isGateWordChar_toLower (c : Char) : isGateWordChar c.toLower = isGateWordChar c := by
  by_cases upper : 65 ≤ c.toNat ∧ c.toNat ≤ 90
  · have lowered := toNat_toLower upper
    have letter : isAsciiLetter c = true := by
      simp only [isAsciiLetter, Bool.or_eq_true, Bool.and_eq_true, decide_eq_true_eq]
      omega
    have letterLowered : isAsciiLetter c.toLower = true := by
      simp only [isAsciiLetter, Bool.or_eq_true, Bool.and_eq_true, decide_eq_true_eq]
      omega
    simp only [isGateWordChar, isAsciiAlphanumeric, letter, letterLowered, Bool.true_or]
  · rw [toLower_eq_self upper]

theorem isGateWordChar_of_not_sqlite {c : Char} (ends : isSqliteIdentifierChar c = false) :
    isGateWordChar c = false := by
  simp only [isSqliteIdentifierChar, Bool.or_eq_false_iff] at ends
  simp only [isGateWordChar, Bool.or_eq_false_iff]
  exact ends.1.1

theorem isGateWordChar_of_mem_writeVerbs {verb : List Char} (isVerb : verb ∈ writeVerbs) :
    ∀ c ∈ verb, isGateWordChar c = true := by
  have words : (writeVerbs.all fun verb => verb.all isGateWordChar) = true := by decide
  exact List.all_eq_true.mp (List.all_eq_true.mp words verb isVerb)

theorem verb_run_mem_gate_words {sql : String} {run : List Char}
    (isRun : MaximalRun isSqliteIdentifierChar sql.toList run)
    (isVerb : toAsciiLowercase run ∈ writeVerbs) :
    toAsciiLowercase run ∈
      (toAsciiLowercase (trimmedQuery sql)).splitOnP fun c => !isGateWordChar c := by
  obtain ⟨before, after, atText, notEmpty, _inside, left, right⟩ := isRun
  have whole : ∀ c ∈ run, (!isGateWordChar c) = false := by
    intro c member
    have lowered := isGateWordChar_of_mem_writeVerbs isVerb c.toLower
      (List.mem_map_of_mem member)
    rw [isGateWordChar_toLower] at lowered
    rw [lowered]
    rfl
  have piece : run ∈ sql.toList.splitOnP fun c => !isGateWordChar c := by
    rw [atText]
    apply mem_splitOnP_of_bordered before run after whole
    · intro c last
      rw [isGateWordChar_of_not_sqlite (left c last)]
      rfl
    · intro c first
      rw [isGateWordChar_of_not_sqlite (right c first)]
      rfl
  obtain ⟨lead, trail, atSplit, leadBlank, trailClosing⟩ := trimmedQuery_split sql
  have inCore : run ∈ (trimmedQuery sql).splitOnP fun c => !isGateWordChar c := by
    rw [atSplit, splitOnP_append_separators, splitOnP_separators_append] at piece
    · simpa [notEmpty] using piece
    · intro c member
      rw [isGateWordChar_of_blank_or_semicolon (Or.inl (leadBlank c member))]
      rfl
    · intro c member
      rw [isGateWordChar_of_blank_or_semicolon (trailClosing c member)]
      rfl
  rw [toAsciiLowercase, toAsciiLowercase, splitOnP_map]
  simp only [isGateWordChar_toLower]
  exact List.mem_map_of_mem inCore

/-- What the gate promises about a text it accepts. -/
structure ReadOnlyText (sql : String) : Prop where
  /-- Every `;` belongs to the part the three trims remove at the end. -/
  semicolonsTrail : ∃ lead trail, sql.toList = lead ++ trimmedQuery sql ++ trail ∧
    ';' ∉ lead ++ trimmedQuery sql ∧ ∀ c ∈ trail, isWhitespace c = true ∨ c = ';'
  singleStatement : (statements sql).length ≤ 1
  startsAsQuery : "select".toList <+: toAsciiLowercase (trimmedQuery sql) ∨
    "with".toList <+: toAsciiLowercase (trimmedQuery sql)
  noWriteVerb : ∀ run, MaximalRun isSqliteIdentifierChar sql.toList run →
    toAsciiLowercase run ∉ writeVerbs

theorem isReadOnlyQuery_sound {sql : String} (accepted : isReadOnlyQuery sql = true) :
    ReadOnlyText sql := by
  obtain ⟨noSemicolon, starts, noVerb⟩ := (isReadOnlyQuery_iff sql).mp accepted
  obtain ⟨lead, trail, atSplit, leadBlank, trailClosing⟩ := trimmedQuery_split sql
  have noEarly : ';' ∉ lead ++ trimmedQuery sql := by
    intro member
    rcases List.mem_append.mp member with inLead | inCore
    · exact absurd (leadBlank ';' inLead) (by decide)
    · exact noSemicolon inCore
  refine ⟨⟨lead, trail, atSplit, noEarly, trailClosing⟩, ?_, starts, ?_⟩
  · rw [statements, atSplit]
    exact single_statement noEarly trailClosing
  · intro run isRun isVerb
    exact noVerb _ (verb_run_mem_gate_words isRun isVerb) isVerb

/-- Every query the agent keeps from a config payload, sent by the server or
built from an id, is one read-only statement. -/
theorem parseConfigItems_readOnly (cfg : Value) (os id sql : String)
    (kept : CollectionItem.osquery id sql ∈ parseConfigItems cfg os) : ReadOnlyText sql :=
  isReadOnlyQuery_sound (parseConfigItems_osquery kept)

theorem parseConfigItems_readOnly_cte :
    ReadOnlyText " WITH t AS (SELECT 1) SELECT deleted, x$1 FROM t ;; " :=
  parseConfigItems_readOnly
    (.object [("data", .array [.object [("id", .string "users"),
      ("sql", .string " WITH t AS (SELECT 1) SELECT deleted, x$1 FROM t ;; ")]])])
    "linux" "users" _ (by decide)

end KlaayGuard
