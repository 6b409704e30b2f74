/-
The read-only gate on queries that only read.

The gate looks for `;` and for four words anywhere in the text.  A query may
hold them inside a literal or a quoted identifier, where they do nothing.
Here the queries are read with their quotes, and compared with the gate.
-/

import KlaayGuard.Config
import KlaayGuard.Library.SqlRegions

set_option autoImplicit false

namespace KlaayGuard

open RustText SqlRegions

def isClosing (c : Char) : Bool := isWhitespace c || c == ';'

/-- The text without the blanks before it and the terminators behind it. -/
def statementBody (sql : String) : List Char :=
  trimEndMatches isClosing (trimStartMatches isWhitespace sql.toList)

def statementTail (sql : String) : List Char :=
  (trimStartMatches isWhitespace sql.toList).rtakeWhile isClosing

def leftOver (sql : String) : List Char :=
  trimEndMatches isWhitespace
    (trimEndMatches (· == ';') (trimEndMatches isWhitespace (statementTail sql)))

/-- No blank stands between two terminators. -/
def terminatorsTogether (sql : String) : Bool :=
  (trimEndMatches (· == ';') (trimEndMatches isWhitespace (statementTail sql))).all isWhitespace

section Trims

variable {α : Type} {p : α → Bool}

private theorem rdropWhile_append_of_last {initial : List α}
    (stops : ∀ c, initial.getLast? = some c → p c = false) (trail : List α) :
    (initial ++ trail).rdropWhile p = initial ++ trail.rdropWhile p := by
  induction trail using List.reverseRecOn with
  | nil =>
      rw [List.append_nil, List.rdropWhile_nil, List.append_nil]
      cases last : initial.getLast? with
      | none => simp [List.getLast?_eq_none_iff.mp last]
      | some c =>
          obtain ⟨start, rfl⟩ := List.getLast?_eq_some_iff.mp last
          rw [List.rdropWhile_concat_neg]
          simp [stops c last]
  | append_singleton trail c ih =>
      rw [← List.append_assoc, List.rdropWhile_concat, List.rdropWhile_concat, ih]
      split
      · rfl
      · exact List.append_assoc _ _ _

private theorem getLast?_rdropWhile {text : List α} {c : α}
    (last : (text.rdropWhile p).getLast? = some c) : p c = false := by
  have notEmpty : text.rdropWhile p ≠ [] := by
    rintro empty
    rw [empty] at last
    cases last
  have stops := List.rdropWhile_last_not p text notEmpty
  rw [List.getLast?_eq_some_getLast notEmpty, Option.some.injEq] at last
  rw [last] at stops
  simpa using stops

end Trims

private theorem dropWhile_of_prefix {α : Type} {p : α → Bool} {text initial : List α}
    (starts : initial <+: text.dropWhile p) : initial.dropWhile p = initial := by
  cases initial with
  | nil => rfl
  | cons c rest =>
      obtain ⟨more, atText⟩ := starts
      have stops := List.head?_dropWhile_not p text
      rw [← atText] at stops
      rw [List.dropWhile_cons_of_neg]
      simpa using stops

private theorem body_append_tail (sql : String) :
    trimStartMatches isWhitespace sql.toList = statementBody sql ++ statementTail sql :=
  List.rdropWhile_append_rtakeWhile.symm

private theorem trimEndMatches_body {p : Char → Bool}
    (closing : ∀ c, p c = true → isClosing c = true) (sql : String) (trail : List Char) :
    trimEndMatches p (statementBody sql ++ trail) =
      statementBody sql ++ trimEndMatches p trail := by
  apply rdropWhile_append_of_last
  intro c last
  have stops := getLast?_rdropWhile last
  by_contra inside
  rw [closing c (by simpa using inside)] at stops
  cases stops

private theorem trimEndMatches_starts (p : Char → Bool) (text : List Char) :
    trimEndMatches p text <+: text := List.rdropWhile_prefix p text

theorem trimmedQuery_eq (sql : String) : trimmedQuery sql = statementBody sql ++ leftOver sql := by
  have blank : ∀ c, isWhitespace c = true → isClosing c = true := by
    intro c isBlank
    simp [isClosing, isBlank]
  have semicolon : ∀ c, (c == ';') = true → isClosing c = true := by
    intro c isSemicolon
    simp [isClosing, isSemicolon]
  have inner : trimEndMatches (· == ';') (trim sql.toList) = statementBody sql ++
      trimEndMatches (· == ';') (trimEndMatches isWhitespace (statementTail sql)) := by
    rw [trim, body_append_tail, trimEndMatches_body blank, trimEndMatches_body semicolon]
  have starts : statementBody sql ++
      trimEndMatches (· == ';') (trimEndMatches isWhitespace (statementTail sql)) <+:
      sql.toList.dropWhile isWhitespace := by
    rw [← inner]
    exact (trimEndMatches_starts _ _).trans (trimEndMatches_starts isWhitespace _)
  rw [trimmedQuery, inner, trim, trimStartMatches, dropWhile_of_prefix starts,
    trimEndMatches_body blank, leftOver]

private theorem leftOver_starts (sql : String) : leftOver sql <+: statementTail sql := by
  apply (trimEndMatches_starts isWhitespace _).trans
  apply (trimEndMatches_starts (· == ';') _).trans
  exact trimEndMatches_starts isWhitespace _

theorem semicolon_not_mem_leftOver (sql : String) :
    ';' ∉ leftOver sql ↔ terminatorsTogether sql = true := by
  constructor
  · intro absent
    rw [terminatorsTogether, List.all_eq_true, ← List.rdropWhile_eq_nil_iff]
    by_contra notEmpty
    obtain ⟨c, last⟩ := Option.isSome_iff_exists.mp (List.getLast?_isSome.mpr notEmpty)
    have notBlank := getLast?_rdropWhile last
    have member : c ∈ leftOver sql := List.mem_of_getLast? last
    have closing : isClosing c = true := by
      exact List.mem_rtakeWhile_imp ((leftOver_starts sql).subset member)
    simp only [isClosing, notBlank, Bool.false_or, beq_iff_eq] at closing
    exact absent (closing ▸ member)
  · intro together
    rw [terminatorsTogether, List.all_eq_true, ← List.rdropWhile_eq_nil_iff] at together
    rw [leftOver, trimEndMatches, together]
    exact List.not_mem_nil

theorem leftOver_eq_nil {sql : String} (together : terminatorsTogether sql = true) :
    leftOver sql = [] := by
  rw [terminatorsTogether, List.all_eq_true] at together
  exact List.rdropWhile_eq_nil_iff.mpr together

/-! ### Honest queries -/

def bodyMarks (sql : String) : List Mark := marks .code (statementBody sql)

/-- The runs SQLite reads as one identifier, keyword or number. -/
def identifiers (sql : String) : List (List Mark) :=
  (bodyMarks sql).splitOnP fun mark => !isSqliteIdentifierChar mark.char

def queryKeywords : List (List Char) := ["select".toList, "with".toList]

/-- One statement that starts as a query, and whose semicolons and write verbs
all stand in quotes. -/
structure HonestQuery (sql : String) : Prop where
  startsAsQuery : toAsciiLowercase ((statementBody sql).takeWhile isSqliteIdentifierChar) ∈
    queryKeywords
  finished : (regionAfter (statementBody sql)).unfinished = false
  semicolonsQuoted : ∀ mark ∈ bodyMarks sql, mark.char = ';' → mark.region.quoted = true
  verbsQuoted : ∀ piece ∈ identifiers sql, toAsciiLowercase (textOf piece) ∈ writeVerbs →
    inQuotes piece = true

def gateWords (text : List Char) : List (List Char) :=
  text.splitOnP fun c => !isGateWordChar c

/-- Nothing in the quotes, in the identifiers or behind the statement is taken
for a statement of its own. -/
structure ReadsAlike (sql : String) : Prop where
  together : terminatorsTogether sql = true
  noQuotedSemicolon : ∀ mark ∈ bodyMarks sql, mark.region.quoted = true → mark.char ≠ ';'
  noQuotedVerb : ∀ piece ∈ identifiers sql, inQuotes piece = true →
    ∀ word ∈ gateWords (textOf piece), toAsciiLowercase word ∉ writeVerbs
  noCutVerb : ∀ piece ∈ identifiers sql, inQuotes piece = false →
    ∀ word ∈ gateWords (textOf piece), word ≠ textOf piece → toAsciiLowercase word ∉ writeVerbs

theorem char_mem_body {sql : String} {c : Char} :
    c ∈ statementBody sql ↔ ∃ mark ∈ bodyMarks sql, mark.char = c := by
  rw [← textOf_marks .code (statementBody sql), textOf, List.mem_map]
  rfl

theorem gateWords_body (sql : String) :
    gateWords (statementBody sql) =
      (identifiers sql).flatMap fun piece => gateWords (textOf piece) := by
  have refines : ∀ c, (!isSqliteIdentifierChar c) = true → (!isGateWordChar c) = true := by
    intro c ends
    rw [Bool.not_eq_true'] at ends ⊢
    exact isGateWordChar_of_not_sqlite ends
  have atMarks : ((bodyMarks sql).map Mark.char).splitOnP (fun c => !isSqliteIdentifierChar c) =
      (identifiers sql).map (List.map Mark.char) := splitOnP_map Mark.char (bodyMarks sql)
  rw [gateWords, splitOnP_refine refines, ← textOf_marks .code (statementBody sql), textOf,
    ← bodyMarks, atMarks, List.flatMap_map]
  rfl

theorem gate_words_lower (text : List Char) :
    (∀ tok ∈ (toAsciiLowercase text).splitOnP fun c => !isGateWordChar c, tok ∉ writeVerbs) ↔
      ∀ word ∈ gateWords text, toAsciiLowercase word ∉ writeVerbs := by
  rw [toAsciiLowercase, splitOnP_map]
  simp only [isGateWordChar_toLower, List.forall_mem_map]
  rfl

theorem HonestQuery.starts {sql : String} (honest : HonestQuery sql) :
    "select".toList <+: toAsciiLowercase (statementBody sql) ∨
      "with".toList <+: toAsciiLowercase (statementBody sql) := by
  have first : toAsciiLowercase ((statementBody sql).takeWhile isSqliteIdentifierChar) <+:
      toAsciiLowercase (statementBody sql) := (List.takeWhile_prefix _).map Char.toLower
  have keyword := honest.startsAsQuery
  simp only [queryKeywords, List.mem_cons, List.not_mem_nil, or_false] at keyword
  rcases keyword with select | cte
  · exact Or.inl (select ▸ first)
  · exact Or.inr (cte ▸ first)

theorem ReadsAlike.accepted {sql : String} (alike : ReadsAlike sql) (honest : HonestQuery sql) :
    isReadOnlyQuery sql = true := by
  have atBody : trimmedQuery sql = statementBody sql := by
    rw [trimmedQuery_eq, leftOver_eq_nil alike.together, List.append_nil]
  rw [isReadOnlyQuery_iff, atBody, gate_words_lower]
  refine ⟨?_, ?_, ?_⟩
  · intro member
    obtain ⟨mark, atMark, isSemicolon⟩ := char_mem_body.mp member
    exact alike.noQuotedSemicolon mark atMark (honest.semicolonsQuoted mark atMark isSemicolon)
      isSemicolon
  · exact honest.starts
  · intro word isWord isVerb
    rw [gateWords_body, List.mem_flatMap] at isWord
    obtain ⟨piece, atPiece, inPiece⟩ := isWord
    cases enclosed : inQuotes piece with
    | true => exact alike.noQuotedVerb piece atPiece enclosed word inPiece isVerb
    | false =>
        -- Outside the quotes a verb would be the whole identifier.
        by_cases whole : word = textOf piece
        · have quoted := honest.verbsQuoted piece atPiece (whole ▸ isVerb)
          rw [enclosed] at quoted
          cases quoted
        · exact alike.noCutVerb piece atPiece enclosed word inPiece whole isVerb

theorem readsAlike_of_accepted {sql : String} (accepted : isReadOnlyQuery sql = true) :
    ReadsAlike sql := by
  rw [isReadOnlyQuery_iff] at accepted
  obtain ⟨noSemicolon, _starts, noVerb⟩ := accepted
  rw [trimmedQuery_eq, List.mem_append, not_or] at noSemicolon
  have together := (semicolon_not_mem_leftOver sql).mp noSemicolon.2
  rw [gate_words_lower, trimmedQuery_eq, leftOver_eq_nil together, List.append_nil,
    gateWords_body] at noVerb
  have quiet : ∀ piece ∈ identifiers sql, ∀ word ∈ gateWords (textOf piece),
      toAsciiLowercase word ∉ writeVerbs := by
    intro piece atPiece word inPiece
    exact noVerb word (List.mem_flatMap.mpr ⟨piece, atPiece, inPiece⟩)
  constructor
  · exact together
  · intro mark atMark _quoted isSemicolon
    exact noSemicolon.1 (char_mem_body.mpr ⟨mark, atMark, isSemicolon⟩)
  · exact fun piece atPiece _enclosed => quiet piece atPiece
  · exact fun piece atPiece _enclosed word inPiece _cut => quiet piece atPiece word inPiece

/-- An item of the payload that asks osquery for this text on this system. -/
structure AsksFor (os : String) (item : Value) (id sql : String) : Prop where
  named : item.stringAt "id" = some id
  here : platformMatches (item.stringAt "platform") os = true
  notBuiltin : item.stringAt "type" ≠ some "builtin"
  text : (item.stringAt "sql").getD ("SELECT * FROM " ++ id) = sql

theorem AsksFor.kept {os id sql : String} {item : Value} (asks : AsksFor os item id sql)
    (accepted : isReadOnlyQuery sql = true) :
    parseConfigItem os item = some (.osquery id sql) := by
  simp only [parseConfigItem, asks.named, asks.here, asks.notBuiltin, asks.text, accepted,
    Bool.not_true, Bool.false_eq_true, if_false]

theorem mem_parseConfigItems {cfg item : Value} {items : List Value} {os : String}
    {kept : CollectionItem} (data : (cfg.get "data").bind Value.asArray = some items)
    (member : item ∈ items) (parsed : parseConfigItem os item = some kept) :
    kept ∈ parseConfigItems cfg os := by
  rw [parseConfigItems, data]
  exact List.mem_filterMap.mpr ⟨item, member, parsed⟩

/-- The gate lets the query through, and every payload that asks for it keeps
it. -/
def Kept (sql : String) : Prop :=
  isReadOnlyQuery sql = true ∧
    ∀ {cfg item : Value} {items : List Value} {os id : String},
      (cfg.get "data").bind Value.asArray = some items → item ∈ items →
      AsksFor os item id sql → .osquery id sql ∈ parseConfigItems cfg os

/-- An honest query is kept exactly when nothing in it reads like a statement
of its own to a gate that does not see quotes. -/
theorem honest_query_kept_iff {sql : String} (honest : HonestQuery sql) :
    Kept sql ↔ ReadsAlike sql := by
  constructor
  · exact fun kept => readsAlike_of_accepted kept.1
  · intro alike
    have accepted := alike.accepted honest
    exact ⟨accepted, fun data member asks => mem_parseConfigItems data member
      (asks.kept accepted)⟩

theorem honest_query_kept_iff_literal :
    Kept "SELECT * FROM patches WHERE description = 'Security Patch' ;; " ↔
      ReadsAlike "SELECT * FROM patches WHERE description = 'Security Patch' ;; " := by
  apply honest_query_kept_iff
  constructor <;> decide +kernel

/-- The gate refuses an honest query for what its literal says, and the item is
gone. -/
theorem honest_query_dropped :
    HonestQuery "SELECT * FROM patches WHERE description = 'Security Update'" ∧
      isReadOnlyQuery "SELECT * FROM patches WHERE description = 'Security Update'" = false ∧
      parseConfigItems (.object [("data", .array [.object [("id", .string "patches"),
        ("sql", .string "SELECT * FROM patches WHERE description = 'Security Update'")]])])
        "windows" = [] ∧
      isReadOnlyQuery "SELECT * FROM patches WHERE description = 'Security Patch'" = true := by
  have honest : HonestQuery
      "SELECT * FROM patches WHERE description = 'Security Update'" := by
    constructor <;> decide +kernel
  refine ⟨honest, ?_, ?_, ?_⟩
  · decide +kernel
  · decide +kernel
  · decide +kernel

end KlaayGuard
