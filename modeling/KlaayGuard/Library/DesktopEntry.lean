/-
Desktop entries: groups of keys with escaped values, and the command of an `Exec` key.

A value passes two layers before it is an argument.  As a string it has its escapes
undone, and the command that comes out of that has quoted arguments with escapes and field
codes of its own, so what is written for the second layer must be written for the first
one too.
-/

import KlaayGuard.Library.RustText

set_option autoImplicit false

namespace DesktopEntry

open RustText

def quote : Char := Char.ofNat 34

def backslash : Char := Char.ofNat 92

def lineFeed : Char := Char.ofNat 10

def escaped (c : Char) : Option Char :=
  if c = 's' then some ' '
  else if c = 'n' then some lineFeed
  else if c = 't' then some (Char.ofNat 9)
  else if c = 'r' then some (Char.ofNat 13)
  else if c = backslash then some backslash
  else none

/-- From a place on, which may be behind a backslash. -/
def unescapeFrom : Bool → List Char → Option (List Char)
  | false, [] => some []
  | true, [] => none
  | false, c :: rest =>
      if c = backslash then unescapeFrom true rest else (unescapeFrom false rest).map (c :: ·)
  | true, c :: rest => (escaped c).bind fun d => (unescapeFrom false rest).map (d :: ·)

/-- The string of a value, where every escape in it is one. -/
def unescape (value : List Char) : Option (List Char) := unescapeFrom false value

theorem unescape_of_plain {value : List Char} (plain : backslash ∉ value) :
    unescape value = some value := by
  induction value with
  | nil => rfl
  | cons c rest ih =>
      have differ : c ≠ backslash := fun same => plain (same ▸ List.mem_cons_self)
      have later := ih fun member => plain (List.mem_cons_of_mem _ member)
      rw [unescape] at later
      rw [unescape, unescapeFrom, if_neg differ, later, Option.map_some]

inductive Line : Type where
  | comment
  | header (name : List Char)
  | entry (key value : List Char)
  deriving DecidableEq

def isBlank (c : Char) : Bool := c == ' ' || c == Char.ofNat 9

def isKeyChar (c : Char) : Bool := isAsciiAlphanumeric c || c == '-'

/-- A line; blanks around the equals sign are ignored. -/
def readLine (line : List Char) : Option Line :=
  if line.all isBlank ∨ line.head? = some '#' then some .comment
  else if line.head? = some '[' then
    let name := line.tail.dropLast
    if line.getLast? = some ']' ∧ '[' ∉ name ∧ ']' ∉ name then some (.header name) else none
  else
    (splitOnce '=' line).bind fun parts =>
      let key := parts.1.rdropWhile isBlank
      if key ≠ [] ∧ key.all isKeyChar then
        (unescape (parts.2.dropWhile isBlank)).map (.entry key ·)
      else none

structure Group : Type where
  name : List Char
  entries : List (List Char × List Char)

def collect : List Line → List (List Char × List Char) × List Group
  | [] => ([], [])
  | .comment :: rest => collect rest
  | .entry key value :: rest => ((key, value) :: (collect rest).1, (collect rest).2)
  | .header name :: rest => ([], ⟨name, (collect rest).1⟩ :: (collect rest).2)

/-- The groups of an entry, where each line is one, none stands before the first header,
and neither a group nor a key of a group comes twice. -/
def parse (text : List Char) : Option (List Group) :=
  ((text.splitOnP (· == lineFeed)).mapM readLine).bind fun lines =>
    let read := collect lines
    if read.1 = [] ∧ (read.2.map Group.name).Nodup ∧
        ∀ group ∈ read.2, (group.entries.map Prod.fst).Nodup then some read.2
    else none

/-! ### The command of an `Exec` key -/

inductive ExecPiece : Type where
  | char (c : Char)
  | field (code : Char)
  deriving DecidableEq

inductive ExecState : Type where
  | between
  | bare (arg : List ExecPiece)
  | bareCode (arg : List ExecPiece)
  | quoted (arg : List ExecPiece)
  | quotedEscape (arg : List ExecPiece)
  | quotedCode (arg : List ExecPiece)
  | closed (arg : List ExecPiece)

/-- Inside quotes these stand behind a backslash. -/
def escapable : List Char := [quote, '`', '$', backslash]

/-- An argument with one of these is quoted. -/
def reserved : List Char :=
  [' ', Char.ofNat 9, lineFeed, quote, Char.ofNat 39, backslash, '>', '<', '~', '|', '&', ';',
    '$', '*', '?', '#', '(', ')', '`']

def fieldCodes : List Char := "fFuUdDnNickvm".toList

/-- The arguments from a place on.  One is quoted as a whole or not at all, and holds no
field code where it is. -/
def execFrom : ExecState → List Char → Option (List (List ExecPiece))
  | .between, [] => some []
  | .bare arg, [] | .closed arg, [] => some [arg]
  | .bareCode _, [] | .quoted _, [] | .quotedEscape _, [] | .quotedCode _, [] => none
  | .between, c :: rest =>
      if c = ' ' then execFrom .between rest
      else if c = quote then execFrom (.quoted []) rest
      else if c = '%' then execFrom (.bareCode []) rest
      else if c ∈ reserved then none
      else execFrom (.bare [.char c]) rest
  | .bare arg, c :: rest =>
      if c = ' ' then (execFrom .between rest).map (arg :: ·)
      else if c = '%' then execFrom (.bareCode arg) rest
      else if c ∈ reserved then none
      else execFrom (.bare (arg ++ [.char c])) rest
  | .bareCode arg, c :: rest =>
      if c = '%' then execFrom (.bare (arg ++ [.char '%'])) rest
      else if c ∈ fieldCodes then execFrom (.bare (arg ++ [.field c])) rest
      else none
  | .quoted arg, c :: rest =>
      if c = quote then execFrom (.closed arg) rest
      else if c = backslash then execFrom (.quotedEscape arg) rest
      else if c = '%' then execFrom (.quotedCode arg) rest
      else if c ∈ escapable then none
      else execFrom (.quoted (arg ++ [.char c])) rest
  | .quotedEscape arg, c :: rest =>
      if c ∈ escapable then execFrom (.quoted (arg ++ [.char c])) rest else none
  | .quotedCode arg, c :: rest =>
      if c = '%' then execFrom (.quoted (arg ++ [.char '%'])) rest else none
  | .closed arg, c :: rest =>
      if c = ' ' then (execFrom .between rest).map (arg :: ·) else none

def parseExec (command : List Char) : Option (List (List ExecPiece)) := execFrom .between command

def quoteChar (c : Char) : List Char :=
  if c ∈ escapable then [backslash, c] else if c = '%' then ['%', '%'] else [c]

def quoteArg (text : List Char) : List Char := quote :: (text.flatMap quoteChar ++ [quote])

theorem execFrom_quoteChar (arg : List ExecPiece) (c : Char) (rest : List Char) :
    execFrom (.quoted arg) (quoteChar c ++ rest) = execFrom (.quoted (arg ++ [.char c])) rest := by
  rw [quoteChar]
  split_ifs with special percent
  · have apart : backslash ≠ quote := by decide
    simp [execFrom, apart, special]
  · subst percent
    have apart : '%' ≠ quote ∧ '%' ≠ backslash := by decide
    simp [execFrom, apart.1, apart.2]
  · have apart : c ≠ quote ∧ c ≠ backslash := by
      constructor <;> rintro rfl <;> simp [escapable] at special
    simp [execFrom, apart.1, apart.2, percent, special]

theorem parseExec_quoteArg (text : List Char) :
    parseExec (quoteArg text) = some [text.map .char] := by
  have body : ∀ arg, execFrom (.quoted arg) (text.flatMap quoteChar ++ [quote]) =
      some [arg ++ text.map .char] := by
    induction text with
    | nil =>
        intro arg
        simp [execFrom]
    | cons c rest ih =>
        intro arg
        rw [List.flatMap_cons, List.append_assoc, execFrom_quoteChar, ih]
        simp
  have opens : quote ≠ ' ' := by decide
  rw [parseExec, quoteArg, execFrom, if_neg opens, if_pos rfl, body, List.nil_append]

def halfQuoted (c : Char) : List Char := if c = '%' then ['%', '%'] else [c]

theorem halfQuoted_of_plain {c : Char} (plain : c ∉ escapable) : halfQuoted c = quoteChar c := by
  rw [halfQuoted, quoteChar, if_neg plain]

theorem halfQuoted_backslash : halfQuoted backslash = [backslash] := by decide

theorem execFrom_quotedEscape_halfQuoted {c : Char} (plain : c ∉ escapable)
    (arg : List ExecPiece) (rest : List Char) :
    execFrom (.quotedEscape arg) (halfQuoted c ++ rest) = none := by
  have leads : ∃ more, halfQuoted c = c :: more := by
    rw [halfQuoted]
    split
    · rename_i percent
      exact ⟨['%'], by rw [percent]⟩
    · exact ⟨[], rfl⟩
  obtain ⟨more, leads⟩ := leads
  rw [leads, List.cons_append, execFrom, if_neg plain]

theorem execFrom_quoted_backslash (arg : List ExecPiece) (rest : List Char) :
    execFrom (.quoted arg) (halfQuoted backslash ++ rest) = execFrom (.quotedEscape arg) rest := by
  have apart : backslash ≠ quote := by decide
  rw [halfQuoted_backslash, List.singleton_append, execFrom, if_neg apart, if_pos rfl]

theorem execFrom_quotedEscape_backslash (arg : List ExecPiece) (rest : List Char) :
    execFrom (.quotedEscape arg) (halfQuoted backslash ++ rest) =
      execFrom (.quoted (arg ++ [.char backslash])) rest := by
  have special : backslash ∈ escapable := by decide
  rw [halfQuoted_backslash, List.singleton_append, execFrom, if_pos special]

theorem execFrom_quoted_halfQuoted {c : Char} (plain : c ∉ escapable) (arg : List ExecPiece)
    (rest : List Char) :
    execFrom (.quoted arg) (halfQuoted c ++ rest) = execFrom (.quoted (arg ++ [.char c])) rest := by
  rw [halfQuoted_of_plain plain, execFrom_quoteChar]

theorem unescapeFrom_backslash (c : Char) (rest : List Char) :
    unescapeFrom false (backslash :: c :: rest) =
      (escaped c).bind fun d => (unescapeFrom false rest).map (d :: ·) := by
  rw [unescapeFrom, if_pos rfl, unescapeFrom]

theorem unescapeFrom_quoteChar {c : Char} (plain : c ∈ escapable → c = backslash)
    (rest : List Char) :
    unescapeFrom false (quoteChar c ++ rest) =
      (unescapeFrom false rest).map (halfQuoted c ++ ·) := by
  rw [quoteChar]
  split_ifs with special percent
  · obtain rfl := plain special
    have one : escaped backslash = some backslash := by decide
    rw [List.cons_append, List.singleton_append, unescapeFrom_backslash, one, Option.bind_some,
      halfQuoted_backslash]
    rfl
  · subst percent
    have apart : '%' ≠ backslash := by decide
    have kept : halfQuoted '%' = ['%', '%'] := by decide
    rw [List.cons_append, unescapeFrom, if_neg apart, List.singleton_append, unescapeFrom,
      if_neg apart, Option.map_map, kept]
    rfl
  · have apart : c ≠ backslash := by
      rintro rfl
      simp [escapable] at special
    rw [List.singleton_append, unescapeFrom, if_neg apart, halfQuoted, if_neg percent]
    rfl

theorem unescapeFrom_refused {c : Char} (special : c ∈ escapable) (other : c ≠ backslash)
    (rest : List Char) : unescapeFrom false (quoteChar c ++ rest) = none := by
  have refused : escaped c = none := by
    have member := special
    simp only [escapable, List.mem_cons, List.not_mem_nil, or_false] at member
    rcases member with rfl | rfl | rfl | rfl <;> first | rfl | exact absurd rfl other
  rw [quoteChar, if_pos special, List.cons_append, List.singleton_append,
    unescapeFrom_backslash, refused, Option.bind_none]

theorem unescape_quoted {text rest value : List Char}
    (read : unescapeFrom false (text.flatMap quoteChar ++ rest) = some value) :
    (∀ c ∈ text, c ∈ escapable → c = backslash) ∧
      ∃ more, unescapeFrom false rest = some more ∧ value = text.flatMap halfQuoted ++ more := by
  induction text generalizing value with
  | nil => exact ⟨fun c member => absurd member List.not_mem_nil, value, read, rfl⟩
  | cons c text ih =>
      rw [List.flatMap_cons, List.append_assoc] at read
      have first : c ∈ escapable → c = backslash := by
        intro special
        by_contra other
        rw [unescapeFrom_refused special other] at read
        cases read
      rw [unescapeFrom_quoteChar first] at read
      obtain ⟨value, later, rfl⟩ := Option.map_eq_some_iff.mp read
      obtain ⟨plain, more, readMore, rfl⟩ := ih later
      refine ⟨List.forall_mem_cons.mpr ⟨first, plain⟩, more, readMore, ?_⟩
      rw [List.flatMap_cons, List.append_assoc]

/-- The second layer takes the backslashes in pairs, so it reads back less than the text
where there is one. -/
theorem execFrom_halfQuoted {text : List Char}
    (plain : ∀ c ∈ text, c ∈ escapable → c = backslash) :
    (∀ arg args, execFrom (.quoted arg) (text.flatMap halfQuoted ++ [quote]) = some args →
      ∃ tail, args = [arg ++ tail] ∧ tail.length ≤ text.length ∧
        (backslash ∈ text → tail.length < text.length)) ∧
    ∀ arg args, execFrom (.quotedEscape arg) (text.flatMap halfQuoted ++ [quote]) = some args →
      ∃ tail, args = [arg ++ tail] ∧ tail.length ≤ text.length := by
  induction text with
  | nil =>
      constructor
      · intro arg args read
        simp only [List.flatMap_nil, List.nil_append, execFrom, if_pos, Option.some.injEq] at read
        exact ⟨[], by rw [← read, List.append_nil], Nat.le_refl _,
          fun member => absurd member List.not_mem_nil⟩
      · intro arg args read
        have special : quote ∈ escapable := List.mem_cons_self
        simp only [List.flatMap_nil, List.nil_append, execFrom, if_pos special] at read
        cases read
  | cons c text ih =>
      obtain ⟨unescaped, behind⟩ := ih fun d member => plain d (List.mem_cons_of_mem _ member)
      have only := plain c List.mem_cons_self
      constructor
      · intro arg args read
        rw [List.flatMap_cons, List.append_assoc] at read
        by_cases special : c ∈ escapable
        · obtain rfl := only special
          rw [execFrom_quoted_backslash] at read
          obtain ⟨tail, rfl, short⟩ := behind arg args read
          exact ⟨tail, rfl, Nat.le_succ_of_le short, fun _ => Nat.lt_succ_of_le short⟩
        · rw [execFrom_quoted_halfQuoted special] at read
          obtain ⟨tail, rfl, short, shorter⟩ := unescaped _ args read
          refine ⟨.char c :: tail, by simp, Nat.succ_le_succ short, fun member => ?_⟩
          rcases List.mem_cons.mp member with rfl | inText
          · exact absurd (by decide) special
          · exact Nat.succ_lt_succ (shorter inText)
      · intro arg args read
        rw [List.flatMap_cons, List.append_assoc] at read
        by_cases special : c ∈ escapable
        · obtain rfl := only special
          rw [execFrom_quotedEscape_backslash] at read
          obtain ⟨tail, rfl, short, _⟩ := unescaped _ args read
          exact ⟨.char backslash :: tail, by simp, Nat.succ_le_succ short⟩
        · rw [execFrom_quotedEscape_halfQuoted special] at read
          cases read

theorem execFrom_unclosed {text : List Char}
    (plain : ∀ c ∈ text, c ∈ escapable → c = backslash) (arg : List ExecPiece) :
    execFrom (.quoted arg) (text.flatMap halfQuoted) = none ∧
      execFrom (.quotedEscape arg) (text.flatMap halfQuoted) = none := by
  induction text generalizing arg with
  | nil => exact ⟨rfl, rfl⟩
  | cons c text ih =>
      have later := ih fun d member => plain d (List.mem_cons_of_mem _ member)
      rw [List.flatMap_cons]
      by_cases special : c ∈ escapable
      · obtain rfl := plain c List.mem_cons_self special
        rw [execFrom_quoted_backslash, execFrom_quotedEscape_backslash]
        exact ⟨(later arg).2, (later _).1⟩
      · rw [execFrom_quoted_halfQuoted special, execFrom_quotedEscape_halfQuoted special]
        exact ⟨(later _).1, rfl⟩

/-- An argument that was written for the second layer only is read back exactly where it
needs no escape. -/
theorem parseExec_unescape_quoteArg (text : List Char) :
    (unescape (quoteArg text)).bind parseExec = some [text.map .char] ↔
      ∀ c ∈ text, c ∉ escapable := by
  have closing : unescapeFrom false [quote] = some [quote] := by decide
  have opens : quote ≠ backslash ∧ quote ≠ ' ' := by decide
  constructor
  · intro whole
    obtain ⟨value, read, parsed⟩ := Option.bind_eq_some_iff.mp whole
    rw [unescape, quoteArg, unescapeFrom, if_neg opens.1] at read
    obtain ⟨value, later, rfl⟩ := Option.map_eq_some_iff.mp read
    obtain ⟨plain, more, readMore, rfl⟩ := unescape_quoted later
    obtain rfl := Option.some.inj (closing.symm.trans readMore)
    rw [parseExec, execFrom, if_neg opens.2, if_pos rfl] at parsed
    obtain ⟨tail, args, _, shorter⟩ := (execFrom_halfQuoted plain).1 _ _ parsed
    intro c member special
    obtain rfl := plain c member special
    have short := shorter member
    simp only [List.nil_append, List.cons.injEq, and_true] at args
    rw [← args, List.length_map] at short
    exact absurd short (Nat.lt_irrefl _)
  · intro plain
    have noBackslash : backslash ∉ quoteArg text := by
      rw [quoteArg, List.mem_cons, List.mem_append, List.mem_singleton, List.mem_flatMap]
      rintro (same | ⟨c, member, inChar⟩ | same)
      · exact opens.1 same.symm
      · rw [quoteChar, if_neg (plain c member)] at inChar
        split at inChar
        · simp [backslash] at inChar
        · obtain rfl := List.mem_singleton.mp inChar
          exact plain _ member (by decide)
      · exact opens.1 same.symm
    rw [unescape_of_plain noBackslash, Option.bind_some, parseExec_quoteArg]

end DesktopEntry
