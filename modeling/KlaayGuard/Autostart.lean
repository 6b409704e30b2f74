/-
The autostart entry of the Linux build, and what the desktop reads in it.

The path of the executable is written for the command's layer only, not for the string's
under it, so the entry starts this executable exactly where the path needs no escape and
stays on its line.
-/

import KlaayGuard.Library.DesktopEntry

set_option autoImplicit false

namespace KlaayGuard

open RustText DesktopEntry

def desktopExecField (path : String) : String :=
  String.ofList (quote :: (path.toList.flatMap fun c =>
    if c = quote ∨ c = '`' ∨ c = '$' ∨ c = backslash then [backslash, c]
    else if c = '%' then "%%".toList
    else [c]) ++ [quote])

def autostartHead : List String :=
  ["[Desktop Entry]", "Type=Application", "Name=KlaayGuard", "Comment=KlaayGuard security agent"]

def autostartTail : List String := ["Terminal=false", "X-GNOME-Autostart-enabled=true"]

def autostartLines (exec : String) : List (List Char) :=
  autostartHead.map String.toList ++ ("Exec=" ++ desktopExecField exec).toList ::
    autostartTail.map String.toList

def autostartEntry (exec : String) : String :=
  String.ofList ((autostartLines exec).flatMap (· ++ [lineFeed]))

def lineDisables (line : List Char) : Bool :=
  let l := toAsciiLowercase ((trim line).filter (· != ' '))
  l == "x-gnome-autostart-enabled=false".toList || l == "hidden=true".toList

def autostartIsUserDisabled (contents : String) : Bool := (lines contents.toList).any lineDisables

def autostartKeys : List (List Char) :=
  ["Type".toList, "Name".toList, "Comment".toList, "Exec".toList, "Terminal".toList,
    "X-GNOME-Autostart-enabled".toList]

/-- The text is one group with these keys, each once, and its command is this one path. -/
def StartsExactly (path : String) (text : List Char) : Prop :=
  ∃ entries command, parse text = some [⟨"Desktop Entry".toList, entries⟩] ∧
    (entries.map Prod.fst).Perm autostartKeys ∧
    entries.lookup "Exec".toList = some command ∧
    parseExec command = some [path.toList.map .char]

theorem toList_desktopExecField (path : String) :
    (desktopExecField path).toList = quoteArg path.toList := by
  have chars : (fun c => if c = quote ∨ c = '`' ∨ c = '$' ∨ c = backslash then [backslash, c]
      else if c = '%' then "%%".toList else [c]) = quoteChar := by
    funext c
    simp only [quoteChar, escapable, List.mem_cons, List.not_mem_nil, or_false]
    rfl
  rw [desktopExecField, String.toList_ofList, chars, quoteArg, List.cons_append]

theorem readLine_exec (more : List Char) :
    readLine ("Exec=".toList ++ quote :: more) =
      (DesktopEntry.unescape (quote :: more)).map (.entry "Exec".toList ·) := by
  have plain : '=' ∉ "Exec".toList := by decide
  have cut : splitOnce '=' ("Exec=".toList ++ quote :: more) =
      some ("Exec".toList, quote :: more) := splitOnce_append plain (quote :: more)
  have visible : ¬ (("Exec=".toList ++ quote :: more).all isBlank ∨
      ("Exec=".toList ++ quote :: more).head? = some '#') := by simp [isBlank]
  have noHeader : ("Exec=".toList ++ quote :: more).head? ≠ some '[' := by simp
  have key : "Exec".toList.rdropWhile isBlank = "Exec".toList := by decide +kernel
  have keyChars : "Exec".toList ≠ [] ∧ "Exec".toList.all isKeyChar = true := by decide +kernel
  have value : (quote :: more).dropWhile isBlank = quote :: more :=
    List.dropWhile_cons_of_neg (by decide)
  rw [readLine, if_neg visible, if_neg noHeader, cut, Option.bind_some]
  simp only [key, value, if_pos keyChars]

theorem quoteChar_feed {c d : Char} (feed : d = lineFeed) (member : d ∈ quoteChar c) :
    c = lineFeed := by
  subst feed
  rw [quoteChar] at member
  split_ifs at member
  · have apart : lineFeed ≠ backslash := by decide
    simp only [List.mem_cons, List.not_mem_nil, or_false, apart, false_or] at member
    exact member.symm
  · simp [lineFeed] at member
  · exact (List.mem_singleton.mp member).symm

theorem mapM_head (rest : List (List Char)) :
    (autostartHead.map String.toList ++ rest).mapM readLine =
      (rest.mapM readLine).map fun lines =>
        .header "Desktop Entry".toList :: .entry "Type".toList "Application".toList ::
          .entry "Name".toList "KlaayGuard".toList ::
          .entry "Comment".toList "KlaayGuard security agent".toList :: lines := by
  have header : readLine "[Desktop Entry]".toList = some (.header "Desktop Entry".toList) := by
    decide +kernel
  have type : readLine "Type=Application".toList =
      some (.entry "Type".toList "Application".toList) := by decide +kernel
  have name : readLine "Name=KlaayGuard".toList =
      some (.entry "Name".toList "KlaayGuard".toList) := by decide +kernel
  have comment : readLine "Comment=KlaayGuard security agent".toList =
      some (.entry "Comment".toList "KlaayGuard security agent".toList) := by decide +kernel
  rw [autostartHead]
  simp only [List.map_cons, List.map_nil, List.cons_append, List.nil_append, List.mapM_cons,
    header, type, name, comment]
  cases rest.mapM readLine <;> rfl

theorem head_plain : ∀ line ∈ autostartHead.map String.toList, lineFeed ∉ line := by
  decide +kernel

theorem exec_of_parse {first rest : List Char} {more : List (List Char)}
    (split : rest.splitOnP (· == lineFeed) = ("Exec=".toList ++ quote :: first) :: more)
    {name : List Char} {entries : List (List Char × List Char)} {command : List Char}
    (parsed : parse ((autostartHead.map String.toList).flatMap (· ++ [lineFeed]) ++ rest) =
      some [⟨name, entries⟩])
    (found : entries.lookup "Exec".toList = some command) :
    DesktopEntry.unescape (quote :: first) = some command := by
  have pieces : ((autostartHead.map String.toList).flatMap (· ++ [lineFeed]) ++ rest).splitOnP
      (· == lineFeed) = autostartHead.map String.toList ++
        ("Exec=".toList ++ quote :: first) :: more := by
    rw [← split]
    exact splitOnP_ended head_plain rest
  rw [parse, pieces, mapM_head, List.mapM_cons, readLine_exec] at parsed
  cases read : DesktopEntry.unescape (quote :: first) with
  | none =>
      rw [read] at parsed
      cases parsed
  | some value =>
      cases later : more.mapM readLine with
      | none =>
          rw [read, later] at parsed
          cases parsed
      | some lines =>
          rw [read, later] at parsed
          obtain ⟨lines', isLines, grouped⟩ := Option.bind_eq_some_iff.mp parsed
          obtain rfl := Option.some.inj isLines
          simp only at grouped
          split at grouped
          · have groups := Option.some.inj grouped
            simp only [collect, List.cons.injEq, Group.mk.injEq] at groups
            obtain ⟨⟨_, rfl⟩, _⟩ := groups
            exact found
          · cases grouped

theorem toList_autostartEntry (path : String) :
    (autostartEntry path).toList = (autostartHead.map String.toList).flatMap (· ++ [lineFeed]) ++
      (("Exec=".toList ++ quoteArg path.toList) ++
        lineFeed :: (autostartTail.map String.toList).flatMap (· ++ [lineFeed])) := by
  rw [autostartEntry, String.toList_ofList, autostartLines, List.flatMap_append, List.flatMap_cons,
    String.toList_append, toList_desktopExecField]
  simp only [List.append_assoc, List.singleton_append]

theorem feed_not_mem {text : List Char} (plain : lineFeed ∉ text) :
    lineFeed ∉ text.flatMap quoteChar := by
  intro member
  obtain ⟨c, inText, feed⟩ := List.mem_flatMap.mp member
  exact plain (quoteChar_feed rfl feed ▸ inText)

theorem feed_not_mem_exec {text : List Char} (plain : lineFeed ∉ text) :
    lineFeed ∉ "Exec=".toList ++ quote :: text := by
  intro member
  rcases List.mem_append.mp member with fixed | behind
  · exact absurd fixed (by decide)
  · rcases List.mem_cons.mp behind with same | inText
    · exact absurd same (by decide)
    · exact plain inText

theorem split_exec {text : List Char} (plain : lineFeed ∉ text) (rest : List Char) :
    (("Exec=".toList ++ quote :: text) ++ lineFeed :: rest).splitOnP (· == lineFeed) =
      ("Exec=".toList ++ quote :: text) :: rest.splitOnP (· == lineFeed) := by
  have inLine : ∀ c ∈ "Exec=".toList ++ quote :: text, (c == lineFeed) = false := by
    intro c member
    rw [beq_eq_false_iff_ne]
    rintro rfl
    exact feed_not_mem_exec plain member
  exact List.splitOnP_append_cons_of_forall_mem inLine lineFeed (beq_self_eq_true _) rest

theorem feed_not_mem_quoted {text : List Char} (plain : lineFeed ∉ text) :
    lineFeed ∉ text.flatMap quoteChar ++ [quote] := by
  intro member
  rcases List.mem_append.mp member with inText | last
  · exact feed_not_mem plain inText
  · exact absurd last (by decide)

theorem plain_of_starts {path : String} (starts : StartsExactly path (autostartEntry path).toList) :
    ∀ c ∈ path.toList, c ∉ escapable ∧ c ≠ lineFeed := by
  obtain ⟨entries, command, parsed, _, found, args⟩ := starts
  rw [toList_autostartEntry] at parsed
  by_cases feed : lineFeed ∈ path.toList
  · -- The quotes are not closed on the command's line.
    obtain ⟨front, back, split, first⟩ := List.eq_append_cons_of_mem feed
    have kept : quoteChar lineFeed = [lineFeed] := by decide
    have command_line : ("Exec=".toList ++ quoteArg path.toList) ++
        lineFeed :: (autostartTail.map String.toList).flatMap (· ++ [lineFeed]) =
        ("Exec=".toList ++ quote :: front.flatMap quoteChar) ++
          lineFeed :: (back.flatMap quoteChar ++ [quote] ++
            lineFeed :: (autostartTail.map String.toList).flatMap (· ++ [lineFeed])) := by
      rw [quoteArg, split, List.flatMap_append, List.flatMap_cons, kept]
      simp only [List.append_assoc, List.cons_append, List.nil_append]
    rw [command_line] at parsed
    have read := exec_of_parse (split_exec (feed_not_mem first) _) parsed found
    have opens : quote ≠ backslash ∧ quote ≠ ' ' := by decide
    rw [DesktopEntry.unescape, unescapeFrom, if_neg opens.1,
      ← List.append_nil (front.flatMap quoteChar)]
      at read
    obtain ⟨value, later, rfl⟩ := Option.map_eq_some_iff.mp read
    obtain ⟨plain, more, readMore, rfl⟩ := unescape_quoted later
    obtain rfl : more = [] := (Option.some.inj readMore).symm
    rw [parseExec, execFrom, if_neg opens.2, if_pos rfl, List.append_nil,
      (execFrom_unclosed plain []).1] at args
    cases args
  · have read := exec_of_parse (split_exec (feed_not_mem_quoted feed) _) parsed found
    have layers : (DesktopEntry.unescape (quoteArg path.toList)).bind parseExec =
        some [path.toList.map .char] := by
      rw [quoteArg, read, Option.bind_some, args]
    intro c member
    exact ⟨(parseExec_unescape_quoteArg _).mp layers c member,
      fun same => feed (same ▸ member)⟩

def entriesOf (command : List Char) : List (List Char × List Char) :=
  [("Type".toList, "Application".toList), ("Name".toList, "KlaayGuard".toList),
    ("Comment".toList, "KlaayGuard security agent".toList), ("Exec".toList, command),
    ("Terminal".toList, "false".toList), ("X-GNOME-Autostart-enabled".toList, "true".toList)]

theorem starts_of_plain {path : String}
    (plain : ∀ c ∈ path.toList, c ∉ escapable ∧ c ≠ lineFeed) :
    StartsExactly path (autostartEntry path).toList := by
  have noFeed : lineFeed ∉ path.toList := fun member => (plain _ member).2 rfl
  obtain ⟨command, read, args⟩ := Option.bind_eq_some_iff.mp
    ((parseExec_unescape_quoteArg path.toList).mpr fun c member => (plain c member).1)
  have tail : (autostartTail.map String.toList ++ [[]]).mapM readLine =
      some [.entry "Terminal".toList "false".toList,
        .entry "X-GNOME-Autostart-enabled".toList "true".toList, .comment] := by decide +kernel
  have tailPlain : ∀ line ∈ autostartTail.map String.toList, lineFeed ∉ line := by decide +kernel
  have ended := splitOnP_ended tailPlain []
  rw [List.append_nil, List.splitOnP_nil] at ended
  have pieces : (autostartEntry path).toList.splitOnP (· == lineFeed) =
      autostartHead.map String.toList ++ ("Exec=".toList ++ quoteArg path.toList) ::
        (autostartTail.map String.toList ++ [[]]) := by
    rw [toList_autostartEntry]
    refine (splitOnP_ended head_plain _).trans ?_
    rw [quoteArg]
    refine congrArg (_ ++ ·) ((split_exec (feed_not_mem_quoted noFeed) _).trans ?_)
    exact congrArg (_ :: ·) ended
  have keys : (entriesOf command).map Prod.fst = autostartKeys := rfl
  have distinct : autostartKeys.Nodup := by decide +kernel
  have read' : DesktopEntry.unescape (quote :: (path.toList.flatMap quoteChar ++ [quote])) =
      some command := read
  refine ⟨entriesOf command, command, ?_, by rw [keys], rfl, args⟩
  rw [parse, pieces, mapM_head, List.mapM_cons, quoteArg, readLine_exec, read', tail]
  rw [← keys] at distinct
  simp only [Option.map_some, Option.bind_eq_bind, Option.bind_some, Option.pure_def]
  refine if_pos ⟨rfl, List.pairwise_singleton _ _, fun group member => ?_⟩
  obtain rfl := List.mem_singleton.mp member
  exact distinct

theorem exec_disables_not (text : List Char) :
    lineDisables ("Exec=".toList ++ (text ++ [quote])) = false := by
  have visible : isWhitespace 'E' = false ∧ isWhitespace quote = false := by decide
  have last : ("Exec=".toList ++ (text ++ [quote])).getLast? = some quote := by
    rw [← List.append_assoc]
    exact List.getLast?_concat
  have trimmed : trim ("Exec=".toList ++ (text ++ [quote])) = "Exec=".toList ++ (text ++ [quote]) := by
    have whole := @trim_append [] ("Exec=".toList ++ (text ++ [quote])) [] (by simp) (by simp)
      (by simp) (fun c atHead => (Option.some.inj atHead) ▸ visible.1)
      fun c atLast => (Option.some.inj (last.symm.trans atLast)) ▸ visible.2
    rwa [List.nil_append, List.append_nil] at whole
  rw [lineDisables, trimmed]
  have lower : Char.toLower 'E' = 'e' := by decide
  simp [toAsciiLowercase, lower]

theorem not_disabled {path : String} (plain : lineFeed ∉ path.toList) :
    autostartIsUserDisabled (autostartEntry path) = false := by
  have execLine : ("Exec=" ++ desktopExecField path).toList =
      "Exec=".toList ++ (quote :: path.toList.flatMap quoteChar ++ [quote]) := by
    rw [String.toList_append, toList_desktopExecField, quoteArg, List.cons_append]
  have fixed : ∀ line ∈ autostartHead.map String.toList ++ autostartTail.map String.toList,
      (lineFeed ∉ line ∧ line.getLast? ≠ some (Char.ofNat 13)) ∧ lineDisables line = false := by
    decide +kernel
  have every : ∀ line ∈ autostartLines path,
      (lineFeed ∉ line ∧ line.getLast? ≠ some (Char.ofNat 13)) ∧ lineDisables line = false := by
    intro line member
    rcases List.mem_append.mp member with head | behind
    · exact fixed line (List.mem_append_left _ head)
    · rcases List.mem_cons.mp behind with rfl | tail
      · rw [execLine]
        refine ⟨⟨feed_not_mem_exec (feed_not_mem_quoted plain), ?_⟩, exec_disables_not _⟩
        · rw [← List.append_assoc, List.getLast?_concat]
          decide
      · exact fixed line (List.mem_append_right _ tail)
  have whole : lines ((autostartLines path).flatMap (· ++ [lineFeed])) = autostartLines path :=
    lines_of_ended fun line member => (every line member).1
  rw [autostartIsUserDisabled, autostartEntry, String.toList_ofList, whole, List.any_eq_false]
  intro line member
  rw [(every line member).2]
  exact Bool.false_ne_true

/-- The entry starts exactly this executable where its path holds no character that is
escaped inside quotes, and no line feed. -/
theorem autostart_starts_iff (path : String) :
    (StartsExactly path (autostartEntry path).toList ∧
      autostartIsUserDisabled (autostartEntry path) = false) ↔
      ∀ c ∈ path.toList, c ∉ [quote, '`', '$', backslash] ∧ c ≠ lineFeed := by
  constructor
  · rintro ⟨starts, _⟩
    exact plain_of_starts starts
  · intro plain
    exact ⟨starts_of_plain plain, not_disabled fun member => (plain _ member).2 rfl⟩

theorem dollar_starts_nothing :
    ¬ (StartsExactly "/opt/a$b" (autostartEntry "/opt/a$b").toList ∧
      autostartIsUserDisabled (autostartEntry "/opt/a$b") = false) := by
  rintro ⟨⟨entries, command, parsed, _⟩, _⟩
  have invalid : (parse (autostartEntry "/opt/a$b").toList).isNone = true := by decide +kernel
  rw [parsed] at invalid
  cases invalid

end KlaayGuard
