/-
Hyprland's screen lock: the first listener of `hypridle.conf` that reads as a lock.

The parser counts braces from an opening line to the line that closes it, and takes
the last timeout and any lock command in between.  It stops at the first listener
that has both, so a later listener that fires is not seen behind one that never does;
and it counts the braces of values too, so one can cut a listener short or leave it open.
-/

import KlaayGuard.Library.RustText
import KlaayGuard.ScreenLockRow

set_option autoImplicit false

namespace KlaayGuard

open RustText

def hypridleLine (raw : List Char) : List Char := trim (raw.takeWhile (· ≠ '#'))

def opensListener (line : List Char) : Bool :=
  contains line "listener".toList && line.contains '{'

/-- Any lock command counts, but no unlock. -/
def commandLocks (command : List Char) : Bool :=
  contains (toAsciiLowercase command) "lock".toList &&
    !contains (toAsciiLowercase command) "unlock".toList

structure ListenerState : Type where
  depth : Int
  inListener : Bool
  timeout : Option Nat
  locks : Bool
  deriving DecidableEq, Repr

def readListenerKey (state : ListenerState) (line : List Char) : ListenerState :=
  match splitOnce '=' line with
  | some (key, value) =>
      if trim key = "timeout".toList then { state with timeout := parseU64 (trim value) }
      else if trim key = "on-timeout".toList then
        { state with locks := state.locks || commandLocks value }
      else state
  | none => state

def parseHypridleLines (state : ListenerState) : List (List Char) → Option Nat
  | [] => none
  | raw :: rest =>
      let line := hypridleLine raw
      if opensListener line then
        parseHypridleLines { depth := 1, inListener := true, timeout := none, locks := false } rest
      else if state.inListener then
        let depth := state.depth + line.count '{' - line.count '}'
        let state := readListenerKey { state with depth := depth } line
        if state.depth ≤ 0 then
          let state := { state with inListener := false }
          match state.locks, state.timeout with
          | true, some t => some t
          | _, _ => parseHypridleLines state rest
        else parseHypridleLines state rest
      else parseHypridleLines state rest

def parseHypridleConfig (text : List Char) : Option Nat :=
  parseHypridleLines { depth := 0, inListener := false, timeout := none, locks := false }
    (lines text)

def screenlockRowHyprland (lockTimeout : Option Nat) : Value :=
  match lockTimeout with
  | some 0 => screenlockRow "hyprland" "no" (some 0) "hypridle" "lock listener has timeout 0"
  | some t => screenlockRow "hyprland" "yes" (some t) "hypridle" "lock listener present"
  | none => screenlockRow "hyprland" "unknown" none "hypridle" "no hypridle lock listener found"

def keyValue (key : String) (raw : List Char) : Option (List Char) :=
  ((splitOnce '=' (hypridleLine raw)).filter fun pair => trim pair.1 = key.toList).map Prod.snd

def lineTimeout (raw : List Char) : Option (Option Nat) :=
  (keyValue "timeout" raw).map fun value => parseU64 (trim value)

def lineLocks (raw : List Char) : Bool := (keyValue "on-timeout" raw).any commandLocks

def lineNet (raw : List Char) : Int :=
  (hypridleLine raw).count '{' - (hypridleLine raw).count '}'

def braceNet : List (List Char) → Int
  | [] => 0
  | raw :: rest => lineNet raw + braceNet rest

theorem braceNet_append (lines more : List (List Char)) :
    braceNet (lines ++ more) = braceNet lines + braceNet more := by
  induction lines with
  | nil => exact (Int.zero_add _).symm
  | cons raw rest ih =>
      rw [List.cons_append, braceNet, braceNet, ih]
      omega

theorem readListenerKey_eq (state : ListenerState) (raw : List Char) :
    readListenerKey state (hypridleLine raw) =
      { state with
        timeout := (lineTimeout raw).getD state.timeout
        locks := state.locks || lineLocks raw } := by
  simp only [readListenerKey, lineTimeout, lineLocks, keyValue]
  cases splitOnce '=' (hypridleLine raw) with
  | none => simp
  | some pair =>
      obtain ⟨key, value⟩ := pair
      simp only [Option.filter_some]
      by_cases isTimeout : trim key = "timeout".toList
      · have notCommand : trim key ≠ "on-timeout".toList := by
          rw [isTimeout]
          decide
        rw [if_pos isTimeout, decide_eq_true isTimeout, decide_eq_false notCommand]
        simp
      · rw [if_neg isTimeout, decide_eq_false isTimeout]
        by_cases isCommand : trim key = "on-timeout".toList
        · rw [if_pos isCommand, decide_eq_true isCommand]
          simp
        · rw [if_neg isCommand, decide_eq_false isCommand]
          simp

def isOpening (raw : List Char) : Bool := opensListener (hypridleLine raw)

def listenerSegments : List (List Char) → List (List (List Char))
  | [] => []
  | raw :: rest =>
      if isOpening raw then rest.takeWhile (!isOpening ·) :: listenerSegments rest
      else listenerSegments rest

/-- The lines up to the one that closes the braces open so far. -/
def untilClosed (depth : Int) : List (List Char) → Option (List (List Char))
  | [] => none
  | raw :: rest =>
      if depth + lineNet raw ≤ 0 then some [raw]
      else (untilClosed (depth + lineNet raw) rest).map (raw :: ·)

/-- With a lock command among the lines, what the last timeout among them parses to. -/
def listenerReading (inside : List (List Char)) : Option Nat :=
  if inside.any lineLocks then (inside.filterMap lineTimeout).getLast?.join else none

def segmentReading (segment : List (List Char)) : Option Nat :=
  (untilClosed 1 segment).bind listenerReading

private def readingFrom (timeout : Option Nat) (locks : Bool) (inside : List (List Char)) :
    Option Nat :=
  if locks || inside.any lineLocks then (inside.filterMap lineTimeout).getLast?.getD timeout
  else none

private theorem readingFrom_none (inside : List (List Char)) :
    readingFrom none false inside = listenerReading inside := by
  rw [readingFrom, listenerReading, Bool.false_or]
  congr 1
  cases (inside.filterMap lineTimeout).getLast? <;> rfl

private theorem readingFrom_cons (timeout : Option Nat) (locks : Bool) (raw : List Char)
    (inside : List (List Char)) :
    readingFrom timeout locks (raw :: inside) =
      readingFrom ((lineTimeout raw).getD timeout) (locks || lineLocks raw) inside := by
  rw [readingFrom, readingFrom, List.any_cons, Bool.or_assoc, List.filterMap_cons]
  cases lineTimeout raw with
  | none => rfl
  | some value =>
      dsimp only [Option.getD_some]
      rw [List.getLast?_cons]
      rfl

private theorem parseHypridleLines_eq (rest : List (List Char)) :
    (∀ depth timeout locks, parseHypridleLines ⟨depth, true, timeout, locks⟩ rest =
      ((untilClosed depth (rest.takeWhile (!isOpening ·))).bind (readingFrom timeout locks)).or
        ((listenerSegments rest).findSome? segmentReading)) ∧
    ∀ depth timeout locks, parseHypridleLines ⟨depth, false, timeout, locks⟩ rest =
      (listenerSegments rest).findSome? segmentReading := by
  induction rest with
  | nil => exact ⟨fun _ _ _ => rfl, fun _ _ _ => rfl⟩
  | cons raw rest ih =>
      obtain ⟨inside, outside⟩ := ih
      by_cases opening : isOpening raw = true
      · have segments : listenerSegments (raw :: rest) =
            rest.takeWhile (!isOpening ·) :: listenerSegments rest := if_pos opening
        have reopened : parseHypridleLines ⟨1, true, none, false⟩ rest =
            (listenerSegments (raw :: rest)).findSome? segmentReading := by
          rw [inside, segments, List.findSome?_cons, segmentReading]
          simp only [funext readingFrom_none]
          cases (untilClosed 1 (rest.takeWhile (!isOpening ·))).bind listenerReading <;> rfl
        constructor
        · intro depth timeout locks
          rw [parseHypridleLines, ← isOpening, if_pos opening, reopened,
            List.takeWhile_cons_of_neg (by simp [opening])]
          rfl
        · intro depth timeout locks
          rw [parseHypridleLines, ← isOpening, if_pos opening, reopened]
      · have segments : listenerSegments (raw :: rest) = listenerSegments rest := if_neg opening
        constructor
        · intro depth timeout locks
          rw [parseHypridleLines, ← isOpening, if_neg opening, segments,
            List.takeWhile_cons_of_pos (by simp [opening]), untilClosed]
          simp only [if_true, readListenerKey_eq]
          have depthAfter : depth + ((hypridleLine raw).count '{' : Int) -
              (hypridleLine raw).count '}' = depth + lineNet raw := Int.add_sub_assoc _ _ _
          rw [depthAfter]
          by_cases closed : depth + lineNet raw ≤ 0
          · rw [if_pos closed, if_pos closed, Option.bind_some, readingFrom_cons, readingFrom]
            cases locks || lineLocks raw with
            | false =>
                rw [outside]
                rfl
            | true =>
                cases (lineTimeout raw).getD timeout with
                | none =>
                    rw [outside]
                    rfl
                | some secs => rfl
          · rw [if_neg closed, if_neg closed, inside, Option.bind_map]
            congr 2
            funext seen
            exact (readingFrom_cons timeout locks raw seen).symm
        · intro depth timeout locks
          rw [parseHypridleLines, ← isOpening, if_neg opening, segments]
          exact outside depth timeout locks

/-- The parser answers with the first listener that reads as a lock. -/
theorem parseHypridleConfig_eq (text : List Char) :
    parseHypridleConfig text = (listenerSegments (lines text)).findSome? segmentReading :=
  (parseHypridleLines_eq (lines text)).2 0 none false

/-- What `untilClosed` takes: the lines up to the first one where no brace is left open. -/
theorem untilClosed_eq_some_iff {depth : Int} {lines inside : List (List Char)}
    (deep : 0 < depth) :
    untilClosed depth lines = some inside ↔ inside <+: lines ∧ depth + braceNet inside ≤ 0 ∧
      ∀ part, part <+: inside → part ≠ inside → 0 < depth + braceNet part := by
  induction lines generalizing depth inside with
  | nil =>
      refine iff_of_false nofun ?_
      rintro ⟨isPrefix, closed, -⟩
      rw [List.prefix_nil.mp isPrefix, braceNet] at closed
      omega
  | cons raw rest ih =>
      rw [untilClosed]
      split
      · rename_i here
        constructor
        · rintro ⟨⟩
          refine ⟨⟨rest, rfl⟩, by simpa [braceNet] using here, fun part isPrefix proper => ?_⟩
          obtain rfl | ⟨tail, rfl, isTail⟩ := List.prefix_cons_iff.mp isPrefix
          · simpa [braceNet] using deep
          · exact absurd (by rw [List.prefix_nil.mp isTail]) proper
        · rintro ⟨isPrefix, closed, before⟩
          obtain rfl | ⟨tail, rfl, -⟩ := List.prefix_cons_iff.mp isPrefix
          · rw [braceNet] at closed
            omega
          · by_cases whole : [raw] = raw :: tail
            · rw [whole]
            · have early := before [raw] ⟨tail, rfl⟩ whole
              rw [braceNet, braceNet] at early
              omega
      · rename_i later
        have deeper : 0 < depth + lineNet raw := Int.not_le.mp later
        rw [Option.map_eq_some_iff]
        constructor
        · rintro ⟨tail, found, rfl⟩
          obtain ⟨isPrefix, closed, before⟩ := (ih deeper).mp found
          refine ⟨(List.prefix_cons_inj raw).mpr isPrefix, ?_, fun part isPart proper => ?_⟩
          · rw [braceNet]
            omega
          · obtain rfl | ⟨front, rfl, isFront⟩ := List.prefix_cons_iff.mp isPart
            · rw [braceNet]
              omega
            · have early := before front isFront fun same => proper (by rw [same])
              rw [braceNet]
              omega
        · rintro ⟨isPrefix, closed, before⟩
          obtain rfl | ⟨tail, rfl, isTail⟩ := List.prefix_cons_iff.mp isPrefix
          · rw [braceNet] at closed
            omega
          · refine ⟨tail, (ih deeper).mpr ⟨isTail, ?_, fun part isPart proper => ?_⟩, rfl⟩
            · rw [braceNet] at closed
              omega
            · have early := before (raw :: part) ((List.prefix_cons_inj raw).mpr isPart)
                fun same => proper (List.cons.inj same).2
              rw [braceNet] at early
              omega

/-! ### Scopes -/

/-- The extent that braces give a listener: behind a line that looks like an opening one, up to
the first line on which as many braces are closed as are open, with no such line on the way. -/
structure Scope (file : List (List Char)) : Type where
  start : Nat
  opening : List Char
  inside : List (List Char)
  behind : List (List Char)
  here : file.drop start = opening :: (inside ++ behind)
  opens : isOpening opening = true
  unopened : ∀ raw ∈ inside, isOpening raw = false
  closed : 1 + braceNet inside ≤ 0
  before : ∀ part, part <+: inside → part ≠ inside → 0 < 1 + braceNet part

variable {file : List (List Char)}

/-- A lock command stands in the scope, and the last timeout in it is this many seconds. -/
def Scope.LocksAfter (scope : Scope file) (secs : Nat) : Prop :=
  scope.inside.any lineLocks = true ∧
    (scope.inside.filterMap lineTimeout).getLast? = some (some secs)

/-- A scope of the file locks after some time, and none before it locks after no time. -/
def ShowsLock (file : List (List Char)) : Prop :=
  ∃ (scope : Scope file) (secs : Nat), scope.LocksAfter secs ∧ 0 < secs ∧
    ∀ earlier : Scope file, earlier.start < scope.start → ¬ earlier.LocksAfter 0

def Scope.later (raw : List Char) (scope : Scope file) : Scope (raw :: file) :=
  { scope with start := scope.start + 1 }

private theorem prefix_takeWhile_iff {α : Type} {p : α → Bool} {part items : List α} :
    part <+: items.takeWhile p ↔ part <+: items ∧ ∀ item ∈ part, p item = true := by
  constructor
  · intro isPrefix
    refine ⟨isPrefix.trans (List.takeWhile_prefix p), fun item member => ?_⟩
    exact List.mem_takeWhile_imp (isPrefix.subset member)
  · rintro ⟨⟨rest, rfl⟩, every⟩
    rw [List.takeWhile_append_of_pos every]
    exact List.prefix_append _ _

private theorem scope_at_zero_iff {raw : List Char} {rest : List (List Char)} {secs : Nat} :
    (∃ scope : Scope (raw :: rest), scope.start = 0 ∧ scope.LocksAfter secs) ↔
      isOpening raw = true ∧ segmentReading (rest.takeWhile (!isOpening ·)) = some secs := by
  constructor
  · rintro ⟨⟨start, opening, inside, behind, here, opens, unopened, closed, before⟩, rfl, locks⟩
    obtain ⟨rfl, rfl⟩ := List.cons.inj here
    refine ⟨opens, Option.bind_eq_some_iff.mpr ⟨inside, ?_, ?_⟩⟩
    · rw [untilClosed_eq_some_iff Int.one_pos, prefix_takeWhile_iff]
      refine ⟨⟨List.prefix_append _ _, fun raw member => ?_⟩, closed, before⟩
      rw [unopened raw member]
      rfl
    · rw [listenerReading, if_pos locks.1, locks.2]
      rfl
  · rintro ⟨opens, reading⟩
    obtain ⟨inside, taken, reads⟩ := Option.bind_eq_some_iff.mp reading
    rw [untilClosed_eq_some_iff Int.one_pos, prefix_takeWhile_iff] at taken
    obtain ⟨⟨⟨behind, rfl⟩, unopened⟩, closed, before⟩ := taken
    rw [listenerReading, Option.ite_none_right_eq_some, Option.join_eq_some_iff] at reads
    refine ⟨⟨0, raw, inside, behind, rfl, opens, fun line member => ?_, closed, before⟩, rfl,
      reads⟩
    simpa using unopened line member

private theorem exists_later {raw : List Char} {rest : List (List Char)}
    (scope : Scope (raw :: rest)) (further : scope.start ≠ 0) :
    ∃ after : Scope rest, scope = after.later raw := by
  obtain ⟨start, opening, inside, behind, here, opens, unopened, closed, before⟩ := scope
  obtain ⟨index, rfl⟩ := Nat.exists_eq_succ_of_ne_zero further
  exact ⟨⟨index, opening, inside, behind, here, opens, unopened, closed, before⟩, rfl⟩

private theorem showsLock_cons_iff {raw : List Char} {rest : List (List Char)}
    (silent : ∀ scope : Scope (raw :: rest), scope.start = 0 → ∀ secs, ¬ scope.LocksAfter secs) :
    ShowsLock (raw :: rest) ↔ ShowsLock rest := by
  constructor
  · rintro ⟨scope, secs, locks, positive, first⟩
    obtain ⟨after, rfl⟩ := exists_later scope fun here => silent scope here secs locks
    refine ⟨after, secs, locks, positive, fun earlier before => ?_⟩
    exact first (earlier.later raw) (Nat.succ_lt_succ before)
  · rintro ⟨scope, secs, locks, positive, first⟩
    refine ⟨scope.later raw, secs, locks, positive, fun earlier before none => ?_⟩
    obtain ⟨after, rfl⟩ := exists_later earlier fun here => silent earlier here 0 none
    exact first after (Nat.lt_of_succ_lt_succ before) none

/-- The parser answers with a time above zero where the file shows a lock. -/
private theorem segments_show_lock_iff (file : List (List Char)) :
    (∃ secs, (listenerSegments file).findSome? segmentReading = some secs ∧ 0 < secs) ↔
      ShowsLock file := by
  induction file with
  | nil =>
      refine iff_of_false (by rintro ⟨_, ⟨⟩, _⟩) ?_
      rintro ⟨⟨start, _, _, _, here, _⟩, _⟩
      rw [List.drop_nil] at here
      cases here
  | cons raw rest ih =>
      by_cases first : ∃ secs, isOpening raw = true ∧
          segmentReading (rest.takeWhile (!isOpening ·)) = some secs
      · obtain ⟨secs, opens, reads⟩ := first
        have answer : (listenerSegments (raw :: rest)).findSome? segmentReading = some secs := by
          rw [listenerSegments, if_pos opens, List.findSome?_cons, reads]
        obtain ⟨scope, here, locks⟩ := scope_at_zero_iff.mpr ⟨opens, reads⟩
        rw [answer]
        constructor
        · rintro ⟨_, ⟨⟩, positive⟩
          exact ⟨scope, secs, locks, positive, fun earlier before => by omega⟩
        · rintro ⟨other, secs', locks', positive, none⟩
          refine ⟨secs, rfl, Nat.pos_of_ne_zero fun zero => ?_⟩
          subst zero
          by_cases there : other.start = 0
          · have same := (scope_at_zero_iff.mp ⟨other, there, locks'⟩).2
            rw [reads] at same
            cases same
            exact absurd positive (Nat.lt_irrefl 0)
          · exact none scope (by omega) locks
      · have silent : ∀ scope : Scope (raw :: rest), scope.start = 0 →
            ∀ secs, ¬ scope.LocksAfter secs :=
          fun scope here secs locks => first ⟨secs, scope_at_zero_iff.mp ⟨scope, here, locks⟩⟩
        rw [showsLock_cons_iff silent, ← ih, listenerSegments]
        split
        · rename_i opens
          rw [List.findSome?_cons]
          cases reads : segmentReading (rest.takeWhile (!isOpening ·)) with
          | none => exact Iff.rfl
          | some secs => exact absurd ⟨secs, opens, reads⟩ first
        · exact Iff.rfl

/-! ### Configurations -/

/-- A listener block: a line that opens it, one timeout and one command with any values among
its other lines, and a line that closes it. -/
structure ListenerBlock : Type where
  opening : List Char
  body : List (List Char)
  closing : List Char
  opens : isOpening opening = true
  oneTimeout : (body.filter fun raw => (keyValue "timeout" raw).isSome).length = 1
  oneCommand : (body.filter fun raw => (keyValue "on-timeout" raw).isSome).length = 1
  closes : hypridleLine closing = ['}']

/-- What stands between listeners opens none. -/
inductive HypridleBlock : Type where
  | listener (block : ListenerBlock)
  | other (lines : List (List Char)) (unopened : ∀ raw ∈ lines, isOpening raw = false)

def HypridleBlock.lines : HypridleBlock → List (List Char)
  | .listener block => block.opening :: (block.body ++ [block.closing])
  | .other lines _ => lines

namespace ListenerBlock

def locks (block : ListenerBlock) : Bool := block.body.any lineLocks

def timeout (block : ListenerBlock) : Option Nat := (block.body.filterMap lineTimeout).head?.join

/-- The listener has a lock command and a timeout above zero. -/
def Fires (block : ListenerBlock) : Prop :=
  block.locks = true ∧ ∃ secs, block.timeout = some secs ∧ 0 < secs

/-- Braces agree that the block ends where it ends, and none of its values looks like a line
that opens a listener. -/
structure Confined (block : ListenerBlock) : Prop where
  unopened : ∀ raw ∈ block.body, isOpening raw = false
  open_inside : ∀ part, part <+: block.body → 0 < 1 + braceNet part
  closed_behind : braceNet block.body ≤ 0

end ListenerBlock

/-- A listener fires, and none before it has a lock command and the timeout 0. -/
def FiresUnhidden (config : List HypridleBlock) : Prop :=
  ∃ front block behind, config = front ++ .listener block :: behind ∧ block.Fires ∧
    ∀ earlier, .listener earlier ∈ front → earlier.locks = true → earlier.timeout ≠ some 0

section Confined

variable {block : ListenerBlock}

private theorem keyValue_closing (block : ListenerBlock) (key : String) :
    keyValue key block.closing = none := by
  rw [keyValue, block.closes]
  rfl

private theorem isOpening_closing (block : ListenerBlock) : isOpening block.closing = false := by
  rw [isOpening, block.closes]
  decide

private theorem lineNet_closing (block : ListenerBlock) : lineNet block.closing = -1 := by
  rw [lineNet, block.closes]
  rfl

private theorem listenerSegments_unopened {lines : List (List Char)}
    (unopened : ∀ raw ∈ lines, isOpening raw = false) (rest : List (List Char)) :
    listenerSegments (lines ++ rest) = listenerSegments rest := by
  induction lines with
  | nil => rfl
  | cons raw tail ih =>
      rw [List.cons_append, listenerSegments, unopened raw List.mem_cons_self]
      exact ih fun other member => unopened other (List.mem_cons_of_mem _ member)

private theorem ListenerBlock.Confined.untilClosed (confined : block.Confined)
    (rest : List (List Char)) :
    untilClosed 1 (((block.body ++ [block.closing]) ++ rest).takeWhile (!isOpening ·)) =
      some (block.body ++ [block.closing]) := by
  rw [untilClosed_eq_some_iff Int.one_pos, prefix_takeWhile_iff]
  refine ⟨⟨List.prefix_append _ _, fun raw member => ?_⟩, ?_, fun part isPart proper => ?_⟩
  · rcases List.mem_append.mp member with inside | last
    · rw [confined.unopened raw inside]
      rfl
    · rw [List.mem_singleton.mp last, isOpening_closing]
      rfl
  · have net := confined.closed_behind
    rw [braceNet_append, braceNet, braceNet, lineNet_closing]
    omega
  · rcases List.prefix_concat_iff.mp isPart with whole | inside
    · exact absurd whole proper
    · exact confined.open_inside part inside

private theorem ListenerBlock.timeouts (block : ListenerBlock) :
    block.body.filterMap lineTimeout = [block.timeout] := by
  have one : (block.body.filterMap lineTimeout).length = 1 := by
    rw [List.length_filterMap_eq_countP, List.countP_eq_length_filter]
    simpa only [lineTimeout, Option.isSome_map] using block.oneTimeout
  obtain ⟨value, single⟩ := List.length_eq_one_iff.mp one
  rw [timeout, single]
  rfl

private theorem listenerReading_block (block : ListenerBlock) :
    listenerReading (block.body ++ [block.closing]) =
      if block.locks then block.timeout else none := by
  have timeoutLast : lineTimeout block.closing = none := by
    rw [lineTimeout, keyValue_closing]
    rfl
  have locksLast : lineLocks block.closing = false := by
    rw [lineLocks, keyValue_closing]
    rfl
  rw [listenerReading, List.any_append, List.filterMap_append, block.timeouts,
    List.filterMap_cons_none timeoutLast]
  simp [ListenerBlock.locks, locksLast]

private def HypridleBlock.reading : HypridleBlock → Option Nat
  | .listener block => if block.locks then block.timeout else none
  | .other _ _ => none

private theorem findSome?_segments_confined {config : List HypridleBlock}
    (confined : ∀ block, .listener block ∈ config → block.Confined) :
    (listenerSegments (config.flatMap HypridleBlock.lines)).findSome? segmentReading =
      config.findSome? HypridleBlock.reading := by
  induction config with
  | nil => rfl
  | cons block rest ih =>
      have later := ih fun other member => confined other (List.mem_cons_of_mem _ member)
      rw [List.flatMap_cons, List.findSome?_cons, ← later]
      cases block with
      | listener block =>
          have here := confined block List.mem_cons_self
          have unopened : ∀ raw ∈ block.body ++ [block.closing], isOpening raw = false := by
            intro raw member
            rcases List.mem_append.mp member with inside | last
            · exact here.unopened raw inside
            · rw [List.mem_singleton.mp last, isOpening_closing]
          rw [HypridleBlock.lines, List.cons_append, listenerSegments, if_pos block.opens,
            List.findSome?_cons, listenerSegments_unopened unopened, segmentReading,
            here.untilClosed, Option.bind_some, listenerReading_block, HypridleBlock.reading]
      | other lines unopened =>
          rw [HypridleBlock.lines, listenerSegments_unopened unopened]
          rfl

private theorem reading_eq_some {block : HypridleBlock} {secs : Nat}
    (reads : block.reading = some secs) :
    ∃ listener, block = .listener listener ∧ listener.locks = true ∧
      listener.timeout = some secs := by
  cases block with
  | listener block =>
      rw [HypridleBlock.reading, Option.ite_none_right_eq_some] at reads
      exact ⟨block, rfl, reads⟩
  | other lines unopened => cases reads

private theorem firesUnhidden_iff {config : List HypridleBlock} :
    (∃ secs, config.findSome? HypridleBlock.reading = some secs ∧ 0 < secs) ↔
      FiresUnhidden config := by
  constructor
  · rintro ⟨secs, first, positive⟩
    obtain ⟨front, block, behind, rfl, reads, silent⟩ := List.findSome?_eq_some_iff.mp first
    obtain ⟨listener, rfl, locks, timeout⟩ := reading_eq_some reads
    refine ⟨front, listener, behind, rfl, ⟨locks, secs, timeout, positive⟩, ?_⟩
    intro earlier member earlierLocks zero
    have none := silent _ member
    rw [HypridleBlock.reading, if_pos earlierLocks, zero] at none
    cases none
  · rintro ⟨front, block, behind, rfl, ⟨locks, secs, timeout, positive⟩, unhidden⟩
    rw [List.findSome?_append]
    cases first : front.findSome? HypridleBlock.reading with
    | none =>
        have reads : (HypridleBlock.listener block).reading = some secs := by
          rw [HypridleBlock.reading, if_pos locks, timeout]
        rw [List.findSome?_cons, reads]
        exact ⟨secs, rfl, positive⟩
    | some other =>
        obtain ⟨earlier, member, reads⟩ := List.exists_of_findSome?_eq_some first
        obtain ⟨listener, rfl, earlierLocks, earlierTimeout⟩ := reading_eq_some reads
        refine ⟨other, rfl, Nat.pos_of_ne_zero fun zero => ?_⟩
        rw [zero] at earlierTimeout
        exact unhidden listener member earlierLocks earlierTimeout

theorem ListenerBlock.confined_of_flat
    (flat : ∀ raw ∈ block.body, isOpening raw = false ∧ lineNet raw = 0) : block.Confined := by
  have level : ∀ part : List (List Char), (∀ raw ∈ part, lineNet raw = 0) → braceNet part = 0 := by
    intro part each
    induction part with
    | nil => rfl
    | cons raw rest ih =>
        rw [braceNet, each raw List.mem_cons_self,
          ih fun other member => each other (List.mem_cons_of_mem _ member)]
        rfl
  refine ⟨fun raw member => (flat raw member).1, fun part isPart => ?_, ?_⟩
  · rw [level part fun raw member => (flat raw (isPart.subset member)).2]
    exact Int.one_pos
  · exact Int.le_of_eq (level block.body fun raw member => (flat raw member).2)

end Confined

theorem rowEnabled_screenlockRowHyprland {lockTimeout : Option Nat} :
    rowEnabled (screenlockRowHyprland lockTimeout) = some "yes" ↔
      ∃ secs, lockTimeout = some secs ∧ 0 < secs := by
  match lockTimeout with
  | none => simp [screenlockRowHyprland]
  | some 0 => simp [screenlockRowHyprland]
  | some (secs + 1) => simp [screenlockRowHyprland]

private def dims : ListenerBlock where
  opening := "listener \x7b".toList
  body := ["    timeout = 150".toList, "    on-timeout = brightnessctl -s set 10".toList]
  closing := "\x7d".toList
  opens := by decide +kernel
  oneTimeout := by decide +kernel
  oneCommand := by decide +kernel
  closes := by decide +kernel

private def neverLocks : ListenerBlock where
  opening := "listener \x7b".toList
  body := ["    timeout = 0".toList, "    on-timeout = hyprlock".toList]
  closing := "\x7d".toList
  opens := by decide +kernel
  oneTimeout := by decide +kernel
  oneCommand := by decide +kernel
  closes := by decide +kernel

private def locksAtFive : ListenerBlock where
  opening := "listener \x7b".toList
  body := ["    timeout = 300".toList, "    on-timeout = loginctl lock-session".toList]
  closing := "\x7d".toList
  opens := by decide +kernel
  oneTimeout := by decide +kernel
  oneCommand := by decide +kernel
  closes := by decide +kernel

private def locksWithBrace : ListenerBlock where
  opening := "listener \x7b".toList
  body := ["    timeout = 300".toList, "    on-timeout = hyprlock --msg \x7b".toList]
  closing := "\x7d".toList
  opens := by decide +kernel
  oneTimeout := by decide +kernel
  oneCommand := by decide +kernel
  closes := by decide +kernel

private def fileOf (config : List HypridleBlock) : List Char :=
  (config.flatMap HypridleBlock.lines).flatMap (· ++ [Char.ofNat 10])

/-- A brace in a value leaves a listener open, and it is never read. -/
example : locksWithBrace.locks = true ∧ locksWithBrace.timeout = some 300 ∧
    parseHypridleConfig (fileOf [.listener locksWithBrace]) = none := by decide +kernel

end KlaayGuard
