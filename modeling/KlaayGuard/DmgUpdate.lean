/-
The macOS update from the downloaded image on: attach, install, detach, restart.

The mount point is read from the table `hdiutil attach` prints.  A volume that
is left mounted makes the next one mount under another name, and a restart by
two hands makes two agents, so both are counted over every run.
-/

import KlaayGuard.MacosSwap

set_option autoImplicit false

namespace KlaayGuard

open EffectProgram Prog RustText

/-- The mount point is the last field of the line that names a volume. -/
def parseHdiutilMountPoint (stdout : List Char) : Option (List Char) :=
  let line := (lines stdout).find? fun line => contains line "/Volumes/".toList
  let field := line.bind fun line => (line.splitOnP (· == Char.ofNat 9)).getLast?
  (field.map trim).filter (· ≠ [])

/-- One line of the table: what is not mounted has no mount point. -/
structure DiskRow : Type where
  device : List Char
  hint : List Char
  mountPoint : List Char

def DiskRow.render (row : DiskRow) : List Char :=
  row.device ++ Char.ofNat 9 :: (row.hint ++ Char.ofNat 9 :: row.mountPoint)

/-- No field breaks the table, and only mount points lie under `/Volumes/`. -/
structure DiskRow.Printable (row : DiskRow) : Prop where
  device : Char.ofNat 9 ∉ row.device ∧ Char.ofNat 10 ∉ row.device ∧
    ¬ "/Volumes/".toList <:+: row.device
  hint : Char.ofNat 9 ∉ row.hint ∧ Char.ofNat 10 ∉ row.hint ∧ ¬ "/Volumes/".toList <:+: row.hint
  mountPoint : Char.ofNat 9 ∉ row.mountPoint ∧ Char.ofNat 10 ∉ row.mountPoint
  volume : row.mountPoint = [] ∨ "/Volumes/".toList <+: row.mountPoint
  trimmed : trim row.mountPoint = row.mountPoint

def hdiutilTable (rows : List DiskRow) : List Char :=
  rows.flatMap fun row => row.render ++ [Char.ofNat 10]

def mountPoints (stdout : List Char) : List (List Char) :=
  ((lines stdout).filterMap fun line => (line.splitOnP (· == Char.ofNat 9)).getLast?).filter
    (· ≠ [])

structure AttachOutput : Type where
  success : Bool
  stdout : List UInt8

inductive DmgEffect : Type where
  | attach (dmgPath : String)
  | detach (force : Bool) (mountPoint : List Char)
  | swap (effect : SwapEffect)
  | removeFile (path : String)
  | readVar (name : String)
  | exit
  | restart

@[reducible] def DmgEffect.Reply : DmgEffect → Type
  | .attach _ => Except String AttachOutput
  | .detach _ _ => Bool
  | .swap effect => effect.Reply
  | .removeFile _ => Except String Unit
  | .readVar _ => Option String
  | .exit => Unit
  | .restart => Unit

abbrev DmgProgram (α : Type) : Type := Prog DmgEffect DmgEffect.Reply α

abbrev DmgEvent : Type := Event DmgEffect DmgEffect.Reply

abbrev DmgEffect.perform (action : DmgEffect) : DmgProgram action.Reply := Prog.perform action

def SwapProgram.onMac {α : Type} (program : SwapProgram α) : DmgProgram α :=
  program.lift DmgEffect.swap fun _ reply => reply

section Program

variable (debug : String → String)

/-- Tries gracefully, then by force. -/
def detachDmg (mountPoint : List Char) : DmgProgram Unit := do
  if ← DmgEffect.perform (.detach false mountPoint) then pure ()
  else do
    let _forced ← DmgEffect.perform (.detach true mountPoint)
    pure ()

def applicationPath : String := "/Applications/KlaayGuard.app"

def installFromMount (mountPoint : List Char) (pid : Nat) :
    SwapProgram (Except String Unit) := do
  let sourceApp := String.ofList (pathJoin mountPoint "KlaayGuard.app".toList)
  if !(← pathExists sourceApp) then
    pure (.error ("Source app not found at: " ++ debug sourceApp))
  else stageVerifyAndSwap sourceApp applicationPath pid

inductive Relaunch : Type where
  | leaveItToLaunchd
  | restartSelf

def updateRelaunch (underLaunchd : Bool) : Relaunch :=
  if underLaunchd then .leaveItToLaunchd else .restartSelf

/-- `app.exit` and `app.restart` end the process. -/
def relaunch : DmgProgram (Except String Unit) := do
  let launchd ← DmgEffect.perform (.readVar "KLAAYGUARD_LAUNCHD")
  match updateRelaunch (launchd == some "1") with
  | .leaveItToLaunchd => do
      DmgEffect.perform .exit
      pure (.ok ())
  | .restartSelf => do
      DmgEffect.perform .restart
      pure (.ok ())

def replaceFromMount (dmgPath : String) (mountPoint : List Char) (pid : Nat) :
    DmgProgram (Except String Unit) := do
  let result ← (installFromMount debug mountPoint pid).onMac
  -- On every path, so that a failed update leaves no volume behind.
  detachDmg mountPoint
  let _removed ← DmgEffect.perform (.removeFile dmgPath)
  match result with
  | .error e => pure (.error e)
  | .ok _ => relaunch

def replaceApplication (dmgPath : String) (pid : Nat) : DmgProgram (Except String Unit) := do
  match ← DmgEffect.perform (.attach dmgPath) with
  | .error e => pure (.error ("Failed to mount DMG: " ++ e))
  | .ok output =>
      if !output.success then pure (.error "Failed to mount DMG")
      else
        match parseHdiutilMountPoint (fromUtf8Lossy output.stdout) with
        | none => pure (.error "Could not find mount point")
        | some mountPoint => replaceFromMount debug dmgPath mountPoint pid

end Program

theorem trimmed_last {text : List Char} {c : Char} (trimmed : trim text = text)
    (last : text.getLast? = some c) : isWhitespace c = false := by
  have nonempty : text ≠ [] := by
    rintro rfl
    cases last
  have kept : trim text ≠ [] := by rwa [trimmed]
  have stops := List.rdropWhile_last_not isWhitespace (text.dropWhile isWhitespace) kept
  rw [List.getLast?_eq_some_getLast nonempty] at last
  have ends : (trim text).getLast kept = c := by
    rw [← Option.some_inj, ← last]
    simp only [trimmed]
  exact Bool.eq_false_iff.mpr fun blank => stops (ends ▸ blank)

namespace DiskRow

variable {row : DiskRow}

theorem Printable.render_fields (printable : row.Printable) :
    row.render.splitOnP (· == Char.ofNat 9) = [row.device, row.hint, row.mountPoint] := by
  have whole : ∀ field : List Char, Char.ofNat 9 ∉ field →
      ∀ c ∈ field, (c == Char.ofNat 9) = false := by
    intro field plain c member
    rw [beq_eq_false_iff_ne]
    rintro rfl
    exact plain member
  unfold render
  rw [List.splitOnP_append_cons_of_forall_mem (whole _ printable.device.1) _ (beq_self_eq_true _),
    List.splitOnP_append_cons_of_forall_mem (whole _ printable.hint.1) _ (beq_self_eq_true _),
    List.splitOnP_eq_singleton (whole _ printable.mountPoint.1)]

theorem render_eq : row.render =
    (row.device ++ Char.ofNat 9 :: row.hint) ++ [Char.ofNat 9] ++ row.mountPoint := by
  simp [render]

theorem Printable.render_line (printable : row.Printable) :
    Char.ofNat 10 ∉ row.render ∧ row.render.getLast? ≠ some (Char.ofNat 13) := by
  constructor
  · intro member
    unfold render at member
    simp only [List.mem_append, List.mem_cons, printable.device.2.1, printable.hint.2.1,
      printable.mountPoint.2, false_or, or_false] at member
    rcases member with same | same <;> exact absurd same (by decide)
  · rw [render_eq, List.getLast?_append, List.getLast?_concat]
    cases last : row.mountPoint.getLast? with
    | none => decide
    | some c =>
        rintro same
        obtain rfl := Option.some.inj same
        exact absurd (trimmed_last printable.trimmed last) (by decide)

theorem Printable.names_volume (printable : row.Printable) :
    contains row.render "/Volumes/".toList = true ↔ row.mountPoint ≠ [] := by
  have plain : Char.ofNat 9 ∉ "/Volumes/".toList := by decide
  rw [contains_iff_occurs]
  constructor
  · rintro within empty
    rcases infix_cut plain within with inDevice | within
    · exact printable.device.2.2 inDevice
    · rcases infix_cut plain within with inHint | within
      · exact printable.hint.2.2 inHint
      · rw [empty] at within
        exact absurd (List.infix_nil.mp within) (by decide)
  · intro mounted
    have volume := printable.volume.resolve_left mounted
    rw [render_eq]
    exact volume.isInfix.trans List.infix_append_right

end DiskRow

section Table

variable {rows : List DiskRow} (printable : ∀ row ∈ rows, row.Printable)
include printable

theorem lines_hdiutilTable : lines (hdiutilTable rows) = rows.map DiskRow.render := by
  unfold hdiutilTable
  rw [← List.flatMap_map DiskRow.render fun text => text ++ [Char.ofNat 10]]
  refine lines_of_ended fun text member => ?_
  obtain ⟨row, inTable, rfl⟩ := List.mem_map.mp member
  exact (printable row inTable).render_line

theorem mountPoints_hdiutilTable :
    mountPoints (hdiutilTable rows) = (rows.map DiskRow.mountPoint).filter (· ≠ []) := by
  unfold mountPoints
  rw [lines_hdiutilTable printable, List.filterMap_map]
  congr 1
  rw [← List.filterMap_eq_map]
  refine List.filterMap_congr fun row member => ?_
  rw [Function.comp_apply, (printable row member).render_fields]
  rfl

/-- The update detaches the first volume that the table lists. -/
theorem parseHdiutilMountPoint_hdiutilTable :
    parseHdiutilMountPoint (hdiutilTable rows) = (mountPoints (hdiutilTable rows)).head? := by
  rw [mountPoints_hdiutilTable printable, List.head?_filter]
  unfold parseHdiutilMountPoint
  rw [lines_hdiutilTable printable]
  induction rows with
  | nil => rfl
  | cons row rows ih =>
      have first := printable row List.mem_cons_self
      have later := ih fun other member => printable other (List.mem_cons_of_mem _ member)
      by_cases mounted : row.mountPoint = []
      · have unnamed : ¬ contains row.render "/Volumes/".toList = true :=
          fun named => first.names_volume.mp named mounted
        rw [List.map_cons, List.map_cons,
          List.find?_cons_of_neg (p := fun line => contains line "/Volumes/".toList) unnamed,
          List.find?_cons_of_neg (by simp [mounted])]
        exact later
      · have named := first.names_volume.mpr mounted
        rw [List.map_cons, List.map_cons,
          List.find?_cons_of_pos (p := fun line => contains line "/Volumes/".toList) named,
          List.find?_cons_of_pos (by simpa using mounted)]
        simp [first.render_fields, first.trimmed, mounted]

end Table

end KlaayGuard
