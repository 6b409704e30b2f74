/-
The macOS update swap: stage beside the target, verify, swap by renames.

Three sibling paths matter: the target, the staged bundle and the backup.
Every step may fail; a failed removal or copy leaves its path in any state, a
failed rename changes nothing.  The target is only ever emptied into the
backup, and refilled from the verified stage or from the backup.
-/

import KlaayGuard.Library.Assertions
import KlaayGuard.Update

set_option autoImplicit false

namespace KlaayGuard

open EffectProgram Prog RustText

def klaayTeamId : String := "8QK45RW8QK"

structure CommandOutput : Type where
  success : Bool
  stderr : List UInt8

inductive PathError : Type where
  | notFound
  | other (message : String)

inductive SwapEffect : Type where
  | removeDirAll (path : String)
  | ditto (source destination : String)
  | codesignVerify (path : String)
  | codesignDetails (path : String)
  | spctlAssess (path : String)
  | metadata (path : String)
  | rename (source destination : String)

@[reducible] def SwapEffect.Reply : SwapEffect → Type
  | .removeDirAll _ => Except PathError Unit
  | .ditto _ _ => Except String Bool
  | .codesignVerify _ => Except String CommandOutput
  | .codesignDetails _ => Except String CommandOutput
  | .spctlAssess _ => Except String CommandOutput
  | .metadata _ => Except PathError Unit
  | .rename _ _ => Except String Unit

abbrev SwapProgram (α : Type) : Type := Prog SwapEffect SwapEffect.Reply α

abbrev SwapEvent : Type := Event SwapEffect SwapEffect.Reply

abbrev removeDirAll (path : String) : SwapProgram (Except PathError Unit) :=
  .perform (SwapEffect.removeDirAll path)
abbrev ditto (source destination : String) : SwapProgram (Except String Bool) :=
  .perform (SwapEffect.ditto source destination)
abbrev codesignVerify (path : String) : SwapProgram (Except String CommandOutput) :=
  .perform (SwapEffect.codesignVerify path)
abbrev codesignDetails (path : String) : SwapProgram (Except String CommandOutput) :=
  .perform (SwapEffect.codesignDetails path)
abbrev spctlAssess (path : String) : SwapProgram (Except String CommandOutput) :=
  .perform (SwapEffect.spctlAssess path)
abbrev metadata (path : String) : SwapProgram (Except PathError Unit) :=
  .perform (SwapEffect.metadata path)
abbrev rename (source destination : String) : SwapProgram (Except String Unit) :=
  .perform (SwapEffect.rename source destination)

/-- `Path::exists`: any error reads as absence. -/
def pathExists (path : String) : SwapProgram Bool := do
  let found ← metadata path
  pure found.isOk

def CommandOutput.stderrText (output : CommandOutput) : String :=
  String.ofList (trim (fromUtf8Lossy output.stderr))

/-- One line of `codesign -d` names the team, and nothing else. -/
def teamOk (details : CommandOutput) : Bool :=
  (lines (fromUtf8Lossy details.stderr)).any fun line =>
    trim line == ("TeamIdentifier=" ++ klaayTeamId).toList

def verifyKlaaySignature (appPath : String) : SwapProgram (Except String Unit) := do
  match ← codesignVerify appPath with
  | .error e => pure (.error ("codesign spawn failed: " ++ e))
  | .ok verify =>
      if !verify.success then
        pure (.error ("codesign --verify failed: " ++ verify.stderrText))
      else
        match ← codesignDetails appPath with
        | .error e => pure (.error ("codesign -d spawn failed: " ++ e))
        | .ok details =>
            if !teamOk details then
              pure (.error ("update not signed by Klaay team " ++ klaayTeamId ++ " (rejecting)"))
            else
              match ← spctlAssess appPath with
              | .error e => pure (.error ("spctl spawn failed: " ++ e))
              | .ok assess =>
                  if !assess.success then
                    pure (.error ("Gatekeeper assessment failed (not notarized/accepted): " ++
                      assess.stderrText))
                  else pure (.ok ())

def backupPath (target : String) (pid : Nat) : String :=
  let base := (fileName target.toList).getD "KlaayGuard.app".toList
  String.ofList (withFileName target.toList
    ('.' :: base ++ ".old-".toList ++ (toString pid).toList))

def moveAside (targetApp backup : String) : SwapProgram (Except String Unit) := do
  if ← pathExists targetApp then rename targetApp backup
  else pure (.ok ())

def rollBack (backup targetApp : String) : SwapProgram Unit := do
  if ← pathExists backup then do
    let _restored ← rename backup targetApp
    pure ()
  else pure ()

def swapStaged (staged backup targetApp : String) : SwapProgram (Except String Unit) := do
  match ← moveAside targetApp backup with
  | .error e => pure (.error ("Failed to move old app aside: " ++ e))
  | .ok _ =>
      match ← rename staged targetApp with
      | .ok _ => do
          let _removed ← removeDirAll backup
          pure (.ok ())
      | .error e => do
          rollBack backup targetApp
          let _removed ← removeDirAll staged
          pure (.error ("Failed to swap new app into place: " ++ e))

def stageVerifyAndSwap (sourceApp targetApp : String) (pid : Nat) :
    SwapProgram (Except String Unit) := do
  let staged := stagedSiblingPath targetApp pid
  let backup := backupPath targetApp pid
  let _leftover ← removeDirAll staged
  let _leftover ← removeDirAll backup
  match ← ditto sourceApp staged with
  | .error e => pure (.error ("ditto spawn failed: " ++ e))
  | .ok false => do
      let _removed ← removeDirAll staged
      pure (.error "Failed to stage new app (ditto)")
  | .ok true =>
      match ← verifyKlaaySignature staged with
      | .error e => do
          let _removed ← removeDirAll staged
          pure (.error ("Refusing unverified update: " ++ e))
      | .ok _ => swapStaged staged backup targetApp

theorem separator_not_mem_toString (pid : Nat) : '/' ∉ (toString pid).toList := by
  intro member
  have digit := Nat.isDigit_of_mem_toDigits (by decide) (by decide)
    (Nat.toList_repr ▸ member : '/' ∈ Nat.toDigits 10 pid)
  cases digit

private theorem isPlainName_hidden {base tag : List Char} {pid : Nat} (plain : '/' ∉ base)
    (plainTag : '/' ∉ tag) (long : 2 ≤ tag.length) :
    IsPlainName ('.' :: base ++ tag ++ (toString pid).toList) := by
  refine ⟨?_, ?_, ?_, ?_⟩
  · simp only [List.cons_append, List.mem_cons, List.mem_append, not_or]
    exact ⟨by decide, ⟨plain, plainTag⟩, separator_not_mem_toString pid⟩
  · simp
  · intro same
    have lengths := congrArg List.length same
    simp only [List.cons_append, List.length_cons, List.length_append, List.length_nil] at lengths
    omega
  · intro same
    have lengths := congrArg List.length same
    simp only [List.cons_append, List.length_cons, List.length_append, List.length_nil] at lengths
    omega

private theorem separator_not_mem_base {target fallback : List Char} (plain : '/' ∉ fallback) :
    '/' ∉ (fileName target).getD fallback := by
  cases named : fileName target with
  | none => exact plain
  | some name => exact separator_not_mem_fileName named

theorem fileName_stagedSiblingPath (target : String) (pid : Nat) :
    fileName (stagedSiblingPath target pid).toList =
      some ('.' :: (fileName target.toList).getD "KlaayGuard".toList ++ ".update-".toList ++
        (toString pid).toList) := by
  rw [stagedSiblingPath, String.toList_ofList]
  refine fileName_withFileName (isPlainName_hidden ?_ ?_ ?_) _
  · exact separator_not_mem_base (by decide)
  · decide
  · decide

theorem fileName_backupPath (target : String) (pid : Nat) :
    fileName (backupPath target pid).toList =
      some ('.' :: (fileName target.toList).getD "KlaayGuard.app".toList ++ ".old-".toList ++
        (toString pid).toList) := by
  rw [backupPath, String.toList_ofList]
  refine fileName_withFileName (isPlainName_hidden ?_ ?_ ?_) _
  · exact separator_not_mem_base (by decide)
  · decide
  · decide

private theorem hidden_ne {name : Option (List Char)} {fallback tag digits : List Char} :
    name ≠ some ('.' :: name.getD fallback ++ tag ++ digits) := by
  cases name with
  | none =>
      intro same
      cases same
  | some base =>
      intro same
      have lengths := congrArg List.length (Option.some.inj same)
      simp only [Option.getD_some, List.cons_append, List.length_cons, List.length_append]
        at lengths
      omega

theorem swap_paths_distinct (target : String) (pid : Nat) :
    stagedSiblingPath target pid ≠ target ∧ backupPath target pid ≠ target ∧
      stagedSiblingPath target pid ≠ backupPath target pid := by
  have staged := fileName_stagedSiblingPath target pid
  have backup := fileName_backupPath target pid
  refine ⟨?_, ?_, ?_⟩
  · intro same
    rw [same] at staged
    exact hidden_ne staged
  · intro same
    rw [same] at backup
    exact hidden_ne backup
  · intro same
    rw [same, backup] at staged
    have names := Option.some.inj staged
    cases named : fileName target.toList with
    | none => simp [named] at names
    | some name => simp [named] at names

/-! ### The disk -/

inductive Entry (Tree : Type) : Type where
  | emptyDir
  | bundle (content : Tree)

inductive SignatureCheck : Type where
  | integrity
  | team
  | gatekeeper

structure MacWorld (Tree : Type) : Type where
  disk : String → Option (Entry Tree)
  /-- What each command has accepted in this call. -/
  accepted : SignatureCheck → Entry Tree → Prop

variable {Tree : Type}

namespace MacWorld

def put (world : MacWorld Tree) (path : String) (entry : Option (Entry Tree)) : MacWorld Tree :=
  { world with disk := Function.update world.disk path entry }

def assess (world : MacWorld Tree) (check : SignatureCheck) (path : String) (passed : Bool) :
    MacWorld Tree :=
  { world with
    accepted := fun other entry => world.accepted other entry ∨
      (passed = true ∧ other = check ∧ world.disk path = some entry) }

def Verified (world : MacWorld Tree) (entry : Entry Tree) : Prop :=
  ∀ check, world.accepted check entry

@[simp] theorem disk_put_self (world : MacWorld Tree) (path : String)
    (entry : Option (Entry Tree)) : (world.put path entry).disk path = entry := by
  simp only [put, Function.update_self]

theorem disk_put_of_ne (world : MacWorld Tree) {path other : String} (differ : other ≠ path)
    (entry : Option (Entry Tree)) : (world.put path entry).disk other = world.disk other := by
  simp only [put, Function.update_of_ne differ]

@[simp] theorem disk_assess (world : MacWorld Tree) (check : SignatureCheck) (path : String)
    (passed : Bool) : (world.assess check path passed).disk = world.disk := rfl

end MacWorld

def commandPassed : Except String CommandOutput → Bool
  | .ok output => output.success
  | .error _ => false

def teamPassed : Except String CommandOutput → Bool
  | .ok details => teamOk details
  | .error _ => false

/-- Which reply a step may get, and the world it leaves.  A failed removal or
copy leaves its path in any state; a rename moves a bundle only where nothing
but an empty directory stands. -/
def performsSwap : MacWorld Tree → (effect : SwapEffect) → effect.Reply → MacWorld Tree → Prop
  | world, .removeDirAll path, reply, after =>
      match reply with
      | .ok _ => world.disk path ≠ none ∧ after = world.put path none
      | .error .notFound => world.disk path = none ∧ after = world
      | .error (.other _) => ∃ left, after = world.put path left
  | world, .ditto _ destination, reply, after =>
      match reply with
      | .ok true => ∃ copied, after = world.put destination (some copied)
      | _ => ∃ left, after = world.put destination left
  | world, .codesignVerify path, reply, after =>
      after = world.assess .integrity path (commandPassed reply)
  | world, .codesignDetails path, reply, after =>
      after = world.assess .team path (teamPassed reply)
  | world, .spctlAssess path, reply, after =>
      after = world.assess .gatekeeper path (commandPassed reply)
  | world, .metadata path, reply, after =>
      after = world ∧
        match reply with
        | .ok _ => world.disk path ≠ none
        | .error .notFound => world.disk path = none
        | .error (.other _) => True
  | world, .rename source destination, reply, after =>
      match reply with
      | .ok _ => ∃ entry, world.disk source = some entry ∧
          (world.disk destination = none ∨ world.disk destination = some .emptyDir) ∧
          after = (world.put source none).put destination (some entry)
      | .error _ => after = world

/-- A step failed; removing what is not there is no failure. -/
def stepFails : SwapEvent → Bool
  | ⟨.removeDirAll _, .error (.other _)⟩ => true
  | ⟨.ditto _ _, .ok true⟩ => false
  | ⟨.ditto _ _, _⟩ => true
  | ⟨.codesignVerify _, reply⟩ => !commandPassed reply
  | ⟨.codesignDetails _, reply⟩ => !teamPassed reply
  | ⟨.spctlAssess _, reply⟩ => !commandPassed reply
  | ⟨.metadata _, .error (.other _)⟩ => true
  | ⟨.rename _ _, .error _⟩ => true
  | _ => false

def failures (events : List SwapEvent) : Nat := events.countP stepFails

theorem failures_concat (events : List SwapEvent) (event : SwapEvent) :
    failures (events ++ [event]) = failures events + if stepFails event then 1 else 0 := by
  rw [failures, List.countP_append, List.countP_singleton]
  rfl

def SwapEffect.Touches (path : String) : SwapEffect → Prop
  | .removeDirAll touched => touched = path
  | .ditto _ destination => destination = path
  | .rename source destination => source = path ∨ destination = path
  | _ => False

variable {world after : MacWorld Tree} {action : SwapEffect} {reply : action.Reply}

theorem performsSwap_disk {path : String} (performed : performsSwap world action reply after)
    (untouched : ¬ action.Touches path) : after.disk path = world.disk path := by
  cases action with
  | removeDirAll touched =>
      have differ : path ≠ touched := fun same => untouched same.symm
      rcases reply with (_ | message) | _
      · obtain ⟨_, rfl⟩ := performed
        rfl
      · obtain ⟨left, rfl⟩ := performed
        exact world.disk_put_of_ne differ left
      · obtain ⟨_, rfl⟩ := performed
        exact world.disk_put_of_ne differ none
  | ditto source destination =>
      have differ : path ≠ destination := fun same => untouched same.symm
      rcases reply with _ | (_ | _) <;> obtain ⟨left, rfl⟩ := performed <;>
        exact world.disk_put_of_ne differ _
  | rename source destination =>
      have fromSource : path ≠ source := fun same => untouched (Or.inl same.symm)
      have toDestination : path ≠ destination := fun same => untouched (Or.inr same.symm)
      cases reply with
      | error e =>
          obtain rfl : after = world := performed
          rfl
      | ok _ =>
          obtain ⟨entry, _, _, rfl⟩ := performed
          rw [MacWorld.disk_put_of_ne _ toDestination, MacWorld.disk_put_of_ne _ fromSource]
  | metadata looked =>
      obtain ⟨rfl, _⟩ := performed
      rfl
  | _ =>
      obtain rfl := performed
      rfl

theorem performsSwap_verified {entry : Entry Tree}
    (performed : performsSwap world action reply after) (verified : world.Verified entry) :
    after.Verified entry := by
  intro check
  cases action with
  | removeDirAll touched =>
      rcases reply with (_ | message) | _
      · obtain ⟨_, rfl⟩ := performed
        exact verified check
      · obtain ⟨left, rfl⟩ := performed
        exact verified check
      · obtain ⟨_, rfl⟩ := performed
        exact verified check
  | ditto source destination =>
      rcases reply with _ | (_ | _) <;> obtain ⟨left, rfl⟩ := performed <;> exact verified check
  | rename source destination =>
      cases reply with
      | error e =>
          obtain rfl : after = world := performed
          exact verified check
      | ok _ =>
          obtain ⟨entry, _, _, rfl⟩ := performed
          exact verified check
  | metadata looked =>
      obtain ⟨rfl, _⟩ := performed
      exact verified check
  | _ =>
      obtain rfl := performed
      exact Or.inl (verified check)

/-! ### The swap, moment by moment -/

section Swap

variable (old : Tree) (staged backup target : String)

def MacWorld.HoldsVerified (world : MacWorld Tree) (path : String) : Prop :=
  ∃ entry, world.disk path = some entry ∧ world.Verified entry

/-- The target is absent, old or verified, and the old bundle is on the disk
until a verified one is in place. -/
structure SwapSafe (world : MacWorld Tree) : Prop where
  place : world.disk target = none ∨ world.disk target = some (.bundle old) ∨
    world.HoldsVerified target
  kept : world.disk target = some (.bundle old) ∨ world.disk backup = some (.bundle old) ∨
    world.HoldsVerified target

structure SetAside (world : MacWorld Tree) : Prop where
  emptied : world.disk target = none
  saved : world.disk backup = some (.bundle old)
  waits : world.HoldsVerified staged

variable {old staged backup target} {history : List SwapEvent}

theorem SwapSafe.installed (installed : world.disk target = some (.bundle old)) :
    SwapSafe old backup target world := ⟨Or.inr (Or.inl installed), Or.inl installed⟩

theorem SwapSafe.replaced (replaced : world.HoldsVerified target) :
    SwapSafe old backup target world := ⟨Or.inr (Or.inr replaced), Or.inr (Or.inr replaced)⟩

theorem SetAside.safe (aside : SetAside old staged backup target world) :
    SwapSafe old backup target world := ⟨Or.inl aside.emptied, Or.inr (Or.inl aside.saved)⟩

theorem MacWorld.HoldsVerified.step {path : String} (holds : world.HoldsVerified path)
    (performed : performsSwap world action reply after) (untouched : ¬ action.Touches path) :
    after.HoldsVerified path := by
  obtain ⟨entry, placed, verified⟩ := holds
  exact ⟨entry, (performsSwap_disk performed untouched).trans placed,
    performsSwap_verified performed verified⟩

/-- The bundles moved so far are all in place again, or two steps have failed. -/
def Restored (old : Tree) (target : String) (history : List SwapEvent)
    (world : MacWorld Tree) : Prop :=
  world.disk target = some (.bundle old) ∨ 2 ≤ failures history

theorem failures_le_concat (history : List SwapEvent) (event : SwapEvent) :
    failures history ≤ failures (history ++ [event]) := by
  rw [failures_concat]
  exact Nat.le_add_right _ _

theorem failures_fails {event : SwapEvent} (fails : stepFails event = true) :
    failures (history ++ [event]) = failures history + 1 := by
  rw [failures_concat, fails, if_pos rfl]

theorem installed_step (installed : world.disk target = some (.bundle old))
    (performed : performsSwap world action reply after) (untouched : ¬ action.Touches target) :
    after.disk target = some (.bundle old) :=
  (performsSwap_disk performed untouched).trans installed

theorem rename_onto_bundle {source : String} {reply : Except String Unit}
    (installed : world.disk target = some (.bundle old))
    (performed : performsSwap world (.rename source target) reply after) :
    after = world ∧ ∃ e, reply = .error e := by
  cases reply with
  | error e => exact ⟨performed, e, rfl⟩
  | ok _ =>
      obtain ⟨entry, _, free, _⟩ := performed
      rw [installed] at free
      rcases free with free | free <;> cases free

theorem rollBack_installed (installed : world.disk target = some (.bundle old)) :
    (rollBack backup target).Keeps performsSwap (fun _ => SwapSafe old backup target)
      (fun _ world _ => world.disk target = some (.bundle old)) history world := by
  refine ⟨.installed installed, fun found looked atMetadata => ?_⟩
  obtain ⟨rfl, _⟩ := atMetadata
  cases found with
  | error e => exact ⟨.installed installed, installed⟩
  | ok _ =>
      refine ⟨.installed installed, fun moved after atRename => ?_⟩
      obtain ⟨rfl, _⟩ := rename_onto_bundle installed atRename
      exact ⟨.installed installed, installed⟩

theorem rollBack_aside
    (aside : SetAside old staged backup target world) (failed : 1 ≤ failures history) :
    (rollBack backup target).Keeps performsSwap (fun _ => SwapSafe old backup target)
      (fun history world _ => Restored old target history world ∧
        SwapSafe old backup target world) history world := by
  refine ⟨aside.safe, fun found looked atMetadata => ?_⟩
  obtain ⟨rfl, seen⟩ := atMetadata
  rcases found with (_ | message) | _
  · rw [aside.saved] at seen
    cases seen
  · refine ⟨aside.safe, Or.inr ?_, aside.safe⟩
    rw [failures_fails rfl]
    omega
  · refine ⟨aside.safe, fun moved after atRename => ?_⟩
    cases moved with
    | error e =>
        obtain rfl : after = looked := atRename
        refine ⟨aside.safe, Or.inr ?_, aside.safe⟩
        rw [failures_fails rfl]
        exact Nat.succ_le_succ (Nat.le_trans failed (failures_le_concat _ _))
    | ok _ =>
        obtain ⟨entry, taken, _, rfl⟩ := atRename
        rw [aside.saved] at taken
        obtain rfl := Option.some.inj taken
        have installed := MacWorld.disk_put_self (looked.put backup none) target
          (some (.bundle old))
        exact ⟨.installed installed, Or.inl installed, .installed installed⟩

theorem moveAside_keeps (differ : staged ≠ backup)
    (differFromTarget : backup ≠ target ∧ staged ≠ target)
    (installed : world.disk target = some (.bundle old)) (verified : world.HoldsVerified staged) :
    (moveAside target backup).Keeps performsSwap (fun _ => SwapSafe old backup target)
      (fun _ world result => world.disk target = some (.bundle old) ∨
        SetAside old staged backup target world ∧ result = .ok ()) history world := by
  refine ⟨.installed installed, fun found looked atMetadata => ?_⟩
  obtain ⟨rfl, _⟩ := atMetadata
  cases found with
  | error e => exact ⟨.installed installed, Or.inl installed⟩
  | ok _ =>
      refine ⟨.installed installed, fun moved after atRename => ?_⟩
      cases moved with
      | error e =>
          obtain rfl : after = looked := atRename
          exact ⟨.installed installed, Or.inl installed⟩
      | ok _ =>
          have waits := verified.step atRename (by
            rintro (same | same)
            · exact differFromTarget.2 same.symm
            · exact differ same.symm)
          obtain ⟨entry, taken, _, rfl⟩ := atRename
          rw [installed] at taken
          obtain rfl := Option.some.inj taken
          have aside : SetAside old staged backup target
              ((looked.put target none).put backup (some (.bundle old))) := by
            refine ⟨?_, MacWorld.disk_put_self _ _ _, waits⟩
            rw [MacWorld.disk_put_of_ne _ differFromTarget.1.symm, MacWorld.disk_put_self]
          exact ⟨aside.safe, Or.inr ⟨aside, rfl⟩⟩

theorem SwapSafe.step (safe : SwapSafe old backup target world)
    (performed : performsSwap world action reply after) (offTarget : ¬ action.Touches target)
    (offBackup : ¬ action.Touches backup) : SwapSafe old backup target after := by
  have place := performsSwap_disk performed offTarget
  have saved := performsSwap_disk performed offBackup
  constructor
  · rcases safe.place with absent | installed | verified
    · exact Or.inl (place.trans absent)
    · exact Or.inr (Or.inl (place.trans installed))
    · exact Or.inr (Or.inr (verified.step performed offTarget))
  · rcases safe.kept with installed | kept | verified
    · exact Or.inl (place.trans installed)
    · exact Or.inr (Or.inl (saved.trans kept))
    · exact Or.inr (Or.inr (verified.step performed offTarget))

theorem Restored.step {event : SwapEvent} (restored : Restored old target history world)
    (performed : performsSwap world event.action event.reply after)
    (untouched : ¬ event.action.Touches target) :
    Restored old target (history ++ [event]) after := by
  rcases restored with installed | failed
  · exact Or.inl (installed_step installed performed untouched)
  · exact Or.inr (Nat.le_trans failed (failures_le_concat _ _))

/-- What the caller is told: the verified bundle is in place, or the old one is
unless two steps failed. -/
def SwapOutcome (old : Tree) (target : String) (history : List SwapEvent)
    (world : MacWorld Tree) : Except String Unit → Prop
  | .ok _ => world.HoldsVerified target
  | .error _ => Restored old target history world

theorem giveUp_keeps {message : String} (fromBackup : staged ≠ backup)
    (fromTarget : staged ≠ target) (restored : Restored old target history world)
    (safe : SwapSafe old backup target world) :
    (do
      let _removed ← removeDirAll staged
      pure (.error message) : SwapProgram (Except String Unit)).Keeps performsSwap
        (fun _ => SwapSafe old backup target) (SwapOutcome old target) history world := by
  refine ⟨safe, fun removed after performed => ?_⟩
  exact ⟨safe.step performed fromTarget fromBackup, restored.step performed fromTarget⟩

theorem swapStaged_keeps (fromBackup : staged ≠ backup) (fromTarget : staged ≠ target)
    (apart : backup ≠ target) (installed : world.disk target = some (.bundle old))
    (verified : world.HoldsVerified staged) :
    (swapStaged staged backup target).Keeps performsSwap (fun _ => SwapSafe old backup target)
      (SwapOutcome old target) history world := by
  refine (moveAside_keeps fromBackup ⟨apart, fromTarget⟩ installed verified).bind ?_
  rintro history world moved (installed | ⟨aside, rfl⟩)
  · -- The target still holds the old bundle: nothing can be renamed onto it.
    cases moved with
    | error e => exact ⟨.installed installed, Or.inl installed⟩
    | ok _ =>
        refine keeps_perform.mpr ⟨.installed installed, fun swapped after performed => ?_⟩
        obtain ⟨rfl, e, rfl⟩ := rename_onto_bundle installed performed
        refine (rollBack_installed installed).bind ?_
        intro history world _ installed
        exact giveUp_keeps fromBackup fromTarget (Or.inl installed) (.installed installed)
  · refine keeps_perform.mpr ⟨aside.safe, fun swapped after performed => ?_⟩
    cases swapped with
    | ok _ =>
        obtain ⟨entry, taken, _, rfl⟩ := performed
        obtain ⟨waiting, placed, accepted⟩ := aside.waits
        rw [placed] at taken
        obtain rfl := Option.some.inj taken
        have replaced : ((world.put staged none).put target (some waiting)).HoldsVerified target :=
          ⟨waiting, MacWorld.disk_put_self _ _ _, accepted⟩
        refine ⟨.replaced replaced, fun removed after performed => ?_⟩
        have stays := replaced.step performed apart
        exact ⟨.replaced stays, stays⟩
    | error e =>
        obtain rfl : after = world := performed
        have failed : 1 ≤ failures (history ++ [⟨.rename staged target, .error e⟩]) := by
          rw [failures_fails rfl]
          omega
        refine (rollBack_aside aside failed).bind ?_
        rintro history world _ ⟨restored, safe⟩
        exact giveUp_keeps fromBackup fromTarget restored safe

/-- What the verification tells: the target is as it was, and a stage that
passed is verified. -/
def VerifyOutcome (old : Tree) (staged target : String) (_history : List SwapEvent)
    (world : MacWorld Tree) (result : Except String Unit) : Prop :=
  world.disk target = some (.bundle old) ∧ (result = .ok () → world.HoldsVerified staged)

theorem refused_keeps {message : String} (installed : world.disk target = some (.bundle old)) :
    (Prog.done (.error message) : SwapProgram (Except String Unit)).Keeps performsSwap
      (fun _ => SwapSafe old backup target) (VerifyOutcome old staged target) history world := by
  refine ⟨.installed installed, installed, ?_⟩
  intro passed
  cases passed

theorem checked_keeps {passed : Bool} {message : String} {next : SwapProgram (Except String Unit)}
    (installed : world.disk target = some (.bundle old))
    (goesOn : passed = true → next.Keeps performsSwap (fun _ => SwapSafe old backup target)
      (VerifyOutcome old staged target) history world) :
    (if !passed then pure (.error message) else next : SwapProgram (Except String Unit)).Keeps
      performsSwap (fun _ => SwapSafe old backup target) (VerifyOutcome old staged target)
      history world := by
  cases passed with
  | false => exact refused_keeps installed
  | true => exact goesOn rfl

theorem verifyKlaaySignature_keeps {entry : Entry Tree}
    (installed : world.disk target = some (.bundle old))
    (placed : world.disk staged = some entry) :
    (verifyKlaaySignature staged).Keeps performsSwap (fun _ => SwapSafe old backup target)
      (VerifyOutcome old staged target) history world := by
  refine keeps_perform.mpr ⟨.installed installed, fun verified sound performed => ?_⟩
  obtain rfl := performed
  cases verified with
  | error e => exact refused_keeps installed
  | ok verify =>
      refine checked_keeps installed fun soundOk => ?_
      refine keeps_perform.mpr ⟨.installed installed, fun named ours performed => ?_⟩
      obtain rfl := performed
      cases named with
      | error e => exact refused_keeps installed
      | ok details =>
          refine checked_keeps installed fun team => ?_
          refine keeps_perform.mpr ⟨.installed installed, fun assessed accepted performed => ?_⟩
          obtain rfl := performed
          cases assessed with
          | error e => exact refused_keeps installed
          | ok assess =>
              refine checked_keeps installed fun notarized => ?_
              refine ⟨.installed installed, installed, fun _ => ⟨entry, placed, ?_⟩⟩
              intro check
              cases check with
              | integrity => exact Or.inl (Or.inl (Or.inr ⟨soundOk, rfl, placed⟩))
              | team => exact Or.inl (Or.inr ⟨team, rfl, placed⟩)
              | gatekeeper => exact Or.inr ⟨notarized, rfl, placed⟩

end Swap

theorem stageVerifyAndSwap_keeps {sourceApp : String} {old : Tree} {target : String} {pid : Nat}
    {history : List SwapEvent} (installed : world.disk target = some (.bundle old)) :
    (stageVerifyAndSwap sourceApp target pid).Keeps performsSwap
      (fun _ => SwapSafe old (backupPath target pid) target) (SwapOutcome old target)
      history world := by
  obtain ⟨fromTarget, apart, fromBackup⟩ := swap_paths_distinct target pid
  refine keeps_perform.mpr ⟨.installed installed, fun removed cleared performed => ?_⟩
  have installed := installed_step installed performed fromTarget
  refine keeps_perform.mpr ⟨.installed installed, fun removed cleared performed => ?_⟩
  have installed := installed_step installed performed apart
  refine keeps_perform.mpr ⟨.installed installed, fun copied staged performed => ?_⟩
  have installed := installed_step installed performed fromTarget
  rcases copied with e | (_ | _)
  · exact ⟨.installed installed, Or.inl installed⟩
  · exact giveUp_keeps fromBackup fromTarget (Or.inl installed) (.installed installed)
  · obtain ⟨entry, rfl⟩ := performed
    have placed := cleared.disk_put_self (stagedSiblingPath target pid) (some entry)
    refine (verifyKlaaySignature_keeps installed placed).bind ?_
    rintro history world verified ⟨installed, accepted⟩
    cases verified with
    | error e =>
        exact giveUp_keeps fromBackup fromTarget (Or.inl installed) (.installed installed)
    | ok _ => exact swapStaged_keeps fromBackup fromTarget apart installed (accepted rfl)

def MacWorld.unassessed (disk : String → Option (Entry Tree)) : MacWorld Tree where
  disk := disk
  accepted := fun _ _ => False

/-- The update never loses the working bundle and never installs one that was
not verified: at every moment, and at the end unless two steps failed. -/
theorem swap_keeps_working_app {sourceApp target : String} {pid : Nat} {old : Tree}
    {disk : String → Option (Entry Tree)} (installed : disk target = some (.bundle old)) :
    (∀ {events : List SwapEvent} {world : MacWorld Tree},
      Begins performsSwap (stageVerifyAndSwap sourceApp target pid) (.unassessed disk)
        events world →
      SwapSafe old (backupPath target pid) target world) ∧
    ∀ {events : List SwapEvent} {world : MacWorld Tree} {result : Except String Unit},
      Runs performsSwap (stageVerifyAndSwap sourceApp target pid) (.unassessed disk)
        events world result →
      failures events ≤ 1 →
      (result.isOk = false → world.disk target = some (.bundle old)) ∧
        (result.isOk = true → world.HoldsVerified target) := by
  have keeps : (stageVerifyAndSwap sourceApp target pid).Keeps performsSwap _ _ []
      (.unassessed disk) := stageVerifyAndSwap_keeps installed
  refine ⟨fun begins => keeps.begins begins, ?_⟩
  intro events world result run few
  have outcome := keeps.runs run
  cases result with
  | ok _ => exact ⟨fun failed => (by cases failed), fun _ => outcome⟩
  | error e =>
      refine ⟨fun _ => ?_, fun passed => (by cases passed)⟩
      rcases outcome with restored | failed
      · exact restored
      · rw [List.nil_append] at failed
        omega

private def runningApp : String := "/Applications/KlaayGuard.app"

private def runningDisk : String → Option (Entry Nat) :=
  Function.update (fun _ => none) runningApp (some (.bundle 1))

private theorem runningDisk_of_ne {path : String} (differ : path ≠ runningApp) :
    runningDisk path = none := by
  simp only [runningDisk, Function.update_of_ne differ]

private def signedDetails : CommandOutput where
  success := true
  stderr := "TeamIdentifier=8QK45RW8QK".toList.map fun c => c.toNat.toUInt8

private theorem teamOk_signedDetails : teamOk signedDetails = true := by decide +kernel

private def stagedApp : String := stagedSiblingPath runningApp 7
private def backupApp : String := backupPath runningApp 7

private def rolledBack : List SwapEvent :=
  [⟨.removeDirAll stagedApp, .error .notFound⟩, ⟨.removeDirAll backupApp, .error .notFound⟩,
    ⟨.ditto "/Volumes/KlaayGuard/KlaayGuard.app" stagedApp, .ok true⟩,
    ⟨.codesignVerify stagedApp, .ok ⟨true, []⟩⟩, ⟨.codesignDetails stagedApp, .ok signedDetails⟩,
    ⟨.spctlAssess stagedApp, .ok ⟨true, []⟩⟩, ⟨.metadata runningApp, .ok ()⟩,
    ⟨.rename runningApp backupApp, .ok ()⟩, ⟨.rename stagedApp runningApp, .error "busy"⟩,
    ⟨.metadata backupApp, .ok ()⟩, ⟨.rename backupApp runningApp, .ok ()⟩,
    ⟨.removeDirAll stagedApp, .ok ()⟩]

private def verifiedWorld : MacWorld Nat :=
  ((((MacWorld.unassessed runningDisk).put stagedApp (some (.bundle 2))).assess .integrity
    stagedApp true).assess .team stagedApp (teamOk signedDetails)).assess .gatekeeper stagedApp true

private def asideWorld : MacWorld Nat :=
  (verifiedWorld.put runningApp none).put backupApp (some (.bundle 1))

private def rolledBackWorld : MacWorld Nat :=
  ((asideWorld.put backupApp none).put runningApp (some (.bundle 1))).put stagedApp none

private theorem rolledBack_runs : Runs performsSwap
    (stageVerifyAndSwap "/Volumes/KlaayGuard/KlaayGuard.app" runningApp 7)
    (.unassessed runningDisk) rolledBack rolledBackWorld
    (.error "Failed to swap new app into place: busy") := by
  have fromTarget : stagedApp ≠ runningApp := (swap_paths_distinct runningApp 7).1
  have apart : backupApp ≠ runningApp := (swap_paths_distinct runningApp 7).2.1
  have fromBackup : stagedApp ≠ backupApp := (swap_paths_distinct runningApp 7).2.2
  have running : verifiedWorld.disk runningApp = some (.bundle 1) := by
    rw [verifiedWorld, MacWorld.disk_assess, MacWorld.disk_assess, MacWorld.disk_assess,
      MacWorld.disk_put_of_ne _ fromTarget.symm]
    simp only [MacWorld.unassessed, runningDisk, Function.update_self]
  have free : (verifiedWorld.put runningApp none).disk backupApp = none := by
    rw [MacWorld.disk_put_of_ne _ apart, verifiedWorld, MacWorld.disk_assess,
      MacWorld.disk_assess, MacWorld.disk_assess, MacWorld.disk_put_of_ne _ fromBackup.symm]
    exact runningDisk_of_ne apart
  have emptied : asideWorld.disk runningApp = none := by
    rw [asideWorld, MacWorld.disk_put_of_ne _ apart.symm, MacWorld.disk_put_self]
  have saved : asideWorld.disk backupApp = some (.bundle 1) := MacWorld.disk_put_self _ _ _
  have waits : ((asideWorld.put backupApp none).put runningApp (some (.bundle 1))).disk stagedApp
      = some (.bundle 2) := by
    rw [MacWorld.disk_put_of_ne _ fromTarget, MacWorld.disk_put_of_ne _ fromBackup, asideWorld,
      MacWorld.disk_put_of_ne _ fromBackup, MacWorld.disk_put_of_ne _ fromTarget,
      verifiedWorld, MacWorld.disk_assess, MacWorld.disk_assess, MacWorld.disk_assess,
      MacWorld.disk_put_self]
  have returns : (asideWorld.put backupApp none).disk runningApp = none := by
    rw [MacWorld.disk_put_of_ne _ apart.symm, emptied]
  have empty := runningDisk_of_ne apart
  apply Runs.act ⟨runningDisk_of_ne fromTarget, rfl⟩
  apply Runs.act ⟨empty, rfl⟩
  apply Runs.act ⟨.bundle 2, rfl⟩
  apply Runs.act rfl
  apply Runs.act rfl
  dsimp only [Prog.bind]
  rw [teamOk_signedDetails]
  apply Runs.act rfl
  apply Runs.act ⟨rfl, fun absent => by cases running.symm.trans absent⟩
  apply Runs.act ⟨.bundle 1, running, Or.inl free, rfl⟩
  apply Runs.act rfl
  apply Runs.act ⟨rfl, fun absent => by cases saved.symm.trans absent⟩
  apply Runs.act ⟨.bundle 1, saved, Or.inl emptied, rfl⟩
  apply Runs.act ⟨fun absent => (by cases waits.symm.trans absent), rfl⟩
  apply Runs.done

theorem swap_keeps_working_app_rolled_back : ∃ world : MacWorld Nat,
    Runs performsSwap (stageVerifyAndSwap "/Volumes/KlaayGuard/KlaayGuard.app" runningApp 7)
      (.unassessed runningDisk) rolledBack world
      (.error "Failed to swap new app into place: busy") ∧
    failures rolledBack = 1 ∧ world.disk runningApp = some (.bundle 1) := by
  have installed : runningDisk runningApp = some (.bundle 1) := by
    simp only [runningDisk, Function.update_self]
  have few : failures rolledBack = 1 := by decide +kernel
  refine ⟨rolledBackWorld, rolledBack_runs, few, ?_⟩
  exact ((swap_keeps_working_app installed).2 rolledBack_runs (by omega)).1 rfl

end KlaayGuard
