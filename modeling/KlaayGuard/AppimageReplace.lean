/-
The replacement of a running AppImage: stage beside it, write, sync, rename over it.

Until the rename only the staged sibling is touched, and the rename is one step, so the
image is the old one or the new one at every moment; every branch that gives up after the
stage was made removes it.
-/

import KlaayGuard.Library.Assertions
import KlaayGuard.Library.FileDisk
import KlaayGuard.MacosSwap

set_option autoImplicit false

namespace KlaayGuard

open EffectProgram Prog FileDisk

structure UpdateProcess : Type where
  env : String → Option String
  exe : Except String String

/-- Which reply a step of the replacement may get, and the disk it leaves.  Nothing is
said of the actions that it does not perform. -/
def performsReplace (process : UpdateProcess) :
    Disk String → (effect : UpdateEffect) → effect.Reply → Disk String → Prop
  | disk, .readVar name, reply, after => reply = process.env name ∧ after = disk
  | disk, .currentExe, reply, after => reply = process.exe ∧ after = disk
  | disk, .isFile path, reply, after => reply = (disk path).isSome ∧ after = disk
  | disk, .createNew path, reply, after =>
      (reply = .error .alreadyExists → disk path ≠ none) ∧
        (Call.createNew path 0o600).Performs disk reply.isOk after
  | disk, .writeAll path bytes, reply, after =>
      (Call.writeAll path bytes).Performs disk reply.isOk after
  | disk, .syncAll path, reply, after => (Call.syncAll path).Performs disk reply.isOk after
  | disk, .setPermissions path mode, reply, after =>
      (Call.setPermissions path mode).Performs disk reply.isOk after
  | disk, .rename source target, reply, after =>
      (Call.rename source target).Performs disk reply.isOk after
  | disk, .removeFile path, reply, after =>
      (Call.removeFile path).Performs disk reply.isOk after
  | disk, .syncParentDir _, _, after => after = disk
  | disk, .spawnRelaunch _, _, after => after = disk
  | disk, .exit, _, after => after = disk
  | _, _, _, _ => True

/-- The image is the old file or the complete new one. -/
def WholeImage (old : Disk String) (target : String) (bytes : List UInt8)
    (disk : Disk String) : Prop :=
  disk target = old target ∨ disk target = some ⟨bytes, 0o755⟩

def Created (staged : String) (events : List UpdateEvent) : Prop :=
  ⟨.createNew staged, .ok ()⟩ ∈ events

def RemovalFailed (staged : String) (events : List UpdateEvent) : Prop :=
  ∃ message, ⟨.removeFile staged, .error message⟩ ∈ events

/-- What the caller is told: the new image is in place, or the old one is and the stage
is gone, if this call made it. -/
def ReplaceOutcome (old : Disk String) (target staged : String) (bytes : List UInt8)
    (events : List UpdateEvent) (disk : Disk String) : Except String Unit → Prop
  | .ok _ => disk target = some ⟨bytes, 0o755⟩
  | .error _ => disk target = old target ∧
      (Created staged events → ¬ RemovalFailed staged events → disk staged = none)

section Replace

variable {process : UpdateProcess} {old disk : Disk String} {target staged : String}
variable {bytes : List UInt8} {history : List UpdateEvent}

theorem removalFailed_concat {event : UpdateEvent} : RemovalFailed staged (history ++ [event]) ↔
    RemovalFailed staged history ∨ ∃ message, event = ⟨.removeFile staged, .error message⟩ := by
  simp only [RemovalFailed, List.mem_append, List.mem_singleton, exists_or, eq_comm]

def Untouched (old : Disk String) (staged : String) (events : List UpdateEvent)
    (disk : Disk String) : Prop :=
  disk = old ∧ ¬ Created staged events

theorem ownAppimage_keeps (staged : String) (named : process.env "APPIMAGE" = some target) :
    ownAppimage.Keeps (performsReplace process) (fun _ => WholeImage old target bytes)
      (fun history disk found => Untouched old staged history disk ∧
        ∀ image, found = some image → image = target) [] old := by
  have whole : WholeImage old target bytes old := Or.inl rfl
  refine keeps_perform.mpr ⟨whole, fun appimage after performed => ?_⟩
  rw [performed.1, performed.2, named]
  refine keeps_perform.mpr ⟨whole, fun appdir after performed => ?_⟩
  rw [performed.2]
  cases appdir with
  | none => exact ⟨whole, ⟨rfl, by simp [Created]⟩, fun _ found => by cases found⟩
  | some appdir =>
      refine keeps_perform.mpr ⟨whole, fun exe after performed => ?_⟩
      rw [performed.2]
      cases exe with
      | error e => exact ⟨whole, ⟨rfl, by simp [Created]⟩, fun _ found => by cases found⟩
      | ok exe =>
          simp only
          split
          · refine keeps_perform.mpr ⟨whole, fun isFile after performed => ?_⟩
            rw [performed.2]
            refine ⟨whole, ⟨rfl, by simp [Created]⟩, fun image found => ?_⟩
            cases isFile with
            | false => cases found
            | true => exact (Option.some.inj found).symm
          · exact ⟨whole, ⟨rfl, by simp [Created]⟩, fun _ found => by cases found⟩

def Opened (old : Disk String) (target staged : String) (events : List UpdateEvent)
    (disk : Disk String) : Except String Unit → Prop
  | .ok _ => disk target = old target ∧ ∃ mode, disk staged = some ⟨[], mode⟩
  | .error _ => disk target = old target ∧ ¬ Created staged events

theorem openStaged_keeps (apart : staged ≠ target) (untouched : Untouched old staged history disk) :
    (openStaged staged).Keeps (performsReplace process) (fun _ => WholeImage old target bytes)
      (Opened old target staged) history disk := by
  obtain ⟨rfl, fresh⟩ := untouched
  refine keeps_perform.mpr ⟨Or.inl rfl, fun first after performed => ?_⟩
  have kept := Call.Performs.frame performed.2 apart
  rcases first with (_ | message) | _
  · refine keeps_perform.mpr ⟨Or.inl kept, fun removed cleared performed => ?_⟩
    have atRemoval : (Call.removeFile staged).Performs after removed.isOk cleared := performed
    have kept := (Call.Performs.frame atRemoval apart).trans kept
    refine keeps_perform.mpr ⟨Or.inl kept, fun second after performed => ?_⟩
    have kept := (Call.Performs.frame performed.2 apart).trans kept
    rcases second with (_ | message) | _
    · exact ⟨Or.inl kept, kept, by simpa [Created] using fresh⟩
    · exact ⟨Or.inl kept, kept, by simpa [Created] using fresh⟩
    · exact ⟨Or.inl kept, kept, _, createNew_succeeded performed.2⟩
  · exact ⟨Or.inl kept, kept, by simpa [Created] using fresh⟩
  · exact ⟨Or.inl kept, kept, _, createNew_succeeded performed.2⟩

theorem writeAndSync_keeps {mode : Nat} (apart : staged ≠ target)
    (kept : disk target = old target) (opened : disk staged = some ⟨[], mode⟩) :
    (writeAndSync staged bytes).Keeps (performsReplace process)
      (fun _ => WholeImage old target bytes)
      (fun _ disk written => disk target = old target ∧
        (written.isOk = true → disk staged = some ⟨bytes, 0o755⟩)) history disk := by
  refine keeps_perform.mpr ⟨Or.inl kept, fun wrote written performed => ?_⟩
  have atWrite : (Call.writeAll staged bytes).Performs disk wrote.isOk written := performed
  have kept := (Call.Performs.frame atWrite apart).trans kept
  cases wrote with
  | error e => exact ⟨Or.inl kept, kept, fun done => by cases done⟩
  | ok _ =>
      have filled := writeAll_succeeded opened atWrite
      refine keeps_perform.mpr ⟨Or.inl kept, fun synced after performed => ?_⟩
      obtain rfl : after = written := by cases synced <;> exact performed
      cases synced with
      | error e => exact ⟨Or.inl kept, kept, fun done => by cases done⟩
      | ok _ =>
          refine ⟨Or.inl kept, fun changed after performed => ?_⟩
          have atChange : (Call.setPermissions staged 0o755).Performs _ changed.isOk after :=
            performed
          have kept := (Call.Performs.frame atChange apart).trans kept
          refine ⟨Or.inl kept, kept, fun done => ?_⟩
          cases changed with
          | error e => cases done
          | ok _ => exact setPermissions_succeeded filled atChange

theorem discard_keeps {message : String} (apart : staged ≠ target)
    (kept : disk target = old target) :
    (do
      let _removed ← UpdateEffect.perform (.removeFile staged)
      pure (.error message) : UpdateProgram (Except String Unit)).Keeps (performsReplace process)
        (fun _ => WholeImage old target bytes) (ReplaceOutcome old target staged bytes)
        history disk := by
  refine keeps_perform.mpr ⟨Or.inl kept, fun removed after performed => ?_⟩
  have atRemoval : (Call.removeFile staged).Performs disk removed.isOk after := performed
  have kept := (Call.Performs.frame atRemoval apart).trans kept
  refine ⟨Or.inl kept, kept, fun _ allRemoved => ?_⟩
  cases removed with
  | error e => exact absurd (removalFailed_concat.mpr (Or.inr ⟨e, rfl⟩)) allRemoved
  | ok _ => exact removeFile_succeeded performed

theorem renameStaged_keeps (apart : staged ≠ target) (kept : disk target = old target)
    (filled : disk staged = some ⟨bytes, 0o755⟩) :
    (do
      match ← UpdateEffect.perform (.rename staged target) with
      | .error e => do
          let _ ← UpdateEffect.perform (.removeFile staged)
          pure (.error ("AppImage replace failed: " ++ e))
      | .ok () => do
          UpdateEffect.perform (.syncParentDir target)
          match ← UpdateEffect.perform (.spawnRelaunch target) with
          | .error _ => pure (.ok ())
          | .ok () => do
              UpdateEffect.perform .exit
              pure (.ok ()) : UpdateProgram (Except String Unit)).Keeps (performsReplace process)
        (fun _ => WholeImage old target bytes) (ReplaceOutcome old target staged bytes)
        history disk := by
  refine keeps_perform.mpr ⟨Or.inl kept, fun renamed after performed => ?_⟩
  cases renamed with
  | error e =>
      obtain rfl : after = disk := performed
      exact discard_keeps apart kept
  | ok _ =>
      have replaced := rename_succeeded filled performed
      refine keeps_perform.mpr ⟨Or.inr replaced, fun _ synced performed => ?_⟩
      obtain rfl : synced = after := performed
      refine keeps_perform.mpr ⟨Or.inr replaced, fun spawned started performed => ?_⟩
      obtain rfl : started = synced := performed
      cases spawned with
      | error e => exact ⟨Or.inr replaced, replaced⟩
      | ok _ =>
          refine ⟨Or.inr replaced, fun _ ended performed => ?_⟩
          obtain rfl : ended = started := performed
          exact ⟨Or.inr replaced, replaced⟩

end Replace

theorem installAppimageUpdate_keeps {host : UpdateHost} {bytes : List UInt8}
    {process : UpdateProcess} {old : Disk String} {target : String}
    (named : process.env "APPIMAGE" = some target) :
    (installAppimageUpdate host bytes).Keeps (performsReplace process)
      (fun _ => WholeImage old target bytes)
      (ReplaceOutcome old target (stagedSiblingPath target host.pid) bytes) [] old := by
  have apart := (swap_paths_distinct target host.pid).1
  refine (ownAppimage_keeps (stagedSiblingPath target host.pid) named).bind ?_
  rintro history disk found ⟨untouched, own⟩
  cases found with
  | none =>
      obtain ⟨rfl, fresh⟩ := untouched
      exact ⟨Or.inl rfl, rfl, fun created => absurd created fresh⟩
  | some image =>
      obtain rfl := own image rfl
      refine (openStaged_keeps apart untouched).bind ?_
      rintro history disk (e | _) opened
      · exact ⟨Or.inl opened.1, opened.1, fun created => absurd created opened.2⟩
      · obtain ⟨kept, mode, empty⟩ := opened
        refine (writeAndSync_keeps apart kept empty).bind ?_
        rintro history disk (e | _) ⟨kept, filled⟩
        · exact discard_keeps apart kept
        · exact renameStaged_keeps apart kept (filled rfl)

/-- The image is never a partial one, an error leaves the old one, and an error after the
stage was made leaves no stage. -/
theorem appimage_replaced_whole {host : UpdateHost} {bytes : List UInt8}
    {process : UpdateProcess} {old : Disk String} {target : String}
    (named : process.env "APPIMAGE" = some target) :
    (∀ {events : List UpdateEvent} {disk : Disk String},
      Begins (performsReplace process) (installAppimageUpdate host bytes) old events disk →
      WholeImage old target bytes disk) ∧
    ∀ {events : List UpdateEvent} {disk : Disk String} {result : Except String Unit},
      Runs (performsReplace process) (installAppimageUpdate host bytes) old events disk result →
      ReplaceOutcome old target (stagedSiblingPath target host.pid) bytes events disk result :=
  ⟨fun begins => (installAppimageUpdate_keeps named).begins begins,
    fun run => (installAppimageUpdate_keeps named).runs run⟩

def imagePath : String := "/opt/KlaayGuard.AppImage"

def imageStage (pid : Nat) : String := stagedSiblingPath imagePath pid

def imageProcess : UpdateProcess where
  env name := if name = "APPIMAGE" then some imagePath else some "/tmp/.mount_Klaay"
  exe := .ok "/tmp/.mount_Klaay/usr/bin/klaayguard"

def imageHost (pid : Nat) : UpdateHost where
  os := .linux
  arch := "x86_64"
  currentVersion := "0.1.11"
  pid := pid

def imageDisk : Disk String := Function.update (fun _ => none) imagePath (some ⟨[1], 0o755⟩)

def imageFound : List UpdateEvent :=
  [⟨.readVar "APPIMAGE", some imagePath⟩, ⟨.readVar "APPDIR", some "/tmp/.mount_Klaay"⟩,
    ⟨.currentExe, .ok "/tmp/.mount_Klaay/usr/bin/klaayguard"⟩, ⟨.isFile imagePath, true⟩]

theorem imageFound_runs {disk : Disk String} (there : disk imagePath = imageDisk imagePath) :
    Runs (performsReplace imageProcess) ownAppimage disk imageFound disk (some imagePath) := by
  have own : appimageIsOwn imagePath "/tmp/.mount_Klaay" "/tmp/.mount_Klaay/usr/bin/klaayguard" =
      true := by decide +kernel
  have present : true = (disk imagePath).isSome := by
    rw [there]
    simp [imageDisk]
  apply Runs.act ⟨rfl, rfl⟩
  apply Runs.act ⟨rfl, rfl⟩
  apply Runs.act ⟨rfl, rfl⟩
  dsimp only [Prog.bind]
  rw [own]
  apply Runs.act ⟨present, rfl⟩
  apply Runs.done

private def halfWritten : Disk String :=
  (imageDisk.put (imageStage 7) (some ⟨[], 0o600⟩)).change (imageStage 7) fun file =>
    { file with bytes := file.bytes ++ [2] }

private def failedWrite : List UpdateEvent :=
  imageFound ++
    [⟨.createNew (imageStage 7), .ok ()⟩, ⟨.writeAll (imageStage 7) [2, 3], .error "disk full"⟩,
      ⟨.removeFile (imageStage 7), .ok ()⟩]

private theorem failedWrite_runs : Runs (performsReplace imageProcess)
    (installAppimageUpdate (imageHost 7) [2, 3]) imageDisk failedWrite
    (halfWritten.put (imageStage 7) none) (.error "stage write failed: disk full") := by
  have apart : imageStage 7 ≠ imagePath := (swap_paths_distinct imagePath 7).1
  have free : imageDisk (imageStage 7) = none := by
    simp only [imageDisk, Function.update_of_ne apart]
  refine runs_bind.mpr ⟨_, _, _, _, imageFound_runs rfl, ?_, rfl⟩
  apply Runs.act ⟨fun failed => (by cases failed), free, rfl⟩
  apply Runs.act ⟨[2], ⟨[3], rfl⟩, fun failed => (by cases failed), rfl⟩
  apply Runs.act ⟨by simp, rfl⟩
  apply Runs.done

theorem appimage_replaced_whole_failed_write : ∃ disk : Disk String,
    Runs (performsReplace imageProcess) (installAppimageUpdate (imageHost 7) [2, 3]) imageDisk
      failedWrite disk (.error "stage write failed: disk full") ∧
    disk imagePath = imageDisk imagePath ∧ disk (imageStage 7) = none := by
  have named : imageProcess.env "APPIMAGE" = some imagePath := by decide
  have stage : stagedSiblingPath imagePath (imageHost 7).pid = imageStage 7 := rfl
  obtain ⟨kept, removed⟩ := (appimage_replaced_whole named).2 failedWrite_runs
  rw [stage] at removed
  refine ⟨halfWritten.put (imageStage 7) none, failedWrite_runs, kept, removed ?_ ?_⟩
  · simp [Created, failedWrite]
  · rintro ⟨message, member⟩
    simp [failedWrite, imageFound] at member

end KlaayGuard
