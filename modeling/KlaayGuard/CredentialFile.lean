/-
The user-only file of a credential, and how it is replaced.

A value is written to a temporary file of its own and renamed over the old one, so the
file reads as before or as the whole value at every moment, whatever an earlier crash left
behind.  The two accounts share the directory and none of the four names.
-/

import KlaayGuard.Keychain
import KlaayGuard.Library.Assertions
import KlaayGuard.Library.FileDisk
import KlaayGuard.Library.RustText

set_option autoImplicit false

namespace KlaayGuard

open EffectProgram Prog FileDisk RustText

/-- `KEYCHAIN_ACCOUNT` and `DEVICE_ID_ACCOUNT`. -/
def Account.name : Account → List Char
  | .authToken => "auth_token".toList
  | .deviceIdentity => "device_identity".toList

def productionApiBase : String := "https://api.klaay.com"

variable (sha256 : List UInt8 → { bytes : List UInt8 // bytes.length = 32 })

def targetSuffix (apiBaseUrl : String) : Option String :=
  let normalised := trimEndMatches (· == '/') apiBaseUrl.toList
  if normalised = productionApiBase.toList then none
  else some (hexLower ((sha256 (asBytes (String.ofList normalised))).val.take 4))

/-- `dataLocalDir` is what `dirs::data_local_dir` answers. -/
def credentialFileIn (dataLocalDir : Option (List Char)) (apiBaseUrl : String)
    (account : Account) : Option (List Char) :=
  let dir :=
    match targetSuffix sha256 apiBaseUrl with
    | none => "credentials".toList
    | some suffix => "credentials-".toList ++ suffix.toList
  dataLocalDir.map fun d => pathJoin (pathJoin (pathJoin d "com.klaay.app".toList) dir) account.name

@[reducible] def fileReply (_ : Call (List Char)) : Type := Except String Unit

abbrev FileProgram (α : Type) : Type := Prog (Call (List Char)) fileReply α

abbrev FileEvent : Type := Event (Call (List Char)) fileReply

def performsFile (disk : Disk (List Char)) (call : Call (List Char)) (reply : fileReply call)
    (after : Disk (List Char)) : Prop :=
  call.Performs disk reply.isOk after

def writeTemporary (tmp : List Char) (value : String) : FileProgram (Except String Unit) := do
  match ← .perform (.createNew tmp 0o600) with
  | .error e => pure (.error ("credential create: " ++ e))
  | .ok _ =>
      match ← .perform (.writeAll tmp (asBytes value)) with
      | .error e => pure (.error ("credential write: " ++ e))
      | .ok _ =>
          match ← .perform (.syncAll tmp) with
          | .error e => pure (.error ("credential sync: " ++ e))
          | .ok _ => pure (.ok ())

def fileSaveAt (path : List Char) (value : String) : FileProgram (Except String Unit) := do
  match parent path with
  | none => pure (.error "credential path has no parent")
  | some dir =>
      match ← .perform (.createDirAll dir) with
      | .error e => pure (.error ("credential dir: " ++ e))
      | .ok _ => do
          let _ ← .perform (.setPermissions dir 0o700)
          let tmp := withExtension path "tmp".toList
          let _ ← .perform (.removeFile tmp)
          match ← writeTemporary tmp value with
          | .error e => pure (.error e)
          | .ok _ =>
              match ← .perform (.rename tmp path) with
              | .error e => pure (.error ("credential rename: " ++ e))
              | .ok _ => pure (.ok ())

def fileLoadAt (disk : Disk (List Char)) (path : List Char) : Option String :=
  match (disk path).bind fun file => fromUtf8 file.bytes with
  | some s => if s ≠ "" then some s else none
  | none => none

theorem Account.name_plain (account : Account) : IsPlainName account.name := by
  cases account <;> exact ⟨by decide, by decide, by decide, by decide⟩

def Account.temporaryName (account : Account) : List Char := account.name ++ ".tmp".toList

theorem Account.temporaryName_plain (account : Account) : IsPlainName account.temporaryName := by
  cases account <;> exact ⟨by decide, by decide, by decide, by decide⟩

theorem fileStem_name (account : Account) : fileStem account.name = account.name := by
  cases account <;> decide

theorem temporaryName_ne (account other : Account) : account.temporaryName ≠ other.name := by
  cases account <;> cases other <;> decide

variable {sha256} {dataLocalDir : Option (List Char)} {apiBaseUrl : String}
variable {account other : Account} {path otherPath : List Char}

theorem fileName_credentialFileIn
    (found : credentialFileIn sha256 dataLocalDir apiBaseUrl account = some path) :
    fileName path = some account.name := by
  obtain ⟨d, _, rfl⟩ := Option.map_eq_some_iff.mp found
  exact fileName_pathJoin account.name_plain _

theorem fileName_temporary (named : fileName path = some account.name) :
    fileName (withExtension path "tmp".toList) = some account.temporaryName := by
  rw [withExtension, named]
  simp only
  rw [fileStem_name]
  exact fileName_withFileName account.temporaryName_plain path

theorem temporary_ne (named : fileName path = some account.name)
    (otherNamed : fileName otherPath = some other.name) :
    withExtension path "tmp".toList ≠ otherPath := by
  intro same
  have temporary := fileName_temporary named
  rw [same, otherNamed] at temporary
  exact temporaryName_ne account other (Option.some.inj temporary).symm

theorem account_of_path (named : fileName path = some account.name)
    (otherNamed : fileName path = some other.name) : account = other := by
  rw [named] at otherNamed
  have names := Option.some.inj otherNamed
  cases account <;> cases other <;> first | rfl | exact absurd names (by decide)

variable {value : String} {old disk after : Disk (List Char)} {history : List FileEvent}
variable {tmp : List Char}

def OnlyTemporary (tmp : List Char) (old disk : Disk (List Char)) : Prop :=
  ∀ path, tmp ≠ path → disk path = old path

structure Replaced (path tmp : List Char) (value : String) (old disk : Disk (List Char)) :
    Prop where
  file : ∃ mode, disk path = some ⟨asBytes value, mode⟩
  others : ∀ other, tmp ≠ other → path ≠ other → disk other = old other

/-- What the caller is told. -/
def FileOutcome (path tmp : List Char) (value : String) (old disk : Disk (List Char)) :
    Except String Unit → Prop
  | .ok _ => Replaced path tmp value old disk
  | .error _ => OnlyTemporary tmp old disk

def Saving (path tmp : List Char) (value : String) (old : Disk (List Char))
    (_history : List FileEvent) (disk : Disk (List Char)) : Prop :=
  OnlyTemporary tmp old disk ∨ Replaced path tmp value old disk

/-! ### The steps -/

theorem OnlyTemporary.step {call : Call (List Char)} {reply : fileReply call}
    (only : OnlyTemporary tmp old disk) (performed : performsFile disk call reply after)
    (within : ∀ path, call.Touches path → tmp = path) : OnlyTemporary tmp old after := by
  intro path apart
  have kept := Call.Performs.frame performed fun touches => apart (within path touches)
  exact kept.trans (only path apart)

theorem writeTemporary_keeps (only : OnlyTemporary tmp old disk) :
    (writeTemporary tmp value).Keeps performsFile (Saving path tmp value old)
      (fun _ disk written => OnlyTemporary tmp old disk ∧
        (written.isOk = true → ∃ mode, disk tmp = some ⟨asBytes value, mode⟩)) history disk := by
  refine keeps_perform.mpr ⟨Or.inl only, fun made created performed => ?_⟩
  have only := only.step performed fun _ same => same
  cases made with
  | error e => exact ⟨Or.inl only, only, fun done => by cases done⟩
  | ok _ =>
      have empty := createNew_succeeded performed
      refine keeps_perform.mpr ⟨Or.inl only, fun wrote written performed => ?_⟩
      have only := only.step performed fun _ same => same
      cases wrote with
      | error e => exact ⟨Or.inl only, only, fun done => by cases done⟩
      | ok _ =>
          have filled := writeAll_succeeded empty performed
          refine keeps_perform.mpr ⟨Or.inl only, fun synced flushed performed => ?_⟩
          have only := only.step performed fun _ touches => touches.elim
          obtain rfl : flushed = written := by cases synced <;> exact performed
          cases synced with
          | error e => exact ⟨Or.inl only, only, fun done => by cases done⟩
          | ok _ => exact ⟨Or.inl only, only, fun _ => ⟨_, filled⟩⟩

theorem replaced_of_rename {mode : Nat} (only : OnlyTemporary tmp old disk)
    (filled : disk tmp = some ⟨asBytes value, mode⟩)
    (performed : (Call.rename tmp path).Performs disk true after) :
    Replaced path tmp value old after := by
  refine ⟨⟨mode, rename_succeeded filled performed⟩, fun other fromTmp fromPath => ?_⟩
  have untouched : ¬ (Call.rename tmp path).Touches other := by
    rintro (same | same)
    · exact fromTmp same
    · exact fromPath same
  exact (Call.Performs.frame performed untouched).trans (only other fromTmp)

theorem fileSaveAt_keeps :
    (fileSaveAt path value).Keeps performsFile
      (Saving path (withExtension path "tmp".toList) value old)
      (fun _ => FileOutcome path (withExtension path "tmp".toList) value old) [] old := by
  have unchanged : OnlyTemporary (withExtension path "tmp".toList) old old := fun _ _ => rfl
  rw [fileSaveAt]
  cases parent path with
  | none => exact ⟨Or.inl unchanged, unchanged⟩
  | some dir =>
      refine keeps_perform.mpr ⟨Or.inl unchanged, fun made disk performed => ?_⟩
      cases made with
      | error e =>
          obtain rfl : disk = old := performed
          exact ⟨Or.inl unchanged, unchanged⟩
      | ok _ =>
          obtain ⟨noFile, rfl⟩ := performed
          refine keeps_perform.mpr ⟨Or.inl unchanged, fun changed disk performed => ?_⟩
          -- The directory is no file, so its mode is not of this disk.
          obtain rfl : disk = _ := by
            cases changed with
            | error e => exact performed
            | ok _ => exact Eq.trans performed (Disk.change_of_none noFile _)
          refine keeps_perform.mpr ⟨Or.inl unchanged, fun removed cleared performed => ?_⟩
          have only := unchanged.step performed fun _ same => same
          refine (writeTemporary_keeps only).bind ?_
          rintro history disk (e | _) ⟨only, filled⟩
          · exact ⟨Or.inl only, only⟩
          · obtain ⟨mode, filled⟩ := filled rfl
            refine keeps_perform.mpr ⟨Or.inl only, fun renamed after performed => ?_⟩
            cases renamed with
            | error e =>
                obtain rfl : after = disk := performed
                exact ⟨Or.inl only, only⟩
            | ok _ =>
                have replaced := replaced_of_rename only filled performed
                exact ⟨Or.inr replaced, replaced⟩

theorem fileLoadAt_congr (same : disk path = old path) :
    fileLoadAt disk path = fileLoadAt old path := by
  rw [fileLoadAt, fileLoadAt, same]

theorem Replaced.fileLoadAt (replaced : Replaced path tmp value old disk) (nonempty : value ≠ "") :
    fileLoadAt disk path = some value := by
  obtain ⟨mode, whole⟩ := replaced.file
  simp only [KlaayGuard.fileLoadAt, whole, Option.bind_some, fromUtf8_asBytes, if_pos nonempty]

/-- A save that is cut off or fails at any step leaves the old content or the whole value,
its answer tells which, and the other account's file reads as before. -/
theorem credential_replaced_atomically (nonempty : value ≠ "")
    (found : credentialFileIn sha256 dataLocalDir apiBaseUrl account = some path)
    (otherFound : credentialFileIn sha256 dataLocalDir apiBaseUrl other = some otherPath) :
    (∀ {events : List FileEvent} {disk : Disk (List Char)},
      Begins performsFile (fileSaveAt path value) old events disk →
      (fileLoadAt disk path = fileLoadAt old path ∨ fileLoadAt disk path = some value) ∧
        (account ≠ other → fileLoadAt disk otherPath = fileLoadAt old otherPath)) ∧
    ∀ {events : List FileEvent} {disk : Disk (List Char)} {result : Except String Unit},
      Runs performsFile (fileSaveAt path value) old events disk result →
      fileLoadAt disk path = if result.isOk then some value else fileLoadAt old path := by
  have named := fileName_credentialFileIn found
  have otherNamed := fileName_credentialFileIn otherFound
  have fromPath := temporary_ne named named
  have fromOther := temporary_ne named otherNamed
  constructor
  · intro events disk begins
    rcases fileSaveAt_keeps.begins begins with only | replaced
    · exact ⟨Or.inl (fileLoadAt_congr (only path fromPath)),
        fun _ => fileLoadAt_congr (only otherPath fromOther)⟩
    · refine ⟨Or.inr (replaced.fileLoadAt nonempty), fun differ => ?_⟩
      have apart : path ≠ otherPath := by
        rintro rfl
        exact differ (account_of_path named otherNamed)
      exact fileLoadAt_congr (replaced.others otherPath fromOther apart)
  · intro events disk result run
    have outcome := fileSaveAt_keeps.runs run
    cases result with
    | ok _ => exact outcome.fileLoadAt nonempty
    | error e => exact fileLoadAt_congr (outcome path fromPath)

private def noDigest : List UInt8 → { bytes : List UInt8 // bytes.length = 32 } :=
  fun _ => ⟨List.replicate 32 (UInt8.ofNat 0), rfl⟩

private def tokenDir : List Char := "/home/ann/.local/share/com.klaay.app/credentials".toList
private def tokenPath : List Char := tokenDir ++ "/auth_token".toList
private def tokenTmp : List Char := withExtension tokenPath "tmp".toList

private def tokenDisk : Disk (List Char) :=
  Disk.put (Disk.put (fun _ => none) tokenPath (some ⟨asBytes "old", 0o600⟩)) tokenTmp
    (some ⟨[0xC3], 0o600⟩)

private def diskFull : List FileEvent :=
  [⟨.createDirAll tokenDir, .ok ()⟩, ⟨.setPermissions tokenDir 0o700, .error "denied"⟩,
    ⟨.removeFile tokenTmp, .ok ()⟩, ⟨.createNew tokenTmp 0o600, .ok ()⟩,
    ⟨.writeAll tokenTmp (asBytes "new"), .error "disk full"⟩]

private def fullDisk : Disk (List Char) :=
  ((tokenDisk.put tokenTmp none).put tokenTmp (some ⟨[], 0o600⟩)).change tokenTmp fun file =>
    { file with bytes := file.bytes ++ (asBytes "new").take 1 }

private theorem tokenPath_found : credentialFileIn noDigest
    (some "/home/ann/.local/share".toList) productionApiBase .authToken = some tokenPath := by
  decide +kernel

private theorem diskFull_runs : Runs performsFile (fileSaveAt tokenPath "new") tokenDisk diskFull
    fullDisk (.error "credential write: disk full") := by
  have named := fileName_credentialFileIn tokenPath_found
  have apart : tokenTmp ≠ tokenPath := temporary_ne named named
  have up : parent tokenPath = some tokenDir := by decide +kernel
  have elsewhere : tokenPath ≠ tokenDir ∧ tokenTmp ≠ tokenDir := by
    constructor <;> decide +kernel
  have noFile : tokenDisk tokenDir = none := by
    rw [tokenDisk, Disk.put_of_ne elsewhere.2.symm, Disk.put_of_ne elsewhere.1.symm]
  have left : tokenDisk tokenTmp ≠ none := by
    rw [tokenDisk, Disk.put_self]
    exact Option.some_ne_none _
  rw [fileSaveAt, up]
  apply Runs.act ⟨noFile, rfl⟩
  apply Runs.act (show performsFile tokenDisk (.setPermissions tokenDir 0o700)
    (.error "denied") tokenDisk from rfl)
  apply Runs.act ⟨left, rfl⟩
  apply Runs.act ⟨Disk.put_self _, rfl⟩
  apply Runs.act
    ⟨(asBytes "new").take 1, List.take_prefix _ _, fun failed => (by cases failed), rfl⟩
  apply Runs.done

theorem credential_replaced_atomically_disk_full : ∃ disk : Disk (List Char),
    Runs performsFile (fileSaveAt tokenPath "new") tokenDisk diskFull disk
      (.error "credential write: disk full") ∧ fileLoadAt disk tokenPath = some "old" := by
  have read := (credential_replaced_atomically (by decide : "new" ≠ "") tokenPath_found
    tokenPath_found).2 diskFull_runs
  have apart : tokenPath ≠ tokenTmp :=
    (temporary_ne (fileName_credentialFileIn tokenPath_found)
      (fileName_credentialFileIn tokenPath_found)).symm
  refine ⟨fullDisk, diskFull_runs, read.trans ?_⟩
  have before : tokenDisk tokenPath = some ⟨asBytes "old", 0o600⟩ := by
    rw [tokenDisk, Disk.put_of_ne apart, Disk.put_self]
  have decoded : fromUtf8 (asBytes "old") = some "old" := fromUtf8_asBytes _
  simp [fileLoadAt, before, decoded, Except.isOk, Except.toBool]

def ShowsFiles (files : Account → List Char) (disk : Disk (List Char)) (world : World) : Prop :=
  ∀ account, ((disk (files account)).bind fun file => fromUtf8 file.bytes) =
    world.fallbackFile account

variable {files : Account → List Char} {world : World}

theorem ShowsFiles.fileLoadAt (shown : ShowsFiles files disk world) (account : Account) :
    fileLoadAt disk (files account) = (world.fallbackFile account).filter (· ≠ "") := by
  rw [KlaayGuard.fileLoadAt, shown account]
  cases world.fallbackFile account with
  | none => rfl
  | some s => by_cases empty : s = "" <;> simp [Option.filter, empty]

/-- The save refines the one step that the credential store makes of it. -/
theorem fileSaveAt_refines
    (found : ∀ account, credentialFileIn sha256 dataLocalDir apiBaseUrl account =
      some (files account))
    (before : ShowsFiles files old world) {events : List FileEvent} {result : Except String Unit}
    (run : Runs performsFile (fileSaveAt (files account) value) old events disk result) :
    ∃ after, performs world (.fileSave account value) result after ∧
      ShowsFiles files disk after := by
  have named := fun other => fileName_credentialFileIn (found other)
  have outcome := fileSaveAt_keeps.runs run
  cases result with
  | error e =>
      refine ⟨world, rfl, fun other => ?_⟩
      rw [outcome _ (temporary_ne (named account) (named other))]
      exact before other
  | ok _ =>
      refine ⟨_, rfl, fun other => ?_⟩
      by_cases same : other = account
      · subst same
        obtain ⟨mode, whole⟩ := outcome.file
        rw [whole, World.fallbackFile_setFallbackFile]
        exact fromUtf8_asBytes value
      · have apart : files account ≠ files other := by
          intro sameFile
          have otherNamed := named other
          rw [← sameFile] at otherNamed
          exact same (account_of_path (named account) otherNamed).symm
        rw [outcome.others _ (temporary_ne (named account) (named other)) apart, before other]
        simp only [World.setFallbackFile, Function.update_of_ne same]

end KlaayGuard
