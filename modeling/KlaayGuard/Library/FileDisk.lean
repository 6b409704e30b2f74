/-
Regular files under names, and what one call to the file system may do to them.

Every call may fail.  A failed write has written a beginning of its bytes, which is also
what a process leaves that is killed inside of it; any other failed call changes nothing.
A rename moves one name at once, so a name that is only ever renamed onto shows what it
showed before or what the other name held.
-/

import Mathlib.Logic.Function.Basic

set_option autoImplicit false

namespace FileDisk

structure FileData : Type where
  bytes : List UInt8
  mode : Nat

abbrev Disk (Path : Type) : Type := Path → Option FileData

inductive Call (Path : Type) : Type where
  | createDirAll (path : Path)
  | setPermissions (path : Path) (mode : Nat)
  /-- With `create_new`: only where nothing has the name. -/
  | createNew (path : Path) (mode : Nat)
  | writeAll (path : Path) (bytes : List UInt8)
  | syncAll (path : Path)
  | rename (source target : Path)
  | removeFile (path : Path)

variable {Path : Type} [DecidableEq Path]

namespace Disk

def put (disk : Disk Path) (path : Path) (file : Option FileData) : Disk Path :=
  Function.update disk path file

def change (disk : Disk Path) (path : Path) (edit : FileData → FileData) : Disk Path :=
  disk.put path ((disk path).map edit)

variable {disk : Disk Path} {path other : Path}

@[simp] theorem put_self (file : Option FileData) : (disk.put path file) path = file := by
  simp only [put, Function.update_self]

theorem put_of_ne (differ : other ≠ path) (file : Option FileData) :
    (disk.put path file) other = disk other := by
  simp only [put, Function.update_of_ne differ]

@[simp] theorem change_self (edit : FileData → FileData) :
    (disk.change path edit) path = (disk path).map edit := put_self _

theorem change_of_ne (differ : other ≠ path) (edit : FileData → FileData) :
    (disk.change path edit) other = disk other := put_of_ne differ _

theorem change_of_none (absent : disk path = none) (edit : FileData → FileData) :
    disk.change path edit = disk := by
  rw [change, put, absent, Option.map_none, ← absent, Function.update_eq_self]

end Disk

/-- What a call that succeeds or fails may leave. -/
def Call.Performs (disk : Disk Path) : Call Path → Bool → Disk Path → Prop
  | .createDirAll path, true, after => disk path = none ∧ after = disk
  | .setPermissions path mode, true, after =>
      after = disk.change path fun file => { file with mode }
  | .createNew path mode, true, after =>
      disk path = none ∧ after = disk.put path (some ⟨[], mode⟩)
  | .writeAll path bytes, succeeded, after =>
      ∃ written, written <+: bytes ∧ (succeeded = true → written = bytes) ∧
        after = disk.change path fun file => { file with bytes := file.bytes ++ written }
  | .rename source target, true, after =>
      ∃ file, disk source = some file ∧ after = (disk.put source none).put target (some file)
  | .removeFile path, true, after => disk path ≠ none ∧ after = disk.put path none
  | _, _, after => after = disk

def Call.Touches (path : Path) : Call Path → Prop
  | .createDirAll _ | .syncAll _ => False
  | .setPermissions touched _ | .createNew touched _ | .writeAll touched _ => touched = path
  | .removeFile touched => touched = path
  | .rename source target => source = path ∨ target = path

variable {disk after : Disk Path} {path : Path} {call : Call Path} {succeeded : Bool}

/-- A failed call other than a write changes nothing. -/
theorem Call.Performs.failed (performed : call.Performs disk false after)
    (noWrite : ∀ touched bytes, call ≠ .writeAll touched bytes) : after = disk := by
  cases call with
  | writeAll touched bytes => exact absurd rfl (noWrite touched bytes)
  | _ => exact performed

theorem Call.Performs.frame (performed : call.Performs disk succeeded after)
    (untouched : ¬ call.Touches path) : after path = disk path := by
  cases succeeded with
  | false =>
      cases call with
      | writeAll touched bytes =>
          have differ : path ≠ touched := fun same => untouched same.symm
          obtain ⟨written, _, _, rfl⟩ := performed
          exact Disk.change_of_ne differ _
      | _ => rw [performed.failed (by simp)]
  | true =>
      cases call with
      | createDirAll touched => rw [performed.2]
      | syncAll touched => rw [show after = disk from performed]
      | setPermissions touched mode =>
          have differ : path ≠ touched := fun same => untouched same.symm
          obtain rfl := performed
          exact Disk.change_of_ne differ _
      | createNew touched mode =>
          have differ : path ≠ touched := fun same => untouched same.symm
          obtain ⟨_, rfl⟩ := performed
          exact Disk.put_of_ne differ _
      | writeAll touched bytes =>
          have differ : path ≠ touched := fun same => untouched same.symm
          obtain ⟨written, _, _, rfl⟩ := performed
          exact Disk.change_of_ne differ _
      | rename source target =>
          have fromSource : path ≠ source := fun same => untouched (Or.inl same.symm)
          have fromTarget : path ≠ target := fun same => untouched (Or.inr same.symm)
          obtain ⟨file, _, rfl⟩ := performed
          rw [Disk.put_of_ne fromTarget, Disk.put_of_ne fromSource]
      | removeFile touched =>
          have differ : path ≠ touched := fun same => untouched same.symm
          obtain ⟨_, rfl⟩ := performed
          exact Disk.put_of_ne differ _

theorem createNew_succeeded {mode : Nat}
    (performed : (Call.createNew path mode).Performs disk true after) :
    after path = some ⟨[], mode⟩ := by
  obtain ⟨_, rfl⟩ := performed
  exact Disk.put_self _

theorem writeAll_succeeded {bytes : List UInt8} {file : FileData} (stands : disk path = some file)
    (performed : (Call.writeAll path bytes).Performs disk true after) :
    after path = some { file with bytes := file.bytes ++ bytes } := by
  obtain ⟨written, _, whole, rfl⟩ := performed
  rw [Disk.change_self, stands, whole rfl]
  rfl

theorem setPermissions_succeeded {mode : Nat} {file : FileData} (stands : disk path = some file)
    (performed : (Call.setPermissions path mode).Performs disk true after) :
    after path = some { file with mode } := by
  obtain rfl := performed
  rw [Disk.change_self, stands]
  rfl

theorem rename_succeeded {source target : Path} {file : FileData}
    (stands : disk source = some file)
    (performed : (Call.rename source target).Performs disk true after) :
    after target = some file := by
  obtain ⟨moved, found, rfl⟩ := performed
  rw [stands] at found
  rw [Disk.put_self, found]

theorem removeFile_succeeded (performed : (Call.removeFile path).Performs disk true after) :
    after path = none := by
  obtain ⟨_, rfl⟩ := performed
  exact Disk.put_self _

end FileDisk
