/-
The Linux disk-encryption rows: the device tree of `lsblk -J`, the mount table,
and the verdicts on the root and the home directory.

`lsblk` prints a device under each of its parents, so one mountpoint may stand
on several nodes.  The verdict on a mountpoint is that of the first node which
lists it.
-/

import KlaayGuard.Crates
import KlaayGuard.Library.RustIter
import KlaayGuard.Library.RustText

set_option autoImplicit false

namespace KlaayGuard

open RustIter RustText

namespace Value

/-- `get(key).and_then(as_array)`, with nothing to loop over where there is none. -/
def arrayAt (value : Value) (key : String) : List Value :=
  ((value.get key).bind asArray).getD []

theorem arrayAt_cases (value : Value) (key : String) :
    value.arrayAt key = [] ∨
      ∃ members, value = .object members ∧
        member key members = some (.array (value.arrayAt key)) := by
  cases value with
  | object members =>
      cases found : member key members with
      | none => simp [arrayAt, get, found]
      | some inner =>
          cases inner with
          | array elements =>
              exact Or.inr ⟨members, rfl, by simp [arrayAt, get, found]⟩
          | _ => simp [arrayAt, get, found, asArray]
  | _ => simp [arrayAt, get]

private theorem sizeOf_member {key : String} {value : Value} :
    ∀ {members : List (String × Value)}, member key members = some value →
      sizeOf value < sizeOf members
  | [], found => by cases found
  | (name, head) :: rest, found => by
      rw [member] at found
      by_cases same : name = key
      · rw [if_pos same] at found
        cases found
        simp only [List.cons.sizeOf_spec, Prod.mk.sizeOf_spec]
        omega
      · rw [if_neg same] at found
        have smaller := sizeOf_member found
        simp only [List.cons.sizeOf_spec]
        omega

theorem sizeOf_arrayAt_le (value : Value) (key : String) :
    sizeOf (value.arrayAt key) ≤ sizeOf value := by
  rcases arrayAt_cases value key with nothing | ⟨members, isObject, found⟩
  · rw [nothing]
    cases value <;> simp
  · have smaller := sizeOf_member found
    rw [isObject] at smaller ⊢
    simp only [array.sizeOf_spec, object.sizeOf_spec] at smaller ⊢
    omega

theorem sizeOf_lt_of_mem_arrayAt {value child : Value} {key : String}
    (listed : child ∈ value.arrayAt key) : sizeOf child < sizeOf value :=
  Nat.lt_of_lt_of_le (List.sizeOf_lt_of_mem listed) (sizeOf_arrayAt_le value key)

end Value

structure FlatDev : Type where
  mountpoints : List String
  kind : String
  onCrypt : Bool
  parentFstype : String
  deriving DecidableEq, Repr

def field (v : Value) (k : String) : String := (v.stringAt k).getD ""

def mountpointsOf (v : Value) : List String :=
  let out := match v.stringAt "mountpoint" with
    | some mp => if mp = "" then [] else [mp]
    | none => []
  ((v.arrayAt "mountpoints").filterMap Value.asStr).foldl
    (fun out m => if m ≠ "" ∧ ¬ m ∈ out then out ++ [m] else out) out

/-- What `walk` pushes for one node. -/
def flatDev (node : Value) (parentOnCrypt : Bool) (parentFstype : String) : FlatDev :=
  { mountpoints := mountpointsOf node
    kind := field node "type"
    onCrypt := parentOnCrypt || field node "type" == "crypt"
    parentFstype := parentFstype }

def walk (node : Value) (parentOnCrypt : Bool) (parentFstype : String) : List FlatDev :=
  let kind := field node "type"
  let fstype := field node "fstype"
  let onCrypt := parentOnCrypt || kind == "crypt"
  flatDev node parentOnCrypt parentFstype ::
    (node.arrayAt "children").attach.flatMap fun child => walk child.val onCrypt fstype
termination_by sizeOf node
decreasing_by exact Value.sizeOf_lt_of_mem_arrayAt child.property

theorem walk_eq (node : Value) (parentOnCrypt : Bool) (parentFstype : String) :
    walk node parentOnCrypt parentFstype =
      flatDev node parentOnCrypt parentFstype ::
        (node.arrayAt "children").flatMap fun child =>
          walk child (flatDev node parentOnCrypt parentFstype).onCrypt (field node "fstype") := by
  rw [walk]
  simp [List.flatMap_subtype, flatDev]

def parseLsblk (crates : Crates) (json : String) : List FlatDev :=
  match crates.fromStr json with
  | some parsed => (parsed.arrayAt "blockdevices").flatMap fun dev => walk dev false ""
  | none => []

structure MountEntry : Type where
  mountpoint : String
  fstype : String
  deriving DecidableEq, Repr

def isOctalDigit (c : Char) : Bool := 48 ≤ c.toNat && c.toNat ≤ 55

def octalValue (a b c : Char) : Nat := 64 * (a.toNat - 48) + 8 * (b.toNat - 48) + (c.toNat - 48)

def unescapeBytes : List Char → List UInt8
  | c :: x :: y :: z :: rest =>
      if c = Char.ofNat 92 ∧ isOctalDigit x ∧ isOctalDigit y ∧ isOctalDigit z ∧
          octalValue x y z ≤ 255 then
        UInt8.ofNat (octalValue x y z) :: unescapeBytes rest
      else String.utf8EncodeChar c ++ unescapeBytes (x :: y :: z :: rest)
  | c :: rest => String.utf8EncodeChar c ++ unescapeBytes rest
  | [] => []

def unescape (s : List Char) : String := String.ofList (fromUtf8Lossy (unescapeBytes s))

def parseProcMounts (text : String) : List MountEntry :=
  (lines text.toList).filterMap fun line =>
    match splitWhitespace line with
    | _ :: mountpoint :: fstype :: _ =>
        some { mountpoint := unescape mountpoint, fstype := String.ofList fstype }
    | _ => none

/-! ### The rows -/

def encryptedMountMechanism (fstype : String) : Option String :=
  match fstype with
  | "ecryptfs" => some "ecryptfs"
  | _ => none

/-- The mechanisms found so far and the rows that say where. -/
structure Evidence : Type where
  mechanisms : List String
  rows : List Value

def Evidence.push (evidence : Evidence) (mechanism : String) (row : Value) : Evidence :=
  { mechanisms :=
      if mechanism ∈ evidence.mechanisms then evidence.mechanisms
      else evidence.mechanisms ++ [mechanism]
    rows := evidence.rows ++ [row] }

def deviceEvidence (evidence : Evidence) (d : FlatDev) : Evidence :=
  let mechanism := if d.parentFstype = "crypto_LUKS" then "luks" else "dm-crypt"
  evidence.push mechanism (.object [
    ("kind", .string "device"), ("mechanism", .string mechanism), ("encrypted", .string "yes"),
    ("mountpoints", .array (d.mountpoints.map .string)), ("source", .string "lsblk"),
    ("detail", .string ("dm-crypt mapper (parent fstype " ++ d.parentFstype ++ ")"))])

def mountEvidence (evidence : Evidence) (m : MountEntry) : Evidence :=
  match encryptedMountMechanism m.fstype with
  | some mechanism =>
      evidence.push mechanism (.object [
        ("kind", .string "device"), ("mechanism", .string mechanism), ("encrypted", .string "yes"),
        ("mountpoint", .string m.mountpoint), ("source", .string "/proc/mounts"),
        ("detail", .string (mechanism ++ " mount"))])
  | none => evidence

def determine (devs : List FlatDev) (mounts : List MountEntry) (target : String) : String :=
  if mounts.any fun m =>
      m.mountpoint == target && (encryptedMountMechanism m.fstype).isSome then "yes"
  else if mounts.any fun m => m.mountpoint == target && m.fstype == "zfs" then "unknown"
  else
    match devs.find? fun d => d.mountpoints.any (· == target) with
    | some d => if d.onCrypt then "yes" else "no"
    | none => "unknown"

def mountOf (devs : List FlatDev) (mounts : List MountEntry) (path : String) : String :=
  let mountpoints := mounts.map MountEntry.mountpoint ++ devs.flatMap FlatDev.mountpoints
  let enclosing := mountpoints.filter fun mp => pathStartsWith path.toList mp.toList
  (maxByKey String.utf8ByteSize enclosing).getD path

def buildDiskEncryptionRows (crates : Crates) (lsblkJson : Option String) (procMounts : String)
    (home : Option String) : Value :=
  let devs := (lsblkJson.map (parseLsblk crates)).getD []
  let mounts := parseProcMounts procMounts
  let evidence := (devs.filter fun d => d.kind == "crypt").foldl deviceEvidence ⟨[], []⟩
  let evidence := mounts.foldl mountEvidence evidence
  let rootEncrypted := determine devs mounts "/"
  let homeEncrypted :=
    match home with
    | some h =>
        if h ≠ "" then
          let mount := mountOf devs mounts h
          if mount = "/" then rootEncrypted else determine devs mounts mount
        else "unknown"
    | none => "unknown"
  .array (evidence.rows ++ [.object [
    ("kind", .string "summary"), ("root_encrypted", .string rootEncrypted),
    ("home_encrypted", .string homeEncrypted),
    ("mechanisms", .array (evidence.mechanisms.map .string)), ("source", .string "aggregate")]])

def summary (rows : Value) : Option Value :=
  (rows.asArray.getD []).find? fun row => row.stringAt "kind" == some "summary"

def rootEncrypted (rows : Value) : Option String :=
  (summary rows).bind (·.stringAt "root_encrypted")

def homeEncrypted (rows : Value) : Option String :=
  (summary rows).bind (·.stringAt "home_encrypted")

def Evidence.OfDevices (evidence : Evidence) : Prop :=
  ∀ row ∈ evidence.rows, row.stringAt "kind" = some "device"

private theorem Evidence.OfDevices.push {evidence : Evidence} (ofDevices : evidence.OfDevices)
    (mechanism : String) {row : Value} (device : row.stringAt "kind" = some "device") :
    (evidence.push mechanism row).OfDevices := by
  intro other member
  rcases List.mem_append.mp member with earlier | last
  · exact ofDevices other earlier
  · rw [List.mem_singleton.mp last]
    exact device

private theorem deviceEvidence_ofDevices (evidence : Evidence) (d : FlatDev)
    (ofDevices : evidence.OfDevices) : (deviceEvidence evidence d).OfDevices :=
  ofDevices.push _ rfl

private theorem mountEvidence_ofDevices (evidence : Evidence) (m : MountEntry)
    (ofDevices : evidence.OfDevices) : (mountEvidence evidence m).OfDevices := by
  unfold mountEvidence
  cases encryptedMountMechanism m.fstype with
  | some mechanism => exact ofDevices.push _ rfl
  | none => exact ofDevices

def diskEvidence (devs : List FlatDev) (mounts : List MountEntry) : Evidence :=
  mounts.foldl mountEvidence
    ((devs.filter fun d => d.kind == "crypt").foldl deviceEvidence ⟨[], []⟩)

theorem diskEvidence_ofDevices (devs : List FlatDev) (mounts : List MountEntry) :
    (diskEvidence devs mounts).OfDevices := by
  refine List.foldlRecOn _ _ (List.foldlRecOn _ _ ?_ ?_) ?_
  · intro row member
    cases member
  · exact fun evidence ofDevices d _ => deviceEvidence_ofDevices evidence d ofDevices
  · exact fun evidence ofDevices m _ => mountEvidence_ofDevices evidence m ofDevices

theorem summary_append {rows : List Value} {last : Value}
    (devices : ∀ row ∈ rows, row.stringAt "kind" = some "device")
    (found : last.stringAt "kind" = some "summary") :
    summary (.array (rows ++ [last])) = some last := by
  have none : rows.find? (fun row => row.stringAt "kind" == some "summary") = none := by
    rw [List.find?_eq_none]
    intro row member
    rw [devices row member]
    decide
  simp [summary, List.find?_append, none, found]

def determineHome (devs : List FlatDev) (mounts : List MountEntry) (home : Option String) :
    String :=
  match home with
  | some h => if h = "" then "unknown" else determine devs mounts (mountOf devs mounts h)
  | none => "unknown"

/-- The rows' two verdicts.  A home on the root filesystem shares the root's,
which is the verdict on the mountpoint `/` either way. -/
theorem buildDiskEncryptionRows_verdicts (crates : Crates) (lsblkJson : Option String)
    (procMounts : String) (home : Option String) :
    let devs := (lsblkJson.map (parseLsblk crates)).getD []
    let mounts := parseProcMounts procMounts
    let rows := buildDiskEncryptionRows crates lsblkJson procMounts home
    rootEncrypted rows = some (determine devs mounts "/") ∧
      homeEncrypted rows = some (determineHome devs mounts home) := by
  intro devs mounts rows
  have found : summary rows = _ := summary_append (diskEvidence_ofDevices devs mounts) rfl
  unfold rootEncrypted homeEncrypted
  rw [found]
  refine ⟨rfl, ?_⟩
  cases home with
  | none => rfl
  | some h =>
      by_cases empty : h = ""
      · simp [determineHome, empty, Value.stringAt]
      · by_cases root : mountOf devs mounts h = "/"
        · simp [determineHome, empty, root, Value.stringAt, devs, mounts]
        · simp [determineHome, empty, root, Value.stringAt, devs, mounts]

/-- A mount type that settles the verdict on a mountpoint before any device is
looked at. -/
def mountDecision (mounts : List MountEntry) (target : String) : Option String :=
  if mounts.any fun m =>
      m.mountpoint == target && (encryptedMountMechanism m.fstype).isSome then some "yes"
  else if mounts.any fun m => m.mountpoint == target && m.fstype == "zfs" then some "unknown"
  else none

def deviceVerdict (mounts : List MountEntry) (target : String) (d : FlatDev) : String :=
  (mountDecision mounts target).getD (if d.onCrypt then "yes" else "no")

def FlatDev.lists (target : String) (d : FlatDev) : Bool := d.mountpoints.any (· == target)

theorem FlatDev.lists_iff {target : String} {d : FlatDev} :
    d.lists target = true ↔ target ∈ d.mountpoints := by
  simp [FlatDev.lists]

theorem determine_eq (devs : List FlatDev) (mounts : List MountEntry) (target : String) :
    determine devs mounts target =
      ((devs.find? (FlatDev.lists target)).map (deviceVerdict mounts target)).getD
        ((mountDecision mounts target).getD "unknown") := by
  unfold determine deviceVerdict
  by_cases encrypted : (mounts.any fun m =>
      m.mountpoint == target && (encryptedMountMechanism m.fstype).isSome) = true
  · have decided : mountDecision mounts target = some "yes" := if_pos encrypted
    rw [if_pos encrypted, decided]
    cases devs.find? (FlatDev.lists target) <;> rfl
  · by_cases zfs : (mounts.any fun m => m.mountpoint == target && m.fstype == "zfs") = true
    · have decided : mountDecision mounts target = some "unknown" :=
        (if_neg encrypted).trans (if_pos zfs)
      rw [if_neg encrypted, if_pos zfs, decided]
      cases devs.find? (FlatDev.lists target) <;> rfl
    · have undecided : mountDecision mounts target = none := (if_neg encrypted).trans (if_neg zfs)
      rw [if_neg encrypted, if_neg zfs, undecided]
      change (match devs.find? (FlatDev.lists target) with
        | some d => if d.onCrypt then "yes" else "no"
        | none => "unknown") = _
      cases devs.find? (FlatDev.lists target) <;> rfl

end KlaayGuard
