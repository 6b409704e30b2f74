/-
What the macOS updates leave mounted.

A volume belongs to an attached image, and detaching it by any of its mount
points takes the image away with all its volumes.  Updates follow one another,
each one to its end or until it is killed.
-/

import KlaayGuard.DmgUpdate

set_option autoImplicit false

namespace KlaayGuard

open EffectProgram Prog RustText

variable {Tree : Type}

structure DmgWorld (Tree : Type) : Type where
  apps : MacWorld Tree
  /-- The attached image whose volume is mounted at a path. -/
  mountedOn : List Char → Option Nat

/-- The table lists every volume of the image, and each is mounted where nothing was. -/
structure Attaches (image : Nat) (listed : List (List Char)) (world after : DmgWorld Tree) :
    Prop where
  apps : after.apps = world.apps
  volumes : ∀ path ∈ listed, (world.mountedOn path = none ∨ world.mountedOn path = some image) ∧
    after.mountedOn path = some image
  others : ∀ path, path ∉ listed → world.mountedOn path ≠ some image ∧
    after.mountedOn path = world.mountedOn path

structure Detaches (mountPoint : List Char) (image : Nat) (world after : DmgWorld Tree) :
    Prop where
  apps : after.apps = world.apps
  mounted : world.mountedOn mountPoint = some image
  volumes : ∀ path, after.mountedOn path =
    if world.mountedOn path = some image then none else world.mountedOn path

/-- A detach that fails may have unmounted some volumes of the image. -/
structure DetachFails (mountPoint : List Char) (world after : DmgWorld Tree) : Prop where
  apps : after.apps = world.apps
  volumes : ∀ path, after.mountedOn path = world.mountedOn path ∨
    after.mountedOn path = none ∧ world.mountedOn path = world.mountedOn mountPoint

def performsDmg : DmgWorld Tree → (action : DmgEffect) → action.Reply → DmgWorld Tree → Prop
  | world, .attach _, reply, after =>
      match reply with
      | .ok ⟨true, stdout⟩ => ∃ image rows, (∀ row ∈ rows, DiskRow.Printable row) ∧
          fromUtf8Lossy stdout = hdiutilTable rows ∧
          Attaches image (mountPoints (fromUtf8Lossy stdout)) world after
      | _ => after = world
  | world, .detach _ mountPoint, reply, after =>
      match reply with
      | true => ∃ image, Detaches mountPoint image world after
      | false => DetachFails mountPoint world after
  | world, .swap effect, reply, after =>
      ∃ apps, performsSwap world.apps effect reply apps ∧ after = { world with apps := apps }
  | world, .removeFile _, _, after => after = world
  | world, .readVar _, _, after => after = world
  | world, .exit, _, after => after = world
  | world, .restart, _, after => after = world

structure DmgRun : Type where
  dmgPath : String
  pid : Nat
  events : List DmgEvent
  killed : Bool

inductive Updates (debug : String → String) (start : DmgWorld Tree) :
    List DmgRun → DmgWorld Tree → Prop where
  | none : Updates debug start [] start
  | finished {runs : List DmgRun} {world after : DmgWorld Tree} {dmgPath : String} {pid : Nat}
      {events : List DmgEvent} {result : Except String Unit}
      (earlier : Updates debug start runs world)
      (run : Runs performsDmg (replaceApplication debug dmgPath pid) world events after result) :
      Updates debug start (runs ++ [⟨dmgPath, pid, events, false⟩]) after
  | killed {runs : List DmgRun} {world after : DmgWorld Tree} {dmgPath : String} {pid : Nat}
      {events : List DmgEvent}
      (earlier : Updates debug start runs world)
      (run : Begins performsDmg (replaceApplication debug dmgPath pid) world events after) :
      Updates debug start (runs ++ [⟨dmgPath, pid, events, true⟩]) after

/-! ### Volumes -/

def Lists (events : List DmgEvent) (path : List Char) : Prop :=
  ∃ dmgPath output, ⟨.attach dmgPath, .ok output⟩ ∈ events ∧ output.success = true ∧
    path ∈ mountPoints (fromUtf8Lossy output.stdout)

def Detached (events : List DmgEvent) : Prop :=
  ∃ force mountPoint, ⟨.detach force mountPoint, true⟩ ∈ events

def ForceFailed (events : List DmgEvent) : Prop :=
  ∃ mountPoint, ⟨.detach true mountPoint, false⟩ ∈ events

def DmgEffect.LeavesVolumes : DmgEffect → Prop
  | .attach _ => False
  | .detach _ _ => False
  | _ => True

/-- The volumes of the attached image are its own or gone, the others are as they were. -/
structure OwnVolumes (start : DmgWorld Tree) (image : Nat) (listed : List (List Char))
    (world : DmgWorld Tree) : Prop where
  volumes : ∀ path ∈ listed, world.mountedOn path = some image ∨ world.mountedOn path = none
  others : ∀ path, path ∉ listed → start.mountedOn path ≠ some image ∧
    world.mountedOn path = start.mountedOn path

variable {start world after : DmgWorld Tree} {image : Nat} {listed : List (List Char)}
variable {history : List DmgEvent} {action : DmgEffect} {reply : action.Reply}

theorem Attaches.own (attaches : Attaches image listed start after) :
    OwnVolumes start image listed after where
  volumes := fun path member => Or.inl (attaches.volumes path member).2
  others := attaches.others

theorem OwnVolumes.detached {mountPoint : List Char} {other : Nat}
    (own : OwnVolumes start image listed world) (member : mountPoint ∈ listed)
    (detaches : Detaches mountPoint other world after) :
    OwnVolumes start image listed after ∧ ∀ path ∈ listed, after.mountedOn path = none := by
  have same : other = image := by
    have mounted := detaches.mounted
    rcases own.volumes mountPoint member with here | gone
    · rw [here] at mounted
      exact (Option.some.inj mounted).symm
    · rw [gone] at mounted
      cases mounted
  subst same
  have down : ∀ path ∈ listed, after.mountedOn path = none := by
    intro path inTable
    rw [detaches.volumes]
    rcases own.volumes path inTable with here | gone
    · rw [if_pos here]
    · rw [gone, if_neg nofun]
  refine ⟨⟨fun path inTable => Or.inr (down path inTable), fun path absent => ?_⟩, down⟩
  obtain ⟨foreign, unchanged⟩ := own.others path absent
  refine ⟨foreign, ?_⟩
  rw [detaches.volumes, unchanged, if_neg foreign]

theorem OwnVolumes.detach_failed {mountPoint : List Char}
    (own : OwnVolumes start image listed world) (member : mountPoint ∈ listed)
    (fails : DetachFails mountPoint world after) : OwnVolumes start image listed after := by
  constructor
  · intro path inTable
    rcases fails.volumes path with same | ⟨gone, _⟩
    · rw [same]
      exact own.volumes path inTable
    · exact Or.inr gone
  · intro path absent
    obtain ⟨foreign, unchanged⟩ := own.others path absent
    refine ⟨foreign, ?_⟩
    rcases fails.volumes path with same | ⟨gone, together⟩
    · rw [same, unchanged]
    · rw [gone, ← unchanged, together]
      rcases own.volumes mountPoint member with here | gone
      · rw [unchanged, here] at together
        exact absurd together foreign
      · exact gone.symm

theorem performsDmg_volumes (leaves : action.LeavesVolumes)
    (performed : performsDmg world action reply after) : after.mountedOn = world.mountedOn := by
  cases action with
  | attach dmgPath => exact leaves.elim
  | detach force mountPoint => exact leaves.elim
  | swap effect =>
      obtain ⟨apps, _, rfl⟩ := performed
      rfl
  | removeFile path =>
      obtain rfl : after = world := performed
      rfl
  | readVar name =>
      obtain rfl : after = world := performed
      rfl
  | exit =>
      obtain rfl : after = world := performed
      rfl
  | restart =>
      obtain rfl : after = world := performed
      rfl

theorem lists_concat {path : List Char} (other : ∀ dmgPath, action ≠ .attach dmgPath) :
    Lists (history ++ [⟨action, reply⟩]) path ↔ Lists history path := by
  constructor
  · rintro ⟨dmgPath, output, member, success, inTable⟩
    rcases List.mem_append.mp member with member | member
    · exact ⟨dmgPath, output, member, success, inTable⟩
    · have same := congrArg Event.action (List.mem_singleton.mp member)
      exact absurd same.symm (other dmgPath)
  · rintro ⟨dmgPath, output, member, success, inTable⟩
    exact ⟨dmgPath, output, List.mem_append_left _ member, success, inTable⟩

theorem lists_singleton {dmgPath : String} {output : AttachOutput} {path : List Char} :
    Lists [⟨.attach dmgPath, .ok output⟩] path ↔
      output.success = true ∧ path ∈ mountPoints (fromUtf8Lossy output.stdout) := by
  constructor
  · rintro ⟨other, output', member, success, inTable⟩
    cases List.mem_singleton.mp member
    exact ⟨success, inTable⟩
  · rintro ⟨success, inTable⟩
    exact ⟨dmgPath, output, List.mem_cons_self, success, inTable⟩

structure Attached (start : DmgWorld Tree) (image : Nat) (listed : List (List Char))
    (history : List DmgEvent) (world : DmgWorld Tree) : Prop where
  lists : ∀ path, Lists history path ↔ path ∈ listed
  own : OwnVolumes start image listed world

def VolumesDown (listed : List (List Char)) (history : List DmgEvent) (world : DmgWorld Tree) :
    Prop :=
  ForceFailed history ∧ ¬ Detached history ∨ ∀ path ∈ listed, world.mountedOn path = none

/-- At every moment: other volumes are as they were, and once a detach has succeeded, the own
ones are down. -/
structure VolumesStand (start : DmgWorld Tree) (history : List DmgEvent) (world : DmgWorld Tree) :
    Prop where
  others : ∀ path, ¬ Lists history path → world.mountedOn path = start.mountedOn path
  down : Detached history → ∀ path, Lists history path → world.mountedOn path = none

theorem detached_concat (kept : ∀ force mountPoint, action = .detach force mountPoint →
      (⟨action, reply⟩ : DmgEvent) ≠ ⟨.detach force mountPoint, true⟩) :
    Detached (history ++ [⟨action, reply⟩]) ↔ Detached history := by
  constructor
  · rintro ⟨force, mountPoint, member⟩
    rcases List.mem_append.mp member with member | member
    · exact ⟨force, mountPoint, member⟩
    · have same := (List.mem_singleton.mp member).symm
      exact absurd same (kept force mountPoint (congrArg Event.action same))
  · rintro ⟨force, mountPoint, member⟩
    exact ⟨force, mountPoint, List.mem_append_left _ member⟩

theorem detached_leave (leaves : action.LeavesVolumes) :
    Detached (history ++ [⟨action, reply⟩]) ↔ Detached history := by
  refine detached_concat ?_
  rintro force mountPoint rfl
  exact leaves.elim

theorem detached_refused {force : Bool} {mountPoint : List Char} :
    Detached (history ++ [⟨.detach force mountPoint, false⟩]) ↔ Detached history :=
  detached_concat fun _ _ _ => by simp

theorem Attached.othersStand (attached : Attached start image listed history world)
    (path : List Char) (unlisted : ¬ Lists history path) :
    world.mountedOn path = start.mountedOn path :=
  (attached.own.others path fun member => unlisted ((attached.lists path).mpr member)).2

theorem Attached.stand (attached : Attached start image listed history world)
    (undetached : ¬ Detached history) : VolumesStand start history world :=
  ⟨attached.othersStand, fun detached => absurd detached undetached⟩

theorem Attached.stand_down (attached : Attached start image listed history world)
    (down : VolumesDown listed history world) : VolumesStand start history world := by
  refine ⟨attached.othersStand, fun detached path lists => ?_⟩
  rcases down with ⟨_, undetached⟩ | down
  · exact absurd detached undetached
  · exact down path ((attached.lists path).mp lists)

theorem Attached.leave (attached : Attached start image listed history world)
    (leaves : action.LeavesVolumes) (performed : performsDmg world action reply after) :
    Attached start image listed (history ++ [⟨action, reply⟩]) after := by
  have same := performsDmg_volumes leaves performed
  refine ⟨fun path => ?_, ⟨fun path member => ?_, fun path absent => ?_⟩⟩
  · rw [lists_concat]
    · exact attached.lists path
    · rintro dmgPath rfl
      exact leaves
  · rw [same]
    exact attached.own.volumes path member
  · rw [same]
    exact attached.own.others path absent

theorem VolumesDown.leave (down : VolumesDown listed history world)
    (leaves : action.LeavesVolumes) (performed : performsDmg world action reply after) :
    VolumesDown listed (history ++ [⟨action, reply⟩]) after := by
  rcases down with ⟨⟨mountPoint, failed⟩, undetached⟩ | down
  · refine Or.inl ⟨⟨mountPoint, List.mem_append_left _ failed⟩, ?_⟩
    rw [detached_leave leaves]
    exact undetached
  · refine Or.inr ?_
    rw [performsDmg_volumes leaves performed]
    exact down

theorem detachDmg_keeps {mountPoint : List Char}
    (attached : Attached start image listed history world) (undetached : ¬ Detached history)
    (member : mountPoint ∈ listed) :
    (detachDmg mountPoint).Keeps performsDmg (VolumesStand start)
      (fun history world _ => Attached start image listed history world ∧
        VolumesDown listed history world) history world := by
  have listsAfter : ∀ {history : List DmgEvent} {force : Bool} {reply : Bool},
      (∀ path, Lists history path ↔ path ∈ listed) →
      ∀ path, Lists (history ++ [⟨.detach force mountPoint, reply⟩]) path ↔ path ∈ listed := by
    intro history force reply lists path
    rw [lists_concat fun dmgPath same => by cases same]
    exact lists path
  unfold detachDmg
  refine keeps_perform.mpr ⟨attached.stand undetached, fun graceful after performed => ?_⟩
  cases graceful with
  | true =>
      obtain ⟨other, detaches⟩ := performed
      obtain ⟨own, down⟩ := attached.own.detached member detaches
      have detached : Attached start image listed
          (history ++ [⟨.detach false mountPoint, true⟩]) after :=
        ⟨listsAfter attached.lists, own⟩
      exact ⟨detached.stand_down (Or.inr down), detached, Or.inr down⟩
  | false =>
      have still : Attached start image listed
          (history ++ [⟨.detach false mountPoint, false⟩]) after :=
        ⟨listsAfter attached.lists, attached.own.detach_failed member performed⟩
      have refused : ¬ Detached (history ++ [⟨.detach false mountPoint, false⟩]) :=
        mt detached_refused.mp undetached
      refine keeps_perform.mpr ⟨still.stand refused, fun forced final performed => ?_⟩
      cases forced with
      | true =>
          obtain ⟨other, detaches⟩ := performed
          obtain ⟨own, down⟩ := still.own.detached member detaches
          have detached : Attached start image listed
              (history ++ [⟨.detach false mountPoint, false⟩] ++
                [⟨.detach true mountPoint, true⟩]) final :=
            ⟨listsAfter still.lists, own⟩
          exact ⟨detached.stand_down (Or.inr down), detached, Or.inr down⟩
      | false =>
          have left : Attached start image listed
              (history ++ [⟨.detach false mountPoint, false⟩] ++
                [⟨.detach true mountPoint, false⟩]) final :=
            ⟨listsAfter still.lists, still.own.detach_failed member performed⟩
          have down : VolumesDown listed (history ++ [⟨.detach false mountPoint, false⟩] ++
              [⟨.detach true mountPoint, false⟩]) final :=
            Or.inl ⟨⟨mountPoint, List.mem_append_right _ List.mem_cons_self⟩,
              mt detached_refused.mp refused⟩
          exact ⟨left.stand_down down, left, down⟩

theorem onMac_leaves {α : Type} (program : SwapProgram α) :
    program.onMac.Only DmgEffect.LeavesVolumes :=
  (only_of_forall (fun _ => trivial) program).lift fun _ _ => trivial

theorem relaunch_leaves : relaunch.Only DmgEffect.LeavesVolumes := by
  refine ⟨trivial, fun launchd => ?_⟩
  dsimp only [Prog.bind]
  split <;> exact ⟨trivial, fun _ => trivial⟩

theorem relaunch_result_leaves (dmgPath : String) (result : Except String Unit) :
    Prog.Only DmgEffect.LeavesVolumes (do
      let _removed ← DmgEffect.perform (.removeFile dmgPath)
      match result with
      | .error e => pure (.error e)
      | .ok _ => relaunch) := by
  refine ⟨trivial, fun removed => ?_⟩
  cases result with
  | error e => trivial
  | ok _ => exact relaunch_leaves

theorem replaceApplication_volumes (debug : String → String) (dmgPath : String) (pid : Nat)
    (start : DmgWorld Tree) :
    (replaceApplication debug dmgPath pid).Keeps performsDmg (VolumesStand start)
      (fun history world _ => ForceFailed history ∨
        ∀ path, Lists history path → world.mountedOn path = none) [] start := by
  have undetached : ∀ {attaching : Except String AttachOutput},
      ¬ Detached [⟨.attach dmgPath, attaching⟩] := by
    rintro attaching ⟨force, mountPoint, member⟩
    cases List.mem_singleton.mp member
  have untouched : ∀ {history : List DmgEvent}, ¬ Detached history →
      VolumesStand start history start :=
    fun undetached => ⟨fun _ _ => rfl, fun detached => absurd detached undetached⟩
  refine keeps_perform.mpr ⟨untouched fun ⟨_, _, member⟩ => List.not_mem_nil member,
    fun attaching after performed => ?_⟩
  cases attaching with
  | error e =>
      obtain rfl : after = start := performed
      refine ⟨untouched undetached, Or.inr fun path lists => ?_⟩
      obtain ⟨_, _, member, _⟩ := lists
      cases List.mem_singleton.mp member
  | ok output =>
      obtain ⟨success, stdout⟩ := output
      cases success with
      | false =>
          obtain rfl : after = start := performed
          refine ⟨untouched undetached, Or.inr fun path lists => ?_⟩
          cases (lists_singleton.mp lists).1
      | true =>
          obtain ⟨image, rows, printable, printed, attaches⟩ := performed
          have lists : ∀ path, Lists [⟨.attach dmgPath, .ok ⟨true, stdout⟩⟩] path ↔
              path ∈ mountPoints (fromUtf8Lossy stdout) := by
            intro path
            rw [lists_singleton]
            exact and_iff_right rfl
          have attached : Attached start image (mountPoints (fromUtf8Lossy stdout))
              [⟨.attach dmgPath, .ok ⟨true, stdout⟩⟩] after := ⟨lists, attaches.own⟩
          have parsed : parseHdiutilMountPoint (fromUtf8Lossy stdout) =
              (mountPoints (fromUtf8Lossy stdout)).head? := by
            rw [printed]
            exact parseHdiutilMountPoint_hdiutilTable printable
          cases first : (mountPoints (fromUtf8Lossy stdout)).head? with
          | none =>
              simp only [Bool.not_true, parsed, first]
              refine ⟨attached.stand undetached, Or.inr fun path listed => ?_⟩
              rw [List.head?_eq_none_iff.mp first] at lists
              cases (lists path).mp listed
          | some mountPoint =>
              simp only [Bool.not_true, parsed, first]
              have member := List.mem_of_head? first
              have installing := keeps_of_only
                (onMac_leaves (installFromMount debug mountPoint pid))
                (fun _ _ _ _ _ leaves attached performed => attached.leave leaves performed)
                attached
              have mounted : (installFromMount debug mountPoint pid).onMac.Keeps performsDmg
                  (fun history _ => ¬ Detached history) (fun history _ _ => ¬ Detached history)
                  [⟨.attach dmgPath, .ok ⟨true, stdout⟩⟩] after :=
                keeps_of_only (onMac_leaves (installFromMount debug mountPoint pid))
                  (fun _ _ _ _ _ leaves undetached _ => mt (detached_leave leaves).mp undetached)
                  undetached
              unfold replaceFromMount
              refine ((installing.and mounted).mono (fun _ _ here => here.1.stand here.2)
                fun _ _ _ _ here => here).bind ?_
              rintro history world result ⟨attached, undetached⟩
              refine (detachDmg_keeps attached undetached member).bind ?_
              rintro history world _ ⟨attached, down⟩
              have leaves := relaunch_result_leaves dmgPath result
              have still := keeps_of_only leaves
                (fun _ _ _ _ _ leaves attached performed => attached.leave leaves performed)
                attached
              have stillDown := keeps_of_only leaves
                (fun _ _ _ _ _ leaves down performed => down.leave leaves performed) down
              refine (still.and stillDown).mono (fun _ _ here => here.1.stand_down here.2)
                fun history world _ _ atEnd => ?_
              rcases atEnd.2 with ⟨forced, _⟩ | down
              · exact Or.inl forced
              · exact Or.inr fun path listed => down path ((atEnd.1.lists path).mp listed)

/-- The one excuse for a volume that an update leaves mounted: it was killed before a detach
succeeded, or even the forced one failed. -/
def DmgRun.MayLeave (run : DmgRun) : Prop :=
  run.killed = true ∧ ¬ Detached run.events ∨ ForceFailed run.events

def AccountedFor (start world : DmgWorld Tree) (runs : List DmgRun) (path : List Char) : Prop :=
  ((∀ run ∈ runs, ¬ Lists run.events path) → world.mountedOn path = start.mountedOn path) ∧
  (world.mountedOn path ≠ none → start.mountedOn path ≠ none ∨
    ∃ run ∈ runs, Lists run.events path ∧ run.MayLeave)

theorem AccountedFor.next {runs : List DmgRun} {path : List Char}
    (accounted : AccountedFor start world runs path) (run : DmgRun)
    (stand : VolumesStand world run.events after)
    (outcome : run.MayLeave ∨ (Lists run.events path → after.mountedOn path = none)) :
    AccountedFor start after (runs ++ [run]) path := by
  constructor
  · intro unlisted
    rw [stand.others path (unlisted run List.mem_concat_self)]
    exact accounted.1 fun other member => unlisted other (List.mem_append_left _ member)
  · intro mounted
    by_cases listed : Lists run.events path
    · rcases outcome with excused | down
      · exact Or.inr ⟨run, List.mem_concat_self, listed, excused⟩
      · exact absurd (down listed) mounted
    · rw [stand.others path listed] at mounted
      rcases accounted.2 mounted with before | ⟨other, member, brought⟩
      · exact Or.inl before
      · exact Or.inr ⟨other, List.mem_append_left _ member, brought⟩

def imageVolume : List Char := "/Volumes/KlaayGuard".toList

private def imageRow : DiskRow := ⟨"/dev/disk4s1".toList, "Apple_HFS".toList, imageVolume⟩

private theorem imageRow_printable : ∀ row ∈ [imageRow], row.Printable := by
  intro row member
  rw [List.mem_singleton.mp member]
  refine ⟨?_, ?_, ?_, Or.inr ?_, ?_⟩ <;> decide +kernel

private def imageTable : List UInt8 := (hdiutilTable [imageRow]).map fun c => c.toNat.toUInt8

private theorem imageTable_text : fromUtf8Lossy imageTable = hdiutilTable [imageRow] := by
  decide +kernel

private theorem imageTable_mounts : mountPoints (hdiutilTable [imageRow]) = [imageVolume] := by
  rw [mountPoints_hdiutilTable imageRow_printable]
  decide +kernel

private theorem imageTable_parsed :
    parseHdiutilMountPoint (fromUtf8Lossy imageTable) = some imageVolume := by
  rw [imageTable_text, parseHdiutilMountPoint_hdiutilTable imageRow_printable, imageTable_mounts]
  rfl

private def imageApp : String := "/Volumes/KlaayGuard/KlaayGuard.app"

def beforeUpdateDisk : String → Option (Entry Nat) := fun path =>
  if path = applicationPath then some (.bundle 1)
  else if path = imageApp then some (.bundle 2)
  else none

def stagedBundle : String := stagedSiblingPath applicationPath 7
private def backupBundle : String := backupPath applicationPath 7

private def teamDetails : CommandOutput where
  success := true
  stderr := "TeamIdentifier=8QK45RW8QK".toList.map fun c => c.toNat.toUInt8

private theorem teamOk_teamDetails : teamOk teamDetails = true := by decide +kernel

def supervisedUpdate : List DmgEvent :=
  [⟨.attach "/tmp/7.dmg", .ok ⟨true, imageTable⟩⟩, ⟨.swap (.metadata imageApp), .ok ()⟩,
    ⟨.swap (.removeDirAll stagedBundle), .error .notFound⟩,
    ⟨.swap (.removeDirAll backupBundle), .error .notFound⟩,
    ⟨.swap (.ditto imageApp stagedBundle), .ok true⟩,
    ⟨.swap (.codesignVerify stagedBundle), .ok ⟨true, []⟩⟩,
    ⟨.swap (.codesignDetails stagedBundle), .ok teamDetails⟩,
    ⟨.swap (.spctlAssess stagedBundle), .ok ⟨true, []⟩⟩,
    ⟨.swap (.metadata applicationPath), .ok ()⟩,
    ⟨.swap (.rename applicationPath backupBundle), .ok ()⟩,
    ⟨.swap (.rename stagedBundle applicationPath), .ok ()⟩,
    ⟨.swap (.removeDirAll backupBundle), .ok ()⟩,
    ⟨.detach false imageVolume, false⟩, ⟨.detach true imageVolume, true⟩,
    ⟨.removeFile "/tmp/7.dmg", .ok ()⟩,
    ⟨.readVar "KLAAYGUARD_LAUNCHD", some "1"⟩, ⟨.exit, ()⟩]

def beforeUpdate : DmgWorld Nat := ⟨.unassessed beforeUpdateDisk, fun _ => none⟩

private def volumeMounted : List Char → Option Nat := fun path =>
  if path = imageVolume then some 0 else none

private def stagedMac : MacWorld Nat :=
  ((((MacWorld.unassessed beforeUpdateDisk).put stagedBundle (some (.bundle 2))).assess .integrity
    stagedBundle true).assess .team stagedBundle (teamOk teamDetails)).assess .gatekeeper
    stagedBundle true

def updatedMac : MacWorld Nat :=
  ((((stagedMac.put applicationPath none).put backupBundle (some (.bundle 1))).put stagedBundle
    none).put applicationPath (some (.bundle 2))).put backupBundle none

theorem supervisedUpdate_runs : Runs performsDmg (replaceApplication id "/tmp/7.dmg" 7) beforeUpdate
    supervisedUpdate ⟨updatedMac, fun _ => none⟩ (.ok ()) := by
  have fromTarget : stagedBundle ≠ applicationPath := (swap_paths_distinct applicationPath 7).1
  have apart : backupBundle ≠ applicationPath := (swap_paths_distinct applicationPath 7).2.1
  have fromBackup : stagedBundle ≠ backupBundle := (swap_paths_distinct applicationPath 7).2.2
  have staged : beforeUpdateDisk stagedBundle = none := by decide +kernel
  have backup : beforeUpdateDisk backupBundle = none := by decide +kernel
  have attaches : performsDmg beforeUpdate (.attach "/tmp/7.dmg") (.ok ⟨true, imageTable⟩)
      ⟨beforeUpdate.apps, volumeMounted⟩ := by
    refine ⟨0, [imageRow], imageRow_printable, imageTable_text, ⟨rfl, ?_, ?_⟩⟩
    · rw [imageTable_text, imageTable_mounts]
      intro path member
      rw [List.mem_singleton.mp member]
      exact ⟨Or.inl rfl, (if_pos rfl : volumeMounted imageVolume = some 0)⟩
    · rw [imageTable_text, imageTable_mounts]
      intro path absent
      have other : path ≠ imageVolume := fun same => absent (List.mem_singleton.mpr same)
      exact ⟨nofun, (if_neg other : volumeMounted path = none)⟩
  have running : stagedMac.disk applicationPath = some (.bundle 1) := by
    rw [stagedMac, MacWorld.disk_assess, MacWorld.disk_assess, MacWorld.disk_assess,
      MacWorld.disk_put_of_ne _ fromTarget.symm]
    rfl
  have free : (stagedMac.put applicationPath none).disk backupBundle = none := by
    rw [MacWorld.disk_put_of_ne _ apart, stagedMac, MacWorld.disk_assess, MacWorld.disk_assess,
      MacWorld.disk_assess, MacWorld.disk_put_of_ne _ fromBackup.symm]
    exact backup
  have waits : ((stagedMac.put applicationPath none).put backupBundle (some (.bundle 1))).disk
      stagedBundle = some (.bundle 2) := by
    rw [MacWorld.disk_put_of_ne _ fromBackup, MacWorld.disk_put_of_ne _ fromTarget, stagedMac,
      MacWorld.disk_assess, MacWorld.disk_assess, MacWorld.disk_assess, MacWorld.disk_put_self]
  have emptied : ((stagedMac.put applicationPath none).put backupBundle
      (some (.bundle 1))).disk applicationPath = none := by
    rw [MacWorld.disk_put_of_ne _ apart.symm, MacWorld.disk_put_self]
  have saved : ((((stagedMac.put applicationPath none).put backupBundle
      (some (.bundle 1))).put stagedBundle none).put applicationPath (some (.bundle 2))).disk
      backupBundle = some (.bundle 1) := by
    rw [MacWorld.disk_put_of_ne _ apart, MacWorld.disk_put_of_ne _ fromBackup.symm,
      MacWorld.disk_put_self]
  have busy : performsDmg ⟨updatedMac, volumeMounted⟩ (.detach false imageVolume) false
      ⟨updatedMac, volumeMounted⟩ := ⟨rfl, fun path => Or.inl rfl⟩
  have forced : performsDmg ⟨updatedMac, volumeMounted⟩ (.detach true imageVolume) true
      ⟨updatedMac, fun _ => none⟩ := by
    refine ⟨0, ⟨rfl, (if_pos rfl : volumeMounted imageVolume = some 0), fun path => ?_⟩⟩
    by_cases here : path = imageVolume
    · simp [volumeMounted, here]
    · simp [volumeMounted, here]
  apply Runs.act attaches
  dsimp only [Prog.bind]
  rw [imageTable_parsed]
  apply Runs.act ⟨_, ⟨rfl, by decide +kernel⟩, rfl⟩
  apply Runs.act ⟨_, ⟨staged, rfl⟩, rfl⟩
  apply Runs.act ⟨_, ⟨backup, rfl⟩, rfl⟩
  apply Runs.act ⟨_, ⟨.bundle 2, rfl⟩, rfl⟩
  apply Runs.act ⟨_, rfl, rfl⟩
  apply Runs.act ⟨_, rfl, rfl⟩
  dsimp only [Prog.bind, Prog.lift]
  rw [teamOk_teamDetails]
  apply Runs.act ⟨_, rfl, rfl⟩
  apply Runs.act ⟨_, ⟨rfl, fun absent => by cases running.symm.trans absent⟩, rfl⟩
  apply Runs.act ⟨_, ⟨.bundle 1, running, Or.inl free, rfl⟩, rfl⟩
  apply Runs.act ⟨_, ⟨.bundle 2, waits, Or.inl emptied, rfl⟩, rfl⟩
  apply Runs.act ⟨_, ⟨fun absent => (by cases saved.symm.trans absent), rfl⟩, rfl⟩
  apply Runs.act busy
  apply Runs.act forced
  apply Runs.act rfl
  apply Runs.act rfl
  apply Runs.act rfl
  apply Runs.done

def supervisedRuns : List DmgRun := [⟨"/tmp/7.dmg", 7, supervisedUpdate, false⟩]

theorem supervisedRuns_made : Updates id beforeUpdate supervisedRuns ⟨updatedMac, fun _ => none⟩ :=
  .finished .none supervisedUpdate_runs

end KlaayGuard
