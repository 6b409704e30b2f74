/-
What crashed updates leave beside the target, and which later update clears it.

The staged and the backup name carry the number of the process.  An update clears its own
names before it uses them, so it clears after an earlier update only where the system has
given it the same number.
-/

import KlaayGuard.AppimageReplace
import KlaayGuard.Library.Attempts

set_option autoImplicit false

namespace KlaayGuard

open EffectProgram Prog FileDisk Attempts RustText

theorem toString_pid_inj {pid other : Nat}
    (same : (toString pid).toList = (toString other).toList) : pid = other := by
  have digits : Nat.toDigits 10 pid = Nat.toDigits 10 other := by
    rw [← Nat.toList_repr, ← Nat.toList_repr]
    exact same
  rw [← @Nat.ofDigitChars_ten_toDigits pid, digits, Nat.ofDigitChars_ten_toDigits]

theorem stagedSiblingPath_inj {target : String} {pid other : Nat}
    (same : stagedSiblingPath target pid = stagedSiblingPath target other) : pid = other := by
  have named := fileName_stagedSiblingPath target pid
  rw [same, fileName_stagedSiblingPath] at named
  exact (toString_pid_inj (List.append_cancel_left (Option.some.inj named))).symm

theorem backupPath_inj {target : String} {pid other : Nat}
    (same : backupPath target pid = backupPath target other) : pid = other := by
  have named := fileName_backupPath target pid
  rw [same, fileName_backupPath] at named
  exact (toString_pid_inj (List.append_cancel_left (Option.some.inj named))).symm

theorem staged_ne_backup (target : String) (pid other : Nat) :
    stagedSiblingPath target pid ≠ backupPath target other := by
  intro same
  have named := fileName_stagedSiblingPath target pid
  rw [same, fileName_backupPath] at named
  have names := Option.some.inj named
  cases target' : fileName target.toList with
  | none => simp [target'] at names
  | some base => simp [target'] at names

/-! ### Replacing an AppImage -/

def WithinReplace (target staged : String) : UpdateEffect → Prop
  | .readVar _ | .currentExe | .isFile _ | .syncParentDir _ | .spawnRelaunch _ | .exit => True
  | .createNew path | .writeAll path _ | .syncAll path | .setPermissions path _ => path = staged
  | .removeFile path => path = staged
  | .rename source destination => source = staged ∧ destination = target
  | _ => False

theorem ownAppimage_within (target staged : String) :
    ownAppimage.Only (WithinReplace target staged) :=
  ownAppimage_findsImage.mono fun action finds => by
    cases action <;> first | exact finds | exact finds.elim

theorem openStaged_within (target staged : String) :
    (openStaged staged).Only (WithinReplace target staged) := by
  refine ⟨rfl, fun first => ?_⟩
  rcases first with (_ | message) | _
  · refine ⟨rfl, fun removed => ⟨rfl, fun second => ?_⟩⟩
    rcases second with (_ | message) | _ <;> trivial
  · trivial
  · trivial

theorem writeAndSync_within (target staged : String) (bytes : List UInt8) :
    (writeAndSync staged bytes).Only (WithinReplace target staged) := by
  refine ⟨rfl, fun written => ?_⟩
  cases written with
  | error e => trivial
  | ok _ =>
      refine ⟨rfl, fun synced => ?_⟩
      cases synced with
      | error e => trivial
      | ok _ => exact ⟨rfl, fun _ => trivial⟩

variable {process : UpdateProcess} {host : UpdateHost} {bytes : List UInt8}
variable {disk after : Disk String} {target staged name : String} {events : List UpdateEvent}

theorem ownAppimage_runs {found : Option String} (named : process.env "APPIMAGE" = some target)
    (run : Runs (performsReplace process) ownAppimage disk events after found) :
    after = disk ∧ ∀ image, found = some image → image = target := by
  have looked := (@ownAppimage_keeps process disk target [] "" named).runs run
  exact ⟨looked.1.1, looked.2⟩

theorem installAppimageUpdate_within (named : process.env "APPIMAGE" = some target)
    (run : Begins (performsReplace process) (installAppimageUpdate host bytes) disk events after) :
    ∀ event ∈ events, WithinReplace target (stagedSiblingPath target host.pid) event.action := by
  rcases begins_bind run with looking | ⟨middle, found, first, second, head, tail, rfl⟩
  · exact looking.only (ownAppimage_within target _)
  · have own := (ownAppimage_runs named head).2
    intro event member
    rcases List.mem_append.mp member with early | late
    · exact head.only (ownAppimage_within target _) event early
    · refine tail.only ?_ event late
      cases found with
      | none => trivial
      | some image =>
          obtain rfl := own image rfl
          refine (openStaged_within _ _).bind fun opened => ?_
          rcases opened with e | _
          · trivial
          · refine (writeAndSync_within _ _ _).bind fun written => ?_
            rcases written with e | _
            · exact ⟨rfl, fun _ => trivial⟩
            · refine ⟨⟨rfl, rfl⟩, fun renamed => ?_⟩
              rcases renamed with e | _
              · exact ⟨rfl, fun _ => trivial⟩
              · refine ⟨trivial, fun _ => ⟨trivial, fun spawned => ?_⟩⟩
                rcases spawned with e | _
                · trivial
                · exact ⟨trivial, fun _ => trivial⟩

theorem performsReplace_frame {action : UpdateEffect} {reply : action.Reply}
    (performed : performsReplace process disk action reply after)
    (within : WithinReplace target staged action) (fromStaged : name ≠ staged)
    (fromTarget : name ≠ target) : after name = disk name := by
  cases action with
  | readVar _ => rw [performed.2]
  | currentExe => rw [performed.2]
  | isFile _ => rw [performed.2]
  | syncParentDir _ => rw [show after = disk from performed]
  | spawnRelaunch _ => rw [show after = disk from performed]
  | exit => rw [show after = disk from performed]
  | createNew path => exact Call.Performs.frame performed.2 fun same => fromStaged (same ▸ within)
  | writeAll path bytes =>
      have atDisk : (Call.writeAll path bytes).Performs disk reply.isOk after := performed
      exact atDisk.frame fun same => fromStaged (same ▸ within)
  | syncAll path =>
      have atDisk : (Call.syncAll path).Performs disk reply.isOk after := performed
      exact atDisk.frame fun touches => touches
  | setPermissions path mode =>
      have atDisk : (Call.setPermissions path mode).Performs disk reply.isOk after := performed
      exact atDisk.frame fun same => fromStaged (same ▸ within)
  | removeFile path =>
      have atDisk : (Call.removeFile path).Performs disk reply.isOk after := performed
      exact atDisk.frame fun same => fromStaged (same ▸ within)
  | rename source destination =>
      have atDisk : (Call.rename source destination).Performs disk reply.isOk after := performed
      refine atDisk.frame ?_
      rintro (same | same)
      · exact fromStaged (same ▸ within.1)
      · exact fromTarget (same ▸ within.2)
  | _ => exact within.elim

def clearsReplace : UpdateEvent → String → Prop
  | ⟨.removeFile path, .ok _⟩, name => path = name
  | ⟨.rename source _, .ok _⟩, name => source = name
  | _, _ => False

theorem not_clearsReplace {event : UpdateEvent}
    (within : WithinReplace target staged event.action) (fromStaged : name ≠ staged) :
    ¬ clearsReplace event name := by
  obtain ⟨action, reply⟩ := event
  intro cleared
  cases action with
  | removeFile path =>
      cases reply with
      | error e => exact cleared
      | ok _ =>
          obtain rfl : path = name := cleared
          exact fromStaged within
  | rename source destination =>
      cases reply with
      | error e => exact cleared
      | ok _ =>
          obtain rfl : source = name := cleared
          exact fromStaged within.1
  | _ => exact cleared

/-- A file could not be created for another reason than that it exists, or not removed. -/
def hindersReplace : UpdateEvent → Prop
  | ⟨.createNew _, .error (.other _)⟩ => True
  | ⟨.removeFile _, .error _⟩ => True
  | _ => False

theorem openStaged_clears {opened : Except String Unit}
    (run : Runs (performsReplace process) (openStaged staged) disk events after opened)
    (there : disk staged ≠ none) (unhindered : ∀ event ∈ events, ¬ hindersReplace event) :
    ⟨.removeFile staged, .ok ()⟩ ∈ events := by
  obtain ⟨created, _, rest, performed, rfl, more⟩ := runs_act.mp run
  rcases created with (_ | message) | _
  · obtain ⟨removed, _, _, _, rfl, _⟩ := runs_act.mp more
    cases removed with
    | error e =>
        have second := unhindered _ (List.mem_cons_of_mem _ List.mem_cons_self)
        exact absurd trivial second
    | ok _ => exact List.mem_cons_of_mem _ List.mem_cons_self
  · exact absurd trivial (unhindered _ List.mem_cons_self)
  · exact absurd performed.2.1 there

theorem installAppimageUpdate_clears {result : Except String Unit}
    (named : process.env "APPIMAGE" = some target)
    (run : Runs (performsReplace process) (installAppimageUpdate host bytes) disk events after
      result)
    (there : disk (stagedSiblingPath target host.pid) ≠ none)
    (opens : ∃ reply, ⟨.createNew (stagedSiblingPath target host.pid), reply⟩ ∈ events)
    (unhindered : ∀ event ∈ events, ¬ hindersReplace event) :
    ⟨.removeFile (stagedSiblingPath target host.pid), .ok ()⟩ ∈ events := by
  obtain ⟨middle, found, first, second, head, tail, rfl⟩ := runs_bind.mp run
  obtain ⟨rfl, own⟩ := ownAppimage_runs named head
  cases found with
  | none =>
      -- Looking for the own image creates nothing.
      obtain ⟨rfl, _, _⟩ := runs_done.mp tail
      obtain ⟨reply, member⟩ := opens
      rw [List.append_nil] at member
      exact (head.only ownAppimage_findsImage _ member).elim
  | some image =>
      obtain rfl := own image rfl
      obtain ⟨_, _, opening, more, opened, _, rfl⟩ := runs_bind.mp tail
      have quiet : ∀ event ∈ opening, ¬ hindersReplace event := fun event member =>
        unhindered event (List.mem_append_right first (List.mem_append_left more member))
      have cleared := openStaged_clears opened there quiet
      exact List.mem_append_right first (List.mem_append_left more cleared)

def PossibleReplace (target : String)
    (attempt : Attempt Nat UpdateEvent (Disk String)) : Prop :=
  ∃ process host bytes, process.env "APPIMAGE" = some target ∧ host.pid = attempt.key ∧
    if attempt.returned then
      ∃ result, Runs (performsReplace process) (installAppimageUpdate host bytes) attempt.before
        attempt.steps attempt.after result
    else
      Begins (performsReplace process) (installAppimageUpdate host bytes) attempt.before
        attempt.steps attempt.after

def stagedNaming (target : String) : Naming Nat UpdateEvent (Disk String) String where
  Names pid name := name = stagedSiblingPath target pid
  There disk name := disk name ≠ none
  Clears := clearsReplace

/-- The attempt comes to open its stage, and neither that nor a removal fails. -/
def UnhinderedReplace (target : String)
    (attempt : Attempt Nat UpdateEvent (Disk String)) : Prop :=
  (∃ reply, ⟨.createNew (stagedSiblingPath target attempt.key), reply⟩ ∈ attempt.steps) ∧
    ∀ step ∈ attempt.steps, ¬ hindersReplace step

theorem PossibleReplace.begins {attempt : Attempt Nat UpdateEvent (Disk String)}
    (possible : PossibleReplace target attempt) :
    ∃ process host bytes, process.env "APPIMAGE" = some target ∧ host.pid = attempt.key ∧
      Begins (performsReplace process) (installAppimageUpdate host bytes) attempt.before
        attempt.steps attempt.after := by
  obtain ⟨process, host, bytes, named, pid, run⟩ := possible
  refine ⟨process, host, bytes, named, pid, ?_⟩
  split at run
  · obtain ⟨result, run⟩ := run
    exact run.begins
  · exact run

theorem stagedNaming_foreign (target : String) :
    (stagedNaming target).Foreign (PossibleReplace target) := by
  rintro attempt pid name possible rfl differ
  obtain ⟨process, host, bytes, named, number, begins⟩ := possible.begins
  have within := installAppimageUpdate_within named begins
  have fromTarget : stagedSiblingPath target pid ≠ target := (swap_paths_distinct target pid).1
  have fromStaged : stagedSiblingPath target pid ≠ stagedSiblingPath target host.pid :=
    fun same => differ ((stagedSiblingPath_inj same).trans number)
  have kept : attempt.after (stagedSiblingPath target pid) =
      attempt.before (stagedSiblingPath target pid) := by
    refine begins.invariant_of_events (fun disk => disk (stagedSiblingPath target pid) =
      attempt.before (stagedSiblingPath target pid)) ?_ rfl
    intro disk event after member kept performed
    exact (performsReplace_frame performed (within event member) fromStaged fromTarget).trans kept
  refine ⟨?_, fun step member => not_clearsReplace (within step member) fromStaged⟩
  show _ ≠ none ↔ _ ≠ none
  rw [kept]

theorem stagedNaming_own {attempt : Attempt Nat UpdateEvent (Disk String)}
    (possible : PossibleReplace target attempt) (unhindered : UnhinderedReplace target attempt)
    (returned : attempt.returned = true) {name : String}
    (named : (stagedNaming target).Names attempt.key name) :
    ¬ (stagedNaming target).Leaves attempt name := by
  obtain rfl : name = stagedSiblingPath target attempt.key := named
  rintro ⟨there, _, uncleared⟩
  obtain ⟨process, host, bytes, image, pid, run⟩ := possible
  rw [if_pos returned] at run
  obtain ⟨result, run⟩ := run
  rw [← pid] at there uncleared
  obtain ⟨opens, quiet⟩ := unhindered
  rw [← pid] at opens
  exact uncleared _ (installAppimageUpdate_clears image run there opens quiet) rfl

/-! ### Swapping a bundle -/

def WithinSwap (target staged backup : String) : SwapEffect → Prop
  | .removeDirAll path => path = staged ∨ path = backup
  | .ditto _ destination => destination = staged
  | .rename source destination =>
      (source = staged ∨ source = backup ∨ source = target) ∧
        (destination = target ∨ destination = backup)
  | _ => True

variable {backup : String}

theorem verifyKlaaySignature_within (path : String) :
    (verifyKlaaySignature path).Only (WithinSwap target staged backup) := by
  refine ⟨trivial, fun verified => ?_⟩
  rcases verified with e | verify
  · trivial
  · dsimp only [Prog.bind]
    split
    · trivial
    · refine ⟨trivial, fun named => ?_⟩
      rcases named with e | details
      · trivial
      · dsimp only [Prog.bind]
        split
        · trivial
        · refine ⟨trivial, fun assessed => ?_⟩
          rcases assessed with e | assess
          · trivial
          · dsimp only [Prog.bind]
            split <;> trivial

theorem swapStaged_within :
    (swapStaged staged backup target).Only (WithinSwap target staged backup) := by
  have aside : (moveAside target backup).Only (WithinSwap target staged backup) := by
    refine ⟨trivial, fun found => ?_⟩
    change Prog.Only _ (if found.isOk = true then _ else _)
    split
    · exact ⟨⟨Or.inr (Or.inr rfl), Or.inr rfl⟩, fun _ => trivial⟩
    · trivial
  have back : (rollBack backup target).Only (WithinSwap target staged backup) := by
    refine ⟨trivial, fun found => ?_⟩
    change Prog.Only _ (if found.isOk = true then _ else _)
    split
    · exact ⟨⟨Or.inr (Or.inl rfl), Or.inl rfl⟩, fun _ => trivial⟩
    · trivial
  refine aside.bind fun moved => ?_
  rcases moved with e | _
  · trivial
  · refine ⟨⟨Or.inl rfl, Or.inl rfl⟩, fun swapped => ?_⟩
    rcases swapped with e | _
    · exact back.bind fun _ => ⟨Or.inl rfl, fun _ => trivial⟩
    · exact ⟨Or.inr rfl, fun _ => trivial⟩

theorem stageVerifyAndSwap_within (sourceApp : String) (pid : Nat) :
    (stageVerifyAndSwap sourceApp target pid).Only
      (WithinSwap target (stagedSiblingPath target pid) (backupPath target pid)) := by
  refine ⟨Or.inl rfl, fun _ => ⟨Or.inr rfl, fun _ => ⟨rfl, fun copied => ?_⟩⟩⟩
  rcases copied with e | (_ | _)
  · trivial
  · exact ⟨Or.inl rfl, fun _ => trivial⟩
  · refine (verifyKlaaySignature_within _).bind fun verified => ?_
    rcases verified with e | _
    · exact ⟨Or.inl rfl, fun _ => trivial⟩
    · exact swapStaged_within

def clearsSwap : SwapEvent → String → Prop
  | ⟨.removeDirAll path, .ok _⟩, name => path = name
  | ⟨.removeDirAll path, .error .notFound⟩, name => path = name
  | ⟨.rename source _, .ok _⟩, name => source = name
  | _, _ => False

theorem not_clearsSwap {event : SwapEvent} (within : WithinSwap target staged backup event.action)
    (apart : name ≠ staged ∧ name ≠ backup ∧ name ≠ target) : ¬ clearsSwap event name := by
  obtain ⟨action, reply⟩ := event
  intro cleared
  cases action with
  | removeDirAll path =>
      have same : path = name := by
        rcases reply with (_ | message) | _
        · exact cleared
        · exact cleared.elim
        · exact cleared
      subst same
      exact within.elim apart.1 apart.2.1
  | rename source destination =>
      have same : source = name := by
        cases reply with
        | error e => exact cleared.elim
        | ok _ => exact cleared
      subst same
      exact within.1.elim apart.1 (Or.rec apart.2.1 apart.2.2)
  | _ => exact cleared

theorem not_touches {action : SwapEffect} (within : WithinSwap target staged backup action)
    (apart : name ≠ staged ∧ name ≠ backup ∧ name ≠ target) : ¬ action.Touches name := by
  intro touches
  cases action with
  | removeDirAll path =>
      obtain rfl : path = name := touches
      exact within.elim apart.1 apart.2.1
  | ditto source destination =>
      obtain rfl : destination = name := touches
      exact apart.1 within
  | rename source destination =>
      rcases touches with rfl | rfl
      · exact within.1.elim apart.1 (Or.rec apart.2.1 apart.2.2)
      · exact within.2.elim apart.2.2 apart.2.1
  | _ => exact touches

/-- A path could not be removed, or it is not known whether it was. -/
def hindersSwap : SwapEvent → Prop
  | ⟨.removeDirAll _, .error (.other _)⟩ => True
  | _ => False

variable {Tree : Type}

def PossibleSwap (target : String) (attempt : Attempt Nat SwapEvent (MacWorld Tree)) : Prop :=
  ∃ sourceApp,
    if attempt.returned then
      ∃ result, Runs performsSwap (stageVerifyAndSwap sourceApp target attempt.key) attempt.before
        attempt.steps attempt.after result
    else
      Begins performsSwap (stageVerifyAndSwap sourceApp target attempt.key) attempt.before
        attempt.steps attempt.after

def swapNaming (target : String) : Naming Nat SwapEvent (MacWorld Tree) String where
  Names pid name := name = stagedSiblingPath target pid ∨ name = backupPath target pid
  There world name := world.disk name ≠ none
  Clears := clearsSwap

def UnhinderedSwap (attempt : Attempt Nat SwapEvent (MacWorld Tree)) : Prop :=
  ∀ step ∈ attempt.steps, ¬ hindersSwap step

theorem PossibleSwap.begins {attempt : Attempt Nat SwapEvent (MacWorld Tree)}
    (possible : PossibleSwap target attempt) :
    ∃ sourceApp, Begins performsSwap (stageVerifyAndSwap sourceApp target attempt.key)
      attempt.before attempt.steps attempt.after := by
  obtain ⟨sourceApp, run⟩ := possible
  refine ⟨sourceApp, ?_⟩
  split at run
  · obtain ⟨result, run⟩ := run
    exact run.begins
  · exact run

theorem swap_names_apart {pid other : Nat} (differ : pid ≠ other)
    (named : name = stagedSiblingPath target pid ∨ name = backupPath target pid) :
    name ≠ stagedSiblingPath target other ∧ name ≠ backupPath target other ∧ name ≠ target := by
  rcases named with rfl | rfl
  · exact ⟨fun same => differ (stagedSiblingPath_inj same), staged_ne_backup target pid other,
      (swap_paths_distinct target pid).1⟩
  · exact ⟨(staged_ne_backup target other pid).symm, fun same => differ (backupPath_inj same),
      (swap_paths_distinct target pid).2.1⟩

theorem swapNaming_foreign (target : String) :
    (swapNaming target : Naming Nat SwapEvent (MacWorld Tree) String).Foreign
      (PossibleSwap target) := by
  intro attempt pid name possible named differ
  obtain ⟨sourceApp, begins⟩ := possible.begins
  have within := begins.only (stageVerifyAndSwap_within sourceApp attempt.key)
  have apart := swap_names_apart differ named
  have kept : attempt.after.disk name = attempt.before.disk name := by
    refine begins.invariant_of_events (fun world => world.disk name = attempt.before.disk name)
      ?_ rfl
    intro world event after member kept performed
    exact (performsSwap_disk performed (not_touches (within event member) apart)).trans kept
  refine ⟨?_, fun step member => not_clearsSwap (within step member) apart⟩
  show _ ≠ none ↔ _ ≠ none
  rw [kept]

theorem swapNaming_own {attempt : Attempt Nat SwapEvent (MacWorld Tree)}
    (possible : PossibleSwap target attempt) (unhindered : UnhinderedSwap attempt)
    (returned : attempt.returned = true) {name : String}
    (named : (swapNaming target : Naming Nat SwapEvent (MacWorld Tree) String).Names
      attempt.key name) :
    ¬ (swapNaming target).Leaves attempt name := by
  rintro ⟨_, _, uncleared⟩
  obtain ⟨sourceApp, run⟩ := possible
  rw [if_pos returned] at run
  obtain ⟨result, run⟩ := run
  obtain ⟨first, _, rest, _, events, more⟩ := runs_act.mp run
  obtain ⟨second, _, _, _, rfl, _⟩ := runs_act.mp more
  rw [UnhinderedSwap, events] at unhindered
  rw [events] at uncleared
  have cleared : ∀ path reply, ¬ hindersSwap ⟨.removeDirAll path, reply⟩ →
      clearsSwap ⟨.removeDirAll path, reply⟩ path := by
    rintro path ((_ | message) | _) quiet
    · exact rfl
    · exact quiet trivial
    · exact rfl
  rcases named with rfl | rfl
  · have quiet := unhindered _ List.mem_cons_self
    exact uncleared _ List.mem_cons_self (cleared _ first quiet)
  · have quiet := unhindered _ (List.mem_cons_of_mem _ List.mem_cons_self)
    exact uncleared _ (List.mem_cons_of_mem _ List.mem_cons_self) (cleared _ second quiet)

/-- Where updates clear what earlier ones have left, the one that clears has the number of the
one that left it.  Conversely that is enough, if those that return are not hindered from
clearing what they find under their own names. -/
theorem crashed_updates_cleared_by_number (target : String) :
    (∀ (attempts : List (Attempt Nat UpdateEvent (Disk String))) (disk final : Disk String),
      Chain (PossibleReplace target) disk attempts final →
      ((stagedNaming target).Tidy attempts → (stagedNaming target).Inherited attempts) ∧
        ((∀ attempt ∈ attempts, attempt.returned = true →
            (stagedNaming target).FindsOwn attempt → UnhinderedReplace target attempt) →
          (stagedNaming target).Inherited attempts → (stagedNaming target).Tidy attempts)) ∧
    ∀ (attempts : List (Attempt Nat SwapEvent (MacWorld Tree))) (world final : MacWorld Tree),
      Chain (PossibleSwap target) world attempts final →
      ((swapNaming target).Tidy attempts → (swapNaming target).Inherited attempts) ∧
        ((∀ attempt ∈ attempts, attempt.returned = true →
            (swapNaming target).FindsOwn attempt → UnhinderedSwap attempt) →
          (swapNaming target).Inherited attempts → (swapNaming target).Tidy attempts) := by
  constructor
  · intro attempts disk final chain
    refine ⟨fun tidy => tidy.inherited (stagedNaming_foreign target) chain, ?_⟩
    intro unhindered inherited
    refine inherited.tidy (stagedNaming_foreign target) ?_ chain
    intro attempt member returned name named leaves
    have quiet := unhindered attempt member returned ⟨name, named, leaves.1⟩
    exact stagedNaming_own (chain.possible attempt member) quiet returned named leaves
  · intro attempts world final chain
    refine ⟨fun tidy => tidy.inherited (swapNaming_foreign target) chain, ?_⟩
    intro unhindered inherited
    refine inherited.tidy (swapNaming_foreign target) ?_ chain
    intro attempt member returned name named leaves
    have quiet := unhindered attempt member returned ⟨name, named, leaves.1⟩
    exact swapNaming_own (chain.possible attempt member) quiet returned named leaves

private def diesStaged (pid : Nat) : Attempt Nat UpdateEvent (Disk String) where
  key := pid
  before := imageDisk
  steps := imageFound ++ [⟨.createNew (imageStage pid), .ok ()⟩]
  after := imageDisk.put (imageStage pid) (some ⟨[], 0o600⟩)
  returned := false

private theorem diesStaged_possible (pid : Nat) : PossibleReplace imagePath (diesStaged pid) := by
  have apart : imageStage pid ≠ imagePath := (swap_paths_distinct imagePath pid).1
  have free : imageDisk (imageStage pid) = none := by
    simp only [imageDisk, Function.update_of_ne apart]
  refine ⟨imageProcess, imageHost pid, [2, 3], rfl, rfl, ?_⟩
  refine (imageFound_runs rfl).begins_bind ?_
  apply Begins.act ⟨fun failed => (by cases failed), free, rfl⟩
  dsimp only [diesStaged]
  apply Begins.here

private def installed (disk : Disk String) (pid : Nat) : Disk String :=
  ((((disk.put (imageStage pid) (some ⟨[], 0o600⟩)).change (imageStage pid) fun file =>
    { file with bytes := file.bytes ++ [2, 3] }).change (imageStage pid) fun file =>
    { file with mode := 0o755 }).put (imageStage pid) none).put imagePath (some ⟨[2, 3], 0o755⟩)

private def installs (disk : Disk String) (pid : Nat) : Attempt Nat UpdateEvent (Disk String) where
  key := pid
  before := disk
  steps := imageFound ++
    [⟨.createNew (imageStage pid), .ok ()⟩, ⟨.writeAll (imageStage pid) [2, 3], .ok ()⟩,
      ⟨.syncAll (imageStage pid), .ok ()⟩, ⟨.setPermissions (imageStage pid) 0o755, .ok ()⟩,
      ⟨.rename (imageStage pid) imagePath, .ok ()⟩, ⟨.syncParentDir imagePath, ()⟩,
      ⟨.spawnRelaunch imagePath, .ok ()⟩, ⟨.exit, ()⟩]
  after := installed disk pid
  returned := true

private theorem installs_possible {pid : Nat} (there : disk imagePath = imageDisk imagePath)
    (free : disk (imageStage pid) = none) : PossibleReplace imagePath (installs disk pid) := by
  refine ⟨imageProcess, imageHost pid, [2, 3], rfl, rfl, .ok (), ?_⟩
  refine runs_bind.mpr ⟨_, _, _, _, imageFound_runs there, ?_, rfl⟩
  apply Runs.act ⟨fun failed => (by cases failed), free, rfl⟩
  apply Runs.act ⟨[2, 3], List.prefix_rfl, fun _ => rfl, rfl⟩
  apply Runs.act (show performsReplace imageProcess _ (.syncAll _) (.ok ()) _ from rfl)
  apply Runs.act (show performsReplace imageProcess _ (.setPermissions _ _) (.ok ()) _ from rfl)
  apply Runs.act ⟨⟨[2, 3], 0o755⟩, by simp, rfl⟩
  apply Runs.act (show performsReplace imageProcess _ (.syncParentDir _) () _ from rfl)
  apply Runs.act (show performsReplace imageProcess _ (.spawnRelaunch _) (.ok ()) _ from rfl)
  apply Runs.act (show performsReplace imageProcess _ .exit () _ from rfl)
  apply Runs.done

private theorem diesStaged_image (pid : Nat) :
    (diesStaged pid).after imagePath = imageDisk imagePath := by
  have apart : imagePath ≠ imageStage pid := (swap_paths_distinct imagePath pid).1.symm
  dsimp only [diesStaged]
  rw [Disk.put_of_ne apart]

private theorem diesStaged_free {pid other : Nat} (differ : other ≠ pid) :
    (diesStaged pid).after (imageStage other) = none := by
  have apart : imageStage other ≠ imageStage pid := fun same => differ (stagedSiblingPath_inj same)
  have fromImage : imageStage other ≠ imagePath := (swap_paths_distinct imagePath other).1
  dsimp only [diesStaged]
  rw [Disk.put_of_ne apart, imageDisk, Function.update_of_ne fromImage]

private def givesUp (disk : Disk String) (pid : Nat) : Attempt Nat UpdateEvent (Disk String) where
  key := pid
  before := disk
  steps := imageFound ++
    [⟨.createNew (imageStage pid), .error .alreadyExists⟩, ⟨.removeFile (imageStage pid), .ok ()⟩,
      ⟨.createNew (imageStage pid), .ok ()⟩,
      ⟨.writeAll (imageStage pid) [2, 3], .error "disk full"⟩,
      ⟨.removeFile (imageStage pid), .ok ()⟩]
  after := (((disk.put (imageStage pid) none).put (imageStage pid)
    (some ⟨[], 0o600⟩)).change (imageStage pid) fun file =>
      { file with bytes := file.bytes ++ [2] }).put (imageStage pid) none
  returned := true

private theorem diesStaged_left (pid : Nat) : (diesStaged pid).after (imageStage pid) ≠ none := by
  dsimp only [diesStaged]
  rw [Disk.put_self]
  exact Option.some_ne_none _

private theorem givesUp_possible {pid : Nat} (there : disk imagePath = imageDisk imagePath)
    (left : disk (imageStage pid) ≠ none) : PossibleReplace imagePath (givesUp disk pid) := by
  refine ⟨imageProcess, imageHost pid, [2, 3], rfl, rfl, .error "stage write failed: disk full", ?_⟩
  have removed : (disk.put (imageStage pid) none) (imageStage pid) = none := Disk.put_self _
  refine runs_bind.mpr ⟨_, _, _, _, imageFound_runs there, ?_, rfl⟩
  apply Runs.act ⟨fun _ => left, rfl⟩
  apply Runs.act ⟨left, rfl⟩
  apply Runs.act ⟨fun failed => (by cases failed), removed, rfl⟩
  apply Runs.act ⟨[2], ⟨[3], rfl⟩, fun failed => (by cases failed), rfl⟩
  apply Runs.act ⟨by simp, rfl⟩
  dsimp only [givesUp]
  apply Runs.done

theorem crashed_updates_cleared_by_seven :
    (stagedNaming imagePath).Tidy [diesStaged 7, givesUp (diesStaged 7).after 7] := by
  have chain : Chain (PossibleReplace imagePath) imageDisk
      [diesStaged 7, givesUp (diesStaged 7).after 7] (givesUp (diesStaged 7).after 7).after :=
    ⟨rfl, diesStaged_possible 7, rfl, givesUp_possible (diesStaged_image 7) (diesStaged_left 7),
      rfl⟩
  have keys : ∀ attempt ∈ [diesStaged 7, givesUp (diesStaged 7).after 7], attempt.key = 7 := by
    simp [diesStaged, givesUp]
  refine ((@crashed_updates_cleared_by_number Nat imagePath).1 _ _ _ chain).2 ?_ ?_
  · intro attempt member returned _
    have second : attempt = givesUp (diesStaged 7).after 7 := by
      rcases List.mem_cons.mp member with rfl | last
      · cases returned
      · exact List.mem_singleton.mp last
    subst second
    refine ⟨⟨.ok (), ?_⟩, ?_⟩
    · exact List.mem_append_right _ (by simp [imageStage, givesUp])
    · intro step member
      rcases List.mem_append.mp member with found | writing
      · simp only [imageFound, List.mem_cons, List.not_mem_nil, or_false] at found
        rcases found with rfl | rfl | rfl | rfl <;> exact id
      · simp only [List.mem_cons, List.not_mem_nil, or_false] at writing
        rcases writing with rfl | rfl | rfl | rfl | rfl <;> exact id
  · intro first old between attempt later split _ _ _
    rw [split] at keys
    rw [keys old (by simp), keys attempt (by simp)]

/-- The stage of process 100 is still there when process 200 has installed the update. -/
theorem crashed_update_stays : ∃ (attempts : List (Attempt Nat UpdateEvent (Disk String)))
    (final : Disk String), Chain (PossibleReplace imagePath) imageDisk attempts final ∧
      ¬ (stagedNaming imagePath).Tidy attempts := by
  have chain : Chain (PossibleReplace imagePath) imageDisk
      [diesStaged 100, installs (diesStaged 100).after 200]
      (installed (diesStaged 100).after 200) :=
    ⟨rfl, diesStaged_possible 100, rfl,
      installs_possible (diesStaged_image 100) (diesStaged_free (by decide)), rfl⟩
  refine ⟨_, _, chain, fun tidy => ?_⟩
  have inherited := tidy.inherited (stagedNaming_foreign imagePath) chain
  have same := inherited [] (diesStaged 100) [] (installs (diesStaged 100).after 200) [] rfl rfl
    (fun other member => (by cases member)) ⟨imageStage 100, rfl, diesStaged_left 100⟩
  cases same

end KlaayGuard
