/-
Into what the macOS updates restart, and that an app stays installed.

The swap is one part of an update, and keeps here what it keeps by itself.  The
agent ends only once the verified bundle is in place.
-/

import KlaayGuard.DmgVolumes

set_option autoImplicit false

namespace KlaayGuard

open EffectProgram Prog RustText

variable {Tree : Type}

def swapEvent : DmgEvent → Option SwapEvent
  | ⟨.swap effect, reply⟩ => some ⟨effect, reply⟩
  | _ => none

def swapEvents (events : List DmgEvent) : List SwapEvent := events.filterMap swapEvent

def DmgEffect.IsSwap : DmgEffect → Prop
  | .swap _ => True
  | _ => False

def DmgEffect.Relaunches : DmgEffect → Prop
  | .exit => True
  | .restart => True
  | _ => False

variable {start world after : DmgWorld Tree} {old : Tree} {pid : Nat} {dmgPath : String}
variable {history : List DmgEvent} {action : DmgEffect} {reply : action.Reply}

theorem performsDmg_apps (performed : performsDmg world action reply after)
    (other : ¬ action.IsSwap) : after.apps = world.apps := by
  cases action with
  | attach dmgPath =>
      rcases reply with e | ⟨success, stdout⟩
      · exact congrArg DmgWorld.apps performed
      · cases success with
        | false => exact congrArg DmgWorld.apps performed
        | true =>
            obtain ⟨image, rows, printable, printed, attaches⟩ := performed
            exact attaches.apps
  | detach force mountPoint =>
      cases reply with
      | true =>
          obtain ⟨image, detaches⟩ := performed
          exact detaches.apps
      | false => exact DetachFails.apps performed
  | swap effect => exact absurd trivial other
  | removeFile path =>
      obtain rfl : after = world := performed
      rfl
  | readVar name =>
      obtain rfl : after = world := performed
      rfl
  | exit =>
      obtain rfl : after = world := performed
      rfl
  | restart =>
      obtain rfl : after = world := performed
      rfl

theorem performsDmg_swap (world : DmgWorld Tree) (effect : SwapEffect) (reply : effect.Reply)
    (after : DmgWorld Tree) (performed : performsDmg world (.swap effect) reply after) :
    performsSwap world.apps effect reply after.apps := by
  obtain ⟨apps, swapped, rfl⟩ := performed
  exact swapped

theorem swapEvents_concat (other : ¬ action.IsSwap) :
    swapEvents (history ++ [⟨action, reply⟩]) = swapEvents history := by
  have none : swapEvent ⟨action, reply⟩ = none := by
    cases action with
    | swap effect => exact absurd trivial other
    | _ => rfl
  rw [swapEvents, List.filterMap_append, List.filterMap_cons_none none, List.filterMap_nil,
    List.append_nil, swapEvents]

def NoRelaunch (history : List DmgEvent) : Prop :=
  ∀ event ∈ history, ¬ event.action.Relaunches

theorem NoRelaunch.concat (onward : NoRelaunch history) (quiet : ¬ action.Relaunches) :
    NoRelaunch (history ++ [⟨action, reply⟩]) := by
  intro event member
  rcases List.mem_append.mp member with member | member
  · exact onward event member
  · rw [List.mem_singleton.mp member]
    exact quiet

/-- The volume was detached, or at least a forced detach was tried. -/
def LetGo (mountPoint : List Char) (history : List DmgEvent) : Prop :=
  ⟨.detach false mountPoint, true⟩ ∈ history ∨ ∃ forced, ⟨.detach true mountPoint, forced⟩ ∈ history

/-- The image was attached, with its first volume there. -/
def MountedAt (dmgPath : String) (mountPoint : List Char) (history : List DmgEvent) : Prop :=
  ∃ output, ⟨.attach dmgPath, .ok output⟩ ∈ history ∧ output.success = true ∧
    parseHdiutilMountPoint (fromUtf8Lossy output.stdout) = some mountPoint

/-- What has been done before the agent ends, and who starts it again. -/
structure RelaunchFits (dmgPath : String) (before later : List DmgEvent) (ends : DmgEffect)
    (world : DmgWorld Tree) : Prop where
  last : later = []
  verified : world.apps.HoldsVerified applicationPath
  oneHand : ∃ launchd, ⟨.readVar "KLAAYGUARD_LAUNCHD", launchd⟩ ∈ before ∧
    ends = if launchd = some "1" then .exit else .restart
  detached : ∃ mountPoint, MountedAt dmgPath mountPoint before ∧ LetGo mountPoint before
  removed : ∃ reply, ⟨.removeFile dmgPath, reply⟩ ∈ before

structure UpdateSafe (old : Tree) (pid : Nat) (dmgPath : String) (history : List DmgEvent)
    (world : DmgWorld Tree) : Prop where
  app : SwapSafe old (backupPath applicationPath pid) applicationPath world.apps
  relaunch : ∀ before event later, history = before ++ event :: later →
    event.action.Relaunches → RelaunchFits dmgPath before later event.action world

structure Underway (old : Tree) (pid : Nat) (history : List DmgEvent) (world : DmgWorld Tree) :
    Prop where
  app : SwapSafe old (backupPath applicationPath pid) applicationPath world.apps
  onward : NoRelaunch history

theorem Underway.safe (underway : Underway old pid history world) :
    UpdateSafe old pid dmgPath history world where
  app := underway.app
  relaunch := by
    rintro before event later rfl ends
    exact absurd ends (underway.onward event (List.mem_append_right _ List.mem_cons_self))

theorem Underway.step (underway : Underway old pid history world)
    (performed : performsDmg world action reply after) (other : ¬ action.IsSwap)
    (onward : ¬ action.Relaunches) :
    Underway old pid (history ++ [⟨action, reply⟩]) after := by
  constructor
  · rw [performsDmg_apps performed other]
    exact underway.app
  · exact underway.onward.concat onward

structure SwapDone (old : Tree) (pid : Nat) (result : Except String Unit)
    (history : List DmgEvent) (world : DmgWorld Tree) : Prop where
  underway : Underway old pid history world
  outcome : SwapOutcome old applicationPath (swapEvents history) world.apps result

theorem SwapDone.step {result : Except String Unit} (done : SwapDone old pid result history world)
    (performed : performsDmg world action reply after) (other : ¬ action.IsSwap)
    (onward : ¬ action.Relaunches) :
    SwapDone old pid result (history ++ [⟨action, reply⟩]) after := by
  constructor
  · exact done.underway.step performed other onward
  · rw [swapEvents_concat other, performsDmg_apps performed other]
    exact done.outcome

theorem installFromMount_keeps {debug : String → String} {mountPoint : List Char}
    {events : List SwapEvent} {apps : MacWorld Tree}
    (installed : apps.disk applicationPath = some (.bundle old)) :
    (installFromMount debug mountPoint pid).Keeps performsSwap
      (fun _ => SwapSafe old (backupPath applicationPath pid) applicationPath)
      (SwapOutcome old applicationPath) events apps := by
  unfold installFromMount
  refine keeps_perform.mpr ⟨.installed installed, fun found after performed => ?_⟩
  obtain ⟨rfl, _⟩ := performed
  cases found with
  | error e => exact ⟨.installed installed, Or.inl installed⟩
  | ok _ => exact stageVerifyAndSwap_keeps installed

theorem onMac_onward {α : Type} (program : SwapProgram α) :
    program.onMac.Only fun action => ¬ action.Relaunches :=
  (only_of_forall (fun _ => trivial) program).lift (fun _ _ ends => ends)

theorem installOnMac_keeps {debug : String → String} {mountPoint : List Char}
    (installed : world.apps.disk applicationPath = some (.bundle old))
    (onward : NoRelaunch history) :
    (installFromMount debug mountPoint pid).onMac.Keeps performsDmg (Underway old pid)
      (fun history world result => SwapDone old pid result history world) history world := by
  have swap : (installFromMount debug mountPoint pid).Keeps performsSwap
      (fun _ => SwapSafe old (backupPath applicationPath pid) applicationPath)
      (SwapOutcome old applicationPath) (history.filterMap swapEvent) world.apps :=
    installFromMount_keeps installed
  have lifted := swap.lift DmgWorld.apps swapEvent (fun _ _ => rfl)
    fun state effect reply after (performed : performsDmg state (.swap effect) reply after) =>
      performsDmg_swap state effect reply after performed
  have stays : (installFromMount debug mountPoint pid).onMac.Keeps performsDmg
      (fun history _ => NoRelaunch history) (fun history _ _ => NoRelaunch history)
      history world :=
    keeps_of_only (onMac_onward _) (fun _ _ _ _ _ onward quiet _ => quiet.concat onward) onward
  exact (lifted.and stays).mono (fun _ _ here => ⟨here.1, here.2⟩)
    fun _ _ _ here ends => ⟨⟨here.1, here.2⟩, ends.1⟩

theorem detachDmg_underway {mountPoint : List Char} {result : Except String Unit}
    (done : SwapDone old pid result history world) :
    (detachDmg mountPoint).Keeps performsDmg (Underway old pid)
      (fun history world _ => SwapDone old pid result history world ∧
        LetGo mountPoint history) history world := by
  unfold detachDmg
  refine keeps_perform.mpr ⟨done.underway, fun graceful after performed => ?_⟩
  have detached := done.step performed not_false not_false
  cases graceful with
  | true => exact ⟨detached.underway, detached, Or.inl List.mem_concat_self⟩
  | false =>
      refine keeps_perform.mpr ⟨detached.underway, fun forced final performed => ?_⟩
      have forced := detached.step performed not_false not_false
      exact ⟨forced.underway, forced, Or.inr ⟨_, List.mem_concat_self⟩⟩

theorem split_at_last {before later : List DmgEvent} {event last : DmgEvent}
    (onward : NoRelaunch history) (splits : history ++ [last] = before ++ event :: later)
    (ends : event.action.Relaunches) : before = history ∧ event = last ∧ later = [] := by
  rcases List.eq_nil_or_concat later with rfl | ⟨initial, other, rfl⟩
  · obtain ⟨rfl, same⟩ := List.append_inj' splits rfl
    exact ⟨rfl, (List.cons.inj same).1.symm, rfl⟩
  · rw [List.concat_eq_append, ← List.cons_append, ← List.append_assoc] at splits
    obtain ⟨rfl, _⟩ := List.append_inj' splits rfl
    exact absurd ends (onward event (List.mem_append_right _ List.mem_cons_self))

theorem LetGo.mono {mountPoint : List Char} {later : List DmgEvent}
    (letGo : LetGo mountPoint history) : LetGo mountPoint (history ++ later) := by
  rcases letGo with detached | ⟨forced, tried⟩
  · exact Or.inl (List.mem_append_left _ detached)
  · exact Or.inr ⟨forced, List.mem_append_left _ tried⟩

theorem MountedAt.mono {mountPoint : List Char} {later : List DmgEvent}
    (mounted : MountedAt dmgPath mountPoint history) :
    MountedAt dmgPath mountPoint (history ++ later) := by
  obtain ⟨output, attached, listed⟩ := mounted
  exact ⟨output, List.mem_append_left _ attached, listed⟩

theorem relaunch_keeps {mountPoint : List Char} {removal : Except String Unit}
    (done : SwapDone old pid (.ok ()) history world)
    (mounted : MountedAt dmgPath mountPoint history) (letGo : LetGo mountPoint history)
    (removed : ⟨.removeFile dmgPath, removal⟩ ∈ history) :
    relaunch.Keeps performsDmg (UpdateSafe old pid dmgPath)
      (fun history world => SwapOutcome old applicationPath (swapEvents history) world.apps)
      history world := by
  unfold relaunch
  refine keeps_perform.mpr ⟨done.underway.safe, fun launchd after performed => ?_⟩
  have read := done.step performed not_false not_false
  have ending : ∀ {final : DmgWorld Tree} {ends : DmgEffect} {reply : ends.Reply},
      (ends = if launchd = some "1" then .exit else .restart) → ¬ ends.IsSwap →
      performsDmg after ends reply final →
      UpdateSafe old pid dmgPath
          (history ++ [⟨.readVar "KLAAYGUARD_LAUNCHD", launchd⟩] ++ [⟨ends, reply⟩]) final ∧
        SwapOutcome old applicationPath (swapEvents
          (history ++ [⟨.readVar "KLAAYGUARD_LAUNCHD", launchd⟩] ++ [⟨ends, reply⟩]))
          final.apps (.ok ()) := by
    intro final ends reply oneHand other performed
    have same := performsDmg_apps performed other
    refine ⟨⟨?_, ?_⟩, ?_⟩
    · rw [same]
      exact read.underway.app
    · intro before event later splits relaunches
      obtain ⟨rfl, rfl, rfl⟩ := split_at_last read.underway.onward splits relaunches
      refine ⟨rfl, ?_, ⟨launchd, List.mem_concat_self, oneHand⟩,
        ⟨mountPoint, mounted.mono, letGo.mono⟩,
        ⟨removal, List.mem_append_left _ removed⟩⟩
      rw [same]
      exact read.outcome
    · rw [swapEvents_concat other, same]
      exact read.outcome
  cases supervised : launchd == some "1" with
  | true =>
      have hand : DmgEffect.exit = if launchd = some "1" then .exit else .restart :=
        (if_pos (eq_of_beq supervised)).symm
      simp only [updateRelaunch, if_true]
      refine keeps_perform.mpr ⟨read.underway.safe, fun ended final performed => ?_⟩
      exact ending hand not_false performed
  | false =>
      have hand : DmgEffect.restart = if launchd = some "1" then .exit else .restart :=
        (if_neg (beq_eq_false_iff_ne.mp supervised)).symm
      simp only [updateRelaunch, Bool.false_eq_true, if_false]
      refine keeps_perform.mpr ⟨read.underway.safe, fun ended final performed => ?_⟩
      exact ending hand not_false performed

theorem mounted_keeps {α : Type} {mountPoint : List Char}
    (mounted : MountedAt dmgPath mountPoint history) (program : DmgProgram α) :
    program.Keeps performsDmg (fun history _ => MountedAt dmgPath mountPoint history)
      (fun history _ _ => MountedAt dmgPath mountPoint history) history world :=
  keeps_of_only (only_of_forall (fun _ => trivial) program)
    (fun _ _ _ _ _ _ mounted _ => mounted.mono) mounted

theorem replaceApplication_keeps (debug : String → String)
    (installed : start.apps.disk applicationPath = some (.bundle old)) :
    (replaceApplication debug dmgPath pid).Keeps performsDmg (UpdateSafe old pid dmgPath)
      (fun history world => SwapOutcome old applicationPath (swapEvents history) world.apps)
      [] start := by
  have fresh : Underway old pid [] start := ⟨.installed installed, fun _ => nofun⟩
  unfold replaceApplication
  refine keeps_perform.mpr ⟨fresh.safe, fun attaching after performed => ?_⟩
  have attached : Underway old pid [⟨.attach dmgPath, attaching⟩] after :=
    fresh.step performed not_false not_false
  have still : after.apps.disk applicationPath = some (.bundle old) := by
    rw [performsDmg_apps performed not_false]
    exact installed
  cases attaching with
  | error e => exact ⟨attached.safe, Or.inl still⟩
  | ok output =>
      cases success : output.success with
      | false =>
          simp only [success, Bool.not_false, if_true]
          exact ⟨attached.safe, Or.inl still⟩
      | true =>
          simp only [success, Bool.not_true, Bool.false_eq_true, if_false]
          cases parsed : parseHdiutilMountPoint (fromUtf8Lossy output.stdout) with
          | none => exact ⟨attached.safe, Or.inl still⟩
          | some mountPoint =>
              have mounted : MountedAt dmgPath mountPoint [⟨.attach dmgPath, .ok output⟩] :=
                ⟨output, List.mem_cons_self, success, parsed⟩
              unfold replaceFromMount
              refine (((installOnMac_keeps still attached.onward).and
                (mounted_keeps mounted _)).mono
                (fun _ _ here => here.1.safe) fun _ _ _ _ here => here).bind ?_
              rintro history world result ⟨done, mounted⟩
              refine (((detachDmg_underway done).and (mounted_keeps mounted _)).mono
                (fun _ _ here => here.1.safe) fun _ _ _ _ here => here).bind ?_
              rintro history world _ ⟨⟨done, letGo⟩, mounted⟩
              refine keeps_perform.mpr ⟨done.underway.safe, fun removal final performed => ?_⟩
              have removed := done.step performed not_false not_false
              cases result with
              | error e => exact ⟨removed.underway.safe, removed.outcome⟩
              | ok _ =>
                  exact relaunch_keeps removed mounted.mono letGo.mono List.mem_concat_self

/-- At every moment of an update the app is in place, set aside or replaced by a verified one,
and the agent ends, by one hand, only once the image has been mounted, the verified app is in
place, and the volume has been let go and the image removed as far as that goes. -/
theorem update_relaunches_into_verified_app (debug : String → String) (dmgPath : String)
    (pid : Nat) (old : Tree) (start after : DmgWorld Tree) (events : List DmgEvent)
    (installed : start.apps.disk applicationPath = some (.bundle old))
    (run : Begins performsDmg (replaceApplication debug dmgPath pid) start events after) :
    SwapSafe old (backupPath applicationPath pid) applicationPath after.apps ∧
    ∀ before event later, events = before ++ event :: later → event.action.Relaunches →
      RelaunchFits dmgPath before later event.action after := by
  have safe := (replaceApplication_keeps debug installed).begins run
  exact ⟨safe.app, safe.relaunch⟩

/-! ### One update after another -/

theorem performsDmg_verified {entry : Entry Tree}
    (performed : performsDmg world action reply after) (verified : world.apps.Verified entry) :
    after.apps.Verified entry := by
  cases action with
  | swap effect => exact performsSwap_verified (performsDmg_swap _ _ _ _ performed) verified
  | _ =>
      rw [performsDmg_apps performed not_false]
      exact verified

/-- The last rename at a path took away what stood there. -/
def EndsMovedAway (path : String) (events : List DmgEvent) : Prop :=
  ∃ early late destination, events = early ++ ⟨.swap (.rename path destination), .ok ()⟩ :: late ∧
    ∀ source, ⟨.swap (.rename source path), .ok ()⟩ ∉ late

theorem not_endsMovedAway {path source : String} {early late : List DmgEvent}
    (other : source ≠ path)
    (kept : ∀ destination, ⟨.swap (.rename path destination), .ok ()⟩ ∉ late) :
    ¬ EndsMovedAway path (early ++ ⟨.swap (.rename source path), .ok ()⟩ :: late) := by
  rintro ⟨before, rest, destination, same, unfilled⟩
  rcases List.append_eq_append_iff.mp same with ⟨between, rfl, tail⟩ | ⟨between, rfl, tail⟩
  · cases between with
    | nil =>
        cases tail
        exact other rfl
    | cons event between =>
        obtain ⟨rfl, rfl⟩ := List.cons.inj tail
        exact kept destination (List.mem_append_right _ List.mem_cons_self)
  · cases between with
    | nil =>
        cases tail
        exact other rfl
    | cons event between =>
        obtain ⟨rfl, rfl⟩ := List.cons.inj tail
        exact unfilled source (List.mem_append_right _ List.mem_cons_self)

def SwapEffect.OnlyRenames (path : String) : SwapEffect → Prop
  | .removeDirAll touched => touched ≠ path
  | .ditto _ destination => destination ≠ path
  | .rename source destination => source ≠ destination
  | _ => True

def DmgEffect.OnlyRenames (path : String) : DmgEffect → Prop
  | .swap effect => effect.OnlyRenames path
  | _ => True

theorem verifyKlaaySignature_onlyRenames {path staged : String} :
    (verifyKlaaySignature staged).Only (SwapEffect.OnlyRenames path) := by
  refine ⟨trivial, fun verified => ?_⟩
  cases verified with
  | error e => trivial
  | ok verify =>
      dsimp only [Prog.bind]
      split
      · trivial
      · refine ⟨trivial, fun named => ?_⟩
        cases named with
        | error e => trivial
        | ok details =>
            dsimp only [Prog.bind]
            split
            · trivial
            · refine ⟨trivial, fun assessed => ?_⟩
              cases assessed with
              | error e => trivial
              | ok assess =>
                  dsimp only [Prog.bind]
                  split <;> trivial

theorem swapStaged_onlyRenames {staged backup target : String} (fromTarget : staged ≠ target)
    (apart : backup ≠ target) :
    (swapStaged staged backup target).Only (SwapEffect.OnlyRenames target) := by
  have aside : (moveAside target backup).Only (SwapEffect.OnlyRenames target) := by
    refine ⟨trivial, fun found => ?_⟩
    cases found with
    | error e => trivial
    | ok _ => exact ⟨apart.symm, fun _ => trivial⟩
  have back : (rollBack backup target).Only (SwapEffect.OnlyRenames target) := by
    refine ⟨trivial, fun found => ?_⟩
    cases found with
    | error e => trivial
    | ok _ => exact ⟨apart, fun _ => trivial⟩
  refine aside.bind fun moved => ?_
  cases moved with
  | error e => trivial
  | ok _ =>
      refine ⟨fromTarget, fun swapped => ?_⟩
      cases swapped with
      | ok _ => exact ⟨apart, fun _ => trivial⟩
      | error e => exact back.bind fun _ => ⟨fromTarget, fun _ => trivial⟩

theorem installFromMount_onlyRenames {debug : String → String} {mountPoint : List Char} :
    (installFromMount debug mountPoint pid).Only (SwapEffect.OnlyRenames applicationPath) := by
  obtain ⟨fromTarget, apart, -⟩ := swap_paths_distinct applicationPath pid
  refine ⟨trivial, fun found => ?_⟩
  cases found with
  | error e => trivial
  | ok _ =>
      refine ⟨fromTarget, fun _ => ⟨apart, fun _ => ⟨fromTarget, fun copied => ?_⟩⟩⟩
      rcases copied with e | (_ | _)
      · trivial
      · exact ⟨fromTarget, fun _ => trivial⟩
      · refine verifyKlaaySignature_onlyRenames.bind fun verified => ?_
        cases verified with
        | error e => exact ⟨fromTarget, fun _ => trivial⟩
        | ok _ => exact swapStaged_onlyRenames fromTarget apart

theorem replaceApplication_onlyRenames {debug : String → String} :
    (replaceApplication debug dmgPath pid).Only (DmgEffect.OnlyRenames applicationPath) := by
  have ends : relaunch.Only (DmgEffect.OnlyRenames applicationPath) := by
    refine ⟨trivial, fun launchd => ?_⟩
    dsimp only [Prog.bind]
    split <;> exact ⟨trivial, fun _ => trivial⟩
  refine ⟨trivial, fun attaching => ?_⟩
  cases attaching with
  | error e => trivial
  | ok output =>
      dsimp only [Prog.bind]
      split
      · trivial
      · cases parseHdiutilMountPoint (fromUtf8Lossy output.stdout) with
        | none => trivial
        | some mountPoint =>
          have installs : (installFromMount debug mountPoint pid).onMac.Only
              (DmgEffect.OnlyRenames applicationPath) :=
            installFromMount_onlyRenames.lift fun _ kind => kind
          refine installs.bind fun result => ?_
          refine @Only.bind _ _ _ _ _ (detachDmg _) _ ⟨trivial, fun graceful => ?_⟩ fun _ => ?_
          · cases graceful with
            | true => trivial
            | false => exact ⟨trivial, fun _ => trivial⟩
          · refine ⟨trivial, fun _ => ?_⟩
            cases result with
            | error e => trivial
            | ok _ => exact ends

theorem emptied_step {path : String} (kind : action.OnlyRenames path)
    (emptied : world.apps.disk path = none → EndsMovedAway path history)
    (performed : performsDmg world action reply after) (absent : after.apps.disk path = none) :
    EndsMovedAway path (history ++ [⟨action, reply⟩]) := by
  have onward : world.apps.disk path = none →
      (∀ source, (⟨action, reply⟩ : DmgEvent) ≠ ⟨.swap (.rename source path), .ok ()⟩) →
      EndsMovedAway path (history ++ [⟨action, reply⟩]) := by
    intro gone other
    obtain ⟨early, late, destination, rfl, kept⟩ := emptied gone
    refine ⟨early, late ++ [⟨action, reply⟩], destination, by simp, fun source member => ?_⟩
    rcases List.mem_append.mp member with member | member
    · exact kept source member
    · exact other source (List.mem_singleton.mp member).symm
  cases action with
  | swap effect =>
      obtain ⟨apps, performed, rfl⟩ := performed
      cases effect with
      | rename source destination =>
          cases reply with
          | error e =>
              obtain rfl : apps = world.apps := performed
              exact onward absent fun source same => by cases same
          | ok _ =>
              obtain ⟨entry, taken, _, rfl⟩ := performed
              by_cases onto : destination = path
              · subst onto
                rw [MacWorld.disk_put_self] at absent
                cases absent
              · by_cases away : source = path
                · subst away
                  exact ⟨history, [], destination, rfl, fun _ => nofun⟩
                · rw [MacWorld.disk_put_of_ne _ (Ne.symm onto),
                    MacWorld.disk_put_of_ne _ (Ne.symm away)] at absent
                  refine onward absent fun other same => ?_
                  cases same
                  exact onto rfl
      | removeDirAll touched =>
          rw [performsSwap_disk performed kind] at absent
          exact onward absent fun source same => by cases same
      | ditto source destination =>
          rw [performsSwap_disk performed kind] at absent
          exact onward absent fun source same => by cases same
      | _ =>
          rw [performsSwap_disk performed not_false] at absent
          exact onward absent fun source same => by cases same
  | _ =>
      rw [performsDmg_apps performed not_false] at absent
      exact onward absent fun source same => by cases same

theorem replaceApplication_emptied {debug : String → String} {events : List DmgEvent}
    (installed : start.apps.disk applicationPath ≠ none)
    (run : Begins performsDmg (replaceApplication debug dmgPath pid) start events after)
    (absent : after.apps.disk applicationPath = none) : EndsMovedAway applicationPath events := by
  have keeps : (replaceApplication debug dmgPath pid).Keeps performsDmg
      (fun history world => world.apps.disk applicationPath = none →
        EndsMovedAway applicationPath history) _ [] start :=
    keeps_of_only replaceApplication_onlyRenames
      (fun _ _ _ _ _ kind emptied performed => emptied_step kind emptied performed)
      fun absent => absurd absent installed
  exact keeps.begins run absent

theorem update_keeps_an_app {debug : String → String} {events : List DmgEvent}
    (installed : start.apps.disk applicationPath = some (.bundle old))
    (run : Begins performsDmg (replaceApplication debug dmgPath pid) start events after)
    (placed : ¬ EndsMovedAway applicationPath events)
    (refused : ¬ after.apps.Verified .emptyDir) :
    ∃ content, after.apps.disk applicationPath = some (.bundle content) ∧
      (content = old ∨ after.apps.Verified (.bundle content)) := by
  have safe := ((replaceApplication_keeps debug installed).begins run).app
  rcases safe.place with absent | kept | ⟨entry, now, verified⟩
  · have there : start.apps.disk applicationPath ≠ none := by
      rw [installed]
      exact nofun
    exact absurd (replaceApplication_emptied there run absent) placed
  · exact ⟨old, kept, Or.inl rfl⟩
  · cases entry with
    | emptyDir => exact absurd verified refused
    | bundle content => exact ⟨content, now, Or.inr verified⟩

/-- Update after update, each one failing anywhere or killed anywhere, as long as none ends
with the app set aside and nothing renamed into its place: an app stays installed, and it is
the first one or one that passed all three checks. -/
theorem updates_keep_an_app (debug : String → String) (start after : DmgWorld Tree)
    (runs : List DmgRun) (history : Updates debug start runs after) (old : Tree)
    (installed : start.apps.disk applicationPath = some (.bundle old))
    (placed : ∀ run ∈ runs, ¬ EndsMovedAway applicationPath run.events)
    (refused : ¬ after.apps.Verified .emptyDir) :
    ∃ content, after.apps.disk applicationPath = some (.bundle content) ∧
      (content = old ∨ after.apps.Verified (.bundle content)) := by
  have next : ∀ {world after : DmgWorld Tree} {dmgPath : String} {pid : Nat}
      {events : List DmgEvent},
      (¬ world.apps.Verified .emptyDir →
        ∃ content, world.apps.disk applicationPath = some (.bundle content) ∧
          (content = old ∨ world.apps.Verified (.bundle content))) →
      Begins performsDmg (replaceApplication debug dmgPath pid) world events after →
      ¬ EndsMovedAway applicationPath events → ¬ after.apps.Verified .emptyDir →
      ∃ content, after.apps.disk applicationPath = some (.bundle content) ∧
        (content = old ∨ after.apps.Verified (.bundle content)) := by
    intro world after dmgPath pid events earlier run placed refused
    have grows : ∀ entry, world.apps.Verified entry → after.apps.Verified entry := fun entry =>
      run.invariant (fun world => world.apps.Verified entry)
        (only_of_forall (fun _ => trivial) _) fun _ verified performed =>
          performsDmg_verified performed verified
    obtain ⟨content, installed, known⟩ := earlier fun accepted => refused (grows _ accepted)
    obtain ⟨content', now, same | verified⟩ := update_keeps_an_app installed run placed refused
    · exact ⟨content', now, same ▸ known.imp_right (grows _)⟩
    · exact ⟨content', now, Or.inr verified⟩
  induction history with
  | none => exact ⟨old, installed, Or.inl rfl⟩
  | finished earlier run ih =>
      exact next (fun refused => ih (fun other member => placed other (List.mem_append_left _ member))
        refused) run.begins (placed _ List.mem_concat_self) refused
  | killed earlier run ih =>
      exact next (fun refused => ih (fun other member => placed other (List.mem_append_left _ member))
        refused) run (placed _ List.mem_concat_self) refused

private theorem beforeUpdate_installed :
    beforeUpdate.apps.disk applicationPath = some (.bundle 1) := rfl

theorem update_relaunches_into_verified_app_under_launchd :
    RelaunchFits "/tmp/7.dmg" supervisedUpdate.dropLast [] .exit
      (⟨updatedMac, fun _ => none⟩ : DmgWorld Nat) := by
  have run := update_relaunches_into_verified_app id "/tmp/7.dmg" 7 1 beforeUpdate _
    supervisedUpdate beforeUpdate_installed supervisedUpdate_runs.begins
  exact run.2 supervisedUpdate.dropLast ⟨.exit, ()⟩ [] rfl trivial

theorem updates_keep_an_app_under_launchd :
    ∃ content, updatedMac.disk applicationPath = some (.bundle content) ∧
      (content = 1 ∨ updatedMac.Verified (.bundle content)) := by
  refine updates_keep_an_app id beforeUpdate ⟨updatedMac, fun _ => none⟩ supervisedRuns
    supervisedRuns_made 1 beforeUpdate_installed ?_ ?_
  · intro run member
    rw [List.mem_singleton.mp member]
    have fromTarget : stagedBundle ≠ applicationPath := (swap_paths_distinct applicationPath 7).1
    refine @not_endsMovedAway applicationPath stagedBundle (supervisedUpdate.take 10)
      (supervisedUpdate.drop 11) fromTarget fun destination member => ?_
    simp [supervisedUpdate] at member
  · intro verified
    have staged : ((MacWorld.unassessed beforeUpdateDisk).put stagedBundle (some (.bundle 2))).disk
        stagedBundle = some (.bundle 2) := MacWorld.disk_put_self _ _ _
    rcases verified .integrity with ((none | ⟨_, _, holds⟩) | ⟨_, other, _⟩) | ⟨_, other, _⟩
    · exact none
    · cases staged.symm.trans holds
    · cases other
    · cases other

end KlaayGuard
