/-
Which answers the screen-lock check of a desktop heeds.

Mint installs Cinnamon's schemas on its MATE and XFCE editions too, so a schema
that answers says nothing about the desktop.  A check asks the places of the
desktop that the session runs and no other ones.
-/

import KlaayGuard.LinuxSession

set_option autoImplicit false

namespace KlaayGuard

open EffectProgram Prog RustInt RustText

def Desktop.name : Desktop → String
  | .gnome => "gnome"
  | .kde => "kde"
  | .hyprland => "hyprland"
  | .cinnamon => "cinnamon"
  | .mate => "mate"
  | .xfce => "xfce"
  | .unknown => "unknown"

def AsksGsettings (vendor : String) (action : PostureAction) : Prop :=
  ∃ schema key, action = .output "gsettings" ["get", schema, key] ∧
    vendor.toList.isPrefixOf schema.toList = true

def AsksConfig (file : List Char) (action : PostureAction) : Prop :=
  action = .configDir ∨ ∃ dir, action = .readToString (pathJoin dir file)

def AsksPath (name : String) (action : PostureAction) : Prop :=
  action = .readVar "PATH" ∨ ∃ dir, action = .isFile (pathJoin dir name.toList)

def AsksAutostart (fileName : String) (action : PostureAction) : Prop :=
  AsksConfig (pathJoin "autostart".toList fileName.toList) action ∨
    action = .readToString (pathJoin "/etc/xdg/autostart".toList fileName.toList)

/-- What the check of a desktop may ask. -/
def Desktop.Asks : Desktop → PostureAction → Prop
  | .gnome, action => AsksGsettings "org.gnome.desktop." action
  | .cinnamon, action => AsksGsettings "org.cinnamon.desktop." action
  | .mate, action => AsksGsettings "org.mate." action
  | .kde, action => AsksConfig "kscreenlockerrc".toList action ∨
      action = .readToString "/etc/xdg/kscreenlockerrc".toList
  | .hyprland, action => AsksConfig "hypr/hypridle.conf".toList action
  | .xfce, action => AsksPath "xfce4-screensaver" action ∨ AsksPath "light-locker" action ∨
      (∃ property, action = .output "xfconf-query" ["-c", "xfce4-screensaver", "-p", property]) ∨
      AsksAutostart "light-locker.desktop" action ∨ action = .output "xset" ["q"]
  | .unknown, _ => False

variable {kind : PostureAction → Prop}

theorem gsettingsBool_only {schema key : String}
    (asked : kind (.output "gsettings" ["get", schema, key])) :
    (gsettingsBool schema key).Only kind :=
  ⟨asked, fun _ => trivial⟩

theorem gsettingsUint_only {schema key : String}
    (asked : kind (.output "gsettings" ["get", schema, key])) :
    (gsettingsUint schema key).Only kind :=
  ⟨asked, fun _ => trivial⟩

theorem xfconfBool_only {channel property : String}
    (asked : kind (.output "xfconf-query" ["-c", channel, "-p", property])) :
    (xfconfBool channel property).Only kind :=
  ⟨asked, fun _ => trivial⟩

theorem xfconfUint_only {channel property : String}
    (asked : kind (.output "xfconf-query" ["-c", channel, "-p", property])) :
    (xfconfUint channel property).Only kind :=
  ⟨asked, fun _ => trivial⟩

theorem readInConfig_only {file : List Char}
    (asked : ∀ action, AsksConfig file action → kind action) :
    (readInConfig file).Only kind := by
  refine ⟨asked _ (Or.inl rfl), fun dir => ?_⟩
  cases dir with
  | none => trivial
  | some dir => exact ⟨asked _ (Or.inr ⟨dir, rfl⟩), fun _ => trivial⟩

theorem anyIsFile_only {name : List Char} (asked : ∀ dir, kind (.isFile (pathJoin dir name)))
    (dirs : List (List Char)) : (anyIsFile name dirs).Only kind := by
  induction dirs with
  | nil => trivial
  | cons dir rest ih =>
      refine ⟨asked dir, fun found => ?_⟩
      cases found with
      | true => trivial
      | false => exact ih

theorem binaryOnPath_only {name : String}
    (asked : ∀ action, AsksPath name action → kind action) :
    (binaryOnPath name).Only kind := by
  refine ⟨asked _ (Or.inl rfl), fun path => ?_⟩
  cases path with
  | none => trivial
  | some path => exact anyIsFile_only (fun dir => asked _ (Or.inr ⟨dir, rfl⟩)) _

theorem collectScreenlockXfce_only (checks : OverflowChecks) :
    (collectScreenlockXfce checks).Only Desktop.xfce.Asks := by
  have property : ∀ property, Desktop.xfce.Asks
      (.output "xfconf-query" ["-c", "xfce4-screensaver", "-p", property]) :=
    fun property => Or.inr (Or.inr (Or.inl ⟨property, rfl⟩))
  unfold collectScreenlockXfce
  refine (binaryOnPath_only fun _ asked => Or.inl asked).bind fun found => ?_
  cases found with
  | true =>
      refine (xfconfBool_only (property _)).bind fun _ => ?_
      refine (xfconfBool_only (property _)).bind fun _ => ?_
      refine (xfconfUint_only (property _)).bind fun _ => ?_
      refine (xfconfBool_only (property _)).bind fun _ => ?_
      refine (xfconfBool_only (property _)).bind fun _ => ?_
      exact (xfconfUint_only (property _)).bind fun _ => trivial
  | false =>
      refine (binaryOnPath_only fun _ asked => Or.inr (Or.inl asked)).bind fun found => ?_
      cases found with
      | false => trivial
      | true =>
          refine Only.bind ?_ fun _ => ⟨?_, fun _ => trivial⟩
          · unfold readAutostartEntry
            refine (readInConfig_only fun _ asked =>
              Or.inr (Or.inr (Or.inr (Or.inl (Or.inl asked))))).bind fun text => ?_
            cases text with
            | some text => trivial
            | none =>
                exact ⟨Or.inr (Or.inr (Or.inr (Or.inl (Or.inr rfl)))), fun _ => trivial⟩
          · exact Or.inr (Or.inr (Or.inr (Or.inr rfl)))

theorem collectScreenlockOf_only (checks : OverflowChecks)
    (parseMinutes : List Char → Option UInt64) (desktop : Desktop) :
    (collectScreenlockOf checks parseMinutes desktop).Only desktop.Asks := by
  cases desktop with
  | gnome =>
      refine (gsettingsBool_only ⟨_, _, rfl, by decide +kernel⟩).bind fun _ => ?_
      refine (gsettingsUint_only ⟨_, _, rfl, by decide +kernel⟩).bind fun _ => ?_
      exact (gsettingsUint_only ⟨_, _, rfl, by decide +kernel⟩).bind fun _ => trivial
  | cinnamon =>
      refine (gsettingsBool_only ⟨_, _, rfl, by decide +kernel⟩).bind fun _ => ?_
      refine (gsettingsUint_only ⟨_, _, rfl, by decide +kernel⟩).bind fun _ => ?_
      exact (gsettingsUint_only ⟨_, _, rfl, by decide +kernel⟩).bind fun _ => trivial
  | mate =>
      refine (gsettingsBool_only ⟨_, _, rfl, by decide +kernel⟩).bind fun _ => ?_
      refine (gsettingsBool_only ⟨_, _, rfl, by decide +kernel⟩).bind fun _ => ?_
      refine (gsettingsUint_only ⟨_, _, rfl, by decide +kernel⟩).bind fun _ => ?_
      exact (gsettingsUint_only ⟨_, _, rfl, by decide +kernel⟩).bind fun _ => trivial
  | kde =>
      refine Only.bind ⟨Or.inr rfl, fun _ => ?_⟩ fun _ => trivial
      exact (readInConfig_only fun _ asked => Or.inl asked).bind fun _ => trivial
  | hyprland =>
      refine Only.bind ?_ fun _ => trivial
      exact (readInConfig_only fun _ asked => asked).bind fun _ => trivial
  | xfce => exact collectScreenlockXfce_only checks
  | unknown => trivial

/-! ### One row, of this desktop -/

/-- A row of this desktop with one of the three verdicts, and with a delay where it locks. -/
def IsRowOf (de : String) (row : Value) : Prop :=
  ∃ enabled delay source detail, row = screenlockRow de enabled delay source detail ∧
    (enabled = "yes" ∧ delay.isSome = true ∨ enabled = "no" ∨ enabled = "unknown")

theorem isRowOf_yes (de source detail : String) (delay : Nat) :
    IsRowOf de (screenlockRow de "yes" (some delay) source detail) :=
  ⟨_, _, _, _, rfl, Or.inl ⟨rfl, rfl⟩⟩

theorem isRowOf_no (de source detail : String) (delay : Option Nat) :
    IsRowOf de (screenlockRow de "no" delay source detail) :=
  ⟨_, _, _, _, rfl, Or.inr (Or.inl rfl)⟩

theorem isRowOf_unknown (de source detail : String) (delay : Option Nat) :
    IsRowOf de (screenlockRow de "unknown" delay source detail) :=
  ⟨_, _, _, _, rfl, Or.inr (Or.inr rfl)⟩

theorem isRowOf_map {de : String} {delay : Option UInt64} {rowOf : UInt64 → Value} {row : Value}
    (made : delay.map rowOf = some row) (each : ∀ total, IsRowOf de (rowOf total)) :
    IsRowOf de row := by
  obtain ⟨total, _, rfl⟩ := Option.map_eq_some_iff.mp made
  exact each total

theorem screenlockRowGsettings_isRowOf {checks : OverflowChecks} {de : String}
    {lockEnabled : Option Bool} {idleDelay lockDelay : Option UInt64} {row : Value}
    (made : screenlockRowGsettings checks de lockEnabled idleDelay lockDelay = some row) :
    IsRowOf de row := by
  unfold screenlockRowGsettings at made
  rcases lockEnabled with _ | _ | _
  · obtain rfl := Option.some.inj made
    exact isRowOf_unknown _ _ _ _
  · obtain rfl := Option.some.inj made
    exact isRowOf_no _ _ _ _
  · cases idleDelay with
    | none =>
        obtain rfl := Option.some.inj made
        exact isRowOf_unknown _ _ _ _
    | some d =>
        by_cases positive : 0 < d
        · simp only [if_pos positive] at made
          exact isRowOf_map made fun _ => isRowOf_yes _ _ _ _
        · simp only [if_neg positive] at made
          obtain rfl := Option.some.inj made
          exact isRowOf_no _ _ _ _

theorem screenlockRowMate_isRowOf {checks : OverflowChecks}
    {idleActivation lockEnabled : Option Bool} {idleDelayMin lockDelayMin : Option UInt64}
    {row : Value}
    (made : screenlockRowMate checks idleActivation lockEnabled idleDelayMin lockDelayMin =
      some row) : IsRowOf "mate" row := by
  unfold screenlockRowMate at made
  obtain ⟨secs, _, made⟩ := Option.bind_eq_some_iff.mp made
  split at made
  · split at made
    · exact isRowOf_map made fun _ => isRowOf_yes _ _ _ _
    · obtain rfl := Option.some.inj made
      exact isRowOf_no _ _ _ _
  · obtain rfl := Option.some.inj made
    exact isRowOf_no _ _ _ _
  · obtain rfl := Option.some.inj made
    exact isRowOf_no _ _ _ _
  · obtain rfl := Option.some.inj made
    exact isRowOf_unknown _ _ _ _

theorem screenlockRowXfceScreensaver_isRowOf {checks : OverflowChecks}
    {saverEnabled idleActivation : Option Bool} {idleDelayMin : Option UInt64}
    {lockEnabled lockWithSaver : Option Bool} {lockDelayMin : Option UInt64} {row : Value}
    (made : screenlockRowXfceScreensaver checks saverEnabled idleActivation idleDelayMin lockEnabled
      lockWithSaver lockDelayMin = some row) : IsRowOf "xfce" row := by
  unfold screenlockRowXfceScreensaver at made
  refine isRowOf_map made fun total => ?_
  split
  · exact isRowOf_no _ _ _ _
  · split
    · exact isRowOf_no _ _ _ _
    · exact isRowOf_yes _ _ _ _

theorem screenlockRowLightLocker_isRowOf {checks : OverflowChecks}
    {lockAfterScreensaver blankTimeout : Option UInt64} {row : Value}
    (made : screenlockRowLightLocker checks lockAfterScreensaver blankTimeout = some row) :
    IsRowOf "xfce" row := by
  unfold screenlockRowLightLocker at made
  cases lockAfterScreensaver with
  | none =>
      obtain rfl := Option.some.inj made
      exact isRowOf_no _ _ _ _
  | some after =>
      cases blankTimeout with
      | none =>
          obtain rfl := Option.some.inj made
          exact isRowOf_unknown _ _ _ _
      | some blank =>
          by_cases zero : blank = 0
          · simp only [if_pos zero] at made
            obtain rfl := Option.some.inj made
            exact isRowOf_no _ _ _ _
          · simp only [if_neg zero] at made
            exact isRowOf_map made fun _ => isRowOf_yes _ _ _ _

theorem screenlockRowKde_isRowOf (autolock : Option Bool) (timeoutSecs : Option UInt64) :
    IsRowOf "kde" (screenlockRowKde autolock timeoutSecs) := by
  unfold screenlockRowKde
  dsimp only
  split
  · split
    · exact isRowOf_no _ _ _ _
    · exact isRowOf_yes _ _ _ _
  · exact isRowOf_no _ _ _ _

theorem screenlockRowHyprland_isRowOf (lockTimeout : Option Nat) :
    IsRowOf "hyprland" (screenlockRowHyprland lockTimeout) := by
  unfold screenlockRowHyprland
  split
  · exact isRowOf_no _ _ _ _
  · exact isRowOf_yes _ _ _ _
  · exact isRowOf_unknown _ _ _ _

theorem collectScreenlockOf_isRowOf (checks : OverflowChecks)
    (parseMinutes : List Char → Option UInt64) (desktop : Desktop)
    (answer : (action : PostureAction) → action.Reply) {row : Value}
    (made : (collectScreenlockOf checks parseMinutes desktop).answered answer = some row) :
    IsRowOf desktop.name row := by
  cases desktop with
  | gnome => exact screenlockRowGsettings_isRowOf made
  | cinnamon => exact screenlockRowGsettings_isRowOf made
  | mate => exact screenlockRowMate_isRowOf made
  | kde =>
      unfold collectScreenlockOf collectScreenlockKde at made
      simp only [answered_bind, answered_pure] at made
      obtain rfl := Option.some.inj made
      exact screenlockRowKde_isRowOf _ _
  | hyprland =>
      unfold collectScreenlockOf collectScreenlockHyprland at made
      simp only [answered_bind, answered_pure] at made
      obtain rfl := Option.some.inj made
      exact screenlockRowHyprland_isRowOf _
  | unknown =>
      obtain rfl := Option.some.inj made
      exact isRowOf_unknown _ _ _ _
  | xfce =>
      unfold collectScreenlockOf collectScreenlockXfce at made
      rw [answered_bind] at made
      cases screensaver : (binaryOnPath "xfce4-screensaver").answered answer with
      | true =>
          simp only [screensaver, if_true, answered_bind, answered_pure] at made
          exact screenlockRowXfceScreensaver_isRowOf made
      | false =>
          simp only [screensaver, Bool.false_eq_true, if_false, answered_bind] at made
          cases locker : (binaryOnPath "light-locker").answered answer with
          | true =>
              simp only [locker, if_true, answered_bind, answered_pure] at made
              exact screenlockRowLightLocker_isRowOf made
          | false =>
              simp only [locker, Bool.false_eq_true, if_false, answered_pure] at made
              obtain rfl := Option.some.inj made
              exact isRowOf_unknown _ _ _ _

/-- Two hosts that give the same answers to the questions of the desktop they run get one row,
whatever the settings of other desktops are; and it is a row of that desktop. -/
theorem screenlock_heeds_own_desktop (checks : OverflowChecks)
    (parseMinutes : List Char → Option UInt64)
    (answer other : (action : PostureAction) → action.Reply) (desktop : Desktop)
    (runs : detectDesktop (answer (.readVar "XDG_CURRENT_DESKTOP")) = desktop)
    (otherRuns : detectDesktop (other (.readVar "XDG_CURRENT_DESKTOP")) = desktop)
    (alike : ∀ action, desktop.Asks action → answer action = other action) :
    (collectScreenlock checks parseMinutes).answered answer =
        (collectScreenlock checks parseMinutes).answered other ∧
      ∀ row, (collectScreenlock checks parseMinutes).answered answer = some row →
        IsRowOf desktop.name row := by
  unfold collectScreenlock
  rw [answered_bind, answered_bind, answered_perform, answered_perform, runs, otherRuns]
  refine ⟨?_, fun row made => ?_⟩
  · exact (collectScreenlockOf_only checks parseMinutes desktop).answered_congr alike
  · exact collectScreenlockOf_isRowOf checks parseMinutes desktop answer made

private def mateSession (cinnamon : Bool) : LinuxSession where
  vars := fun name => if name = "XDG_CURRENT_DESKTOP" then some "MATE".toList else none
  isFile := fun _ => false
  configDir := none
  homeDir := none
  files := fun _ => none
  gsettings := fun schema key =>
    if "org.mate.".toList.isPrefixOf schema.toList then
      if key = "idle-delay" then some (.int32 5)
      else if key = "lock-delay" then some (.int32 0)
      else some (.boolean true)
    else if cinnamon then some (.boolean false)
    else none
  xfconf := fun _ _ => none
  xset := none

private theorem mateSessions_alike (action : PostureAction) (asked : Desktop.mate.Asks action) :
    (mateSession true).answer action = (mateSession false).answer action := by
  obtain ⟨schema, key, rfl, vendor⟩ := asked
  have same : (mateSession true).gsettings schema key =
      (mateSession false).gsettings schema key := by
    simp only [mateSession, if_pos vendor]
  change LinuxSession.printed (((mateSession true).gsettings schema key).map Setting.gvariant) =
    LinuxSession.printed (((mateSession false).gsettings schema key).map Setting.gvariant)
  rw [same]

theorem screenlock_heeds_own_desktop_beside_cinnamon :
    (collectScreenlock .off fun _ => none).answered (mateSession true).answer =
        (collectScreenlock .off fun _ => none).answered (mateSession false).answer ∧
      ∀ row,
        (collectScreenlock .off fun _ => none).answered (mateSession true).answer = some row →
          IsRowOf "mate" row :=
  screenlock_heeds_own_desktop .off (fun _ => none) (mateSession true).answer
    (mateSession false).answer .mate (by decide +kernel) (by decide +kernel) mateSessions_alike

end KlaayGuard
