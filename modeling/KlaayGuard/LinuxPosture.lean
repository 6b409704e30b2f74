/-
How the Linux posture checks ask the desktop: the programs they run, the files
they read, and the rows they make of the answers.

A command answers only where it could be started, exited with success and printed
UTF-8, except for `systemctl`, whose state counts whatever its exit code.
-/

import KlaayGuard.Library.HostAnswers
import KlaayGuard.HyprlandLock
import KlaayGuard.LinuxScreenLock

set_option autoImplicit false

namespace KlaayGuard

open EffectProgram RustInt RustText

structure CommandStdout : Type where
  success : Bool
  stdout : List UInt8

inductive PostureAction : Type where
  | readVar (name : String)
  | isFile (path : List Char)
  | pathExists (path : List Char)
  | configDir
  | homeDir
  | readToString (path : List Char)
  | output (program : String) (args : List String)

@[reducible] def PostureAction.Reply : PostureAction → Type
  | .readVar _ => Option (List Char)
  | .isFile _ => Bool
  | .pathExists _ => Bool
  | .configDir => Option (List Char)
  | .homeDir => Option (List Char)
  | .readToString _ => Option (List Char)
  | .output _ _ => Option CommandStdout

abbrev PostureProgram (α : Type) : Type := Prog PostureAction PostureAction.Reply α

abbrev PostureEvent : Type := Event PostureAction PostureAction.Reply

abbrev PostureAction.perform (action : PostureAction) : PostureProgram action.Reply :=
  Prog.perform action

open PostureAction (perform)

def commandText (reply : Option CommandStdout) : Option (List Char) :=
  ((reply.filter (·.success)).bind fun output => fromUtf8 output.stdout).map String.toList

def gsettingsGet (schema key : String) : PostureProgram (Option (List Char)) := do
  let reply ← perform (.output "gsettings" ["get", schema, key])
  pure (commandText reply)

def gsettingsBool (schema key : String) : PostureProgram (Option Bool) := do
  let text ← gsettingsGet schema key
  pure (text.bind parseGsettingsBool)

def gsettingsUint (schema key : String) : PostureProgram (Option UInt64) := do
  let text ← gsettingsGet schema key
  pure (text.bind parseGsettingsUint)

/-- An unset property exits non-zero. -/
def xfconfGet (channel property : String) : PostureProgram (Option (List Char)) := do
  let reply ← perform (.output "xfconf-query" ["-c", channel, "-p", property])
  pure (commandText reply)

def xfconfBool (channel property : String) : PostureProgram (Option Bool) := do
  let text ← xfconfGet channel property
  pure (text.bind parseGsettingsBool)

def xfconfUint (channel property : String) : PostureProgram (Option UInt64) := do
  let text ← xfconfGet channel property
  pure (text.bind parseGsettingsUint)

def xsetBlankTimeout : PostureProgram (Option UInt64) := do
  let reply ← perform (.output "xset" ["q"])
  pure ((commandText reply).bind parseXsetTimeout)

def anyIsFile (name : List Char) : List (List Char) → PostureProgram Bool
  | [] => pure false
  | dir :: rest => do
      if ← perform (.isFile (pathJoin dir name)) then pure true else anyIsFile name rest

def binaryOnPath (name : String) : PostureProgram Bool := do
  match ← perform (.readVar "PATH") with
  | none => pure false
  | some path => anyIsFile name.toList (path.splitOnP (· == ':'))

theorem anyIsFile_answered (answer : (action : PostureAction) → action.Reply) (name : List Char)
    (dirs : List (List Char)) : (anyIsFile name dirs).answered answer =
      dirs.any fun dir => answer (.isFile (pathJoin dir name)) := by
  induction dirs with
  | nil => rfl
  | cons dir rest ih =>
      unfold anyIsFile
      rw [Prog.answered_bind, Prog.answered_perform, List.any_cons]
      cases answer (.isFile (pathJoin dir name)) with
      | true => rfl
      | false => exact ih

theorem binaryOnPath_answered (answer : (action : PostureAction) → action.Reply)
    (name : String) : (binaryOnPath name).answered answer =
      match answer (.readVar "PATH") with
      | none => false
      | some path =>
          (path.splitOnP (· == ':')).any fun dir => answer (.isFile (pathJoin dir name.toList)) := by
  unfold binaryOnPath
  rw [Prog.answered_bind, Prog.answered_perform]
  cases answer (.readVar "PATH") with
  | none => rfl
  | some path => exact anyIsFile_answered answer _ _

def readInConfig (file : List Char) : PostureProgram (Option (List Char)) := do
  match ← perform .configDir with
  | none => pure none
  | some dir => perform (.readToString (pathJoin dir file))

/-- The user's copy hides the one of the system. -/
def readAutostartEntry (fileName : String) : PostureProgram (Option (List Char)) := do
  match ← readInConfig (pathJoin "autostart".toList fileName.toList) with
  | some text => pure (some text)
  | none => perform (.readToString (pathJoin "/etc/xdg/autostart".toList fileName.toList))

inductive Desktop : Type where
  | gnome
  | kde
  | hyprland
  | cinnamon
  | mate
  | xfce
  | unknown
  deriving DecidableEq, Repr

def desktopOfSegment (segment : List Char) : Option Desktop :=
  match String.ofList segment with
  | "gnome" => some .gnome
  | "unity" => some .gnome
  | "ubuntu" => some .gnome
  | "kde" => some .kde
  | "hyprland" => some .hyprland
  | "x-cinnamon" => some .cinnamon
  | "cinnamon" => some .cinnamon
  | "mate" => some .mate
  | "xfce" => some .xfce
  | _ => none

/-- The first segment that names a desktop. -/
def detectDesktop (xdgCurrentDesktop : Option (List Char)) : Desktop :=
  let value := toAsciiLowercase (xdgCurrentDesktop.getD [])
  ((value.splitOnP (· == ':')).findSome? fun segment => desktopOfSegment (trim segment)).getD
    .unknown

structure KscreenlockerState : Type where
  inDaemon : Bool
  autolock : Option Bool
  timeoutSecs : Option UInt64

section Kde

-- `parse::<f64>` of the minutes, as whole seconds where they are finite and not negative.
variable (parseMinutes : List Char → Option UInt64)

def readKscreenlockerLine (state : KscreenlockerState) (raw : List Char) : KscreenlockerState :=
  let line := trim raw
  if line.head? = some '[' then
    { state with inDaemon := eqIgnoreAsciiCase line "[daemon]".toList }
  else if !state.inDaemon then state
  else
    match splitOnce '=' line with
    | none => state
    | some (k, v) =>
        let key := toAsciiLowercase (trim k)
        if key = "autolock".toList then
          { state with autolock := parseGsettingsBool (toAsciiLowercase (trim v)) }
        else if key = "timeout".toList then { state with timeoutSecs := parseMinutes (trim v) }
        else state

def parseKscreenlockerrc (text : List Char) : Option Bool × Option UInt64 :=
  let state := (lines text).foldl (readKscreenlockerLine parseMinutes) ⟨false, none, none⟩
  (state.autolock, state.timeoutSecs)

def kdeDefaultTimeoutSecs : UInt64 := 300

/-- An absent key means the default of Plasma. -/
def screenlockRowKde (autolock : Option Bool) (timeoutSecs : Option UInt64) : Value :=
  let autolockSrc := if autolock.isSome then "file" else "Plasma default"
  let timeoutSrc := if timeoutSecs.isSome then "file" else "Plasma default"
  let timeout := timeoutSecs.getD kdeDefaultTimeoutSecs
  let detail := "Autolock=" ++ toString (autolock.getD true) ++ " (" ++ autolockSrc ++
    "), Timeout=" ++ toString timeout ++ "s (" ++ timeoutSrc ++ ")"
  if autolock.getD true then
    if timeout = 0 then
      screenlockRow "kde" "no" (some 0) "kscreenlockerrc"
        (detail ++ "; a zero timeout never triggers")
    else screenlockRow "kde" "yes" (some timeout.toNat) "kscreenlockerrc" detail
  else screenlockRow "kde" "no" (some timeout.toNat) "kscreenlockerrc" detail

/-- The system's file applies under the user's. -/
def collectScreenlockKde : PostureProgram Value := do
  let system ← perform (.readToString "/etc/xdg/kscreenlockerrc".toList)
  let user ← readInConfig "kscreenlockerrc".toList
  let (sysAutolock, sysTimeout) := parseKscreenlockerrc parseMinutes (system.getD [])
  let (autolock, timeoutSecs) := parseKscreenlockerrc parseMinutes (user.getD [])
  pure (screenlockRowKde (autolock.or sysAutolock) (timeoutSecs.or sysTimeout))

end Kde

def collectScreenlockHyprland : PostureProgram Value := do
  let text ← readInConfig "hypr/hypridle.conf".toList
  pure (screenlockRowHyprland (parseHypridleConfig (text.getD [])))

section Checks

variable (checks : OverflowChecks) (parseMinutes : List Char → Option UInt64)

/-- Which locker is installed decides, never which keys answer. -/
def collectScreenlockXfce : PostureProgram (Option Value) := do
  if ← binaryOnPath "xfce4-screensaver" then do
    let saver ← xfconfBool "xfce4-screensaver" "/saver/enabled"
    let idle ← xfconfBool "xfce4-screensaver" "/saver/idle-activation/enabled"
    let delay ← xfconfUint "xfce4-screensaver" "/saver/idle-activation/delay"
    let lock ← xfconfBool "xfce4-screensaver" "/lock/enabled"
    let lockWithSaver ← xfconfBool "xfce4-screensaver" "/lock/saver-activation/enabled"
    let lockDelay ← xfconfUint "xfce4-screensaver" "/lock/saver-activation/delay"
    pure (screenlockRowXfceScreensaver checks saver idle delay lock lockWithSaver lockDelay)
  else do
    if ← binaryOnPath "light-locker" then do
      let entry ← readAutostartEntry "light-locker.desktop"
      let blank ← xsetBlankTimeout
      pure (screenlockRowLightLocker checks (entry.bind parseLightLockerAutostart) blank)
    else
      pure (some (screenlockRow "xfce" "unknown" none "none"
        "neither xfce4-screensaver nor light-locker is installed"))

def collectScreenlockOf : Desktop → PostureProgram (Option Value)
  | .gnome => do
      let enabled ← gsettingsBool "org.gnome.desktop.screensaver" "lock-enabled"
      let idle ← gsettingsUint "org.gnome.desktop.session" "idle-delay"
      let lock ← gsettingsUint "org.gnome.desktop.screensaver" "lock-delay"
      pure (screenlockRowGnome checks enabled idle lock)
  | .cinnamon => do
      let enabled ← gsettingsBool "org.cinnamon.desktop.screensaver" "lock-enabled"
      let idle ← gsettingsUint "org.cinnamon.desktop.session" "idle-delay"
      let lock ← gsettingsUint "org.cinnamon.desktop.screensaver" "lock-delay"
      pure (screenlockRowGsettings checks "cinnamon" enabled idle lock)
  | .mate => do
      let activation ← gsettingsBool "org.mate.screensaver" "idle-activation-enabled"
      let enabled ← gsettingsBool "org.mate.screensaver" "lock-enabled"
      let idle ← gsettingsUint "org.mate.session" "idle-delay"
      let lock ← gsettingsUint "org.mate.screensaver" "lock-delay"
      pure (screenlockRowMate checks activation enabled idle lock)
  | .kde => do
      let row ← collectScreenlockKde parseMinutes
      pure (some row)
  | .hyprland => do
      let row ← collectScreenlockHyprland
      pure (some row)
  | .xfce => collectScreenlockXfce checks
  | .unknown =>
      pure (some (screenlockRow "unknown" "unknown" none "none"
        "no recognized XDG_CURRENT_DESKTOP"))

/-- The desktop in `XDG_CURRENT_DESKTOP` is asked, never the schemas that exist. -/
def collectScreenlock : PostureProgram (Option Value) := do
  let desktop ← perform (.readVar "XDG_CURRENT_DESKTOP")
  collectScreenlockOf checks parseMinutes (detectDesktop desktop)

end Checks

/-! ### Automatic updates -/

def autoUpdateRow (enabled source detail : String) : Value :=
  .array [.object [("enabled", .string enabled), ("source", .string source),
    ("detail", .string detail)]]

def parseAptConfigShell (out : List Char) : List (List Char × List Char) :=
  (lines out).filterMap fun line => (splitOnce '=' line).map fun (name, value) =>
    (trim name, trimEndMatches (· == '\'') (trimStartMatches (· == '\'') (trim value)))

/-- A later entry of the map replaces an earlier one. -/
def mapGet (entries : List (List Char × List Char)) (key : String) : Option (List Char) :=
  (entries.reverse.find? fun entry => entry.1 = key.toList).map Prod.snd

def autoUpdateRowApt (enable unattended : Option (List Char)) (installed : Bool)
    (timer : Option (List Char)) : Value :=
  if !installed then autoUpdateRow "no" "apt" "unattended-upgrades is not installed"
  else if enable = some "0".toList then autoUpdateRow "no" "apt" "APT::Periodic::Enable is 0"
  else if unattended = none ∨ unattended = some [] ∨ unattended = some "0".toList then
    autoUpdateRow "no" "apt" "APT::Periodic::Unattended-Upgrade is off"
  else if timer = some "disabled".toList ∨ timer = some "masked".toList then
    autoUpdateRow "no" "apt" "apt-daily-upgrade.timer is disabled"
  else autoUpdateRow "yes" "apt" "unattended-upgrades installs updates"

def dnfApplies (value : List Char) : Option Bool :=
  match String.ofList (toAsciiLowercase (trim value)) with
  | "yes" => some true
  | "true" => some true
  | "1" => some true
  | "on" => some true
  | "no" => some false
  | "false" => some false
  | "0" => some false
  | "off" => some false
  | _ => none

def parseDnfApplyUpdatesFrom (inCommands : Bool) : List (List Char) → Option Bool
  | [] => none
  | raw :: rest =>
      let line := trim raw
      if line.head? = some '[' then parseDnfApplyUpdatesFrom (line == "[commands]".toList) rest
      else
        match splitOnce '=' line with
        | none => parseDnfApplyUpdatesFrom inCommands rest
        | some (key, value) =>
            if inCommands ∧ trim key = "apply_updates".toList then dnfApplies value
            else parseDnfApplyUpdatesFrom inCommands rest

def parseDnfApplyUpdates (text : List Char) : Option Bool :=
  parseDnfApplyUpdatesFrom false (lines text)

def autoUpdateRowDnf (timerEnabled installTimerEnabled : Bool) (apply : Option Bool) : Value :=
  if installTimerEnabled then
    autoUpdateRow "yes" "dnf" "dnf-automatic-install.timer is enabled"
  else if !timerEnabled then autoUpdateRow "no" "dnf" "no dnf automatic timer is enabled"
  else if apply = some true then autoUpdateRow "yes" "dnf" "dnf automatic applies updates"
  else autoUpdateRow "no" "dnf" "dnf automatic does not apply updates"

/-- The state counts whatever the exit code. -/
def systemctlIsEnabled (unit : String) : PostureProgram (Option (List Char)) := do
  let reply ← perform (.output "systemctl" ["is-enabled", unit])
  pure ((reply.map fun output => trim (fromUtf8Lossy output.stdout)).filter (· ≠ []))

def unitEnabled (unit : String) : PostureProgram Bool := do
  let state ← systemctlIsEnabled unit
  pure (state == some "enabled".toList)

def aptConfigArgs : List String :=
  ["shell", "E", "APT::Periodic::Enable", "U", "APT::Periodic::Unattended-Upgrade"]

def collectAutoUpdateApt : PostureProgram Value := do
  let reply ← perform (.output "apt-config" aptConfigArgs)
  match reply.filter (·.success) with
  | none => pure (autoUpdateRow "unknown" "apt" "apt-config did not answer")
  | some out => do
      let vars := parseAptConfigShell (fromUtf8Lossy out.stdout)
      let installed ← perform (.pathExists "/usr/bin/unattended-upgrade".toList)
      let timer ← systemctlIsEnabled "apt-daily-upgrade.timer"
      pure (autoUpdateRowApt (mapGet vars "E") (mapGet vars "U") installed timer)

/-- The first file that says whether updates are applied. -/
def findApplyUpdates : List (List Char) → PostureProgram (Option Bool)
  | [] => pure none
  | path :: rest => do
      let text ← perform (.readToString path)
      match text.bind parseDnfApplyUpdates with
      | some apply => pure (some apply)
      | none => findApplyUpdates rest

def collectAutoUpdateDnf : PostureProgram Value := do
  if !(← binaryOnPath "systemctl") then
    pure (autoUpdateRow "unknown" "dnf" "systemctl is not installed")
  else do
    let apply ← findApplyUpdates ["/etc/dnf/automatic.conf".toList,
      "/usr/share/dnf5/dnf5-plugins/automatic.conf".toList]
    let dnf5 ← unitEnabled "dnf5-automatic.timer"
    let timer ← if dnf5 then pure true else unitEnabled "dnf-automatic.timer"
    let installTimer ← unitEnabled "dnf-automatic-install.timer"
    pure (autoUpdateRowDnf timer installTimer apply)

def collectAutoUpdate : PostureProgram Value := do
  if ← binaryOnPath "apt-config" then collectAutoUpdateApt
  else do
    let dnf5 ← binaryOnPath "dnf5"
    let dnf ← if dnf5 then pure true else binaryOnPath "dnf"
    if dnf then collectAutoUpdateDnf
    else pure (autoUpdateRow "unknown" "none" "neither apt nor dnf is installed")

end KlaayGuard
