/-
The self-update: the check of the release manifest, the download, and the
install step of each platform.

The network, the host and the file system reply as they please.  What the code
makes of a reply is here; what follows from it for a whole run is proved where
the gate is.
-/

import KlaayGuard.Crates
import KlaayGuard.Library.EffectProgram
import KlaayGuard.Library.RustText

set_option autoImplicit false

namespace KlaayGuard

open EffectProgram RustText

structure ReleaseAsset : Type where
  id : Nat
  name : String
  originalName : Option String
  sha256 : Option String
  deriving DecidableEq, Repr

structure ReleaseInfo : Type where
  version : String
  assets : List ReleaseAsset
  deriving DecidableEq, Repr

structure SelectedUpdate : Type where
  assetId : String
  sha256 : Option String
  deriving DecidableEq, Repr

/-- `std::env::consts::OS`. -/
inductive Os : Type where
  | linux
  | windows
  | macos
  | other (name : String) (unlisted : name ∉ ["linux", "windows", "macos"])
  deriving DecidableEq, Repr

def Os.name : Os → String
  | .linux => "linux"
  | .windows => "windows"
  | .macos => "macos"
  | .other name _ => name

structure UpdateHost : Type where
  os : Os
  arch : String
  currentVersion : String
  pid : Nat

structure UpdateCrates (Version : Type) : Type where
  /-- `semver::Version::parse`. -/
  parseVersion : String → Option Version
  /-- `<` of `semver::Version`. -/
  versionLt : Version → Version → Bool
  sha256 : List UInt8 → { bytes : List UInt8 // bytes.length = 32 }

/-- The first asset whose real file name ends and contains as given. -/
def selectByOriginalName (assets : List ReleaseAsset) (suffix tag : String) :
    Option ReleaseAsset :=
  assets.find? fun asset =>
    match asset.originalName with
    | some n => endsWith n.toList suffix.toList && contains n.toList tag.toList
    | none => false

def selectAppimageAsset (assets : List ReleaseAsset) (arch : String) : Option ReleaseAsset :=
  selectByOriginalName assets ".AppImage" ("Linux_" ++ arch)

def windowsArchTag (arch : String) : Option String :=
  match arch with
  | "x86_64" => some "x64"
  | "aarch64" => some "arm64"
  | _ => none

def selectWindowsInstallerAsset (assets : List ReleaseAsset) (archTag : String) :
    Option ReleaseAsset :=
  selectByOriginalName assets ".exe" ("Windows_" ++ archTag)

def hostArchTags (arch : String) : Option (String × String) :=
  match arch with
  | "aarch64" => some ("macOS_arm64", "Apple silicon")
  | "x86_64" => some ("macOS_x64", "Intel")
  | _ => none

/-- Unlike its siblings it falls back to the label of an asset without a real
file name. -/
def selectDmgAsset (assets : List ReleaseAsset) (archTag archLabel : String) :
    Option ReleaseAsset :=
  assets.find? fun asset =>
    match asset.originalName with
    | some orig => endsWith orig.toList ".dmg".toList && contains orig.toList archTag.toList
    | none => contains asset.name.toList archLabel.toList

def sha256Matches {Version : Type} (crates : UpdateCrates Version) (bytes : List UInt8)
    (expected : String) : Bool :=
  eqIgnoreAsciiCase (hexLower (crates.sha256 bytes).val).toList
    (trimStartPattern "sha256:".toList expected.toList)

def updateRequiresChecksum (os : String) : Bool := os != "macos"

/-! ### What the update does outside the process -/

/-- A response: its status, that as text, and what is made of its body. -/
structure HttpReply (α : Type) : Type where
  status : Nat
  statusText : String
  body : Except String α

def HttpReply.isSuccess {α : Type} (reply : HttpReply α) : Bool :=
  200 ≤ reply.status && reply.status ≤ 299

inductive CreateError : Type where
  | alreadyExists
  | other (message : String)

inductive UpdateEffect : Type where
  | getLatest (url : String)
  | download (url : String)
  | readVar (name : String)
  | currentExe
  | isFile (path : String)
  | pathExists (path : String)
  | dataLocalDir
  | tempDir
  | applicationsWritable
  /-- `create_new` with mode 0600. -/
  | createNew (path : String)
  | createFile (path : String)
  | createDirAll (path : String)
  | writeAll (path : String) (bytes : List UInt8)
  | syncAll (path : String)
  | setPermissions (path : String) (mode : Nat)
  | rename (source target : String)
  | removeFile (path : String)
  | syncParentDir (path : String)
  | readFile (path : String)
  /-- The shell that waits for this process and starts the new image. -/
  | spawnRelaunch (target : String)
  | spawnInstaller (path : String) (args : List String) (breakaway : Bool)
  /-- Mount the image, verify the bundle and swap it in. -/
  | replaceApplication (dmgPath : String)
  | exit

@[reducible] def UpdateEffect.Reply : UpdateEffect → Type
  | .getLatest _ => Except String (HttpReply ReleaseInfo)
  | .download _ => Except String (HttpReply (List UInt8))
  | .readVar _ => Option String
  | .currentExe => Except String String
  | .isFile _ => Bool
  | .pathExists _ => Bool
  | .dataLocalDir => Option String
  | .tempDir => String
  | .applicationsWritable => Bool
  | .createNew _ => Except CreateError Unit
  | .createFile _ => Except String Unit
  | .createDirAll _ => Except String Unit
  | .writeAll _ _ => Except String Unit
  | .syncAll _ => Except String Unit
  | .setPermissions _ _ => Except String Unit
  | .rename _ _ => Except String Unit
  | .removeFile _ => Except String Unit
  | .syncParentDir _ => Unit
  | .readFile _ => Except String (List UInt8)
  | .spawnRelaunch _ => Except String Unit
  | .spawnInstaller _ _ _ => Except String Unit
  | .replaceApplication _ => Except String Unit
  | .exit => Unit

abbrev UpdateProgram (α : Type) : Type := Prog UpdateEffect UpdateEffect.Reply α

abbrev UpdateEvent : Type := Event UpdateEffect UpdateEffect.Reply

abbrev UpdateEffect.perform (action : UpdateEffect) : UpdateProgram action.Reply :=
  Prog.perform action

open UpdateEffect (perform)

def appimageIsOwn (appimage appdir currentExe : String) : Bool :=
  appimage.toList.head? == some '/' && appdir.toList.head? == some '/' &&
    pathStartsWith currentExe.toList appdir.toList

def ownAppimage : UpdateProgram (Option String) := do
  match ← perform (.readVar "APPIMAGE") with
  | none => pure none
  | some appimage =>
      match ← perform (.readVar "APPDIR") with
      | none => pure none
      | some appdir =>
          match ← perform .currentExe with
          | .error _ => pure none
          | .ok exe =>
              if appimageIsOwn appimage appdir exe then do
                let isFile ← perform (.isFile appimage)
                pure (if isFile then some appimage else none)
              else pure none

def UpdateEffect.findsImage : UpdateEffect → Prop
  | .readVar _ | .currentExe | .isFile _ => True
  | _ => False

theorem ownAppimage_findsImage : ownAppimage.Only UpdateEffect.findsImage := by
  refine ⟨trivial, fun appimage => ?_⟩
  cases appimage with
  | none => trivial
  | some appimage =>
      refine ⟨trivial, fun appdir => ?_⟩
      cases appdir with
      | none => trivial
      | some appdir =>
          refine ⟨trivial, fun exe => ?_⟩
          cases exe with
          | error _ => trivial
          | ok exe =>
              change Prog.Only _ (if appimageIsOwn appimage appdir exe = true then _ else _)
              by_cases own : appimageIsOwn appimage appdir exe = true
              · rw [if_pos own]
                exact ⟨trivial, fun _ => trivial⟩
              · rw [if_neg own]
                trivial

def selected (asset : ReleaseAsset) : SelectedUpdate :=
  { assetId := toString asset.id, sha256 := asset.sha256 }

/-- The branch of each platform once a newer release is known. -/
def selectUpdate (host : UpdateHost) (assets : List ReleaseAsset) :
    UpdateProgram (Option SelectedUpdate) :=
  match host.os with
  | .linux => do
      match ← ownAppimage with
      | none => pure none
      | some _ => pure ((selectAppimageAsset assets host.arch).map selected)
  | .windows =>
      match windowsArchTag host.arch with
      | none => pure none
      | some archTag => pure ((selectWindowsInstallerAsset assets archTag).map selected)
  | .macos =>
      match hostArchTags host.arch with
      | none => pure none
      | some (archTag, archLabel) => pure ((selectDmgAsset assets archTag archLabel).map selected)
  | .other _ _ => pure none

/-- `trim_start_matches('v')`. -/
def normalizedVersion (version : String) : String :=
  String.ofList (trimStartMatches (· == 'v') version.toList)

variable {Version : Type}

def checkForUpdatesInternal (crates : UpdateCrates Version) (host : UpdateHost)
    (apiBase : String) : UpdateProgram (Except String (Option SelectedUpdate)) := do
  match ← perform (.getLatest (apiBase ++ "/klaayguard/updates/latest")) with
  | .error e => pure (.error ("Failed to check for updates: " ++ e))
  | .ok response =>
      if !response.isSuccess then
        pure (.error ("Update check failed with status: " ++ response.statusText))
      else
        match response.body with
        | .error e => pure (.error ("Failed to parse release info: " ++ e))
        | .ok release =>
            let normalizedCurrent := normalizedVersion host.currentVersion
            let normalizedRelease := normalizedVersion release.version
            match crates.parseVersion normalizedCurrent with
            | none => pure (.error ("Invalid current version format: " ++ normalizedCurrent))
            | some currentSemver =>
                match crates.parseVersion normalizedRelease with
                | none => pure (.error ("Invalid release version format: " ++ normalizedRelease))
                | some releaseSemver =>
                    if crates.versionLt currentSemver releaseSemver then do
                      let update ← selectUpdate host release.assets
                      pure (.ok update)
                    else pure (.ok none)

def stagedSiblingPath (target : String) (pid : Nat) : String :=
  let base := (fileName target.toList).getD "KlaayGuard".toList
  String.ofList (withFileName target.toList
    ('.' :: base ++ ".update-".toList ++ (toString pid).toList))

def openStaged (staged : String) : UpdateProgram (Except String Unit) := do
  match ← perform (.createNew staged) with
  | .ok () => pure (.ok ())
  | .error .alreadyExists => do
      let _ ← perform (.removeFile staged)
      match ← perform (.createNew staged) with
      | .ok () => pure (.ok ())
      | .error .alreadyExists => pure (.error "stage create failed: File exists (os error 17)")
      | .error (.other e) => pure (.error ("stage create failed: " ++ e))
  | .error (.other e) => pure (.error ("stage create failed: " ++ e))

/-- `write_all(..).and_then(sync_all).and_then(set_permissions)`. -/
def writeAndSync (staged : String) (bytes : List UInt8) : UpdateProgram (Except String Unit) := do
  match ← perform (.writeAll staged bytes) with
  | .error e => pure (.error e)
  | .ok () =>
      match ← perform (.syncAll staged) with
      | .error e => pure (.error e)
      | .ok () => perform (.setPermissions staged 0o755)

def installAppimageUpdate (host : UpdateHost) (bytes : List UInt8) :
    UpdateProgram (Except String Unit) := do
  match ← ownAppimage with
  | none =>
      pure (.error "APPIMAGE not set or not this process's image; not an AppImage install")
  | some target => do
      let staged := stagedSiblingPath target host.pid
      match ← openStaged staged with
      | .error e => pure (.error e)
      | .ok () =>
          match ← writeAndSync staged bytes with
          | .error e => do
              let _ ← perform (.removeFile staged)
              pure (.error ("stage write failed: " ++ e))
          | .ok () =>
              match ← perform (.rename staged target) with
              | .error e => do
                  let _ ← perform (.removeFile staged)
                  pure (.error ("AppImage replace failed: " ++ e))
              | .ok () => do
                  perform (.syncParentDir target)
                  match ← perform (.spawnRelaunch target) with
                  -- The update is installed already; only the relaunch failed.
                  | .error _ => pure (.ok ())
                  | .ok () => do
                      perform .exit
                      pure (.ok ())

def windowsUpdateDir (dataLocal : String) : String := dataLocal ++ "\\com.klaay.app\\updates"

def windowsInstallerArgs : List String := ["/S", "/UPDATE", "/R"]

/-- The closure that creates, writes and syncs the staged installer. -/
def writeInstaller (staged : String) (bytes : List UInt8) :
    UpdateProgram (Except String Unit) := do
  match ← perform (.createFile staged) with
  | .error e => pure (.error e)
  | .ok () =>
      match ← perform (.writeAll staged bytes) with
      | .error e => pure (.error e)
      | .ok () => perform (.syncAll staged)

/-- The spawn with breakaway from the job, and without it where that fails. -/
def launchInstaller (staged : String) : UpdateProgram (Except String Unit) := do
  match ← perform (.spawnInstaller staged windowsInstallerArgs true) with
  | .ok () => pure (.ok ())
  | .error _ => perform (.spawnInstaller staged windowsInstallerArgs false)

def installWindowsUpdate (crates : UpdateCrates Version) (bytes : List UInt8)
    (expectedSha256 : Option String) : UpdateProgram (Except String Unit) := do
  match expectedSha256 with
  | none => pure (.error "no checksum for the Windows update")
  | some expected =>
      match ← perform .dataLocalDir with
      | none => pure (.error "no local app data directory")
      | some dataLocal => do
          let dir := windowsUpdateDir dataLocal
          match ← perform (.createDirAll dir) with
          | .error e => pure (.error ("update dir: " ++ e))
          | .ok () => do
              let staged := dir ++ "\\KlaayGuard-update.exe"
              let _ ← perform (.removeFile staged)
              match ← writeInstaller staged bytes with
              | .error e => do
                  let _ ← perform (.removeFile staged)
                  pure (.error ("stage installer: " ++ e))
              | .ok () =>
                  match ← perform (.readFile staged) with
                  | .error e => pure (.error ("re-read installer: " ++ e))
                  | .ok onDisk =>
                      if !sha256Matches crates onDisk expected then do
                        let _ ← perform (.removeFile staged)
                        pure (.error "Staged Windows installer does not match its checksum")
                      else
                        match ← launchInstaller staged with
                        | .error e => pure (.error ("installer spawn failed: " ++ e))
                        | .ok () => do
                            perform .exit
                            pure (.ok ())

def installDmgUpdate (host : UpdateHost) (bytes : List UInt8) :
    UpdateProgram (Except String Unit) := do
  if !(← perform .applicationsWritable) then
    pure (.error ("No write access to /Applications (not an admin user); the update " ++
      "must be installed by an administrator or MDM"))
  else do
    let tempDir ← perform .tempDir
    let dmgPath := tempDir ++ "/KlaayGuard-update-" ++ toString host.pid ++ ".dmg"
    match ← perform (.createFile dmgPath) with
    | .error e => pure (.error ("Failed to create update file: " ++ e))
    | .ok () =>
        match ← perform (.writeAll dmgPath bytes) with
        | .error e => pure (.error ("Write error: " ++ e))
        | .ok () => perform (.replaceApplication dmgPath)

/-- The install step that the platform's build contains. -/
def installUpdate (crates : UpdateCrates Version) (host : UpdateHost) (bytes : List UInt8)
    (expectedSha256 : Option String) : UpdateProgram (Except String Unit) :=
  match host.os with
  | .linux => installAppimageUpdate host bytes
  | .windows => installWindowsUpdate crates bytes expectedSha256
  | .macos => installDmgUpdate host bytes
  | .other _ _ => pure (.error "auto-update is not supported on this platform")

def downloadAndInstallUpdateInternal (crates : UpdateCrates Version) (host : UpdateHost)
    (apiBase assetId : String) (expectedSha256 : Option String) :
    UpdateProgram (Except String Unit) := do
  match ← perform (.download (apiBase ++ "/klaayguard/download/" ++ assetId)) with
  | .error e => pure (.error ("Failed to download update: " ++ e))
  | .ok response =>
      if !response.isSuccess then
        pure (.error ("Download failed with status: " ++ response.statusText))
      else
        match response.body with
        | .error e => pure (.error ("Download error: " ++ e))
        | .ok bytes =>
            match expectedSha256 with
            | some expected =>
                if !sha256Matches crates bytes expected then
                  pure (.error ("Update checksum mismatch for expected " ++ expected))
                else installUpdate crates host bytes expectedSha256
            | none =>
                if updateRequiresChecksum host.os.name then
                  pure (.error ("No checksum for the " ++ host.os.name ++
                    " update; refusing to install"))
                else installUpdate crates host bytes expectedSha256

def mayWriteLaunchAgent (currentExe installedBundle : String) (installed : Bool) : Bool :=
  installed && pathStartsWith currentExe.toList installedBundle.toList

/-- Whether the update check is skipped before it starts: on macOS, for a build
that is not the installed app. -/
def skipsUpdateCheck (host : UpdateHost) : UpdateProgram Bool :=
  match host.os with
  | .macos => do
      let installedBundle := "/Applications/KlaayGuard.app"
      match ← perform .currentExe with
      | .error _ => pure true
      | .ok currentExe => do
          let installed ← perform (.pathExists installedBundle)
          pure (!mayWriteLaunchAgent currentExe installedBundle installed)
  | _ => pure false

def runUpdateCheck (crates : UpdateCrates Version) (host : UpdateHost) (apiBase : String) :
    UpdateProgram Unit := do
  if ← skipsUpdateCheck host then pure ()
  else
    match ← checkForUpdatesInternal crates host apiBase with
    | .ok (some update) => do
        let _ ← downloadAndInstallUpdateInternal crates host apiBase update.assetId update.sha256
        pure ()
    | .ok none => pure ()
    | .error _ => pure ()

end KlaayGuard
