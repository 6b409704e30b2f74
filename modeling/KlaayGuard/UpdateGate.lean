/-
What stands between a downloaded build and its installation.

The gate is an automaton over the events so far: once the download has
answered, or where the action is one of an install step, the events must show
the whole chain from a newer release to a matching checksum.  The update check
conforms to it whatever the network, the host and the file system reply.
-/

import KlaayGuard.Library.Interleaving
import KlaayGuard.Update

set_option autoImplicit false

namespace KlaayGuard

open EffectProgram RustText

/-- The text gives the digest in hexadecimal, in either case, after any number
of `sha256:` prefixes. -/
def NamesDigest (expected : String) (digest : List UInt8) : Prop :=
  ∃ count hex, expected.toList = (List.replicate count "sha256:".toList).flatten ++ hex ∧
    eqIgnoreAsciiCase (hexLower digest).toList hex = true

/-- The asset of a release that the host's platform and architecture select. -/
def assetFor (host : UpdateHost) (assets : List ReleaseAsset) : Option ReleaseAsset :=
  match host.os with
  | .linux => selectAppimageAsset assets host.arch
  | .windows => (windowsArchTag host.arch).bind (selectWindowsInstallerAsset assets)
  | .macos => (hostArchTags host.arch).bind fun tags => selectDmgAsset assets tags.1 tags.2
  | .other _ _ => none

variable {Version : Type} (crates : UpdateCrates Version) (host : UpdateHost) (apiBase : String)

/-- Both versions parse, each without its leading `v`s, and the release's is the
greater one. -/
def NewerThanRunning (release : ReleaseInfo) : Prop :=
  ∃ current new, crates.parseVersion (normalizedVersion host.currentVersion) = some current ∧
    crates.parseVersion (normalizedVersion release.version) = some new ∧
    crates.versionLt current new = true

/-- The manifest was fetched, its release is newer, and the asset is its asset
for this host. -/
def Offered (history : List UpdateEvent) (asset : ReleaseAsset) : Prop :=
  ∃ (response : HttpReply ReleaseInfo) (release : ReleaseInfo),
    ⟨.getLatest (apiBase ++ "/klaayguard/updates/latest"), .ok response⟩ ∈ history ∧
      response.isSuccess = true ∧ response.body = .ok release ∧
      NewerThanRunning crates host release ∧ assetFor host release.assets = some asset

/-- The offered asset was downloaded as these bytes, and they have the digest
that this asset names, which only macOS does without. -/
structure Verified (history : List UpdateEvent) (asset : ReleaseAsset) (bytes : List UInt8) :
    Prop where
  offered : Offered crates host apiBase history asset
  downloaded : ∃ response : HttpReply (List UInt8),
    ⟨.download (apiBase ++ "/klaayguard/download/" ++ toString asset.id), .ok response⟩ ∈ history ∧
      response.isSuccess = true ∧ response.body = .ok bytes
  matching : ∀ expected, asset.sha256 = some expected →
    NamesDigest expected (crates.sha256 bytes).val
  carried : host.os ≠ .macos → asset.sha256.isSome = true

def Downloaded (history : List UpdateEvent) : Prop :=
  ∃ event ∈ history, ∃ url, event.action = .download url

/-- The actions that only an install step performs. -/
def UpdateEffect.installs : UpdateEffect → Bool
  | .getLatest _ | .download _ | .readVar _ | .currentExe | .isFile _ | .pathExists _
  | .dataLocalDir | .tempDir | .applicationsWritable | .readFile _ => false
  | _ => true

/-- What an install step may do with verified bytes: write nothing else, and
start the Windows installer only as it was read back from the disk. -/
structure Permitted (history : List UpdateEvent) (asset : ReleaseAsset) (bytes : List UInt8)
    (action : UpdateEffect) : Prop where
  verified : Verified crates host apiBase history asset bytes
  written : ∀ path data, action = .writeAll path data → data = bytes
  reread : ∀ path args breakaway, action = .spawnInstaller path args breakaway →
    ∃ expected onDisk, asset.sha256 = some expected ∧
      ⟨.readFile path, .ok onDisk⟩ ∈ history ∧
      NamesDigest expected (crates.sha256 onDisk).val

def gateAllows (history : List UpdateEvent) (action : UpdateEffect) : Prop :=
  action.installs = true ∨ Downloaded history →
    ∃ asset bytes, Permitted crates host apiBase history asset bytes action

abbrev gate {α : Type} (finished : List UpdateEvent → α → Prop) :
    Protocol UpdateEffect UpdateEffect.Reply (List UpdateEvent) α :=
  historyProtocol (gateAllows crates host apiBase) finished

variable {crates host apiBase}

theorem sha256Matches_namesDigest {bytes : List UInt8} {expected : String}
    (matching : sha256Matches crates bytes expected = true) :
    NamesDigest expected (crates.sha256 bytes).val := by
  obtain ⟨count, atExpected⟩ := trimStartPattern_split "sha256:".toList expected.toList
  exact ⟨count, _, atExpected, matching⟩

theorem Offered.append {history : List UpdateEvent} {asset : ReleaseAsset}
    (offered : Offered crates host apiBase history asset) (more : List UpdateEvent) :
    Offered crates host apiBase (history ++ more) asset := by
  obtain ⟨response, release, fetched, rest⟩ := offered
  exact ⟨response, release, List.mem_append_left more fetched, rest⟩

theorem Verified.append {history : List UpdateEvent} {asset : ReleaseAsset} {bytes : List UInt8}
    (verified : Verified crates host apiBase history asset bytes) (more : List UpdateEvent) :
    Verified crates host apiBase (history ++ more) asset bytes := by
  obtain ⟨response, answered, rest⟩ := verified.downloaded
  exact
    { offered := verified.offered.append more
      downloaded := ⟨response, List.mem_append_left more answered, rest⟩
      matching := verified.matching
      carried := verified.carried }

def UpdateEffect.looks : UpdateEffect → Prop
  | .getLatest _ | .readVar _ | .currentExe | .isFile _ | .pathExists _ => True
  | _ => False

private theorem gateAllows_looks {history : List UpdateEvent} {action : UpdateEffect}
    (undownloaded : ¬ Downloaded history) (looks : action.looks) :
    gateAllows crates host apiBase history action := by
  rintro (installs | downloaded)
  · cases action <;> first | exact False.elim looks | exact nomatch installs
  · exact absurd downloaded undownloaded

private theorem undownloaded_append {history : List UpdateEvent} {action : UpdateEffect}
    {reply : action.Reply} (undownloaded : ¬ Downloaded history) (looks : action.looks) :
    ¬ Downloaded (history ++ [⟨action, reply⟩]) := by
  rintro ⟨event, member, url, isDownload⟩
  rcases List.mem_append.mp member with earlier | last
  · exact undownloaded ⟨event, earlier, url, isDownload⟩
  · rw [List.mem_singleton.mp last] at isDownload
    change action = .download url at isDownload
    subst isDownload
    cases looks

private theorem looks_conform {α : Type} {program : UpdateProgram α} {history : List UpdateEvent}
    {finished : List UpdateEvent → α → Prop} (looks : program.Only UpdateEffect.looks)
    (Keeps : List UpdateEvent → Prop)
    (kept : ∀ history event, Keeps history → Keeps (history ++ [event]))
    (ends : ∀ history result, ¬ Downloaded history → Keeps history → finished history result)
    (undownloaded : ¬ Downloaded history) (holds : Keeps history) :
    program.Conforms (gate crates host apiBase finished) history := by
  apply looks.conforms_of_invariant fun history => ¬ Downloaded history ∧ Keeps history
  · intro history action inv isLook
    exact gateAllows_looks inv.1 isLook
  · intro history action reply inv isLook
    exact ⟨undownloaded_append inv.1 isLook, kept history _ inv.2⟩
  · intro history result inv
    exact ends history result inv.1 inv.2
  · exact ⟨undownloaded, holds⟩

private theorem ownAppimage_looks : ownAppimage.Only UpdateEffect.looks :=
  ownAppimage_findsImage.mono fun action finds => by
    cases action <;> first | exact finds | exact finds.elim

private theorem skipsUpdateCheck_looks : (skipsUpdateCheck host).Only UpdateEffect.looks := by
  unfold skipsUpdateCheck
  cases host.os with
  | macos =>
      refine ⟨trivial, fun exe => ?_⟩
      cases exe with
      | error _ => trivial
      | ok exe => exact ⟨trivial, fun _ => trivial⟩
  | linux => trivial
  | windows => trivial
  | other name unlisted => trivial

private theorem selectUpdate_conforms {assets : List ReleaseAsset} {history : List UpdateEvent}
    {finished : List UpdateEvent → Option SelectedUpdate → Prop} (Keeps : List UpdateEvent → Prop)
    (kept : ∀ history event, Keeps history → Keeps (history ++ [event]))
    (nothing : ∀ history, ¬ Downloaded history → finished history none)
    (found : ∀ history asset, ¬ Downloaded history → Keeps history →
      assetFor host assets = some asset → finished history (some (selected asset)))
    (undownloaded : ¬ Downloaded history) (holds : Keeps history) :
    (selectUpdate host assets).Conforms (gate crates host apiBase finished) history := by
  have answered : ∀ history, ¬ Downloaded history → Keeps history → ∀ asset : Option ReleaseAsset,
      assetFor host assets = asset → finished history (asset.map selected) := by
    intro history undownloaded holds asset isAsset
    cases asset with
    | none => exact nothing history undownloaded
    | some one => exact found history one undownloaded holds isAsset
  unfold selectUpdate
  cases os : host.os with
  | linux =>
      rw [Prog.conforms_bind]
      refine looks_conform ownAppimage_looks Keeps kept (fun history appimage undownloaded holds => ?_)
        undownloaded holds
      cases appimage with
      | none => exact nothing history undownloaded
      | some _ => exact answered history undownloaded holds _ (by simp only [assetFor, os])
  | windows =>
      cases tag : windowsArchTag host.arch with
      | none => exact nothing history undownloaded
      | some archTag =>
          refine answered history undownloaded holds _ ?_
          simp only [assetFor, os, tag, Option.bind_some]
  | macos =>
      cases tags : hostArchTags host.arch with
      | none => exact nothing history undownloaded
      | some pair =>
          refine answered history undownloaded holds _ ?_
          simp only [assetFor, os, tags, Option.bind_some]
  | other name unlisted => exact nothing history undownloaded

theorem checkForUpdatesInternal_conforms {history : List UpdateEvent}
    {finished : List UpdateEvent → Except String (Option SelectedUpdate) → Prop}
    (refused : ∀ history result, ¬ Downloaded history → (∀ update, result ≠ .ok (some update)) →
      finished history result)
    (offered : ∀ history asset, ¬ Downloaded history → Offered crates host apiBase history asset →
      finished history (.ok (some (selected asset))))
    (undownloaded : ¬ Downloaded history) :
    (checkForUpdatesInternal crates host apiBase).Conforms (gate crates host apiBase finished)
      history := by
  unfold checkForUpdatesInternal
  rw [Prog.perform_bind, Prog.conforms_act]
  refine ⟨gateAllows_looks undownloaded trivial, fun reply => ?_⟩
  have later : ¬ Downloaded (history ++ [⟨_, reply⟩]) := undownloaded_append undownloaded trivial
  cases reply with
  | error e => exact refused _ _ later (fun _ same => nomatch same)
  | ok response =>
      dsimp only
      by_cases success : response.isSuccess = true
      · rw [if_neg (by simp [success])]
        cases body : response.body with
        | error e => exact refused _ _ later (fun _ same => nomatch same)
        | ok release =>
            dsimp only
            cases current : crates.parseVersion (normalizedVersion host.currentVersion) with
            | none => exact refused _ _ later (fun _ same => nomatch same)
            | some currentSemver =>
                cases new : crates.parseVersion (normalizedVersion release.version) with
                | none => exact refused _ _ later (fun _ same => nomatch same)
                | some releaseSemver =>
                    dsimp only
                    by_cases newer : crates.versionLt currentSemver releaseSemver = true
                    · rw [if_pos newer, Prog.conforms_bind]
                      apply selectUpdate_conforms fun history =>
                        ⟨.getLatest (apiBase ++ "/klaayguard/updates/latest"), .ok response⟩ ∈ history
                      · exact fun history event fetched => List.mem_append_left [event] fetched
                      · exact fun history undownloaded =>
                          refused history _ undownloaded (fun _ same => nomatch same)
                      · intro history asset undownloaded fetched isAsset
                        exact offered history asset undownloaded
                          ⟨response, release, fetched, success, body,
                            ⟨currentSemver, releaseSemver, current, new, newer⟩, isAsset⟩
                      · exact later
                      · exact List.mem_append_right history List.mem_cons_self
                    · rw [if_neg newer]
                      exact refused _ _ later (fun _ same => nomatch same)
      · rw [if_pos (by simp [success])]
        exact refused _ _ later (fun _ same => nomatch same)

/-! ### The install steps -/

def UpdateEffect.handles (bytes : List UInt8) : UpdateEffect → Prop
  | .writeAll _ data => data = bytes
  | .spawnInstaller _ _ _ => False
  | _ => True

private theorem gateAllows_handles {history : List UpdateEvent} {asset : ReleaseAsset}
    {bytes : List UInt8} {action : UpdateEffect}
    (verified : Verified crates host apiBase history asset bytes)
    (handles : action.handles bytes) : gateAllows crates host apiBase history action := by
  intro _
  refine ⟨asset, bytes, verified, ?_, ?_⟩
  · rintro path data rfl
    exact handles
  · rintro path args breakaway rfl
    exact False.elim handles

private theorem handles_conform {α : Type} {program : UpdateProgram α} {history : List UpdateEvent}
    {asset : ReleaseAsset} {bytes : List UInt8} {finished : List UpdateEvent → α → Prop}
    (handles : program.Only (UpdateEffect.handles bytes))
    (ends : ∀ history result, Verified crates host apiBase history asset bytes →
      finished history result)
    (verified : Verified crates host apiBase history asset bytes) :
    program.Conforms (gate crates host apiBase finished) history := by
  apply handles.conforms_of_invariant fun history => Verified crates host apiBase history asset bytes
  · intro history action inv isHandled
    exact gateAllows_handles inv isHandled
  · intro history action reply inv _
    exact inv.append _
  · intro history result inv
    exact ends history result inv
  · exact verified

private theorem handles_of_looks (bytes : List UInt8) (action : UpdateEffect)
    (looks : action.looks) : action.handles bytes := by
  cases action <;> first | exact False.elim looks | trivial

private theorem openStaged_handles (staged : String) (bytes : List UInt8) :
    (openStaged staged).Only (UpdateEffect.handles bytes) := by
  refine ⟨trivial, fun opened => ?_⟩
  cases opened with
  | ok _ => trivial
  | error e =>
      cases e with
      | other _ => trivial
      | alreadyExists =>
          refine ⟨trivial, fun _ => ⟨trivial, fun again => ?_⟩⟩
          cases again with
          | ok _ => trivial
          | error e => cases e <;> trivial

private theorem writeAndSync_handles (staged : String) (bytes : List UInt8) :
    (writeAndSync staged bytes).Only (UpdateEffect.handles bytes) := by
  refine ⟨rfl, fun written => ?_⟩
  cases written with
  | error _ => trivial
  | ok _ =>
      refine ⟨trivial, fun synced => ?_⟩
      cases synced with
      | error _ => trivial
      | ok _ => exact ⟨trivial, fun _ => trivial⟩

private theorem installAppimageUpdate_handles (bytes : List UInt8) :
    (installAppimageUpdate host bytes).Only (UpdateEffect.handles bytes) := by
  unfold installAppimageUpdate
  apply (ownAppimage_looks.mono (handles_of_looks bytes)).bind
  intro appimage
  cases appimage with
  | none => trivial
  | some target =>
      apply (openStaged_handles _ bytes).bind
      intro opened
      cases opened with
      | error _ => trivial
      | ok _ =>
          apply (writeAndSync_handles _ bytes).bind
          intro written
          cases written with
          | error _ => exact ⟨trivial, fun _ => trivial⟩
          | ok _ =>
              refine ⟨trivial, fun renamed => ?_⟩
              cases renamed with
              | error _ => exact ⟨trivial, fun _ => trivial⟩
              | ok _ =>
                  refine ⟨trivial, fun _ => ⟨trivial, fun spawned => ?_⟩⟩
                  cases spawned with
                  | error _ => trivial
                  | ok _ => exact ⟨trivial, fun _ => trivial⟩

private theorem installDmgUpdate_handles (bytes : List UInt8) :
    (installDmgUpdate host bytes).Only (UpdateEffect.handles bytes) := by
  refine ⟨trivial, fun writable => ?_⟩
  cases writable with
  | false => trivial
  | true =>
      refine ⟨trivial, fun tempDir => ⟨trivial, fun created => ?_⟩⟩
      cases created with
      | error _ => trivial
      | ok _ =>
          refine ⟨rfl, fun written => ?_⟩
          cases written with
          | error _ => trivial
          | ok _ => exact ⟨trivial, fun _ => trivial⟩

private theorem writeInstaller_handles (staged : String) (bytes : List UInt8) :
    (writeInstaller staged bytes).Only (UpdateEffect.handles bytes) := by
  refine ⟨trivial, fun created => ?_⟩
  cases created with
  | error _ => trivial
  | ok _ =>
      refine ⟨rfl, fun written => ?_⟩
      cases written with
      | error _ => trivial
      | ok _ => exact ⟨trivial, fun _ => trivial⟩

private theorem launchInstaller_conforms {history : List UpdateEvent} {asset : ReleaseAsset}
    {bytes onDisk : List UInt8} {staged expected : String}
    {finished : List UpdateEvent → Except String Unit → Prop}
    (verified : Verified crates host apiBase history asset bytes)
    (carried : asset.sha256 = some expected)
    (reread : ⟨.readFile staged, .ok onDisk⟩ ∈ history)
    (matching : sha256Matches crates onDisk expected = true)
    (ends : ∀ history result, Verified crates host apiBase history asset bytes →
      finished history result) :
    (launchInstaller staged).Conforms (gate crates host apiBase finished) history := by
  have started : ∀ more args breakaway, gateAllows crates host apiBase (history ++ more)
      (.spawnInstaller staged args breakaway) := by
    intro more args breakaway _
    refine ⟨asset, bytes, verified.append more, fun path data same => (nomatch same), ?_⟩
    rintro path args breakaway same
    cases same
    exact ⟨expected, onDisk, carried, List.mem_append_left more reread,
      sha256Matches_namesDigest matching⟩
  have first := started [] windowsInstallerArgs true
  rw [List.append_nil] at first
  refine ⟨first, fun spawned => ?_⟩
  cases spawned with
  | ok _ => exact ends _ _ (verified.append _)
  | error _ =>
      refine ⟨started _ windowsInstallerArgs false, fun again => ?_⟩
      exact ends _ _ ((verified.append _).append _)

private theorem installWindowsUpdate_conforms {history : List UpdateEvent} {asset : ReleaseAsset}
    {bytes : List UInt8} (verified : Verified crates host apiBase history asset bytes) :
    (installWindowsUpdate crates bytes asset.sha256).Conforms
      (gate crates host apiBase fun _ _ => True) history := by
  have done : ∀ {α : Type} {program : UpdateProgram α} {history : List UpdateEvent},
      Verified crates host apiBase history asset bytes →
      program.Only (UpdateEffect.handles bytes) →
      program.Conforms (gate crates host apiBase fun _ _ => True) history := fun verified handles =>
    handles_conform handles (fun _ _ _ => trivial) verified
  unfold installWindowsUpdate
  cases carried : asset.sha256 with
  | none => trivial
  | some expected =>
      refine ⟨gateAllows_handles verified trivial, fun dataLocal => ?_⟩
      cases dataLocal with
      | none => trivial
      | some dataLocal =>
          refine ⟨gateAllows_handles (verified.append _) trivial, fun created => ?_⟩
          cases created with
          | error _ => trivial
          | ok _ =>
              refine ⟨gateAllows_handles ((verified.append _).append _) trivial, fun _ => ?_⟩
              change Prog.Conforms _ _ (writeInstaller _ bytes >>= _)
              rw [Prog.conforms_bind]
              refine handles_conform (writeInstaller_handles _ bytes) ?_
                (((verified.append _).append _).append _)
              intro history written verified
              cases written with
              | error _ => exact done verified ⟨trivial, fun _ => trivial⟩
              | ok _ =>
                  refine ⟨gateAllows_handles verified trivial, fun onDisk => ?_⟩
                  cases onDisk with
                  | error _ => trivial
                  | ok onDisk =>
                      change Prog.Conforms _ _
                        (if (!sha256Matches crates onDisk expected) = true then _ else _)
                      by_cases matching : sha256Matches crates onDisk expected = true
                      · rw [if_neg (by simp [matching]), Prog.conforms_bind]
                        apply launchInstaller_conforms (verified.append _) carried
                          (List.mem_append_right history List.mem_cons_self) matching
                        intro history launched verified
                        cases launched with
                        | error _ => trivial
                        | ok _ => exact done verified ⟨trivial, fun _ => trivial⟩
                      · rw [if_pos (by simp [matching])]
                        exact done (verified.append _) ⟨trivial, fun _ => trivial⟩

private theorem installUpdate_conforms {history : List UpdateEvent} {asset : ReleaseAsset}
    {bytes : List UInt8} (verified : Verified crates host apiBase history asset bytes) :
    (installUpdate crates host bytes asset.sha256).Conforms
      (gate crates host apiBase fun _ _ => True) history := by
  unfold installUpdate
  cases host.os with
  | linux =>
      exact handles_conform (installAppimageUpdate_handles bytes) (fun _ _ _ => trivial) verified
  | windows => exact installWindowsUpdate_conforms verified
  | macos => exact handles_conform (installDmgUpdate_handles bytes) (fun _ _ _ => trivial) verified
  | other name unlisted => trivial

private theorem updateRequiresChecksum_name (os : Os) :
    updateRequiresChecksum os.name = true ↔ os ≠ .macos := by
  cases os with
  | linux => decide
  | windows => decide
  | macos => decide
  | other name unlisted =>
      have differs : name ≠ "macos" := by
        rintro rfl
        exact unlisted (by decide)
      simp [updateRequiresChecksum, Os.name, differs]

theorem downloadAndInstallUpdateInternal_conforms {history : List UpdateEvent}
    {asset : ReleaseAsset} (undownloaded : ¬ Downloaded history)
    (offered : Offered crates host apiBase history asset) :
    (downloadAndInstallUpdateInternal crates host apiBase (toString asset.id)
      asset.sha256).Conforms (gate crates host apiBase fun _ _ => True) history := by
  unfold downloadAndInstallUpdateInternal
  rw [Prog.perform_bind, Prog.conforms_act]
  constructor
  · rintro (installs | downloaded)
    · cases installs
    · exact absurd downloaded undownloaded
  · intro reply
    cases reply with
    | error _ => trivial
    | ok response =>
        dsimp only
        by_cases success : response.isSuccess = true
        · rw [if_neg (by simp [success])]
          cases body : response.body with
          | error _ => trivial
          | ok bytes =>
              dsimp only
              have verified : (∀ expected, asset.sha256 = some expected →
                  sha256Matches crates bytes expected = true) →
                  (host.os ≠ .macos → asset.sha256.isSome = true) →
                  Verified crates host apiBase (history ++ [⟨.download (apiBase ++
                    "/klaayguard/download/" ++ toString asset.id), .ok response⟩]) asset bytes :=
                fun matching carried =>
                  { offered := offered.append _
                    downloaded := ⟨response, List.mem_append_right history List.mem_cons_self,
                      success, body⟩
                    matching := fun expected isExpected =>
                      sha256Matches_namesDigest (matching expected isExpected)
                    carried := carried }
              cases carried : asset.sha256 with
              | none =>
                  dsimp only
                  by_cases requires : updateRequiresChecksum host.os.name = true
                  · rw [if_pos requires]
                    trivial
                  · rw [if_neg requires, ← carried]
                    apply installUpdate_conforms
                    apply verified
                    · intro expected isExpected
                      rw [carried] at isExpected
                      cases isExpected
                    · intro notMacos
                      exact absurd ((updateRequiresChecksum_name host.os).mpr notMacos) requires
              | some expected =>
                  dsimp only
                  by_cases matching : sha256Matches crates bytes expected = true
                  · rw [if_neg (by simp [matching]), ← carried]
                    apply installUpdate_conforms
                    apply verified
                    · intro other isOther
                      rw [carried] at isOther
                      cases isOther
                      exact matching
                    · intro _
                      rw [carried]
                      rfl
                  · rw [if_pos (by simp [matching])]
                    trivial
        · rw [if_pos (by simp [success])]
          trivial

/-! ### The whole update check -/

theorem runUpdateCheck_conforms :
    (runUpdateCheck crates host apiBase).Conforms
      (gate crates host apiBase fun _ _ => True) [] := by
  have nothing : ¬ Downloaded [] := by
    rintro ⟨event, member, _⟩
    cases member
  unfold runUpdateCheck
  rw [Prog.conforms_bind]
  refine looks_conform skipsUpdateCheck_looks (fun _ => True) (fun _ _ _ => trivial) ?_ nothing
    trivial
  intro history skips undownloaded _
  cases skips with
  | true => trivial
  | false =>
      change Prog.Conforms _ _ (checkForUpdatesInternal crates host apiBase >>= _)
      rw [Prog.conforms_bind]
      apply checkForUpdatesInternal_conforms
      · intro history result _ refused
        cases result with
        | error _ => trivial
        | ok update =>
            cases update with
            | none => trivial
            | some update => exact absurd rfl (refused update)
      · intro history asset undownloaded offered
        change Prog.Conforms _ _ (downloadAndInstallUpdateInternal crates host apiBase
          (toString asset.id) asset.sha256 >>= _)
        rw [Prog.conforms_bind]
        exact downloadAndInstallUpdateInternal_conforms undownloaded offered
      · exact undownloaded

/-- Nothing outside the process is held to any reply. -/
def anyReply (_ : Unit) (action : UpdateEffect) (_ : action.Reply) (_ : Unit) : Prop := True

abbrev UpdateRun (crates : UpdateCrates Version) (host : UpdateHost) (apiBase : String)
    (events : List UpdateEvent) : Prop :=
  Prog.Begins anyReply (runUpdateCheck crates host apiBase) () events ()

private theorem reply_exists (action : UpdateEffect) : Nonempty action.Reply := by
  cases action with
  | createNew path => exact ⟨.ok ()⟩
  | readVar name => exact ⟨none⟩
  | dataLocalDir => exact ⟨none⟩
  | isFile path => exact ⟨false⟩
  | pathExists path => exact ⟨false⟩
  | applicationsWritable => exact ⟨false⟩
  | tempDir => exact ⟨""⟩
  | syncParentDir path => exact ⟨()⟩
  | exit => exact ⟨()⟩
  | _ => exact ⟨.error ""⟩

/-- Whatever the replies, an action of an install step, or any action after the
download, comes after the whole chain from a newer release to a matching
checksum; and the check always goes on to its end. -/
theorem runUpdateCheck_gated (crates : UpdateCrates Version) (host : UpdateHost)
    (apiBase : String) :
    (∀ before event after, UpdateRun crates host apiBase (before ++ event :: after) →
      event.action.installs = true ∨ Downloaded before →
      ∃ asset bytes, Permitted crates host apiBase before asset bytes event.action) ∧
    ∀ events, UpdateRun crates host apiBase events →
      ∃ more,
        Prog.Runs anyReply (runUpdateCheck crates host apiBase) () (events ++ more) () () := by
  constructor
  · intro before event after run acts
    exact runUpdateCheck_conforms.allowed run acts
  · intro events run
    have replies : ∀ (state : Unit) (action : UpdateEffect), ∃ reply after,
        anyReply state action reply after := by
      intro state action
      obtain ⟨reply⟩ := reply_exists action
      exact ⟨reply, (), trivial⟩
    obtain ⟨more, _, _, finished⟩ := run.completes replies
    exact ⟨more, finished⟩

/-! A release that is offered under a tag with a leading `v`, with its checksum
under two prefixes. -/

/-- Versions of three plain numbers, as the semver crate reads and orders them. -/
private def plainVersion (text : String) : Option (Nat × Nat × Nat) :=
  match text.toList.splitOnP (· == '.') with
  | [major, minor, patch] =>
      if [major, minor, patch].all fun part =>
          part ≠ [] && part.all isAsciiDigit && (part == ['0'] || part.head? != some '0') then
        some (decimalValue major, decimalValue minor, decimalValue patch)
      else none
  | _ => none

private def plainVersionLt (left right : Nat × Nat × Nat) : Bool :=
  left.1 < right.1 || left.1 == right.1 &&
    (left.2.1 < right.2.1 || left.2.1 == right.2.1 && left.2.2 < right.2.2)

/-- The first bytes of an installer, in place of a whole one, and their digest. -/
private def installerBytes : List UInt8 := [0x4d, 0x5a]

private def installerDigest : List UInt8 :=
  [0x9b, 0x8d, 0xb5, 0x10, 0xef, 0x42, 0xb8, 0xed, 0x54, 0xa3, 0x71, 0x26, 0x36, 0xfd, 0xa5, 0x5a,
    0x4f, 0x8c, 0xfc, 0xd5, 0x49, 0x3e, 0x20, 0xb7, 0x4a, 0xb0, 0x0c, 0xd4, 0xf3, 0x97, 0x9f, 0x2d]

private def plainCrates : UpdateCrates (Nat × Nat × Nat) :=
  { parseVersion := plainVersion
    versionLt := plainVersionLt
    sha256
      | [0x4d, 0x5a] => ⟨installerDigest, rfl⟩
      | _ => ⟨List.replicate 32 0xff, rfl⟩ }

private def windowsHost : UpdateHost :=
  { os := .windows, arch := "x86_64", currentVersion := "0.1.12", pid := 4711 }

private def taggedAsset : ReleaseAsset :=
  { id := 7, name := "Windows Installer"
    originalName := some "KlaayGuard_0.2.0_Windows_x64_production.exe"
    sha256 := some
      "sha256:sha256:9b8db510ef42b8ed54a3712636fda55a4f8cfcd5493e20b74ab00cd4f3979f2d" }

private def taggedRelease : ReleaseInfo := { version := "v0.2.0", assets := [taggedAsset] }

private def stagedInstaller : String := "C:\\Local\\com.klaay.app\\updates\\KlaayGuard-update.exe"

private def beforeSpawn : List UpdateEvent :=
  [⟨.getLatest "https://api.klaay.com/klaayguard/updates/latest",
      .ok { status := 200, statusText := "200 OK", body := .ok taggedRelease }⟩,
    ⟨.download "https://api.klaay.com/klaayguard/download/7",
      .ok { status := 200, statusText := "200 OK", body := .ok installerBytes }⟩,
    ⟨.dataLocalDir, some "C:\\Local"⟩,
    ⟨.createDirAll "C:\\Local\\com.klaay.app\\updates", .ok ()⟩,
    ⟨.removeFile stagedInstaller, .error "not found"⟩, ⟨.createFile stagedInstaller, .ok ()⟩,
    ⟨.writeAll stagedInstaller installerBytes, .ok ()⟩, ⟨.syncAll stagedInstaller, .ok ()⟩,
    ⟨.readFile stagedInstaller, .ok installerBytes⟩]

private def spawned : UpdateEvent :=
  ⟨.spawnInstaller stagedInstaller ["/S", "/UPDATE", "/R"] true, .ok ()⟩

private theorem next_event {α : Type} {action : UpdateEffect} {reply : action.Reply}
    {next : action.Reply → UpdateProgram α} {events : List UpdateEvent}
    (rest : Prog.Begins anyReply (next reply) () events ()) :
    Prog.Begins anyReply (.act action next) () (⟨action, reply⟩ :: events) () :=
  .act trivial rest

private theorem taggedRun :
    UpdateRun plainCrates windowsHost "https://api.klaay.com" (beforeSpawn ++ [spawned]) :=
  next_event <| next_event <| next_event <| next_event <| next_event <| next_event <|
    next_event <| next_event <| next_event <| next_event <| .here _ _

theorem runUpdateCheck_gated_tagged :
    ∃ asset bytes, Permitted plainCrates windowsHost "https://api.klaay.com" beforeSpawn asset bytes
      spawned.action :=
  (runUpdateCheck_gated plainCrates windowsHost "https://api.klaay.com").1 beforeSpawn spawned []
    taggedRun (Or.inl rfl)

/-- The tag itself is no semantic version, and the checksum field is neither the
digest nor the digest after one prefix; yet the installer is started. -/
theorem runUpdateCheck_strict_fails :
    (¬ ∀ before event after, UpdateRun plainCrates windowsHost "https://api.klaay.com"
        (before ++ event :: after) → event.action.installs = true →
      ∃ response release new, ⟨.getLatest "https://api.klaay.com/klaayguard/updates/latest",
          .ok response⟩ ∈ before ∧ response.body = .ok release ∧
        plainCrates.parseVersion release.version = some new) ∧
    ¬ ∀ before event after, UpdateRun plainCrates windowsHost "https://api.klaay.com"
        (before ++ event :: after) → event.action.installs = true →
      ∃ asset bytes expected hex, Verified plainCrates windowsHost "https://api.klaay.com" before
          asset bytes ∧ asset.sha256 = some expected ∧
        (expected.toList = hex ∨ expected.toList = "sha256:".toList ++ hex) ∧
        eqIgnoreAsciiCase (hexLower (plainCrates.sha256 bytes).val).toList hex = true := by
  have onlyRelease : ∀ response release,
      ⟨.getLatest "https://api.klaay.com/klaayguard/updates/latest", .ok response⟩ ∈ beforeSpawn →
      response.body = .ok release → release = taggedRelease := by
    intro response release fetched body
    rcases List.mem_cons.mp fetched with same | later
    · cases same
      cases body
      rfl
    · have acted : UpdateEffect.getLatest _ ∈ beforeSpawn.tail.map Event.action :=
        List.mem_map.mpr ⟨_, later, rfl⟩
      simp [beforeSpawn] at acted
  constructor
  · intro claim
    obtain ⟨response, release, new, fetched, body, parsed⟩ :=
      claim beforeSpawn spawned [] taggedRun rfl
    rw [onlyRelease response release fetched body] at parsed
    have unparsed : plainCrates.parseVersion taggedRelease.version = none := by decide
    rw [unparsed] at parsed
    cases parsed
  · intro claim
    obtain ⟨asset, bytes, expected, hex, verified, carried, form, same⟩ :=
      claim beforeSpawn spawned [] taggedRun rfl
    obtain ⟨response, release, fetched, _, body, _, isAsset⟩ := verified.offered
    rw [onlyRelease response release fetched body] at isAsset
    have tagged : assetFor windowsHost taggedRelease.assets = some taggedAsset := by decide
    rw [tagged] at isAsset
    cases isAsset
    cases carried
    have length := length_eq_of_eqIgnoreAsciiCase same
    rw [hexLower_length, (plainCrates.sha256 bytes).property] at length
    rcases form with form | form
    · have longer := congrArg List.length form
      rw [← length] at longer
      exact absurd longer (by decide)
    · have longer := congrArg List.length form
      rw [List.length_append, ← length] at longer
      exact absurd longer (by decide)

end KlaayGuard
