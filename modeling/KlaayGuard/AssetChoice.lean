/-
Which asset of a release the update picks for its host.

An artifact's file name has its platform and its architecture between underscores.  The
selectors look for the two as a part of the name, so an architecture that the wanted one
begins is taken for it; and the selector for macOS takes the first asset that its label
or its name speaks for, whichever comes first.
-/

import KlaayGuard.Library.RustIter
import KlaayGuard.Update

set_option autoImplicit false

namespace KlaayGuard

open RustIter RustText

/-- `KlaayGuard_<version>_<platform>_<arch>_<variant>.<ext>`, with fields that can be told
apart: an underscore only in the architecture, and no dot in the extension. -/
structure ArtifactName : Type where
  version : List Char
  platform : List Char
  arch : List Char
  variant : List Char
  ext : List Char
  versionPlain : '_' ∉ version
  platformPlain : '_' ∉ platform
  variantPlain : '_' ∉ variant
  extPlain : '_' ∉ ext ∧ '.' ∉ ext

namespace ArtifactName

def product : List Char := "KlaayGuard_".toList

def lead (name : ArtifactName) : List Char :=
  product ++ name.version ++ '_' :: name.platform

def trail (name : ArtifactName) : List Char := name.variant ++ '.' :: name.ext

def text (name : ArtifactName) : List Char :=
  name.lead ++ '_' :: (name.arch ++ '_' :: name.trail)

theorem trail_plain (name : ArtifactName) : '_' ∉ name.trail := by
  intro member
  rcases List.mem_append.mp member with inVariant | behind
  · exact name.variantPlain inVariant
  · rcases List.mem_cons.mp behind with dot | inExt
    · cases dot
    · exact name.extPlain.1 inExt

theorem text_inj {name other : ArtifactName} (same : name.text = other.text) : name = other := by
  have regroup : ∀ n : ArtifactName, n.text =
      (product ++ (n.version ++ '_' :: (n.platform ++ '_' :: n.arch))) ++
        '_' :: n.trail := by
    intro n
    simp [text, lead]
  rw [regroup, regroup] at same
  obtain ⟨fronts, trails⟩ := cut_inj_right name.trail_plain other.trail_plain same
  have fields := List.append_cancel_left fronts
  obtain ⟨versions, rests⟩ := cut_inj name.versionPlain other.versionPlain fields
  obtain ⟨platforms, archs⟩ := cut_inj name.platformPlain other.platformPlain rests
  obtain ⟨variants, exts⟩ := cut_inj_right name.extPlain.2 other.extPlain.2 trails
  cases name
  cases other
  simp only [ArtifactName.mk.injEq]
  exact ⟨versions, platforms, archs, variants, exts⟩

theorem endsWith_text (name : ArtifactName) {ext : List Char} (plain : '.' ∉ ext) :
    endsWith name.text ('.' :: ext) = true ↔ name.ext = ext := by
  have regroup : name.text =
      (name.lead ++ '_' :: (name.arch ++ '_' :: name.variant)) ++ '.' :: name.ext := by
    simp [text, trail]
  rw [endsWith, List.isSuffixOf_iff_suffix, regroup]
  constructor
  · rintro ⟨front, whole⟩
    exact (cut_inj_right plain name.extPlain.2 whole).2.symm
  · rintro rfl
    exact List.suffix_append _ _

end ArtifactName

structure NamedAsset : Type where
  asset : ReleaseAsset
  artifact : Option ArtifactName
  named : asset.originalName = artifact.map fun name => String.ofList name.text

def Fits (platform arch ext : String) (name : ArtifactName) : Prop :=
  name.platform = platform.toList ∧ name.arch = arch.toList ∧ name.ext = ext.toList

def Taken (platform arch ext : String) (name : ArtifactName) : Prop :=
  name.ext = ext.toList ∧ contains name.text (platform ++ "_" ++ arch).toList = true

def SelectsFitting (selection : Option ReleaseAsset) (platform arch ext : String) : Prop :=
  ∀ asset, selection = some asset → ∀ name : ArtifactName,
    asset.originalName = some (String.ofList name.text) → Fits platform arch ext name

variable (manifest : List NamedAsset)

def SomeFits (platform arch ext : String) (assets : List NamedAsset) : Prop :=
  ∃ asset ∈ assets, ∃ name ∈ asset.artifact, Fits platform arch ext name

/-- What the update picks is for this host, and a label decides only where no real name does. -/
def ChoiceFits (arch label : String) : Prop :=
  let assets := manifest.map NamedAsset.asset
  SelectsFitting (selectAppimageAsset assets arch) "Linux" arch "AppImage" ∧
    SelectsFitting (selectWindowsInstallerAsset assets arch) "Windows" arch "exe" ∧
    SelectsFitting (selectDmgAsset assets ("macOS_" ++ arch) label) "macOS" arch "dmg" ∧
    ∀ asset, selectDmgAsset assets ("macOS_" ++ arch) label = some asset →
      asset.originalName = none → ¬ SomeFits "macOS" arch "dmg" manifest

def FittingFirst (platform arch ext : String) : Prop :=
  ∀ front wrong back, manifest = front ++ wrong :: back →
    (∃ name ∈ wrong.artifact, Taken platform arch ext name ∧ ¬ Fits platform arch ext name) →
    SomeFits platform arch ext front

def Labelled (label : String) (asset : NamedAsset) : Prop :=
  asset.artifact = none ∧ contains asset.asset.name.toList label.toList = true

/-- The same for macOS, where a label counts too: it must come behind an asset that fits,
where there is one, and it may come before one that is taken without fitting, where
there is none. -/
def DmgFirst (arch label : String) : Prop :=
  ∀ front wrong back, manifest = front ++ wrong :: back →
    ((∃ name ∈ wrong.artifact, Taken "macOS" arch "dmg" name ∧ ¬ Fits "macOS" arch "dmg" name) →
      SomeFits "macOS" arch "dmg" front ∨
        (¬ SomeFits "macOS" arch "dmg" manifest ∧ ∃ asset ∈ front, Labelled label asset)) ∧
    (Labelled label wrong → SomeFits "macOS" arch "dmg" manifest →
      SomeFits "macOS" arch "dmg" front)

variable {manifest}

theorem taken_of_fits {platform arch ext : String} {name : ArtifactName}
    (fits : Fits platform arch ext name) : Taken platform arch ext name := by
  obtain ⟨platforms, archs, exts⟩ := fits
  have tag : (platform ++ "_" ++ arch).toList = platform.toList ++ '_' :: arch.toList := by
    simp [String.toList_append]
  have whole : name.text = (ArtifactName.product ++ name.version ++ ['_']) ++
      (platform.toList ++ '_' :: arch.toList) ++ '_' :: name.trail := by
    rw [ArtifactName.text, ArtifactName.lead, platforms, archs]
    simp only [List.append_assoc, List.cons_append, List.nil_append]
  rw [Taken, tag]
  exact ⟨exts, contains_iff_occurs.mpr ⟨_, _, whole.symm⟩⟩

theorem any_named (asset : NamedAsset) (test : String → Bool) :
    asset.asset.originalName.any test = true ↔
      ∃ name ∈ asset.artifact, test (String.ofList name.text) = true := by
  rw [asset.named]
  cases asset.artifact <;> simp

theorem tested_iff {platform ext : String} (arch : String) (plain : '.' ∉ ext.toList)
    (name : ArtifactName) :
    (endsWith (String.ofList name.text).toList ("." ++ ext).toList &&
        contains (String.ofList name.text).toList (platform ++ "_" ++ arch).toList) = true ↔
      Taken platform arch ext name := by
  have suffix : ("." ++ ext).toList = '.' :: ext.toList := by
    rw [String.toList_append]
    rfl
  rw [Bool.and_eq_true, String.toList_ofList, suffix, ArtifactName.endsWith_text name plain,
    Taken]

theorem selectsFitting_map_iff {platform arch ext : String} {selection : Option NamedAsset} :
    SelectsFitting (selection.map NamedAsset.asset) platform arch ext ↔
      ∀ asset, selection = some asset → ∀ name ∈ asset.artifact, Fits platform arch ext name := by
  constructor
  · rintro fitting asset rfl name named
    exact fitting asset.asset rfl name (by rw [asset.named, Option.mem_def.mp named]; rfl)
  · intro fitting chosen selected name realName
    obtain ⟨asset, found, rfl⟩ := Option.map_eq_some_iff.mp selected
    rw [asset.named] at realName
    obtain ⟨artifact, named, sameText⟩ := Option.map_eq_some_iff.mp realName
    obtain rfl := ArtifactName.text_inj (String.ofList_injective sameText)
    exact fitting asset found artifact named

theorem selectsFitting_iff_fittingFirst {platform ext : String} (arch : String)
    (plain : '.' ∉ ext.toList) :
    SelectsFitting
        (selectByOriginalName (manifest.map NamedAsset.asset) ("." ++ ext)
          (platform ++ "_" ++ arch)) platform arch ext ↔
      FittingFirst manifest platform arch ext := by
  have selection : selectByOriginalName (manifest.map NamedAsset.asset) ("." ++ ext)
      (platform ++ "_" ++ arch) =
        (manifest.find? fun asset => asset.asset.originalName.any fun n =>
          endsWith n.toList ("." ++ ext).toList &&
            contains n.toList (platform ++ "_" ++ arch).toList).map NamedAsset.asset := by
    rw [selectByOriginalName, List.find?_map]
    congr 2
    funext asset
    simp only [Function.comp_apply]
    cases asset.asset.originalName <;> rfl
  rw [selection, selectsFitting_map_iff, find?_right_iff]
  simp only [any_named, tested_iff arch plain]
  constructor
  · rintro preceded front wrong back split ⟨name, named, taken, unfit⟩
    obtain ⟨earlier, member, ⟨other, otherNamed, _⟩, fits⟩ :=
      preceded front wrong back split ⟨name, named, taken⟩ fun all => unfit (all name named)
    exact ⟨earlier, member, other, otherNamed, fits other otherNamed⟩
  · rintro first front wrong back split ⟨name, named, taken⟩ notRight
    have unfit : ¬ Fits platform arch ext name := fun fits =>
      notRight fun other otherNamed => Option.mem_unique named otherNamed ▸ fits
    obtain ⟨earlier, member, other, otherNamed, fits⟩ :=
      first front wrong back split ⟨name, named, taken, unfit⟩
    exact ⟨earlier, member, ⟨other, otherNamed, taken_of_fits fits⟩,
      fun third thirdNamed => Option.mem_unique otherNamed thirdNamed ▸ fits⟩

def DmgRight (manifest : List NamedAsset) (arch : String) (asset : NamedAsset) : Prop :=
  (∀ name ∈ asset.artifact, Fits "macOS" arch "dmg" name) ∧
    (asset.artifact = none → ¬ SomeFits "macOS" arch "dmg" manifest)

theorem selectDmgAsset_map (arch label : String) :
    selectDmgAsset (manifest.map NamedAsset.asset) ("macOS_" ++ arch) label =
      (manifest.find? fun asset =>
        (asset.asset.originalName.any fun n =>
          endsWith n.toList ("." ++ "dmg").toList &&
            contains n.toList ("macOS" ++ "_" ++ arch).toList) ||
          (asset.asset.originalName.isNone &&
            contains asset.asset.name.toList label.toList)).map NamedAsset.asset := by
  have suffix : "." ++ "dmg" = ".dmg" := by decide
  have tag : "macOS" ++ "_" = "macOS_" := by decide
  rw [selectDmgAsset, List.find?_map, suffix, tag]
  congr 2
  funext asset
  simp only [Function.comp_apply]
  cases asset.asset.originalName <;> simp

theorem dmgAccepted_iff (asset : NamedAsset) (arch label : String) :
    ((asset.asset.originalName.any fun n =>
        endsWith n.toList ("." ++ "dmg").toList &&
          contains n.toList ("macOS" ++ "_" ++ arch).toList) ||
        (asset.asset.originalName.isNone &&
          contains asset.asset.name.toList label.toList)) = true ↔
      (∃ name ∈ asset.artifact, Taken "macOS" arch "dmg" name) ∨ Labelled label asset := by
  have plain : '.' ∉ "dmg".toList := by decide
  have unnamed : asset.asset.originalName.isNone = true ↔ asset.artifact = none := by
    rw [asset.named, Option.isNone_iff_eq_none, Option.map_eq_none_iff]
  rw [Bool.or_eq_true, Bool.and_eq_true, any_named, unnamed, Labelled]
  simp only [tested_iff arch plain]

theorem dmgRight_iff (arch : String) (found : Option NamedAsset) :
    ((∀ asset, found = some asset → ∀ name ∈ asset.artifact, Fits "macOS" arch "dmg" name) ∧
      ∀ asset, found.map NamedAsset.asset = some asset → asset.originalName = none →
        ¬ SomeFits "macOS" arch "dmg" manifest) ↔
      ∀ asset, found = some asset → DmgRight manifest arch asset := by
  constructor
  · rintro ⟨fitting, unnamed⟩ asset rfl
    refine ⟨fitting asset rfl, fun noArtifact => unnamed asset.asset rfl ?_⟩
    rw [asset.named, noArtifact]
    rfl
  · intro right
    refine ⟨fun asset picked => (right asset picked).1, fun chosen picked noName => ?_⟩
    obtain ⟨asset, itself, rfl⟩ := Option.map_eq_some_iff.mp picked
    rw [asset.named, Option.map_eq_none_iff] at noName
    exact (right asset itself).2 noName

theorem dmgRight_of_fits {arch : String} {asset : NamedAsset} {name : ArtifactName}
    (named : name ∈ asset.artifact) (fits : Fits "macOS" arch "dmg" name) :
    DmgRight manifest arch asset := by
  constructor
  · exact fun other otherNamed => Option.mem_unique named otherNamed ▸ fits
  · intro noArtifact
    rw [noArtifact] at named
    cases named

theorem dmgRight_of_labelled {arch label : String} {asset : NamedAsset}
    (labelled : Labelled label asset) (noneFits : ¬ SomeFits "macOS" arch "dmg" manifest) :
    DmgRight manifest arch asset := by
  refine ⟨fun name named => ?_, fun _ => noneFits⟩
  rw [labelled.1] at named
  cases named

theorem selectsFitting_iff_dmgFirst (arch label : String) :
    (SelectsFitting (selectDmgAsset (manifest.map NamedAsset.asset) ("macOS_" ++ arch) label)
        "macOS" arch "dmg" ∧
      ∀ asset, selectDmgAsset (manifest.map NamedAsset.asset) ("macOS_" ++ arch) label =
        some asset → asset.originalName = none → ¬ SomeFits "macOS" arch "dmg" manifest) ↔
      DmgFirst manifest arch label := by
  rw [selectDmgAsset_map, selectsFitting_map_iff, dmgRight_iff, find?_right_iff]
  simp only [dmgAccepted_iff]
  constructor
  · intro preceded front wrong back split
    have earlierRight := preceded front wrong back split
    constructor
    · rintro ⟨name, named, taken, unfit⟩
      obtain ⟨earlier, member, accepted, fits, unlabelled⟩ :=
        earlierRight (Or.inl ⟨name, named, taken⟩) fun right => unfit (right.1 name named)
      rcases accepted with ⟨other, otherNamed, _⟩ | labelled
      · exact Or.inl ⟨earlier, member, other, otherNamed, fits other otherNamed⟩
      · exact Or.inr ⟨unlabelled labelled.1, earlier, member, labelled⟩
    · intro labelled someFits
      obtain ⟨earlier, member, accepted, fits, unlabelled⟩ :=
        earlierRight (Or.inr labelled) fun right => right.2 labelled.1 someFits
      rcases accepted with ⟨other, otherNamed, _⟩ | alsoLabelled
      · exact ⟨earlier, member, other, otherNamed, fits other otherNamed⟩
      · exact absurd someFits (unlabelled alsoLabelled.1)
  · intro first front wrong back split accepted notRight
    obtain ⟨behindFitting, labelBehind⟩ := first front wrong back split
    have fittingFound : SomeFits "macOS" arch "dmg" front → ∃ earlier ∈ front,
        ((∃ name ∈ earlier.artifact, Taken "macOS" arch "dmg" name) ∨ Labelled label earlier) ∧
          DmgRight manifest arch earlier := by
      rintro ⟨earlier, member, name, named, fits⟩
      exact ⟨earlier, member, Or.inl ⟨name, named, taken_of_fits fits⟩,
        dmgRight_of_fits named fits⟩
    rcases accepted with ⟨name, named, taken⟩ | labelled
    · have unfit : ¬ Fits "macOS" arch "dmg" name := fun fits =>
        notRight (dmgRight_of_fits named fits)
      rcases behindFitting ⟨name, named, taken, unfit⟩ with fits | ⟨noneFits, earlier, member,
        alsoLabelled⟩
      · exact fittingFound fits
      · exact ⟨earlier, member, Or.inr alsoLabelled, dmgRight_of_labelled alsoLabelled noneFits⟩
    · have someFits : SomeFits "macOS" arch "dmg" manifest := by
        by_contra noneFits
        exact notRight (dmgRight_of_labelled labelled noneFits)
      exact fittingFound (labelBehind labelled someFits)

/-! ### The choice for a host -/

/-- The choice is for this host exactly where nothing that is taken for it comes first. -/
theorem choice_fits_iff (manifest : List NamedAsset) (arch label : String) :
    ChoiceFits manifest arch label ↔
      FittingFirst manifest "Linux" arch "AppImage" ∧ FittingFirst manifest "Windows" arch "exe" ∧
        DmgFirst manifest arch label := by
  have appimage : SelectsFitting (selectAppimageAsset (manifest.map NamedAsset.asset) arch)
      "Linux" arch "AppImage" ↔ FittingFirst manifest "Linux" arch "AppImage" := by
    have suffix : ".AppImage" = "." ++ "AppImage" := by decide
    have tag : "Linux_" = "Linux" ++ "_" := by decide
    rw [selectAppimageAsset, suffix, tag]
    exact selectsFitting_iff_fittingFirst arch (by decide)
  have installer : SelectsFitting
      (selectWindowsInstallerAsset (manifest.map NamedAsset.asset) arch)
      "Windows" arch "exe" ↔ FittingFirst manifest "Windows" arch "exe" := by
    have suffix : ".exe" = "." ++ "exe" := by decide
    have tag : "Windows_" = "Windows" ++ "_" := by decide
    rw [selectWindowsInstallerAsset, suffix, tag]
    exact selectsFitting_iff_fittingFirst arch (by decide)
  rw [ChoiceFits, appimage, installer, ← selectsFitting_iff_dmgFirst]

def appimage64 : ArtifactName where
  version := "0.1.12".toList
  platform := "Linux".toList
  arch := "x86_64".toList
  variant := "production".toList
  ext := "AppImage".toList
  versionPlain := by decide
  platformPlain := by decide
  variantPlain := by decide
  extPlain := by decide

def dmgIntel : ArtifactName where
  version := "0.1.12".toList
  platform := "macOS".toList
  arch := "x64".toList
  variant := "production".toList
  ext := "dmg".toList
  versionPlain := by decide
  platformPlain := by decide
  variantPlain := by decide
  extPlain := by decide

def namedAsset (id : Nat) (label : String) (artifact : Option ArtifactName) : NamedAsset where
  asset :=
    { id
      name := label
      originalName := artifact.map fun name => String.ofList name.text
      sha256 := none }
  artifact := artifact
  named := rfl

/-- A 32-bit host takes the 64-bit image, and a label that comes first is taken over the
image that is named for the host. -/
theorem choice_misled :
    ¬ ChoiceFits [namedAsset 1 "Linux (AppImage)" (some appimage64)] "x86" "Intel" ∧
      ¬ ChoiceFits [namedAsset 1 "MacOS (Intel)" none,
        namedAsset 2 "MacOS (Intel)" (some dmgIntel)] "x64" "Intel" := by
  constructor
  · intro fits
    have wrong := fits.1 (namedAsset 1 "Linux (AppImage)" (some appimage64)).asset
      (by decide +kernel) appimage64 rfl
    exact absurd wrong.2.1 (by decide)
  · intro fits
    exact fits.2.2.2 (namedAsset 1 "MacOS (Intel)" none).asset (by decide +kernel) rfl
      ⟨namedAsset 2 "MacOS (Intel)" (some dmgIntel), by simp, dmgIntel, rfl, rfl, rfl, rfl⟩

end KlaayGuard
