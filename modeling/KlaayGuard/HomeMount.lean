/-
The home directory is judged by the mount it lives on.

Among the mountpoints that enclose the home component by component, one lies beneath
all the others, and the verdict is that mountpoint's.  Mounts and devices that do
not enclose the home have no say.
-/

import KlaayGuard.DiskEvidence
import KlaayGuard.Library.NormalPath
import KlaayGuard.Library.Utf8Lossy

set_option autoImplicit false

namespace KlaayGuard

open RoseForest RustIter RustText

/-- The first path is the second, or an ancestor of it by whole components. -/
def Encloses (outer inner : String) : Prop :=
  pathComponents outer.toList <+: pathComponents inner.toList

theorem pathStartsWith_iff {path base : String} :
    pathStartsWith path.toList base.toList = true ↔ Encloses base path :=
  List.isPrefixOf_iff_prefix

def mountpointsRead (devs : List FlatDev) (mounts : List MountEntry) : List String :=
  mounts.map MountEntry.mountpoint ++ devs.flatMap FlatDev.mountpoints

/-- The mountpoint encloses the home, and lies beneath every other one that does. -/
structure Deepest (mountpoints : List String) (home mp : String) : Prop where
  listed : mp ∈ mountpoints
  encloses : Encloses mp home
  beneath : ∀ other ∈ mountpoints, Encloses other home → Encloses other mp

theorem utf8EncodeChar_append_ne_nil (c : Char) (rest : List UInt8) :
    String.utf8EncodeChar c ++ rest ≠ [] := by
  have encoded : 0 < (String.utf8EncodeChar c).length := by
    rw [String.length_utf8EncodeChar]
    exact c.utf8Size_pos
  exact List.append_ne_nil_of_left_ne_nil (List.ne_nil_of_length_pos encoded) rest

theorem unescapeBytes_ne_nil {word : List Char} (nonempty : word ≠ []) :
    unescapeBytes word ≠ [] := by
  fun_cases unescapeBytes word with
  | case1 => exact List.cons_ne_nil _ _
  | case2 c => exact utf8EncodeChar_append_ne_nil c _
  | case3 c => exact utf8EncodeChar_append_ne_nil c _
  | case4 => exact absurd rfl nonempty

theorem mountpoint_ne_empty {text : String} {m : MountEntry} (read : m ∈ parseProcMounts text) :
    m.mountpoint ≠ "" := by
  obtain ⟨line, _, entry⟩ := List.mem_filterMap.mp read
  split at entry
  · rename_i device mountpoint fstype more words
    obtain rfl := Option.some.inj entry
    have word : mountpoint ∈ splitWhitespace line := by
      rw [words]
      exact List.mem_cons_of_mem _ List.mem_cons_self
    have nonempty : mountpoint ≠ [] := by simpa using (List.mem_filter.mp word).2
    rw [unescape, Ne, String.ofList_eq_empty_iff]
    exact fromUtf8Lossy_ne_nil (unescapeBytes_ne_nil nonempty)
  · cases entry

theorem mountpointsOf_ne_empty (node : Value) : ∀ mp ∈ mountpointsOf node, mp ≠ "" := by
  unfold mountpointsOf
  refine List.foldlRecOn (motive := fun out => ∀ mp ∈ out, mp ≠ "") _ _ ?_ ?_
  · intro mp listed
    split at listed
    · split at listed
      · cases listed
      · rename_i given
        rw [List.mem_singleton.mp listed]
        exact given
    · cases listed
  · intro out before mp _
    split
    · rename_i fresh
      intro other listed
      rcases List.mem_append.mp listed with earlier | last
      · exact before other earlier
      · rw [List.mem_singleton.mp last]
        exact fresh.1
    · exact before

theorem mountpointsRead_ne_empty {crates : Crates} {lsblkJson : Option String}
    {procMounts : String} :
    ∀ mp ∈ mountpointsRead ((lsblkJson.map (parseLsblk crates)).getD [])
      (parseProcMounts procMounts), mp ≠ "" := by
  intro mp listed
  rcases List.mem_append.mp listed with atMount | atDevice
  · obtain ⟨m, read, rfl⟩ := List.mem_map.mp atMount
    exact mountpoint_ne_empty read
  · obtain ⟨dev, read, atDev⟩ := List.mem_flatMap.mp atDevice
    obtain ⟨text, doc, _, _, member⟩ := document_of_mem read
    obtain ⟨above, node, _, mountpoints, _⟩ := listed_of_flattened _ member
    rw [mountpoints] at atDev
    exact mountpointsOf_ne_empty node mp atDev

section Deepest

variable {devs : List FlatDev} {mounts : List MountEntry} {home : String}

/-- What the mountpoints of both sources are taken to be: none of them is empty, and the absolute
ones are in normal form. -/
structure Normal (mountpoints : List String) : Prop where
  nonempty : ∀ mp ∈ mountpoints, mp ≠ ""
  normal : ∀ mp ∈ mountpoints, mp.toList.head? = some '/' → IsNormalPath mp.toList

theorem Normal.of_encloses {mountpoints : List String} (normal : Normal mountpoints)
    (absolute : home.toList.head? = some '/') {mp : String} (listed : mp ∈ mountpoints)
    (encloses : Encloses mp home) : IsNormalPath mp.toList := by
  refine normal.normal mp listed (head?_of_encloses ?_ absolute encloses)
  exact mt String.toList_eq_nil_iff.mp (normal.nonempty mp listed)

theorem Normal.shorter {mountpoints : List String} (normal : Normal mountpoints)
    (absolute : home.toList.head? = some '/') {outer inner : String}
    (outerListed : outer ∈ mountpoints) (innerListed : inner ∈ mountpoints)
    (outerEncloses : Encloses outer home) (innerEncloses : Encloses inner home)
    (encloses : Encloses outer inner) :
    outer = inner ∨ outer.utf8ByteSize < inner.utf8ByteSize := by
  have outerNormal := normal.of_encloses absolute outerListed outerEncloses
  have innerNormal := normal.of_encloses absolute innerListed innerEncloses
  rcases outerNormal.encloses innerNormal encloses with same | ⟨tail, nonempty, longer⟩
  · exact .inl (String.toList_inj.mp same)
  · right
    have split : inner = outer ++ String.ofList tail := by
      rw [← String.toList_inj, String.toList_append, String.toList_ofList, longer]
    rw [split, String.utf8ByteSize_append]
    have positive : (String.ofList tail).utf8ByteSize ≠ 0 := by
      rw [Ne, String.utf8ByteSize_eq_zero_iff, String.ofList_eq_empty_iff]
      exact nonempty
    omega

theorem mem_mountpointsAbove {mp : String} :
    mp ∈ mountpointsAbove mounts home devs ↔
      mp ∈ mountpointsRead devs mounts ∧ Encloses mp home := by
  rw [mountpointsAbove, List.mem_filter, pathStartsWith_iff]
  rfl

theorem mountOf_eq_max :
    mountOf devs mounts home =
      (maxByKey String.utf8ByteSize (mountpointsAbove mounts home devs)).getD home :=
  rfl

/-- The mountpoint the code takes lies beneath every other one that encloses the home. -/
theorem deepest_of_max (absolute : home.toList.head? = some '/')
    (normal : Normal (mountpointsRead devs mounts)) {best : String}
    (found : maxByKey String.utf8ByteSize (mountpointsAbove mounts home devs) = some best) :
    Deepest (mountpointsRead devs mounts) home best := by
  obtain ⟨above, longest⟩ := maxByKey_spec found
  obtain ⟨listed, encloses⟩ := mem_mountpointsAbove.mp above
  refine ⟨listed, encloses, fun other otherListed otherEncloses => ?_⟩
  rcases List.prefix_or_prefix_of_prefix otherEncloses encloses with outer | inner
  · exact outer
  · -- Were the other one beneath it, it would be longer.
    rcases normal.shorter absolute listed otherListed encloses otherEncloses inner with
      same | shorter
    · rw [same]
      exact List.prefix_rfl
    · have atMost := longest other (mem_mountpointsAbove.mpr ⟨otherListed, otherEncloses⟩)
      exact absurd shorter (Nat.not_lt.mpr atMost)

theorem Deepest.unique {mountpoints : List String} (absolute : home.toList.head? = some '/')
    (normal : Normal mountpoints) {mp other : String} (deepest : Deepest mountpoints home mp)
    (otherDeepest : Deepest mountpoints home other) : mp = other := by
  have outer := otherDeepest.beneath mp deepest.listed deepest.encloses
  have inner := deepest.beneath other otherDeepest.listed otherDeepest.encloses
  rcases normal.shorter absolute deepest.listed otherDeepest.listed deepest.encloses
    otherDeepest.encloses outer with same | shorter
  · exact same
  · rcases normal.shorter absolute otherDeepest.listed deepest.listed otherDeepest.encloses
      deepest.encloses inner with same | longer
    · exact same.symm
    · exact absurd shorter (Nat.lt_asymm longer)

theorem exists_deepest (absolute : home.toList.head? = some '/')
    (normal : Normal (mountpointsRead devs mounts))
    (above : ∃ mp ∈ mountpointsRead devs mounts, Encloses mp home) :
    ∃ mp, Deepest (mountpointsRead devs mounts) home mp := by
  obtain ⟨mp, listed, encloses⟩ := above
  have member := mem_mountpointsAbove.mpr ⟨listed, encloses⟩
  cases found : maxByKey String.utf8ByteSize (mountpointsAbove mounts home devs) with
  | none =>
      rw [maxByKey_eq_none.mp found] at member
      cases member
  | some best => exact ⟨best, deepest_of_max absolute normal found⟩

theorem Deepest.mountOf (absolute : home.toList.head? = some '/')
    (normal : Normal (mountpointsRead devs mounts)) {mp : String}
    (deepest : Deepest (mountpointsRead devs mounts) home mp) :
    KlaayGuard.mountOf devs mounts home = mp := by
  have member := mem_mountpointsAbove.mpr ⟨deepest.listed, deepest.encloses⟩
  cases found : maxByKey String.utf8ByteSize (mountpointsAbove mounts home devs) with
  | none =>
      rw [maxByKey_eq_none.mp found] at member
      cases member
  | some best =>
      rw [mountOf_eq_max, found]
      exact (deepest_of_max absolute normal found).unique absolute normal deepest

theorem determine_absent {target : String} (absent : target ∉ mountpointsRead devs mounts) :
    determine devs mounts target = "unknown" := by
  have noMount : ∀ m ∈ mounts, (m.mountpoint == target) = false := by
    intro m member
    rw [beq_eq_false_iff_ne]
    rintro rfl
    exact absent (List.mem_append_left _ (List.mem_map_of_mem member))
  have noDevice : devs.find? (fun d => d.mountpoints.any (· == target)) = none := by
    rw [List.find?_eq_none]
    intro d member lists
    have listed := FlatDev.lists_iff.mp lists
    exact absent (List.mem_append_right _ (List.mem_flatMap.mpr ⟨d, member, listed⟩))
  have unmounted : ∀ q : MountEntry → Bool,
      ¬ (mounts.any fun m => m.mountpoint == target && q m) = true := by
    intro q found
    obtain ⟨m, member, atTarget⟩ := List.any_eq_true.mp found
    rw [noMount m member] at atTarget
    cases atTarget
  rw [determine, if_neg (unmounted _), if_neg (unmounted _), noDevice]

theorem determine_unenclosed
    (nowhere : ∀ mp ∈ mountpointsRead devs mounts, ¬ Encloses mp home) :
    determine devs mounts (KlaayGuard.mountOf devs mounts home) = "unknown" := by
  have nothing : mountpointsAbove mounts home devs = [] := by
    rw [List.eq_nil_iff_forall_not_mem]
    intro mp above
    obtain ⟨listed, encloses⟩ := mem_mountpointsAbove.mp above
    exact nowhere mp listed encloses
  have absent : home ∉ mountpointsRead devs mounts := fun listed =>
    nowhere home listed List.prefix_rfl
  rw [mountOf_eq_max, nothing]
  exact determine_absent absent

end Deepest

/-! ### What does not enclose the home -/

/-- The same mounts enclose the home, in the same order. -/
def MountsChanged (home : String) (mounts other : List MountEntry) : Prop :=
  other.filter (fun m => pathStartsWith home.toList m.mountpoint.toList) =
    mounts.filter (fun m => pathStartsWith home.toList m.mountpoint.toList)

/-- A node without children, none of whose mountpoints encloses the home. -/
structure HarmlessLeaf (home : String) (node : Value) : Prop where
  leaf : node.arrayAt "children" = []
  harmless : ∀ mp ∈ mountpointsOf node, ¬ Encloses mp home

/-- The second array comes from the first by adding, removing and moving harmless leaves, at any
depth. -/
inductive LeavesChanged (home : String) : List Value → List Value → Prop where
  | refl (nodes : List Value) : LeavesChanged home nodes nodes
  | leaf {node : Value} (harmless : HarmlessLeaf home node) (rest : List Value) :
      LeavesChanged home rest (node :: rest)
  | cons (head : Value) {tail other : List Value} :
      LeavesChanged home tail other → LeavesChanged home (head :: tail) (head :: other)
  | children (members : List (String × Value)) (rest : List Value) {other : List Value} :
      LeavesChanged home ((Value.object members).arrayAt "children") other →
      LeavesChanged home (.object members :: rest)
        (.object (Value.insertMember "children" (.array other) members) :: rest)
  | symm {nodes other : List Value} :
      LeavesChanged home nodes other → LeavesChanged home other nodes
  | trans {first second third : List Value} :
      LeavesChanged home first second → LeavesChanged home second third →
      LeavesChanged home first third

inductive LsblkLeavesChanged (home : String) : Value → Value → Prop where
  | same (doc : Value) : LsblkLeavesChanged home doc doc
  | blockdevices (members : List (String × Value)) {other : List Value} :
      LeavesChanged home ((Value.object members).arrayAt "blockdevices") other →
      LsblkLeavesChanged home (.object members)
        (.object (Value.insertMember "blockdevices" (.array other) members))

def enclosesHome (home : String) (d : FlatDev) : Bool :=
  d.mountpoints.any fun mp => pathStartsWith home.toList mp.toList

theorem LeavesChanged.forest {home : String} {nodes other : List Value}
    (changed : LeavesChanged home nodes other) (parentOnCrypt : Bool) (parentFstype : String) :
    (preorder (deviceForest parentOnCrypt parentFstype other)).filter (enclosesHome home) =
      (preorder (deviceForest parentOnCrypt parentFstype nodes)).filter (enclosesHome home) := by
  induction changed generalizing parentOnCrypt parentFstype with
  | refl nodes => rfl
  | @leaf node harmless rest =>
      have silent : ¬ enclosesHome home (flatDev node parentOnCrypt parentFstype) = true := by
        intro encloses
        obtain ⟨mp, listed, above⟩ := List.any_eq_true.mp encloses
        exact harmless.harmless mp listed (pathStartsWith_iff.mp above)
      rw [deviceForest_cons, preorder_cons, harmless.leaf, deviceForest_nil, preorder_nil,
        List.nil_append, List.filter_cons_of_neg silent]
  | cons head _ ih =>
      simp only [deviceForest_cons, preorder_cons, List.filter_cons, List.filter_append, ih]
  | children members rest _ ih =>
      simp only [deviceForest_cons, preorder_cons, List.filter_cons, List.filter_append,
        flatDev_insertChildren, arrayAt_insertMember, ih,
        field_insertChildren (show "children" ≠ "fstype" by decide)]
  | symm _ ih => exact (ih _ _).symm
  | trans _ _ ihFirst ihSecond => exact (ihSecond _ _).trans (ihFirst _ _)

theorem LsblkLeavesChanged.forest {home : String} {doc other : Value}
    (changed : LsblkLeavesChanged home doc other) :
    (preorder (lsblkForest other)).filter (enclosesHome home) =
      (preorder (lsblkForest doc)).filter (enclosesHome home) := by
  cases changed with
  | same doc => rfl
  | blockdevices members changed =>
      rw [lsblkForest, arrayAt_insertMember]
      exact changed.forest false ""

section Frame

variable {devs devs' : List FlatDev} {mounts mounts' : List MountEntry} {home : String}

private theorem filter_flatMap_any {α β : Type} (f : α → List β) (p : β → Bool) (items : List α) :
    (items.flatMap f).filter p =
      (items.filter fun item => (f item).any p).flatMap fun item => (f item).filter p := by
  induction items with
  | nil => rfl
  | cons item rest ih =>
      rw [List.flatMap_cons, List.filter_append, ih, List.filter_cons]
      split
      · rfl
      · rename_i none_selected
        have nothing : (f item).filter p = [] := by
          rw [List.filter_eq_nil_iff]
          exact fun part member selected =>
            none_selected (List.any_eq_true.mpr ⟨part, member, selected⟩)
        rw [nothing, List.nil_append]

theorem mountpointsAbove_congr (sameMounts : MountsChanged home mounts mounts')
    (sameDevs : devs'.filter (enclosesHome home) = devs.filter (enclosesHome home)) :
    mountpointsAbove mounts' home devs' = mountpointsAbove mounts home devs := by
  have fromMounts : (mounts'.map MountEntry.mountpoint).filter
      (fun mp => pathStartsWith home.toList mp.toList) =
        (mounts.map MountEntry.mountpoint).filter
          (fun mp => pathStartsWith home.toList mp.toList) := by
    rw [List.filter_map, List.filter_map]
    exact congrArg _ sameMounts
  have fromDevs : (devs'.flatMap FlatDev.mountpoints).filter
      (fun mp => pathStartsWith home.toList mp.toList) =
        (devs.flatMap FlatDev.mountpoints).filter
          (fun mp => pathStartsWith home.toList mp.toList) := by
    rw [filter_flatMap_any, filter_flatMap_any]
    exact congrArg _ sameDevs
  rw [mountpointsAbove, mountpointsAbove, List.filter_append, List.filter_append, fromMounts,
    fromDevs]

private theorem any_congr (sameMounts : MountsChanged home mounts mounts') {q : MountEntry → Bool}
    (reads : ∀ m, q m = true → Encloses m.mountpoint home) : mounts'.any q = mounts.any q := by
  have kept : ∀ table : List MountEntry,
      (table.filter fun m => pathStartsWith home.toList m.mountpoint.toList).any q =
        table.any q := by
    intro table
    rw [List.any_filter]
    congr 1
    funext m
    cases selected : q m with
    | false => rw [Bool.and_false]
    | true => rw [pathStartsWith_iff.mpr (reads m selected), Bool.and_true]
  rw [← kept mounts', ← kept mounts, sameMounts]

theorem determine_congr (sameMounts : MountsChanged home mounts mounts')
    (sameDevs : devs'.filter (enclosesHome home) = devs.filter (enclosesHome home))
    {target : String} (encloses : Encloses target home) :
    determine devs' mounts' target = determine devs mounts target := by
  have atTarget : ∀ (q : MountEntry → Bool) (m : MountEntry),
      (m.mountpoint == target && q m) = true → Encloses m.mountpoint home := by
    intro q m selected
    rw [eq_of_beq (Bool.and_eq_true_iff.mp selected).1]
    exact encloses
  have kept : ∀ listing : List FlatDev,
      (listing.filter (enclosesHome home)).find? (fun d => d.mountpoints.any (· == target)) =
        listing.find? fun d => d.mountpoints.any (· == target) := by
    intro listing
    rw [List.find?_filter]
    congr 1
    funext d
    rw [Bool.decide_and, Bool.decide_eq_true, Bool.decide_eq_true]
    cases lists : d.mountpoints.any (· == target) with
    | false => rw [Bool.and_false]
    | true =>
        have above : enclosesHome home d = true :=
          List.any_eq_true.mpr ⟨target, FlatDev.lists_iff.mp lists, pathStartsWith_iff.mpr encloses⟩
        rw [above, Bool.and_true]
  rw [determine, determine, any_congr sameMounts (atTarget _), any_congr sameMounts (atTarget _),
    ← kept devs', ← kept devs, sameDevs]

theorem determineHome_congr (sameMounts : MountsChanged home mounts mounts')
    (sameDevs : devs'.filter (enclosesHome home) = devs.filter (enclosesHome home)) :
    determineHome devs' mounts' (some home) = determineHome devs mounts (some home) := by
  have sameAbove := mountpointsAbove_congr sameMounts sameDevs
  rw [determineHome, determineHome, mountOf_eq_max, mountOf_eq_max, sameAbove]
  congr 1
  have encloses : Encloses
      ((maxByKey String.utf8ByteSize (mountpointsAbove mounts home devs)).getD home) home := by
    cases found : maxByKey String.utf8ByteSize (mountpointsAbove mounts home devs) with
    | none => exact List.prefix_rfl
    | some best => exact (mem_mountpointsAbove.mp (maxByKey_spec found).1).2
  exact determine_congr sameMounts sameDevs encloses

end Frame

/-- The listing is the same, or its document differs in harmless leaves only. -/
def ListingChanged (crates : Crates) (home : String) (lsblkJson other : Option String) : Prop :=
  other = lsblkJson ∨ ∃ text text' doc doc', lsblkJson = some text ∧ other = some text' ∧
    crates.fromStr text = some doc ∧ crates.fromStr text' = some doc' ∧
    LsblkLeavesChanged home doc doc'

theorem ListingChanged.sameDevs {crates : Crates} {home : String}
    {lsblkJson other : Option String} (changed : ListingChanged crates home lsblkJson other) :
    ((other.map (parseLsblk crates)).getD []).filter (enclosesHome home) =
      ((lsblkJson.map (parseLsblk crates)).getD []).filter (enclosesHome home) := by
  rcases changed with rfl | ⟨text, text', doc, doc', rfl, rfl, parsed, parsed', changed⟩
  · rfl
  · rw [Option.map_some, Option.map_some, Option.getD_some, Option.getD_some,
      parseLsblk_eq_preorder parsed, parseLsblk_eq_preorder parsed', changed.forest]

/-- The home has the verdict of the mountpoint beneath all others that enclose it, and none without
such a mountpoint; mounts and leaf devices that do not enclose it make no difference. -/
theorem home_judged_by_its_mount (crates : Crates) (lsblkJson : Option String)
    (procMounts home : String) (absolute : home.toList.head? = some '/')
    (normal : ∀ mp ∈ mountpointsRead ((lsblkJson.map (parseLsblk crates)).getD [])
      (parseProcMounts procMounts), mp.toList.head? = some '/' → IsNormalPath mp.toList) :
    let devs := (lsblkJson.map (parseLsblk crates)).getD []
    let mounts := parseProcMounts procMounts
    let verdict := homeEncrypted (buildDiskEncryptionRows crates lsblkJson procMounts (some home))
    (∀ mp, Deepest (mountpointsRead devs mounts) home mp →
      verdict = some (determine devs mounts mp)) ∧
    ((∃ mp ∈ mountpointsRead devs mounts, Encloses mp home) →
      ∃ mp, Deepest (mountpointsRead devs mounts) home mp) ∧
    ((∀ mp ∈ mountpointsRead devs mounts, ¬ Encloses mp home) → verdict = some "unknown") ∧
    ∀ lsblkJson' procMounts', ListingChanged crates home lsblkJson lsblkJson' →
      MountsChanged home mounts (parseProcMounts procMounts') →
      homeEncrypted (buildDiskEncryptionRows crates lsblkJson' procMounts' (some home)) =
        verdict := by
  intro devs mounts verdict
  have normalAll : Normal (mountpointsRead devs mounts) := ⟨mountpointsRead_ne_empty, normal⟩
  have named : home ≠ "" := by
    rintro rfl
    cases absolute
  have judged : verdict = some (determine devs mounts (mountOf devs mounts home)) := by
    have verdicts := (buildDiskEncryptionRows_verdicts crates lsblkJson procMounts (some home)).2
    rw [determineHome, if_neg named] at verdicts
    exact verdicts
  refine ⟨?_, exists_deepest absolute normalAll, ?_, ?_⟩
  · intro mp deepest
    rw [judged, deepest.mountOf absolute normalAll]
  · intro nowhere
    rw [judged, determine_unenclosed nowhere]
  · intro lsblkJson' procMounts' listing table
    have verdicts := (buildDiskEncryptionRows_verdicts crates lsblkJson' procMounts' (some home)).2
    have before := (buildDiskEncryptionRows_verdicts crates lsblkJson procMounts (some home)).2
    rw [verdicts, determineHome_congr table listing.sameDevs]
    exact before.symm

private def besideUser2 : String :=
  "/dev/sda1 / ext4 rw 0 0\n/dev/sda2 /home ecryptfs rw 0 0\n/dev/sda3 /home/user2 zfs rw 0 0\n"

private theorem besideUser2_read :
    parseProcMounts besideUser2 =
      [⟨"/", "ext4"⟩, ⟨"/home", "ecryptfs"⟩, ⟨"/home/user2", "zfs"⟩] := by
  decide +kernel

private theorem besideUser2_normal :
    ∀ mp ∈ ["/", "/home", "/home/user2"], IsNormalPath mp.toList := by
  have home : IsPathName "home".toList := ⟨by decide, by decide, by decide⟩
  have user2 : IsPathName "user2".toList := ⟨by decide, by decide, by decide⟩
  simp only [List.forall_mem_cons, List.not_mem_nil, false_implies, implies_true, and_true]
  refine ⟨⟨[], nofun, by decide⟩, ⟨["home".toList], ?_, by decide⟩,
    ⟨["home".toList, "user2".toList], ?_, by decide⟩⟩
  · simp only [List.forall_mem_cons, List.not_mem_nil, false_implies, implies_true, and_true]
    exact home
  · simp only [List.forall_mem_cons, List.not_mem_nil, false_implies, implies_true, and_true]
    exact ⟨home, user2⟩

theorem home_judged_by_its_mount_user :
    homeEncrypted (buildDiskEncryptionRows Crates.uncalled none besideUser2 (some "/home/user")) =
      some "yes" := by
  have mountpoints : mountpointsRead [] (parseProcMounts besideUser2) =
      ["/", "/home", "/home/user2"] := by
    rw [besideUser2_read]
    rfl
  have deepest :
      Deepest (mountpointsRead [] (parseProcMounts besideUser2)) "/home/user" "/home" := by
    rw [mountpoints]
    refine ⟨by decide, pathStartsWith_iff.mp (by decide +kernel), ?_⟩
    simp only [List.forall_mem_cons, List.not_mem_nil, false_implies, implies_true, and_true,
      ← pathStartsWith_iff]
    decide +kernel
  refine ((home_judged_by_its_mount Crates.uncalled none besideUser2 "/home/user" rfl ?_).1 "/home"
    deepest).trans ?_
  · intro mp listed _
    exact besideUser2_normal mp (mountpoints ▸ listed)
  · rw [besideUser2_read]
    decide +kernel

end KlaayGuard
