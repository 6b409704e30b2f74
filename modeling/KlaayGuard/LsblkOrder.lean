/-
What the order in which `lsblk` lists the devices decides.

The verdict on a mountpoint is that of the first device to list it, and the
home directory lives on the last of the longest mountpoints above it.  Both are
scans of one forest.  So the order decides nothing exactly where every device
that some order can bring to that place gives the same verdict.
-/

import KlaayGuard.DiskEncryption
import KlaayGuard.Library.RoseForest

set_option autoImplicit false

namespace KlaayGuard

open RoseForest RustIter RustText

inductive NodesReordered : List Value → List Value → Prop where
  | refl (nodes : List Value) : NodesReordered nodes nodes
  | swap (first second : Value) (rest : List Value) :
      NodesReordered (first :: second :: rest) (second :: first :: rest)
  | cons (head : Value) {tail other : List Value} :
      NodesReordered tail other → NodesReordered (head :: tail) (head :: other)
  | children {members : List (String × Value)} (rest : List Value) {kids other : List Value}
      (listed : Value.member "children" members = some (.array kids)) :
      NodesReordered kids other →
      NodesReordered (.object members :: rest)
        (.object (Value.insertMember "children" (.array other) members) :: rest)
  | trans {first second third : List Value} :
      NodesReordered first second → NodesReordered second third → NodesReordered first third

/-- The same of a whole `lsblk -J` value: its `blockdevices` array is permuted,
and the `children` arrays in it. -/
inductive LsblkReordered : Value → Value → Prop where
  | same (doc : Value) : LsblkReordered doc doc
  | blockdevices {members : List (String × Value)} {devs other : List Value}
      (listed : Value.member "blockdevices" members = some (.array devs)) :
      NodesReordered devs other →
      LsblkReordered (.object members)
        (.object (Value.insertMember "blockdevices" (.array other) members))

/-- A node of the array, with the nodes above it from the top. -/
inductive Listed : List Value → List Value → Value → Prop where
  | top {nodes : List Value} {node : Value} (member : node ∈ nodes) : Listed nodes [] node
  | under {nodes above : List Value} {parent node : Value} (member : parent ∈ nodes)
      (deeper : Listed (parent.arrayAt "children") above node) :
      Listed nodes (parent :: above) node

theorem nodesInduction {motive : List Value → Prop} (nil : motive [])
    (cons : ∀ node rest, motive (node.arrayAt "children") → motive rest → motive (node :: rest)) :
    ∀ nodes, motive nodes
  | [] => nil
  | node :: rest =>
      cons node rest (nodesInduction nil cons (node.arrayAt "children"))
        (nodesInduction nil cons rest)
termination_by nodes => sizeOf nodes
decreasing_by
  · have smaller := Value.sizeOf_arrayAt_le node "children"
    simp only [List.cons.sizeOf_spec]
    omega
  · simp only [List.cons.sizeOf_spec]
    omega

def deviceForest (parentOnCrypt : Bool) (parentFstype : String) :
    List Value → List (Rose FlatDev)
  | [] => []
  | node :: rest =>
      let dev := flatDev node parentOnCrypt parentFstype
      .node dev (deviceForest dev.onCrypt (field node "fstype") (node.arrayAt "children")) ::
        deviceForest parentOnCrypt parentFstype rest
termination_by nodes => sizeOf nodes
decreasing_by
  · have smaller := Value.sizeOf_arrayAt_le node "children"
    simp only [List.cons.sizeOf_spec]
    omega
  · simp only [List.cons.sizeOf_spec]
    omega

@[simp] theorem deviceForest_nil (parentOnCrypt : Bool) (parentFstype : String) :
    deviceForest parentOnCrypt parentFstype [] = [] := by
  rw [deviceForest]

theorem deviceForest_cons (parentOnCrypt : Bool) (parentFstype : String) (node : Value)
    (rest : List Value) :
    deviceForest parentOnCrypt parentFstype (node :: rest) =
      .node (flatDev node parentOnCrypt parentFstype)
          (deviceForest (flatDev node parentOnCrypt parentFstype).onCrypt (field node "fstype")
            (node.arrayAt "children")) ::
        deviceForest parentOnCrypt parentFstype rest := by
  rw [deviceForest]

def lsblkForest (doc : Value) : List (Rose FlatDev) :=
  deviceForest false "" (doc.arrayAt "blockdevices")

theorem preorder_deviceForest (parentOnCrypt : Bool) (parentFstype : String) (nodes : List Value) :
    preorder (deviceForest parentOnCrypt parentFstype nodes) =
      nodes.flatMap fun node => walk node parentOnCrypt parentFstype := by
  induction nodes using nodesInduction generalizing parentOnCrypt parentFstype with
  | nil => simp
  | cons node rest ihChildren ihRest =>
      rw [deviceForest_cons, preorder_cons, ihChildren, ihRest, List.flatMap_cons, walk_eq]
      rfl

theorem parseLsblk_eq_preorder {crates : Crates} {text : String} {doc : Value}
    (parsed : crates.fromStr text = some doc) :
    parseLsblk crates text = preorder (lsblkForest doc) := by
  unfold parseLsblk lsblkForest
  rw [parsed, preorder_deviceForest]

theorem deviceForest_onCrypt (parentFstype : String) (nodes : List Value) :
    ∀ dev ∈ preorder (deviceForest true parentFstype nodes), dev.onCrypt = true := by
  induction nodes using nodesInduction generalizing parentFstype with
  | nil => simp
  | cons node rest ihChildren ihRest =>
      intro dev member
      have top : (flatDev node true parentFstype).onCrypt = true := rfl
      rw [deviceForest_cons, preorder_cons, top, List.mem_cons, List.mem_append] at member
      rcases member with rfl | under | later
      · exact top
      · exact ihChildren _ dev under
      · exact ihRest _ dev later

theorem deviceForest_inherited (parentOnCrypt : Bool) (parentFstype : String)
    (nodes : List Value) :
    Inherited FlatDev.onCrypt (deviceForest parentOnCrypt parentFstype nodes) := by
  induction nodes using nodesInduction generalizing parentOnCrypt parentFstype with
  | nil => simp [Inherited]
  | cons node rest ihChildren ihRest =>
      rw [deviceForest_cons, Inherited]
      refine ⟨?_, ihChildren _ _, ihRest _ _⟩
      intro onCrypt
      rw [onCrypt]
      exact deviceForest_onCrypt _ _

/-- The flattened device of a listed node: it is on a mapper where it or a node
above it is of type `crypt`. -/
theorem Listed.flattened {nodes above : List Value} {node : Value}
    (listed : Listed nodes above node) (parentOnCrypt : Bool) (parentFstype : String) :
    ∃ dev ∈ preorder (deviceForest parentOnCrypt parentFstype nodes),
      dev.mountpoints = mountpointsOf node ∧
        dev.onCrypt = (parentOnCrypt ||
          (above ++ [node]).any fun device => field device "type" == "crypt") := by
  induction listed generalizing parentOnCrypt parentFstype with
  | @top nodes node member =>
      refine ⟨flatDev node parentOnCrypt parentFstype, ?_, rfl, by simp [flatDev]⟩
      rw [preorder_deviceForest, List.mem_flatMap]
      exact ⟨node, member, by rw [walk_eq]; exact List.mem_cons_self⟩
  | @under nodes above parent node member _ ih =>
      obtain ⟨dev, inside, sameMountpoints, sameFlag⟩ :=
        ih (flatDev parent parentOnCrypt parentFstype).onCrypt (field parent "fstype")
      refine ⟨dev, ?_, sameMountpoints, ?_⟩
      · rw [preorder_deviceForest] at inside
        rw [preorder_deviceForest, List.mem_flatMap]
        exact ⟨parent, member, by rw [walk_eq]; exact List.mem_cons_of_mem _ inside⟩
      · rw [sameFlag, List.cons_append, List.any_cons, ← Bool.or_assoc]
        rfl

/-! ### Reordered values and reordered forests -/

theorem get_insertMember {key other : String} (differ : key ≠ other) (value : Value)
    (members : List (String × Value)) :
    (Value.object (Value.insertMember key value members)).get other =
      (Value.object members).get other :=
  Value.member_insertMember_of_ne differ value members

theorem arrayAt_insertMember (key : String) (elements : List Value)
    (members : List (String × Value)) :
    (Value.object (Value.insertMember key (.array elements) members)).arrayAt key = elements := by
  simp [Value.arrayAt, Value.get]

private theorem arrayAt_of_member {key : String} {elements : List Value}
    {members : List (String × Value)} (listed : Value.member key members = some (.array elements)) :
    (Value.object members).arrayAt key = elements := by
  simp [Value.arrayAt, Value.get, listed]

theorem field_insertChildren {key : String} (differ : "children" ≠ key) (value : Value)
    (members : List (String × Value)) :
    field (.object (Value.insertMember "children" value members)) key =
      field (.object members) key := by
  simp only [field, Value.stringAt, get_insertMember differ]

theorem flatDev_insertChildren (value : Value) (members : List (String × Value))
    (parentOnCrypt : Bool) (parentFstype : String) :
    flatDev (.object (Value.insertMember "children" value members)) parentOnCrypt parentFstype =
      flatDev (.object members) parentOnCrypt parentFstype := by
  have sameMountpoint := get_insertMember (show "children" ≠ "mountpoint" by decide) value members
  have sameMountpoints := get_insertMember (show "children" ≠ "mountpoints" by decide) value members
  simp only [flatDev, mountpointsOf, Value.stringAt, Value.arrayAt, sameMountpoint, sameMountpoints,
    field_insertChildren (show "children" ≠ "type" by decide)]

theorem NodesReordered.nil {nodes other : List Value} (reordered : NodesReordered nodes other)
    (empty : nodes = []) : other = [] := by
  induction reordered with
  | refl nodes => exact empty
  | swap first second rest => cases empty
  | cons head _ _ => cases empty
  | children rest listed _ _ => cases empty
  | trans _ _ ihFirst ihSecond => exact ihSecond (ihFirst empty)

theorem NodesReordered.forest_reordered {nodes other : List Value}
    (reordered : NodesReordered nodes other) (parentOnCrypt : Bool) (parentFstype : String) :
    Reordered (deviceForest parentOnCrypt parentFstype nodes)
      (deviceForest parentOnCrypt parentFstype other) := by
  induction reordered generalizing parentOnCrypt parentFstype with
  | refl nodes => exact .refl _
  | swap first second rest =>
      simp only [deviceForest_cons]
      exact .swap _ _ _
  | cons head _ ih =>
      simp only [deviceForest_cons]
      exact .cons _ (ih _ _)
  | @children members rest kids other listed _ ih =>
      simp only [deviceForest_cons, flatDev_insertChildren, arrayAt_insertMember,
        arrayAt_of_member listed, field_insertChildren (show "children" ≠ "fstype" by decide)]
      exact .kids _ _ (ih _ _)
  | trans _ _ ihFirst ihSecond => exact .trans (ihFirst _ _) (ihSecond _ _)

private theorem deviceForest_eq_cons {parentOnCrypt : Bool} {parentFstype : String}
    {nodes : List Value} {head : Rose FlatDev} {tail : List (Rose FlatDev)}
    (atForest : deviceForest parentOnCrypt parentFstype nodes = head :: tail) :
    ∃ node rest, nodes = node :: rest ∧
      head = .node (flatDev node parentOnCrypt parentFstype)
        (deviceForest (flatDev node parentOnCrypt parentFstype).onCrypt
          (field node "fstype") (node.arrayAt "children")) ∧
      deviceForest parentOnCrypt parentFstype rest = tail := by
  cases nodes with
  | nil =>
      rw [deviceForest_nil] at atForest
      cases atForest
  | cons node rest =>
      rw [deviceForest_cons] at atForest
      obtain ⟨atHead, atTail⟩ := List.cons.inj atForest
      exact ⟨node, rest, rfl, atHead.symm, atTail⟩

theorem NodesReordered.of_forest {parentOnCrypt : Bool} {parentFstype : String}
    {nodes : List Value} {forest : List (Rose FlatDev)}
    (reordered : Reordered (deviceForest parentOnCrypt parentFstype nodes) forest) :
    ∃ other, NodesReordered nodes other ∧
      deviceForest parentOnCrypt parentFstype other = forest := by
  generalize atForest : deviceForest parentOnCrypt parentFstype nodes = start
    at reordered
  induction reordered generalizing parentOnCrypt parentFstype nodes with
  | refl forest => exact ⟨nodes, .refl nodes, atForest⟩
  | swap first second rest =>
      obtain ⟨a, tail, rfl, atA, atTail⟩ := deviceForest_eq_cons atForest
      obtain ⟨b, tail, rfl, atB, atRest⟩ := deviceForest_eq_cons atTail
      refine ⟨b :: a :: tail, .swap a b tail, ?_⟩
      rw [deviceForest_cons, deviceForest_cons, atRest, atA, atB]
  | cons head _ ih =>
      obtain ⟨a, tail, rfl, atA, atTail⟩ := deviceForest_eq_cons atForest
      obtain ⟨other, changed, atOther⟩ := ih atTail
      refine ⟨a :: other, .cons a changed, ?_⟩
      rw [deviceForest_cons, atOther, atA]
  | kids label rest _ ih =>
      obtain ⟨a, tail, rfl, atA, atTail⟩ := deviceForest_eq_cons atForest
      cases atA
      obtain ⟨other, changed, atOther⟩ := ih rfl
      rcases a.arrayAt_cases "children" with nothing | ⟨members, rfl, listed⟩
      · -- Without children there is nothing to reorder beneath it.
        refine ⟨a :: tail, .refl _, ?_⟩
        rw [changed.nil nothing] at atOther
        rw [deviceForest_cons, atTail, nothing, atOther]
      · refine ⟨_, .children tail listed changed, ?_⟩
        simp only [deviceForest_cons, flatDev_insertChildren, arrayAt_insertMember,
          field_insertChildren (show "children" ≠ "fstype" by decide), atOther, atTail]
  | trans _ _ ihFirst ihSecond =>
      obtain ⟨middle, first, atMiddle⟩ := ihFirst atForest
      obtain ⟨other, second, atOther⟩ := ihSecond atMiddle
      exact ⟨other, .trans first second, atOther⟩

theorem LsblkReordered.forest_reordered {doc other : Value} (reordered : LsblkReordered doc other) :
    Reordered (lsblkForest doc) (lsblkForest other) := by
  unfold lsblkForest
  cases reordered with
  | same => exact .refl _
  | blockdevices listed changed =>
      rw [arrayAt_insertMember, arrayAt_of_member listed]
      exact changed.forest_reordered _ _

theorem LsblkReordered.of_forest {doc : Value} {forest : List (Rose FlatDev)}
    (reordered : Reordered (lsblkForest doc) forest) :
    ∃ other, LsblkReordered doc other ∧ lsblkForest other = forest := by
  obtain ⟨devs, changed, atDevs⟩ := NodesReordered.of_forest reordered
  rcases doc.arrayAt_cases "blockdevices" with nothing | ⟨members, rfl, listed⟩
  · refine ⟨doc, .same doc, ?_⟩
    rw [changed.nil nothing] at atDevs
    unfold lsblkForest
    rw [nothing, atDevs]
  · refine ⟨_, .blockdevices listed changed, ?_⟩
    unfold lsblkForest
    rw [arrayAt_insertMember, atDevs]

section HomeMount

variable (mounts : List MountEntry) (home : String)

def mountpointsAbove (devs : List FlatDev) : List String :=
  (mounts.map MountEntry.mountpoint ++ devs.flatMap FlatDev.mountpoints).filter fun mp =>
    pathStartsWith home.toList mp.toList

/-- A mountpoint above the directory that no other one above it exceeds in length. -/
def isHomeMount (devs : List FlatDev) (mp : String) : Bool :=
  pathStartsWith home.toList mp.toList &&
    (mountpointsAbove mounts home devs).all fun other => other.utf8ByteSize ≤ mp.utf8ByteSize

def homeMountOn (devs : List FlatDev) (d : FlatDev) : Option String :=
  d.mountpoints.findRev? (isHomeMount mounts home devs)

def holdsHome (devs : List FlatDev) (d : FlatDev) : Bool := (homeMountOn mounts home devs d).isSome

variable {mounts home}

theorem maxByKey_mountpointsAbove (devs : List FlatDev) :
    maxByKey String.utf8ByteSize (mountpointsAbove mounts home devs) =
      ((devs.findRev? (holdsHome mounts home devs)).bind (homeMountOn mounts home devs)).or
        ((mounts.map MountEntry.mountpoint).findRev? (isHomeMount mounts home devs)) := by
  have scanned : maxByKey String.utf8ByteSize (mountpointsAbove mounts home devs) =
      (mounts.map MountEntry.mountpoint ++ devs.flatMap FlatDev.mountpoints).findRev?
        (isHomeMount mounts home devs) := by
    rw [maxByKey_eq_findRev?, List.findRev?_eq_find?_reverse, List.findRev?_eq_find?_reverse]
    conv => lhs; rw [mountpointsAbove]
    rw [← List.filter_reverse, List.find?_filter]
    simp only [Bool.decide_and, Bool.decide_eq_true]
    rfl
  rw [scanned, findRev?_append, findRev?_flatMap]
  rfl

theorem mountOf_eq (devs : List FlatDev) :
    mountOf devs mounts home =
      (((devs.findRev? (holdsHome mounts home devs)).bind (homeMountOn mounts home devs)).or
        ((mounts.map MountEntry.mountpoint).findRev? (isHomeMount mounts home devs))).getD home := by
  rw [← maxByKey_mountpointsAbove]
  rfl

theorem mountpointsAbove_perm {devs other : List FlatDev} (permuted : devs.Perm other) :
    (mountpointsAbove mounts home devs).Perm (mountpointsAbove mounts home other) :=
  ((permuted.flatMap_right FlatDev.mountpoints).append_left _).filter _

theorem isHomeMount_perm {devs other : List FlatDev} (permuted : devs.Perm other) :
    isHomeMount mounts home devs = isHomeMount mounts home other := by
  funext mp
  unfold isHomeMount
  congr 1
  rw [Bool.eq_iff_iff, List.all_eq_true, List.all_eq_true]
  have same : (mountpointsAbove mounts home devs).Perm (mountpointsAbove mounts home other) :=
    mountpointsAbove_perm permuted
  exact ⟨fun below mp' above => below mp' (same.mem_iff.mpr above),
    fun below mp' above => below mp' (same.mem_iff.mp above)⟩

theorem homeMountOn_perm {devs other : List FlatDev} (permuted : devs.Perm other) :
    homeMountOn mounts home devs = homeMountOn mounts home other := by
  funext d
  unfold homeMountOn
  rw [isHomeMount_perm permuted]

theorem holdsHome_perm {devs other : List FlatDev} (permuted : devs.Perm other) :
    holdsHome mounts home devs = holdsHome mounts home other := by
  funext d
  unfold holdsHome
  rw [homeMountOn_perm permuted]

theorem homeMountOn_some {devs : List FlatDev} {d : FlatDev} {mp : String}
    (found : homeMountOn mounts home devs d = some mp) :
    d.lists mp = true ∧ isHomeMount mounts home devs mp = true := by
  rw [homeMountOn, List.findRev?_eq_find?_reverse] at found
  exact ⟨FlatDev.lists_iff.mpr (List.mem_reverse.mp (List.mem_of_find?_eq_some found)),
    List.find?_some found⟩

theorem holdsHome_of_lists {devs : List FlatDev} {d : FlatDev} {mp : String}
    (lists : d.lists mp = true) (longest : isHomeMount mounts home devs mp = true) :
    holdsHome mounts home devs d = true := by
  unfold holdsHome homeMountOn
  rw [List.findRev?_eq_find?_reverse, List.find?_isSome]
  exact ⟨mp, List.mem_reverse.mpr (FlatDev.lists_iff.mp lists), longest⟩

theorem mountOf_unlisted {devs : List FlatDev}
    (absent : ∀ d ∈ devs, holdsHome mounts home devs d = false) :
    ∀ d ∈ devs, d.lists (mountOf devs mounts home) = false := by
  have noDevice : devs.findRev? (holdsHome mounts home devs) = none := findRev?_eq_none.mpr absent
  intro d member
  rw [mountOf_eq, noDevice, Option.bind_none, Option.none_or]
  by_contra lists
  rw [Bool.not_eq_false] at lists
  have held : holdsHome mounts home devs d = true := by
    cases fromMounts : (mounts.map MountEntry.mountpoint).findRev?
        (isHomeMount mounts home devs) with
    | some mp =>
        rw [fromMounts] at lists
        rw [List.findRev?_eq_find?_reverse] at fromMounts
        exact holdsHome_of_lists lists (List.find?_some fromMounts)
    | none =>
        -- The directory itself is listed, and it lies under itself.
        rw [fromMounts, Option.getD_none] at lists
        have above : home ∈ mountpointsAbove mounts home devs :=
          List.mem_filter.mpr ⟨List.mem_append_right _
            (List.mem_flatMap.mpr ⟨d, member, FlatDev.lists_iff.mp lists⟩),
            pathStartsWith_refl home.toList⟩
        have nothing : maxByKey String.utf8ByteSize (mountpointsAbove mounts home devs) = none := by
          rw [maxByKey_mountpointsAbove, noDevice, fromMounts]
          rfl
        rw [maxByKey_eq_none] at nothing
        rw [nothing] at above
        cases above
  rw [absent d member] at held
  cases held

end HomeMount

/-! ### The verdicts some order can give -/

section Verdicts

variable (mounts : List MountEntry) (home : String)

/-- A verdict on the home directory that some order of the forest gives: the
last device to hold it names the mountpoint, and the first to list that
mountpoint is judged. -/
inductive HomeVerdict (forest : List (Rose FlatDev)) : String → Prop where
  | listed {mount : String} {first last : FlatDev}
      (ends : Ends (FlatDev.lists mount) (holdsHome mounts home (preorder forest)) forest
        first last)
      (onLast : homeMountOn mounts home (preorder forest) last = some mount) :
      HomeVerdict forest (deviceVerdict mounts mount first)

variable {mounts home}

theorem HomeVerdict.reordered {forest other : List (Rose FlatDev)} {verdict : String}
    (given : HomeVerdict mounts home other verdict) (same : Reordered forest other) :
    HomeVerdict mounts home forest verdict := by
  cases given with
  | listed ends onLast =>
      rw [← holdsHome_perm same.preorder_perm] at ends
      rw [← homeMountOn_perm same.preorder_perm] at onLast
      exact .listed (ends.reordered same) onLast

private theorem determine_scan {forest : List (Rose FlatDev)} {mount : String}
    {first last : FlatDev}
    (atFirst : (preorder forest).find? (FlatDev.lists mount) = some first)
    (atLast : (preorder forest).findRev? (holdsHome mounts home (preorder forest)) = some last)
    (onLast : homeMountOn mounts home (preorder forest) last = some mount) :
    determine (preorder forest) mounts (mountOf (preorder forest) mounts home) =
      deviceVerdict mounts mount first := by
  have atMount : mountOf (preorder forest) mounts home = mount := by
    rw [mountOf_eq, atLast, Option.bind_some, onLast]
    rfl
  rw [atMount, determine_eq, atFirst]
  rfl

theorem homeVerdict_of_listing {forest : List (Rose FlatDev)} {last : FlatDev}
    (atLast : (preorder forest).findRev? (holdsHome mounts home (preorder forest)) = some last) :
    HomeVerdict mounts home forest
      (determine (preorder forest) mounts (mountOf (preorder forest) mounts home)) := by
  have found := atLast
  rw [List.findRev?_eq_find?_reverse] at found
  have held := List.find?_some found
  obtain ⟨mount, onLast⟩ := Option.isSome_iff_exists.mp held
  obtain ⟨lists, longest⟩ := homeMountOn_some onLast
  have listed : ((preorder forest).find? (FlatDev.lists mount)).isSome = true := by
    rw [List.find?_isSome]
    exact ⟨last, List.mem_reverse.mp (List.mem_of_find?_eq_some found), lists⟩
  obtain ⟨first, atFirst⟩ := Option.isSome_iff_exists.mp listed
  rw [determine_scan atFirst atLast onLast]
  exact .listed (ends_of_preorder (fun d lists => holdsHome_of_lists lists longest) forest
    atFirst atLast) onLast

theorem HomeVerdict.given {forest : List (Rose FlatDev)} {verdict : String}
    (possible : HomeVerdict mounts home forest verdict) :
    ∃ other, Reordered forest other ∧
      determine (preorder other) mounts (mountOf (preorder other) mounts home) = verdict := by
  cases possible with
  | listed ends onLast =>
      obtain ⟨other, same, atFirst, atLast⟩ := ends.brought_together
      rw [holdsHome_perm same.preorder_perm] at atLast
      rw [homeMountOn_perm same.preorder_perm] at onLast
      exact ⟨other, same, determine_scan atFirst atLast onLast⟩

theorem determine_unheld {devs : List FlatDev}
    (absent : devs.findRev? (holdsHome mounts home devs) = none) :
    determine devs mounts (mountOf devs mounts home) =
      (mountDecision mounts (((mounts.map MountEntry.mountpoint).findRev?
        (isHomeMount mounts home devs)).getD home)).getD "unknown" := by
  have unlisted := mountOf_unlisted (findRev?_eq_none.mp absent)
  have none : devs.find? (FlatDev.lists (mountOf devs mounts home)) = none := by
    rw [List.find?_eq_none]
    intro d member
    simp [unlisted d member]
  rw [determine_eq, none, mountOf_eq, absent]
  rfl

end Verdicts

/-- For every listing of the same devices in another order, the rows give the
same two verdicts. -/
def VerdictsIgnoreOrder (doc : Value) (procMounts : String) (home : Option String) : Prop :=
  ∀ (crates : Crates) (text text' : String) (other : Value), crates.fromStr text = some doc →
    crates.fromStr text' = some other → LsblkReordered doc other →
    let rows := buildDiskEncryptionRows crates (some text) procMounts home
    let rows' := buildDiskEncryptionRows crates (some text') procMounts home
    rootEncrypted rows = rootEncrypted rows' ∧ homeEncrypted rows = homeEncrypted rows'

/-- A root that no mount type decides is encrypted only where every node that
lists it is of type `crypt`, or is under one. -/
def RootYesCoversEveryNode (doc : Value) (procMounts : String) (home : Option String) : Prop :=
  ∀ (crates : Crates) (text : String), crates.fromStr text = some doc →
    mountDecision (parseProcMounts procMounts) "/" = none →
    rootEncrypted (buildDiskEncryptionRows crates (some text) procMounts home) = some "yes" →
    ∀ above node, Listed (doc.arrayAt "blockdevices") above node → "/" ∈ mountpointsOf node →
      ∃ device ∈ above ++ [node], field device "type" = "crypt"

/-- The topmost devices that list the root agree on whether they are on a mapper. -/
def RootVerdictSettled (doc : Value) (mounts : List MountEntry) : Prop :=
  mountDecision mounts "/" = none →
    ∀ first second, Outermost (FlatDev.lists "/") (lsblkForest doc) first →
      Outermost (FlatDev.lists "/") (lsblkForest doc) second → first.onCrypt = second.onCrypt

/-- All the ways in which a device can be the one that decides for the home agree. -/
def HomeVerdictSettled (doc : Value) (mounts : List MountEntry) (home : Option String) : Prop :=
  ∀ h, home = some h → h ≠ "" →
    ∀ first second, HomeVerdict mounts h (lsblkForest doc) first →
      HomeVerdict mounts h (lsblkForest doc) second → first = second

private theorem verdicts_of_text {crates : Crates} {text : String} {doc : Value}
    (parsed : crates.fromStr text = some doc) (procMounts : String) (home : Option String) :
    let devs := preorder (lsblkForest doc)
    let rows := buildDiskEncryptionRows crates (some text) procMounts home
    rootEncrypted rows = some (determine devs (parseProcMounts procMounts) "/") ∧
      homeEncrypted rows = some (determineHome devs (parseProcMounts procMounts) home) := by
  have verdicts := buildDiskEncryptionRows_verdicts crates (some text) procMounts home
  simp only [Option.map_some, Option.getD_some, parseLsblk_eq_preorder parsed] at verdicts
  exact verdicts

private theorem VerdictsIgnoreOrder.determine_eq {doc other : Value} {procMounts : String}
    {home : Option String} (ignores : VerdictsIgnoreOrder doc procMounts home)
    (reordered : LsblkReordered doc other) :
    let mounts := parseProcMounts procMounts
    determine (preorder (lsblkForest doc)) mounts "/" =
        determine (preorder (lsblkForest other)) mounts "/" ∧
      determineHome (preorder (lsblkForest doc)) mounts home =
        determineHome (preorder (lsblkForest other)) mounts home := by
  let crates : Crates :=
    { Crates.uncalled with fromStr := fun text => if text = "" then some doc else some other }
  have atDoc : crates.fromStr "" = some doc := rfl
  have atOther : crates.fromStr " " = some other := rfl
  have same := ignores crates "" " " other atDoc atOther reordered
  have onDoc := verdicts_of_text atDoc procMounts home
  have onOther := verdicts_of_text atOther procMounts home
  dsimp only at same
  rw [onDoc.1, onDoc.2, onOther.1, onOther.2] at same
  exact ⟨Option.some.inj same.1, Option.some.inj same.2⟩

private theorem determine_decided {mounts : List MountEntry} {target verdict : String}
    (decided : mountDecision mounts target = some verdict) (devs : List FlatDev) :
    determine devs mounts target = verdict := by
  have judged : ∀ d, deviceVerdict mounts target d = verdict := by
    intro d
    rw [deviceVerdict, decided]
    rfl
  rw [determine_eq, decided]
  cases devs.find? (FlatDev.lists target) with
  | none => rfl
  | some d => exact judged d

private theorem determine_undecided {mounts : List MountEntry} {target : String} {d : FlatDev}
    {devs : List FlatDev} (undecided : mountDecision mounts target = none)
    (first : devs.find? (FlatDev.lists target) = some d) :
    determine devs mounts target = if d.onCrypt then "yes" else "no" := by
  rw [determine_eq, first, undecided]
  simp [deviceVerdict, undecided]

private theorem root_ignores_order {doc : Value} {mounts : List MountEntry}
    (settled : RootVerdictSettled doc mounts) {other : List (Rose FlatDev)}
    (same : Reordered (lsblkForest doc) other) :
    determine (preorder (lsblkForest doc)) mounts "/" = determine (preorder other) mounts "/" := by
  cases decision : mountDecision mounts "/" with
  | some verdict => rw [determine_decided decision, determine_decided decision]
  | none =>
      cases first : (preorder (lsblkForest doc)).find? (FlatDev.lists "/") with
      | none =>
          have otherFirst : (preorder other).find? (FlatDev.lists "/") = none := by
            rw [List.find?_eq_none] at first ⊢
            exact fun d member => first d (same.preorder_perm.mem_iff.mpr member)
          rw [determine_eq, determine_eq, first, otherFirst]
      | some d =>
          have listed : ((preorder other).find? (FlatDev.lists "/")).isSome = true := by
            rw [List.find?_isSome]
            exact ⟨d, same.preorder_perm.mem_iff.mp (List.mem_of_find?_eq_some first),
              List.find?_some first⟩
          obtain ⟨e, otherFirst⟩ := Option.isSome_iff_exists.mp listed
          have agree := settled decision d e (outermost_of_find? _ first)
            ((outermost_of_find? _ otherFirst).reordered same)
          rw [determine_undecided decision first, determine_undecided decision otherFirst, agree]

private theorem home_ignores_order {doc : Value} {mounts : List MountEntry}
    {home : Option String} (settled : HomeVerdictSettled doc mounts home)
    {other : List (Rose FlatDev)} (same : Reordered (lsblkForest doc) other) :
    determineHome (preorder (lsblkForest doc)) mounts home =
      determineHome (preorder other) mounts home := by
  cases home with
  | none => rfl
  | some h =>
      by_cases empty : h = ""
      · simp only [determineHome, if_pos empty]
      · simp only [determineHome, if_neg empty]
        have permuted := same.preorder_perm
        cases atLast : (preorder (lsblkForest doc)).findRev?
            (holdsHome mounts h (preorder (lsblkForest doc))) with
        | some last =>
            have held : ((preorder other).findRev?
                (holdsHome mounts h (preorder other))).isSome = true := by
              rw [List.findRev?_eq_find?_reverse] at atLast ⊢
              rw [List.find?_isSome]
              refine ⟨last, List.mem_reverse.mpr (permuted.mem_iff.mp
                (List.mem_reverse.mp (List.mem_of_find?_eq_some atLast))), ?_⟩
              rw [← holdsHome_perm permuted]
              exact List.find?_some atLast
            obtain ⟨otherLast, atOtherLast⟩ := Option.isSome_iff_exists.mp held
            exact settled h rfl empty _ _ (homeVerdict_of_listing atLast)
              ((homeVerdict_of_listing atOtherLast).reordered same)
        | none =>
            have noneOther : (preorder other).findRev? (holdsHome mounts h (preorder other)) =
                none := by
              rw [findRev?_eq_none] at atLast ⊢
              intro d member
              rw [← holdsHome_perm permuted]
              exact atLast d (permuted.mem_iff.mpr member)
            rw [determine_unheld atLast, determine_unheld noneOther, isHomeMount_perm permuted]

private theorem VerdictsIgnoreOrder.forest_eq {doc : Value} {procMounts : String}
    {home : Option String} (ignores : VerdictsIgnoreOrder doc procMounts home)
    {forest : List (Rose FlatDev)} (same : Reordered (lsblkForest doc) forest) :
    determine (preorder (lsblkForest doc)) (parseProcMounts procMounts) "/" =
        determine (preorder forest) (parseProcMounts procMounts) "/" ∧
      determineHome (preorder (lsblkForest doc)) (parseProcMounts procMounts) home =
        determineHome (preorder forest) (parseProcMounts procMounts) home := by
  obtain ⟨other, reordered, rfl⟩ := LsblkReordered.of_forest same
  exact ignores.determine_eq reordered

private theorem VerdictsIgnoreOrder.root_settled {doc : Value} {procMounts : String}
    {home : Option String} (ignores : VerdictsIgnoreOrder doc procMounts home) :
    RootVerdictSettled doc (parseProcMounts procMounts) := by
  intro undecided first second atFirst atSecond
  obtain ⟨one, sameOne, foundFirst⟩ := atFirst.brought_first
  obtain ⟨two, sameTwo, foundSecond⟩ := atSecond.brought_first
  have agree := (ignores.forest_eq sameOne).1.symm.trans (ignores.forest_eq sameTwo).1
  rw [determine_undecided undecided foundFirst, determine_undecided undecided foundSecond] at agree
  revert agree
  cases first.onCrypt <;> cases second.onCrypt <;> decide

private theorem VerdictsIgnoreOrder.home_settled {doc : Value} {procMounts : String}
    {home : Option String} (ignores : VerdictsIgnoreOrder doc procMounts home) :
    HomeVerdictSettled doc (parseProcMounts procMounts) home := by
  rintro h rfl nonempty first second atFirst atSecond
  obtain ⟨one, sameOne, givenFirst⟩ := atFirst.given
  obtain ⟨two, sameTwo, givenSecond⟩ := atSecond.given
  have agree := (ignores.forest_eq sameOne).2.symm.trans (ignores.forest_eq sameTwo).2
  simp only [determineHome, if_neg nonempty] at agree
  rw [givenFirst, givenSecond] at agree
  exact agree

private theorem RootVerdictSettled.covers {doc : Value} {procMounts : String}
    (settled : RootVerdictSettled doc (parseProcMounts procMounts)) (home : Option String) :
    RootYesCoversEveryNode doc procMounts home := by
  intro crates text parsed undecided yes above node listed isRoot
  rw [(verdicts_of_text parsed procMounts home).1, Option.some.injEq] at yes
  obtain ⟨dev, inside, sameMountpoints, flag⟩ := listed.flattened false ""
  have listsRoot : dev.lists "/" = true := by
    rw [FlatDev.lists_iff, sameMountpoints]
    exact isRoot
  have found : ((preorder (lsblkForest doc)).find? (FlatDev.lists "/")).isSome = true := by
    rw [List.find?_isSome]
    exact ⟨dev, inside, listsRoot⟩
  obtain ⟨first, atFirst⟩ := Option.isSome_iff_exists.mp found
  rw [determine_undecided undecided atFirst] at yes
  have firstOnCrypt : first.onCrypt = true := by
    by_contra plain
    rw [if_neg plain] at yes
    exact absurd yes (by decide)
  have everywhere := (deviceForest_inherited false "" (doc.arrayAt "blockdevices")).of_outermost
    (lsblkForest doc) (fun top outermost => by
      rw [← settled undecided first top (outermost_of_find? _ atFirst) outermost]
      exact firstOnCrypt) dev inside listsRoot
  rw [flag, Bool.false_or, List.any_eq_true] at everywhere
  obtain ⟨device, member, isCrypt⟩ := everywhere
  exact ⟨device, member, by simpa using isCrypt⟩

/-- The order of the listing decides nothing, and a root that is encrypted is
encrypted at every node, exactly where the topmost devices of the root agree
and every order gives the home one verdict. -/
theorem diskEncryption_orderFree_iff (doc : Value) (procMounts : String) (home : Option String) :
    VerdictsIgnoreOrder doc procMounts home ∧ RootYesCoversEveryNode doc procMounts home ↔
      RootVerdictSettled doc (parseProcMounts procMounts) ∧
        HomeVerdictSettled doc (parseProcMounts procMounts) home := by
  constructor
  · rintro ⟨ignores, _⟩
    exact ⟨ignores.root_settled, ignores.home_settled⟩
  · rintro ⟨rootSettled, homeSettled⟩
    refine ⟨?_, rootSettled.covers home⟩
    intro crates text text' other parsed parsed' reordered
    have onDoc := verdicts_of_text parsed procMounts home
    have onOther := verdicts_of_text parsed' procMounts home
    dsimp only
    rw [onDoc.1, onDoc.2, onOther.1, onOther.2,
      root_ignores_order rootSettled reordered.forest_reordered,
      home_ignores_order homeSettled reordered.forest_reordered]
    exact ⟨rfl, rfl⟩

/-- A root volume over two disks, as `lsblk` prints it under each: on a mapper
under the first, plain under the second. -/
private def rootVolume : Value := .object [("type", .string "lvm"), ("mountpoint", .string "/")]

private def mapper : Value :=
  .object [("type", .string "crypt"), ("children", .array [rootVolume])]

private def cryptDisk : Value := .object [("type", .string "disk"), ("children", .array [mapper])]

private def plainDisk : Value :=
  .object [("type", .string "disk"), ("children", .array [rootVolume])]

private def listing (devs : List Value) : Value := .object [("blockdevices", .array devs)]

/-- The rows say `yes` with the mapper listed first and `no` with it listed last,
and one of the two nodes that list the root is on no mapper. -/
theorem diskEncryption_order_decides :
    ¬ VerdictsIgnoreOrder (listing [cryptDisk, plainDisk]) "" none ∧
      ¬ RootYesCoversEveryNode (listing [cryptDisk, plainDisk]) "" none := by
  have cryptChildren : cryptDisk.arrayAt "children" = [mapper] := rfl
  have mapperChildren : mapper.arrayAt "children" = [rootVolume] := rfl
  have plainChildren : plainDisk.arrayAt "children" = [rootVolume] := rfl
  have volumeChildren : rootVolume.arrayAt "children" = [] := rfl
  have cryptFirst : determine (preorder (lsblkForest (listing [cryptDisk, plainDisk]))) [] "/" =
      "yes" := by
    rw [show lsblkForest (listing [cryptDisk, plainDisk]) =
      deviceForest false "" [cryptDisk, plainDisk] from rfl]
    simp only [deviceForest_cons, cryptChildren, mapperChildren, plainChildren, volumeChildren,
      deviceForest_nil, preorder_cons, preorder_nil]
    decide
  have plainFirst : determine (preorder (lsblkForest (listing [plainDisk, cryptDisk]))) [] "/" =
      "no" := by
    rw [show lsblkForest (listing [plainDisk, cryptDisk]) =
      deviceForest false "" [plainDisk, cryptDisk] from rfl]
    simp only [deviceForest_cons, cryptChildren, mapperChildren, plainChildren, volumeChildren,
      deviceForest_nil, preorder_cons, preorder_nil]
    decide
  constructor
  · intro ignores
    have swapped :
        LsblkReordered (listing [cryptDisk, plainDisk]) (listing [plainDisk, cryptDisk]) :=
      .blockdevices rfl (.swap cryptDisk plainDisk [])
    have same := (ignores.determine_eq swapped).1
    have noMounts : parseProcMounts "" = [] := by decide
    rw [noMounts] at same
    rw [cryptFirst, plainFirst] at same
    exact absurd same (by decide)
  · intro covers
    let crates : Crates :=
      { Crates.uncalled with fromStr := fun _ => some (listing [cryptDisk, plainDisk]) }
    have parsed : crates.fromStr "" = some (listing [cryptDisk, plainDisk]) := rfl
    have yes := (verdicts_of_text parsed "" none).1
    have noMounts : parseProcMounts "" = [] := by decide
    rw [noMounts, cryptFirst] at yes
    have underPlain : Listed ((listing [cryptDisk, plainDisk]).arrayAt "blockdevices") [plainDisk]
        rootVolume :=
      .under (List.mem_cons_of_mem _ List.mem_cons_self) (.top List.mem_cons_self)
    obtain ⟨device, member, isCrypt⟩ := covers crates "" parsed (by decide) yes _ _ underPlain
      (by decide)
    rcases List.mem_cons.mp member with rfl | last
    · exact absurd isCrypt (by decide)
    · rw [List.mem_singleton.mp last] at isCrypt
      exact absurd isCrypt (by decide)

end KlaayGuard
