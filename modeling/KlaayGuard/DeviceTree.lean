/-
What `parse_lsblk` makes of the tree of devices: one entry for a node, in preorder.

An entry is described by its node and by the nodes above it, so the two values that
the recursion hands down are said here without it.
-/

import KlaayGuard.LsblkOrder

set_option autoImplicit false

namespace KlaayGuard

open RoseForest

def nodeForest : List Value → List (Rose Value)
  | [] => []
  | node :: rest => .node node (nodeForest (node.arrayAt "children")) :: nodeForest rest
termination_by nodes => sizeOf nodes
decreasing_by
  · have smaller := Value.sizeOf_arrayAt_le node "children"
    simp only [List.cons.sizeOf_spec]
    omega
  · simp only [List.cons.sizeOf_spec]
    omega

@[simp] theorem nodeForest_nil : nodeForest [] = [] := by
  rw [nodeForest]

theorem nodeForest_cons (node : Value) (rest : List Value) :
    nodeForest (node :: rest) =
      .node node (nodeForest (node.arrayAt "children")) :: nodeForest rest := by
  rw [nodeForest]

/-- The nodes of an `lsblk -J` value in preorder, each with the nodes above it. -/
def lsblkNodes (doc : Value) : List (List Value × Value) :=
  preorderUnder [] (nodeForest (doc.arrayAt "blockdevices"))

def statedMountpoints (node : Value) : List String :=
  ((node.stringAt "mountpoint").toList ++
    (node.arrayAt "mountpoints").filterMap Value.asStr).filter (· ≠ "")

private theorem push_new (seen : List String) (mp : String) :
    (if mp ∈ seen.eraseDups then seen.eraseDups else seen.eraseDups ++ [mp]) =
      (seen ++ [mp]).eraseDups := by
  rw [List.eraseDups_append]
  by_cases old : mp ∈ seen
  · rw [if_pos (List.mem_eraseDups.mpr old)]
    simp [List.removeAll, old]
  · have kept : [mp].removeAll seen = [mp] := by simp [List.removeAll, old]
    rw [if_neg (mt List.mem_eraseDups.mp old), kept]
    rfl

private theorem push_all (seen entries : List String) :
    entries.foldl (fun out m => if m ≠ "" ∧ ¬ m ∈ out then out ++ [m] else out) seen.eraseDups =
      (seen ++ entries.filter (· ≠ "")).eraseDups := by
  induction entries generalizing seen with
  | nil => simp
  | cons mp rest ih =>
      rw [List.foldl_cons]
      by_cases empty : mp = ""
      · have skipped : ¬ (mp ≠ "" ∧ ¬ mp ∈ seen.eraseDups) := fun pushed => pushed.1 empty
        rw [if_neg skipped, ih, List.filter_cons_of_neg (by simpa using empty)]
      · have pushed : (if mp ≠ "" ∧ ¬ mp ∈ seen.eraseDups then seen.eraseDups ++ [mp]
            else seen.eraseDups) = (seen ++ [mp]).eraseDups := by
          rw [← push_new]
          by_cases old : mp ∈ seen.eraseDups
          · rw [if_pos old, if_neg fun new => new.2 old]
          · rw [if_neg old, if_pos ⟨empty, old⟩]
        rw [pushed, ih, List.filter_cons_of_pos (by simpa using empty), List.append_assoc,
          List.singleton_append]

theorem mountpointsOf_eq (node : Value) :
    mountpointsOf node = (statedMountpoints node).eraseDups := by
  unfold mountpointsOf statedMountpoints
  rw [List.filter_append]
  cases node.stringAt "mountpoint" with
  | none => exact push_all [] _
  | some mp =>
      by_cases empty : mp = ""
      · subst empty
        exact push_all [] _
      · have own : [mp].filter (· ≠ "") = [mp] := by simp [empty]
        have pushed := push_all [mp] ((node.arrayAt "mountpoints").filterMap Value.asStr)
        have single : [mp].eraseDups = [mp] := rfl
        rw [single] at pushed
        dsimp only
        rw [if_neg empty, Option.toList_some, own]
        exact pushed

/-- The entry of a node under the given nodes, which are listed from the root down. -/
structure Describes (entry : List Value × Value) (dev : FlatDev) : Prop where
  kind : dev.kind = field entry.2 "type"
  onCrypt : dev.onCrypt = true ↔ ∃ device ∈ entry.1 ++ [entry.2], field device "type" = "crypt"
  parentFstype : dev.parentFstype = (entry.1.getLast?.map (field · "fstype")).getD ""
  mountpoints : dev.mountpoints = (statedMountpoints entry.2).eraseDups
  distinct : dev.mountpoints.Nodup

private theorem eraseDups_nodup (texts : List String) : texts.eraseDups.Nodup := by
  generalize atLength : texts.length = length
  induction length using Nat.strongRecOn generalizing texts with
  | ind length ih =>
      cases texts with
      | nil => simp
      | cons text rest =>
          rw [List.eraseDups_cons, List.nodup_cons]
          refine ⟨by simp [List.mem_eraseDups], ih _ ?_ _ rfl⟩
          rw [← atLength, List.length_cons]
          exact Nat.lt_succ_of_le (List.length_filter_le _ _)

def cryptAbove (above : List Value) : Bool := above.any fun device => field device "type" == "crypt"

def fstypeAbove (above : List Value) : String := (above.getLast?.map (field · "fstype")).getD ""

private theorem cryptAbove_concat (above : List Value) (node : Value) :
    cryptAbove (above ++ [node]) = (cryptAbove above || field node "type" == "crypt") := by
  simp [cryptAbove]

theorem describes_flatDev (above : List Value) (node : Value) :
    Describes (above, node) (flatDev node (cryptAbove above) (fstypeAbove above)) where
  kind := rfl
  onCrypt := by
    change (cryptAbove above || field node "type" == "crypt") = true ↔ _
    rw [← cryptAbove_concat, cryptAbove, List.any_eq_true]
    simp only [beq_iff_eq]
  parentFstype := rfl
  mountpoints := mountpointsOf_eq node
  distinct := by
    change (mountpointsOf node).Nodup
    rw [mountpointsOf_eq]
    exact eraseDups_nodup _

/-- `walk` on each node of an array, under the nodes above the array. -/
theorem walk_describes (above nodes : List Value) :
    List.Forall₂ Describes (preorderUnder above (nodeForest nodes))
      (nodes.flatMap fun node => walk node (cryptAbove above) (fstypeAbove above)) := by
  induction nodes using nodesInduction generalizing above with
  | nil => simp
  | cons node rest ihChildren ihRest =>
      have handed := ihChildren (above ++ [node])
      rw [cryptAbove_concat, fstypeAbove, List.getLast?_concat, Option.map_some,
        Option.getD_some] at handed
      rw [nodeForest_cons, preorderUnder_cons, List.flatMap_cons, walk_eq, List.cons_append]
      exact .cons (describes_flatDev above node) (List.rel_append handed (ihRest above))

/-- One entry for each node of the tree, in preorder. -/
theorem parseLsblk_describes {crates : Crates} {json : String} {doc : Value}
    (parsed : crates.fromStr json = some doc) :
    List.Forall₂ Describes (lsblkNodes doc) (parseLsblk crates json) := by
  rw [parseLsblk, parsed]
  exact walk_describes [] _

private def readsOnly (text : String) (doc : Value) : Crates :=
  { Crates.uncalled with fromStr := fun json => if json = text then some doc else none }

private theorem readsOnly_fromStr (text : String) (doc : Value) :
    (readsOnly text doc).fromStr text = some doc := if_pos rfl

private def luksMapper : Value :=
  .object [("type", .string "crypt"), ("fstype", .null),
    ("mountpoints", .array [.string "/", .null, .string "/home", .string "/"])]

private def luksPartition : Value :=
  .object [("type", .string "part"), ("fstype", .string "crypto_LUKS"), ("mountpoint", .null),
    ("children", .array [luksMapper])]

private def luksListing : String :=
  "\x7b\"blockdevices\":[\x7b\"type\":\"part\",\"fstype\":\"crypto_LUKS\",\"mountpoint\":null," ++
    "\"children\":[\x7b\"type\":\"crypt\",\"fstype\":null," ++
    "\"mountpoints\":[\"/\",null,\"/home\",\"/\"]\x7d]\x7d]\x7d"

theorem parseLsblk_describes_luks :
    ∃ crates part mapper, parseLsblk crates luksListing = [part, mapper] ∧
      Describes ([], luksPartition) part ∧ Describes ([luksPartition], luksMapper) mapper := by
  let doc : Value := .object [("blockdevices", .array [luksPartition])]
  have parsed := readsOnly_fromStr luksListing doc
  have described := parseLsblk_describes parsed
  have kids : luksPartition.arrayAt "children" = [luksMapper] := rfl
  have bare : luksMapper.arrayAt "children" = [] := rfl
  have nodes : lsblkNodes doc =
      [([], luksPartition), ([luksPartition], luksMapper)] := by
    change preorderUnder [] (nodeForest [luksPartition]) = _
    simp only [nodeForest_cons, kids, bare, nodeForest_nil, preorderUnder_cons,
      preorderUnder_nil, List.nil_append, List.append_nil]
  rw [nodes] at described
  obtain ⟨part, rest, first, later, whole⟩ := List.forall₂_cons_left_iff.mp described
  obtain ⟨mapper, last, second, nothing, atEnd⟩ := List.forall₂_cons_left_iff.mp later
  rw [List.forall₂_nil_left_iff.mp nothing] at atEnd
  exact ⟨_, part, mapper, by rw [whole, atEnd], first, second⟩

end KlaayGuard
