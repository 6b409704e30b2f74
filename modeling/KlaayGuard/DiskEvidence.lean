/-
The verdicts of the disk-encryption rows and the evidence beside them.

The evidence names the mappers and the encrypted mounts; the verdicts read a flag
that every device inherits from the mappers above it.  A "yes" therefore has a
mapper or a mount behind it, and a "no" a device without one.
-/

import KlaayGuard.LsblkOrder

set_option autoImplicit false

namespace KlaayGuard

open RoseForest

/-- The mechanisms are those of the rows, each of them once. -/
structure Evidence.Agrees (evidence : Evidence) : Prop where
  nodup : evidence.mechanisms.Nodup
  named : ∀ mechanism, mechanism ∈ evidence.mechanisms ↔
    ∃ row ∈ evidence.rows, row.stringAt "mechanism" = some mechanism

theorem Evidence.Agrees.push {evidence : Evidence} (agrees : evidence.Agrees)
    {mechanism : String} {row : Value} (names : row.stringAt "mechanism" = some mechanism) :
    (evidence.push mechanism row).Agrees where
  nodup := by
    unfold Evidence.push
    dsimp only
    split
    · exact agrees.nodup
    · rename_i fresh
      rw [List.nodup_append]
      refine ⟨agrees.nodup, List.pairwise_singleton _ _, ?_⟩
      intro earlier listed last atLast same
      rw [List.mem_singleton.mp atLast] at same
      exact fresh (same ▸ listed)
  named := by
    intro other
    have member : other ∈ (evidence.push mechanism row).mechanisms ↔
        other ∈ evidence.mechanisms ∨ other = mechanism := by
      unfold Evidence.push
      dsimp only
      split
      · rename_i known
        constructor
        · exact .inl
        · rintro (earlier | rfl)
          · exact earlier
          · exact known
      · rw [List.mem_append, List.mem_singleton]
    rw [member, agrees.named]
    constructor
    · rintro (⟨earlier, listed, names⟩ | rfl)
      · exact ⟨earlier, List.mem_append_left _ listed, names⟩
      · exact ⟨row, List.mem_append_right _ (List.mem_singleton_self _), names⟩
    · rintro ⟨found, listed, otherNames⟩
      rcases List.mem_append.mp listed with earlier | last
      · exact .inl ⟨found, earlier, otherNames⟩
      · rw [List.mem_singleton.mp last, names] at otherNames
        exact .inr (Option.some.inj otherNames).symm

theorem Evidence.Agrees.deviceEvidence {evidence : Evidence} (agrees : evidence.Agrees)
    (d : FlatDev) : (deviceEvidence evidence d).Agrees :=
  agrees.push rfl

theorem Evidence.Agrees.mountEvidence {evidence : Evidence} (agrees : evidence.Agrees)
    (m : MountEntry) : (mountEvidence evidence m).Agrees := by
  unfold KlaayGuard.mountEvidence
  cases encryptedMountMechanism m.fstype with
  | some mechanism => exact agrees.push rfl
  | none => exact agrees

variable {devs : List FlatDev} {mounts : List MountEntry}

theorem diskEvidence_agrees (devs : List FlatDev) (mounts : List MountEntry) :
    (diskEvidence devs mounts).Agrees := by
  refine List.foldlRecOn _ _ (List.foldlRecOn _ _ ?_ ?_) ?_
  · exact ⟨List.nodup_nil, fun mechanism => by simp⟩
  · exact fun evidence agrees d _ => agrees.deviceEvidence d
  · exact fun evidence agrees m _ => agrees.mountEvidence m

private theorem foldl_rows {α : Type} {step : Evidence → α → Evidence}
    (keeps : ∀ evidence item, evidence.rows ≠ [] → (step evidence item).rows ≠ [])
    {items : List α} {item : α} (listed : item ∈ items)
    (adds : ∀ evidence, (step evidence item).rows ≠ []) (evidence : Evidence) :
    (items.foldl step evidence).rows ≠ [] := by
  obtain ⟨before, after, rfl⟩ := List.append_of_mem listed
  rw [List.foldl_append, List.foldl_cons]
  exact List.foldlRecOn (motive := fun evidence => evidence.rows ≠ []) after step (adds _)
    fun evidence found item _ => keeps evidence item found

private theorem deviceEvidence_rows (evidence : Evidence) (d : FlatDev) :
    (deviceEvidence evidence d).rows ≠ [] := by
  simp [deviceEvidence, Evidence.push]

private theorem mountEvidence_rows (evidence : Evidence) (m : MountEntry)
    (found : evidence.rows ≠ []) : (mountEvidence evidence m).rows ≠ [] := by
  unfold mountEvidence
  cases encryptedMountMechanism m.fstype with
  | some mechanism => simp [Evidence.push]
  | none => exact found

theorem diskEvidence_rows_of_crypt {d : FlatDev} (listed : d ∈ devs) (crypt : d.kind = "crypt") :
    (diskEvidence devs mounts).rows ≠ [] := by
  have kept : d ∈ devs.filter fun d => d.kind == "crypt" :=
    List.mem_filter.mpr ⟨listed, beq_iff_eq.mpr crypt⟩
  exact List.foldlRecOn (motive := fun evidence => evidence.rows ≠ []) mounts mountEvidence
    (foldl_rows (fun evidence d _ => deviceEvidence_rows evidence d) kept
      (fun evidence => deviceEvidence_rows evidence d) _)
    fun evidence found m _ => mountEvidence_rows evidence m found

theorem diskEvidence_rows_of_mount {m : MountEntry} (listed : m ∈ mounts)
    (encrypted : (encryptedMountMechanism m.fstype).isSome) :
    (diskEvidence devs mounts).rows ≠ [] := by
  obtain ⟨mechanism, named⟩ := Option.isSome_iff_exists.mp encrypted
  refine foldl_rows mountEvidence_rows listed (fun evidence => ?_) _
  rw [mountEvidence, named]
  simp [Evidence.push]

theorem listed_of_flattened (nodes : List Value) {parentOnCrypt : Bool} {parentFstype : String}
    {dev : FlatDev} (member : dev ∈ preorder (deviceForest parentOnCrypt parentFstype nodes)) :
    ∃ above node, Listed nodes above node ∧ dev.mountpoints = mountpointsOf node ∧
      dev.onCrypt = (parentOnCrypt ||
        (above ++ [node]).any fun device => field device "type" == "crypt") := by
  induction nodes using nodesInduction generalizing parentOnCrypt parentFstype with
  | nil => simp at member
  | cons node rest ihChildren ihRest =>
      rw [deviceForest_cons, preorder_cons, List.mem_cons, List.mem_append] at member
      rcases member with rfl | under | later
      · exact ⟨[], node, .top List.mem_cons_self, rfl, by simp [flatDev]⟩
      · obtain ⟨above, inner, listed, mountpoints, flag⟩ := ihChildren under
        refine ⟨node :: above, inner, .under List.mem_cons_self listed, mountpoints, ?_⟩
        rw [flag, List.cons_append, List.any_cons, ← Bool.or_assoc]
        rfl
      · obtain ⟨above, inner, listed, mountpoints, flag⟩ := ihRest later
        refine ⟨above, inner, ?_, mountpoints, flag⟩
        cases listed with
        | top member => exact .top (List.mem_cons_of_mem _ member)
        | under member deeper => exact .under (List.mem_cons_of_mem _ member) deeper

theorem crypt_of_onCrypt (nodes : List Value) {parentOnCrypt : Bool} {parentFstype : String}
    {dev : FlatDev} (member : dev ∈ preorder (deviceForest parentOnCrypt parentFstype nodes))
    (onCrypt : dev.onCrypt = true) :
    parentOnCrypt = true ∨
      ∃ mapper ∈ preorder (deviceForest parentOnCrypt parentFstype nodes),
        mapper.kind = "crypt" := by
  induction nodes using nodesInduction generalizing parentOnCrypt parentFstype with
  | nil => simp at member
  | cons node rest ihChildren ihRest =>
      -- The node's own flag is inherited, or comes from its own type.
      have atNode : (flatDev node parentOnCrypt parentFstype).onCrypt = true →
          parentOnCrypt = true ∨ (flatDev node parentOnCrypt parentFstype).kind = "crypt" := by
        intro flag
        rcases Bool.or_eq_true_iff.mp flag with inherited | own
        · exact .inl inherited
        · exact .inr (beq_iff_eq.mp own)
      rw [deviceForest_cons, preorder_cons] at member ⊢
      rw [List.mem_cons, List.mem_append] at member
      rcases member with rfl | under | later
      · exact (atNode onCrypt).imp_right fun own => ⟨_, List.mem_cons_self, own⟩
      · rcases ihChildren under with flag | ⟨mapper, inside, crypt⟩
        · exact (atNode flag).imp_right fun own => ⟨_, List.mem_cons_self, own⟩
        · exact .inr ⟨mapper, List.mem_cons_of_mem _ (List.mem_append_left _ inside), crypt⟩
      · rcases ihRest later with flag | ⟨mapper, inside, crypt⟩
        · exact .inl flag
        · exact .inr ⟨mapper, List.mem_cons_of_mem _ (List.mem_append_right _ inside), crypt⟩

section Verdicts

variable {crates : Crates} {lsblkJson : Option String} {target : String}

theorem document_of_mem {dev : FlatDev}
    (read : dev ∈ (lsblkJson.map (parseLsblk crates)).getD []) :
    ∃ text doc, lsblkJson = some text ∧ crates.fromStr text = some doc ∧
      dev ∈ preorder (deviceForest false "" (doc.arrayAt "blockdevices")) := by
  cases lsblkJson with
  | none => cases read
  | some text =>
      rw [Option.map_some, Option.getD_some] at read
      cases parsed : crates.fromStr text with
      | none =>
          rw [parseLsblk, parsed] at read
          cases read
      | some doc =>
          rw [parseLsblk_eq_preorder parsed] at read
          exact ⟨text, doc, rfl, parsed, read⟩

/-- A "yes" has an encrypted mount or a mapper behind it. -/
theorem evidence_of_yes
    (yes : determine ((lsblkJson.map (parseLsblk crates)).getD []) mounts target = "yes") :
    (diskEvidence ((lsblkJson.map (parseLsblk crates)).getD []) mounts).rows ≠ [] := by
  rw [determine] at yes
  split at yes
  · rename_i encrypted
    obtain ⟨m, listed, atTarget⟩ := List.any_eq_true.mp encrypted
    exact diskEvidence_rows_of_mount listed (Bool.and_eq_true_iff.mp atTarget).2
  · split at yes
    · simp at yes
    · split at yes
      · rename_i d found
        split at yes
        · rename_i onCrypt
          obtain ⟨text, doc, rfl, parsed, member⟩ :=
            document_of_mem (List.mem_of_find?_eq_some found)
          rcases crypt_of_onCrypt _ member onCrypt with impossible | ⟨mapper, inside, crypt⟩
          · cases impossible
          · refine diskEvidence_rows_of_crypt (d := mapper) ?_ crypt
            rw [Option.map_some, Option.getD_some, parseLsblk_eq_preorder parsed]
            exact inside
        · simp at yes
      · simp at yes

/-- A "no" has a listed device without a mapper behind it, and no mount that hides one. -/
theorem device_of_no
    (no : determine ((lsblkJson.map (parseLsblk crates)).getD []) mounts target = "no") :
    (∃ text doc above node, lsblkJson = some text ∧ crates.fromStr text = some doc ∧
      Listed (doc.arrayAt "blockdevices") above node ∧ target ∈ mountpointsOf node ∧
      ∀ device ∈ above ++ [node], field device "type" ≠ "crypt") ∧
      ∀ m ∈ mounts, m.mountpoint = target → m.fstype ≠ "ecryptfs" ∧ m.fstype ≠ "zfs" := by
  rw [determine] at no
  split at no
  · simp at no
  · rename_i unencrypted
    split at no
    · simp at no
    · rename_i noZfs
      split at no
      · rename_i d found
        split at no
        · simp at no
        · rename_i offCrypt
          obtain ⟨text, doc, given, parsed, member⟩ :=
            document_of_mem (List.mem_of_find?_eq_some found)
          obtain ⟨above, node, listed, mountpoints, flag⟩ := listed_of_flattened _ member
          rw [flag, Bool.false_or, List.any_eq_true] at offCrypt
          refine ⟨⟨text, doc, above, node, given, parsed, listed, ?_, ?_⟩, ?_⟩
          · rw [← mountpoints]
            exact FlatDev.lists_iff.mp (List.find?_some found)
          · exact fun device inside crypt => offCrypt ⟨device, inside, beq_iff_eq.mpr crypt⟩
          · intro m atMounts atTarget
            constructor
            · intro ecryptfs
              refine unencrypted (List.any_eq_true.mpr ⟨m, atMounts, ?_⟩)
              rw [atTarget, ecryptfs, beq_self_eq_true]
              rfl
            · intro zfs
              refine noZfs (List.any_eq_true.mpr ⟨m, atMounts, ?_⟩)
              rw [atTarget, zfs, beq_self_eq_true, beq_self_eq_true]
              rfl
      · simp at no

end Verdicts

def evidenceRows (rows : Value) : List Value :=
  (rows.asArray.getD []).filter fun row => row.stringAt "kind" == some "device"

def mechanismsOf (rows : Value) : Option (List String) :=
  (summary rows).map fun row => (row.arrayAt "mechanisms").filterMap Value.asStr

private theorem evidenceRows_eq (crates : Crates) (lsblkJson : Option String)
    (procMounts : String) (home : Option String) :
    let devs := (lsblkJson.map (parseLsblk crates)).getD []
    let mounts := parseProcMounts procMounts
    evidenceRows (buildDiskEncryptionRows crates lsblkJson procMounts home) =
      (diskEvidence devs mounts).rows := by
  intro devs mounts
  have devices : (diskEvidence devs mounts).rows.filter
      (fun row => row.stringAt "kind" == some "device") = (diskEvidence devs mounts).rows := by
    rw [List.filter_eq_self]
    exact fun row member => beq_iff_eq.mpr (diskEvidence_ofDevices devs mounts row member)
  unfold evidenceRows buildDiskEncryptionRows
  change ((diskEvidence devs mounts).rows ++ [_]).filter _ = _
  rw [List.filter_append, devices]
  exact List.append_nil _

private theorem mechanismsOf_eq (crates : Crates) (lsblkJson : Option String)
    (procMounts : String) (home : Option String) :
    let devs := (lsblkJson.map (parseLsblk crates)).getD []
    let mounts := parseProcMounts procMounts
    mechanismsOf (buildDiskEncryptionRows crates lsblkJson procMounts home) =
      some (diskEvidence devs mounts).mechanisms := by
  intro devs mounts
  have found : summary (buildDiskEncryptionRows crates lsblkJson procMounts home) = _ :=
    summary_append (diskEvidence_ofDevices devs mounts) rfl
  rw [mechanismsOf, found]
  change some (((diskEvidence devs mounts).mechanisms.map Value.string).filterMap Value.asStr) = _
  rw [List.filterMap_map]
  simp [Function.comp_def]

theorem verdict_and_evidence_agree (crates : Crates) (lsblkJson : Option String)
    (procMounts : String) (home : Option String) :
    let rows := buildDiskEncryptionRows crates lsblkJson procMounts home
    (∃ mechanisms, mechanismsOf rows = some mechanisms ∧ mechanisms.Nodup ∧
      ∀ mechanism, mechanism ∈ mechanisms ↔
        ∃ row ∈ evidenceRows rows, row.stringAt "mechanism" = some mechanism) ∧
    (rootEncrypted rows = some "yes" ∨ homeEncrypted rows = some "yes" →
      evidenceRows rows ≠ []) ∧
    (rootEncrypted rows = some "no" →
      (∃ text doc above node, lsblkJson = some text ∧ crates.fromStr text = some doc ∧
        Listed (doc.arrayAt "blockdevices") above node ∧ "/" ∈ mountpointsOf node ∧
        ∀ device ∈ above ++ [node], field device "type" ≠ "crypt") ∧
      ∀ m ∈ parseProcMounts procMounts, m.mountpoint = "/" →
        m.fstype ≠ "ecryptfs" ∧ m.fstype ≠ "zfs") := by
  intro rows
  have verdicts := buildDiskEncryptionRows_verdicts crates lsblkJson procMounts home
  obtain ⟨root, atHome⟩ := verdicts
  rw [evidenceRows_eq, mechanismsOf_eq]
  have agrees := diskEvidence_agrees ((lsblkJson.map (parseLsblk crates)).getD [])
    (parseProcMounts procMounts)
  refine ⟨⟨_, rfl, agrees.nodup, agrees.named⟩, ?_, ?_⟩
  · rintro (yes | yes)
    · exact evidence_of_yes (Option.some.inj (root.symm.trans yes))
    · have decided := Option.some.inj (atHome.symm.trans yes)
      unfold determineHome at decided
      split at decided
      · split at decided
        · simp at decided
        · exact evidence_of_yes decided
      · simp at decided
  · exact fun no => device_of_no (Option.some.inj (root.symm.trans no))

end KlaayGuard
