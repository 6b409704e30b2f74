/-
Maps built by inserting entries one after another.

Inserting a key again replaces its value, so what such a map holds in the end
is each entry that no later one with the same key follows.  Only the multiset
of the entries is described: the order of a hash map is its own.
-/

import Mathlib.Data.List.Perm.Basic
import Mathlib.Data.List.Nodup

set_option autoImplicit false

namespace EffectProgram

variable {κ β γ : Type} [DecidableEq κ]

/-- The entries that no later entry replaces. -/
def lastByKey : List (κ × β) → List (κ × β)
  | [] => []
  | entry :: rest =>
      if entry.1 ∈ rest.map Prod.fst then lastByKey rest else entry :: lastByKey rest

def withoutKeys (entries others : List (κ × β)) : List (κ × β) :=
  entries.filter fun entry => entry.1 ∉ others.map Prod.fst

theorem lastByKey_of_nodup {entries : List (κ × β)}
    (distinct : (entries.map Prod.fst).Nodup) : lastByKey entries = entries := by
  induction entries with
  | nil => rfl
  | cons entry rest ih =>
      rw [List.map_cons, List.nodup_cons] at distinct
      rw [lastByKey, if_neg distinct.1, ih distinct.2]

theorem mem_keys_lastByKey {entries : List (κ × β)} {key : κ} :
    key ∈ (lastByKey entries).map Prod.fst ↔ key ∈ entries.map Prod.fst := by
  induction entries with
  | nil => exact Iff.rfl
  | cons entry rest ih =>
      rw [lastByKey, List.map_cons, List.mem_cons]
      by_cases later : entry.1 ∈ rest.map Prod.fst
      · rw [if_pos later, ih]
        constructor
        · exact Or.inr
        · rintro (rfl | member)
          · exact later
          · exact member
      · rw [if_neg later, List.map_cons, List.mem_cons, ih]

theorem withoutKeys_congr {entries others same : List (κ × β)}
    (keys : ∀ key, key ∈ others.map Prod.fst ↔ key ∈ same.map Prod.fst) :
    withoutKeys entries others = withoutKeys entries same := by
  simp only [withoutKeys, keys]

theorem lastByKey_append (first second : List (κ × β)) :
    lastByKey (first ++ second) = withoutKeys (lastByKey first) second ++ lastByKey second := by
  induction first with
  | nil => rfl
  | cons entry rest ih =>
      rw [List.cons_append, lastByKey, lastByKey, List.map_append]
      by_cases later : entry.1 ∈ rest.map Prod.fst
      · rw [if_pos (List.mem_append_left _ later), if_pos later, ih]
      · by_cases replaced : entry.1 ∈ second.map Prod.fst
        · rw [if_pos (List.mem_append_right _ replaced), if_neg later, ih, withoutKeys, withoutKeys,
            List.filter_cons_of_neg (by simpa using replaced)]
        · have kept : entry.1 ∉ rest.map Prod.fst ++ second.map Prod.fst := by
            rw [List.mem_append]
            exact not_or_intro later replaced
          rw [if_neg kept, if_neg later, ih, withoutKeys, withoutKeys,
            List.filter_cons_of_pos (by simpa using replaced), List.cons_append]

theorem lastByKey_map (change : β → γ) (entries : List (κ × β)) :
    lastByKey (entries.map (Prod.map id change)) =
      (lastByKey entries).map (Prod.map id change) := by
  induction entries with
  | nil => rfl
  | cons entry rest ih =>
      have keys : (rest.map (Prod.map id change)).map Prod.fst = rest.map Prod.fst := by
        rw [List.map_map]
        rfl
      rw [List.map_cons, lastByKey, lastByKey, keys, ih]
      change (if entry.1 ∈ rest.map Prod.fst then _ else _) = _
      split
      · rfl
      · rfl

theorem mem_lastByKey_append {first second : List (κ × β)} {entry : κ × β}
    (member : entry ∈ lastByKey second) : entry ∈ lastByKey (first ++ second) := by
  rw [lastByKey_append]
  exact List.mem_append_right _ member

theorem foldl_insert_perm {insert : κ → β → List (κ × β) → List (κ × β)}
    (replaces : ∀ key value (entries : List (κ × β)), (entries.map Prod.fst).Nodup →
      (insert key value entries).Perm
        ((key, value) :: entries.filter fun entry => entry.1 ≠ key))
    (entries start : List (κ × β)) (distinct : (start.map Prod.fst).Nodup) :
    (entries.foldl (fun all entry => insert entry.1 entry.2 all) start).Perm
        (withoutKeys start entries ++ lastByKey entries) ∧
      ((entries.foldl (fun all entry => insert entry.1 entry.2 all) start).map
        Prod.fst).Nodup := by
  induction entries generalizing start with
  | nil =>
      refine ⟨?_, distinct⟩
      simp [withoutKeys, lastByKey]
  | cons entry rest ih =>
      have inserted := replaces entry.1 entry.2 start distinct
      have stillDistinct : ((insert entry.1 entry.2 start).map Prod.fst).Nodup := by
        rw [(inserted.map Prod.fst).nodup_iff, List.map_cons, List.nodup_cons]
        constructor
        · simp
        · exact distinct.sublist (List.filter_sublist.map Prod.fst)
      obtain ⟨whole, nodup⟩ := ih (insert entry.1 entry.2 start) stillDistinct
      refine ⟨whole.trans ?_, nodup⟩
      have kept : (withoutKeys (insert entry.1 entry.2 start) rest).Perm
          (withoutKeys ((entry.1, entry.2) :: start.filter fun other => other.1 ≠ entry.1) rest) :=
        inserted.filter _
      have others : withoutKeys (start.filter fun other => other.1 ≠ entry.1) rest =
          withoutKeys start (entry :: rest) := by
        simp only [withoutKeys, List.filter_filter, List.map_cons, List.mem_cons, not_or]
        congr 1
        funext other
        rw [Bool.and_comm]
        simp
      refine (kept.append_right _).trans ?_
      rw [lastByKey]
      by_cases later : entry.1 ∈ rest.map Prod.fst
      · rw [if_pos later, withoutKeys, List.filter_cons_of_neg (by simpa using later)]
        exact List.Perm.of_eq (congrArg (· ++ lastByKey rest) others)
      · rw [if_neg later, withoutKeys, List.filter_cons_of_pos (by simpa using later)]
        change ((entry :: withoutKeys (start.filter fun other => other.1 ≠ entry.1) rest) ++
          lastByKey rest).Perm _
        rw [others, List.cons_append]
        exact List.perm_middle.symm

/-- The map of a first list of entries, extended by the map of a second one. -/
theorem extend_perm {insert : κ → β → List (κ × β) → List (κ × β)}
    (replaces : ∀ key value (entries : List (κ × β)), (entries.map Prod.fst).Nodup →
      (insert key value entries).Perm
        ((key, value) :: entries.filter fun entry => entry.1 ≠ key))
    (first second : List (κ × β)) :
    ((second.foldl (fun all entry => insert entry.1 entry.2 all) []).foldl
      (fun all entry => insert entry.1 entry.2 all)
      (first.foldl (fun all entry => insert entry.1 entry.2 all) [])).Perm
      (lastByKey (first ++ second)) := by
  obtain ⟨firstMap, firstDistinct⟩ := foldl_insert_perm replaces first [] List.nodup_nil
  obtain ⟨secondMap, secondDistinct⟩ := foldl_insert_perm replaces second [] List.nodup_nil
  simp only [withoutKeys, List.filter_nil, List.nil_append] at firstMap secondMap
  have whole := (foldl_insert_perm replaces
    (second.foldl (fun all entry => insert entry.1 entry.2 all) [])
    (first.foldl (fun all entry => insert entry.1 entry.2 all) []) firstDistinct).1
  rw [lastByKey_of_nodup secondDistinct] at whole
  have keys : ∀ key,
      key ∈ (second.foldl (fun all entry => insert entry.1 entry.2 all) []).map Prod.fst ↔
        key ∈ second.map Prod.fst := fun key =>
    ((secondMap.map Prod.fst).mem_iff).trans mem_keys_lastByKey
  rw [withoutKeys_congr keys] at whole
  rw [lastByKey_append]
  exact whole.trans ((firstMap.filter _).append secondMap)

end EffectProgram
