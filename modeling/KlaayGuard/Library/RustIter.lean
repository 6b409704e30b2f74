/-
`Iterator::find`, `Iterator::min_by_key` and `Iterator::max_by_key` on lists.

Both scan from the front.  Of several elements with the extreme key the minimum
is the first and the maximum is the last.
-/

import Mathlib.Data.List.Find
import Mathlib.Data.List.Induction

set_option autoImplicit false

namespace RustIter

variable {α : Type}

/-- Whatever is found is right exactly where a right one comes before each wrong one. -/
theorem find?_right_iff {accepts : α → Bool} {right : α → Prop} {items : List α} :
    (∀ item, items.find? accepts = some item → right item) ↔
      ∀ front item back, items = front ++ item :: back → accepts item = true → ¬ right item →
        ∃ earlier ∈ front, accepts earlier = true ∧ right earlier := by
  constructor
  · rintro found front item back rfl accepted wrong
    by_contra none
    cases atFront : front.find? accepts with
    | some earlier =>
        have first : (front ++ item :: back).find? accepts = some earlier := by
          rw [List.find?_append, atFront, Option.some_or]
        exact none ⟨earlier, List.mem_of_find?_eq_some atFront, List.find?_some atFront,
          found earlier first⟩
    | none =>
        have first : (front ++ item :: back).find? accepts = some item := by
          rw [List.find?_append, atFront, Option.none_or, List.find?_cons_of_pos accepted]
        exact wrong (found item first)
  · intro preceded item found
    by_contra wrong
    obtain ⟨accepted, front, back, split, refused⟩ := List.find?_eq_some_iff_append.mp found
    obtain ⟨earlier, member, alsoAccepted, _⟩ := preceded front item back split accepted wrong
    have notAccepted := refused earlier member
    rw [alsoAccepted] at notAccepted
    cases notAccepted

def minByKey (key : α → Nat) : List α → Option α
  | [] => none
  | first :: rest =>
      some (rest.foldl (fun best item => if key item < key best then item else best) first)

def maxByKey (key : α → Nat) : List α → Option α
  | [] => none
  | first :: rest =>
      some (rest.foldl (fun best item => if key best ≤ key item then item else best) first)

/-- Both scans keep one element of the list, and nothing they passed over beats
it in the order they scan by. -/
private theorem scan_spec (beats : α → α → Bool) (noLoss : α → α → Prop)
    (refl : ∀ item, noLoss item item)
    (trans : ∀ {a b c}, noLoss a b → noLoss b c → noLoss a c)
    (won : ∀ {item best}, beats item best = true → noLoss item best)
    (kept : ∀ {item best}, beats item best = false → noLoss best item)
    (items : List α) (first : α) :
    let best := items.foldl (fun best item => if beats item best then item else best) first
    best ∈ first :: items ∧ ∀ item ∈ first :: items, noLoss best item := by
  induction items generalizing first with
  | nil =>
      refine ⟨List.mem_cons_self, fun item member => ?_⟩
      obtain rfl := List.mem_singleton.mp member
      exact refl item
  | cons item items ih =>
      simp only [List.foldl_cons]
      cases decision : beats item first with
      | true =>
          obtain ⟨member, extreme⟩ := ih item
          refine ⟨List.mem_cons_of_mem _ member, fun other listed => ?_⟩
          rcases List.mem_cons.mp listed with rfl | later
          · exact trans (extreme item List.mem_cons_self) (won decision)
          · exact extreme other later
      | false =>
          obtain ⟨member, extreme⟩ := ih first
          constructor
          · rcases List.mem_cons.mp member with atFirst | later
            · exact List.mem_cons.mpr (Or.inl atFirst)
            · exact List.mem_cons_of_mem _ (List.mem_cons_of_mem _ later)
          · intro other listed
            rcases List.mem_cons.mp listed with rfl | later
            · exact extreme other List.mem_cons_self
            · rcases List.mem_cons.mp later with rfl | rest
              · exact trans (extreme first List.mem_cons_self) (kept decision)
              · exact extreme other (List.mem_cons_of_mem _ rest)

theorem maxByKey_spec {key : α → Nat} {items : List α} {best : α}
    (found : maxByKey key items = some best) :
    best ∈ items ∧ ∀ item ∈ items, key item ≤ key best := by
  cases items with
  | nil => cases found
  | cons first rest =>
      have scanned := scan_spec (fun item best => decide (key best ≤ key item))
        (fun best item => key item ≤ key best) (fun _ => Nat.le_refl _)
        (fun ab bc => Nat.le_trans bc ab) (fun won => of_decide_eq_true won)
        (fun kept => Nat.le_of_not_le (of_decide_eq_false kept)) rest first
      simp only [decide_eq_true_eq] at scanned
      obtain rfl := Option.some.inj found
      exact scanned

theorem minByKey_spec {key : α → Nat} {items : List α} {best : α}
    (found : minByKey key items = some best) :
    best ∈ items ∧ ∀ item ∈ items, key best ≤ key item := by
  cases items with
  | nil => cases found
  | cons first rest =>
      have scanned := scan_spec (fun item best => decide (key item < key best))
        (fun best item => key best ≤ key item) (fun _ => Nat.le_refl _)
        (fun ab bc => Nat.le_trans ab bc) (fun won => Nat.le_of_lt (of_decide_eq_true won))
        (fun kept => Nat.le_of_not_lt (of_decide_eq_false kept)) rest first
      simp only [decide_eq_true_eq] at scanned
      obtain rfl := Option.some.inj found
      exact scanned

theorem minByKey_eq_none {key : α → Nat} {items : List α} :
    minByKey key items = none ↔ items = [] := by
  cases items <;> simp [minByKey]

theorem maxByKey_eq_none {key : α → Nat} {items : List α} :
    maxByKey key items = none ↔ items = [] := by
  cases items <;> simp [maxByKey]

private theorem maxByKey_concat (key : α → Nat) (items : List α) (last : α) :
    maxByKey key (items ++ [last]) =
      match maxByKey key items with
      | none => some last
      | some best => some (if key best ≤ key last then last else best) := by
  cases items with
  | nil => rfl
  | cons first rest => simp [maxByKey, List.foldl_append]

/-- The maximum is the last of the elements that no other exceeds. -/
theorem maxByKey_eq_findRev? (key : α → Nat) (items : List α) :
    maxByKey key items =
      items.findRev? fun best => items.all fun item => decide (key item ≤ key best) := by
  induction items using List.reverseRecOn with
  | nil => rfl
  | append_singleton items last ih =>
      rw [maxByKey_concat]
      cases earlier : maxByKey key items with
      | none =>
          rw [maxByKey_eq_none] at earlier
          subst earlier
          simp
      | some best =>
          obtain ⟨member, most⟩ := maxByKey_spec earlier
          simp only [List.findRev?_eq_find?_reverse, List.reverse_append, List.reverse_singleton,
            List.singleton_append, List.find?_cons]
          by_cases reached : key best ≤ key last
          · have top : (items ++ [last]).all (fun item => decide (key item ≤ key last)) = true := by
              simp only [List.all_append, List.all_cons, List.all_nil, Bool.and_true,
                Bool.and_eq_true, List.all_eq_true, decide_eq_true_eq]
              exact ⟨fun item listed => Nat.le_trans (most item listed) reached, Nat.le_refl _⟩
            rw [top]
            simp only [if_pos reached]
          · have notTop : (items ++ [last]).all (fun item => decide (key item ≤ key last)) =
                false := by
              rw [List.all_eq_false]
              exact ⟨best, List.mem_append_left _ member, by simpa using reached⟩
            -- The last element is beaten, so it excludes no element that beats all the others.
            have same : ∀ item ∈ items.reverse,
                (items ++ [last]).all (fun other => decide (key other ≤ key item)) =
                  items.all fun other => decide (key other ≤ key item) := by
              intro item _
              rw [Bool.eq_iff_iff]
              simp only [List.all_append, List.all_cons, List.all_nil, Bool.and_true,
                Bool.and_eq_true, List.all_eq_true, decide_eq_true_eq]
              constructor
              · exact fun both => both.1
              · intro below
                have bestBelow := below best member
                exact ⟨below, by omega⟩
            rw [notTop]
            simp only [if_neg reached]
            rw [earlier, List.findRev?_eq_find?_reverse] at ih
            rw [ih]
            exact (List.find?_congr same).symm

end RustIter
