/-
Decoding UTF-8 without failing: what was encoded comes back, and no byte is lost
without a trace.
-/

import KlaayGuard.Library.RustText

set_option autoImplicit false

namespace RustText

private theorem toNat_byte {n : Nat} (small : n < 256) : (UInt8.ofNat n).toNat = n := by
  rw [UInt8.toNat_ofNat']
  exact Nat.mod_eq_of_lt small

section Character

variable {value low high digit : Nat} (rest : List UInt8)

private theorem from_last (small : digit < 64) (above : low ≤ digit + 0x80)
    (below : digit + 0x80 ≤ high) :
    fromUtf8LossyFrom (.pending 1 value low high) (UInt8.ofNat (digit + 0x80) :: rest) =
      Char.ofNat (64 * value + digit) :: fromUtf8LossyFrom .idle rest := by
  rw [fromUtf8LossyFrom, toNat_byte (by omega), utf8Step, if_pos ⟨above, below⟩, if_pos rfl,
    Nat.add_sub_cancel]
  rfl

private theorem from_next {needed : Nat} (small : digit < 64) (above : low ≤ digit + 0x80)
    (below : digit + 0x80 ≤ high) :
    fromUtf8LossyFrom (.pending (needed + 2) value low high) (UInt8.ofNat (digit + 0x80) :: rest) =
      fromUtf8LossyFrom (.pending (needed + 1) (64 * value + digit) 0x80 0xBF) rest := by
  rw [fromUtf8LossyFrom, toNat_byte (by omega), utf8Step, if_pos ⟨above, below⟩,
    if_neg (by omega), Nat.add_sub_cancel]
  rfl

private theorem from_one (small : value < 0x80) :
    fromUtf8LossyFrom .idle (UInt8.ofNat value :: rest) =
      Char.ofNat value :: fromUtf8LossyFrom .idle rest := by
  rw [fromUtf8LossyFrom, toNat_byte (by omega), utf8Step, utf8Start, if_pos small]
  rfl

private theorem from_two (above : 2 ≤ value) (below : value < 0x20) :
    fromUtf8LossyFrom .idle (UInt8.ofNat (value + 0xC0) :: rest) =
      fromUtf8LossyFrom (.pending 1 value 0x80 0xBF) rest := by
  rw [fromUtf8LossyFrom, toNat_byte (by omega), utf8Step, utf8Start, if_neg (by omega),
    if_pos (by omega), Nat.add_sub_cancel]
  rfl

private theorem from_three (below : value < 0x10) :
    fromUtf8LossyFrom .idle (UInt8.ofNat (value + 0xE0) :: rest) =
      fromUtf8LossyFrom (.pending 2 value (if value = 0 then 0xA0 else 0x80)
        (if value = 13 then 0x9F else 0xBF)) rest := by
  have first : value + 0xE0 = 0xE0 ↔ value = 0 := by omega
  have surrogates : value + 0xE0 = 0xED ↔ value = 13 := by omega
  rw [fromUtf8LossyFrom, toNat_byte (by omega), utf8Step, utf8Start, if_neg (by omega),
    if_neg (by omega), if_pos (by omega), Nat.add_sub_cancel]
  simp only [first, surrogates]
  rfl

private theorem from_four (below : value < 5) :
    fromUtf8LossyFrom .idle (UInt8.ofNat (value + 0xF0) :: rest) =
      fromUtf8LossyFrom (.pending 3 value (if value = 0 then 0x90 else 0x80)
        (if value = 4 then 0x8F else 0xBF)) rest := by
  have first : value + 0xF0 = 0xF0 ↔ value = 0 := by omega
  have last : value + 0xF0 = 0xF4 ↔ value = 4 := by omega
  rw [fromUtf8LossyFrom, toNat_byte (by omega), utf8Step, utf8Start, if_neg (by omega),
    if_neg (by omega), if_neg (by omega), if_pos (by omega), Nat.add_sub_cancel]
  simp only [first, last]
  rfl

theorem fromUtf8LossyFrom_char (c : Char) :
    fromUtf8LossyFrom .idle (String.utf8EncodeChar c ++ rest) =
      c :: fromUtf8LossyFrom .idle rest := by
  have itself : Char.ofNat c.val.toNat = c := Char.ofNat_toNat c
  have valid : c.val.toNat < 0xD800 ∨ 0xDFFF < c.val.toNat ∧ c.val.toNat < 0x110000 := c.valid
  unfold String.utf8EncodeChar
  generalize c.val.toNat = n at itself valid
  dsimp only
  split
  · rename_i one
    exact (from_one rest (by omega)).trans (by rw [itself])
  · split
    · rename_i _ two
      rw [Nat.mod_eq_of_lt (by omega : n / 64 < 0x20)]
      refine (from_two _ (by omega) (by omega)).trans ?_
      refine (from_last rest (by omega) (by omega) (by omega)).trans ?_
      rw [Nat.div_add_mod n 64, itself]
    · split
      · rename_i _ _ three
        rw [Nat.mod_eq_of_lt (by omega : n / 4096 < 0x10)]
        refine (from_three _ (by omega)).trans ?_
        refine (from_next _ (by omega) (by split <;> omega) (by split <;> omega)).trans ?_
        refine (from_last rest (by omega) (by omega) (by omega)).trans ?_
        rw [show 64 * (64 * (n / 4096) + n / 64 % 64) + n % 64 = n by omega, itself]
      · rename_i _ _ four
        rw [Nat.mod_eq_of_lt (by omega : n / 262144 < 0x08)]
        refine (from_four _ (by omega)).trans ?_
        refine (from_next _ (by omega) (by split <;> omega) (by split <;> omega)).trans ?_
        refine (from_next _ (by omega) (by omega) (by omega)).trans ?_
        refine (from_last rest (by omega) (by omega) (by omega)).trans ?_
        rw [show 64 * (64 * (64 * (n / 262144) + n / 4096 % 64) + n / 64 % 64) + n % 64 = n by
          omega, itself]

end Character

/-- Encoding and decoding again changes nothing. -/
theorem fromUtf8Lossy_encoded (text : List Char) :
    fromUtf8Lossy (text.flatMap String.utf8EncodeChar) = text := by
  rw [fromUtf8Lossy]
  induction text with
  | nil => rfl
  | cons c rest ih => rw [List.flatMap_cons, fromUtf8LossyFrom_char, ih]

private theorem utf8Step_shows (state : Utf8State) (byte : Nat) :
    (utf8Step state byte).1 ≠ [] ∨ (utf8Step state byte).2 ≠ .idle := by
  have start : (utf8Start byte).1 ≠ [] ∨ (utf8Start byte).2 ≠ .idle := by
    unfold utf8Start
    repeat' split
    all_goals simp
  cases state with
  | idle => exact start
  | pending needed value low high =>
      rw [utf8Step]
      split
      · split
        · exact .inl (List.cons_ne_nil _ _)
        · exact .inr nofun
      · exact .inl (List.cons_ne_nil _ _)

theorem fromUtf8Lossy_ne_nil {bytes : List UInt8} (nonempty : bytes ≠ []) :
    fromUtf8Lossy bytes ≠ [] := by
  have shows : ∀ state, state ≠ .idle ∨ bytes ≠ [] → fromUtf8LossyFrom state bytes ≠ [] := by
    clear nonempty
    induction bytes with
    | nil =>
        intro state begun
        cases state with
        | idle => simp at begun
        | pending needed value low high => exact List.cons_ne_nil _ _
    | cons byte rest ih =>
        intro state _
        rw [fromUtf8LossyFrom]
        rcases utf8Step_shows state byte.toNat with out | next
        · exact List.append_ne_nil_of_left_ne_nil out _
        · exact List.append_ne_nil_of_right_ne_nil _ (ih _ (.inl next))
  exact shows .idle (.inr nonempty)

end RustText
