/-
What the agent takes from crates outside its own source, as parameters, and
the hex rendering it puts on their digests.
-/

import KlaayGuard.Json

set_option autoImplicit false

namespace KlaayGuard

/-- The functions the code calls and does not define. -/
structure Crates : Type where
  /-- `serde_json::from_str::<Value>`. -/
  fromStr : String → Option Value
  /-- `unicode_properties`: the general category is `Format`. -/
  isFormat : Char → Bool
  /-- HMAC-SHA-256 of a message under a key. -/
  hmacSha256 : String → String → { bytes : List UInt8 // bytes.length = 32 }

def Crates.uncalled : Crates :=
  { fromStr := fun _ => none
    isFormat := fun _ => false
    hmacSha256 := fun _ _ => ⟨List.replicate 32 0, rfl⟩ }

def hexDigit (value : Nat) : Char :=
  if value < 10 then Char.ofNat (48 + value) else Char.ofNat (87 + value)

def hexLower (bytes : List UInt8) : String :=
  String.ofList (bytes.flatMap fun byte => [hexDigit (byte.toNat / 16), hexDigit (byte.toNat % 16)])

theorem hexLower_length (bytes : List UInt8) :
    (hexLower bytes).toList.length = 2 * bytes.length := by
  simp only [hexLower, String.toList_ofList]
  induction bytes with
  | nil => rfl
  | cons byte rest ih =>
      simp only [List.flatMap_cons, List.length_append, List.length_cons, List.length_nil, ih]
      omega

end KlaayGuard
