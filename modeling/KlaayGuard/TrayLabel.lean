/-
The line the tray shows for the signed-in person, read from a `/me` reply.
-/

import KlaayGuard.Crates
import KlaayGuard.Library.RustText

set_option autoImplicit false

namespace KlaayGuard

open RustText

def labelMaxChars : Nat := 48

/-- Characters that paint no glyph of their own but shape the one beside them. -/
def bindsWithoutPainting (c : Char) : Bool :=
  let n := c.toNat
  n == 0x200D || (0xFE00 ≤ n && n ≤ 0xFE0F) || (0xE0100 ≤ n && n ≤ 0xE01EF)

variable (crates : Crates)

/-- Characters that paint no glyph and bind nothing to the character beside
them: the format characters, four letters used as fillers and the empty
braille cell. -/
def paintsNothing (c : Char) : Bool :=
  if bindsWithoutPainting c then false
  else
    let n := c.toNat
    crates.isFormat c || n == 0x115F || n == 0x1160 || n == 0x3164 || n == 0xFFA0 || n == 0x2800

def oneLine (value : String) : String :=
  let parts := value.toList.splitOnP fun c =>
    isControl c || isWhitespace c || paintsNothing crates c
  String.ofList ([' '].intercalate (parts.filter fun part => !part.isEmpty))

def capLabel (label : String) : String :=
  if label.toList.length ≤ labelMaxChars then label
  else String.ofList (label.toList.take (labelMaxChars - 1) ++ ['…'])

def labelField (attributes : Value) (key : String) : Option String :=
  ((attributes.stringAt key).map (oneLine crates)).filter fun value =>
    value.toList.any fun c => !bindsWithoutPainting c

def identityLabel (me : Value) : Option String :=
  match (me.get "data").bind fun data => data.get "attributes" with
  | none => none
  | some attributes =>
      let name := " ".intercalate [labelField crates attributes "first_name",
        labelField crates attributes "last_name"].reduceOption
      if name ≠ "" then some (capLabel name)
      else (labelField crates attributes "email").map capLabel

end KlaayGuard
