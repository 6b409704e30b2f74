/-
What encloses each character of an SQL text, read from the left.

SQLite's tokenizer knows string literals in single quotes, identifiers in
double quotes, brackets or backquotes, and two kinds of comment.  A quote that
stands for itself is doubled; leaving the literal and entering it again at once
encloses the same characters, so one region change a character is enough.
-/

import Mathlib.Data.List.Basic

set_option autoImplicit false

namespace SqlRegions

def apostrophe : Char := Char.ofNat 39
def quotationMark : Char := Char.ofNat 34
def backquote : Char := Char.ofNat 96

/-- What the characters read so far leave open.  `dash`, `slash` and
`blockStar` remember one character that may begin or end a comment. -/
inductive Region : Type where
  | code
  | dash
  | slash
  | lineComment
  | blockComment
  | blockStar
  | singleQuoted
  | doubleQuoted
  | bracketed
  | backquoted
  deriving DecidableEq, Repr

namespace Region

def fromCode (c : Char) : Region :=
  if c == '-' then .dash
  else if c == '/' then .slash
  else if c == apostrophe then .singleQuoted
  else if c == quotationMark then .doubleQuoted
  else if c == '[' then .bracketed
  else if c == backquote then .backquoted
  else .code

def next (region : Region) (c : Char) : Region :=
  match region with
  | .code => fromCode c
  | .dash => if c == '-' then .lineComment else fromCode c
  | .slash => if c == '*' then .blockComment else fromCode c
  | .lineComment => if c == Char.ofNat 10 then .code else .lineComment
  | .blockComment => if c == '*' then .blockStar else .blockComment
  | .blockStar =>
      if c == '/' then .code else if c == '*' then .blockStar else .blockComment
  | .singleQuoted => if c == apostrophe then .code else .singleQuoted
  | .doubleQuoted => if c == quotationMark then .code else .doubleQuoted
  | .bracketed => if c == ']' then .code else .bracketed
  | .backquoted => if c == backquote then .code else .backquoted

def quoted : Region → Bool
  | .singleQuoted | .doubleQuoted => true
  | _ => false

def unfinished : Region → Bool
  | .singleQuoted | .doubleQuoted | .bracketed | .backquoted => true
  | _ => false

end Region

structure Mark : Type where
  region : Region
  char : Char
  deriving DecidableEq, Repr

def marks : Region → List Char → List Mark
  | _, [] => []
  | region, c :: rest => ⟨region, c⟩ :: marks (region.next c) rest

def regionAfter (text : List Char) : Region := text.foldl Region.next .code

def textOf (piece : List Mark) : List Char := piece.map Mark.char

def inQuotes (piece : List Mark) : Bool := piece.any fun mark => mark.region.quoted

theorem textOf_marks (region : Region) (text : List Char) :
    textOf (marks region text) = text := by
  induction text generalizing region with
  | nil => rfl
  | cons c rest ih => exact congrArg (c :: ·) (ih (region.next c))

end SqlRegions
