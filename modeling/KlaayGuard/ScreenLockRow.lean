/-
The row that reports a screen lock: the same five fields on every platform.
-/

import KlaayGuard.Json

set_option autoImplicit false

namespace KlaayGuard

def fmtOpt {α : Type} [ToString α] (v : Option α) : String := (v.map toString).getD "unset"

def screenlockRow (de enabled : String) (delaySeconds : Option Nat) (source detail : String) :
    Value :=
  .array [.object
    [("desktop_environment", .string de), ("enabled", .string enabled),
      ("delay_seconds", match delaySeconds with
        | some secs => .number (.posInt secs)
        | none => .null),
      ("source", .string source), ("detail", .string detail)]]

def rowEnabled (row : Value) : Option String :=
  (row.asArray.bind List.head?).bind fun first => first.stringAt "enabled"

def rowDelaySeconds (row : Value) : Option Nat :=
  (row.asArray.bind List.head?).bind fun first =>
    match first.get "delay_seconds" with
    | some (.number (.posInt secs)) => some secs
    | _ => none

@[simp] theorem rowEnabled_screenlockRow (de enabled : String) (delay : Option Nat)
    (source detail : String) :
    rowEnabled (screenlockRow de enabled delay source detail) = some enabled := rfl

@[simp] theorem rowDelaySeconds_screenlockRow (de enabled : String) (delay : Option Nat)
    (source detail : String) :
    rowDelaySeconds (screenlockRow de enabled delay source detail) = delay := by
  cases delay with
  | none => rfl
  | some _ => rfl

end KlaayGuard
