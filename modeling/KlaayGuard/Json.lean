/-
The JSON values the agent reads and writes: `serde_json::Value` with the
accessors the code uses.  Parsing a text into a value is the crate's own work
and is a parameter where a caller needs it.
-/

set_option autoImplicit false

namespace KlaayGuard

/-- The three representations of `serde_json::Number`. -/
inductive Number : Type where
  | posInt (value : Nat)
  | negInt (value : Int)
  | float (bits : UInt64)
  deriving DecidableEq, Repr

/-- An object keeps its members in a list; a lookup takes the first with the
key, and the crate never builds two members with one key. -/
inductive Value : Type where
  | null
  | bool (value : Bool)
  | number (value : Number)
  | string (text : String)
  | array (elements : List Value)
  | object (members : List (String × Value))
  deriving Repr

namespace Value

def member (key : String) : List (String × Value) → Option Value
  | [] => none
  | (name, value) :: rest => if name = key then some value else member key rest

/-- `Value::get` with a string key. -/
def get (value : Value) (key : String) : Option Value :=
  match value with
  | .object members => member key members
  | _ => none

def asStr : Value → Option String
  | .string text => some text
  | _ => none

def asArray : Value → Option (List Value)
  | .array elements => some elements
  | _ => none

/-- `Map::insert`: replaces the value of a present key, else adds the member. -/
def insertMember (key : String) (value : Value) :
    List (String × Value) → List (String × Value)
  | [] => [(key, value)]
  | (name, old) :: rest =>
      if name = key then (name, value) :: rest
      else (name, old) :: insertMember key value rest

@[simp] theorem member_insertMember_self (key : String) (value : Value)
    (members : List (String × Value)) :
    member key (insertMember key value members) = some value := by
  induction members with
  | nil => simp [insertMember, member]
  | cons head rest ih =>
      by_cases same : head.1 = key
      · simp [insertMember, member, same]
      · simp [insertMember, member, same, ih]

theorem member_insertMember_of_ne {key other : String} (differ : key ≠ other) (value : Value)
    (members : List (String × Value)) :
    member other (insertMember key value members) = member other members := by
  induction members with
  | nil => simp [insertMember, member, differ]
  | cons head rest ih =>
      by_cases same : head.1 = key
      · simp [insertMember, member, same, differ]
      · simp [insertMember, member, same, ih]

def stringAt (value : Value) (key : String) : Option String :=
  (value.get key).bind asStr

@[simp] theorem get_object_cons (name : String) (value : Value)
    (rest : List (String × Value)) (key : String) :
    (object ((name, value) :: rest)).get key =
      if name = key then some value else (object rest).get key := rfl

@[simp] theorem get_object_nil (key : String) : (object []).get key = none := rfl

@[simp] theorem asStr_string (text : String) : (string text).asStr = some text := rfl

@[simp] theorem asArray_array (elements : List Value) :
    (array elements).asArray = some elements := rfl

end Value

end KlaayGuard
