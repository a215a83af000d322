/-!
# JSON values

A value is what a JSON text stands for once its spacing and spelling are forgotten. Numbers
keep the distinction between integers and reals. The members of an object that was read are
in the order of their keys, and each key occurs once: `Value.insert` keeps both, and of two
members with one key the later wins.
-/

set_option autoImplicit false

namespace BoundedResources.Json

/-- A JSON number: an integer, or a finite double. -/
inductive Number where
  | integer (value : Int)
  | real (value : Float)
deriving Inhabited

/-- A JSON value. -/
inductive Value where
  | null
  | bool (value : Bool)
  | number (value : Number)
  | string (text : String)
  | array (items : List Value)
  | object (members : List (String × Value))
deriving Inhabited

namespace Value

/-- The value of a natural number. -/
def nat (n : Nat) : Value := .number (.integer n)

/-- The value of an optional part, `null` when it is absent. -/
def optional {α : Type} (write : α → Value) : Option α → Value
  | none => .null
  | some a => write a

/-- Puts a member into a list of members ordered by key, in place of one with the same key. -/
def insert (key : String) (value : Value) : List (String × Value) → List (String × Value)
  | [] => [(key, value)]
  | (k, v) :: rest =>
    if key = k then (key, value) :: rest
    else if key < k then (key, value) :: (k, v) :: rest
    else (k, v) :: insert key value rest

end Value

end BoundedResources.Json
