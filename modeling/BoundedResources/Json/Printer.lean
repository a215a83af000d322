import BoundedResources.Json.Value
import BoundedResources.Decimal.Shortest

/-!
# Writing JSON

A value is written without blanks. Strings escape quotes, backslashes and control characters
and nothing else. Doubles have the fewest digits that read back; they are positional from
`0.00001` up to below `1e+16` and otherwise have one digit in front of the point.
-/

set_option autoImplicit false

namespace BoundedResources.Json

/-- How doubles are written. -/
def doubleStyle : Decimal.Style where
  firstPositional := -5
  lastPositional := 15
  plus := "+"

/-- A double in its JSON spelling. -/
def doubleText (x : Float) : String := Decimal.floatText doubleStyle x

namespace Printer

/-- A character as it stands in a string: escaped if it is a quote, a backslash or a control
character. -/
def escaped (c : Char) : List Char :=
  if c = '"' then ['\\', '"']
  else if c = '\\' then ['\\', '\\']
  else if c = '\x08' then ['\\', 'b']
  else if c = '\x0c' then ['\\', 'f']
  else if c = '\n' then ['\\', 'n']
  else if c = '\r' then ['\\', 'r']
  else if c = '\t' then ['\\', 't']
  else if c.toNat < 0x20 then
    ['\\', 'u', '0', '0', Nat.digitChar (c.toNat / 16), Nat.digitChar (c.toNat % 16)]
  else [c]

/-- A text in quotes. -/
def string (s : String) : List Char := '"' :: s.toList.flatMap escaped ++ ['"']

/-- A number. -/
def number : Number → List Char
  | .integer n => (toString n).toList
  | .real x => (doubleText x).toList

mutual

/-- The characters of a value. -/
def value : Value → List Char
  | .null => "null".toList
  | .bool true => "true".toList
  | .bool false => "false".toList
  | .number n => number n
  | .string s => string s
  | .array items => '[' :: itemList items ++ [']']
  | .object members => '\x7b' :: memberList members ++ ['\x7d']

/-- Items separated by commas. -/
def itemList : List Value → List Char
  | [] => []
  | [v] => value v
  | v :: rest => value v ++ ',' :: itemList rest

/-- Members separated by commas. -/
def memberList : List (String × Value) → List Char
  | [] => []
  | [(k, v)] => string k ++ ':' :: value v
  | (k, v) :: rest => string k ++ ':' :: value v ++ ',' :: memberList rest

end

end Printer

/-- The text of a value. -/
def Value.text (v : Value) : String := String.ofList (Printer.value v)

end BoundedResources.Json
