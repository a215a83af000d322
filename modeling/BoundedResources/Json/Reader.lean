import BoundedResources.Json.Document

/-!
# Reading values out of documents

A reader takes a nesting allowance and a document and answers with a value, or with the first
fault that it meets going from left to right. A value of an unwanted kind is a mismatch, but a
fault in its own text is met before: only of a bracket is the kind known at once. Arrays and
objects that are nested deeper than the allowance are malformed.

A record is read from an object, in which unknown members are skipped and no known one may
occur twice, or from an array of its fields in order.
-/

set_option autoImplicit false

namespace BoundedResources.Json

/-- Reads a value of some type, given how many more arrays and objects may be nested. -/
abbrev Reader (α : Type) := Nat → Document → Except Fault α

/-- How deep arrays and objects may be nested. -/
def maxDepth : Nat := 127

/-- The end of an array or object, for a reader. -/
def Ending.read : Ending → Except Fault Unit
  | .closed => .ok ()
  | .broken read _ => .error read

/-- The end of an array or object, for somebody who skips it. -/
def Ending.skip : Ending → Except Fault Unit
  | .closed => .ok ()
  | .broken _ skip => .error skip

namespace Document

/-- The fault that the reader of some other kind of value meets. -/
def unwanted : Document → Fault
  | .unreadable read => read
  | .broken read _ => read
  | _ => .mismatch

/-! ## Skipping -/

mutual

/-- Skips a value of which only the form matters. -/
def skip : Document → Except Fault Unit
  | .array items ending => do skipItems items; ending.skip
  | .object members ending => do skipMembers members; ending.skip
  | .broken _ skip => .error skip
  | _ => .ok ()

/-- Skips the items of an array. -/
def skipItems : List Document → Except Fault Unit
  | [] => .ok ()
  | d :: rest => do d.skip; skipItems rest

/-- Skips the members of an object, keys included. -/
def skipMembers : List (Except Fault String × Document) → Except Fault Unit
  | [] => .ok ()
  | (_, d) :: rest => do d.skip; skipMembers rest

end

/-! ## Values of any kind -/

mutual

/-- Reads any value. -/
def toValue : Nat → Document → Except Fault Value
  | _, .null => .ok .null
  | _, .bool b => .ok (.bool b)
  | _, .number n => .ok (.number n)
  | _, .string s => .ok (.string s)
  | 0, .array _ _ => .error .malformed
  | depth + 1, .array items ending => do
    let values ← toValues depth items
    ending.read
    return .array values
  | 0, .object _ _ => .error .malformed
  | depth + 1, .object members ending => do
    let members ← toMembers depth [] members
    ending.read
    return .object members
  | _, .unreadable read => .error read
  | _, .broken read _ => .error read

/-- Reads the items of an array. -/
def toValues (depth : Nat) : List Document → Except Fault (List Value)
  | [] => .ok []
  | d :: rest => do
    let v ← d.toValue depth
    let vs ← toValues depth rest
    return v :: vs

/-- Reads the members of an object into those that were read before. -/
def toMembers (depth : Nat) (before : List (String × Value)) :
    List (Except Fault String × Document) → Except Fault (List (String × Value))
  | [] => .ok before
  | (key, d) :: rest => do
    let key ← key
    let v ← d.toValue depth
    toMembers depth (Value.insert key v before) rest

end

end Document

namespace Reader

/-- Any value. -/
def value : Reader Value := fun depth d => d.toValue depth

/-- A truth value. -/
def bool : Reader Bool
  | _, .bool b => .ok b
  | _, d => .error d.unwanted

/-- A text. -/
def string : Reader String
  | _, .string s => .ok s
  | _, d => .error d.unwanted

/-- An integer between two bounds. -/
def int (low high : Int) : Reader Int
  | _, .number (.integer n) => if low ≤ n ∧ n ≤ high then .ok n else .error .mismatch
  | _, d => .error d.unwanted

/-- A natural number up to a bound. -/
def nat (high : Nat) : Reader Nat := fun depth d => Int.toNat <$> int 0 high depth d

/-- A 64-bit word. -/
def word : Reader Nat := nat (18_446_744_073_709_551_615)

/-- A value that may be `null` instead. -/
def optional {α : Type} (reader : Reader α) : Reader (Option α)
  | _, .null => .ok none
  | depth, d => some <$> reader depth d

/-- An array of values of one kind. -/
def list {α : Type} (reader : Reader α) : Reader (List α)
  | 0, .array _ _ => .error .malformed
  | depth + 1, .array items ending => do
    let values ← items.mapM (reader depth)
    ending.read
    return values
  | _, d => .error d.unwanted

end Reader

/-! ## Records -/

/-- A field of a record: its name, whether it has been read into the part of the record that
is there, and the reader that adds it. -/
structure Field (σ : Type) where
  name : String
  isSet : σ → Bool
  read : Reader (σ → σ)

namespace Field

/-- Reads the members of an object into the part of a record that is there. -/
def readMembers {σ : Type} (fields : List (Field σ)) (depth : Nat) (part : σ) :
    List (Except Fault String × Document) → Except Fault σ
  | [] => .ok part
  | (key, d) :: rest => do
    let key ← key
    match fields.find? (·.name == key) with
    | none =>
      d.skip
      readMembers fields depth part rest
    | some field =>
      if field.isSet part then .error .mismatch
      else
        let add ← field.read depth d
        readMembers fields depth (add part) rest

/-- Reads the items of an array as the fields of a record in order; the last fields may be
missing, but nothing may follow them. -/
def readItems {σ : Type} (depth : Nat) (ending : Ending) (part : σ) :
    List (Field σ) → List Document → Except Fault (σ × List Document)
  | [], items => .ok (part, items)
  | _ :: _, [] => do
    ending.read
    return (part, [])
  | field :: fields, d :: items => do
    let add ← field.read depth d
    readItems depth ending (add part) fields items

end Field

/-- A record read from its fields, complete if `finish` gives one. -/
def Reader.record {σ α : Type} (fields : List (Field σ)) (start : σ) (finish : σ → Option α) :
    Reader α
  | 0, .array _ _ => .error .malformed
  | depth + 1, .array items ending => do
    let (part, rest) ← Field.readItems depth ending start fields items
    match finish part with
    | none => .error .mismatch
    | some a =>
      if rest.isEmpty then
        ending.read
        return a
      else .error .malformed
  | 0, .object _ _ => .error .malformed
  | depth + 1, .object members ending => do
    let part ← Field.readMembers fields depth start members
    ending.read
    match finish part with
    | none => .error .mismatch
    | some a => return a
  | _, d => .error d.unwanted

/-- Reads the value that a text begins with, whatever follows it. -/
def decodeStart {α : Type} (reader : Reader α) (text : List UInt8) : Except Fault α :=
  reader maxDepth (Document.parse text).1

/-- Reads a whole text, behind whose value only blanks may follow. -/
def decode {α : Type} (reader : Reader α) (text : List UInt8) : Except Fault α := do
  let (d, rest) := Document.parse text
  let a ← reader maxDepth d
  match rest.map Document.skipBlanks with
  | some [] => return a
  | _ => .error .malformed

end BoundedResources.Json
