import BoundedResources.Json.Numeral

/-!
# JSON documents

A document is the structure of a JSON text, kept up to the point where the text breaks off or
stops being JSON. It is built before anyone knows what the text is supposed to hold, so it
keeps apart two ways of going through a text. A reader takes the values; somebody who skips a
value only checks its form, and so does not mind a string that is no valid text, a number that
is too large or deep nesting. Where the two meet different faults, the document carries both.

The tree is in the order of the text. Whoever walks it from left to right meets the first
problem first, be it a fault of the text or a value of an unwanted kind.
-/

set_option autoImplicit false

namespace BoundedResources.Json

/-- Why a JSON text cannot be used. -/
inductive Fault where
  /-- It is not JSON. -/
  | malformed
  /-- It ends too early. -/
  | truncated
  /-- It is JSON, but not of the wanted form. -/
  | mismatch
deriving DecidableEq, Repr

/-- How the list of items of an array or an object ends. -/
inductive Ending where
  /-- With its closing bracket. -/
  | closed
  /-- With a fault, for a reader and for somebody who skips. -/
  | broken (read skip : Fault)
deriving DecidableEq, Repr

/-- The structure of a JSON text. -/
inductive Document where
  | null
  | bool (value : Bool)
  | number (value : Number)
  | string (text : String)
  | array (items : List Document) (ending : Ending)
  /-- The keys are those of a reader, for whom a key can have a fault. -/
  | object (members : List (Except Fault String × Document)) (ending : Ending)
  /-- A value that can be skipped but not read. -/
  | unreadable (read : Fault)
  /-- No value: the text ends here, for a reader and for somebody who skips. -/
  | broken (read skip : Fault)

namespace Document

/-! ## Blanks and literals -/

/-- A space, line feed, carriage return or tab. -/
def isBlank (b : UInt8) : Bool := b = 0x20 || b = 0x0A || b = 0x0D || b = 0x09

/-- The text after its leading blanks. -/
def skipBlanks : List UInt8 → List UInt8
  | [] => []
  | b :: rest => if isBlank b then skipBlanks rest else b :: rest

/-- The text after the expected bytes. -/
def expect : List UInt8 → List UInt8 → Except Fault (List UInt8)
  | [], text => .ok text
  | _ :: _, [] => .error .truncated
  | e :: es, b :: rest => if b = e then expect es rest else .error .malformed

/-- A literal whose first letter has been read. -/
def literal (letters : List UInt8) (value : Document) (text : List UInt8) :
    Document × Option (List UInt8) :=
  match expect letters text with
  | .ok rest => (value, some rest)
  | .error f => (.broken f f, none)

/-! ## Numbers -/

/-- The value of an ASCII digit. -/
def digit? (b : UInt8) : Option Nat :=
  if 0x30 ≤ b ∧ b ≤ 0x39 then some (b.toNat - 0x30) else none

/-- The leading digits of a text, and the rest. -/
def digits : List UInt8 → List Nat × List UInt8
  | [] => ([], [])
  | b :: rest =>
    match digit? b with
    | some d => let (ds, rest) := digits rest; (d :: ds, rest)
    | none => ([], b :: rest)

/-- Where a digit is missing: the end of the text, for a reader, is truncation. -/
def missingDigit (text : List UInt8) : Document × Option (List UInt8) :=
  (.broken (if text = [] then .truncated else .malformed) .malformed, none)

/-- The document of a complete numeral. -/
def ofNumeral (n : Numeral) (rest : List UInt8) : Document × Option (List UInt8) :=
  match n.value? with
  | some v => (.number v, some rest)
  | none => (.unreadable .malformed, some rest)

/-- A number from its exponent on. -/
def exponentPart (n : Numeral) (text : List UInt8) : Document × Option (List UInt8) :=
  let finish (negative : Bool) (text : List UInt8) :=
    match digits text with
    | ([], rest) => missingDigit rest
    | (ds, rest) => ofNumeral { n with exponent := some (negative, ds) } rest
  match text with
  | 0x2B :: rest => finish false rest
  | 0x2D :: rest => finish true rest
  | text => finish false text

/-- A number from behind its whole or fractional digits on. -/
def afterFraction (n : Numeral) (text : List UInt8) : Document × Option (List UInt8) :=
  match text with
  | b :: rest => if b = 0x65 || b = 0x45 then exponentPart n rest else ofNumeral n (b :: rest)
  | [] => ofNumeral n []

/-- A number from behind its whole digits on. -/
def afterWhole (n : Numeral) (text : List UInt8) : Document × Option (List UInt8) :=
  match text with
  | 0x2E :: rest =>
    match digits rest with
    | ([], rest) => missingDigit rest
    | (ds, rest) => afterFraction { n with fraction := some ds } rest
  | text => afterFraction n text

/-- A number after its sign; a leading zero stands alone. -/
def numeral (negative : Bool) (text : List UInt8) : Document × Option (List UInt8) :=
  match digits text with
  | ([], rest) => missingDigit rest
  | (0 :: _ :: _, _) => (.broken .malformed .malformed, none)
  | (ds, rest) => afterWhole ⟨negative, ds, none, none⟩ rest

/-! ## Strings -/

/-- The value of a hexadecimal digit. -/
def hexDigit? (b : UInt8) : Option Nat :=
  if 0x30 ≤ b ∧ b ≤ 0x39 then some (b.toNat - 0x30)
  else if 0x41 ≤ b ∧ b ≤ 0x46 then some (b.toNat - 0x41 + 10)
  else if 0x61 ≤ b ∧ b ≤ 0x66 then some (b.toNat - 0x61 + 10)
  else none

/-- The number that four hexadecimal digits spell. -/
def hexWord? (a b c d : UInt8) : Option Nat :=
  match hexDigit? a, hexDigit? b, hexDigit? c, hexDigit? d with
  | some a, some b, some c, some d => some (((a * 16 + b) * 16 + c) * 16 + d)
  | _, _, _, _ => none

/-- The byte that a one-letter escape stands for. -/
def escape? (b : UInt8) : Option UInt8 :=
  if b = 0x22 || b = 0x5C || b = 0x2F then some b
  else if b = 0x62 then some 0x08
  else if b = 0x66 then some 0x0C
  else if b = 0x6E then some 0x0A
  else if b = 0x72 then some 0x0D
  else if b = 0x74 then some 0x09
  else none

/-- A string that has been gone through up to its closing quote or a fault. -/
inductive Scanned where
  | complete (text : Except Fault String) (rest : List UInt8)
  | broken (read skip : Fault)

/-- What has been collected of a string: its bytes in reverse, the first half of a surrogate
pair that waits for the second, and the first fault that a reader has met. -/
structure Partial where
  bytes : List UInt8
  high : Option Nat
  fault : Option Fault

namespace Partial

/-- Nothing has been collected yet. -/
def empty : Partial := ⟨[], none, none⟩

/-- A reader meets a fault, unless there was one before. -/
def fail (p : Partial) (f : Fault) : Partial := { p with fault := p.fault.or (some f) }

/-- A waiting half of a surrogate pair stays without the other half. -/
def unpaired (p : Partial) : Partial :=
  match p.high with
  | none => p
  | some _ => { p.fail .malformed with high := none }

/-- Takes a byte. -/
def push (p : Partial) (b : UInt8) : Partial :=
  let p := p.unpaired
  { p with bytes := b :: p.bytes }

/-- Takes a character. -/
def pushChar (p : Partial) (c : Char) : Partial :=
  { p with bytes := (String.utf8EncodeChar c).reverse ++ p.bytes }

/-- Takes the number of a `\u` escape; two halves of a surrogate pair make one character. -/
def pushWord (p : Partial) (n : Nat) : Partial :=
  match p.high with
  | some h =>
    if 0xDC00 ≤ n ∧ n ≤ 0xDFFF then
      { p with high := none }.pushChar (Char.ofNat ((h - 0xD800) * 0x400 + (n - 0xDC00) + 0x10000))
    else p.unpaired
  | none =>
    if 0xD800 ≤ n ∧ n ≤ 0xDBFF then { p with high := some n }
    else if 0xDC00 ≤ n ∧ n ≤ 0xDFFF then p.fail .malformed
    else p.pushChar (Char.ofNat n)

/-- The string up to its closing quote, for a reader. -/
def text (p : Partial) : Except Fault String :=
  let p := p.unpaired
  match p.fault with
  | some f => .error f
  | none =>
    match String.fromUTF8? p.bytes.reverse.toByteArray with
    | some s => .ok s
    | none => .error .malformed

/-- The string breaks off; a reader may have met an earlier fault. -/
def stop (p : Partial) (f : Fault) : Scanned := .broken (p.fault.getD f) f

end Partial

/-- Goes through a string after its opening quote. -/
def scan (p : Partial) : List UInt8 → Scanned
  | [] => p.stop .truncated
  | 0x22 :: rest => .complete p.text rest
  | 0x5C :: [] => p.stop .truncated
  | 0x5C :: 0x75 :: a :: b :: c :: d :: rest =>
    match hexWord? a b c d with
    | some n => scan (p.pushWord n) rest
    | none => p.stop .malformed
  | 0x5C :: 0x75 :: _ => p.stop .truncated
  | 0x5C :: e :: rest =>
    match escape? e with
    | some b => scan (p.push b) rest
    | none => p.unpaired.stop .malformed
  | b :: rest => if b < 0x20 then p.unpaired.stop .malformed else scan (p.push b) rest

/-! ## Values -/

/-- The text behind the colon that follows a key. -/
def colon (text : List UInt8) : Except Fault (List UInt8) :=
  match skipBlanks text with
  | 0x3A :: rest => .ok rest
  | [] => .error .truncated
  | _ => .error .malformed

mutual

/-- Goes through one value; the text behind it is there unless the text is broken. The first
argument bounds the depth of the calls, which need two for each byte of the text at most. -/
def parseValue : Nat → List UInt8 → Document × Option (List UInt8)
  | 0, _ => (.broken .truncated .truncated, none)
  | fuel + 1, text =>
    match skipBlanks text with
    | [] => (.broken .truncated .truncated, none)
    | b :: rest =>
      if b = 0x22 then
        match scan .empty rest with
        | .complete (.ok s) rest => (.string s, some rest)
        | .complete (.error f) rest => (.unreadable f, some rest)
        | .broken read skip => (.broken read skip, none)
      else if b = 0x5B then
        let (items, ending, rest) := parseItems fuel true rest
        (.array items ending, rest)
      else if b = 0x7B then
        let (members, ending, rest) := parseMembers fuel true rest
        (.object members ending, rest)
      else if b = 0x6E then literal [0x75, 0x6C, 0x6C] .null rest
      else if b = 0x74 then literal [0x72, 0x75, 0x65] (.bool true) rest
      else if b = 0x66 then literal [0x61, 0x6C, 0x73, 0x65] (.bool false) rest
      else if b = 0x2D then numeral true rest
      else if (digit? b).isSome then numeral false (b :: rest)
      else (.broken .malformed .malformed, none)

/-- Goes through the items of an array, from its beginning or from behind an item. A comma
without a value behind it counts as a broken item. -/
def parseItems : Nat → Bool → List UInt8 → List Document × Ending × Option (List UInt8)
  | 0, _, _ => ([], .broken .truncated .truncated, none)
  | fuel + 1, first, text =>
    let item (text : List UInt8) :=
      match parseValue fuel text with
      | (d, none) => ([d], Ending.closed, none)
      | (d, some rest) =>
        let (items, ending, rest) := parseItems fuel false rest
        (d :: items, ending, rest)
    match skipBlanks text with
    | [] => ([], .broken .truncated .truncated, none)
    | b :: rest =>
      if b = 0x5D then ([], .closed, some rest)
      else if first then item (b :: rest)
      else if b = 0x2C then item rest
      else ([], .broken .malformed .malformed, none)

/-- Goes through the members of an object, from its beginning or from behind a member. -/
def parseMembers : Nat → Bool → List UInt8 →
    List (Except Fault String × Document) × Ending × Option (List UInt8)
  | 0, _, _ => ([], .broken .truncated .truncated, none)
  | fuel + 1, first, text =>
    let member (text : List UInt8) :=
      match scan .empty text with
      | .broken read skip => ([], Ending.broken read skip, none)
      | .complete key rest =>
        match colon rest with
        | .error f => ([(key, Document.broken f f)], Ending.closed, none)
        | .ok rest =>
          match parseValue fuel rest with
          | (d, none) => ([(key, d)], Ending.closed, none)
          | (d, some rest) =>
            let (members, ending, rest) := parseMembers fuel false rest
            ((key, d) :: members, ending, rest)
    let openMember (text : List UInt8) :=
      match skipBlanks text with
      | 0x22 :: rest => member rest
      | [] => ([], .broken .truncated .truncated, none)
      | _ => ([], .broken .malformed .malformed, none)
    match skipBlanks text with
    | [] => ([], .broken .truncated .truncated, none)
    | b :: rest =>
      if b = 0x7D then ([], .closed, some rest)
      else if first then openMember (b :: rest)
      else if b = 0x2C then openMember rest
      else ([], .broken .malformed .malformed, none)

end

/-- The document at the beginning of a text, and the text behind it. -/
def parse (text : List UInt8) : Document × Option (List UInt8) :=
  parseValue (2 * text.length + 2) text

end Document

end BoundedResources.Json
