import BoundedResources.Json.Reader

/-!
# Requests to store a value

The body of such a request is a record of a key, a value and perhaps a lifetime in seconds.
A key has between 1 and 256 bytes.
-/

set_option autoImplicit false

namespace BoundedResources.Http

/-- The most bytes of a key. -/
def maxKeyLength : Nat := 256

/-- A request to store a value under a key. -/
structure StoreRequest where
  key : String
  value : Json.Value
  /-- The lifetime in seconds. -/
  ttl : Option Nat

namespace StoreRequest

/-- The fields that have been read so far. -/
structure Part where
  key : Option String
  value : Option Json.Value
  ttl : Option (Option Nat)

/-- The fields of the record in order. -/
def fields : List (Json.Field Part) :=
  [{ name := "key"
     isSet := fun p => p.key.isSome
     read := fun depth d => (fun k p => { p with key := some k }) <$> Json.Reader.string depth d },
   { name := "value"
     isSet := fun p => p.value.isSome
     read := fun depth d => (fun v p => { p with value := some v }) <$> Json.Reader.value depth d },
   { name := "ttl"
     isSet := fun p => p.ttl.isSome
     read := fun depth d =>
       (fun t p => { p with ttl := some t }) <$> Json.Reader.optional .word depth d }]

/-- The request, once its key and its value are there. -/
def Part.finish (p : Part) : Option StoreRequest := do
  return ⟨← p.key, ← p.value, p.ttl.join⟩

/-- Reads a request. -/
def reader : Json.Reader StoreRequest := .record fields ⟨none, none, none⟩ Part.finish

/-- Reads a request from a whole text. -/
def ofText (text : ByteArray) : Except Json.Fault StoreRequest :=
  Json.decode reader text.data.toList

/-- Reads the request that a body begins with; what follows it is not looked at. -/
def ofBody (body : ByteArray) : Except Json.Fault StoreRequest :=
  Json.decodeStart reader body.data.toList

/-- What is wrong with a request, if anything. -/
def problem? (r : StoreRequest) : Option String :=
  if r.key.isEmpty then some "Key cannot be empty"
  else if maxKeyLength < r.key.utf8ByteSize then
    some ("Key exceeds maximum length of " ++ toString maxKeyLength ++ " characters")
  else none

end StoreRequest

end BoundedResources.Http
