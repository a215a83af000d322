import BoundedResources.Json.Document

/-!
# Cache errors
-/

set_option autoImplicit false

namespace BoundedResources

/-- Why a cache operation fails. -/
inductive CacheError where
  /-- The key holds no live entry. -/
  | notFound (key : String)
  /-- The cache was closed before. -/
  | closed
  /-- The value cannot be encoded or decoded. -/
  | serialization (fault : Json.Fault)
  /-- The payload alone is larger than the whole budget. -/
  | entryTooLarge (size budget : Nat)
  /-- The request makes no sense. -/
  | invalidRequest (reason : String)
deriving DecidableEq

/-- The text of an error; `explain` gives the text of a fault in a JSON document. -/
def CacheError.message (explain : Json.Fault → String) : CacheError → String
  | .notFound key => "Key not found: " ++ key
  | .closed => "Cache is closed"
  | .serialization fault => "Serialization failed: " ++ explain fault
  | .entryTooLarge size budget =>
    "Entry of " ++ toString size ++ " bytes exceeds cache capacity of " ++ toString budget ++
      " bytes"
  | .invalidRequest reason => "Invalid request: " ++ reason

/-- A short text for a fault in a JSON document. -/
def Json.Fault.text : Json.Fault → String
  | .malformed => "malformed JSON"
  | .truncated => "unexpected end of JSON"
  | .mismatch => "JSON of an unexpected form"

end BoundedResources
