/-!
# Request headers

Headers can reach the limiter in three forms. A list of pairs is searched for the first pair
whose name is the wanted one but for the case of ASCII letters. A map has been built from
pairs, a later pair in place of an earlier one of the same name, and is searched for exactly the
wanted name. The header map of an HTTP request ignores case and keeps the first of several
values; a value with characters beyond visible ASCII, blanks and tabs cannot be read as text.
-/

set_option autoImplicit false

namespace BoundedResources

/-- The headers of a request. -/
inductive Headers where
  | pairs (list : List (String × String))
  | map (list : List (String × String))
  | http (list : List (String × String))

namespace Headers

/-- Whether a character may stand in the name of an HTTP header. -/
def isNameChar (c : Char) : Bool :=
  c.isAlphanum || "!#$%&'*+-.^_\x60|~".toList.contains c

/-- Whether a text is the name of an HTTP header. -/
def isName (s : String) : Bool := !s.isEmpty && s.toList.all isNameChar

/-- Whether a character can be read in the value of an HTTP header. -/
def isVisible (c : Char) : Bool := (0x20 ≤ c.toNat && c.toNat ≤ 0x7E) || c = '\t'

/-- The value of a pair whose name is the wanted one but for case. -/
def ignoringCase (list : List (String × String)) (name : String) : Option String :=
  (list.find? fun p => p.1.toLower == name.toLower).map (·.2)

/-- The value of a header, if there is one. -/
def get? (h : Headers) (name : String) : Option String :=
  match h with
  | .pairs list => ignoringCase list name
  | .map list => (list.reverse.find? fun p => p.1 == name).map (·.2)
  | .http list =>
    if isName name then (ignoringCase list name).filter fun v => v.toList.all isVisible else none

end Headers

end BoundedResources
