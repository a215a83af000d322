import BoundedResources.Limiter.Headers

/-!
# Media types

The media type of a body is a type and a subtype, `application/json`, perhaps with parameters
behind semicolons. What follows the last plus sign of a subtype is its suffix: it names the
format that the subtype is based on, as in `application/problem+json`.
-/

set_option autoImplicit false

namespace BoundedResources.Http

/-- A media type; its names are in lower case. -/
structure MediaType where
  main : String
  /-- The subtype without its suffix. -/
  sub : String
  suffix : Option String
deriving DecidableEq

namespace MediaType

/-- The characters up to the first that cannot stand in a name, and the rest. -/
def token (cs : List Char) : List Char × List Char :=
  (cs.takeWhile Headers.isNameChar, cs.dropWhile Headers.isNameChar)

/-- Whether a character can stand in quotes. -/
def isQuotable (c : Char) : Bool := 0x20 ≤ c.toNat && c.toNat != 0x7F

/-- What follows the value of a parameter, unless the value is malformed. A value in quotes has
one character at least, which may be a quote itself, and blanks may follow it. -/
def afterValue? (cs : List Char) : Option (List Char) :=
  match cs with
  | '"' :: first :: rest =>
    if isQuotable first then
      match rest.dropWhile fun c => isQuotable c && c != '"' with
      | '"' :: rest => some (rest.dropWhile (· == ' '))
      | _ => none
    else none
  | ['"'] => none
  | _ =>
    match token cs with
    | ([], ';' :: _) => none
    | (_, rest) => some rest

/-- Whether what follows a semicolon are well-formed parameters, at most `fuel` of them. -/
def parametersFor : Nat → List Char → Bool
  | 0, _ => false
  | fuel + 1, cs =>
    match cs.dropWhile (· == ' ') with
    | [] => true
    | cs =>
      match token cs with
      | ([], _) => false
      | (_, '=' :: rest) =>
        match afterValue? rest with
        | some [] => true
        | some (';' :: rest) => parametersFor fuel rest
        | _ => false
      | _ => false

/-- Whether what follows a semicolon are well-formed parameters. -/
def parameters (cs : List Char) : Bool := parametersFor (cs.length + 1) cs

/-- Splits a subtype at its last plus sign that does not begin it. -/
def splitSuffix : List Char → List Char × Option (List Char)
  | [] => ([], none)
  | c :: rest =>
    match splitSuffix rest with
    | (sub, some suffix) => (c :: sub, some suffix)
    | (_, none) =>
      match rest with
      | '+' :: suffix => ([c], some suffix)
      | _ => (c :: rest, none)

/-- A text in lower case. -/
def lower (cs : List Char) : String := (String.ofList cs).toLower

/-- The media type that a text names. -/
def parse? (s : String) : Option MediaType :=
  match token s.toList with
  | ([], _) => none
  | (main, '/' :: rest) =>
    match token rest with
    | ([], _) => none
    | (sub, rest) =>
      let wellFormed := match rest with
        | [] => true
        | ';' :: rest => parameters rest
        | _ => false
      if wellFormed then
        let (sub, suffix) := splitSuffix sub
        some ⟨lower main, lower sub, suffix.map lower⟩
      else none
  | _ => none

/-- Whether a body of this type is JSON. -/
def isJson (t : MediaType) : Bool :=
  t.main == "application" && (t.sub == "json" || t.suffix == some "json")

example : (parse? "Application/problem+JSON; a=b").map isJson = some true := by decide +kernel
example : (parse? "text/json").map isJson = some false := by decide +kernel
example : parse? "application/json x" = none := by decide +kernel

end MediaType

end BoundedResources.Http
