import BoundedResources.Text.Segments

/-!
# Routes

A path leads to a route or to none. It is taken as it was sent: segments are not decoded before
they are compared, and neither empty ones nor those of dots are resolved. The key of a route is
one segment that is not empty, still encoded. Each route has a method of its own; a route that
is read can also be asked for its headers alone.
-/

set_option autoImplicit false

namespace BoundedResources.Http

/-- What can be asked of the service. -/
inductive Route where
  /-- Stores a value. -/
  | set
  /-- Reads the value of a key, given as a path segment. -/
  | get (segment : String)
  /-- Deletes a key, given as a path segment. -/
  | delete (segment : String)
  | cacheStats
  | poolStats
  | limiterStats
  | health
deriving DecidableEq

/-- What follows the scheme of an absolute target, its authority first. -/
def afterScheme? : List Char → Option (List Char)
  | ':' :: '/' :: '/' :: rest => some rest
  | c :: rest => if c.isAlphanum || "+-.".toList.contains c then afterScheme? rest else none
  | [] => none

/-- The path of a target, without its query. A target that names a scheme and an authority leads
where its path alone does, and to the root without one. -/
def pathOf (target : String) : String :=
  let isPathChar (c : Char) : Bool := c != '?' && c != '#'
  match afterScheme? target.toList with
  | none => String.ofList (target.toList.takeWhile isPathChar)
  | some rest =>
    match (rest.dropWhile fun c => isPathChar c && c != '/').takeWhile isPathChar with
    | [] => "/"
    | path => String.ofList path

example : pathOf "/get/a?x=1" = "/get/a" := by decide +kernel
example : pathOf "http://host:80/get/a?x=1" = "/get/a" := by decide +kernel
example : pathOf "http://host?x=1" = "/" := by decide +kernel

namespace Route

/-- The route that a list of segments leads to. -/
def ofSegments? : List String → Option Route
  | ["", "set"] => some .set
  | ["", "get", key] => if key.isEmpty then none else some (.get key)
  | ["", "del", key] => if key.isEmpty then none else some (.delete key)
  | ["", "stats"] => some .cacheStats
  | ["", "stats", "pool"] => some .poolStats
  | ["", "stats", "limiter"] => some .limiterStats
  | ["", "health"] => some .health
  | _ => none

/-- The route that a path leads to. -/
def ofPath? (path : String) : Option Route :=
  ofSegments? (Text.segmentsOf path)

/-- The method of a route. -/
def method : Route → String
  | .set => "PUT"
  | .delete _ => "DELETE"
  | _ => "GET"

/-- Whether the route can be asked for its headers alone. -/
def readable (r : Route) : Bool := r.method == "GET"

/-- Whether a method is one of the route's own. -/
def accepts (r : Route) (method : String) : Bool :=
  method == r.method || (r.readable && method == "HEAD")

/-- The methods of the route, as they are told to somebody who has used another one. -/
def allow (r : Route) : String := if r.readable then "GET,HEAD" else r.method

/-- Whether the limiter is asked before the route is followed. -/
def limited : Route → Bool
  | .health => false
  | _ => true

end Route

end BoundedResources.Http
