import BoundedResources.Text.Segments

/-!
# Folders

A folder holds files and empty folders under plain names. A path is resolved in it part by part:
empty parts and single points stay where they are, double points lead out of a folder, and
nothing leads on from a file. What lies outside of the folder is not known, apart from being
there.
-/

set_option autoImplicit false

namespace BoundedResources

/-- What a folder holds under a name. -/
inductive Node where
  | file (content : ByteArray)
  | folder

/-- A folder: what it holds, by name. -/
abbrev Folder := List (String × Node)

/-- Why no text can be read at a path. -/
inductive ReadFailure where
  /-- Nothing is there. -/
  | missing
  /-- A folder is there. -/
  | isFolder
  /-- The path leads on from a file. -/
  | notFolder
  /-- The bytes are not UTF-8. -/
  | notText
deriving DecidableEq

/-- The text of a failure. -/
def ReadFailure.message : ReadFailure → String
  | .missing => "No such file or directory (os error 2)"
  | .isFolder => "Is a directory (os error 21)"
  | .notFolder => "Not a directory (os error 20)"
  | .notText => "stream did not contain valid UTF-8"

namespace Folder

/-- Where a part of a path leads. -/
inductive Place where
  /-- In the folder itself. -/
  | here
  /-- In one of its empty folders. -/
  | inside
  /-- In some folder around it. -/
  | outside
  | file (content : ByteArray)

/-- The way from a place along one part of a path. -/
def enter (f : Folder) (place : Place) (part : String) : Except ReadFailure Place :=
  match place with
  | .file _ => .error .notFolder
  | place =>
    if part == "" || part == "." then .ok place
    else if part == ".." then
      match place with
      | .inside => .ok .here
      | _ => .ok .outside
    else
      match place with
      | .here =>
        match f.lookup part with
        | some (.file content) => .ok (.file content)
        | some .folder => .ok .inside
        | none => .error .missing
      | _ => .error .missing

/-- The way along a path. -/
def resolve (f : Folder) (path : String) : Except ReadFailure Place :=
  (Text.segmentsOf path).foldlM (enter f) (if path.startsWith "/" then .outside else .here)

/-- The text of the file at a path. -/
def readText (f : Folder) (path : String) : Except ReadFailure String := do
  match ← f.resolve path with
  | .file content =>
    match String.fromUTF8? content with
    | some text => .ok text
    | none => .error .notText
  | _ => .error .isFolder

end Folder

end BoundedResources
