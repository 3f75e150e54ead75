/-
This file is a host that has nothing but texts: files with their names and contents, further
directories, and a standard input. A path is followed one part after the other, and every part but
the last has to lead to a directory. Everything that is printed or written is taken as a whole.
-/

import Oxide.Host

namespace Oxide

open Text (Bytes utf8)

/-- The files with their names and contents, further directories, and the text on the standard
input. -/
structure Workspace where
  files : List (String × String) := []
  directories : List String := []
  input : String := ""
  deriving Inhabited

namespace Workspace

/-! ### Paths -/

/-- What stands between the slashes of a path. -/
def divide : List Char → List (List Char)
  | [] => [[]]
  | '/' :: rest => [] :: divide rest
  | c :: rest =>
    match divide rest with
    | part :: parts => (c :: part) :: parts
    | [] => [[c]]

/-- The parts of a path. -/
def parts (path : String) : List String :=
  (divide path.toList).map String.ofList

/-- The place that a path starts from, which is the root or where the program runs. -/
def start (path : String) : List String :=
  if path.startsWith "/" then ["/"] else []

/-- Where a part of a path leads from a place. Nothing is above the root, and the way upwards from
where the program runs is kept as it is. -/
def enter (place : List String) (part : String) : List String :=
  if part = "" || part = "." then place
  else if part = ".." && place = ["/"] then place
  else if part = ".." && place.any (· ≠ "..") then place.dropLast
  else place ++ [part]

/-- The place that a path leads to, if every place on the way is a directory. -/
def pathParts (path : String) : List String :=
  (parts path).foldl enter (start path)

/-! ### What is at a place -/

/-- The content of the file at a place. -/
def content? (workspace : Workspace) (place : List String) : Option String :=
  (workspace.files.find? fun (name, _) => pathParts name = place).map Prod.snd

/-- Whether a directory is at a place: the root, where the program runs and what is above it, a known
directory, and whatever a file or a directory is in. -/
def isDirectory (workspace : Workspace) (place : List String) : Bool :=
  place = ["/"] || place.all (· = "..") ||
    workspace.directories.any (fun name => place.isPrefixOf (pathParts name)) ||
    workspace.files.any fun (name, _) =>
      place.isPrefixOf (pathParts name) && place.length < (pathParts name).length

/-- Fails unless a directory is at a place. -/
def checkDirectory (workspace : Workspace) (place : List String) : Except FileTrouble Unit :=
  if workspace.isDirectory place then .ok ()
  else if (workspace.content? place).isSome then .error .notDirectory
  else .error .missing

/-- Follows the parts of a path from a place, each of which has to start from a directory. -/
def follow (workspace : Workspace) (place : List String) :
    List String → Except FileTrouble (List String)
  | [] => .ok place
  | part :: rest => do
    workspace.checkDirectory place
    workspace.follow (enter place part) rest

/-! ### Files -/

/-- The place of a file that is to be read. -/
def locate (workspace : Workspace) (name : String) : Except FileTrouble (List String) :=
  if name = "" then .error .missing else workspace.follow (start name) (parts name)

/-- The content of a file. A directory can be opened and cannot be read. -/
def read (workspace : Workspace) (name : String) : Except FileFault Bytes :=
  match workspace.locate name with
  | .error trouble => .error ⟨"open", name, trouble⟩
  | .ok place =>
    match workspace.content? place with
    | some content => .ok (utf8 content)
    | none =>
      if workspace.isDirectory place then .error ⟨"read", name, .directory⟩
      else .error ⟨"open", name, .missing⟩

/-- Fails unless a file can be made or replaced. A name that ends with a slash means a directory,
whether there is one or not. -/
def checkWrite (workspace : Workspace) (name : String) : Except FileTrouble Unit := do
  let reversed := (parts name).reverse.dropWhile (· = "")
  let place ← workspace.follow (start name) reversed.tail.reverse
  workspace.checkDirectory place
  if name = "" then throw .missing
  if name.endsWith "/" || workspace.isDirectory (enter place (reversed.headD "")) then
    throw .directory

/-- The host that has what is in a workspace. -/
def host (workspace : Workspace) : Host where
  file := workspace.read
  terminal := false
  input := .ok (utf8 workspace.input)
  printing _ := none
  writing name :=
    match workspace.checkWrite name with
    | .ok () => .ok none
    | .error trouble => .error ⟨"open", name, trouble⟩
  origin? := none

instance : Coe Workspace Host := ⟨host⟩

end Workspace

end Oxide
