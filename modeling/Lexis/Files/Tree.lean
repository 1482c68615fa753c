import Lexis.Files
import Lexis.Files.Path

/-!
# File trees

Files in memory: each file and folder is found under the list of names that lead to it from the top.
A folder is also there if anything is in it. What is outside of the top folder is not known; going
up from it leads to a folder in which nothing is found.
-/

namespace Lexis

/-- What stands under a name. -/
inductive FileTree.Node where
  | folder
  | file (bytes : List UInt8)
  deriving DecidableEq, Repr

/-- Files and folders, with the names that lead to them. Of two with the same names the first one
counts. -/
structure FileTree where
  entries : List (List String × FileTree.Node)
  deriving DecidableEq, Repr

namespace FileTree

def empty : FileTree := ⟨[]⟩

/-- Whether a name says to stay where one is. -/
def stays (name : String) : Bool := name = "" || name = "."

/-- The names of a path without those that stay or go up. -/
def resolve (path : String) : List String :=
  (Path.names path).foldl (fun here name =>
    if stays name then here
    else if name = ".." then here.dropLast
    else here ++ [name]) []

/-- Puts a file or a folder into the tree. -/
def insert (t : FileTree) (path : String) (node : Node) : FileTree :=
  ⟨(resolve path, node) :: t.entries⟩

def ofList (nodes : List (String × Node)) : FileTree :=
  nodes.foldl (fun t (path, node) => t.insert path node) empty

/-- What stands at a list of names. -/
def find? (t : FileTree) (names : List String) : Option Node :=
  match t.entries.lookup names with
  | some node => some node
  | none =>
    if names.isEmpty || t.entries.any (names.isPrefixOf ·.1) then some .folder else none

/-- Follows the names of a path from a folder. -/
def walk (t : FileTree) (here : List String) : (path : List String) → Except ReadError Node
  | [] => .ok .folder
  | name :: rest =>
    if stays name then walk t here rest
    else if name = ".." then
      if here.isEmpty && !rest.all (fun n => stays n || n = "..") then .error .notFound
      else walk t here.dropLast rest
    else if 255 < name.utf8ByteSize then .error .nameTooLong
    else
      match t.find? (here ++ [name]) with
      | none => .error .notFound
      | some .folder => walk t (here ++ [name]) rest
      | some (.file bytes) => if rest.isEmpty then .ok (.file bytes) else .error .notAFolder

/-- The files of the tree, by paths from its top folder. -/
def files (t : FileTree) : Files := fun path =>
  if path.contains '\x00' then .error .nulInName
  else if path.isEmpty then .error .notFound
  else if 4096 ≤ path.utf8ByteSize then .error .nameTooLong
  else if path.startsWith "/" then
    .error (if (Path.names path).all fun n => stays n || n = ".." then .isAFolder else .notFound)
  else
    match t.walk [] (Path.names path) with
    | .error e => .error e
    | .ok .folder => .error .isAFolder
    | .ok (.file bytes) => .ok bytes

end FileTree

end Lexis
