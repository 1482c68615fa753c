/-!
# Paths

A path is a text; a slash ends the name of a folder. Paths that a file lists are meant from the
folder which that file is in, unless they start at the root.
-/

namespace Lexis.Path

/-- Splits a text at its slashes. -/
def split : List Char → List (List Char)
  | [] => [[]]
  | c :: cs =>
    match split cs with
    | [] => [[c]]
    | name :: names => if c = '/' then [] :: name :: names else (c :: name) :: names

/-- The names between the slashes of a path. -/
def names (path : String) : List String := (split path.toList).map String.ofList

/-- Strips slashes and dots that say nothing from the end of a path, which is given from its end. -/
def stripEnd : List Char → List Char
  | ['/'] => ['/']
  | '/' :: cs => stripEnd cs
  | '.' :: '/' :: cs => stripEnd ('/' :: cs)
  | cs => cs

/-- The folder that a file is in, as far as the path to the file says. -/
def folder (path : String) : String :=
  String.ofList (stripEnd (path.toList.reverse.dropWhile (· ≠ '/'))).reverse

/-- The path that is meant by `path` in a folder. -/
def join (folder path : String) : String :=
  if path.startsWith "/" || folder.isEmpty then path
  else if folder.endsWith "/" then folder ++ path
  else folder ++ "/" ++ path

end Lexis.Path
