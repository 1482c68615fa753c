import Lexis.Json.Write

/-!
# Writing JSON documents

Documents made of the values that the library writes, laid out over several lines: each element of
a list and each member of an object stands on a line of its own, two spaces further in than its
brackets. Empty lists and objects keep their brackets together.
-/

namespace Lexis.Json

/-- A document to be written. -/
inductive Document where
  | null
  | number (n : Nat)
  | string (text : String)
  | list (items : List Document)
  | object (members : List (String × Document))

namespace Document

/-- Starts a line at a depth. -/
def newLine (depth : Nat) : String := "\n" ++ String.ofList (List.replicate (2 * depth) ' ')

/-- Lines between brackets at a depth. -/
def block (opening closing : String) (depth : Nat) : (lines : List String) → String
  | [] => opening ++ closing
  | lines =>
    opening ++ newLine (depth + 1) ++ String.intercalate ("," ++ newLine (depth + 1)) lines
      ++ newLine depth ++ closing

mutual

/-- The document as it stands at a depth. -/
def write (depth : Nat) : Document → String
  | null => "null"
  | number n => toString n
  | string text => writeString text
  | list items => block "[" "]" depth (writeItems (depth + 1) items)
  | object members => block r"{" r"}" depth (writeMembers (depth + 1) members)

/-- The elements of a list. -/
def writeItems (depth : Nat) : List Document → List String
  | [] => []
  | d :: ds => write depth d :: writeItems depth ds

/-- The members of an object. -/
def writeMembers (depth : Nat) : List (String × Document) → List String
  | [] => []
  | (key, d) :: ms => (writeString key ++ ": " ++ write depth d) :: writeMembers depth ms

end

end Document

end Lexis.Json
