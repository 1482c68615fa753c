/-!
# Files

What the library knows of files: by a path one gets bytes, or the reason why not. Everything that
reads files takes such a lookup, so that it says the same whether the files are on a disk or in
memory.
-/

namespace Lexis

/-- Why a file cannot be read. -/
inductive ReadError where
  | notFound
  | permissionDenied
  | notAFolder
  | isAFolder
  | nameTooLong
  | nulInName
  /-- Text was wanted and the bytes are none. -/
  | notText
  /-- Any other reason, in the words of the system. -/
  | other (message : String)
  deriving DecidableEq, Repr

namespace ReadError

def message : ReadError → String
  | notFound => "No such file or directory (os error 2)"
  | permissionDenied => "Permission denied (os error 13)"
  | notAFolder => "Not a directory (os error 20)"
  | isAFolder => "Is a directory (os error 21)"
  | nameTooLong => "File name too long (os error 36)"
  | nulInName => "file name contained an unexpected NUL byte"
  | notText => "stream did not contain valid UTF-8"
  | other message => message

/-- Whether nothing at all has that name. -/
def isMissing : ReadError → Bool
  | notFound | notAFolder => true
  | _ => false

end ReadError

/-- What reading a file gives. -/
abbrev ReadResult := Except ReadError (List UInt8)

/-- Whether reading found nothing at all, not even what cannot be read. -/
def ReadResult.isMissing : ReadResult → Bool
  | .ok _ => false
  | .error e => e.isMissing

/-- The files that can be read, by their paths. -/
abbrev Files := (path : String) → ReadResult

end Lexis
