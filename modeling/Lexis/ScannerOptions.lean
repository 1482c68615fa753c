/-!
# Scanner options

The limit above which nested interpolations are warned about: a 64-bit number, five by default.
-/

namespace Lexis

structure ScannerOptions where
  /-- Interpolations that may be open at once before a warning. -/
  maxInterpolationDepth : UInt64 := 5
  deriving DecidableEq, Repr

instance : Inhabited ScannerOptions := ⟨{}⟩

end Lexis
