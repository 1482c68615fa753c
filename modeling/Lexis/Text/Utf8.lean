/-!
# Decoding UTF-8

A text is loaded from bytes only if they are the UTF-8 form of some sequence of scalar values.
Otherwise the loader names the offset of the first sequence that is not well-formed: the number of
bytes in the longest well-formed front part.

The well-formed sequences are those of the Unicode Standard's table: the first byte fixes the length
and the range of the second byte, which shuts out overlong forms, surrogates and values above
`10FFFF`; all further bytes are trailing bytes. Decoding ends because each scalar takes at least one
byte (`length_of_scalar?`).
-/

namespace Lexis.Text.Utf8

/-- Trailing bytes are `80` to `BF`; their low six bits carry the value. -/
def isTrail (b : UInt8) : Bool := 0x80 ≤ b && b ≤ 0xBF

/-- The range of the second byte after the first byte `b` of a sequence of two to four bytes. -/
def secondRange (b : UInt8) : UInt8 × UInt8 :=
  if b = 0xE0 then (0xA0, 0xBF)
  else if b = 0xED then (0x80, 0x9F)
  else if b = 0xF0 then (0x90, 0xBF)
  else if b = 0xF4 then (0x80, 0x8F)
  else (0x80, 0xBF)

def isSecond (b b₁ : UInt8) : Bool := (secondRange b).1 ≤ b₁ && b₁ ≤ (secondRange b).2

/-- The value bits of a trailing byte below the bits already read. -/
def extendBy (value : Nat) (b : UInt8) : Nat := value * 64 + (b.toNat - 0x80)

/-- The scalar value whose form starts with the byte `b`, and the bytes after it. -/
def scalar? (b : UInt8) (rest : List UInt8) : Option (Char × List UInt8) :=
  if b < 0x80 then some (Char.ofNat b.toNat, rest)
  else if 0xC2 ≤ b && b ≤ 0xDF then
    match rest with
    | b₁ :: rest =>
      if isSecond b b₁ then some (Char.ofNat (extendBy (b.toNat - 0xC0) b₁), rest) else none
    | _ => none
  else if 0xE0 ≤ b && b ≤ 0xEF then
    match rest with
    | b₁ :: b₂ :: rest =>
      if isSecond b b₁ && isTrail b₂ then
        some (Char.ofNat (extendBy (extendBy (b.toNat - 0xE0) b₁) b₂), rest)
      else none
    | _ => none
  else if 0xF0 ≤ b && b ≤ 0xF4 then
    match rest with
    | b₁ :: b₂ :: b₃ :: rest =>
      if isSecond b b₁ && isTrail b₂ && isTrail b₃ then
        some (Char.ofNat (extendBy (extendBy (extendBy (b.toNat - 0xF0) b₁) b₂) b₃), rest)
      else none
    | _ => none
  else none

theorem length_of_scalar? {b : UInt8} {rest : List UInt8} {c : Char} {rest' : List UInt8}
    (h : scalar? b rest = some (c, rest')) : rest'.length ≤ rest.length := by
  unfold scalar? at h
  repeat' split at h
  all_goals simp_all <;> omega

/-- Decodes the bytes that stand at `offset`; fails with the offset of the first bad sequence. -/
def decodeFrom (offset : Nat) : List UInt8 → Except Nat (List Char)
  | [] => .ok []
  | b :: rest =>
    match _h : scalar? b rest with
    | none => .error offset
    | some (c, rest') => (decodeFrom (offset + c.utf8Size) rest').map (c :: ·)
termination_by bytes => bytes.length
decreasing_by
  have := length_of_scalar? _h
  simp only [List.length_cons]
  omega

/-- The text whose UTF-8 form the bytes are, or the offset where they stop being one. -/
def decode (bytes : List UInt8) : Except Nat String :=
  (decodeFrom 0 bytes).map String.ofList

end Lexis.Text.Utf8
