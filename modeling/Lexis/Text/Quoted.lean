import Lexis.Text.Table.GraphemeExtend
import Lexis.Text.Table.Unprintable

/-!
# Quoted text

A text shown between double quotes so that it stays on one line and can be told apart from any
other. The quote, the backslash and four controls have an escape of their own; any other scalar that
cannot be printed, or that would attach to what stands before it, is written by its number in
hexadecimal between braces. All else stands for itself.
-/

namespace Lexis.Text

/-- Whether a scalar value stands for itself between quotes. -/
def isPlain (c : Char) : Bool :=
  if c.toNat < 0x80 then 0x20 ≤ c.toNat && c.toNat < 0x7F
  else !Table.graphemeExtend.contains c.toNat && !Table.unprintable.contains c.toNat

/-- A number in hexadecimal, in lower case and without leading zeros. -/
def hexText (n : Nat) : List Char := Nat.toDigits 16 n

/-- How a scalar value is written between quotes. -/
def quoteChar (c : Char) : List Char :=
  match c with
  | '\x00' => ['\\', '0']
  | '\t' => ['\\', 't']
  | '\r' => ['\\', 'r']
  | '\n' => ['\\', 'n']
  | '"' => ['\\', '"']
  | '\\' => ['\\', '\\']
  | c => if isPlain c then [c] else ['\\', 'u', '{'] ++ hexText c.toNat ++ ['}']

/-- A text between double quotes. -/
def quoted (text : String) : String :=
  String.ofList (['"'] ++ text.toList.flatMap quoteChar ++ ['"'])

end Lexis.Text
