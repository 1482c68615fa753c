import Lexis.Json.Skip

/-!
# The grammar of JSON

What a text of JSON looks like, apart from any reader: strings as rows of characters and escapes,
numbers by their parts, and values with the rows of entries that stand between their brackets. Texts
are lists of characters, and blanks may stand around every value and every key.

A string may be read in two ways. It is well-formed if each escape is (`IsString`); it spells a text
if moreover its surrogates pair up (`Spells`).
-/

namespace Lexis.Json

/-- Nothing but blanks. -/
def Blank (cs : List Char) : Prop := ∀ c ∈ cs, isBlank c = true

/-! ## Strings -/

/-- A character that may stand for itself in a string. -/
def Plain (c : Char) : Prop := c ≠ '"' ∧ c ≠ '\\' ∧ 0x20 ≤ c.toNat

/-- The letters of the short escapes, and the characters that these stand for. -/
def shortEscapes : List (Char × Char) :=
  [('"', '"'), ('\\', '\\'), ('/', '/'), ('b', '\x08'), ('f', '\x0c'), ('n', '\n'), ('r', '\r'),
    ('t', '\t')]

/-- Four hexadecimal digits and their number. -/
structure Hex4 (ds : List Char) (n : Nat) : Prop where
  length : ds.length = 4
  digit : ∀ d ∈ ds, Alphabet.isHexDigit d = true
  value : Alphabet.hexValue ds = n

/-- An item of a well-formed string. -/
inductive IsItem : List Char → Prop
  | plain {c : Char} (h : Plain c) : IsItem [c]
  | short {e c : Char} (h : (e, c) ∈ shortEscapes) : IsItem ['\\', e]
  | code {ds : List Char} {n : Nat} (h : Hex4 ds n) : IsItem ('\\' :: 'u' :: ds)

/-- What may stand between the quotes of a string. -/
inductive IsString : List Char → Prop
  | nil : IsString []
  | cons {item cs : List Char} (h : IsItem item) (hs : IsString cs) : IsString (item ++ cs)

/-- An item of a string and the character that it stands for. -/
inductive Stands : List Char → Char → Prop
  | plain {c : Char} (h : Plain c) : Stands [c] c
  | short {e c : Char} (h : (e, c) ∈ shortEscapes) : Stands ['\\', e] c
  | code {ds : List Char} {c : Char} (h : Hex4 ds c.toNat) : Stands ('\\' :: 'u' :: ds) c
  /-- A character beyond four digits is written as two surrogates. -/
  | pair {ds ds' : List Char} {n n' : Nat} {c : Char} (h : Hex4 ds n) (h' : Hex4 ds' n')
      (hn : 0xD800 ≤ n ∧ n ≤ 0xDBFF) (hn' : 0xDC00 ≤ n' ∧ n' ≤ 0xDFFF)
      (hc : c.toNat = 0x10000 + (n - 0xD800) * 0x400 + (n' - 0xDC00)) :
      Stands ('\\' :: 'u' :: ds ++ '\\' :: 'u' :: ds') c

/-- What stands between the quotes of a string, and the text that it spells. -/
inductive Spells : List Char → List Char → Prop
  | nil : Spells [] []
  | cons {item cs text : List Char} {c : Char} (h : Stands item c) (hs : Spells cs text) :
      Spells (item ++ cs) (c :: text)

theorem IsString.append {cs ds : List Char} (h : IsString cs) (h' : IsString ds) :
    IsString (cs ++ ds) := by
  induction h with
  | nil => exact h'
  | cons hitem _ ih =>
    rw [List.append_assoc]
    exact .cons hitem ih

theorem IsItem.isString {item : List Char} (h : IsItem item) : IsString item := by
  rw [← List.append_nil item]
  exact .cons h .nil

/-- A string that spells a text is well-formed. -/
theorem Spells.isString {cs text : List Char} (h : Spells cs text) : IsString cs := by
  induction h with
  | nil => exact .nil
  | cons hitem _ ih =>
    refine IsString.append ?_ ih
    cases hitem with
    | plain h => exact (IsItem.plain h).isString
    | short h => exact (IsItem.short h).isString
    | code h => exact (IsItem.code h).isString
    | pair h h' _ _ _ => exact (IsItem.code h).isString.append (IsItem.code h').isString

/-! ## Numbers -/

/-- The whole digits of a number: a leading zero stands alone. -/
inductive IsWhole : List Char → Prop
  | zero : IsWhole ['0']
  | digits {d : Char} {ds : List Char} (hd : isDigit d = true) (h0 : d ≠ '0')
      (hds : ∀ c ∈ ds, isDigit c = true) : IsWhole (d :: ds)

/-- A row of digits that is not empty. -/
def Digits (ds : List Char) : Prop := ds ≠ [] ∧ ∀ d ∈ ds, isDigit d = true

/-- A fraction, or nothing. -/
inductive IsFraction : List Char → Prop
  | none : IsFraction []
  | some {ds : List Char} (h : Digits ds) : IsFraction ('.' :: ds)

/-- An exponent, or nothing. -/
inductive IsExponent : List Char → Prop
  | none : IsExponent []
  | some {e : Char} {sign ds : List Char} (he : e = 'e' ∨ e = 'E')
      (hs : sign = [] ∨ sign = ['+'] ∨ sign = ['-']) (h : Digits ds) :
      IsExponent (e :: sign ++ ds)

/-- A number without a sign. -/
def IsUnsigned (cs : List Char) : Prop :=
  ∃ whole fraction exponent, IsWhole whole ∧ IsFraction fraction ∧ IsExponent exponent ∧
    cs = whole ++ fraction ++ exponent

def IsNumber (cs : List Char) : Prop := IsUnsigned cs ∨ ∃ ds, IsUnsigned ds ∧ cs = '-' :: ds

/-- Nothing ahead that could be taken as a part of a number that has just ended. -/
def Delimits (cs : List Char) : Prop :=
  ∀ c ∈ cs.head?, isBlank c = true ∨ c = ',' ∨ c = ']' ∨ c = '}'

/-! ## Values -/

namespace Bracket

/-- The bracket that opens. -/
def opening : Bracket → Char
  | list => '['
  | object => '{'

end Bracket

/-- The words of the grammar. -/
def words : List (List Char) :=
  [['n', 'u', 'l', 'l'], ['t', 'r', 'u', 'e'], ['f', 'a', 'l', 's', 'e']]

/-- A value that holds no others. -/
inductive IsScalar : List Char → Prop
  | word {w : List Char} (h : w ∈ words) : IsScalar w
  | number {cs : List Char} (h : IsNumber cs) : IsScalar cs
  | string {cs : List Char} (h : IsString cs) : IsScalar ('"' :: cs ++ ['"'])

/-- What stands in front of the value of an entry: in an object, a key and a colon. -/
inductive Front : Bracket → List Char → Prop
  | list : Front .list []
  | object {before key after : List Char} (hbefore : Blank before) (h : IsString key)
      (hafter : Blank after) : Front .object (before ++ '"' :: key ++ '"' :: after ++ [':'])

/-- The parts of a text that are nested in each other. -/
inductive Part where
  | value
  /-- The entries between brackets, one at least. -/
  | row (b : Bracket)

/-- The texts of a part. -/
inductive Derives : Part → List Char → Prop
  | scalar {cs : List Char} (h : IsScalar cs) : Derives .value cs
  | empty (b : Bracket) {cs : List Char} (h : Blank cs) :
      Derives .value (b.opening :: cs ++ [b.close])
  | full {b : Bracket} {cs : List Char} (h : Derives (.row b) cs) :
      Derives .value (b.opening :: cs ++ [b.close])
  | last {b : Bracket} {front before v after : List Char} (hf : Front b front)
      (hb : Blank before) (hv : Derives .value v) (ha : Blank after) :
      Derives (.row b) (front ++ before ++ v ++ after)
  | more {b : Bracket} {front before v after cs : List Char} (hf : Front b front)
      (hb : Blank before) (hv : Derives .value v) (ha : Blank after) (h : Derives (.row b) cs) :
      Derives (.row b) (front ++ before ++ v ++ after ++ ',' :: cs)

/-- A value, without blanks around it. -/
abbrev IsValue (cs : List Char) : Prop := Derives .value cs

end Lexis.Json
