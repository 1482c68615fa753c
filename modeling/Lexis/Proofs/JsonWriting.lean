import Lexis.Json.Write
import Lexis.Proofs.JsonReading

/-!
# Writing values of JSON

What is written is what the grammar says: a character is written as an item that stands for it
(`stands_writeChar`), a number as its digits, and items with commas between them are a series. So
any members that have values are written as an object of these members (`isObject_writeObject`).
-/

namespace Lexis.Json

/-! ## Strings -/

theorem isHexDigit_hexDigit {n : Nat} (h : n < 16) :
    Alphabet.isHexDigit (hexDigit n) = true ∧ Alphabet.hexDigitValue (hexDigit n) = n := by
  have hall : ∀ n, n < 16 →
      Alphabet.isHexDigit (hexDigit n) = true ∧ Alphabet.hexDigitValue (hexDigit n) = n := by
    decide
  exact hall n h

/-- Two hexadecimal digits behind two zeros write a number below 256. -/
theorem hex4_of_lt {n : Nat} (h : n < 256) :
    Hex4 ['0', '0', hexDigit (n / 16), hexDigit (n % 16)] n := by
  obtain ⟨hhi, hhi'⟩ := isHexDigit_hexDigit (show n / 16 < 16 by omega)
  obtain ⟨hlo, hlo'⟩ := isHexDigit_hexDigit (show n % 16 < 16 by omega)
  have hzero : Alphabet.isHexDigit '0' = true ∧ Alphabet.hexDigitValue '0' = 0 := by decide
  refine ⟨rfl, ?_, ?_⟩
  · intro d hd
    simp only [List.mem_cons, List.not_mem_nil, or_false] at hd
    rcases hd with rfl | rfl | rfl | rfl
    · exact hzero.1
    · exact hzero.1
    · exact hhi
    · exact hlo
  · simp only [Alphabet.hexValue, List.foldl_cons, List.foldl_nil, hzero.2, hhi', hlo']
    omega

/-- A character is written as an item that stands for it. -/
theorem stands_writeChar (c : Char) : Stands (writeChar c) c := by
  unfold writeChar
  split
  · exact .short (by decide)
  · exact .short (by decide)
  · exact .short (by decide)
  · exact .short (by decide)
  · exact .short (by decide)
  · exact .short (by decide)
  · exact .short (by decide)
  · next hquote hslash _ _ _ _ _ =>
    split
    · next hcontrol => exact .code (hex4_of_lt (by omega))
    · next hcontrol => exact .plain ⟨hquote, hslash, Nat.not_lt.mp hcontrol⟩

theorem spells_writeChars (text : List Char) : Spells (text.flatMap writeChar) text := by
  induction text with
  | nil => exact .nil
  | cons c text ih =>
    rw [List.flatMap_cons]
    exact .cons (stands_writeChar c) ih

theorem toList_writeString (text : String) :
    (writeString text).toList = '"' :: (text.toList.flatMap writeChar ++ ['"']) := by
  rw [writeString, String.toList_ofList]
  rfl

/-! ## Numbers -/

/-- No number but zero starts with a zero. -/
theorem exists_toDigits_cons (n : Nat) (h : 0 < n) :
    ∃ d ds, Nat.toDigits 10 n = d :: ds ∧ d ≠ '0' := by
  induction n using Nat.base_induction 10 (by decide) with
  | single m hm =>
    have hall : ∀ m, m < 10 → 0 < m → m.digitChar ≠ '0' := by decide
    exact ⟨m.digitChar, [], Nat.toDigits_of_lt_base hm, hall m hm h⟩
  | digit m k hk hm ih =>
    obtain ⟨d, ds, hds, hd⟩ := ih hm
    refine ⟨d, ds ++ Nat.toDigits 10 k, ?_, hd⟩
    rw [← Nat.toDigits_append_toDigits (by decide) hm hk, hds]
    rfl

theorem isDigit_of_mem_toDigits {n : Nat} {d : Char} (h : d ∈ Nat.toDigits 10 n) :
    isDigit d = true := Nat.isDigit_of_mem_toDigits (by decide) (by decide) h

/-- The digits of a number are whole digits. -/
theorem isWhole_toDigits (n : Nat) : IsWhole (Nat.toDigits 10 n) := by
  rcases Nat.eq_zero_or_pos n with rfl | hn
  · exact .zero
  · obtain ⟨d, ds, hds, hd⟩ := exists_toDigits_cons n hn
    have hdigits : ∀ c ∈ d :: ds, isDigit c = true := by
      rw [← hds]
      exact fun _ => isDigit_of_mem_toDigits
    rw [hds]
    refine .digits (hdigits d List.mem_cons_self) hd ?_
    intro c hc
    exact hdigits c (List.mem_cons_of_mem d hc)

theorem decimal_toDigits (n : Nat) : decimal (Nat.toDigits 10 n) = n :=
  Nat.ofDigitChars_ten_toDigits

/-! ## Series -/

theorem intercalate_comma (cs : List Char) (css : List (List Char)) :
    [','].intercalate (cs :: css) = cs ++ css.flatMap (',' :: ·) := by
  induction css generalizing cs with
  | nil => simp [List.intercalate]
  | cons ds css ih =>
    rw [List.intercalate_cons_cons, ih, List.flatMap_cons]
    simp

section Series

variable {α : Type} {P : α → List Char → Prop} {write : α → List Char}

/-- The items behind the first one, each with a comma in front of it. -/
theorem series_flatMap {as : List α} (h : ∀ a ∈ as, P a (write a)) :
    Series P false as ((as.map write).flatMap (',' :: ·)) := by
  induction as with
  | nil => exact .done blank_nil
  | cons a as ih =>
    obtain ⟨ha, has⟩ := List.forall_mem_cons.mp h
    rw [List.map_cons, List.flatMap_cons]
    exact .more blank_nil ha (ih has)

/-- Items with commas between them are a series. -/
theorem series_intercalate {as : List α} (h : ∀ a ∈ as, P a (write a)) :
    Series P true as ([','].intercalate (as.map write)) := by
  cases as with
  | nil => exact .done blank_nil
  | cons a as =>
    obtain ⟨ha, has⟩ := List.forall_mem_cons.mp h
    rw [List.map_cons, intercalate_comma]
    exact .first ha (series_flatMap has)

end Series

/-! ## Objects -/

/-- A member as it is written without blanks. -/
def writeMember (m : Member) : List Char := (writeString m.1).toList ++ ':' :: m.2

/-- Members as they are written in an object. -/
def writeObject (ms : List Member) : List Char :=
  '{' :: ([','].intercalate (ms.map writeMember) ++ ['}'])

theorem isMember_writeMember {m : Member} (h : IsValue m.2) : IsMember m (writeMember m) := by
  have hm : IsMember m
      ([] ++ '"' :: (m.1.toList.flatMap writeChar ++ '"' :: ([] ++ ':' :: ([] ++ m.2)))) :=
    .mk blank_nil (spells_writeChars m.1.toList) (.mk blank_nil blank_nil h)
  rw [writeMember, toList_writeString]
  simpa using hm

/-- Any members that have values are the members of an object. -/
theorem isObject_writeObject {ms : List Member} (h : ∀ m ∈ ms, IsValue m.2) :
    IsObject ms (writeObject ms) :=
  ⟨_, series_intercalate fun m hm => isMember_writeMember (h m hm), rfl⟩

/-- A text that is written as an object holds its members. -/
theorem holds_of_writeObject {ms : List Member} {text : String} (h : text.toList = writeObject ms)
    (hvalues : ∀ m ∈ ms, IsValue m.2) : Holds ms text :=
  ⟨[], writeObject ms, [], blank_nil, isObject_writeObject hvalues, blank_nil, by simp [h]⟩

end Lexis.Json
