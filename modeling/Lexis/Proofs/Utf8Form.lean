import Lexis.Scanner
import Lexis.Source
import Mathlib.Order.Bounds.Basic

/-!
# The UTF-8 form of a text

Bytes are loaded exactly if they are the form that the standard gives some text, and loading then
gives back that text; otherwise the offset named is the size of the longest front part that is a
form (`load_iff`).

* The decoder's table lists the well-formed sequences with their values (`Form`). Each is the form
  of its scalar value and every scalar value's form is among them; this is all of the arithmetic.
* So a form in front of any bytes is decoded first (`decodeFrom_append`), and all bytes are a form
  and then bytes at whose front no scalar value stands (`exists_longestForm`).
-/

namespace Lexis.Text.Utf8
open String (utf8EncodeChar)

/-! ## Bytes as numbers -/

theorem toNat_byte {n : Nat} (h : n < 256) : (UInt8.ofNat n).toNat = n := by
  rw [UInt8.toNat_ofNat']
  exact Nat.mod_eq_of_lt h

/-- A byte that continues a scalar value, by its number. -/
theorem isTrail_iff {b : UInt8} : isTrail b = true ↔ 0x80 ≤ b.toNat ∧ b.toNat ≤ 0xBF := by
  simp [isTrail, UInt8.le_iff_toNat_le]

/-- A second byte is a trailing byte, less what would be overlong, a surrogate or too large. -/
theorem isSecond_iff {b b₁ : UInt8} : isSecond b b₁ = true ↔
    (0x80 ≤ b₁.toNat ∧ b₁.toNat ≤ 0xBF) ∧ (b.toNat = 0xE0 → 0xA0 ≤ b₁.toNat) ∧
      (b.toNat = 0xED → b₁.toNat ≤ 0x9F) ∧ (b.toNat = 0xF0 → 0x90 ≤ b₁.toNat) ∧
      (b.toNat = 0xF4 → b₁.toNat ≤ 0x8F) := by
  unfold isSecond secondRange
  simp only [← UInt8.toNat_inj]
  repeat' split
  all_goals
    simp only [Bool.and_eq_true, decide_eq_true_eq, UInt8.le_iff_toNat_le, UInt8.toNat_ofNat] at *
    omega

/-! ## Well-formed sequences -/

/-- A well-formed sequence of bytes and the scalar value that it stands for. -/
inductive Form : List UInt8 → Nat → Prop
  | one {b : UInt8} (hb : b.toNat < 0x80) : Form [b] b.toNat
  | two {b b₁ : UInt8} (hb : 0xC2 ≤ b.toNat ∧ b.toNat ≤ 0xDF) (h₁ : isSecond b b₁ = true) :
      Form [b, b₁] (extendBy (b.toNat - 0xC0) b₁)
  | three {b b₁ b₂ : UInt8} (hb : 0xE0 ≤ b.toNat ∧ b.toNat ≤ 0xEF) (h₁ : isSecond b b₁ = true)
      (h₂ : isTrail b₂ = true) : Form [b, b₁, b₂] (extendBy (extendBy (b.toNat - 0xE0) b₁) b₂)
  | four {b b₁ b₂ b₃ : UInt8} (hb : 0xF0 ≤ b.toNat ∧ b.toNat ≤ 0xF4) (h₁ : isSecond b b₁ = true)
      (h₂ : isTrail b₂ = true) (h₃ : isTrail b₃ = true) :
      Form [b, b₁, b₂, b₃] (extendBy (extendBy (extendBy (b.toNat - 0xF0) b₁) b₂) b₃)

/-- A form is decoded to the scalar value it is of. -/
theorem scalar?_append_of_form {b : UInt8} {bs : List UInt8} {v : Nat} (h : Form (b :: bs) v)
    (rest : List UInt8) : scalar? b (bs ++ rest) = some (Char.ofNat v, rest) := by
  unfold scalar?
  simp only [UInt8.lt_iff_toNat_lt, UInt8.le_iff_toNat_le, Bool.and_eq_true, decide_eq_true_eq,
    UInt8.toNat_ofNat]
  cases h with
  | one hb => rw [if_pos (by omega)]; rfl
  | two hb h₁ =>
    rw [if_neg (by omega), if_pos (by omega)]
    simp [h₁]
  | three hb h₁ h₂ =>
    rw [if_neg (by omega), if_neg (by omega), if_pos (by omega)]
    simp [h₁, h₂]
  | four hb h₁ h₂ h₃ =>
    rw [if_neg (by omega), if_neg (by omega), if_neg (by omega), if_pos (by omega)]
    simp [h₁, h₂, h₃]

/-- What is decoded to a scalar value is a form of it. -/
theorem form_of_scalar? {b : UInt8} {rest rest' : List UInt8} {c : Char}
    (h : scalar? b rest = some (c, rest')) :
    ∃ bs v, Form (b :: bs) v ∧ rest = bs ++ rest' ∧ c = Char.ofNat v := by
  unfold scalar? at h
  simp only [UInt8.lt_iff_toNat_lt, UInt8.le_iff_toNat_le, Bool.and_eq_true, decide_eq_true_eq,
    UInt8.toNat_ofNat] at h
  -- one case for each length that the first byte can announce
  split at h
  · next hb =>
    simp only [Option.some.injEq, Prod.mk.injEq] at h
    exact ⟨[], _, .one hb, h.2, h.1.symm⟩
  · split at h
    · next hb =>
      split at h
      · next b₁ tail =>
        split at h
        · next h₁ =>
          simp only [Option.some.injEq, Prod.mk.injEq] at h
          exact ⟨[b₁], _, .two hb h₁, by rw [← h.2]; rfl, h.1.symm⟩
        · simp at h
      · simp at h
    · split at h
      · next hb =>
        split at h
        · next b₁ b₂ tail =>
          split at h
          · next ht =>
            simp only [Option.some.injEq, Prod.mk.injEq] at h
            exact ⟨[b₁, b₂], _, .three hb ht.1 ht.2, by rw [← h.2]; rfl, h.1.symm⟩
          · simp at h
        · simp at h
      · split at h
        · next hb =>
          split at h
          · next b₁ b₂ b₃ tail =>
            split at h
            · next ht =>
              simp only [Option.some.injEq, Prod.mk.injEq] at h
              exact ⟨[b₁, b₂, b₃], _, .four hb ht.1.1 ht.1.2 ht.2, by rw [← h.2]; rfl,
                h.1.symm⟩
            · simp at h
          · simp at h
        · simp at h

/-- Six bits more, written without the mask. -/
theorem extendBy_eq (value : Nat) {b : UInt8} (h : 0x80 ≤ b.toNat) :
    extendBy value b + 0x80 = value * 64 + b.toNat := by
  unfold extendBy
  omega

/-- Well-formed sequences stand for scalar values: surrogates and larger numbers are shut out. -/
theorem Form.valid {bs : List UInt8} {v : Nat} (h : Form bs v) : v.isValidChar := by
  unfold Nat.isValidChar
  cases h with
  | one hb => omega
  | two hb h₁ =>
    rw [isSecond_iff] at h₁
    unfold extendBy
    omega
  | three hb h₁ h₂ =>
    rw [isSecond_iff] at h₁
    rw [isTrail_iff] at h₂
    unfold extendBy
    omega
  | four hb h₁ h₂ h₃ =>
    rw [isSecond_iff] at h₁
    rw [isTrail_iff] at h₂ h₃
    unfold extendBy
    omega

theorem toNat_ofNat {n : Nat} (h : n.isValidChar) : (Char.ofNat n).toNat = n := by
  rw [Char.ofNat, dif_pos h]
  rfl

theorem ofNat_byte {n : Nat} (b : UInt8) (h : n = b.toNat) : UInt8.ofNat n = b := by
  rw [h]
  exact UInt8.ofNat_toNat

/-- **A well-formed sequence is the form of its scalar value**, so none is overlong. -/
theorem Form.eq {bs : List UInt8} {v : Nat} (h : Form bs v) :
    bs = utf8EncodeChar (Char.ofNat v) := by
  unfold utf8EncodeChar
  rw [show (Char.ofNat v).val.toNat = v from toNat_ofNat h.valid]
  simp only
  -- the values gathered on the way are named, so that the bytes are linear in them
  cases h with
  | one hb => rw [if_pos (by omega), UInt8.ofNat_toNat]
  | @two b b₁ hb h₁ =>
    rw [isSecond_iff] at h₁
    have hv := extendBy_eq (b.toNat - 0xC0) h₁.1.1
    generalize extendBy _ b₁ = v at hv
    rw [if_neg (by omega), if_pos (by omega), ofNat_byte b (by omega),
      ofNat_byte b₁ (by omega)]
  | @three b b₁ b₂ hb h₁ h₂ =>
    rw [isSecond_iff] at h₁
    rw [isTrail_iff] at h₂
    have hu := extendBy_eq (b.toNat - 0xE0) h₁.1.1
    generalize extendBy _ b₁ = u at hu
    have hv := extendBy_eq u h₂.1
    generalize extendBy _ b₂ = v at hv
    rw [if_neg (by omega), if_neg (by omega), if_pos (by omega), ofNat_byte b (by omega),
      ofNat_byte b₁ (by omega), ofNat_byte b₂ (by omega)]
  | @four b b₁ b₂ b₃ hb h₁ h₂ h₃ =>
    rw [isSecond_iff] at h₁
    rw [isTrail_iff] at h₂ h₃
    have ht := extendBy_eq (b.toNat - 0xF0) h₁.1.1
    generalize extendBy _ b₁ = t at ht
    have hu := extendBy_eq t h₂.1
    generalize extendBy _ b₂ = u at hu
    have hv := extendBy_eq u h₃.1
    generalize extendBy _ b₃ = v at hv
    have hvu : v / 64 = u := by omega
    have hvt : v / 4096 = t := by omega
    have hvb : v / 262144 % 8 + 240 = b.toNat := by omega
    rw [if_neg (by omega), if_neg (by omega), if_neg (by omega), hvu, hvt, ofNat_byte b hvb,
      ofNat_byte b₁ (by omega), ofNat_byte b₂ (by omega),
      ofNat_byte b₃ (by omega)]

/-- Six bits are appended to what was gathered before. -/
theorem extendBy_byte {value n : Nat} (h : n < 64) :
    extendBy value (UInt8.ofNat (n + 128)) = value * 64 + n := by
  have hb := toNat_byte (n := n + 128) (by omega)
  unfold extendBy
  omega

theorem isTrail_byte {n : Nat} (h : n < 64) : isTrail (UInt8.ofNat (n + 128)) = true := by
  rw [isTrail_iff, toNat_byte (by omega)]
  omega

/-- **The form of every scalar value is well-formed.** -/
theorem form_utf8EncodeChar (c : Char) : Form (utf8EncodeChar c) c.toNat := by
  have hc : c.toNat < 0xD800 ∨ 0xDFFF < c.toNat ∧ c.toNat < 0x110000 := c.valid
  unfold utf8EncodeChar
  rw [show c.val.toNat = c.toNat from rfl]
  generalize c.toNat = v at hc
  simp only
  -- the length follows from the size of the value, and the bounds of the second byte from that
  split
  · have hb : (UInt8.ofNat v).toNat = v := toNat_byte (by omega)
    have h := Form.one (b := UInt8.ofNat v) (by omega)
    rwa [hb] at h
  · split
    · have hb := toNat_byte (n := v / 64 % 32 + 192) (by omega)
      have h₁ : isSecond (UInt8.ofNat (v / 64 % 32 + 192)) (UInt8.ofNat (v % 64 + 128)) = true := by
        rw [isSecond_iff, hb, toNat_byte (by omega)]
        omega
      have h := Form.two (by omega) h₁
      rw [hb, extendBy_byte (by omega)] at h
      rwa [show (v / 64 % 32 + 192 - 0xC0) * 64 + v % 64 = v by omega] at h
    · split
      · have hb := toNat_byte (n := v / 4096 % 16 + 224) (by omega)
        have h₁ : isSecond (UInt8.ofNat (v / 4096 % 16 + 224)) (UInt8.ofNat (v / 64 % 64 + 128))
            = true := by
          rw [isSecond_iff, hb, toNat_byte (by omega)]
          omega
        have h := Form.three (by omega) h₁ (isTrail_byte (n := v % 64) (by omega))
        rw [hb, extendBy_byte (by omega), extendBy_byte (by omega)] at h
        rwa [show ((v / 4096 % 16 + 224 - 0xE0) * 64 + v / 64 % 64) * 64 + v % 64 = v by omega]
          at h
      · have hb := toNat_byte (n := v / 262144 % 8 + 240) (by omega)
        have h₁ : isSecond (UInt8.ofNat (v / 262144 % 8 + 240)) (UInt8.ofNat (v / 4096 % 64 + 128))
            = true := by
          rw [isSecond_iff, hb, toNat_byte (by omega)]
          omega
        have h := Form.four (by omega) h₁ (isTrail_byte (n := v / 64 % 64) (by omega))
          (isTrail_byte (n := v % 64) (by omega))
        rw [hb, extendBy_byte (by omega), extendBy_byte (by omega), extendBy_byte (by omega)] at h
        rwa [show (((v / 262144 % 8 + 240 - 0xF0) * 64 + v / 4096 % 64) * 64 + v / 64 % 64) * 64
          + v % 64 = v by omega] at h

/-! ## The form of a text -/

/-- The UTF-8 form of scalar values. -/
def formOf (cs : List Char) : List UInt8 := cs.flatMap utf8EncodeChar

/-- The UTF-8 form of a text. -/
def encode (text : String) : List UInt8 := text.toUTF8.data.toList

@[simp] theorem formOf_nil : formOf [] = [] := rfl

@[simp] theorem formOf_cons (c : Char) (cs : List Char) :
    formOf (c :: cs) = utf8EncodeChar c ++ formOf cs := rfl

/-- A text takes up the bytes that its size counts. -/
theorem length_formOf (cs : List Char) : (formOf cs).length = size cs := by
  induction cs with
  | nil => rfl
  | cons c cs ih =>
    rw [formOf_cons, List.length_append, String.length_utf8EncodeChar, ih, size_cons]

/-- A text is encoded scalar value by scalar value. -/
theorem encode_ofList (cs : List Char) : encode (String.ofList cs) = formOf cs := by
  unfold encode
  rw [String.toUTF8_eq_toByteArray, String.toByteArray_ofList]
  exact List.toList_data_toByteArray

theorem encode_eq (text : String) : encode text = formOf text.toList := by
  rw [← encode_ofList, String.ofList_toList]

/-! ## Decoding -/

/-- The form of a scalar value in front of any bytes is read as that value. -/
theorem scalar?_utf8EncodeChar (c : Char) (rest : List UInt8) : ∃ b bs,
    utf8EncodeChar c = b :: bs ∧ scalar? b (bs ++ rest) = some (c, rest) := by
  have hform := form_utf8EncodeChar c
  cases hbytes : utf8EncodeChar c with
  | nil =>
    rw [hbytes] at hform
    cases hform
  | cons b bs =>
    rw [hbytes] at hform
    refine ⟨b, bs, rfl, ?_⟩
    rw [scalar?_append_of_form hform, Char.ofNat_toNat]

/-- No scalar value's form goes on as another one's. -/
theorem utf8EncodeChar_append_inj {c d : Char} {cs ds : List UInt8}
    (h : utf8EncodeChar c ++ cs = utf8EncodeChar d ++ ds) : c = d ∧ cs = ds := by
  obtain ⟨b, bs, hc, hcs⟩ := scalar?_utf8EncodeChar c cs
  obtain ⟨b', bs', hd, hds⟩ := scalar?_utf8EncodeChar d ds
  rw [hc, hd, List.cons_append, List.cons_append, List.cons.injEq] at h
  rw [h.1, h.2, hds, Option.some.injEq, Prod.mk.injEq] at hcs
  exact ⟨hcs.1.symm, hcs.2.symm⟩

/-- A form that stands in front is decoded first. -/
theorem decodeFrom_append (offset : Nat) (cs : List Char) (rest : List UInt8) :
    decodeFrom offset (formOf cs ++ rest)
      = (decodeFrom (offset + size cs) rest).map (cs ++ ·) := by
  induction cs generalizing offset with
  | nil =>
    show decodeFrom offset rest = (decodeFrom offset rest).map id
    cases decodeFrom offset rest <;> rfl
  | cons c cs ih =>
    obtain ⟨b, bs, hbytes, hscalar⟩ := scalar?_utf8EncodeChar c (formOf cs ++ rest)
    rw [formOf_cons, List.append_assoc, hbytes, List.cons_append, decodeFrom]
    split
    · next hnone =>
      rw [hscalar] at hnone
      cases hnone
    · next c' rest' hsome =>
      rw [hscalar, Option.some.injEq, Prod.mk.injEq] at hsome
      obtain ⟨rfl, rfl⟩ := hsome
      rw [ih, size_cons, ← Nat.add_assoc]
      cases decodeFrom (offset + c.utf8Size + size cs) rest <;> rfl

/-! ## Where decoding stops -/

/-- No scalar value's form stands at the front of the bytes. -/
def Stuck (bytes : List UInt8) : Prop := ∀ c rest, bytes ≠ utf8EncodeChar c ++ rest

/-- Where no form begins, decoding stops with the offset it has reached. -/
theorem decodeFrom_of_stuck {bytes : List UInt8} (h : Stuck bytes) (hne : bytes ≠ [])
    (offset : Nat) : decodeFrom offset bytes = .error offset := by
  cases bytes with
  | nil => exact absurd rfl hne
  | cons b rest =>
    rw [decodeFrom]
    split
    · rfl
    · next c rest' hscalar =>
      obtain ⟨bs, v, hform, rfl, rfl⟩ := form_of_scalar? hscalar
      exact absurd (by rw [← hform.eq, List.cons_append]) (h (Char.ofNat v) rest')

/-- All bytes are the form of some scalar values and then bytes at whose front none stands. -/
theorem exists_longestForm (bytes : List UInt8) :
    ∃ cs rest, bytes = formOf cs ++ rest ∧ Stuck rest := by
  induction hn : bytes.length using Nat.strongRecOn generalizing bytes with
  | ind n ih =>
    by_cases hstuck : Stuck bytes
    · exact ⟨[], bytes, rfl, hstuck⟩
    · obtain ⟨c, tail, rfl⟩ : ∃ c tail, bytes = utf8EncodeChar c ++ tail := by
        simpa [Stuck] using hstuck
      have hlt : tail.length < n := by
        rw [← hn, List.length_append, String.length_utf8EncodeChar]
        have := c.utf8Size_pos
        omega
      obtain ⟨cs, rest, rfl, hrest⟩ := ih tail.length hlt tail rfl
      exact ⟨c :: cs, rest, by rw [formOf_cons, List.append_assoc], hrest⟩

/-- A form before bytes at whose front none stands is the longest one. -/
theorem prefix_of_stuck {cs ds : List Char} {rest tail : List UInt8} (h : Stuck rest)
    (heq : formOf ds ++ tail = formOf cs ++ rest) : ds <+: cs := by
  induction ds generalizing cs with
  | nil => exact List.nil_prefix
  | cons d ds ih =>
    rw [formOf_cons, List.append_assoc] at heq
    cases cs with
    | nil => exact absurd heq.symm (h d _)
    | cons c cs =>
      rw [formOf_cons, List.append_assoc] at heq
      obtain ⟨rfl, htail⟩ := utf8EncodeChar_append_inj heq
      exact (List.cons_prefix_cons).mpr ⟨rfl, ih htail⟩

/-- The bytes are no text's form, and the longest front part that is one has `n` bytes. -/
def StopsAt (bytes : List UInt8) (n : Nat) : Prop :=
  (∀ text, encode text ≠ bytes) ∧
    IsGreatest {m | m ≤ bytes.length ∧ ∃ text, encode text = bytes.take m} n

theorem isGreatest_of_stuck {cs : List Char} {rest : List UInt8} (h : Stuck rest) :
    IsGreatest {m | m ≤ (formOf cs ++ rest).length ∧
      ∃ text, encode text = (formOf cs ++ rest).take m} (size cs) := by
  constructor
  · refine ⟨?_, String.ofList cs, ?_⟩
    · rw [List.length_append, length_formOf]
      exact Nat.le_add_right _ _
    · rw [encode_ofList, ← length_formOf, List.take_left']
      rfl
  · -- a longer form would begin with this one, and go on where nothing begins
    rintro m ⟨hle, text, htext⟩
    rw [encode_eq] at htext
    have hlength : size text.toList = m := by
      rw [← length_formOf, htext, List.length_take]
      exact Nat.min_eq_left hle
    have hsplit : formOf text.toList ++ (formOf cs ++ rest).drop m = formOf cs ++ rest := by
      rw [htext, List.take_append_drop]
    have hfront : text.toList <+: cs := prefix_of_stuck h hsplit
    obtain ⟨more, rfl⟩ := hfront
    rw [← hlength, size_append]
    exact Nat.le_add_right _ _

/-- What was encoded is decoded again. -/
theorem decode_encode (text : String) : decode (encode text) = .ok text := by
  have h := decodeFrom_append 0 text.toList []
  rw [List.append_nil, decodeFrom] at h
  rw [decode, encode_eq, h]
  show Except.ok (String.ofList (text.toList ++ [])) = _
  rw [List.append_nil, String.ofList_toList]

/-- Decoding fails behind the longest form. -/
theorem decode_of_stuck {cs : List Char} {rest : List UInt8} (h : Stuck rest) (hne : rest ≠ []) :
    decode (formOf cs ++ rest) = .error (size cs) := by
  rw [decode, decodeFrom_append, decodeFrom_of_stuck h hne, Nat.zero_add]
  rfl

/-- Bytes decode to the text that encodes to them, if there is one. -/
theorem decode_eq_ok_iff {bytes : List UInt8} {text : String} :
    decode bytes = .ok text ↔ encode text = bytes := by
  constructor
  · intro h
    obtain ⟨cs, rest, rfl, hstuck⟩ := exists_longestForm bytes
    by_cases hrest : rest = []
    · subst hrest
      rw [List.append_nil, ← encode_ofList, decode_encode, Except.ok.injEq] at h
      rw [← h, encode_ofList, List.append_nil]
    · rw [decode_of_stuck hstuck hrest] at h
      cases h
  · rintro rfl
    exact decode_encode text

theorem decode_eq_error_iff {bytes : List UInt8} {n : Nat} :
    decode bytes = .error n ↔ StopsAt bytes n := by
  obtain ⟨cs, rest, rfl, hstuck⟩ := exists_longestForm bytes
  constructor
  · intro h
    have hnone : ∀ text, encode text ≠ formOf cs ++ rest := by
      intro text htext
      rw [decode_eq_ok_iff.mpr htext] at h
      cases h
    have hrest : rest ≠ [] := by
      rintro rfl
      exact hnone (String.ofList cs) (by rw [encode_ofList, List.append_nil])
    rw [decode_of_stuck hstuck hrest, Except.error.injEq] at h
    rw [← h]
    exact ⟨hnone, isGreatest_of_stuck hstuck⟩
  · rintro ⟨hnone, hgreatest⟩
    have hrest : rest ≠ [] := by
      rintro rfl
      exact hnone (String.ofList cs) (by rw [encode_ofList, List.append_nil])
    rw [decode_of_stuck hstuck hrest, hgreatest.unique (isGreatest_of_stuck hstuck)]

/-! ## Loading -/

/-- **Exactly the forms of texts are loaded, as these texts; otherwise loading stops behind the
longest form, and names that offset.** -/
theorem load_iff (bytes : List UInt8) (name : String) (options : ScannerOptions) :
    (∀ text, decode bytes = .ok text ↔ encode text = bytes) ∧
    (∀ n, decode bytes = .error n ↔ StopsAt bytes n) ∧
    (∀ s, Scanner.ofBytes bytes options = .ok s ↔
      ∃ text, encode text = bytes ∧ s = Scanner.ofText text options) ∧
    (∀ n, Scanner.ofBytes bytes options = .error n ↔ StopsAt bytes n) ∧
    (∀ source, Source.ofBytes name bytes = .ok source ↔
      source.name = name ∧ encode source.text = bytes) ∧
    (∀ e, Source.ofBytes name bytes = .error e ↔ ∃ n, e = .invalidUtf8 n ∧ StopsAt bytes n) := by
  refine ⟨fun text => decode_eq_ok_iff, fun n => decode_eq_error_iff, ?_⟩
  simp only [← decode_eq_ok_iff, ← decode_eq_error_iff, Scanner.ofBytes, Source.ofBytes]
  cases decode bytes with
  | ok text =>
    refine ⟨fun s => ?_, fun n => ?_, fun source => ?_, fun e => ?_⟩
    · simp [Except.map, eq_comm]
    · simp [Except.map]
    · cases source
      simp [eq_comm]
    · simp
  | error offset =>
    refine ⟨fun s => ?_, fun n => ?_, fun source => ?_, fun e => ?_⟩
    · simp [Except.map]
    · simp [Except.map]
    · simp
    · simp [eq_comm]

/-- A surrogate is no scalar value, so the bytes stop being a form in front of it. -/
example : decode [0x6C, 0xED, 0xA0, 0x80] = .error 1 := by decide +kernel

end Lexis.Text.Utf8
