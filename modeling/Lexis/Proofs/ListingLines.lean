import Lexis.Alphabet
import Lexis.CommandLine.Run
import Lexis.Proofs.Delimiters
import Mathlib.Data.List.Forall2
import Mathlib.Data.List.Nodup

/-!
# Listings tell tokens apart

From a listing the tokens can be told: their lines and columns, their kinds and their texts
(`textOutput_eq_iff`). No field holds what ends it. The digits of a number hold no colon and no tab,
the name of a kind holds no tab, and between its quotes a text is written character by character
(`Writes`), so that none is the front of another one and none starts with a quote. Nor does any
field hold a line feed, so there are as many lines as tokens.
-/

namespace Lexis

namespace Text

/-! ## Quoted characters -/

theorem hexText_of_lt {n : Nat} (h : n < 16) : hexText n = [n.digitChar] :=
  Nat.toDigits_of_lt_base h

/-- The last digit of a number in hexadecimal is written behind the others. -/
theorem hexText_append {m k : Nat} (hm : 0 < m) (hk : k < 16) :
    hexText (16 * m + k) = hexText m ++ [k.digitChar] := by
  rw [hexText, ← Nat.toDigits_append_toDigits (by decide) hm hk, Nat.toDigits_of_lt_base hk]
  rfl

/-- The digits of a number in hexadecimal have its value. -/
theorem hexValue_hexText (n : Nat) : Alphabet.hexValue (hexText n) = n := by
  have hdigit : ∀ m, m < 16 → Alphabet.hexDigitValue m.digitChar = m := by decide
  induction n using Nat.base_induction 16 (by decide) with
  | single m hm =>
    rw [hexText_of_lt hm, Alphabet.hexValue, List.foldl_cons, hdigit m hm]
    simp
  | digit m k hk hm ih =>
    rw [hexText_append hm hk, Alphabet.hexValue, List.foldl_append]
    show Alphabet.hexValue (hexText m) * 16 + Alphabet.hexDigitValue k.digitChar = _
    rw [ih, hdigit k hk, Nat.mul_comm]

/-- Hexadecimal digits are digits, and no signs. -/
theorem ne_of_mem_hexText {n : Nat} {d : Char} (h : d ∈ hexText n) : d ≠ '}' ∧ d ≠ '\n' := by
  have hdigit : ∀ m, m < 16 → m.digitChar ≠ '}' ∧ m.digitChar ≠ '\n' := by decide
  induction n using Nat.base_induction 16 (by decide) with
  | single m hm =>
    rw [hexText_of_lt hm, List.mem_singleton] at h
    rw [h]
    exact hdigit m hm
  | digit m k hk hm ih =>
    rw [hexText_append hm hk, List.mem_append, List.mem_singleton] at h
    rcases h with h | rfl
    · exact ih h
    · exact hdigit k hk

/-- The characters that have an escape of their own, with the symbol behind its backslash. -/
def namedQuotes : List (Char × Char) :=
  [('\x00', '0'), ('\t', 't'), ('\r', 'r'), ('\n', 'n'), ('"', '"'), ('\\', '\\')]

/-- The ways in which a character is written between quotes. -/
inductive Writes (c : Char) : List Char → Prop
  | plain (quote : c ≠ '"') (backslash : c ≠ '\\') (lineFeed : c ≠ '\n') : Writes c [c]
  | named {symbol : Char} (name : (c, symbol) ∈ namedQuotes) : Writes c ['\\', symbol]
  | numbered : Writes c ('\\' :: 'u' :: '{' :: (hexText c.toNat ++ ['}']))

/-- A character is quoted in one of the ways of the relation. -/
theorem writes_quoteChar (c : Char) : Writes c (quoteChar c) := by
  unfold quoteChar
  split
  · exact .named (by decide)
  · exact .named (by decide)
  · exact .named (by decide)
  · exact .named (by decide)
  · exact .named (by decide)
  · exact .named (by decide)
  · next _ _ _ hfeed hquote hbackslash =>
    split
    · exact .plain hquote hbackslash hfeed
    · exact .numbered

section

variable {c d : Char} {w v cs ds : List Char}

/-- No way to write a character uses a line feed. -/
theorem Writes.lineFeed_notMem (h : Writes c w) : '\n' ∉ w := by
  cases h with
  | plain _ _ hfeed => simpa using hfeed.symm
  | @named symbol hname =>
    have hall : ∀ p ∈ namedQuotes, '\n' ∉ ['\\', p.2] := by decide
    exact hall (c, symbol) hname
  | numbered =>
    intro h
    simp only [List.mem_cons, List.mem_append, List.not_mem_nil, or_false] at h
    rcases h with h | h | h | h | h
    · exact absurd h (by decide)
    · exact absurd h (by decide)
    · exact absurd h (by decide)
    · exact (ne_of_mem_hexText h).2 rfl
    · exact absurd h (by decide)

/-- What is written for a character is not the quote that ends the text. -/
theorem Writes.ne_quote (h : Writes c w) : w ++ cs ≠ '"' :: ds := by
  intro heq
  cases h with
  | plain hquote => exact hquote (List.cons.inj heq).1
  | named => exact absurd (List.cons.inj heq).1 (by decide)
  | numbered => exact absurd (List.cons.inj heq).1 (by decide)

/-- **What is written for a character is not the front of what is written for another one.** -/
theorem Writes.append_inj (h : Writes c w) (h' : Writes d v) (heq : w ++ cs = v ++ ds) :
    c = d ∧ cs = ds := by
  have hsymbol : ∀ p ∈ namedQuotes, p.2 ≠ 'u' := by decide
  have hsymbols : ∀ p ∈ namedQuotes, ∀ q ∈ namedQuotes, p.2 = q.2 → p.1 = q.1 := by decide
  cases h with
  | plain _ hbackslash =>
    cases h' with
    | plain => exact List.cons.inj heq
    | named => exact absurd (List.cons.inj heq).1 hbackslash
    | numbered => exact absurd (List.cons.inj heq).1 hbackslash
  | @named symbol hname =>
    cases h' with
    | plain _ hbackslash => exact absurd (List.cons.inj heq).1.symm hbackslash
    | @named symbol' hname' =>
      obtain ⟨hsame, hrest⟩ := List.cons.inj (List.cons.inj heq).2
      exact ⟨hsymbols (c, symbol) hname (d, symbol') hname' hsame, hrest⟩
    | numbered =>
      exact absurd (List.cons.inj (List.cons.inj heq).2).1 (hsymbol (c, symbol) hname)
  | numbered =>
    cases h' with
    | plain _ hbackslash => exact absurd (List.cons.inj heq).1.symm hbackslash
    | @named symbol' hname' =>
      exact absurd (List.cons.inj (List.cons.inj heq).2).1.symm (hsymbol (d, symbol') hname')
    | numbered =>
      -- the brace behind the digits ends both numbers at the same place
      have hdigits : hexText c.toNat ++ '}' :: cs = hexText d.toNat ++ '}' :: ds := by
        simpa using heq
      obtain ⟨hsame, hrest⟩ := append_cons_inj (fun h => (ne_of_mem_hexText h).1 rfl)
        (fun h => (ne_of_mem_hexText h).1 rfl) hdigits
      have hvalue := congrArg Alphabet.hexValue hsame
      rw [hexValue_hexText, hexValue_hexText] at hvalue
      exact ⟨Char.toNat_inj.mp hvalue, hrest⟩

end

/-! ## Quoted texts -/

section

variable {as bs cs ds : List Char} {a b : String}

/-- Characters up to a quote are told by what is written for them. -/
theorem flatMap_quoteChar_inj (h : as.flatMap quoteChar ++ '"' :: cs
    = bs.flatMap quoteChar ++ '"' :: ds) : as = bs ∧ cs = ds := by
  induction as generalizing bs with
  | nil =>
    cases bs with
    | nil => exact ⟨rfl, (List.cons.inj h).2⟩
    | cons d bs =>
      rw [List.flatMap_cons, List.append_assoc] at h
      exact absurd h.symm (writes_quoteChar d).ne_quote
  | cons c as ih =>
    cases bs with
    | nil =>
      rw [List.flatMap_cons, List.append_assoc] at h
      exact absurd h (writes_quoteChar c).ne_quote
    | cons d bs =>
      rw [List.flatMap_cons, List.flatMap_cons, List.append_assoc, List.append_assoc] at h
      obtain ⟨rfl, hrest⟩ := (writes_quoteChar c).append_inj (writes_quoteChar d) h
      obtain ⟨rfl, hend⟩ := ih hrest
      exact ⟨rfl, hend⟩

theorem toList_quoted (text : String) :
    (quoted text).toList = '"' :: (text.toList.flatMap quoteChar ++ ['"']) := by
  rw [quoted, String.toList_ofList]
  rfl

/-- A quoted text is told from what follows it. -/
theorem quoted_append_inj (h : (quoted a).toList ++ cs = (quoted b).toList ++ ds) :
    a = b ∧ cs = ds := by
  rw [toList_quoted, toList_quoted, List.cons_append, List.cons_append, List.append_assoc,
    List.append_assoc] at h
  obtain ⟨hsame, hrest⟩ := flatMap_quoteChar_inj (List.cons.inj h).2
  exact ⟨String.toList_inj.mp hsame, hrest⟩

theorem lineFeed_notMem_quoted (text : String) : '\n' ∉ (quoted text).toList := by
  rw [toList_quoted]
  intro h
  simp only [List.mem_cons, List.mem_append, List.mem_flatMap, List.not_mem_nil, or_false] at h
  rcases h with h | ⟨c, -, h⟩ | h
  · exact absurd h (by decide)
  · exact (writes_quoteChar c).lineFeed_notMem h
  · exact absurd h (by decide)

end

end Text

/-! ## Lines -/

namespace TokenKind

theorem nodup_names : (all.map name).Nodup := by decide +kernel

/-- A kind is told by its name. -/
theorem eq_of_name_eq {k l : TokenKind} (h : k.name = l.name) : k = l :=
  List.inj_on_of_nodup_map nodup_names (mem_all k) (mem_all l) h

/-- Names of kinds have neither a tab nor a line feed. -/
theorem notMem_name (k : TokenKind) : '\t' ∉ k.name.toList ∧ '\n' ∉ k.name.toList := by
  have hall : ∀ k ∈ all, '\t' ∉ k.name.toList ∧ '\n' ∉ k.name.toList := by decide +kernel
  exact hall k (mem_all k)

end TokenKind

namespace Token

/-- Tokens that a listing shows alike. -/
structure ListedAlike (t u : Token) : Prop where
  line : t.position.line = u.position.line
  column : t.position.column = u.position.column
  kind : t.kind = u.kind
  text : t.text = u.text

/-- The fields of a line and what stands between them. -/
theorem toList_listingLine (t : Token) : t.listingLine.toList
    = (toString t.position.line).toList ++ ':' :: ((toString t.position.column).toList
      ++ '\t' :: (t.kind.name.toList ++ '\t' :: ((Text.quoted t.text).toList ++ ['\n']))) := by
  have hcolon : (toString ":").toList = [':'] := rfl
  have htab : "\t".toList = ['\t'] := rfl
  have hfeed : "\n".toList = ['\n'] := rfl
  simp only [listingLine, Position.display, String.toList_append, List.append_assoc, hcolon, htab,
    hfeed, List.cons_append, List.nil_append]

/-- **A line tells what it shows of its token, whatever follows it.** -/
theorem listingLine_append_inj {t u : Token} {cs ds : List Char}
    (h : t.listingLine.toList ++ cs = u.listingLine.toList ++ ds) : t.ListedAlike u ∧ cs = ds := by
  rw [toList_listingLine, toList_listingLine] at h
  simp only [List.append_assoc, List.cons_append, List.nil_append] at h
  have hcolon : ':'.isDigit = false := by decide
  have htab : '\t'.isDigit = false := by decide
  obtain ⟨hline, h⟩ := Text.toString_append_inj hcolon h
  obtain ⟨hcolumn, h⟩ := Text.toString_append_inj htab h
  obtain ⟨hname, h⟩ := Text.append_cons_inj t.kind.notMem_name.1 u.kind.notMem_name.1 h
  obtain ⟨htext, h⟩ := Text.quoted_append_inj h
  exact ⟨⟨hline, hcolumn, TokenKind.eq_of_name_eq (String.toList_inj.mp hname), htext⟩,
    (List.cons.inj h).2⟩

/-- Tokens that are listed alike have the same line. -/
theorem ListedAlike.listingLine_eq {t u : Token} (h : t.ListedAlike u) :
    t.listingLine = u.listingLine := by
  rw [listingLine, listingLine, Position.display, Position.display, h.line, h.column, h.kind, h.text]

/-- The only line feed of a line is at its end. -/
theorem count_listingLine (t : Token) : t.listingLine.toList.count '\n' = 1 := by
  have hdigits : ∀ n : Nat, (toString n).toList.count '\n' = 0 := by
    intro n
    refine List.count_eq_zero.mpr fun hmem => ?_
    exact absurd (Text.isDigit_of_mem_toString hmem) (by decide)
  rw [toList_listingLine]
  simp only [List.count_append, List.count_cons, List.count_nil, hdigits,
    List.count_eq_zero.mpr t.kind.notMem_name.2,
    List.count_eq_zero.mpr (Text.lineFeed_notMem_quoted t.text)]
  rfl

end Token

/-! ## Listings -/

theorem toList_listingText_cons (t : Token) (ts : List Token) :
    (listingText (t :: ts)).toList = t.listingLine.toList ++ (listingText ts).toList := by
  rw [listingText, List.map_cons, String.join_cons, String.toList_append]
  rfl

/-- Every token has one line. -/
theorem count_listingText (ts : List Token) : (listingText ts).toList.count '\n' = ts.length := by
  induction ts with
  | nil => rfl
  | cons t ts ih =>
    rw [toList_listingText_cons, List.count_append, t.count_listingLine, ih, List.length_cons,
      Nat.add_comm]

theorem listingText_cons_ne (t : Token) (ts : List Token) : listingText (t :: ts) ≠ listingText [] := by
  intro h
  have hcount := count_listingText (t :: ts)
  rw [h, count_listingText] at hcount
  exact Nat.succ_ne_zero ts.length hcount.symm

/-- **Listings are the same exactly if their tokens are listed alike, one by one.** -/
theorem listingText_eq_iff {ts us : List Token} :
    listingText ts = listingText us ↔ List.Forall₂ Token.ListedAlike ts us := by
  constructor
  · intro h
    induction ts generalizing us with
    | nil =>
      cases us with
      | nil => exact .nil
      | cons u us => exact absurd h.symm (listingText_cons_ne u us)
    | cons t ts ih =>
      cases us with
      | nil => exact absurd h (listingText_cons_ne t ts)
      | cons u us =>
        have hchars := congrArg String.toList h
        rw [toList_listingText_cons, toList_listingText_cons] at hchars
        obtain ⟨halike, hrest⟩ := Token.listingLine_append_inj hchars
        exact .cons halike (ih (String.toList_inj.mp hrest))
  · intro h
    induction h with
    | nil => rfl
    | @cons t u ts us halike _ ih =>
      refine String.toList_inj.mp ?_
      rw [toList_listingText_cons, toList_listingText_cons, halike.listingLine_eq, ih]

namespace CommandLine

/-- A file on its own has no header. -/
theorem textOutput_singleton (s : ScannedSource) :
    textOutput [s] = listingText s.output.tokens := by
  simp [textOutput, String.join]

/--
**The listing of a file tells its tokens, and has a line for each of them.**

Listings of two files are the same text only if these have as many tokens, with the same lines,
columns, kinds and texts in order.
-/
theorem textOutput_eq_iff (s u : ScannedSource) :
    (textOutput [s] = textOutput [u] ↔
        List.Forall₂ Token.ListedAlike s.output.tokens u.output.tokens) ∧
      (textOutput [s]).toList.count '\n' = s.output.tokens.length := by
  rw [textOutput_singleton, textOutput_singleton]
  exact ⟨listingText_eq_iff, count_listingText s.output.tokens⟩

end CommandLine

end Lexis
