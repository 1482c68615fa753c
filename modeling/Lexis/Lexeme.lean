import Lexis.Literal.Number
import Lexis.Literal.Text
import Lexis.Opening
import Lexis.Template

/-!
# Lexemes

How one token is read from the clusters ahead. Reading knows nothing of offsets and lines, and of
the template nesting only whether it stands in template text: it turns the front of the list into a
kind and a text, and hands back what is left. What is left is always shorter
(`length_of_read`).

In template text a non-empty fragment comes first; where none is left, the quote or the mark that
ends it is read as in code. In code, blanks are passed before this.
-/

namespace Lexis

/-- A token without its place, and the clusters after it. -/
structure Lexeme where
  kind : TokenKind
  text : String
  rest : List Cluster
  deriving DecidableEq, Repr

namespace Lexeme

/-- A comment runs up to the next line break. -/
def comment (gs : List Cluster) : Lexeme :=
  ⟨.lineComment, Cluster.textOf (gs.takeWhile (!·.isLineBreak)), gs.dropWhile (!·.isLineBreak)⟩

/-- An identifier runs as far as its clusters; it may turn out to be a keyword. -/
def identifier (gs : List Cluster) : Lexeme :=
  let text := Cluster.textOf (gs.takeWhile (·.isIdentifierPart))
  ⟨(TokenKind.ofKeyword? text).getD .identifier, text, gs.dropWhile (·.isIdentifierPart)⟩

/-- A mark stands for itself, one cluster for each of its characters. -/
def punctuation (p : Punctuator) (gs : List Cluster) : Lexeme :=
  ⟨.punctuation p, p.spelling, gs.drop p.spelling.length⟩

/-- A rune or string whose opening delimiter has just been passed. -/
def quoted (kind : TokenKind) (form : TextForm) (gs : List Cluster) : Except Fault Lexeme :=
  match TextLiteral.quoted form gs with
  | .error fault => .error fault
  | .ok (text, rest) => .ok ⟨kind, text, rest⟩

def number (first : Cluster) (gs : List Cluster) : Except Fault Lexeme :=
  match Number.read first gs with
  | .error fault => .error fault
  | .ok found => .ok ⟨.number found.form, found.text, found.rest⟩

/-- Reads a token of code that starts with the next cluster. -/
def readCode (place : Place) : List Cluster → Except Fault Lexeme
  | [] => .error ⟨place.endError, []⟩
  | g :: rest =>
    match Opening.of g rest with
    | .lineBreak => .ok ⟨.lineBreak, g.text, rest⟩
    | .comment => .ok (comment (g :: rest))
    | .mark p => .ok (punctuation p (g :: rest))
    | .templateQuote => .ok ⟨.templateQuote, g.text, rest⟩
    | .interpolation => .ok ⟨.interpolationStart, r"${", rest.drop 1⟩
    | .rune => quoted .rune .rune rest
    | .string => quoted .string .string rest
    | .number => number g rest
    | .word => .ok (identifier (g :: rest))
    | .stray => .error ⟨.invalidCharacter g, g :: rest⟩

/-- Reads the token that starts with the next cluster. -/
def read (place : Place) (gs : List Cluster) : Except Fault Lexeme :=
  match place with
  | .templateText =>
    match TextLiteral.fragment gs with
    | .error fault => .error fault
    | .ok (text, rest) =>
      -- nothing before the mark that ends the text
      if text.isEmpty then readCode place gs
      else .ok ⟨.templateFragment, String.ofList text, rest⟩
  | place => readCode place gs

/-- Outside template text a token of code is read. -/
theorem read_eq_readCode {place : Place} (h : place ≠ .templateText) (gs : List Cluster) :
    read place gs = readCode place gs := by
  cases place with
  | templateText => exact absurd rfl h
  | _ => rfl

/-! ## What is left is shorter -/

theorem length_of_quoted {kind : TokenKind} {form : TextForm} {gs : List Cluster} {x : Lexeme}
    (h : quoted kind form gs = .ok x) : x.rest.length ≤ gs.length := by
  unfold quoted at h
  split at h
  · simp at h
  · next hq =>
    simp only [Except.ok.injEq] at h
    subst h
    exact TextLiteral.length_of_quoted hq

theorem length_of_number {first : Cluster} {gs : List Cluster} {x : Lexeme}
    (h : number first gs = .ok x) : x.rest.length ≤ gs.length := by
  unfold number at h
  split at h
  · simp at h
  · next hr =>
    simp only [Except.ok.injEq] at h
    subst h
    exact Number.length_of_read hr

/-- A row that is not empty is passed by one cluster at least. -/
theorem length_dropWhile_lt {p : Cluster → Bool} {g : Cluster} {rest : List Cluster}
    (h : p g = true) : ((g :: rest).dropWhile p).length < (g :: rest).length := by
  rw [List.dropWhile_cons, if_pos h]
  have := (List.dropWhile_sublist (l := rest) p).length_le
  simp only [List.length_cons]
  omega

theorem spelling_length_pos (p : Punctuator) : 0 < p.spelling.length := by
  cases p <;> decide

theorem length_of_comment {g : Cluster} {rest : List Cluster} (h : g.isLineBreak = false) :
    (comment (g :: rest)).rest.length < (g :: rest).length :=
  length_dropWhile_lt (p := (!·.isLineBreak)) (by simp [h])

theorem length_of_identifier {g : Cluster} {rest : List Cluster} (h : g.isIdentifierPart = true) :
    (identifier (g :: rest)).rest.length < (g :: rest).length :=
  length_dropWhile_lt (p := (·.isIdentifierPart)) h

theorem length_of_punctuation (p : Punctuator) (g : Cluster) (rest : List Cluster) :
    (punctuation p (g :: rest)).rest.length < (g :: rest).length := by
  have := spelling_length_pos p
  simp only [punctuation, List.length_drop, List.length_cons]
  omega

/-- Every token that is read in code takes a cluster. -/
theorem length_of_readCode {place : Place} {gs : List Cluster} {x : Lexeme}
    (h : readCode place gs = .ok x) : x.rest.length < gs.length := by
  cases gs with
  | nil => simp [readCode] at h
  | cons g rest =>
    have hfits := Opening.fits g rest
    rw [readCode] at h
    generalize Opening.of g rest = opening at h hfits
    cases opening with
    | lineBreak =>
      obtain rfl := Except.ok.inj h
      exact Nat.lt_succ_self _
    | comment =>
      obtain rfl := Except.ok.inj h
      exact length_of_comment (by rw [Cluster.eq_ofChar_of_is hfits.1]; rfl)
    | mark p =>
      obtain rfl := Except.ok.inj h
      exact length_of_punctuation p g rest
    | templateQuote =>
      obtain rfl := Except.ok.inj h
      exact Nat.lt_succ_self _
    | interpolation =>
      obtain rfl := Except.ok.inj h
      exact Nat.lt_succ_of_le (List.drop_sublist 1 rest).length_le
    | rune => exact Nat.lt_succ_of_le (length_of_quoted h)
    | string => exact Nat.lt_succ_of_le (length_of_quoted h)
    | number => exact Nat.lt_succ_of_le (length_of_number h)
    | word =>
      obtain rfl := Except.ok.inj h
      exact length_of_identifier hfits
    | stray => simp at h

/-- **A token takes at least one cluster.** -/
theorem length_of_read {place : Place} {gs : List Cluster} {x : Lexeme}
    (h : read place gs = .ok x) : x.rest.length < gs.length := by
  unfold read at h
  split at h
  · split at h
    · simp at h
    · next text rest hf =>
      split at h
      · exact length_of_readCode h
      · next ht =>
        simp only [Except.ok.injEq] at h
        subst h
        exact TextLiteral.length_of_content_lt hf (by simpa using ht)
  · exact length_of_readCode h

end Lexeme

end Lexis
