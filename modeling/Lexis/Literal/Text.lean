import Lexis.LexicalError

/-!
# Text literals

Runes, strings and the text of template strings share one reader of content. A cluster stands for
itself; a backslash starts an escape, which stands for one scalar value. Content ends before what
closes the literal: its delimiter, and for template text also the mark that opens an interpolation.
Only template text may hold line breaks. A literal whose input ends is unterminated.

The content is read item by item (`content`); an item takes at least one cluster
(`length_of_escape`), so the reading ends.
-/

namespace Lexis.TextLiteral

open TextForm

/-! ## Escapes -/

/-- The scalar value that a named escape stands for. -/
def namedEscape? : Char → Option Char
  | 'n' => some '\n'
  | 't' => some '\t'
  | '\\' => some '\\'
  | '\'' => some '\''
  | '"' => some '"'
  | 'r' => some '\r'
  | 'a' => some '\x07'
  | 'b' => some '\x08'
  | 'f' => some '\x0c'
  | 'v' => some '\x0b'
  | '0' => some '\x00'
  | _ => none

/-- The named escapes of a literal: template text adds its own delimiter and the dollar sign. -/
def escape? (form : TextForm) (c : Char) : Option Char :=
  if form = template && (c = '`' || c = '$') then some c else namedEscape? c

/-- The scalar value with a number. -/
def scalar? (n : Nat) : Option Char :=
  if n.isValidChar then some (Char.ofNat n) else none

/-- Reads exactly `count` hexadecimal digits. -/
def hexDigits (form : TextForm) :
    (count : Nat) → List Cluster → Except Fault (List Char × List Cluster)
  | 0, gs => .ok ([], gs)
  | _ + 1, [] => .error ⟨.unterminated form, []⟩
  | count + 1, g :: rest =>
    if g.isHexDigit then
      match hexDigits form count rest with
      | .error fault => .error fault
      | .ok (digits, rest) => .ok (g.chars ++ digits, rest)
    else .error ⟨.invalidHexDigit g, g :: rest⟩

/-- Reads `count` hexadecimal digits that write a scalar value. -/
def hexEscape (form : TextForm) (count : Nat) (gs : List Cluster) :
    Except Fault (Char × List Cluster) :=
  match hexDigits form count gs with
  | .error fault => .error fault
  | .ok (digits, rest) =>
    match scalar? (Alphabet.hexValue digits) with
    | some c => .ok (c, rest)
    | none => .error ⟨.invalidCodePoint (String.ofList digits), rest⟩

/-- Reads the eight digits of a long escape; the first has to be a zero. -/
def longEscape (form : TextForm) (gs : List Cluster) : Except Fault (Char × List Cluster) :=
  match gs with
  | [] => .error ⟨.unterminated form, []⟩
  | g :: _ =>
    if g.is '0' then hexEscape form 8 gs else .error ⟨.invalidFirstDigitOfLongEscape, gs⟩

/-- Reads an escape whose backslash has just been passed. -/
def escape (form : TextForm) (backslash : Cluster) (gs : List Cluster) :
    Except Fault (Char × List Cluster) :=
  match gs with
  | [] => .error ⟨.unterminated form, []⟩
  | symbol :: rest =>
    match symbol.single?.bind (escape? form) with
    | some c => .ok (c, rest)
    | none =>
      if symbol.is 'x' then hexEscape form 2 rest
      else if symbol.is 'u' then hexEscape form 4 rest
      else if symbol.is 'U' then longEscape form rest
      else .error ⟨.invalidEscape symbol, backslash :: gs⟩

/-! ## Content -/

/-- Whether the content of a literal ends here. -/
def closes (form : TextForm) (g : Cluster) (rest : List Cluster) : Bool :=
  match form with
  | rune => g.is '\''
  | string => g.is '"'
  | template => g.is '`' || (g.is '$' && Cluster.nextIs rest '{')

/-- Reading digits goes on, or stays where it is. -/
theorem length_of_hexDigits {form : TextForm} {count : Nat} {gs rest : List Cluster}
    {digits : List Char} (h : hexDigits form count gs = .ok (digits, rest)) :
    rest.length ≤ gs.length := by
  fun_induction hexDigits form count gs generalizing digits rest <;> simp_all
  omega

theorem length_of_hexEscape {form : TextForm} {count : Nat} {gs rest : List Cluster} {c : Char}
    (h : hexEscape form count gs = .ok (c, rest)) : rest.length ≤ gs.length := by
  unfold hexEscape at h
  split at h
  · simp at h
  · next hd =>
    split at h
    · have := length_of_hexDigits hd
      simp_all
    · simp at h

/-- An escape takes at least the cluster after its backslash. -/
theorem length_of_escape {form : TextForm} {backslash : Cluster} {gs rest : List Cluster} {c : Char}
    (h : escape form backslash gs = .ok (c, rest)) : rest.length < gs.length := by
  unfold escape at h
  split at h
  · simp at h
  · next symbol tail =>
    simp only [List.length_cons]
    repeat' split at h
    · simp_all
    · have := length_of_hexEscape h; omega
    · have := length_of_hexEscape h; omega
    · unfold longEscape at h
      repeat' split at h
      · simp at h
      · have := length_of_hexEscape h; simp only [List.length_cons] at *; omega
      · simp at h
    · simp at h

/-- Reads the content of a literal up to what closes it, which stays ahead. -/
def content (form : TextForm) : List Cluster → Except Fault (List Char × List Cluster)
  | [] => .error ⟨.unterminated form, []⟩
  | g :: rest =>
    if closes form g rest then .ok ([], g :: rest)
    else if g.isLineBreak && form ≠ template then .error ⟨.unexpectedLineBreak, g :: rest⟩
    else if g.is '\\' then
      match _h : escape form g rest with
      | .error fault => .error fault
      | .ok (c, rest) =>
        match content form rest with
        | .error fault => .error fault
        | .ok (cs, rest) => .ok (c :: cs, rest)
    else
      match content form rest with
      | .error fault => .error fault
      | .ok (cs, rest) => .ok (g.chars ++ cs, rest)
termination_by gs => gs.length
decreasing_by
  · have := length_of_escape _h
    simp only [List.length_cons]
    omega
  · simp

/-- Content may be empty. -/
theorem length_of_content {form : TextForm} {gs rest : List Cluster} {cs : List Char}
    (h : content form gs = .ok (cs, rest)) : rest.length ≤ gs.length := by
  fun_induction content form gs generalizing cs rest with
  | case1 => simp at h
  | case2 => simp_all
  | case3 => simp at h
  | case4 => simp at h
  | case5 => simp at h
  | case6 _ _ _ _ _ _ _ he _ _ hc ih =>
    have := length_of_escape he
    have := ih hc
    simp_all
    omega
  | case7 => simp at h
  | case8 _ _ _ _ _ _ _ hc ih =>
    have := ih hc
    simp_all
    omega

/-- Content that is not empty takes at least one cluster. -/
theorem length_of_content_lt {form : TextForm} {gs rest : List Cluster} {cs : List Char}
    (h : content form gs = .ok (cs, rest)) (hne : cs ≠ []) : rest.length < gs.length := by
  fun_induction content form gs with
  | case1 => simp at h
  | case2 => simp_all
  | case3 => simp at h
  | case4 => simp at h
  | case5 => simp at h
  | case6 _ _ _ _ _ _ _ he _ _ hc =>
    have := length_of_escape he
    have := length_of_content hc
    simp_all
    omega
  | case7 => simp at h
  | case8 _ _ _ _ _ _ _ hc =>
    have := length_of_content hc
    simp only [Except.ok.injEq, Prod.mk.injEq] at h
    rw [← h.2, List.length_cons]
    omega

/-- Reads a rune or string whose opening delimiter has just been passed. -/
def quoted (form : TextForm) (gs : List Cluster) : Except Fault (String × List Cluster) :=
  match content form gs with
  | .error fault => .error fault
  | .ok (cs, rest) => .ok (String.ofList cs, rest.drop 1)

theorem length_of_quoted {form : TextForm} {gs rest : List Cluster} {text : String}
    (h : quoted form gs = .ok (text, rest)) : rest.length ≤ gs.length := by
  unfold quoted at h
  split at h
  · simp at h
  · next hc =>
    have := length_of_content hc
    simp only [Except.ok.injEq, Prod.mk.injEq] at h
    rw [← h.2, List.length_drop]
    omega

/-- Reads template text up to its closing delimiter or the next interpolation. -/
def fragment (gs : List Cluster) : Except Fault (List Char × List Cluster) := content template gs

end Lexis.TextLiteral
