import Lexis.LexicalError
import Lexis.TokenKind

/-!
# Template nesting

A template string may hold interpolations, whose code may hold braces and template strings again.
What is open is a stack of frames, innermost first: the text of a template, or the code of an
interpolation with the number of braces open in it. Every token kind acts on the stack in one way
(`afterToken`), so the stack after a run depends on the kinds of its tokens alone.
-/

namespace Lexis

/-- Something a template string has opened. -/
inductive TemplateFrame where
  /-- The text of a template string. -/
  | text
  /--
  The code of an interpolation, with its braces still open.

  They are counted by a plain number, which 32 bits hold for sources of less than `2 ^ 32 - 1` bytes
  (`Scanner.after_counts`).
  -/
  | interpolation (openBraces : Nat)
  deriving DecidableEq, Repr

/-- Where the next token stands. -/
inductive Place where
  /-- Code outside every template string. -/
  | code
  /-- Code inside an interpolation. -/
  | interpolation
  /-- The text of a template string. -/
  | templateText
  deriving DecidableEq, Repr

/-- Why no token is left at the end of the input: an open template string is unterminated. -/
def Place.endError : Place → LexicalError
  | code => .endOfInput
  | interpolation | templateText => .unterminated .template

/-- The open frames, innermost first. -/
abbrev TemplateStack := List TemplateFrame

namespace TemplateStack

def place : TemplateStack → Place
  | [] => .code
  | .text :: _ => .templateText
  | .interpolation _ :: _ => .interpolation

theorem place_eq_code_iff {frames : TemplateStack} : frames.place = .code ↔ frames = [] := by
  cases frames with
  | nil => simp [place]
  | cons frame frames => cases frame <;> simp [place]

/-- The number of open interpolations. -/
def interpolationDepth (frames : TemplateStack) : Nat :=
  frames.countP fun
    | .interpolation _ => true
    | .text => false

/-- A quote closes the innermost template text, and opens one elsewhere. -/
def quote : TemplateStack → TemplateStack
  | .text :: frames => frames
  | frames => .text :: frames

def openInterpolation (frames : TemplateStack) : TemplateStack := .interpolation 0 :: frames

/-- A brace counts on the innermost interpolation. -/
def openBrace : TemplateStack → TemplateStack
  | .interpolation n :: frames => .interpolation (n + 1) :: frames
  | frames => frames

/-- A closing brace matches the last open one of the innermost interpolation, or ends it. -/
def closeBrace : TemplateStack → TemplateStack
  | .interpolation (n + 1) :: frames => .interpolation n :: frames
  | .interpolation 0 :: frames => frames
  | frames => frames

/-- The frames after a token. -/
def afterToken (frames : TemplateStack) : TokenKind → TemplateStack
  | .templateQuote => frames.quote
  | .interpolationStart => frames.openInterpolation
  | .punctuation .openBrace => frames.openBrace
  | .punctuation .closeBrace => frames.closeBrace
  | _ => frames

end TemplateStack

end Lexis
