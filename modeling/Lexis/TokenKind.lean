/-!
# Token kinds

Every kind of token: identifiers, the keywords, line breaks, punctuation, literals, the parts of a
template string, and comments. Kinds are numbered in the order of `TokenKind.all`; the numbers are
stable, so the order of the lists here is part of what the library promises.
-/

namespace Lexis

/-- A reserved word. -/
inductive Keyword where
  | letWord | constWord | funcWord | ifWord | elseWord | forWord | loopWord | returnWord
  | breakWord | continueWord | structWord | interfaceWord | trueWord | falseWord
  deriving DecidableEq, Repr

/-- A punctuation mark or operator. -/
inductive Punctuator where
  | semicolon | comma | colon
  | openParen | closeParen | openBrace | closeBrace | openBracket | closeBracket
  | tilde
  | dot | dotDot | dotDotDot
  | equals | equalsEquals | equalsGreaterThan
  | exclamation | exclamationEquals
  | plus | plusPlus | plusEquals
  | minus | minusMinus | minusEquals
  | asterisk | asteriskAsterisk | asteriskEquals
  | slash | slashEquals
  | percent | percentEquals
  | ampersand | ampersandAmpersand | ampersandEquals
  | bar | barBar | barEquals
  | caret | caretEquals
  | lessThan | lessThanEquals | lessThanLessThan | lessThanLessThanEquals
  | greaterThan | greaterThanEquals | greaterThanGreaterThan | greaterThanGreaterThanEquals
  | question | questionQuestion | questionDot
  deriving DecidableEq, Repr

/-- How a number is written. -/
inductive NumberForm where
  | decimalInteger | octalInteger | hexInteger | binaryInteger | float | exponent
  deriving DecidableEq, Repr

/-- The kind of a token. -/
inductive TokenKind where
  | identifier
  | keyword (word : Keyword)
  | lineBreak
  | punctuation (mark : Punctuator)
  | number (form : NumberForm)
  | rune
  | string
  | templateQuote
  | templateFragment
  | interpolationStart
  | lineComment
  deriving DecidableEq, Repr

/-! ## Names and spellings -/

namespace Keyword

def all : List Keyword :=
  [letWord, constWord, funcWord, ifWord, elseWord, forWord, loopWord, returnWord,
   breakWord, continueWord, structWord, interfaceWord, trueWord, falseWord]

/-- The word as it is written in a source. -/
def spelling : Keyword → String
  | letWord => "let"
  | constWord => "const"
  | funcWord => "func"
  | ifWord => "if"
  | elseWord => "else"
  | forWord => "for"
  | loopWord => "loop"
  | returnWord => "return"
  | breakWord => "break"
  | continueWord => "continue"
  | structWord => "struct"
  | interfaceWord => "interface"
  | trueWord => "true"
  | falseWord => "false"

def name : Keyword → String
  | letWord => "LetKeyword"
  | constWord => "ConstKeyword"
  | funcWord => "FuncKeyword"
  | ifWord => "IfKeyword"
  | elseWord => "ElseKeyword"
  | forWord => "ForKeyword"
  | loopWord => "LoopKeyword"
  | returnWord => "ReturnKeyword"
  | breakWord => "BreakKeyword"
  | continueWord => "ContinueKeyword"
  | structWord => "StructKeyword"
  | interfaceWord => "InterfaceKeyword"
  | trueWord => "TrueKeyword"
  | falseWord => "FalseKeyword"

/-- The keyword that a text spells. -/
def ofSpelling? (text : String) : Option Keyword :=
  match text with
  | "let" => some letWord
  | "const" => some constWord
  | "func" => some funcWord
  | "if" => some ifWord
  | "else" => some elseWord
  | "for" => some forWord
  | "loop" => some loopWord
  | "return" => some returnWord
  | "break" => some breakWord
  | "continue" => some continueWord
  | "struct" => some structWord
  | "interface" => some interfaceWord
  | "true" => some trueWord
  | "false" => some falseWord
  | _ => none

theorem mem_all (w : Keyword) : w ∈ all := by cases w <;> decide

/-- **Words are recognised by the spellings they are written with, and by no others.** -/
theorem ofSpelling?_eq_some_iff {text : String} {w : Keyword} :
    ofSpelling? text = some w ↔ w.spelling = text := by
  constructor
  · intro h
    unfold ofSpelling? at h
    split at h
    case h_15 => simp at h
    all_goals
      obtain rfl := Option.some.inj h
      rfl
  · rintro rfl
    cases w <;> rfl

/-- No keyword is recognised in a text that none is spelled as. -/
theorem ofSpelling?_eq_none_iff {text : String} :
    ofSpelling? text = none ↔ ∀ w : Keyword, text ≠ w.spelling := by
  rw [Option.eq_none_iff_forall_ne_some]
  refine forall_congr' fun w => not_congr ?_
  rw [ofSpelling?_eq_some_iff, eq_comm]

end Keyword

namespace Punctuator

def all : List Punctuator :=
  [semicolon, comma, colon,
   openParen, closeParen, openBrace, closeBrace, openBracket, closeBracket,
   tilde,
   dot, dotDot, dotDotDot,
   equals, equalsEquals, equalsGreaterThan,
   exclamation, exclamationEquals,
   plus, plusPlus, plusEquals,
   minus, minusMinus, minusEquals,
   asterisk, asteriskAsterisk, asteriskEquals,
   slash, slashEquals,
   percent, percentEquals,
   ampersand, ampersandAmpersand, ampersandEquals,
   bar, barBar, barEquals,
   caret, caretEquals,
   lessThan, lessThanEquals, lessThanLessThan, lessThanLessThanEquals,
   greaterThan, greaterThanEquals, greaterThanGreaterThan, greaterThanGreaterThanEquals,
   question, questionQuestion, questionDot]

/-- The mark as it is written in a source. -/
def spelling : Punctuator → String
  | semicolon => ";"
  | comma => ","
  | colon => ":"
  | openParen => "("
  | closeParen => ")"
  | openBrace => r"{"
  | closeBrace => r"}"
  | openBracket => "["
  | closeBracket => "]"
  | tilde => "~"
  | dot => "."
  | dotDot => ".."
  | dotDotDot => "..."
  | equals => "="
  | equalsEquals => "=="
  | equalsGreaterThan => "=>"
  | exclamation => "!"
  | exclamationEquals => "!="
  | plus => "+"
  | plusPlus => "++"
  | plusEquals => "+="
  | minus => "-"
  | minusMinus => "--"
  | minusEquals => "-="
  | asterisk => "*"
  | asteriskAsterisk => "**"
  | asteriskEquals => "*="
  | slash => "/"
  | slashEquals => "/="
  | percent => "%"
  | percentEquals => "%="
  | ampersand => "&"
  | ampersandAmpersand => "&&"
  | ampersandEquals => "&="
  | bar => "|"
  | barBar => "||"
  | barEquals => "|="
  | caret => "^"
  | caretEquals => "^="
  | lessThan => "<"
  | lessThanEquals => "<="
  | lessThanLessThan => "<<"
  | lessThanLessThanEquals => "<<="
  | greaterThan => ">"
  | greaterThanEquals => ">="
  | greaterThanGreaterThan => ">>"
  | greaterThanGreaterThanEquals => ">>="
  | question => "?"
  | questionQuestion => "??"
  | questionDot => "?."

def name : Punctuator → String
  | semicolon => "SemicolonToken"
  | comma => "CommaToken"
  | colon => "ColonToken"
  | openParen => "OpenParenToken"
  | closeParen => "CloseParenToken"
  | openBrace => "OpenBraceToken"
  | closeBrace => "CloseBraceToken"
  | openBracket => "OpenBracketToken"
  | closeBracket => "CloseBracketToken"
  | tilde => "TildeToken"
  | dot => "DotToken"
  | dotDot => "DotDotToken"
  | dotDotDot => "DotDotDotToken"
  | equals => "EqualsToken"
  | equalsEquals => "EqualsEqualsToken"
  | equalsGreaterThan => "EqualsGreaterThanToken"
  | exclamation => "ExclamationToken"
  | exclamationEquals => "ExclamationEqualsToken"
  | plus => "PlusToken"
  | plusPlus => "PlusPlusToken"
  | plusEquals => "PlusEqualsToken"
  | minus => "MinusToken"
  | minusMinus => "MinusMinusToken"
  | minusEquals => "MinusEqualsToken"
  | asterisk => "AsteriskToken"
  | asteriskAsterisk => "AsteriskAsteriskToken"
  | asteriskEquals => "AsteriskEqualsToken"
  | slash => "SlashToken"
  | slashEquals => "SlashEqualsToken"
  | percent => "PercentToken"
  | percentEquals => "PercentEqualsToken"
  | ampersand => "AmpersandToken"
  | ampersandAmpersand => "AmpersandAmpersandToken"
  | ampersandEquals => "AmpersandEqualsToken"
  | bar => "BarToken"
  | barBar => "BarBarToken"
  | barEquals => "BarEqualsToken"
  | caret => "CaretToken"
  | caretEquals => "CaretEqualsToken"
  | lessThan => "LessThanToken"
  | lessThanEquals => "LessThanEqualsToken"
  | lessThanLessThan => "LessThanLessThanToken"
  | lessThanLessThanEquals => "LessThanLessThanEqualsToken"
  | greaterThan => "GreaterThanToken"
  | greaterThanEquals => "GreaterThanEqualsToken"
  | greaterThanGreaterThan => "GreaterThanGreaterThanToken"
  | greaterThanGreaterThanEquals => "GreaterThanGreaterThanEqualsToken"
  | question => "QuestionToken"
  | questionQuestion => "QuestionQuestionToken"
  | questionDot => "QuestionDotToken"

theorem mem_all (p : Punctuator) : p ∈ all := by cases p <;> decide

/-- The operators that assign: `=` and its compound forms. -/
def assigns : Punctuator → Bool
  | equals | plusEquals | minusEquals | asteriskEquals | slashEquals | percentEquals
  | ampersandEquals | barEquals | caretEquals
  | lessThanLessThanEquals | greaterThanGreaterThanEquals => true
  | _ => false

end Punctuator

namespace NumberForm

def all : List NumberForm :=
  [decimalInteger, octalInteger, hexInteger, binaryInteger, float, exponent]

def name : NumberForm → String
  | decimalInteger => "DecimalIntegerLiteral"
  | octalInteger => "OctalIntegerLiteral"
  | hexInteger => "HexIntegerLiteral"
  | binaryInteger => "BinaryIntegerLiteral"
  | float => "FloatLiteral"
  | exponent => "ExponentLiteral"

end NumberForm

namespace TokenKind

/-- All kinds in the order of their numbers. -/
def all : List TokenKind :=
  [identifier] ++ Keyword.all.map keyword ++ [lineBreak] ++ Punctuator.all.map punctuation
    ++ NumberForm.all.map number
    ++ [rune, string, templateQuote, templateFragment, interpolationStart, lineComment]

/-- The kind with a number. -/
def ofNumber? (n : Nat) : Option TokenKind := all[n]?

def name : TokenKind → String
  | identifier => "Identifier"
  | keyword w => w.name
  | lineBreak => "LineBreak"
  | punctuation p => p.name
  | number f => f.name
  | rune => "RuneLiteral"
  | string => "StringLiteral"
  | templateQuote => "TemplateStringQuote"
  | templateFragment => "TemplateStringFragment"
  | interpolationStart => "InterpolationStart"
  | lineComment => "LineComment"

/-! ## Groups of kinds -/

def isKeyword : TokenKind → Bool
  | keyword _ => true
  | _ => false

/-- Marks and operators; a line break is none of them. -/
def isPunctuation : TokenKind → Bool
  | punctuation _ => true
  | _ => false

def isNumber : TokenKind → Bool
  | number _ => true
  | _ => false

/-- Numbers, runes and strings. -/
def isLiteral : TokenKind → Bool
  | number _ | rune | string => true
  | _ => false

/-- The parts of a template string. -/
def isTemplate : TokenKind → Bool
  | templateQuote | templateFragment | interpolationStart => true
  | _ => false

def isAssignment : TokenKind → Bool
  | punctuation p => p.assigns
  | _ => false

/-- The first and the last kind of each group, in the order keywords, punctuation, literals,
template parts. -/
def groupBounds : List (TokenKind × TokenKind) :=
  [(keyword .letWord, keyword .falseWord),
   (punctuation .semicolon, punctuation .questionDot),
   (number .decimalInteger, string),
   (templateQuote, interpolationStart)]

/-! ## Fixed texts -/

/-- The word of a keyword kind. -/
def keywordText? : TokenKind → Option String
  | keyword w => some w.spelling
  | _ => none

/-- The fixed text of punctuation and of the two marks that frame template text. -/
def punctuationText? : TokenKind → Option String
  | punctuation p => some p.spelling
  | templateQuote => some "`"
  | interpolationStart => some r"${"
  | _ => none

/-- The keyword kind that a text spells. -/
def ofKeyword? (text : String) : Option TokenKind := (Keyword.ofSpelling? text).map keyword

/-- **The two tables of keywords agree: a text is read as the kind that is written so.** -/
theorem ofKeyword?_eq_some_iff {text : String} {kind : TokenKind} :
    ofKeyword? text = some kind ↔ kind.keywordText? = some text := by
  rw [ofKeyword?, Option.map_eq_some_iff]
  constructor
  · rintro ⟨w, hw, rfl⟩
    exact congrArg some (Keyword.ofSpelling?_eq_some_iff.mp hw)
  · intro h
    cases kind with
    | keyword w => exact ⟨w, Keyword.ofSpelling?_eq_some_iff.mpr (Option.some.inj h), rfl⟩
    | _ => simp [keywordText?] at h

theorem mem_all (k : TokenKind) : k ∈ all := by
  simp only [all, List.mem_append, List.mem_map, List.mem_cons, List.not_mem_nil]
  cases k with
  | keyword w => simp [Keyword.mem_all]
  | punctuation p => simp [Punctuator.mem_all]
  | number f => cases f <;> simp [NumberForm.all]
  | _ => simp

end TokenKind

end Lexis
