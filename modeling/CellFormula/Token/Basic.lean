import CellFormula.Number.Layout
import CellFormula.Text.Quoted
/-!
# Tokens

A token is a kind with its content and the position of its first character. Positions count
characters from zero. The end of the text is a token of its own.
-/

namespace CellFormula

/-- What a token is, with its content. Texts are without their quotes and escapes, and the end of the
text is a kind as well. -/
inductive TokenKind where
  | number (value : Float)
  | text (content : String)
  | reference (id : String)
  | function (name : String)
  | operator (symbol : Char)
  | delimiter (symbol : Char)
  | endOfInput
  deriving DecidableEq

/-- A token and the position of its first character. -/
structure Token where
  kind : TokenKind
  position : Nat
  deriving DecidableEq

/-- How a token is named in messages. -/
def TokenKind.describe : TokenKind → String
  | number n => .join ["number ", .ofList (Number.tokenStyle.write n)]
  | text s => .join ["string ", .ofList (Text.Quoted.write s.toList)]
  | reference id => .join ["reference ", id]
  | function name => .join ["function ", name]
  | operator c => .join ["operator '", c.toString, "'"]
  | delimiter c => .join ["delimiter '", c.toString, "'"]
  | endOfInput => "end of input"

namespace Token

/-- The token's name in messages and its position. -/
def describe (t : Token) : String :=
  .join [t.kind.describe, "@", Nat.repr t.position]

/-- Whether the token is the end of the text. -/
def isEnd (t : Token) : Bool := t.kind == .endOfInput

/-- Whether the token is this operator. -/
def isOperator (t : Token) (c : Char) : Bool := t.kind == .operator c

/-- Whether the token is this delimiter. -/
def isDelimiter (t : Token) (c : Char) : Bool := t.kind == .delimiter c

end Token

/-- Why a text cannot be cut into tokens. -/
inductive LexicalError where
  /-- The character at this position starts no token. -/
  | invalidToken (position : Nat)
  /-- The quoted text that opens at this position is never closed. -/
  | unterminatedText (position : Nat)
  deriving DecidableEq

/-- The error as it is shown to the user. -/
def LexicalError.message : LexicalError → String
  | invalidToken p => .join ["Invalid token at position ", Nat.repr p]
  | unterminatedText p => .join ["Unterminated string literal starting at position ", Nat.repr p]

end CellFormula
