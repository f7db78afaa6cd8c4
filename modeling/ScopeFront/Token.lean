import ScopeFront.Keyword
import ScopeFront.Span
import ScopeFront.Text.WordChar

/-!
# Tokens

* `TokenKind` – the categories of tokens;
* `TokenKind.ofWord` – the category of a word, given the character that follows it;
* `Token` – a piece of source text with its category and place.
-/

set_option autoImplicit false

namespace ScopeFront

/-- The category of a token. -/
inductive TokenKind where
  | scopeKeyword
  | typeKeyword
  | operatorKeyword
  | identifier
  | literal
  | symbol
  | eof
deriving DecidableEq, Repr

namespace TokenKind

/-- The name of the category in token listings. -/
def name : TokenKind → String
  | scopeKeyword => "ScopeKeyword"
  | typeKeyword => "TypeKeyword"
  | operatorKeyword => "OperatorKeyword"
  | identifier => "Identifier"
  | literal => "Literal"
  | symbol => "Symbol"
  | eof => "Eof"

/-- The category in the words of an error message. -/
def describe : TokenKind → String
  | scopeKeyword => "scope keyword"
  | typeKeyword => "type keyword"
  | operatorKeyword => "operator keyword"
  | identifier => "identifier"
  | literal => "integer literal"
  | symbol => "symbol"
  | eof => "end of input"

/-- The group in which a spelling is reserved, if it is. -/
def reserved? (spelling : String) : Option TokenKind :=
  if (ScopeKeyword.ofWord? spelling).isSome then some scopeKeyword
  else if (TypeKeyword.ofWord? spelling).isSome then some typeKeyword
  else if (OperatorKeyword.ofWord? spelling).isSome then some operatorKeyword
  else none

/-- The category of a word: a reserved word keeps its group unless a word character follows
directly, and every other word is an identifier. -/
def ofWord (spelling : String) (next : Option Char) : TokenKind :=
  if next.any Text.isWordChar then identifier else (reserved? spelling).getD identifier

end TokenKind

/-- A piece of source text with its category and the place of its first character. -/
structure Token where
  kind : TokenKind
  lexeme : String
  span : Span
deriving DecidableEq, Repr

namespace Token

/-- The end marker at a place. -/
def eof (span : Span) : Token := ⟨.eof, "", span⟩

/-- Whether the token is an end marker. -/
def isEof (t : Token) : Bool := t.kind == .eof

/-- Whether the token is the symbol `c`. -/
def isSymbol (t : Token) (c : Char) : Bool :=
  t.kind == .symbol && t.lexeme == String.singleton c

end Token

end ScopeFront
