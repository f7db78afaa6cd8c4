import ScopeFront.Token

/-!
# Errors of the front end

* `LexError` – why a source text is no sequence of tokens;
* `ParseError` – why a sequence of tokens is no program, with what was found instead;
* `FrontError` – either of the two, with its `message`, `code`, `help` and `span`.
-/

set_option autoImplicit false

namespace ScopeFront

/-- Why a source text is no sequence of tokens. -/
inductive LexError where
  /-- A character that starts no token, comment or blank. -/
  | unexpectedCharacter (ch : Char) (span : Span)
  /-- A block comment that is never closed. -/
  | unterminatedComment (span : Span)
deriving DecidableEq, Repr

namespace LexError

/-- Where the error stands. -/
def span : LexError → Span
  | unexpectedCharacter _ s => s
  | unterminatedComment s => s

/-- The code under which the error is documented. -/
def code : LexError → String
  | unexpectedCharacter .. => "L0001"
  | unterminatedComment _ => "L0002"

/-- What went wrong. -/
def message : LexError → String
  | unexpectedCharacter ch _ => "unexpected character '" ++ String.singleton ch ++ "'"
  | unterminatedComment _ => "unterminated block comment"

/-- How to mend it. -/
def help : LexError → String
  | unexpectedCharacter .. =>
    "only letters, digits, '_', whitespace and \x7b \x7d ( ) ; , : = < > + - * / are allowed"
  | unterminatedComment _ => "close the comment with '*/'"

end LexError

/-- What stood where the parser gave up: a token, or the end of the tokens. -/
inductive Found where
  | token (t : Token)
  | endOfStream (span : Span)
deriving DecidableEq, Repr

namespace Found

/-- An end marker counts as the end of the tokens. -/
def ofToken (t : Token) : Found :=
  if t.isEof then endOfStream t.span else token t

/-- Where it stood. -/
def span : Found → Span
  | token t => t.span
  | endOfStream s => s

/-- Whether the tokens had ended. -/
def isEndOfStream : Found → Bool
  | token _ => false
  | endOfStream _ => true

/-- A token by its category and text, the end in words. -/
def describe : Found → String
  | token t => t.kind.describe ++ " '" ++ t.lexeme ++ "'"
  | endOfStream _ => "end of input"

end Found

/-- Why a sequence of tokens is no program. -/
inductive ParseError where
  /-- Something definite was required. -/
  | expected (what : String) (found : Found)
  /-- Nothing can start with this token here. -/
  | unexpectedToken (found : Found) (context : String)
  /-- The nesting passes the limit. -/
  | tooDeep (found : Found) (limit : Nat)
deriving DecidableEq, Repr

namespace ParseError

/-- What stood where the parser gave up. -/
def found : ParseError → Found
  | expected _ f => f
  | unexpectedToken f _ => f
  | tooDeep f _ => f

/-- Where the error stands. -/
def span (e : ParseError) : Span := e.found.span

/-- The code under which the error is documented. -/
def code : ParseError → String
  | expected .. => "P0001"
  | unexpectedToken .. => "P0002"
  | tooDeep .. => "P0003"

/-- What went wrong. -/
def message : ParseError → String
  | expected what f => "expected " ++ what ++ ", found " ++ f.describe
  | unexpectedToken f context => "unexpected " ++ f.describe ++ " " ++ context
  | tooDeep f limit => s!"nesting exceeds {limit} levels at " ++ f.describe

/-- How to mend it, where there is something to suggest. -/
def help : ParseError → Option String
  | tooDeep .. => some "raise `max_depth` in the config or flatten the input"
  | e =>
    if e.found.isEndOfStream then
      some "the input ended early; check for a missing '\x7d' or ';'"
    else none

end ParseError

/-- Why a source text is no program. -/
inductive FrontError where
  | lex (e : LexError)
  | parse (e : ParseError)
deriving DecidableEq, Repr

namespace FrontError

/-- Where the error stands. -/
def span : FrontError → Span
  | lex e => e.span
  | parse e => e.span

/-- The code under which the error is documented. -/
def code : FrontError → String
  | lex e => e.code
  | parse e => e.code

/-- What went wrong. -/
def message : FrontError → String
  | lex e => e.message
  | parse e => e.message

/-- How to mend it, where there is something to suggest. -/
def help : FrontError → Option String
  | lex e => some e.help
  | parse e => e.help

end FrontError

end ScopeFront
