import ScopeFront.Error
import ScopeFront.Parser.Expression
import ScopeFront.Parser.Statement

/-!
# The same tokens at other places

Where a token stands decides nothing about how it is read: it only shows in the error that is
reported there.

* `Token.relocate`, `ParseError.relocate`, `FrontError.relocate` – a token or an error whose places
  are mapped by a function;
* `Token.isSymbol_relocate`, `Rule.typeOf?_relocate`, … – what the rules ask of a token.
-/

set_option autoImplicit false

namespace ScopeFront

variable (g : Span → Span)

/-- The token with its place mapped. -/
def Token.relocate (t : Token) : Token := { t with span := g t.span }

/-- What was found, with its place mapped. -/
def Found.relocate : Found → Found
  | .token t => .token (t.relocate g)
  | .endOfStream span => .endOfStream (g span)

/-- The error with the place of what was found mapped. -/
def ParseError.relocate : ParseError → ParseError
  | .expected what found => .expected what (found.relocate g)
  | .unexpectedToken found context => .unexpectedToken (found.relocate g) context
  | .tooDeep found limit => .tooDeep (found.relocate g) limit

/-- The error with its place mapped. -/
def LexError.relocate : LexError → LexError
  | .unexpectedCharacter ch span => .unexpectedCharacter ch (g span)
  | .unterminatedComment span => .unterminatedComment (g span)

/-- The error with its place, and the place of the token it carries, mapped. -/
def FrontError.relocate : FrontError → FrontError
  | .lex e => .lex (e.relocate g)
  | .parse e => .parse (e.relocate g)

/-- What a token is, wherever it stands. -/
def Token.content (t : Token) : TokenKind × String := (t.kind, t.lexeme)

/-- The place `n` lines further down. -/
def Span.down (n : Nat) (s : Span) : Span := ⟨s.line + n, s.column⟩

/-! ## Tokens keep what they are -/

@[simp]
theorem Token.kind_relocate (t : Token) : (t.relocate g).kind = t.kind := rfl

@[simp]
theorem Token.lexeme_relocate (t : Token) : (t.relocate g).lexeme = t.lexeme := rfl

@[simp]
theorem Token.isEof_relocate (t : Token) : (t.relocate g).isEof = t.isEof := rfl

@[simp]
theorem Token.isSymbol_relocate (t : Token) (c : Char) :
    (t.relocate g).isSymbol c = t.isSymbol c := rfl

@[simp]
theorem Rule.typeOf?_relocate (t : Token) : typeOf? (t.relocate g) = typeOf? t := rfl

@[simp]
theorem Rule.scopeOf?_relocate (t : Token) : scopeOf? (t.relocate g) = scopeOf? t := rfl

@[simp]
theorem Rule.operatorOf?_relocate (t : Token) : operatorOf? (t.relocate g) = operatorOf? t := rfl

theorem Token.map_relocate_id (ts : List Token) : ts.map (·.relocate id) = ts := List.map_id ts

theorem Found.ofToken_eq {t : Token} (h : t.isEof = false) : ofToken t = token t := by
  rw [ofToken, h]
  rfl

theorem Found.ofToken_relocate (t : Token) :
    Found.ofToken (t.relocate g) = (Found.ofToken t).relocate g := by
  unfold ofToken
  rw [Token.isEof_relocate]
  split <;> rfl

theorem ParseError.relocate_id (e : ParseError) : e.relocate id = e := by
  rcases e with ⟨_, _ | _⟩ | ⟨_ | _, _⟩ | ⟨_ | _, _⟩ <;> rfl

end ScopeFront
