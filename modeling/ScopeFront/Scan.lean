import ScopeFront.Error
import ScopeFront.Event
import ScopeFront.Segment
import ScopeFront.Settings
import ScopeFront.Text.Quoted

/-!
# Reading tokens

The scanner reads the pieces of a source text from left to right.  A word, number or symbol becomes
a token, a comment or blank is passed over, and stray characters are refused or passed over as the
policy says.  An error changes nothing: the piece at fault stays unread.

* `Segment.read` – what one piece contributes, or why it is refused;
* `Pass.ofSegments` – one pass over pieces, to the end or to the first error;
* `Scanner`, `Scanner.scan` – a scanner that can be run again and keeps its tokens;
* `tokenize` – the tokens of a source text.
-/

set_option autoImplicit false

namespace ScopeFront

/-- The stage name in events of the scanner. -/
def lexerStage : String := "lexer"

/-! ## One piece -/

/-- What a piece contributes: a token or nothing, and a log entry. -/
structure Reading where
  token : Option Token
  event : Event
deriving DecidableEq, Repr

/-- A token, with the entry that tells of it. -/
def Reading.ofToken (t : Token) : Reading :=
  ⟨some t, .debug lexerStage .detail
    ("token " ++ t.kind.name ++ " '" ++ t.lexeme ++ "' at " ++ t.span.text)⟩

/-- A piece that is passed over, with the entry that tells of it. -/
def Reading.passed (level : Level) (message : String) : Reading :=
  ⟨none, .debug lexerStage level message⟩

/-- Reads the piece at `place`, given the character that follows it. -/
def Segment.read (policy : UnmatchedPolicy) (place : Span) (s : Segment) (next : Option Char) :
    Except LexError Reading :=
  let lexeme := String.ofList s.text
  match s.kind with
  | .word => .ok (.ofToken ⟨.ofWord lexeme next, lexeme, place⟩)
  | .number => .ok (.ofToken ⟨.literal, lexeme, place⟩)
  | .symbol =>
    if policy = .reject ∧ s.text = ['/'] ∧ next = some '*' then
      .error (.unterminatedComment place)
    else .ok (.ofToken ⟨.symbol, lexeme, place⟩)
  | .lineComment => .ok (.passed .trivia "ignored line comment")
  | .blockComment => .ok (.passed .trivia "ignored block comment")
  | .blank => .ok (.passed .trivia "ignored whitespace")
  | .stray =>
    match policy, s.text with
    | .reject, c :: _ => .error (.unexpectedCharacter c place)
    | _, _ =>
      .ok (.passed .phase
        ("skipping unmatched input " ++ Text.quoted lexeme ++ " at " ++ place.text))

/-! ## One pass -/

/-- The first character of a sequence of pieces. -/
def firstChar? : List Segment → Option Char
  | [] => none
  | s :: _ => s.text.head?

/-- The outcome of a pass: the tokens read, the log, what is left unread and where it starts, and
the error that ended the pass, if one did. -/
structure Pass where
  tokens : List Token
  log : List Event
  unread : List Segment
  place : Span
  fault : Option LexError
deriving DecidableEq, Repr

/-- Reads pieces from `place` on, to the end or to the first error. -/
def Pass.ofSegments (policy : UnmatchedPolicy) : Span → List Segment → Pass
  | place, [] => ⟨[], [], [], place, none⟩
  | place, s :: rest =>
    match s.read policy place (firstChar? rest) with
    | .error e => ⟨[], [.fatal lexerStage e.message], s :: rest, place, some e⟩
    | .ok reading =>
      let later := ofSegments policy (place.after s.text) rest
      { later with
        tokens := reading.token.toList ++ later.tokens
        log := reading.event :: later.log }

/-! ## The scanner -/

/-- A scanner: the pieces still unread, where they start, and the tokens read so far. -/
structure Scanner where
  unread : List Segment
  place : Span
  tokens : List Token
deriving DecidableEq, Repr

namespace Scanner

/-- The scanner at the start of a source text. -/
def ofSource (source : String) : Scanner :=
  ⟨segments source.toList, .start, []⟩

/-- Reads on to the end and adds an end marker, or stops at the first error.  Gives the log and the
error beside the scanner reached. -/
def scan (policy : UnmatchedPolicy) (s : Scanner) : Scanner × List Event × Except LexError Unit :=
  let pass := Pass.ofSegments policy s.place s.unread
  let start := Event.debug lexerStage .phase "starting tokenization"
  match pass.fault with
  | some e =>
    (⟨pass.unread, pass.place, s.tokens ++ pass.tokens⟩, start :: pass.log, .error e)
  | none =>
    let tokens := s.tokens ++ pass.tokens ++ [Token.eof pass.place]
    let done := Event.debug lexerStage .phase s!"tokenization completed, {tokens.length} tokens"
    (⟨pass.unread, pass.place, tokens⟩, start :: (pass.log ++ [done]), .ok ())

end Scanner

/-- The tokens of a source text, the end marker last, with the log of reading them. -/
def tokenize (policy : UnmatchedPolicy) (source : String) :
    List Event × Except LexError (List Token) :=
  match (Scanner.ofSource source).scan policy with
  | (_, log, .error e) => (log, .error e)
  | (scanner, log, .ok ()) => (log, .ok scanner.tokens)

end ScopeFront
