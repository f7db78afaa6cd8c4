import ScopeFront.Error
import ScopeFront.Event

/-!
# Grammar rules

A parser holds a place in a sequence of tokens, the number of bodies and parentheses it is in, and
its log.  A rule takes a parser on and gives a result or an error; a failing rule leaves the parser
where the failure found it.

* `Parser` – the state, and `Parser.ofTokens` its start;
* `Rule` – what reads part of the tokens, with `pure` and `bind`;
* `Rule.peek`, `Rule.advance`, `Rule.expectSymbol`, … – the rules for single tokens;
* `Rule.enterNested`, `Rule.leaveNested` – the bound on nesting;
* `Rule.many`, `Rule.commaList` – repetition.
-/

set_option autoImplicit false

namespace ScopeFront

/-- The stage name in events of the parser. -/
def parserStage : String := "parser"

/-! ## The state -/

/-- A place in a sequence of tokens.  Only the tokens before the first end marker are ever read. -/
structure Parser where
  /-- The tokens already read, the latest first. -/
  passed : List Token
  /-- The tokens still to be read. -/
  ahead : List Token
  /-- The first end marker. -/
  stop : Token
  /-- What stands behind the first end marker. -/
  beyond : List Token
  /-- The number of bodies and parentheses around the place. -/
  depth : Nat
  /-- The largest allowed depth. -/
  limit : Nat
  /-- What was done so far, the latest first. -/
  log : List Event
deriving DecidableEq, Repr

/-- The place behind the last token of a sequence. -/
def endPlace (tokens : List Token) : Span :=
  match tokens.getLast? with
  | none => .start
  | some t => ⟨t.span.line, t.span.column + t.lexeme.length⟩

/-- The sequence with an end marker added unless it ends in one. -/
def terminated (tokens : List Token) : List Token :=
  if tokens.getLast?.any Token.isEof then tokens else tokens ++ [Token.eof (endPlace tokens)]

namespace Parser

/-- A parser at the start of a sequence of tokens. -/
def ofTokens (tokens : List Token) (limit : Nat) : Parser :=
  let behind := (terminated tokens).dropWhile (!·.isEof)
  { passed := []
    ahead := (terminated tokens).takeWhile (!·.isEof)
    stop := behind.headD (Token.eof (endPlace tokens))
    beyond := behind.tail
    depth := 0
    limit := limit
    log := [] }

/-- The whole sequence, wherever the parser stands in it. -/
def tokens (p : Parser) : List Token :=
  p.passed.reverse ++ p.ahead ++ p.stop :: p.beyond

/-- The token at the place. -/
def peek (p : Parser) : Token := p.ahead.headD p.stop

/-- The token behind the one at the place, or the last one. -/
def peekNext (p : Parser) : Token :=
  match p.ahead with
  | [] => p.beyond.headD p.stop
  | _ :: later => later.headD p.stop

/-- Whether no token is left. -/
def atEnd (p : Parser) : Bool := p.ahead.isEmpty

/-- The parser one token further on; at the end it stays. -/
def next (p : Parser) : Parser :=
  match p.ahead with
  | [] => p
  | t :: later => { p with passed := t :: p.passed, ahead := later }

/-- The token just read, or at the very start the first one. -/
def latest (p : Parser) : Token := p.passed.headD p.peek

/-- The number of further bodies and parentheses that may be opened. -/
def room (p : Parser) : Nat := p.limit - p.depth

/-- The parser with an event logged. -/
def logging (p : Parser) (e : Event) : Parser := { p with log := e :: p.log }

/-- The events so far, in order. -/
def events (p : Parser) : List Event := p.log.reverse

/-- Going on leaves the whole sequence as it is. -/
@[simp]
theorem tokens_next (p : Parser) : p.next.tokens = p.tokens := by
  unfold next
  split
  · rfl
  · next h => simp [tokens, h]

/-- Going on reads one of the tokens ahead. -/
theorem next_ahead (p : Parser) : p.next.ahead = p.ahead.tail := by
  unfold next
  split
  · next h => simp [h]
  · next h => simp [h]

end Parser

/-! ## Rules -/

/-- What takes a parser on and gives a result or an error. -/
def Rule (α : Type) : Type := Parser → Parser × Except ParseError α

namespace Rule

variable {α β : Type}

/-- Reads nothing. -/
protected def pure (a : α) : Rule α := fun p => (p, .ok a)

/-- One rule after the other; the first error ends it. -/
protected def bind (r : Rule α) (f : α → Rule β) : Rule β := fun p =>
  match r p with
  | (q, .ok a) => f a q
  | (q, .error e) => (q, .error e)

instance : Monad Rule where
  pure := Rule.pure
  bind := Rule.bind

@[simp]
theorem pure_apply (a : α) (p : Parser) : (pure a : Rule α) p = (p, .ok a) := rfl

theorem bind_apply_ok {r : Rule α} {f : α → Rule β} {p q : Parser} {a : α}
    (h : r p = (q, .ok a)) : (r >>= f) p = f a q := by
  show Rule.bind r f p = f a q
  rw [Rule.bind, h]

theorem bind_apply_error {r : Rule α} {f : α → Rule β} {p q : Parser} {e : ParseError}
    (h : r p = (q, .error e)) : (r >>= f) p = (q, .error e) := by
  show Rule.bind r f p = (q, .error e)
  rw [Rule.bind, h]

/-- A rule chosen by looking at the parser. -/
def inspect (f : Parser → Rule α) : Rule α := fun p => f p p

/-- Changes the parser and always succeeds. -/
def update (f : Parser → Parser) : Rule Unit := fun p => (f p, .ok ())

/-- Logs that the stage began or ended. -/
def logPhase (message : String) : Rule Unit :=
  update (·.logging (.debug parserStage .phase message))

/-- Logs a construct. -/
def logDetail (message : String) : Rule Unit :=
  update (·.logging (.debug parserStage .detail message))

/-- Logs an error and fails with it. -/
def fail (e : ParseError) : Rule α := fun p =>
  (p.logging (.fatal parserStage e.message), .error e)

/-- Fails because `what` was required. -/
def failExpected (what : String) : Rule α :=
  inspect fun p => fail (.expected what (.ofToken p.peek))

/-- Fails because nothing starts with the token at the place. -/
def failUnexpected (context : String) : Rule α :=
  inspect fun p => fail (.unexpectedToken (.ofToken p.peek) context)

/-! ## Single tokens -/

/-- The token at the place. -/
def peek : Rule Token := fun p => (p, .ok p.peek)

/-- The token behind the one at the place. -/
def peekNext : Rule Token := fun p => (p, .ok p.peekNext)

/-- Reads the token at the place; an end marker is given and not passed. -/
def advance : Rule Token := fun p => (p.next, .ok p.peek)

/-- Whether no token is left. -/
def atEnd : Rule Bool := fun p => (p, .ok p.atEnd)

/-- Whether the symbol `c` is at the place. -/
def checkSymbol (c : Char) : Rule Bool := fun p => (p, .ok (p.peek.isSymbol c))

/-- Reads the symbol `c` if it is at the place, and says whether it was. -/
def matchSymbol (c : Char) : Rule Bool := do
  if ← checkSymbol c then
    let _ ← advance
    return true
  else
    return false

/-- Reads the symbol `c`, which is required; `context` completes the message. -/
def expectSymbol (c : Char) (context : String) : Rule Token := do
  if ← checkSymbol c then advance
  else failExpected ("'" ++ String.singleton c ++ "' " ++ context)

/-- Reads an identifier, which is required. -/
def expectIdentifier (what : String) : Rule String := do
  let t ← peek
  if t.kind = .identifier then
    let _ ← advance
    return t.lexeme
  else
    failExpected what

/-- Reads an identifier if one is at the place. -/
def matchIdentifier : Rule (Option String) := do
  let t ← peek
  if t.kind = .identifier then
    let _ ← advance
    return some t.lexeme
  else
    return none

/-- The type that a token names. -/
def typeOf? (t : Token) : Option TypeKeyword :=
  if t.kind = .typeKeyword then TypeKeyword.ofWord? t.lexeme else none

/-- Reads a type, which is required. -/
def expectType (what : String) : Rule TypeKeyword := do
  match typeOf? (← peek) with
  | some type =>
    let _ ← advance
    return type
  | none => failExpected what

/-! ## Nesting -/

/-- Fails because the token just read opens a level too many. -/
def tooDeep : Rule α :=
  inspect fun p => fail (.tooDeep (.ofToken p.latest) p.limit)

/-- Steps one level deeper, if the limit allows it. -/
def enterNested : Rule Unit :=
  inspect fun p =>
    if p.limit ≤ p.depth then tooDeep else update fun q => { q with depth := q.depth + 1 }

/-- Steps one level back. -/
def leaveNested : Rule Unit := update fun p => { p with depth := p.depth - 1 }

/-! ## Repetition

Every round of a repetition reads a token, so the tokens ahead bound the rounds: the recursion takes
one of them for each round.  Where none is left, there is nothing to repeat. -/

/-- At most as many times `item` as there are `rounds`, until a token satisfies `close` or none is
left. -/
def manyWithin (close : Token → Bool) (item : Rule α) : List Token → Rule (List α)
  | [] => Rule.pure []
  | _ :: rounds =>
    inspect fun p =>
      if p.atEnd || close p.peek then Rule.pure []
      else do
        let a ← item
        let as ← manyWithin close item rounds
        return a :: as

/-- Repeats `item` until a token satisfies `close` or none is left. -/
def many (close : Token → Bool) (item : Rule α) : Rule (List α) :=
  inspect fun p => manyWithin close item p.ahead

/-- What follows an item of a list in parentheses: commas with further items, and the `)`. -/
def commaTailWithin (item : Rule α) (what : String) : List Token → Rule (List α)
  | [] => failExpected what
  | _ :: rounds => do
    if ← matchSymbol ',' then
      let a ← item
      let as ← commaTailWithin item what rounds
      return a :: as
    else if ← matchSymbol ')' then
      return []
    else
      failExpected what

/-- Items with commas between them, up to and including the `)`; `what` is asked for where neither
a comma nor the `)` follows an item. -/
def commaList (item : Rule α) (what : String) : Rule (List α) := do
  if ← matchSymbol ')' then
    return []
  else
    let a ← item
    let as ← inspect fun p => commaTailWithin item what p.ahead
    return a :: as

end Rule

end ScopeFront
