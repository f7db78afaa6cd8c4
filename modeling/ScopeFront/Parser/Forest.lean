import ScopeFront.Parser.Statement
import ScopeFront.Text.Quoted

/-!
# Reading programs

At the top level an identifier introduces a scope, and assignments, calls and `return` have no place.

* `Rule.scope`, `Rule.statement`, `Rule.block`, … – the rules, with the levels that the parser has
  left;
* `Rule.forest` – a whole program;
* `parseTokens` – the forest of a sequence of tokens.
-/

set_option autoImplicit false

namespace ScopeFront

namespace Rule

/-- A scope behind an ordinary word and a name. -/
def labeledScope (inner : Rule Node) : Rule Node := do
  let t ← advance
  let f ← signature inner t.lexeme
  logDetail ("parsed labeled scope: " ++ t.lexeme ++ " " ++ f.header.name)
  return .labeled t.lexeme f

/-- A scope that an identifier introduces: a named one where `{` follows, a labeled one where
another identifier follows. -/
def identifierScope (inner : Rule Node) : Rule Node := do
  if (← peek).lexeme = returnWord then
    failUnexpected "outside a scope body"
  else if (← peekNext).isSymbol '{' then
    let (name, body) ← namedScopeWith inner
    return .namedScope name body
  else if (← peekNext).kind = .identifier then
    labeledScope inner
  else
    let _ ← advance
    failExpected "'\x7b' to start named scope"

/-- A statement. -/
def statement : Rule Node := inspect fun p => statementAt p.room

/-- A scope that a reserved word or an identifier introduces; anything else is a statement. -/
def scope : Rule Node := inspect fun p =>
  match p.peek.kind with
  | .scopeKeyword => keywordScope (expressionAt p.room) (bodyStatementAt p.room)
  | .identifier => identifierScope (bodyStatementAt p.room)
  | _ => statement

/-- Statements in braces; `what` names the body in messages. -/
def block (what : String) : Rule (List Node) :=
  inspect fun p => blockWith (bodyStatementAt p.room) what

/-- A function behind the word `function`. -/
def functionScope : Rule Function := inspect fun p => functionScopeWith (bodyStatementAt p.room)

/-- A name and its body. -/
def namedScope : Rule (String × List Node) :=
  inspect fun p => namedScopeWith (bodyStatementAt p.room)

/-- A body without a name. -/
def unnamedScope : Rule (List Node) := inspect fun p => unnamedScopeWith (bodyStatementAt p.room)

/-- A node of the top level. -/
def topLevel : Rule Node := do
  let node ← inspect fun p =>
    match p.peek.kind with
    | .scopeKeyword | .identifier => scope
    | _ => statement
  let category := if node.isScope then "scope" else "statement"
  logDetail ("added top-level " ++ category ++ " " ++ Text.quoted node.label)
  return node

/-- A whole program. -/
def forest : Rule (List Node) := do
  logPhase "starting parse"
  let nodes ← many (fun _ => false) topLevel
  logPhase s!"parse completed, {nodes.length} top-level nodes"
  return nodes

end Rule

/-- The forest of a sequence of tokens, with the log of reading it. -/
def parseTokens (limit : Nat) (tokens : List Token) :
    List Event × Except ParseError (List Node) :=
  let (p, result) := Rule.forest (Parser.ofTokens tokens limit)
  (p.events, result)

end ScopeFront
