import ScopeFront.Node
import ScopeFront.Parser.Expression

/-!
# Reading scopes and statements

The rules take the rule for expressions and the rule for the statements of a body, which stand one
level deeper, and `statementAt` ties the knot by recursion on the number of levels that may still be
opened.

* `Rule.block` – a body in braces;
* `Rule.header`, `Rule.functionScope` – functions;
* `Rule.keywordScope` – a scope that a reserved word introduces;
* `Rule.statementAt`, `Rule.bodyStatementAt` – a statement, and a statement one level deeper.
-/

set_option autoImplicit false

namespace ScopeFront

namespace Rule

/-! ## Bodies and headers -/

/-- Statements in braces, one level deeper; `what` names the body in messages. -/
def blockWith (inner : Rule Node) (what : String) : Rule (List Node) := do
  let _ ← expectSymbol '{' ("to start " ++ what)
  enterNested
  let body ← many (·.isSymbol '}') inner
  let _ ← expectSymbol '}' ("to close " ++ what)
  leaveNested
  return body

/-- A type and a name in a parameter list. -/
def parameter : Rule TypedName := do
  let type ← expectType "a type keyword in parameter list"
  let name ← expectIdentifier "an identifier after type keyword"
  logDetail ("parsed parameter: " ++ name ++ " with type: " ++ type.word)
  return ⟨name, type⟩

/-- A parameter list, if one is there. -/
def parameterList : Rule (Option (List TypedName)) := do
  if ← matchSymbol '(' then
    let parameters ← commaList parameter "',' or ')' in parameter list"
    return some parameters
  else
    return none

/-- A return type, if one is there. -/
def returnType : Rule (Option TypeKeyword) := do
  if ← matchSymbol ':' then
    let type ← expectType "return type after ':'"
    logDetail ("parsed return type: " ++ type.word)
    return some type
  else
    return none

/-- A name, a parameter list and a return type behind the introducing word `label`. -/
def header (label : String) : Rule Header := do
  let name ← expectIdentifier ("a name after '" ++ label ++ "'")
  let parameters ← parameterList
  let type ← returnType
  return ⟨name, parameters, type⟩

/-- A header and a body behind the introducing word `label`. -/
def signature (inner : Rule Node) (label : String) : Rule Function := do
  let head ← header label
  let body ← blockWith inner (label ++ " body")
  return .mk head body

/-! ## Scopes -/

/-- A function behind the word `function`. -/
def functionScopeWith (inner : Rule Node) : Rule Function := do
  let f ← signature inner ScopeKeyword.function.word
  logDetail ("parsed function: " ++ f.header.name)
  return f

/-- A loop behind the word `for`. -/
def forScope (expr : Rule Expr) (inner : Rule Node) : Rule Node := do
  let _ ← expectSymbol '(' "to start 'for' loop condition"
  let condition ← expr
  let _ ← expectSymbol ')' "to close 'for' loop condition"
  let body ← blockWith inner "'for' loop body"
  return .forLoop condition body

/-- A type, a name and a semicolon in a structure. -/
def member : Rule TypedName := do
  let type ← expectType "a type keyword in struct"
  let name ← expectIdentifier "a member name in struct"
  let _ ← expectSymbol ';' "after struct member declaration"
  logDetail ("parsed struct member: " ++ name ++ " with type: " ++ type.word)
  return ⟨name, type⟩

/-- A structure behind the word `struct`. -/
def structScope : Rule Node := do
  let name ← matchIdentifier
  let _ ← expectSymbol '{' "to start struct body"
  let members ← many (·.isSymbol '}') member
  let _ ← expectSymbol '}' "to close struct"
  return .struct name members

/-- The scope that a token introduces. -/
def scopeOf? (t : Token) : Option ScopeKeyword :=
  if t.kind = .scopeKeyword then ScopeKeyword.ofWord? t.lexeme else none

/-- A function in an implementation, where nothing else may stand. -/
def implementedFunction (inner : Rule Node) : Rule Function := do
  if scopeOf? (← peek) = some .function then
    let _ ← advance
    functionScopeWith inner
  else
    failExpected "'function' inside implement scope"

/-- An implementation behind the word `implement`. -/
def implementScope (inner : Rule Node) : Rule Node := do
  let name ← matchIdentifier
  let _ ← expectSymbol '{' "to start implement body"
  let functions ← many (·.isSymbol '}') (implementedFunction inner)
  let _ ← expectSymbol '}' "to close implement scope"
  return .implement name functions

/-- A scope that a reserved word introduces. -/
def keywordScope (expr : Rule Expr) (inner : Rule Node) : Rule Node := do
  match scopeOf? (← peek) with
  | none => failUnexpected "as a scope keyword"
  | some keyword =>
    let _ ← advance
    logDetail ("parsing scope: " ++ keyword.word)
    match keyword with
    | .function => do
      let f ← functionScopeWith inner
      return .function f
    | .forLoop => forScope expr inner
    | .struct => structScope
    | .implement => implementScope inner

/-- A name and its body. -/
def namedScopeWith (inner : Rule Node) : Rule (String × List Node) := do
  let name ← expectIdentifier "scope name"
  let body ← blockWith inner "named scope"
  logDetail ("parsed named scope: " ++ name)
  return (name, body)

/-- A body without a name. -/
def unnamedScopeWith (inner : Rule Node) : Rule (List Node) := do
  let body ← blockWith inner "unnamed scope"
  logDetail "parsed unnamed scope"
  return body

/-! ## Statements -/

/-- A statement that starts with `return`. -/
def returnStatement (expr : Rule Expr) : Rule Node := do
  let _ ← advance
  let value ← do
    if ← checkSymbol ';' then
      pure none
    else
      let e ← expr
      pure (some e)
  let _ ← expectSymbol ';' "after return statement"
  logDetail "parsed return statement"
  return .ret value

/-- What follows the name and `=` of an assignment. -/
def assignmentTail (expr : Rule Expr) (name : String) : Rule Node := do
  let value ← expr
  let _ ← expectSymbol ';' "after variable assignment"
  logDetail ("parsed variable assignment: " ++ name)
  return .assignment name value

/-- What follows the name and `(` of a call. -/
def callTail (expr : Rule Expr) (name : String) : Rule Node := do
  let arguments ← argumentsWith expr "function call"
  let _ ← expectSymbol ';' "after function call"
  logDetail ("parsed function call: " ++ name)
  return .call name arguments

/-- A statement that starts with an identifier other than `return`. -/
def identifierStatement (expr : Rule Expr) (inner : Rule Node) : Rule Node := do
  if (← peekNext).isSymbol '{' then
    let (name, body) ← namedScopeWith inner
    return .namedScope name body
  else
    let t ← advance
    if ← matchSymbol '=' then assignmentTail expr t.lexeme
    else if ← matchSymbol '(' then callTail expr t.lexeme
    else failExpected ("'=', '\x7b' or '(' after '" ++ t.lexeme ++ "'")

/-- A declaration of a variable. -/
def declaration (expr : Rule Expr) : Rule Node := do
  let type ← expectType "a type keyword"
  let name ← expectIdentifier "an identifier after type keyword"
  let _ ← expectSymbol '=' "after identifier in variable declaration"
  let value ← expr
  let _ ← expectSymbol ';' "after variable declaration"
  logDetail ("parsed variable declaration: " ++ name ++ " with type: " ++ type.word)
  return .declaration name type value

/-- A built-in operation with its arguments. -/
def operatorStatement (expr : Rule Expr) : Rule Node := do
  match OperatorKeyword.ofWord? (← peek).lexeme with
  | none => failUnexpected "as an operator keyword"
  | some keyword =>
    let _ ← advance
    let _ ← expectSymbol '(' "after operator keyword"
    let arguments ← argumentsWith expr "operator"
    let _ ← expectSymbol ';' "after operator statement"
    logDetail ("parsed operator statement: " ++ keyword.word)
    return .operator keyword arguments

/-- The word that starts a return statement; it is no reserved word. -/
def returnWord : String := "return"

/-- A statement. -/
def statementWith (expr : Rule Expr) (inner : Rule Node) : Rule Node := do
  let t ← peek
  logDetail ("parsing statement at '" ++ t.lexeme ++ "'")
  match t.kind with
  | .identifier =>
    if t.lexeme = returnWord then returnStatement expr else identifierStatement expr inner
  | .symbol =>
    if t.isSymbol '{' then
      let body ← unnamedScopeWith inner
      return .unnamedScope body
    else failUnexpected "at start of statement"
  | .scopeKeyword => keywordScope expr inner
  | .typeKeyword => declaration expr
  | .operatorKeyword => operatorStatement expr
  | _ => failUnexpected "at start of statement"

/-- A statement that opens at most `level` levels. -/
def statementAt : Nat → Rule Node
  | 0, p => statementWith (expressionAt 0) tooDeep p
  | level + 1, p => statementWith (expressionAt (level + 1)) (statementAt level) p

/-- A statement of a body that is opened with `level` levels left. -/
def bodyStatementAt : Nat → Rule Node
  | 0 => tooDeep
  | level + 1 => statementAt level

end Rule

end ScopeFront
