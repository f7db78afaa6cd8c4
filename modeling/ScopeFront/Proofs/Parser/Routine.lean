import ScopeFront.Proofs.Parser.Steps

/-!
# The rules as routines that call each other

The rules of the grammar count the levels they may open and the rounds their loops may make, so that
they are defined at all.  Nothing in the reading of a program needs these bounds.  Here the same
reading is done by routines that call each other without any: a statement calls what stands in it, a
loop calls itself for the next round.

* `Routine`, `Routine.rule` – what can be called, and the rule for it;
* `Routine.body` – what a routine does, given how its calls are answered;
* `Routine.weight` – what every call makes smaller: the tokens ahead, and then the rank.
-/

set_option autoImplicit false

namespace ScopeFront

/-- What reading a program calls: the rules of the grammar, and the loops in them. -/
inductive Routine where
  | program
  | scope
  | statement
  | expression
  | block (what : String)
  | arguments (what : String)
  | functionScope
  | namedScope
  | unnamedScope
  /-- The nodes of the top level that are left. -/
  | nodes
  /-- The statements of a body that are left. -/
  | statements
  /-- The members of a structure that are left. -/
  | members
  /-- The functions of an implementation that are left. -/
  | functions
  /-- The operators behind an operand that are left. -/
  | operators (left : Expr)
  /-- What is left of a list of arguments behind one of them. -/
  | furtherArguments (what : String)
  /-- What is left of a list of parameters behind one of them. -/
  | furtherParameters

namespace Routine

/-- What a routine gives where it succeeds. -/
abbrev Answer : Routine → Type
  | program | block _ | unnamedScope | nodes | statements => List Node
  | scope | statement => Node
  | expression | operators _ => Expr
  | arguments _ | furtherArguments _ => List Expr
  | functionScope => Function
  | functions => List Function
  | namedScope => String × List Node
  | members | furtherParameters => List TypedName

/-- The rule that does what the routine does. -/
def rule : (c : Routine) → Rule c.Answer
  | program => Rule.forest
  | scope => Rule.scope
  | statement => Rule.statement
  | expression => Rule.expression
  | block what => Rule.block what
  | arguments what => Rule.arguments what
  | functionScope => Rule.functionScope
  | namedScope => Rule.namedScope
  | unnamedScope => Rule.unnamedScope
  | nodes => Rule.many (fun _ => false) Rule.topLevel
  | statements => Rule.inspect fun p => Rule.many (·.isSymbol '}') (Rule.statementAt p.room)
  | members => Rule.many (·.isSymbol '}') Rule.member
  | functions => Rule.inspect fun p =>
      Rule.many (·.isSymbol '}') (Rule.implementedFunction (Rule.bodyStatementAt p.room))
  | operators left => Rule.inspect fun p =>
      Rule.operatorTail (Rule.primary (Rule.innerExpressionAt p.room)) left
  | furtherArguments what => Rule.inspect fun p =>
      Rule.commaTail (Rule.expressionAt p.room) ("',' or ')' in " ++ what ++ " arguments")
  | furtherParameters => Rule.commaTail Rule.parameter "',' or ')' in parameter list"

/-- How each routine is answered where it is called. -/
abbrev Calls : Type := (c : Routine) → Rule c.Answer

/-! ## What the routines do -/

section Bodies

open Rule

variable {α : Type}

/-- One round of a repetition, and `again` for those behind it. -/
def manyRound (close : Token → Bool) (item : Rule α) (again : Rule (List α)) : Rule (List α) :=
  inspect fun p =>
    if p.atEnd || close p.peek then Rule.pure []
    else do
      let a ← item
      let as ← again
      return a :: as

/-- The first item of a list in parentheses, and `further` for what is behind it. -/
def commaStart (item : Rule α) (further : Rule (List α)) : Rule (List α) := do
  if ← matchSymbol ')' then
    return []
  else
    let a ← item
    let as ← further
    return a :: as

/-- What follows an item of a list in parentheses, up to the next one, and `further` behind that. -/
def commaRound (item : Rule α) (what : String) (further : Rule (List α)) : Rule (List α) := do
  if ← matchSymbol ',' then
    let a ← item
    let as ← further
    return a :: as
  else if ← matchSymbol ')' then
    return []
  else
    failExpected what

variable (call : Calls)

/-- A parameter list, if one is there. -/
def parameterListBy : Rule (Option (List TypedName)) := do
  if ← matchSymbol '(' then
    let parameters ← commaStart parameter (call furtherParameters)
    return some parameters
  else
    return none

/-- A name, a parameter list and a return type behind the introducing word `label`. -/
def headerBy (label : String) : Rule Header := do
  let name ← expectIdentifier ("a name after '" ++ label ++ "'")
  let parameters ← parameterListBy call
  let type ← returnType
  return ⟨name, parameters, type⟩

/-- A header and a body behind the introducing word `label`. -/
def signatureBy (label : String) : Rule Function := do
  let head ← headerBy call label
  let body ← call (block (label ++ " body"))
  return .mk head body

/-- A function in an implementation. -/
def methodBy : Rule Function := do
  if scopeOf? (← peek) = some .function then
    let _ ← advance
    call functionScope
  else
    failExpected "'function' inside implement scope"

/-- What stands behind a reserved word. -/
def behindKeyword : ScopeKeyword → Rule Node
  | .function => do
    let f ← call functionScope
    return .function f
  | .forLoop => do
    let _ ← expectSymbol '(' "to start 'for' loop condition"
    let condition ← call expression
    let _ ← expectSymbol ')' "to close 'for' loop condition"
    let body ← call (block "'for' loop body")
    return .forLoop condition body
  | .struct => do
    let name ← matchIdentifier
    let _ ← expectSymbol '{' "to start struct body"
    let declared ← call members
    let _ ← expectSymbol '}' "to close struct"
    return .struct name declared
  | .implement => do
    let name ← matchIdentifier
    let _ ← expectSymbol '{' "to start implement body"
    let methods ← call functions
    let _ ← expectSymbol '}' "to close implement scope"
    return .implement name methods

/-- A scope that a reserved word introduces. -/
def keywordScopeBy : Rule Node := do
  match scopeOf? (← peek) with
  | none => failUnexpected "as a scope keyword"
  | some keyword =>
    let _ ← advance
    logDetail ("parsing scope: " ++ keyword.word)
    behindKeyword call keyword

/-- A scope that an identifier introduces. -/
def identifierScopeBy : Rule Node := do
  if (← peek).lexeme = returnWord then
    failUnexpected "outside a scope body"
  else if (← peekNext).isSymbol '{' then
    let (name, body) ← call namedScope
    return .namedScope name body
  else if (← peekNext).kind = .identifier then
    let t ← advance
    let f ← signatureBy call t.lexeme
    logDetail ("parsed labeled scope: " ++ t.lexeme ++ " " ++ f.header.name)
    return .labeled t.lexeme f
  else
    let _ ← advance
    failExpected "'\x7b' to start named scope"

/-- What follows the name and `(` of a call. -/
def callTailBy (name : String) : Rule Node := do
  let given ← call (arguments "function call")
  let _ ← expectSymbol ';' "after function call"
  logDetail ("parsed function call: " ++ name)
  return .call name given

/-- A statement that starts with an identifier other than `return`. -/
def identifierStatementBy : Rule Node := do
  if (← peekNext).isSymbol '{' then
    let (name, body) ← call namedScope
    return .namedScope name body
  else
    let t ← advance
    if ← matchSymbol '=' then assignmentTail (call expression) t.lexeme
    else if ← matchSymbol '(' then callTailBy call t.lexeme
    else failExpected ("'=', '\x7b' or '(' after '" ++ t.lexeme ++ "'")

/-- A built-in operation with its arguments. -/
def operatorStatementBy : Rule Node := do
  match OperatorKeyword.ofWord? (← peek).lexeme with
  | none => failUnexpected "as an operator keyword"
  | some keyword =>
    let _ ← advance
    let _ ← expectSymbol '(' "after operator keyword"
    let given ← call (arguments "operator")
    let _ ← expectSymbol ';' "after operator statement"
    logDetail ("parsed operator statement: " ++ keyword.word)
    return .operator keyword given

/-- The statement that a token begins. -/
def statementFrom (t : Token) : Rule Node :=
  match t.kind with
  | .identifier =>
    if t.lexeme = returnWord then returnStatement (call expression) else identifierStatementBy call
  | .symbol =>
    if t.isSymbol '{' then do
      let body ← call unnamedScope
      return .unnamedScope body
    else failUnexpected "at start of statement"
  | .scopeKeyword => call scope
  | .typeKeyword => declaration (call expression)
  | .operatorKeyword => operatorStatementBy call
  | _ => failUnexpected "at start of statement"

/-- A node of the top level. -/
def nodeBy : Rule Node := do
  let node ← inspect fun p =>
    match p.peek.kind with
    | .scopeKeyword | .identifier => call scope
    | _ => call statement
  let category := if node.isScope then "scope" else "statement"
  logDetail ("added top-level " ++ category ++ " " ++ Text.quoted node.label)
  return node

/-- What a routine does, where `call` answers the calls it makes. -/
def body : (c : Routine) → Rule c.Answer
  | program => do
    logPhase "starting parse"
    let forest : List Node ← call nodes
    logPhase s!"parse completed, {forest.length} top-level nodes"
    return forest
  | nodes => manyRound (fun _ => false) (nodeBy call) (call nodes)
  | scope => inspect fun p =>
    match p.peek.kind with
    | .scopeKeyword => keywordScopeBy call
    | .identifier => identifierScopeBy call
    | _ => call statement
  | statement => do
    let t ← peek
    logDetail ("parsing statement at '" ++ t.lexeme ++ "'")
    statementFrom call t
  | block what => do
    let _ ← expectSymbol '{' ("to start " ++ what)
    enterNested
    let inside ← call statements
    let _ ← expectSymbol '}' ("to close " ++ what)
    leaveNested
    return inside
  | statements => manyRound (·.isSymbol '}') (call statement) (call statements)
  | members => manyRound (·.isSymbol '}') member (call members)
  | functions => manyRound (·.isSymbol '}') (methodBy call) (call functions)
  | expression => do
    let first ← primary (call expression)
    call (operators first)
  | operators left => do
    match ← matchOperator with
    | none => return left
    | some op =>
      let right ← primary (call expression)
      call (operators (.binary left op right))
  | arguments what => commaStart (call expression) (call (furtherArguments what))
  | furtherArguments what =>
    commaRound (call expression) ("',' or ')' in " ++ what ++ " arguments")
      (call (furtherArguments what))
  | furtherParameters =>
    commaRound parameter "',' or ')' in parameter list" (call furtherParameters)
  | functionScope => do
    let f ← signatureBy call ScopeKeyword.function.word
    logDetail ("parsed function: " ++ f.header.name)
    return f
  | namedScope => do
    let name ← expectIdentifier "scope name"
    let inside ← call (block "named scope")
    logDetail ("parsed named scope: " ++ name)
    return (name, inside)
  | unnamedScope => do
    let inside ← call (block "unnamed scope")
    logDetail "parsed unnamed scope"
    return inside

end Bodies

/-! ## What calls make smaller -/

/-- The rank of a routine: it calls only routines of lower rank before it has read a token.  Before
a reserved word a scope calls no statement, and a statement calls a scope only there. -/
def rank (c : Routine) (p : Parser) : Nat :=
  match c with
  | program => 6
  | nodes => 5
  | statements => 4
  | scope => if p.peek.kind = .scopeKeyword then 2 else 4
  | statement => 3
  | unnamedScope | arguments _ => 1
  | _ => 0

/-- The tokens ahead, and then the rank. -/
def weight (c : Routine) (p : Parser) : Nat := 7 * p.ahead.length + c.rank p

theorem rank_le (c : Routine) (p : Parser) : c.rank p ≤ 6 := by
  unfold rank
  split
  all_goals first | omega | (split <;> omega)

end Routine

end ScopeFront
