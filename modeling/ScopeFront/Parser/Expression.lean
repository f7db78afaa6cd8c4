import ScopeFront.Expr
import ScopeFront.Parser.Rule

/-!
# Reading expressions

An expression is a chain of primaries with operators between them, folded from the left.  A primary
is an identifier, a literal or an expression in parentheses, which opens a level.  The rules recurse
on the number of levels that may still be opened.

* `Rule.expressionAt` – an expression with a number of levels to open;
* `Rule.expression` – an expression with the levels that the parser has left;
* `Rule.arguments` – the arguments of a call.
-/

set_option autoImplicit false

namespace ScopeFront

namespace Rule

/-- An identifier or a literal. -/
def leaf : Rule Expr := do
  let t ← peek
  match t.kind with
  | .identifier =>
    let _ ← advance
    logDetail ("parsed primary expression: " ++ t.lexeme)
    return .identifier t.lexeme
  | .literal =>
    let _ ← advance
    logDetail ("parsed primary expression: " ++ t.lexeme)
    return .literal t.lexeme
  | _ => failExpected "primary expression"

/-- What follows an opening parenthesis: `inner` one level deeper, and the closing parenthesis. -/
def parenthesized (inner : Rule Expr) : Rule Expr := do
  enterNested
  let e ← inner
  let _ ← expectSymbol ')' "to close parenthesis"
  leaveNested
  return e

/-- A leaf, or `inner` in parentheses. -/
def primary (inner : Rule Expr) : Rule Expr := do
  if ← matchSymbol '(' then parenthesized inner else leaf

/-- The operator that a token stands for. -/
def operatorOf? (t : Token) : Option BinaryOp :=
  if t.kind = .symbol then BinaryOp.ofSymbol? t.lexeme else none

/-- Reads an operator if one is at the place. -/
def matchOperator : Rule (Option BinaryOp) := do
  match operatorOf? (← peek) with
  | some op =>
    let _ ← advance
    return some op
  | none => return none

/-- At most as many operators as there are `rounds`, each with an operand, folded onto `left`. -/
def operatorTailWithin (operand : Rule Expr) : List Token → Expr → Rule Expr
  | [], left => Rule.pure left
  | _ :: rounds, left => do
    match ← matchOperator with
    | none => return left
    | some op =>
      let right ← operand
      operatorTailWithin operand rounds (.binary left op right)

/-- A chain of operands, folded from the left. -/
def chain (operand : Rule Expr) : Rule Expr := do
  let first ← operand
  inspect fun p => operatorTailWithin operand p.ahead first

/-- An expression that opens at most `level` levels. -/
def expressionAt : Nat → Rule Expr
  | 0, p => chain (primary tooDeep) p
  | level + 1, p => chain (primary (expressionAt level)) p

/-- An expression. -/
def expression : Rule Expr := inspect fun p => expressionAt p.room

/-- Arguments, each read by `item`, behind the opening parenthesis of what is called `what`. -/
def argumentsWith (item : Rule Expr) (what : String) : Rule (List Expr) :=
  commaList item ("',' or ')' in " ++ what ++ " arguments")

/-- Arguments behind the opening parenthesis of what is called `what`. -/
def arguments (what : String) : Rule (List Expr) :=
  inspect fun p => argumentsWith (expressionAt p.room) what

end Rule

end ScopeFront
