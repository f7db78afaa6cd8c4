/-!
# Expressions

All four operators have one precedence and associate to the left; parentheses group and leave no
trace in the tree.

* `BinaryOp`, `Expr` – operators and expressions;
* `Expr.text` – an expression with every operation in parentheses.
-/

set_option autoImplicit false

namespace ScopeFront

/-- The arithmetic operators. -/
inductive BinaryOp where
  | add
  | sub
  | mul
  | div
deriving DecidableEq, Repr

namespace BinaryOp

/-- The symbol of the operator. -/
def symbol : BinaryOp → String
  | add => "+"
  | sub => "-"
  | mul => "*"
  | div => "/"

/-- The name of the operator in structured output. -/
def name : BinaryOp → String
  | add => "Add"
  | sub => "Sub"
  | mul => "Mul"
  | div => "Div"

/-- The operator with this symbol, if there is one. -/
def ofSymbol? (spelling : String) : Option BinaryOp :=
  [add, sub, mul, div].find? (·.symbol == spelling)

theorem ofSymbol?_symbol (op : BinaryOp) : ofSymbol? op.symbol = some op := by
  cases op <;> decide

end BinaryOp

/-- An expression; a literal keeps its digits as they were written. -/
inductive Expr where
  | identifier (name : String)
  | literal (digits : String)
  | binary (left : Expr) (op : BinaryOp) (right : Expr)
deriving DecidableEq, Repr

namespace Expr

/-- The expression with every operation in parentheses, so that its grouping can be seen. -/
def text : Expr → String
  | identifier name => name
  | literal digits => digits
  | binary left op right => "(" ++ left.text ++ " " ++ op.symbol ++ " " ++ right.text ++ ")"

end Expr

end ScopeFront
