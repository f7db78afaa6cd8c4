import ScopeFront.Expr
import ScopeFront.Keyword

/-!
# Programs

A program is a forest of nodes.  A node is a scope, which may hold further nodes, or a statement.

* `TypedName` – a parameter or a member;
* `Header` – what stands before the body of a function;
* `Node`, `Function` – scopes and statements;
* `Node.isScope`, `Node.label` – how a node is named in the log.
-/

set_option autoImplicit false

namespace ScopeFront

/-- A name with its declared type: a parameter of a function or a member of a structure. -/
structure TypedName where
  name : String
  type : TypeKeyword
deriving DecidableEq, Repr

/-- A name, an optional parameter list and an optional return type.  A list that was left out
differs from an empty one. -/
structure Header where
  name : String
  parameters : Option (List TypedName)
  returnType : Option TypeKeyword
deriving DecidableEq, Repr

mutual

/-- A scope or a statement. -/
inductive Node where
  /-- `function name(…): type { … }` -/
  | function (f : Function)
  /-- `for (condition) { … }` -/
  | forLoop (condition : Expr) (body : List Node)
  /-- `struct name { type name; … }` -/
  | struct (name : Option String) (members : List TypedName)
  /-- `implement name { function … }` -/
  | implement (name : Option String) (functions : List Function)
  /-- `label name(…): type { … }`: the shape of a function with another introducing word. -/
  | labeled (label : String) (f : Function)
  /-- `name { … }` -/
  | namedScope (name : String) (body : List Node)
  /-- `{ … }` -/
  | unnamedScope (body : List Node)
  /-- `type name = value;` -/
  | declaration (name : String) (type : TypeKeyword) (value : Expr)
  /-- `target = value;` -/
  | assignment (target : String) (value : Expr)
  /-- `return;` or `return value;` -/
  | ret (value : Option Expr)
  /-- `callee(…);` -/
  | call (callee : String) (arguments : List Expr)
  /-- `out(…);` and the like. -/
  | operator (keyword : OperatorKeyword) (arguments : List Expr)
deriving Repr

/-- A header with a body. -/
inductive Function where
  | mk (header : Header) (body : List Node)
deriving Repr

end

/-- What stands before the body. -/
def Function.header : Function → Header
  | .mk header _ => header

/-- The nodes between the braces. -/
def Function.body : Function → List Node
  | .mk _ body => body

namespace Node

/-- Whether the node is a scope rather than a statement. -/
def isScope : Node → Bool
  | function _ | forLoop .. | struct .. | implement .. | labeled .. | namedScope ..
  | unnamedScope _ => true
  | declaration .. | assignment .. | ret _ | call .. | operator .. => false

/-- The node in a few words. -/
def label : Node → String
  | function f => "function " ++ f.header.name
  | forLoop .. => "for"
  | struct name _ => "struct " ++ name.getD ""
  | implement name _ => "implement " ++ name.getD ""
  | labeled label f => label ++ " " ++ f.header.name
  | namedScope name _ => "named scope " ++ name
  | unnamedScope _ => "unnamed scope"
  | declaration name .. => "declaration " ++ name
  | assignment target _ => "assignment " ++ target
  | ret _ => "return"
  | call callee _ => "call " ++ callee
  | operator keyword _ => "operator " ++ keyword.word

end Node

end ScopeFront
