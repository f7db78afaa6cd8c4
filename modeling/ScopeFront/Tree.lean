import ScopeFront.Node
import ScopeFront.Text.Quoted

/-!
# Trees

A tree is the uniform view of a program: every construct is a kind, a value and children.  A scope
has its name, its parameters and its return type, so far as it has them, before its body.

* `Tree`, `TreeKind` – trees and the kinds of their nodes;
* `Node.toTree`, `Tree.forest` – the view of a node and of a program;
* `Tree.walk` – the nodes of a tree, parents before children;
* `Tree.outline` – a tree as indented lines.
-/

set_option autoImplicit false

namespace ScopeFront

/-- The kind of a node of a tree. -/
inductive TreeKind where
  | scope
  | namedScope
  | unnamedScope
  | identifier
  | parameters
  | parameter
  | returnType
  | type
  | member
  | condition
  | variableDeclaration
  | assignment
  | returnStatement
  | functionCall
  | operator
  | expression
deriving DecidableEq, Repr

/-- The name of the kind. -/
def TreeKind.name : TreeKind → String
  | scope => "Scope"
  | namedScope => "NamedScope"
  | unnamedScope => "UnnamedScope"
  | identifier => "Identifier"
  | parameters => "Parameters"
  | parameter => "Parameter"
  | returnType => "ReturnType"
  | type => "Type"
  | member => "Member"
  | condition => "Condition"
  | variableDeclaration => "VariableDeclaration"
  | assignment => "Assignment"
  | returnStatement => "ReturnStatement"
  | functionCall => "FunctionCall"
  | operator => "Operator"
  | expression => "Expression"

/-- All kinds. -/
def TreeKind.all : List TreeKind :=
  [scope, namedScope, unnamedScope, identifier, parameters, parameter, returnType, type, member,
   condition, variableDeclaration, assignment, returnStatement, functionCall, operator, expression]

/-- The kind with this name, if there is one. -/
def TreeKind.ofName? (name : String) : Option TreeKind :=
  all.find? (·.name == name)

/-- A node with a kind, a value and children. -/
inductive Tree where
  | node (kind : TreeKind) (value : String) (children : List Tree)
deriving Repr

namespace Tree

/-- The kind of the root. -/
def kind : Tree → TreeKind
  | node k _ _ => k

/-- The value of the root. -/
def value : Tree → String
  | node _ v _ => v

/-- The children of the root. -/
def children : Tree → List Tree
  | node _ _ cs => cs

/-- A tree without children. -/
def leaf (kind : TreeKind) (value : String) : Tree := node kind value []

end Tree

/-! ## The view of a program -/

/-- The tree of a type. -/
def TypeKeyword.toTree (type : TypeKeyword) : Tree := .leaf .type type.word

/-- The tree of an expression: operations have their operands as children. -/
def Expr.toTree : Expr → Tree
  | identifier name => .leaf .expression name
  | literal digits => .leaf .expression digits
  | binary left op right => .node .operator op.symbol [left.toTree, right.toTree]

/-- The tree of a parameter or member: its type below its name. -/
def TypedName.toTree (kind : TreeKind) (d : TypedName) : Tree :=
  .node kind d.name [d.type.toTree]

/-- The children that a header contributes. -/
def Header.toTrees (h : Header) : List Tree :=
  [.leaf .identifier h.name]
    ++ h.parameters.toList.map (fun ps => .node .parameters "" (ps.map (·.toTree .parameter)))
    ++ h.returnType.toList.map (fun type => .leaf .returnType type.word)

/-- The child that an optional name contributes. -/
def nameTrees (name : Option String) : List Tree :=
  name.toList.map (.leaf .identifier ·)

mutual

/-- The tree of a node. -/
def Node.toTree : Node → Tree
  | .function f => f.toTree ScopeKeyword.function.word
  | .forLoop condition body =>
    .node .scope ScopeKeyword.forLoop.word
      (.node .condition "" [condition.toTree] :: Node.toTrees body)
  | .struct name members =>
    .node .scope ScopeKeyword.struct.word (nameTrees name ++ members.map (·.toTree .member))
  | .implement name functions =>
    .node .scope ScopeKeyword.implement.word (nameTrees name ++ Function.toTrees functions)
  | .labeled label f => f.toTree label
  | .namedScope name body => .node .namedScope name (Node.toTrees body)
  | .unnamedScope body => .node .unnamedScope "" (Node.toTrees body)
  | .declaration name type value =>
    .node .variableDeclaration name [type.toTree, value.toTree]
  | .assignment target value => .node .assignment target [value.toTree]
  | .ret value => .node .returnStatement "return" (value.toList.map Expr.toTree)
  | .call callee arguments => .node .functionCall callee (arguments.map Expr.toTree)
  | .operator keyword arguments => .node .operator keyword.word (arguments.map Expr.toTree)

/-- The tree of a function behind the word `label`. -/
def Function.toTree (label : String) : Function → Tree
  | .mk header body => .node .scope label (header.toTrees ++ Node.toTrees body)

/-- The trees of nodes, in order. -/
def Node.toTrees : List Node → List Tree
  | [] => []
  | n :: ns => n.toTree :: Node.toTrees ns

/-- The trees of functions, in order. -/
def Function.toTrees : List Function → List Tree
  | [] => []
  | f :: fs => f.toTree ScopeKeyword.function.word :: Function.toTrees fs

end

/-- The trees of a program. -/
def Tree.forest (nodes : List Node) : List Tree := nodes.map Node.toTree

theorem Node.toTrees_eq_map (nodes : List Node) : Node.toTrees nodes = nodes.map Node.toTree := by
  induction nodes with
  | nil => simp [Node.toTrees]
  | cons n ns ih => simp [Node.toTrees, ih]

namespace Tree

/-! ## Walking a tree -/

mutual

/-- The number of nodes of a tree. -/
def size : Tree → Nat
  | node _ _ cs => 1 + sizes cs

/-- The number of nodes of a list of trees. -/
def sizes : List Tree → Nat
  | [] => 0
  | t :: ts => t.size + sizes ts

end

theorem sizes_append (ts us : List Tree) : sizes (ts ++ us) = sizes ts + sizes us := by
  induction ts with
  | nil => simp [sizes]
  | cons t ts ih => simp [sizes, ih, Nat.add_assoc]

/-- The nodes of the trees still to be visited: the first one, then its children, then the rest. -/
def walkFrom : List Tree → List Tree
  | [] => []
  | t :: pending => t :: walkFrom (t.children ++ pending)
termination_by pending => sizes pending
decreasing_by
  cases t
  simp only [children, sizes_append, sizes, size]
  omega

/-- The nodes of a tree, each before its children and those from first to last. -/
def walk (t : Tree) : List Tree := walkFrom [t]

/-! ## Outlines -/

/-- The line of a node: two spaces for each level, the kind, and the value unless it is empty. -/
def line (depth : Nat) (kind : TreeKind) (value : String) : String :=
  String.ofList (List.replicate (2 * depth) ' ') ++ kind.name
    ++ (if value.isEmpty then "" else " " ++ Text.quoted value) ++ "\n"

mutual

/-- The lines of a tree at a level. -/
def linesAt (depth : Nat) : Tree → List String
  | node kind value cs => line depth kind value :: forestLinesAt (depth + 1) cs

/-- The lines of a list of trees at a level. -/
def forestLinesAt (depth : Nat) : List Tree → List String
  | [] => []
  | t :: ts => linesAt depth t ++ forestLinesAt depth ts

end

/-- A tree as indented lines, one for each node. -/
def outline (t : Tree) : String := String.join (t.linesAt 0)

/-- The outlines of the trees of a program, one after the other. -/
def outlines (trees : List Tree) : String := String.join (forestLinesAt 0 trees)

end Tree

end ScopeFront
