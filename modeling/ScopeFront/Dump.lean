import ScopeFront.Node
import ScopeFront.Text.Quoted

/-!
# Dumps

A dump shows every part of a program with its name, on one line or on indented lines.

* `Dump` – named records, named tuples, lists and plain texts;
* `Dump.compact`, `Dump.pretty` – the text on one line and on indented lines;
* `Node.toDump`, `Dump.ofForest` – the dump of a node and of a program.
-/

set_option autoImplicit false

namespace ScopeFront

/-- What is shown of a value. -/
inductive Dump where
  | atom (text : String)
  | tuple (name : String) (items : List Dump)
  | record (name : String) (fields : List (String × Dump))
  | list (items : List Dump)
deriving Repr

namespace Dump

/-! ## Text -/

mutual

/-- The value on one line. -/
def compact : Dump → String
  | .atom text => text
  | .tuple name items => name ++ "(" ++ compactItems items ++ ")"
  | .record name fields => name ++ " \x7b " ++ compactFields fields ++ " \x7d"
  | .list items => "[" ++ compactItems items ++ "]"

/-- Items with commas between them. -/
def compactItems : List Dump → String
  | [] => ""
  | [item] => item.compact
  | item :: items => item.compact ++ ", " ++ compactItems items

/-- Named fields with commas between them. -/
def compactFields : List (String × Dump) → String
  | [] => ""
  | [(key, value)] => key ++ ": " ++ value.compact
  | (key, value) :: fields => key ++ ": " ++ value.compact ++ ", " ++ compactFields fields

end

/-- Four spaces for each level. -/
def indent (depth : Nat) : String := String.ofList (List.replicate (4 * depth) ' ')

mutual

/-- The value on indented lines, inside `depth` levels. -/
def prettyAt (depth : Nat) : Dump → String
  | .atom text => text
  | .tuple name items =>
    name ++ "(\n" ++ prettyItems (depth + 1) items ++ indent depth ++ ")"
  | .record name fields =>
    name ++ " \x7b\n" ++ prettyFields (depth + 1) fields ++ indent depth ++ "\x7d"
  | .list [] => "[]"
  | .list items => "[\n" ++ prettyItems (depth + 1) items ++ indent depth ++ "]"

/-- Items, each on a line of its own with a comma behind it. -/
def prettyItems (depth : Nat) : List Dump → String
  | [] => ""
  | item :: items => indent depth ++ prettyAt depth item ++ ",\n" ++ prettyItems depth items

/-- Named fields, each on a line of its own with a comma behind it. -/
def prettyFields (depth : Nat) : List (String × Dump) → String
  | [] => ""
  | (key, value) :: fields =>
    indent depth ++ key ++ ": " ++ prettyAt depth value ++ ",\n" ++ prettyFields depth fields

end

/-- The value on indented lines. -/
def pretty (value : Dump) : String := prettyAt 0 value

/-! ## Programs -/

/-- A quoted text. -/
def string (text : String) : Dump := .atom (Text.quoted text)

/-- A value that may be left out. -/
def optional : Option Dump → Dump
  | none => .atom "None"
  | some value => .tuple "Some" [value]

end Dump

/-- The name of the type in a dump. -/
def TypeKeyword.toDump : TypeKeyword → Dump
  | .int => .atom "Int"

/-- The name of the operation in a dump. -/
def OperatorKeyword.toDump : OperatorKeyword → Dump
  | .out => .atom "Out"
  | .inc => .atom "Inc"
  | .dec => .atom "Dec"
  | .jump => .atom "Jump"

/-- An expression in a dump. -/
def Expr.toDump : Expr → Dump
  | identifier name => .tuple "Identifier" [.string name]
  | literal digits => .tuple "Literal" [.string digits]
  | binary left op right =>
    .record "Binary"
      [("left", left.toDump), ("operator", .atom op.name), ("right", right.toDump)]

/-- A parameter or member in a dump. -/
def TypedName.toDump (name : String) (d : TypedName) : Dump :=
  .record name [("name", .string d.name), ("ty", d.type.toDump)]

/-- The fields that a header contributes. -/
def Header.toDumpFields (h : Header) : List (String × Dump) :=
  [("name", .string h.name),
   ("parameters", .optional (h.parameters.map fun ps => .list (ps.map (·.toDump "Parameter")))),
   ("return_type", .optional (h.returnType.map TypeKeyword.toDump))]

mutual

/-- A node in a dump. -/
def Node.toDump : Node → Dump
  | .function f => .tuple "Function" [.record "FunctionScope" f.toDumpFields]
  | .forLoop condition body =>
    .tuple "For" [.record "ForScope"
      [("condition", .tuple "Condition" [condition.toDump]), ("body", .list (Node.toDumps body))]]
  | .struct name members =>
    .tuple "Struct" [.record "StructScope"
      [("name", .optional (name.map .string)),
       ("members", .list (members.map (·.toDump "Member")))]]
  | .implement name functions =>
    .tuple "Implement" [.record "ImplementScope"
      [("name", .optional (name.map .string)),
       ("functions", .list (Function.toDumps functions))]]
  | .labeled label f =>
    .tuple "Labeled" [.record "LabeledScope" (("label", .string label) :: f.toDumpFields)]
  | .namedScope name body =>
    .tuple "NamedScope" [.record "NamedScope"
      [("name", .string name), ("body", .list (Node.toDumps body))]]
  | .unnamedScope body =>
    .tuple "UnnamedScope" [.record "UnnamedScope" [("body", .list (Node.toDumps body))]]
  | .declaration name type value =>
    .record "VariableDeclaration"
      [("name", .string name), ("ty", type.toDump), ("value", value.toDump)]
  | .assignment target value =>
    .record "Assignment" [("target", .string target), ("value", value.toDump)]
  | .ret value => .tuple "Return" [.optional (value.map Expr.toDump)]
  | .call callee arguments =>
    .record "FunctionCall"
      [("callee", .string callee), ("arguments", .list (arguments.map Expr.toDump))]
  | .operator keyword arguments =>
    .record "Operator"
      [("keyword", keyword.toDump), ("arguments", .list (arguments.map Expr.toDump))]

/-- The fields of a function in a dump. -/
def Function.toDumpFields : Function → List (String × Dump)
  | .mk header body => header.toDumpFields ++ [("body", .list (Node.toDumps body))]

/-- Nodes in a dump, in order. -/
def Node.toDumps : List Node → List Dump
  | [] => []
  | n :: ns => n.toDump :: Node.toDumps ns

/-- Functions in a dump, in order. -/
def Function.toDumps : List Function → List Dump
  | [] => []
  | f :: fs => .record "FunctionScope" f.toDumpFields :: Function.toDumps fs

end

/-- The dump of a program. -/
def Dump.ofForest (nodes : List Node) : Dump := .list (nodes.map Node.toDump)

end ScopeFront
