import ScopeFront.Tree

/-!
# Programs as JSON

A node is an object with one field, named for the kind of node, that holds its parts in their
order.  What may be left out is `null` when it is.

* `Json`, `Json.pretty` – the values that occur, and their text on indented lines;
* `Node.toJson`, `Function.toJson`, `Tree.toJson` – programs and trees as values.
-/

set_option autoImplicit false

namespace ScopeFront

/-- The JSON values that programs and trees need. -/
inductive Json where
  | null
  | string (text : String)
  | array (items : List Json)
  | object (fields : List (String × Json))
deriving Repr

namespace Json

/-! ## Text -/

/-- A control character by its number, in four lower-case hexadecimal digits. -/
def escapeByNumber (c : Char) : List Char :=
  let digits := Nat.toDigits 16 c.toNat
  '\\' :: 'u' :: (List.replicate (4 - digits.length) '0' ++ digits)

/-- How a character is written in a JSON string. -/
def escapeChar (c : Char) : List Char :=
  if c = '"' then ['\\', '"']
  else if c = '\\' then ['\\', '\\']
  else if c = '\x08' then ['\\', 'b']
  else if c = '\x0c' then ['\\', 'f']
  else if c = '\n' then ['\\', 'n']
  else if c = '\r' then ['\\', 'r']
  else if c = '\t' then ['\\', 't']
  else if c.toNat < 32 then escapeByNumber c
  else [c]

/-- A JSON string. -/
def stringText (text : String) : String :=
  String.ofList ('"' :: (text.toList.flatMap escapeChar ++ ['"']))

/-- A line break and two spaces for each level. -/
def newline (depth : Nat) : String :=
  "\n" ++ String.ofList (List.replicate (2 * depth) ' ')

mutual

/-- The text of a value inside `depth` arrays and objects. -/
def prettyAt (depth : Nat) : Json → String
  | .null => "null"
  | .string text => stringText text
  | .array [] => "[]"
  | .array (item :: items) =>
    "[" ++ newline (depth + 1) ++ prettyAt (depth + 1) item ++ moreItems (depth + 1) items
      ++ newline depth ++ "]"
  | .object [] => "\x7b\x7d"
  | .object ((key, value) :: fields) =>
    "\x7b" ++ newline (depth + 1) ++ stringText key ++ ": " ++ prettyAt (depth + 1) value
      ++ moreFields (depth + 1) fields ++ newline depth ++ "\x7d"

/-- Further items of an array, each behind a comma and on a line of its own. -/
def moreItems (depth : Nat) : List Json → String
  | [] => ""
  | item :: items => "," ++ newline depth ++ prettyAt depth item ++ moreItems depth items

/-- Further fields of an object, each behind a comma and on a line of its own. -/
def moreFields (depth : Nat) : List (String × Json) → String
  | [] => ""
  | (key, value) :: fields =>
    "," ++ newline depth ++ stringText key ++ ": " ++ prettyAt depth value
      ++ moreFields depth fields

end

/-- The text of a value, each item and field on a line of its own. -/
def pretty (value : Json) : String := prettyAt 0 value

/-- A value that may be left out. -/
def optional : Option Json → Json
  | none => .null
  | some value => value

/-- An object with one field, which names a variant. -/
def variant (name : String) (value : Json) : Json := .object [(name, value)]

end Json

/-! ## Programs -/

/-- An expression as a value. -/
def Expr.toJson : Expr → Json
  | identifier name => .variant "Identifier" (.string name)
  | literal digits => .variant "Literal" (.string digits)
  | binary left op right =>
    .variant "Binary" (.object
      [("left", left.toJson), ("operator", .string op.name), ("right", right.toJson)])

/-- A list of expressions as a value. -/
def Expr.listToJson (es : List Expr) : Json := .array (es.map Expr.toJson)

/-- A type as a value. -/
def TypeKeyword.toJson (type : TypeKeyword) : Json := .string type.word

/-- A parameter or member as a value. -/
def TypedName.toJson (d : TypedName) : Json :=
  .object [("name", .string d.name), ("ty", d.type.toJson)]

/-- A list of parameters or members as a value. -/
def TypedName.listToJson (ds : List TypedName) : Json := .array (ds.map TypedName.toJson)

/-- The fields that a header contributes. -/
def Header.toFields (h : Header) : List (String × Json) :=
  [("name", .string h.name),
   ("parameters", .optional (h.parameters.map TypedName.listToJson)),
   ("return_type", .optional (h.returnType.map TypeKeyword.toJson))]

mutual

/-- A node as a value. -/
def Node.toJson : Node → Json
  | .function f => .variant "Function" (.object f.toFields)
  | .forLoop condition body =>
    .variant "For" (.object [("condition", condition.toJson), ("body", .array (Node.toJsons body))])
  | .struct name members =>
    .variant "Struct" (.object
      [("name", .optional (name.map .string)), ("members", TypedName.listToJson members)])
  | .implement name functions =>
    .variant "Implement" (.object
      [("name", .optional (name.map .string)), ("functions", .array (Function.toJsons functions))])
  | .labeled label f =>
    .variant "Labeled" (.object (("label", .string label) :: f.toFields))
  | .namedScope name body =>
    .variant "NamedScope" (.object [("name", .string name), ("body", .array (Node.toJsons body))])
  | .unnamedScope body =>
    .variant "UnnamedScope" (.object [("body", .array (Node.toJsons body))])
  | .declaration name type value =>
    .variant "VariableDeclaration" (.object
      [("name", .string name), ("ty", type.toJson), ("value", value.toJson)])
  | .assignment target value =>
    .variant "Assignment" (.object [("target", .string target), ("value", value.toJson)])
  | .ret value => .variant "Return" (.optional (value.map Expr.toJson))
  | .call callee arguments =>
    .variant "FunctionCall" (.object
      [("callee", .string callee), ("arguments", Expr.listToJson arguments)])
  | .operator keyword arguments =>
    .variant "Operator" (.object
      [("keyword", .string keyword.word), ("arguments", Expr.listToJson arguments)])

/-- The fields of a function. -/
def Function.toFields : Function → List (String × Json)
  | .mk header body => header.toFields ++ [("body", .array (Node.toJsons body))]

/-- Nodes as values, in order. -/
def Node.toJsons : List Node → List Json
  | [] => []
  | n :: ns => n.toJson :: Node.toJsons ns

/-- Functions as values, in order. -/
def Function.toJsons : List Function → List Json
  | [] => []
  | f :: fs => .object f.toFields :: Function.toJsons fs

end

/-- A function as a value. -/
def Function.toJson (f : Function) : Json := .object f.toFields

/-- A program as a value. -/
def Json.ofForest (nodes : List Node) : Json := .array (nodes.map Node.toJson)

/-! ## Trees -/

mutual

/-- A tree as a value. -/
def Tree.toJson : Tree → Json
  | .node kind value cs =>
    .object [("kind", .string kind.name), ("value", .string value),
      ("children", .array (Tree.toJsons cs))]

/-- Trees as values, in order. -/
def Tree.toJsons : List Tree → List Json
  | [] => []
  | t :: ts => t.toJson :: Tree.toJsons ts

end

end ScopeFront
