/-!
# Reserved words

The language reserves nine words in three groups: words that introduce a scope, names of types and
built-in operations.  Every other word, `return` included, is an identifier.

* `ScopeKeyword`, `TypeKeyword`, `OperatorKeyword` – the groups, each with `word` and `ofWord?`;
* `ofWord?_word` (one for each group) – a reserved word is read back from its spelling.
-/

set_option autoImplicit false

namespace ScopeFront

/-- The words that introduce a scope. -/
inductive ScopeKeyword where
  | function
  | forLoop
  | struct
  | implement
deriving DecidableEq, Repr

/-- The names of types. -/
inductive TypeKeyword where
  | int
deriving DecidableEq, Repr

/-- The built-in operations, which are written like calls. -/
inductive OperatorKeyword where
  | out
  | inc
  | dec
  | jump
deriving DecidableEq, Repr

namespace ScopeKeyword

/-- The spelling of the word. -/
def word : ScopeKeyword → String
  | function => "function"
  | forLoop => "for"
  | struct => "struct"
  | implement => "implement"

/-- The word with this spelling, if there is one. -/
def ofWord? (spelling : String) : Option ScopeKeyword :=
  [function, forLoop, struct, implement].find? (·.word == spelling)

theorem ofWord?_word (k : ScopeKeyword) : ofWord? k.word = some k := by
  cases k <;> decide

end ScopeKeyword

namespace TypeKeyword

/-- The spelling of the type's name. -/
def word : TypeKeyword → String
  | int => "int"

/-- The type with this spelling, if there is one. -/
def ofWord? (spelling : String) : Option TypeKeyword :=
  [int].find? (·.word == spelling)

theorem ofWord?_word (k : TypeKeyword) : ofWord? k.word = some k := by
  cases k; decide

end TypeKeyword

namespace OperatorKeyword

/-- The spelling of the operation. -/
def word : OperatorKeyword → String
  | out => "out"
  | inc => "inc"
  | dec => "dec"
  | jump => "jump"

/-- The operation with this spelling, if there is one. -/
def ofWord? (spelling : String) : Option OperatorKeyword :=
  [out, inc, dec, jump].find? (·.word == spelling)

theorem ofWord?_word (k : OperatorKeyword) : ofWord? k.word = some k := by
  cases k <;> decide

end OperatorKeyword

end ScopeFront
