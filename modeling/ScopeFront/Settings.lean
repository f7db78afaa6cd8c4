/-!
# Settings

* `UnmatchedPolicy` – what to do with characters that belong to no token;
* `Settings` – what a run of the front end can be told.
-/

set_option autoImplicit false

namespace ScopeFront

/-- What to do with characters that start no token, comment or blank. -/
inductive UnmatchedPolicy where
  /-- Stop with an error at the first one. -/
  | reject
  /-- Pass over them; an unclosed block comment then reads as two symbols. -/
  | skip
deriving DecidableEq, Repr

/-- The word for the policy in a settings file. -/
def UnmatchedPolicy.word : UnmatchedPolicy → String
  | .reject => "reject"
  | .skip => "skip"

/-- The policy with this name, if there is one. -/
def UnmatchedPolicy.ofWord? (spelling : String) : Option UnmatchedPolicy :=
  [UnmatchedPolicy.reject, .skip].find? (·.word == spelling)

/-- What a run of the front end can be told. -/
structure Settings where
  /-- Events up to this level are shown. -/
  verbosity : Nat := 0
  unmatched : UnmatchedPolicy := .reject
  /-- The deepest allowed nesting of bodies and parentheses together. -/
  maxDepth : Nat := 128
deriving DecidableEq, Repr

/-- The settings where nothing is said. -/
def Settings.default : Settings := {}

end ScopeFront
