/-!
# Log events

The stages of the front end log what they do.  An event of a level is shown when the verbosity
reaches that level; an event without a level is an error and is always shown.

* `Event` – one log entry;
* `Event.shown` – whether a verbosity shows it.
-/

set_option autoImplicit false

namespace ScopeFront

/-- How much detail an event gives. -/
inductive Level where
  /-- The start and the end of a stage. -/
  | phase
  /-- A token or a construct that was read. -/
  | detail
  /-- Blanks and comments that were passed over. -/
  | trivia
deriving DecidableEq, Repr

/-- The least verbosity that shows events of the level. -/
def Level.rank : Level → Nat
  | .phase => 1
  | .detail => 2
  | .trivia => 3

/-- A log entry of a stage; an error has no level. -/
structure Event where
  stage : String
  level : Option Level
  message : String
deriving DecidableEq, Repr

namespace Event

/-- An entry of a level. -/
def debug (stage : String) (level : Level) (message : String) : Event :=
  ⟨stage, some level, message⟩

/-- An error entry. -/
def error (stage message : String) : Event :=
  ⟨stage, none, message⟩

/-- The entry for an error that ends the stage. -/
def fatal (stage message : String) : Event :=
  error stage ("fatal: " ++ message)

/-- Errors are always shown, other entries when the verbosity reaches their level. -/
def shown (verbosity : Nat) (e : Event) : Bool :=
  e.level.all (·.rank ≤ verbosity)

end Event

end ScopeFront
