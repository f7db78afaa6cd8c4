import ScopeFront.Parser.Forest
import ScopeFront.Scan

/-!
# From source text to programs

* `parseSource` – the forest of a source text, with the log of both stages;
* `shownEvents` – the part of a log that a verbosity shows.
-/

set_option autoImplicit false

namespace ScopeFront

/-- The forest of a source text, or the first error of either stage, with the whole log. -/
def parseSource (settings : Settings) (source : String) :
    List Event × Except FrontError (List Node) :=
  match tokenize settings.unmatched source with
  | (log, .error e) => (log, .error (.lex e))
  | (log, .ok tokens) =>
    match parseTokens settings.maxDepth tokens with
    | (log', .error e) => (log ++ log', .error (.parse e))
    | (log', .ok forest) => (log ++ log', .ok forest)

/-- The entries of a log that a verbosity shows. -/
def shownEvents (verbosity : Nat) (log : List Event) : List Event :=
  log.filter (·.shown verbosity)

end ScopeFront
