import ScopeFront.Error

/-!
# Reports

A report shows an error with the line it stands on and a caret under its column.

* `sourceLines` – the lines of a source text;
* `sourceLine` – the line that a report shows;
* `report` – the report.
-/

set_option autoImplicit false

namespace ScopeFront

/-- The pieces of a text between line feeds. -/
def splitLines : List Char → List (List Char)
  | [] => [[]]
  | c :: cs =>
    if c = '\n' then [] :: splitLines cs
    else
      match splitLines cs with
      | [] => [[c]]
      | line :: lines => (c :: line) :: lines

/-- A line without a carriage return at its end. -/
def dropReturn (line : List Char) : List Char :=
  if line.getLast? = some '\r' then line.dropLast else line

/-- The lines of a text: its pieces between line feeds, but no empty last one, each without a
carriage return at its end where a line feed ended it. -/
def sourceLines (cs : List Char) : List (List Char) :=
  let pieces := splitLines cs
  let last := pieces.getLastD []
  pieces.dropLast.map dropReturn ++ if last.isEmpty then [] else [last]

/-- The line with this number, counted from one, and empty where there is none; a line zero counts
as the first. -/
def sourceLine (source : String) (line : Nat) : List Char :=
  (sourceLines source.toList).getD (line - 1) []

/-- A number, filled up with spaces on the left to three places. -/
def lineNumber (n : Nat) : String :=
  let digits := toString n
  String.ofList (List.replicate (3 - digits.length) ' ') ++ digits

/-- The report of an error in the text `source` of the file `file`. -/
def report (file source : String) (e : FrontError) : String :=
  "error[" ++ e.code ++ "]: " ++ e.message ++ "\n"
    ++ "  --> " ++ file ++ ":" ++ e.span.text ++ "\n"
    ++ "   |\n"
    ++ lineNumber e.span.line ++ " | " ++ String.ofList (sourceLine source e.span.line) ++ "\n"
    ++ "   | " ++ String.ofList (List.replicate e.span.column ' ') ++ "^\n"
    ++ match e.help with
      | none => ""
      | some help => "\nhelp: " ++ help ++ "\n"

end ScopeFront
