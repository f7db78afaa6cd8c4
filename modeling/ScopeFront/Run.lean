import ScopeFront.CommandLine
import ScopeFront.Dump
import ScopeFront.FileTree
import ScopeFront.Json
import ScopeFront.Report
import ScopeFront.Settings.Reader
import ScopeFront.Program

/-!
# Running commands

A command reads files and writes to two channels; what it reads comes from a function on paths, so
that a run is a function of the invocation and the files.

* `Result` – the exit code and both channels;
* `Invocation.settings` – the settings of a run;
* `Invocation.run` – the result of a run.
-/

set_option autoImplicit false

namespace ScopeFront

/-- What reading a path as text gives. -/
abbrev Files : Type := String → Except ReadFailure String

/-- The exit code of a run and what it writes. -/
structure Result where
  code : Nat
  stdout : String
  stderr : String
deriving DecidableEq, Repr

/-! ## Settings -/

/-- Why a settings file is of no use. -/
inductive SettingsError where
  | unreadable (failure : ReadFailure)
  | invalid (fault : Settings.Fault)
deriving DecidableEq, Repr

/-- What is wrong with a settings file. -/
def SettingsError.message : SettingsError → String
  | unreadable failure => "could not read config file: " ++ failure.message
  | invalid _ => "invalid config"

/-- The settings in a file. -/
def Settings.ofFile (files : Files) (path : String) : Except SettingsError Settings :=
  match files path with
  | .error failure => .error (.unreadable failure)
  | .ok text =>
    match Settings.ofJson text with
    | .error fault => .error (.invalid fault)
    | .ok settings => .ok settings

/-- The settings of a run: those of the settings file, if there is one, as the options change
them. -/
def CommonOptions.settings (files : Files) (o : CommonOptions) : Except String Settings := do
  let settings ←
    match o.config with
    | none => pure Settings.default
    | some path =>
      match Settings.ofFile files path with
      | .error e => .error (path ++ ": " ++ e.message)
      | .ok settings => .ok settings
  let settings :=
    if o.verbose = 0 then settings else { settings with verbosity := o.verbose }
  return if o.lenient then { settings with unmatched := .skip } else settings

/-! ## The log -/

/-- How a log line shows a character: those that steer a terminal by their number. -/
def logChar (c : Char) : List Char :=
  if c = '\x1b' ∨ c = '\x07' ∨ c = '\x08' ∨ c = '\x0c' ∨ c = '\x7f' then
    '\\' :: 'x' :: (if c.toNat < 16 then ['0'] else []) ++ Nat.toDigits 16 c.toNat
  else if 0x80 ≤ c.toNat ∧ c.toNat ≤ 0x9f then Text.charByNumber c
  else [c]

/-- The line of an event in the log. -/
def Event.logLine (e : Event) : String :=
  let message := String.ofList (e.message.toList.flatMap logChar)
  let stage := " stage=" ++ Text.quoted e.stage
  match e.level with
  | none => "ERROR scopelang::diagnostics::logger: " ++ message ++ stage ++ "\n"
  | some level =>
    "DEBUG scopelang::diagnostics::logger: " ++ message ++ stage ++ s!" level={level.rank}\n"

/-- The log as it is written; without verbosity nothing is. -/
def logText (verbosity : Nat) (log : List Event) : String :=
  if verbosity = 0 then ""
  else String.join ((shownEvents verbosity log).map Event.logLine)

/-! ## Commands -/

/-- A source text with the name that reports show. -/
structure Source where
  name : String
  text : String
deriving DecidableEq, Repr

/-- The source in a file. -/
def Source.ofFile (files : Files) (path : String) : Except String Source :=
  match files path with
  | .error failure => .error ("could not read " ++ path ++ ": " ++ failure.message)
  | .ok text => .ok ⟨path, text⟩

/-- The source that an input gives. -/
def Input.load (files : Files) : Input → Except String Source
  | .file path => Source.ofFile files path
  | .inline source => .ok ⟨"<eval>", source⟩

/-- The line on standard error for a reason that has no place in a source. -/
def errorLine (reason : String) : String := "error: " ++ reason ++ "\n"

/-- The line of a token in a listing: its category in sixteen columns, its text and its place. -/
def Token.listingLine (t : Token) : String :=
  let kind := t.kind.name
  kind ++ String.ofList (List.replicate (16 - kind.length) ' ')
    ++ " '" ++ t.lexeme ++ "' @" ++ t.span.text ++ "\n"

/-- Lists the tokens of a source. -/
def runTokens (settings : Settings) (source : Source) : Result :=
  match tokenize settings.unmatched source.text with
  | (log, .error e) =>
    ⟨1, "", logText settings.verbosity log ++ report source.name source.text (.lex e)⟩
  | (log, .ok tokens) =>
    ⟨0, String.join (tokens.map Token.listingLine), logText settings.verbosity log⟩

/-- A program in a format. -/
def Format.render (forest : List Node) : Format → String
  | tree => Tree.outlines (Tree.forest forest)
  | json => (Json.ofForest forest).pretty ++ "\n"
  | debug => (Dump.ofForest forest).pretty ++ "\n"

/-- Shows the program of a source. -/
def runParse (settings : Settings) (format : Format) (source : Source) : Result :=
  match parseSource settings source.text with
  | (log, .error e) =>
    ⟨1, "", logText settings.verbosity log ++ report source.name source.text e⟩
  | (log, .ok forest) => ⟨0, format.render forest, logText settings.verbosity log⟩

/-- The verdict on one file of a batch. -/
structure Verdict where
  path : String
  accepted : Bool
  stderr : String
deriving DecidableEq, Repr

/-- Whether a file is a program, and what is written about it. -/
def Verdict.ofFile (files : Files) (settings : Settings) (path : String) : Verdict :=
  match Source.ofFile files path with
  | .error reason => ⟨path, false, errorLine reason⟩
  | .ok source =>
    match parseSource settings source.text with
    | (log, .ok _) => ⟨path, true, logText settings.verbosity log⟩
    | (log, .error e) =>
      ⟨path, false, logText settings.verbosity log ++ report source.name source.text e⟩

/-- The line of a verdict. -/
def Verdict.line (v : Verdict) : String :=
  v.path ++ (if v.accepted then ": ok\n" else ": error\n")

/-- Says of each file whether it is a program, and counts those that are none. -/
def runCheck (files : Files) (settings : Settings) (paths : List String) : Result :=
  let verdicts := paths.map (Verdict.ofFile files settings)
  let failed := (verdicts.filter (!·.accepted)).length
  { code := if failed = 0 then 0 else 1
    stdout := String.join (verdicts.map Verdict.line)
      ++ s!"{paths.length} checked, {failed} failed\n"
    stderr := String.join (verdicts.map Verdict.stderr) }

/-- The result of a run that fails before it starts. -/
def Result.refused (reason : String) : Result := ⟨2, "", errorLine reason⟩

/-- Runs a command on the source of an input. -/
def withInput (files : Files) (input : Input) (run : Source → Result) : Result :=
  match input.load files with
  | .error reason => .refused reason
  | .ok source => run source

/-- Runs a command. -/
def Command.run (files : Files) (settings : Settings) : Command → Result
  | tokens input => withInput files input (runTokens settings)
  | parse input format => withInput files input (runParse settings format)
  | check paths => runCheck files settings paths

/-- Runs a command with its options. -/
def Invocation.run (files : Files) (i : Invocation) : Result :=
  match i.options.settings files with
  | .error reason => .refused reason
  | .ok settings => i.command.run files settings

/-- The paths of the files that a run may read. -/
def Invocation.paths (i : Invocation) : List String :=
  i.options.config.toList ++
    match i.command with
    | .tokens (.file path) | .parse (.file path) _ => [path]
    | .tokens (.inline _) | .parse (.inline _) _ => []
    | .check paths => paths

/-- What is written for the version. -/
def versionText : String := "scopelang 0.1.0\n"

end ScopeFront
