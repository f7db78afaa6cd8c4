/-!
# The command line

    scopelang tokens <FILE | -e SRC>
    scopelang parse  <FILE | -e SRC> [--format tree|json|debug]
    scopelang check  <FILE>...

The options `-v`, `--lenient` and `--config` may stand before or behind the name of the command.

* `Invocation` – a command with its options;
* `UsageError` – why arguments ask for nothing;
* `Request.ofArgs` – what arguments ask for.
-/

set_option autoImplicit false

namespace ScopeFront

/-! ## Commands -/

/-- Where source text comes from. -/
inductive Input where
  | file (path : String)
  | inline (source : String)
deriving DecidableEq, Repr

/-- How a program is shown. -/
inductive Format where
  | tree
  | json
  | debug
deriving DecidableEq, Repr

/-- The name of the format. -/
def Format.name : Format → String
  | tree => "tree"
  | json => "json"
  | debug => "debug"

/-- The format with this name, if there is one. -/
def Format.ofName? (name : String) : Option Format :=
  [Format.tree, json, debug].find? (·.name == name)

/-- What to do. -/
inductive Command where
  /-- Lists the tokens. -/
  | tokens (input : Input)
  /-- Shows the program. -/
  | parse (input : Input) (format : Format)
  /-- Says of each file whether it is a program. -/
  | check (files : List String)
deriving DecidableEq, Repr

/-- The options that every command has. -/
structure CommonOptions where
  /-- How often more detail was asked for. -/
  verbose : Nat := 0
  lenient : Bool := false
  config : Option String := none
deriving DecidableEq, Repr

/-- A command with its options. -/
structure Invocation where
  options : CommonOptions
  command : Command
deriving DecidableEq, Repr

/-- What arguments ask for. -/
inductive Request where
  | run (invocation : Invocation)
  | version
  | help
deriving DecidableEq, Repr

/-- Why arguments ask for nothing. -/
inductive UsageError where
  | unknownOption (option : String)
  | missingValue (option : String)
  | unneededValue (option : String)
  | repeatedOption (option : String)
  | emptyPath
  | unknownFormat (name : String)
  | unknownCommand (name : String)
  | missingCommand
  | extraArgument (argument : String)
  | fileAndInline
  | missingInput
deriving DecidableEq, Repr

/-- What is wrong with the arguments. -/
def UsageError.message : UsageError → String
  | unknownOption option => "unexpected option '" ++ option ++ "'"
  | missingValue option => "a value is required for '" ++ option ++ "'"
  | unneededValue option => "no value is allowed for '" ++ option ++ "'"
  | repeatedOption option => "the option '" ++ option ++ "' is given twice"
  | emptyPath => "a path is empty"
  | unknownFormat name => "unknown format '" ++ name ++ "'"
  | unknownCommand name => "unknown command '" ++ name ++ "'"
  | missingCommand => "a command is required"
  | extraArgument argument => "unexpected argument '" ++ argument ++ "'"
  | fileAndInline => "a file and inline source exclude each other"
  | missingInput => "a file or inline source is required"

/-! ## Options -/

/-- The options, of whatever command. -/
inductive Opt where
  | verbose
  | lenient
  | config
  | eval
  | format
  | help
  | version
deriving DecidableEq, Repr

namespace Opt

/-- The option's name behind two hyphens. -/
def long : Opt → String
  | verbose => "verbose"
  | lenient => "lenient"
  | config => "config"
  | eval => "eval"
  | format => "format"
  | help => "help"
  | version => "version"

/-- The option's letter behind one hyphen, if it has one. -/
def short? : Opt → Option Char
  | verbose => some 'v'
  | eval => some 'e'
  | help => some 'h'
  | version => some 'V'
  | lenient | config | format => none

/-- Whether a value belongs to the option. -/
def takesValue : Opt → Bool
  | config | eval | format => true
  | verbose | lenient | help | version => false

end Opt

/-- What was given so far, before or behind the name of the command. -/
structure Given where
  options : CommonOptions := {}
  eval : Option String := none
  format : Option Format := none
  paths : List String := []
deriving DecidableEq, Repr

/-- What ends the reading of arguments early. -/
inductive Stop where
  | usage (e : UsageError)
  | version
  | help
deriving DecidableEq, Repr

/-- Refuses an empty path. -/
def checkPath (path : String) : Except Stop String :=
  if path.isEmpty then .error (.usage .emptyPath) else .ok path

/-- The most often that more detail can be asked for. -/
def verboseBound : Nat := 255

namespace Given

/-- Adds an option without a value. -/
def addFlag (g : Given) (o : Opt) : Except Stop Given :=
  match o with
  | .help => .error .help
  | .version => .error .version
  | .verbose =>
    .ok { g with options := { g.options with verbose := min verboseBound (g.options.verbose + 1) } }
  | .lenient =>
    if g.options.lenient then .error (.usage (.repeatedOption o.long))
    else .ok { g with options := { g.options with lenient := true } }
  | .config | .eval | .format => .error (.usage (.missingValue o.long))

/-- Adds an option with its value. -/
def addValue (g : Given) (o : Opt) (value : String) : Except Stop Given :=
  match o with
  | .config =>
    if g.options.config.isSome then .error (.usage (.repeatedOption o.long))
    else do
      let path ← checkPath value
      return { g with options := { g.options with config := some path } }
  | .eval =>
    if g.eval.isSome then .error (.usage (.repeatedOption o.long))
    else .ok { g with eval := some value }
  | .format =>
    if g.format.isSome then .error (.usage (.repeatedOption o.long))
    else
      match Format.ofName? value with
      | none => .error (.usage (.unknownFormat value))
      | some format => .ok { g with format := some format }
  | .verbose | .lenient | .help | .version => .error (.usage (.unneededValue o.long))

/-- Adds a path. -/
def addPath (g : Given) (limit : Option Nat) (path : String) : Except Stop Given :=
  if limit.any (· ≤ g.paths.length) then .error (.usage (.extraArgument path))
  else do
    let path ← checkPath path
    return { g with paths := g.paths ++ [path] }

end Given

/-! ## Arguments -/

/-- The forms of an argument. -/
inductive Argument where
  /-- Two hyphens alone: no options follow. -/
  | endOfOptions
  /-- A long option, with the value behind an equals sign. -/
  | long (name : String) (value : Option String)
  /-- Short options in one. -/
  | short (letters : List Char)
  | plain (text : String)
deriving DecidableEq, Repr

/-- The form of an argument; a hyphen alone is no option. -/
def Argument.ofString (s : String) : Argument :=
  match s.toList with
  | ['-', '-'] => .endOfOptions
  | '-' :: '-' :: cs =>
    match cs.dropWhile (· != '=') with
    | [] => .long (String.ofList cs) none
    | _ :: value =>
      .long (String.ofList (cs.takeWhile (· != '='))) (some (String.ofList value))
  | '-' :: c :: cs => .short (c :: cs)
  | _ => .plain s

/-- Reads short options in one.  The first one that takes a value has the rest of the letters as its
value, without a leading equals sign; where no letters are left the value is still to come. -/
def readShort (options : List Opt) : List Char → Given → Except Stop (Given × Option Opt)
  | [], g => .ok (g, none)
  | c :: cs, g =>
    match options.find? (·.short? == some c) with
    | none => .error (.usage (.unknownOption (String.singleton c)))
    | some o =>
      if o.takesValue then
        match cs with
        | [] => .ok (g, some o)
        | '=' :: value => do return (← g.addValue o (String.ofList value), none)
        | value => do return (← g.addValue o (String.ofList value), none)
      else
        match g.addFlag o with
        | .error e => .error e
        | .ok g => readShort options cs g

/-- Reads a long option; where it takes a value and has none, the value is still to come. -/
def readLong (options : List Opt) (name : String) (value : Option String) (g : Given) :
    Except Stop (Given × Option Opt) :=
  match options.find? (·.long == name) with
  | none => .error (.usage (.unknownOption name))
  | some o =>
    match o.takesValue, value with
    | true, some v => do return (← g.addValue o v, none)
    | true, none => .ok (g, some o)
    | false, some _ => .error (.usage (.unneededValue name))
    | false, none => do return (← g.addFlag o, none)

/-- Adds what follows two hyphens alone. -/
def readPlain (limit : Option Nat) : List String → Given → Except Stop Given
  | [], g => .ok g
  | s :: rest, g =>
    match g.addPath limit s with
    | .error e => .error e
    | .ok g => readPlain limit rest g

/-- Reads arguments one after the other.  `wanted` is an option whose value must come next; that
value is no option.  Where `commands` holds a plain argument, reading ends there and gives it with
the arguments behind it. -/
def readArgs (options : List Opt) (limit : Option Nat) (commands : List String) :
    Option Opt → List String → Given → Except Stop (Given × Option (String × List String))
  | none, [], g => .ok (g, none)
  | some o, [], _ => .error (.usage (.missingValue o.long))
  | some o, s :: rest, g =>
    match Argument.ofString s with
    | .plain value =>
      match g.addValue o value with
      | .error e => .error e
      | .ok g => readArgs options limit commands none rest g
    | _ => .error (.usage (.missingValue o.long))
  | none, s :: rest, g =>
    if commands.contains s then .ok (g, some (s, rest))
    else
      match Argument.ofString s with
      | .endOfOptions =>
        match readPlain limit rest g with
        | .error e => .error e
        | .ok g => .ok (g, none)
      | .long name value =>
        match readLong options name value g with
        | .error e => .error e
        | .ok (g, wanted) => readArgs options limit commands wanted rest g
      | .short letters =>
        match readShort options letters g with
        | .error e => .error e
        | .ok (g, wanted) => readArgs options limit commands wanted rest g
      | .plain path =>
        match g.addPath limit path with
        | .error e => .error e
        | .ok g => readArgs options limit commands none rest g

/-! ## Requests -/

/-- The options behind the name of a command override or add to those before it. -/
def CommonOptions.merge (before behind : CommonOptions) : CommonOptions :=
  { verbose := if behind.verbose = 0 then before.verbose else behind.verbose
    lenient := before.lenient || behind.lenient
    config := behind.config <|> before.config }

/-- The options that every command has. -/
def commonOpts : List Opt := [.verbose, .lenient, .config, .help]

/-- Reads the arguments of a command. -/
def readCommandArgs (options : List Opt) (limit : Option Nat) (args : List String) :
    Except Stop Given := do
  let (given, _) ← readArgs (commonOpts ++ options) limit [] none args {}
  return given

/-- The one input that was given. -/
def Given.input (g : Given) : Except Stop Input :=
  match g.eval, g.paths with
  | some source, [] => .ok (.inline source)
  | none, path :: _ => .ok (.file path)
  | some _, _ :: _ => .error (.usage .fileAndInline)
  | none, [] => .error (.usage .missingInput)

/-- The names of the commands. -/
def commandNames : List String := ["tokens", "parse", "check", "help"]

/-- The command that is named, read from the arguments behind its name. -/
def Command.ofArgs (name : String) (args : List String) :
    Except Stop (CommonOptions × Command) :=
  if name = "tokens" then do
    let given ← readCommandArgs [.eval] (some 1) args
    return (given.options, .tokens (← given.input))
  else if name = "parse" then do
    let given ← readCommandArgs [.eval, .format] (some 1) args
    return (given.options, .parse (← given.input) (given.format.getD .tree))
  else if name = "check" then do
    let given ← readCommandArgs [] none args
    if given.paths.isEmpty then .error (.usage .missingInput)
    else return (given.options, .check given.paths)
  else
    match args with
    | [] => .error .help
    | [topic] =>
      if commandNames.contains topic then .error .help
      else .error (.usage (.unknownCommand topic))
    | _ :: topic :: _ => .error (.usage (.unknownCommand topic))

/-- Reads the options before the name of the command, and the command. -/
def Invocation.ofArgs (args : List String) : Except Stop Invocation := do
  let (given, found) ← readArgs (commonOpts ++ [.version]) (some 0) commandNames none args {}
  match found with
  | none => .error (.usage .missingCommand)
  | some (name, rest) =>
    let (options, command) ← Command.ofArgs name rest
    return ⟨given.options.merge options, command⟩

/-- What arguments ask for. -/
def Request.ofArgs (args : List String) : Except UsageError Request :=
  match Invocation.ofArgs args with
  | .ok invocation => .ok (.run invocation)
  | .error .version => .ok .version
  | .error .help => .ok .help
  | .error (.usage e) => .error e

end ScopeFront
