import ScopeFront.Run

/-!
# The program

Reads the files that the arguments name, runs the command on them and writes its result.
-/

set_option autoImplicit false

namespace ScopeFront

/-- The number of a failure of the system; where a file cannot be opened it comes negated. -/
def failureNumber (code : UInt32) : UInt32 := if code < 0x80000000 then code else 0 - code

/-- Reads a file as text. -/
def readText (path : String) : IO (Except ReadFailure String) := do
  match ← (IO.FS.readBinFile path).toBaseIO with
  | .ok bytes => return decodeText bytes
  | .error (.noFileOrDirectory ..) => return .error .notFound
  | .error (.inappropriateType _ code _) =>
    return .error (if failureNumber code = 20 then .notDirectory else .isDirectory)
  | .error (.invalidArgument _ code reason) =>
    return .error (if failureNumber code = 36 then .tooLong else .other reason)
  | .error (.permissionDenied ..) => return .error (.other "Permission denied (os error 13)")
  | .error e => return .error (.other (toString e))

/-- Reads files, each under its path. -/
def readAll : List String → IO (List (String × Except ReadFailure String))
  | [] => return []
  | path :: paths => do
    let text ← readText path
    let rest ← readAll paths
    return (path, text) :: rest

/-- The help text. -/
def helpText : String :=
  "Tokenize and parse SCOPE source\n\n" ++
  "Usage: scopelang [OPTIONS] <COMMAND>\n\n" ++
  "Commands:\n" ++
  "  tokens  Print the token stream\n" ++
  "  parse   Print the parsed AST forest\n" ++
  "  check   Parse each file and report ok / error\n\n" ++
  "Options:\n" ++
  "  -v, --verbose        Raise verbosity\n" ++
  "      --lenient        Skip characters that match no token instead of failing\n" ++
  "      --config <PATH>  Load settings from a JSON config file\n" ++
  "  -h, --help           Print help\n" ++
  "  -V, --version        Print version\n"

/-- Writes a result and gives its exit code. -/
def Result.write (r : Result) : IO UInt32 := do
  (← IO.getStdout).putStr r.stdout
  (← IO.getStderr).putStr r.stderr
  return UInt32.ofNat r.code

end ScopeFront

open ScopeFront in
/-- The program. -/
def main (args : List String) : IO UInt32 := do
  match Request.ofArgs args with
  | .error e => Result.write (.refused e.message)
  | .ok .version => Result.write ⟨0, versionText, ""⟩
  | .ok .help => Result.write ⟨0, helpText, ""⟩
  | .ok (.run invocation) => do
    let texts ← readAll invocation.paths
    let files : Files := fun path => (texts.lookup path).getD (.error .notFound)
    (invocation.run files).write
