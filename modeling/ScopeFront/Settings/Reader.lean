import ScopeFront.Settings
import ScopeFront.Settings.Skip

/-!
# Reading settings

Settings are an object with the fields `verbosity`, `unmatched` and `max_depth`, each of which may
be left out, or an array with their values in this order.  Other fields are passed over.

* `takeNatural`, `takePolicy` – the values of fields;
* `Settings.ofJson` – the settings of a text.
-/

set_option autoImplicit false

namespace ScopeFront.Settings

/-! ## Values -/

/-- The fault of a number where none is wanted. -/
def numberFault (cs : List Char) : Fault :=
  match takeNumber .unfinished cs with
  | .error e => e
  | .ok (n, _) => if n.isTooLarge then .malformed else .unsuitable

/-- The fault of a value of the wrong kind: its own, if it is at fault itself. -/
def wrongKind : List Char → Fault
  | [] => .malformed
  | c :: rest =>
    match wordTail? c with
    | some word =>
      match takeWord word rest with
      | .error e => e
      | .ok _ => .unsuitable
    | none =>
      if c = '"' then
        match takeString rest with
        | .error e => e
        | .ok _ => .unsuitable
      else if c = '-' then numberFault rest
      else if c.isDigit then numberFault (c :: rest)
      else if c = '[' ∨ c = '{' then .unsuitable
      else .malformed

/-- Takes a natural number of at most `bound`. -/
def takeNatural (bound : Nat) (cs : List Char) : Except Fault (Nat × List Char) :=
  match skipBlanks cs with
  | [] => .error .unfinished
  | c :: rest =>
    if c.isDigit then
      match takeNumber .unfinished (c :: rest) with
      | .error e => .error e
      | .ok (n, more) =>
        match n.natural? with
        | some value =>
          if value ≤ bound then .ok (value, more)
          else .error (if n.isTooLarge then .malformed else .unsuitable)
        | none => .error (if n.isTooLarge then .malformed else .unsuitable)
    else .error (wrongKind (c :: rest))

/-- Takes the name of a policy behind its opening quote. -/
def takePolicyName (cs : List Char) : Except Fault (UnmatchedPolicy × List Char) :=
  match takeString cs with
  | .error e => .error e
  | .ok (name, rest) =>
    match UnmatchedPolicy.ofWord? (String.ofList name) with
    | none => .error .unsuitable
    | some policy => .ok (policy, rest)

/-- Takes the value `null`. -/
def takeNull (cs : List Char) : Except Fault (List Char) :=
  match skipBlanks cs with
  | [] => .error .unfinished
  | c :: rest => if c = 'n' then takeWord ['u', 'l', 'l'] rest else .error (wrongKind (c :: rest))

/-- Takes the closing brace. -/
def takeClosingBrace (cs : List Char) : Except Fault (List Char) :=
  match skipBlanks cs with
  | [] => .error .unfinished
  | c :: rest => if c = '}' then .ok rest else .error .malformed

/-- Takes a policy: its name, or an object with its name as the only key and `null` as its value. -/
def takePolicy (cs : List Char) : Except Fault (UnmatchedPolicy × List Char) :=
  match skipBlanks cs with
  | [] => .error .unfinished
  | c :: rest =>
    if c = '"' then takePolicyName rest
    else if c = '{' then
      match skipBlanks rest with
      | [] => .error .unfinished
      | d :: rest =>
        if d = '"' then do
          let (policy, rest) ← takePolicyName rest
          let rest ← takeColon rest
          let rest ← takeNull rest
          let rest ← takeClosingBrace rest
          return (policy, rest)
        else .error .malformed
    else .error .malformed

/-! ## Fields -/

/-- The largest verbosity. -/
def verbosityBound : Nat := 255

/-- The largest depth limit. -/
def depthBound : Nat := Nat.pow 2 64 - 1

/-- The fields that were given so far. -/
structure Draft where
  verbosity : Option Nat := none
  unmatched : Option UnmatchedPolicy := none
  maxDepth : Option Nat := none
deriving DecidableEq, Repr

/-- The settings with what was not given at its default. -/
def Draft.complete (d : Draft) : Settings :=
  { verbosity := d.verbosity.getD Settings.default.verbosity
    unmatched := d.unmatched.getD Settings.default.unmatched
    maxDepth := d.maxDepth.getD Settings.default.maxDepth }

/-- Takes the value of the field `key` behind the key.  A field that settings know must not have
been given before. -/
def takeField (key : String) (d : Draft) (cs : List Char) : Except Fault (Draft × List Char) :=
  if key = "verbosity" then
    if d.verbosity.isSome then .error .unsuitable
    else do
      let (value, rest) ← takeNatural verbosityBound (← takeColon cs)
      return ({ d with verbosity := some value }, rest)
  else if key = "unmatched" then
    if d.unmatched.isSome then .error .unsuitable
    else do
      let (policy, rest) ← takePolicy (← takeColon cs)
      return ({ d with unmatched := some policy }, rest)
  else if key = "max_depth" then
    if d.maxDepth.isSome then .error .unsuitable
    else do
      let (value, rest) ← takeNatural depthBound (← takeColon cs)
      return ({ d with maxDepth := some value }, rest)
  else do
    let rest ← skipValue (← takeColon cs)
    return (d, rest)

/-- Takes the fields of the object, up to and including its closing brace; every field takes one of
the steps. -/
def takeFieldsWithin : Nat → Draft → List Char → Except Fault (Draft × List Char)
  | 0, _, _ => .error .unfinished
  | steps + 1, d, cs =>
    match skipBlanks cs with
    | [] => .error .unfinished
    | c :: rest =>
      if c = '"' then do
        let (key, rest) ← takeString rest
        let (d, rest) ← takeField (String.ofList key) d rest
        match ← takeFollow '}' rest with
        | .closed more => return (d, more)
        | .more more => takeFieldsWithin steps d more
      else .error .malformed

/-- Takes an object behind its opening brace. -/
def takeObject (cs : List Char) : Except Fault (Draft × List Char) :=
  match skipBlanks cs with
  | '}' :: rest => .ok ({}, rest)
  | _ => takeFieldsWithin (cs.length + 1) {} cs

/-! ## Values in order -/

/-- Takes what separates two values of the array: gives the text behind a comma, or `none` and the
text behind the closing bracket. -/
def takeSeparator (cs : List Char) : Except Fault (Option (List Char) × List Char) :=
  match takeFollow ']' cs with
  | .error e => .error e
  | .ok (.closed rest) => .ok (none, rest)
  | .ok (.more rest) =>
    match skipBlanks rest with
    | [] => .error .unfinished
    | c :: _ => if c = ']' then .error .malformed else .ok (some rest, rest)

/-- Takes the closing bracket behind the third value. -/
def takeClosingBracket (cs : List Char) : Except Fault (List Char) :=
  match skipBlanks cs with
  | [] => .error .unfinished
  | c :: rest => if c = ']' then .ok rest else .error .malformed

/-- Takes an array behind its opening bracket. -/
def takeArray (cs : List Char) : Except Fault (Draft × List Char) :=
  match skipBlanks cs with
  | [] => .error .unfinished
  | ']' :: rest => .ok ({}, rest)
  | _ :: _ => do
    let (verbosity, rest) ← takeNatural verbosityBound cs
    let d : Draft := { verbosity := some verbosity }
    match ← takeSeparator rest with
    | (none, rest) => return (d, rest)
    | (some rest, _) =>
      let (policy, rest) ← takePolicy rest
      let d := { d with unmatched := some policy }
      match ← takeSeparator rest with
      | (none, rest) => return (d, rest)
      | (some rest, _) =>
        let (maxDepth, rest) ← takeNatural depthBound rest
        let rest ← takeClosingBracket rest
        return ({ d with maxDepth := some maxDepth }, rest)

/-! ## Settings -/

/-- Takes an object or an array. -/
def takeDraft (cs : List Char) : Except Fault (Draft × List Char) :=
  match skipBlanks cs with
  | [] => .error .unfinished
  | c :: rest =>
    if c = '{' then takeObject rest
    else if c = '[' then takeArray rest
    else .error (wrongKind (c :: rest))

/-- The settings of a text, which holds nothing else. -/
def ofJson (text : String) : Except Fault Settings :=
  match takeDraft text.toList with
  | .error e => .error e
  | .ok (d, rest) => if (skipBlanks rest).isEmpty then .ok d.complete else .error .malformed

end ScopeFront.Settings
