import ScopeFront.Settings.Number

/-!
# Passing over values

A field that settings do not know may hold any value, which has to be well-formed JSON and is
otherwise of no interest.

* `skipValue` – passes over one value.
-/

set_option autoImplicit false

namespace ScopeFront.Settings

/-- Passes over a number behind its sign. -/
def skipNumber (cs : List Char) : Except Fault (List Char) :=
  match takeNumber .malformed cs with
  | .error e => .error e
  | .ok (_, rest) => .ok rest

/-- Takes the colon between the key of a field and its value. -/
def takeColon (cs : List Char) : Except Fault (List Char) :=
  match skipBlanks cs with
  | [] => .error .unfinished
  | c :: rest => if c = ':' then .ok rest else .error .malformed

/-- What follows an item of an array or a field of an object. -/
inductive Follow where
  /-- A comma, with a further item or field behind it. -/
  | more (rest : List Char)
  /-- The closing bracket. -/
  | closed (rest : List Char)
deriving DecidableEq, Repr

/-- Takes a comma or the closing bracket `close`. -/
def takeFollow (close : Char) (cs : List Char) : Except Fault Follow :=
  match skipBlanks cs with
  | [] => .error .unfinished
  | c :: rest =>
    if c = ',' then .ok (.more rest)
    else if c = close then .ok (.closed rest)
    else .error .malformed

mutual

/-- Passes over a value; every bracket, item and field takes one of the steps. -/
def skipValueWithin : Nat → List Char → Except Fault (List Char)
  | 0, _ => .error .unfinished
  | steps + 1, cs =>
    match skipBlanks cs with
    | [] => .error .unfinished
    | c :: rest =>
      match wordTail? c with
      | some word => takeWord word rest
      | none =>
        if c = '"' then skipString rest
        else if c = '-' then skipNumber rest
        else if c.isDigit then skipNumber (c :: rest)
        else if c = '[' then
          match skipBlanks rest with
          | ']' :: more => .ok more
          | _ => skipItemsWithin steps rest
        else if c = '{' then
          match skipBlanks rest with
          | '}' :: more => .ok more
          | _ => skipFieldsWithin steps rest
        else .error .malformed

/-- Passes over the items of an array, up to and including its closing bracket. -/
def skipItemsWithin : Nat → List Char → Except Fault (List Char)
  | 0, _ => .error .unfinished
  | steps + 1, cs =>
    match skipValueWithin steps cs with
    | .error e => .error e
    | .ok rest =>
      match takeFollow ']' rest with
      | .error e => .error e
      | .ok (.closed more) => .ok more
      | .ok (.more more) => skipItemsWithin steps more

/-- Passes over the fields of an object, up to and including its closing bracket. -/
def skipFieldsWithin : Nat → List Char → Except Fault (List Char)
  | 0, _ => .error .unfinished
  | steps + 1, cs =>
    match skipBlanks cs with
    | [] => .error .unfinished
    | c :: rest =>
      if c = '"' then
        match skipString rest with
        | .error e => .error e
        | .ok rest =>
          match takeColon rest with
          | .error e => .error e
          | .ok rest =>
            match skipValueWithin steps rest with
            | .error e => .error e
            | .ok rest =>
              match takeFollow '}' rest with
              | .error e => .error e
              | .ok (.closed more) => .ok more
              | .ok (.more more) => skipFieldsWithin steps more
      else .error .malformed

end

/-- Passes over a value.  A value takes no more than two steps for each of its characters. -/
def skipValue (cs : List Char) : Except Fault (List Char) :=
  skipValueWithin (2 * cs.length + 1) cs

end ScopeFront.Settings
