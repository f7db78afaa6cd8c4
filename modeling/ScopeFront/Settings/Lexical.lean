/-!
# The lexical parts of a settings text

A settings text is JSON.  It is read from left to right, and the first problem decides how it is at
fault.  Each reader takes the text from a place on and gives what it read and the rest.

* `Fault` – how a settings text is at fault;
* `skipBlanks`, `takeWord`, `takeString` – blanks, names and strings.
-/

set_option autoImplicit false

namespace ScopeFront.Settings

/-- How a settings text is at fault. -/
inductive Fault where
  /-- It is no JSON. -/
  | malformed
  /-- It ends inside a value. -/
  | unfinished
  /-- It is JSON, but does not say what settings can say. -/
  | unsuitable
deriving DecidableEq, Repr

/-! ## Blanks and names -/

/-- The blanks of JSON. -/
def isJsonBlank (c : Char) : Bool := c == ' ' || c == '\n' || c == '\t' || c == '\r'

/-- The text from its first character on that is no blank. -/
def skipBlanks (cs : List Char) : List Char := cs.dropWhile isJsonBlank

/-- Takes the characters of a name, one after the other. -/
def takeWord : List Char → List Char → Except Fault (List Char)
  | [], cs => .ok cs
  | _ :: _, [] => .error .unfinished
  | w :: ws, c :: cs => if c = w then takeWord ws cs else .error .malformed

/-- The names that are values, each by its first character and the others. -/
def wordTail? (c : Char) : Option (List Char) :=
  if c = 'n' then some ['u', 'l', 'l']
  else if c = 't' then some ['r', 'u', 'e']
  else if c = 'f' then some ['a', 'l', 's', 'e']
  else none

/-! ## Strings -/

/-- The value of a hexadecimal digit. -/
def hexValue? (c : Char) : Option Nat :=
  if '0' ≤ c ∧ c ≤ '9' then some (c.toNat - 48)
  else if 'a' ≤ c ∧ c ≤ 'f' then some (c.toNat - 87)
  else if 'A' ≤ c ∧ c ≤ 'F' then some (c.toNat - 55)
  else none

/-- The character that a backslash and one more character stand for. -/
def simpleEscape? (c : Char) : Option Char :=
  if c = '"' ∨ c = '\\' ∨ c = '/' then some c
  else if c = 'b' then some '\x08'
  else if c = 'f' then some '\x0c'
  else if c = 'n' then some '\n'
  else if c = 'r' then some '\r'
  else if c = 't' then some '\t'
  else none

/-- Whether a code unit is the first or the second half of a pair. -/
inductive UnitClass where
  | whole
  | high
  | low
deriving DecidableEq, Repr

/-- The class of a code unit. -/
def unitClass (n : Nat) : UnitClass :=
  if 0xD800 ≤ n ∧ n ≤ 0xDBFF then .high
  else if 0xDC00 ≤ n ∧ n ≤ 0xDFFF then .low
  else .whole

/-- The character that two halves stand for. -/
def joinPair (high low : Nat) : Char :=
  Char.ofNat (0x10000 + (high - 0xD800) * 0x400 + (low - 0xDC00))

/-- Where the reader stands inside a string. -/
inductive StringPlace where
  /-- Between characters. -/
  | plain
  /-- Behind a backslash. -/
  | escape
  /-- In the digits of a code unit, of which `left` are still to come; `high` is the first half of a
  pair, if there was one. -/
  | digits (high : Option Nat) (value left : Nat)
  /-- Behind the first half of a pair, where a backslash must follow. -/
  | pairEscape (high : Nat)
  /-- Behind that backslash, where a `u` must follow. -/
  | pairUnit (high : Nat)
deriving DecidableEq, Repr

/-- Whether fewer than four bytes are left, so that no code unit can be complete. -/
def lacksUnit (cs : List Char) : Bool := cs.foldr (fun c n => c.utf8Size + n) 0 < 4

/-- What follows a complete code unit: a character, or a further half.  Where halves are not
checked, every code unit stands by itself. -/
def afterUnit (paired : Bool) (high : Option Nat) (n : Nat) :
    Except Fault (Option Char × StringPlace) :=
  if !paired then .ok (some (Char.ofNat n), .plain)
  else
    match high, unitClass n with
    | none, .whole => .ok (some (Char.ofNat n), .plain)
    | none, .high => .ok (none, .pairEscape n)
    | none, .low => .error .malformed
    | some h, .low => .ok (some (joinPair h n), .plain)
    | some _, _ => .error .malformed

/-- Takes the rest of a string, from a place inside it up to and including the closing quote.  The
halves of pairs are checked if `paired` is set. -/
def takeStringFrom (paired : Bool) : StringPlace → List Char → Except Fault (List Char × List Char)
  | _, [] => .error .unfinished
  | .plain, c :: cs =>
    if c = '"' then .ok ([], cs)
    else if c = '\\' then takeStringFrom paired .escape cs
    else if c.toNat < 32 then .error .malformed
    else
      match takeStringFrom paired .plain cs with
      | .error e => .error e
      | .ok (text, rest) => .ok (c :: text, rest)
  | .escape, c :: cs =>
    match simpleEscape? c with
    | some d =>
      match takeStringFrom paired .plain cs with
      | .error e => .error e
      | .ok (text, rest) => .ok (d :: text, rest)
    | none =>
      if c = 'u' then
        if lacksUnit cs then .error .unfinished
        else takeStringFrom paired (.digits none 0 4) cs
      else .error .malformed
  | .digits high value left, c :: cs =>
    match hexValue? c with
    | none => .error .malformed
    | some d =>
      if left ≤ 1 then
        match afterUnit paired high (16 * value + d) with
        | .error e => .error e
        | .ok (character, place) =>
          match takeStringFrom paired place cs with
          | .error e => .error e
          | .ok (text, rest) => .ok (character.toList ++ text, rest)
      else takeStringFrom paired (.digits high (16 * value + d) (left - 1)) cs
  | .pairEscape high, c :: cs =>
    if c = '\\' then takeStringFrom paired (.pairUnit high) cs else .error .malformed
  | .pairUnit high, c :: cs =>
    if c = 'u' then
      if lacksUnit cs then .error .unfinished
      else takeStringFrom paired (.digits (some high) 0 4) cs
    else .error .malformed

/-- Takes a string behind its opening quote, and gives its characters and the rest. -/
def takeString (cs : List Char) : Except Fault (List Char × List Char) :=
  takeStringFrom true .plain cs

/-- Passes over a string behind its opening quote; the halves of pairs are not checked. -/
def skipString (cs : List Char) : Except Fault (List Char) :=
  match takeStringFrom false .plain cs with
  | .error e => .error e
  | .ok (_, rest) => .ok rest

end ScopeFront.Settings
