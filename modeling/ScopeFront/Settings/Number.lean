import ScopeFront.Settings.Lexical

/-!
# Numbers in a settings text

A number is read as it is written.  Its size is judged by the double that stands for it: the leading
digits that fit into 64 bits, rounded, times the power of ten that makes up for the point, the
exponent and the digits left over, rounded as well.

* `NumberText`, `takeNumber` – the written number;
* `nearestDouble` – rounding to 53 bits, a half to the even neighbour;
* `NumberText.isTooLarge` – whether a number is too large for a double.
-/

set_option autoImplicit false

namespace ScopeFront.Settings

/-! ## Written numbers -/

/-- A number as it is written, without its sign. -/
structure NumberText where
  whole : List Char
  fraction : Option (List Char)
  /-- Whether the exponent is negative, and its digits. -/
  exponent : Option (Bool × List Char)
deriving DecidableEq, Repr

/-- Takes the digits that must follow; `atEnd` is the fault where the text ends before them. -/
def takeDigits (atEnd : Fault) (cs : List Char) : Except Fault (List Char × List Char) :=
  match cs.takeWhile Char.isDigit, cs with
  | [], [] => .error atEnd
  | [], _ :: _ => .error .malformed
  | digits, _ => .ok (digits, cs.dropWhile Char.isDigit)

/-- Takes the whole part, which has no zero before other digits. -/
def takeWhole (atEnd : Fault) (cs : List Char) : Except Fault (List Char × List Char) :=
  match takeDigits atEnd cs with
  | .error e => .error e
  | .ok (digits, rest) =>
    if digits.head? = some '0' ∧ 1 < digits.length then .error .malformed else .ok (digits, rest)

/-- Takes the fraction, if there is one. -/
def takeFraction (atEnd : Fault) (cs : List Char) :
    Except Fault (Option (List Char) × List Char) :=
  match cs with
  | '.' :: rest =>
    match takeDigits atEnd rest with
    | .error e => .error e
    | .ok (digits, rest) => .ok (some digits, rest)
  | _ => .ok (none, cs)

/-- Takes the sign of an exponent, if there is one. -/
def takeSign (cs : List Char) : Bool × List Char :=
  match cs with
  | '+' :: rest => (false, rest)
  | '-' :: rest => (true, rest)
  | _ => (false, cs)

/-- Takes the exponent, if there is one. -/
def takeExponent (atEnd : Fault) (cs : List Char) :
    Except Fault (Option (Bool × List Char) × List Char) :=
  match cs with
  | [] => .ok (none, [])
  | c :: rest =>
    if c = 'e' ∨ c = 'E' then
      match takeDigits atEnd (takeSign rest).2 with
      | .error e => .error e
      | .ok (digits, more) => .ok (some ((takeSign rest).1, digits), more)
    else .ok (none, cs)

/-- Takes a number behind its sign; `atEnd` is the fault where the text ends inside it. -/
def takeNumber (atEnd : Fault) (cs : List Char) : Except Fault (NumberText × List Char) :=
  match takeWhole atEnd cs with
  | .error e => .error e
  | .ok (whole, rest) =>
    match takeFraction atEnd rest with
    | .error e => .error e
    | .ok (fraction, rest) =>
      match takeExponent atEnd rest with
      | .error e => .error e
      | .ok (exponent, rest) => .ok (⟨whole, fraction, exponent⟩, rest)

/-- The value of a sequence of decimal digits. -/
def digitsValue (digits : List Char) : Nat :=
  digits.foldl (fun n c => 10 * n + (c.toNat - 48)) 0

namespace NumberText

/-- The value of a number without fraction and exponent. -/
def natural? (n : NumberText) : Option Nat :=
  if n.fraction.isNone ∧ n.exponent.isNone then some (digitsValue n.whole) else none

end NumberText

/-! ## Magnitude -/

/-- The largest value of the digits that are kept of a number: they fit into 64 bits. -/
def significandBound : Nat := Nat.pow 2 64 - 1

/-- Appends digits to a significand as long as it stays within the bound, and gives it with the
digits that are left. -/
def appendDigits : Nat → List Char → Nat × List Char
  | m, [] => (m, [])
  | m, c :: cs =>
    let next := 10 * m + (c.toNat - 48)
    if next ≤ significandBound then appendDigits next cs else (m, c :: cs)

/-- The multiple of a power of two with at most 53 bits that is nearest to `n`; of two that are
equally near, the one with the even multiplier. -/
def nearestDouble (n : Nat) : Nat :=
  let unit := Nat.pow 2 (n.log2 - 52)
  let whole := n / unit
  let twice := 2 * (n % unit)
  if unit < twice ∨ (twice = unit ∧ whole % 2 = 1) then (whole + 1) * unit else whole * unit

/-- The least number that rounds to no finite double. -/
def doubleBound : Nat := Nat.pow 2 1024 - Nat.pow 2 970

/-- A significand, and the power of ten by which it is scaled. -/
structure Scaled where
  significand : Nat
  scale : Int
deriving DecidableEq, Repr

/-- The exponent of the largest power of ten within the range of doubles. -/
def scaleBound : Nat := 308

/-- Whether the product of significand and power of ten is too large for a double, where both
factors are rounded to doubles before they are multiplied. -/
def Scaled.isTooLarge (x : Scaled) : Bool :=
  if x.significand = 0 ∨ x.scale < 0 then false
  else if (scaleBound : Int) < x.scale then true
  else
    decide (doubleBound ≤ nearestDouble x.significand * nearestDouble (Nat.pow 10 x.scale.toNat))

namespace NumberText

/-- The written exponent. -/
def exponentValue (n : NumberText) : Int :=
  match n.exponent with
  | none => 0
  | some (negative, digits) =>
    if negative then - (digitsValue digits : Int) else digitsValue digits

/-- The digits that are kept, scaled: a digit of the whole part that is left over raises the scale,
one of the fraction that is kept lowers it. -/
def scaled (n : NumberText) : Scaled :=
  let (whole, wholeLeft) := appendDigits 0 n.whole
  let fraction := n.fraction.getD []
  let (significand, fractionLeft) := appendDigits whole fraction
  { significand
    scale := n.exponentValue + wholeLeft.length - (fraction.length - fractionLeft.length : Nat) }

/-- Whether the number is too large for a double. -/
def isTooLarge (n : NumberText) : Bool := n.scaled.isTooLarge

end NumberText

end ScopeFront.Settings
