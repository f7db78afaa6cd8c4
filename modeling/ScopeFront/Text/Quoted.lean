import ScopeFront.Text.Unprinted

/-!
# Quoted text

A text between double quotes in which every character can be told apart: the quote, the backslash
and the common control characters are written with a backslash, and a character without a shape of
its own by its code point in hexadecimal.

* `quoteChar` – the written form of one character;
* `quoted` – the written form of a text.
-/

set_option autoImplicit false

namespace ScopeFront.Text

/-- A character by number: `\u`, then its code point in lower-case hexadecimal between braces. -/
def charByNumber (c : Char) : List Char :=
  ['\\', 'u', '\x7b'] ++ Nat.toDigits 16 c.toNat ++ ['\x7d']

/-- How one character is written between double quotes. -/
def quoteChar (c : Char) : List Char :=
  if c = '\x00' then ['\\', '0']
  else if c = '\t' then ['\\', 't']
  else if c = '\r' then ['\\', 'r']
  else if c = '\n' then ['\\', 'n']
  else if c = '\\' then ['\\', '\\']
  else if c = '"' then ['\\', '"']
  else if isUnprinted c then charByNumber c
  else [c]

/-- The text between double quotes, each character in its written form. -/
def quoted (text : String) : String :=
  String.ofList ('"' :: (text.toList.flatMap quoteChar ++ ['"']))

end ScopeFront.Text
