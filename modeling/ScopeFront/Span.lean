/-!
# Places in a source text

A span is the place of a character: its line, counted from one, and its column, counted in
characters from zero.  Only a line feed starts a new line.

* `Span.after` – the place reached after reading a text;
* `Span.text` – the place as editors show it, with the column counted from one.
-/

set_option autoImplicit false

namespace ScopeFront

/-- The place of a character in a source text. -/
structure Span where
  /-- The line, counted from one. -/
  line : Nat
  /-- The number of characters before it on its line. -/
  column : Nat
deriving DecidableEq, Repr

namespace Span

/-- The place of the first character of a text. -/
def start : Span := ⟨1, 0⟩

/-- The place after one character: a line feed starts a line, any other one takes a column. -/
def step (s : Span) (c : Char) : Span :=
  if c = '\n' then ⟨s.line + 1, 0⟩ else ⟨s.line, s.column + 1⟩

/-- The place reached after reading `text` from `s` on. -/
def after (s : Span) (text : List Char) : Span :=
  text.foldl step s

/-- The place as line and column, both counted from one. -/
def text (s : Span) : String :=
  s!"{s.line}:{s.column + 1}"

@[simp]
theorem after_nil (s : Span) : s.after [] = s := rfl

@[simp]
theorem after_cons (s : Span) (c : Char) (text : List Char) :
    s.after (c :: text) = (s.step c).after text := rfl

/-- Reading two texts one after the other is reading their concatenation. -/
theorem after_append (s : Span) (first second : List Char) :
    s.after (first ++ second) = (s.after first).after second :=
  List.foldl_append

end Span

end ScopeFront
