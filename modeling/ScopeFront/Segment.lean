import ScopeFront.Text.Blank

/-!
# Segments of a source text

A source text falls into consecutive pieces.  At each place the first that applies of these is
taken: a longest word, a longest run of digits, a line comment up to the end of its line, a closed
block comment, one symbol, a longest run of blanks; and where none applies, a longest run of
characters that start none of them.

* `Segment` – a piece with its class;
* `Segment.ofChars` – the first piece of a non-empty text and what follows it;
* `segments` – all pieces of a text;
* `segments_text` – the pieces spell the text.
-/

set_option autoImplicit false

namespace ScopeFront

open Text

/-! ## Classes of characters -/

/-- An ASCII letter or `_` starts a word. -/
def startsWord (c : Char) : Bool := c.isAlpha || c == '_'

/-- An ASCII letter, a digit or `_` continues a word. -/
def continuesWord (c : Char) : Bool := c.isAlphanum || c == '_'

/-- The characters that are tokens by themselves. -/
def symbolChars : List Char :=
  ['{', '}', '(', ')', ';', ',', ':', '=', '<', '>', '+', '-', '*', '/']

/-- Whether `c` is a token by itself. -/
def isSymbolChar (c : Char) : Bool := symbolChars.contains c

/-- Whether no word, number, comment, symbol or blank starts with `c`. -/
def isStray (c : Char) : Bool :=
  !(startsWord c || c.isDigit || isSymbolChar c || isBlank c)

/-! ## Pieces -/

/-- The class of a piece of source text. -/
inductive SegmentKind where
  | word
  | number
  | lineComment
  | blockComment
  | symbol
  | blank
  | stray
deriving DecidableEq, Repr

/-- A piece of source text with its class. -/
structure Segment where
  kind : SegmentKind
  text : List Char
deriving DecidableEq, Repr

/-- The text up to and including the first `*/`, and what follows it. -/
def splitComment : List Char → Option (List Char × List Char)
  | [] => none
  | c :: cs =>
    if c = '*' ∧ cs.head? = some '/' then some (['*', '/'], cs.tail)
    else
      match splitComment cs with
      | none => none
      | some (inside, rest) => some (c :: inside, rest)

namespace Segment

/-- The longest piece of class `kind` that starts with `c` and goes on while `p` holds. -/
def run (kind : SegmentKind) (p : Char → Bool) (c : Char) (cs : List Char) :
    Segment × List Char :=
  (⟨kind, c :: cs.takeWhile p⟩, cs.dropWhile p)

/-- The piece that starts with a slash: a line comment, a closed block comment or the symbol. -/
def ofSlash (cs : List Char) : Segment × List Char :=
  match cs with
  | [] => (⟨.symbol, ['/']⟩, [])
  | d :: ds =>
    if d = '/' then run .lineComment (· != '\n') '/' cs
    else if d = '*' then
      match splitComment ds with
      | none => (⟨.symbol, ['/']⟩, cs)
      | some (inside, rest) => (⟨.blockComment, '/' :: '*' :: inside⟩, rest)
    else (⟨.symbol, ['/']⟩, cs)

/-- The first piece of the text `c :: cs`, and what follows it. -/
def ofChars (c : Char) (cs : List Char) : Segment × List Char :=
  if startsWord c then run .word continuesWord c cs
  else if c.isDigit then run .number Char.isDigit c cs
  else if c = '/' then ofSlash cs
  else if isSymbolChar c then (⟨.symbol, [c]⟩, cs)
  else if isBlank c then run .blank isBlank c cs
  else run .stray isStray c cs

end Segment

/-! ## Nothing is lost -/

/-- Splitting a text behind the first `*/` loses nothing. -/
theorem splitComment_append {cs inside rest : List Char}
    (h : splitComment cs = some (inside, rest)) : inside ++ rest = cs := by
  induction cs generalizing inside rest with
  | nil => simp [splitComment] at h
  | cons c cs ih =>
    rw [splitComment] at h
    split at h
    · next hc =>
      cases h
      obtain ⟨hc, hs⟩ := hc
      cases cs with
      | nil => simp at hs
      | cons d ds => simp_all
    · split at h
      · cases h
      · next inner _ hs =>
        cases h
        simp [ih hs]

namespace Segment

theorem run_append (kind : SegmentKind) (p : Char → Bool) (c : Char) (cs : List Char) :
    (run kind p c cs).1.text ++ (run kind p c cs).2 = c :: cs := by
  simp [run, List.takeWhile_append_dropWhile]

theorem ofSlash_append (cs : List Char) : (ofSlash cs).1.text ++ (ofSlash cs).2 = '/' :: cs := by
  cases cs with
  | nil => rfl
  | cons d ds =>
    rw [ofSlash]
    split
    · exact run_append ..
    · split
      · next hd =>
        split
        · rfl
        · next inside rest hs =>
          simp [splitComment_append hs, hd]
      · rfl

/-- The first piece and what follows it make up the text. -/
theorem ofChars_append (c : Char) (cs : List Char) :
    (ofChars c cs).1.text ++ (ofChars c cs).2 = c :: cs := by
  unfold ofChars
  split
  · exact run_append ..
  split
  · exact run_append ..
  split
  · next hc => rw [hc]; exact ofSlash_append cs
  split
  · rfl
  split
  · exact run_append ..
  · exact run_append ..

theorem ofSlash_text_ne_nil (cs : List Char) : (ofSlash cs).1.text ≠ [] := by
  unfold ofSlash
  split
  · simp
  · split
    · simp [run]
    · split
      · split <;> simp
      · simp

/-- No piece is empty. -/
theorem ofChars_text_ne_nil (c : Char) (cs : List Char) : (ofChars c cs).1.text ≠ [] := by
  unfold ofChars
  repeat' split
  all_goals first | exact ofSlash_text_ne_nil cs | simp [run]

/-- What follows the first piece is shorter than the text. -/
theorem ofChars_rest_length_lt (c : Char) (cs : List Char) :
    (ofChars c cs).2.length < (c :: cs).length := by
  have h := congrArg List.length (ofChars_append c cs)
  have := List.length_pos_iff.2 (ofChars_text_ne_nil c cs)
  rw [List.length_append] at h
  omega

end Segment

/-! ## All pieces -/

/-- The pieces of a text, in order. -/
def segments : List Char → List Segment
  | [] => []
  | c :: cs => (Segment.ofChars c cs).1 :: segments (Segment.ofChars c cs).2
termination_by cs => cs.length
decreasing_by exact Segment.ofChars_rest_length_lt c cs

/-- The pieces spell the text. -/
theorem segments_text (cs : List Char) : (segments cs).flatMap Segment.text = cs := by
  fun_induction segments cs with
  | case1 => rfl
  | case2 c cs ih => rw [List.flatMap_cons, ih, Segment.ofChars_append]

end ScopeFront
