import ScopeFront.Text.CodeRange

/-!
# White space

* `isBlank` – the Unicode property White_Space.
-/

set_option autoImplicit false

namespace ScopeFront.Text

/-- The white-space characters: tab to carriage return, space, and the blanks beyond ASCII. -/
def blankTable : List CodeRange :=
  [⟨0x9, 0xD⟩, ⟨0x20, 0x20⟩, ⟨0x85, 0x85⟩, ⟨0xA0, 0xA0⟩, ⟨0x1680, 0x1680⟩, ⟨0x2000, 0x200A⟩,
   ⟨0x2028, 0x2029⟩, ⟨0x202F, 0x202F⟩, ⟨0x205F, 0x205F⟩, ⟨0x3000, 0x3000⟩]

/-- Whether `c` is white space. -/
def isBlank (c : Char) : Bool :=
  CodeRange.covers blankTable c

end ScopeFront.Text
