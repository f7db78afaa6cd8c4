import Mathlib.Tactic.SplitIfs
import ScopeFront.Proofs.Lexer.Comments
import ScopeFront.Settings.Lexical
import ScopeFront.Text.Quoted

/-!
# Quoted texts are read back

Every character is written so that its end can be seen: by itself, as a backslash and a letter, or
by a number between braces.  So a quoted text that stands before anything else is told from what
follows it, and says which text was quoted.

* `hexNumber`, `hexNumber_toDigits` – hexadecimal digits and the number they stand for;
* `unquoteChar?`, `unquoteChar?_quoteChar` – the first character that was written;
* `quoted_append_inj` – a quoted text and what stands behind it;
* `lineFeed_not_mem_quoted` – a quoted text stays on one line.
-/

set_option autoImplicit false

namespace ScopeFront

open Settings (hexValue?)

/-! ## Hexadecimal digits -/

/-- Whether the character is a hexadecimal digit. -/
def isHexDigit (c : Char) : Bool := (hexValue? c).isSome

/-- The number that hexadecimal digits stand for. -/
def hexNumber (digits : List Char) : Nat :=
  digits.foldl (fun n d => 16 * n + (hexValue? d).getD 0) 0

theorem hexValue?_digitChar : ∀ d < 16, hexValue? d.digitChar = some d := by decide

theorem isHexDigit_of_mem_toDigits (n : Nat) : ∀ c ∈ Nat.toDigits 16 n, isHexDigit c = true := by
  induction n using Nat.strongRecOn with
  | ind n ih =>
      have hlast : ∀ d < 16, isHexDigit d.digitChar = true := by
        intro d hd
        rw [isHexDigit, hexValue?_digitChar d hd]
        rfl
      intro c hc
      rw [Nat.toDigits_eq_if (by decide)] at hc
      split at hc
      · rename_i hn
        rw [List.mem_singleton.1 hc]
        exact hlast n hn
      · rename_i hn
        rcases List.mem_append.1 hc with hmore | hdigit
        · exact ih (n / 16) (by omega) c hmore
        · rw [List.mem_singleton.1 hdigit]
          exact hlast (n % 16) (by omega)

theorem hexNumber_concat (digits : List Char) (c : Char) :
    hexNumber (digits ++ [c]) = 16 * hexNumber digits + (hexValue? c).getD 0 := by
  rw [hexNumber, List.foldl_append]
  rfl

/-- A number is read back from its digits. -/
theorem hexNumber_toDigits (n : Nat) : hexNumber (Nat.toDigits 16 n) = n := by
  induction n using Nat.strongRecOn with
  | ind n ih =>
      rw [Nat.toDigits_eq_if (by decide)]
      split
      · rename_i hn
        rw [hexNumber, List.foldl_cons, List.foldl_nil, hexValue?_digitChar n hn]
        exact Nat.zero_add n
      · rename_i hn
        rw [hexNumber_concat, ih (n / 16) (by omega), hexValue?_digitChar (n % 16) (by omega)]
        exact Nat.div_add_mod n 16

namespace Text

/-! ## One character -/

/-- The character that a backslash and the letter stand for. -/
def unescape? (letter : Char) : Option Char :=
  if letter = '0' then some '\x00'
  else if letter = 't' then some '\t'
  else if letter = 'r' then some '\r'
  else if letter = 'n' then some '\n'
  else if letter = '\\' then some '\\'
  else if letter = '"' then some '"'
  else none

/-- The character that is written at the beginning of a text, with what stands behind it; at the
closing quote there is none. -/
def unquoteChar? : List Char → Option (Char × List Char)
  | [] => none
  | c :: rest =>
    if c = '"' then none
    else if c = '\\' then
      match rest with
      | 'u' :: _ :: more =>
        some (Char.ofNat (hexNumber (more.takeWhile isHexDigit)),
          (more.dropWhile isHexDigit).drop 1)
      | letter :: more => (unescape? letter).map (·, more)
      | [] => none
    else some (c, rest)

theorem unquoteChar?_charByNumber (c : Char) (rest : List Char) :
    unquoteChar? (charByNumber c ++ rest) = some (c, rest) := by
  have hbrace : Ends isHexDigit ('\x7d' :: rest) := by
    rintro _ ⟨rfl⟩
    rfl
  obtain ⟨htake, hdrop⟩ := takeWhile_of_ends (isHexDigit_of_mem_toDigits c.toNat) hbrace
  have hshape : charByNumber c ++ rest =
      '\\' :: 'u' :: '\x7b' :: (Nat.toDigits 16 c.toNat ++ '\x7d' :: rest) := by
    simp [charByNumber]
  rw [hshape, unquoteChar?, if_neg (by decide), if_pos rfl]
  simp only [htake, hdrop, hexNumber_toDigits, Char.ofNat_toNat, List.drop_succ_cons,
    List.drop_zero]

/-- **A character is read back**, whatever stands behind it. -/
theorem unquoteChar?_quoteChar (c : Char) (rest : List Char) :
    unquoteChar? (quoteChar c ++ rest) = some (c, rest) := by
  unfold quoteChar
  split_ifs with hnul htab hreturn hfeed hslash hquote hunprinted
  · rw [hnul]; rfl
  · rw [htab]; rfl
  · rw [hreturn]; rfl
  · rw [hfeed]; rfl
  · rw [hslash]; rfl
  · rw [hquote]; rfl
  · exact unquoteChar?_charByNumber c rest
  · rw [List.singleton_append, unquoteChar?.eq_def]
    simp only [if_neg hquote, if_neg hslash]

theorem lineFeed_not_mem_quoteChar (c : Char) : '\n' ∉ quoteChar c := by
  unfold quoteChar
  split_ifs with hnul htab hreturn hfeed hslash hquote hunprinted
  iterate 6 decide
  · intro h
    have hdigit : '\n' ∈ Nat.toDigits 16 c.toNat := by simpa [charByNumber] using h
    exact Bool.false_ne_true (isHexDigit_of_mem_toDigits c.toNat _ hdigit)
  · rw [List.mem_singleton]
    exact Ne.symm hfeed

/-! ## Whole texts -/

/-- Characters before a closing quote are read back one by one. -/
theorem flatMap_quoteChar_inj {cs ds rest rest' : List Char}
    (h : cs.flatMap quoteChar ++ '"' :: rest = ds.flatMap quoteChar ++ '"' :: rest') :
    cs = ds ∧ rest = rest' := by
  induction cs generalizing ds with
  | nil =>
      cases ds with
      | nil => exact ⟨rfl, (List.cons.inj h).2⟩
      | cons d ds =>
          rw [List.flatMap_cons, List.append_assoc] at h
          have hread := congrArg unquoteChar? h
          rw [unquoteChar?_quoteChar] at hread
          cases hread
  | cons c cs ih =>
      rw [List.flatMap_cons, List.append_assoc] at h
      have hread := congrArg unquoteChar? h
      rw [unquoteChar?_quoteChar] at hread
      cases ds with
      | nil => cases hread
      | cons d ds =>
          rw [List.flatMap_cons, List.append_assoc, unquoteChar?_quoteChar] at hread
          obtain ⟨rfl, hmore⟩ := Prod.mk.inj (Option.some.inj hread)
          obtain ⟨rfl, hrest⟩ := ih hmore
          exact ⟨rfl, hrest⟩

theorem toList_quoted (text : String) :
    (quoted text).toList = '"' :: (text.toList.flatMap quoteChar ++ ['"']) :=
  String.toList_ofList

/-- **A quoted text is read back**, and told from what stands behind it. -/
theorem quoted_append_inj {text text' : String} {rest rest' : List Char}
    (h : (quoted text).toList ++ rest = (quoted text').toList ++ rest') :
    text = text' ∧ rest = rest' := by
  rw [toList_quoted, toList_quoted, List.cons_append, List.cons_append, List.append_assoc,
    List.append_assoc] at h
  obtain ⟨htext, hrest⟩ := flatMap_quoteChar_inj (List.cons.inj h).2
  exact ⟨String.toList_injective htext, hrest⟩

theorem lineFeed_not_mem_quoted (text : String) : '\n' ∉ (quoted text).toList := by
  rw [toList_quoted, List.mem_cons, List.mem_append, List.mem_flatMap]
  rintro (hopen | ⟨c, _, hc⟩ | hclose)
  · cases hopen
  · exact lineFeed_not_mem_quoteChar c hc
  · exact absurd hclose (by decide)

end Text

end ScopeFront
