import ScopeFront.Proofs.Lexer.Comments
import ScopeFront.Proofs.Lexer.Concatenation

/-!
# The category of a token and its text

A reserved word keeps its category only where no word character follows it.  Word characters are
those of Unicode, while the words themselves are made of ASCII letters, digits and `_`: behind a
word there can be a word character that does not belong to it.  Such a character starts no piece, so
this is seen only where stray characters are skipped.  Everywhere else the text of a token decides
its category.

* `TokenKind.ofText` – the category that a text has by itself;
* `Segment.RunsOn` – a reserved word that a word character follows;
* `Emits.kind_ofText_iff` – the tokens of pieces;
* `not_runsOn` – where nothing is skipped, or all is ASCII, no word runs on;
* `kind_of_text_iff` – the tokens of source texts.
-/

set_option autoImplicit false

namespace ScopeFront

open Text

/-- The category that a text has by itself: a reserved word has the one in which it is reserved, any
other word is an identifier, digits are a literal, and nothing is the end marker. -/
def TokenKind.ofText (lexeme : String) : TokenKind :=
  match reserved? lexeme with
  | some kind => kind
  | none =>
    match lexeme.toList with
    | [] => .eof
    | c :: cs =>
      if startsWord c && cs.all continuesWord then .identifier
      else if (c :: cs).all Char.isDigit then .literal
      else .symbol

/-! ## Texts of pieces -/

/-- A reserved word is found in its group, and starts like a word. -/
theorem Reserved.spec {kind : TokenKind} {spelling : String} (h : Reserved kind spelling) :
    TokenKind.reserved? spelling = some kind ∧ spelling.toList.head?.any startsWord = true := by
  cases kind with
  | scopeKeyword =>
      obtain ⟨k, rfl⟩ := h
      cases k <;> decide
  | typeKeyword =>
      obtain ⟨k, rfl⟩ := h
      cases k
      decide
  | operatorKeyword =>
      obtain ⟨k, rfl⟩ := h
      cases k <;> decide
  | _ => cases h

/-- What does not start like a word is not reserved. -/
theorem reserved?_eq_none {c : Char} (h : startsWord c = false) (cs : List Char) :
    TokenKind.reserved? (String.ofList (c :: cs)) = none := by
  have hspec := reserved?_spec (String.ofList (c :: cs))
  cases hr : TokenKind.reserved? (String.ofList (c :: cs)) with
  | none => rfl
  | some kind =>
      rw [hr] at hspec
      have hstart := (Reserved.spec hspec).2
      simp [h] at hstart

/-- No word starts with a digit. -/
theorem startsWord_of_isDigit {c : Char} (h : c.isDigit = true) : startsWord c = false := by
  refine Bool.eq_false_iff.2 fun hstart => ?_
  have hletter := toNat_of_startsWord hstart
  have hdigit := toNat_of_isDigit h
  omega

/-- No word or number starts with a symbol. -/
theorem not_starts_of_isSymbolChar {c : Char} (h : isSymbolChar c = true) :
    startsWord c = false ∧ c.isDigit = false := by
  have hall : symbolChars.all (fun d => !startsWord d && !d.isDigit) = true := by decide
  have hc := List.all_eq_true.1 hall c (List.contains_iff_mem.1 h)
  simpa only [Bool.and_eq_true, Bool.not_eq_true'] using hc

/-- A word is reserved or an identifier. -/
theorem ofText_word {text rest : List Char} (h : Fits .word text rest) :
    TokenKind.ofText (String.ofList text) =
      (TokenKind.reserved? (String.ofList text)).getD .identifier := by
  cases h with
  | @word c cs _ hstart hgo _ =>
      unfold TokenKind.ofText
      cases TokenKind.reserved? (String.ofList (c :: cs)) with
      | some kind => rfl
      | none =>
          have hall : cs.all continuesWord = true := List.all_eq_true.2 hgo
          simp [hstart, hall]

theorem ofText_number {text rest : List Char} (h : Fits .number text rest) :
    TokenKind.ofText (String.ofList text) = .literal := by
  cases h with
  | @number c cs _ hdigits _ =>
      have hword := startsWord_of_isDigit (hdigits c (List.mem_cons_self ..))
      have hall : (c :: cs).all Char.isDigit = true := List.all_eq_true.2 hdigits
      unfold TokenKind.ofText
      rw [reserved?_eq_none hword, String.toList_ofList]
      simp only [hword, Bool.false_and, hall]
      rfl

theorem ofText_symbol {text rest : List Char} (h : Fits .symbol text rest) :
    TokenKind.ofText (String.ofList text) = .symbol := by
  cases h with
  | @symbol c _ hsymbol =>
      obtain ⟨hword, hdigit⟩ := not_starts_of_isSymbolChar hsymbol
      unfold TokenKind.ofText
      rw [reserved?_eq_none hword, String.toList_ofList]
      simp [hword, hdigit]

/-! ## Tokens of pieces -/

/-- The piece is a reserved word, and a word character follows it. -/
def Segment.RunsOn (s : Segment) (next : Option Char) : Prop :=
  s.kind = .word ∧ (∃ group, Reserved group (String.ofList s.text)) ∧ ¬ Bounds next

/-- A word has the category of its text unless it is reserved and does not end there. -/
theorem WordKind.eq_iff {spelling : String} {next : Option Char} {kind : TokenKind}
    (h : WordKind spelling next kind) :
    kind = (TokenKind.reserved? spelling).getD .identifier ↔
      ¬ ((∃ group, Reserved group spelling) ∧ ¬ Bounds next) := by
  rcases h with ⟨hbounds, hreserved⟩ | ⟨rfl, hnot⟩
  · simp [hreserved.spec.1, hbounds]
  · by_cases hgroup : ∃ group, Reserved group spelling
    · have hbounds : ¬ Bounds next := fun hbounds => hnot ⟨hbounds, hgroup⟩
      obtain ⟨group, hreserved⟩ := hgroup
      have hne : .identifier ≠ group := by
        rintro rfl
        exact hreserved
      refine iff_of_false ?_ fun hruns => hruns ⟨⟨group, hreserved⟩, hbounds⟩
      rw [hreserved.spec.1]
      exact hne
    · have hspec := reserved?_spec spelling
      cases hr : TokenKind.reserved? spelling with
      | none => exact iff_of_true rfl fun hruns => hgroup hruns.1
      | some group =>
          rw [hr] at hspec
          exact absurd ⟨group, hspec⟩ hgroup

/-- The token of a piece has the category of its text unless the piece runs on. -/
theorem Spelled.kind_ofText_iff {before rest : List Char} {next : Option Char} {s : Segment}
    {t : Token} (h : Spelled before next s t) (hfirst : First s rest) :
    t.kind = .ofText t.lexeme ↔ ¬ s.RunsOn next := by
  cases h with
  | word hkind =>
      simp only [ofText_word (Fits.of_first hfirst (by decide)), hkind.eq_iff, Segment.RunsOn,
        true_and]
  | number => simp [ofText_number (Fits.of_first hfirst (by decide)), Segment.RunsOn]
  | symbol => simp [ofText_symbol (Fits.of_first hfirst (by decide)), Segment.RunsOn]

theorem forall_suffix_cons {P : Segment → List Segment → Prop} {u : Segment}
    {later : List Segment} :
    (∀ s behind, s :: behind <:+ u :: later → P s behind) ↔
      P u later ∧ ∀ s behind, s :: behind <:+ later → P s behind := by
  simp only [List.suffix_cons_iff, List.cons.injEq]
  constructor
  · intro hall
    exact ⟨hall u later (.inl ⟨rfl, rfl⟩), fun s behind hs => hall s behind (.inr hs)⟩
  · rintro ⟨hu, hlater⟩ s behind (⟨rfl, rfl⟩ | hs)
    · exact hu
    · exact hlater s behind hs

/-- **The tokens of pieces have the categories of their texts unless a piece runs on.** -/
theorem Emits.kind_ofText_iff {before : List Char} {pieces : List Segment} {tokens : List Token}
    (h : Emits before pieces tokens)
    (hfirst : ∀ s behind, s :: behind <:+ pieces → First s (behind.flatMap Segment.text)) :
    (∀ t ∈ tokens, t.kind = .ofText t.lexeme) ↔
      ∀ s behind, s :: behind <:+ pieces → ¬ s.RunsOn (behind.flatMap Segment.text).head? := by
  induction h with
  | nil =>
      refine iff_of_true ?_ fun s behind hs => absurd (List.eq_nil_of_suffix_nil hs) (by simp)
      intro t ht
      obtain rfl := List.mem_singleton.1 ht
      show TokenKind.eof = TokenKind.ofText ""
      decide
  | token hspelled _ ih =>
      obtain ⟨hu, hlater⟩ := forall_suffix_cons.1 hfirst
      rw [List.forall_mem_cons, forall_suffix_cons, ih hlater, hspelled.kind_ofText_iff hu]
  | @passed before u later ts hkind _ ih =>
      have hu : ¬ u.RunsOn (later.flatMap Segment.text).head? := by
        rintro ⟨hword, _⟩
        rw [hword] at hkind
        cases hkind
      rw [forall_suffix_cons, ih (forall_suffix_cons.1 hfirst).2]
      exact (and_iff_right hu).symm

/-! ## Word characters behind words -/

theorem continuesWord_of_startsWord {c : Char} (h : startsWord c = true) :
    continuesWord c = true := by
  simp only [startsWord, Bool.or_eq_true] at h
  rcases h with hletter | hunderscore
  · simp [continuesWord, Char.isAlphanum, hletter]
  · simp [continuesWord, hunderscore]

theorem continuesWord_of_isDigit {c : Char} (h : c.isDigit = true) : continuesWord c = true := by
  simp [continuesWord, Char.isAlphanum, h]

/-- Among the ASCII characters, only those that continue words are word characters. -/
theorem isWordChar_of_lt {c : Char} (h : c.toNat < 128) : isWordChar c = continuesWord c := by
  have hle : ¬ 128 ≤ c.toNat := by omega
  simp [isWordChar, continuesWord, hle]

/-- White space has no word characters. -/
theorem isWordChar_of_isBlank {c : Char} (h : isBlank c = true) : isWordChar c = false := by
  obtain ⟨hword, hdigit, _⟩ := not_starts_of_isBlank h
  have hgo : continuesWord c = false := by
    simp only [startsWord, Bool.or_eq_false_iff] at hword
    simp [continuesWord, Char.isAlphanum, hword, hdigit]
  have htable : CodeRange.covers wordCharTable c = false := by
    have hdisjoint : blankTable.all (fun r => wordCharTable.all fun w =>
        decide (r.last < w.first) || decide (w.last < r.first)) = true := by decide +kernel
    simp only [List.all_eq_true, Bool.or_eq_true, decide_eq_true_eq] at hdisjoint
    simp only [isBlank, CodeRange.covers, CodeRange.contains, List.any_eq_true, Bool.and_eq_true,
      decide_eq_true_eq] at h
    obtain ⟨r, hr, hfirst, hlast⟩ := h
    refine Bool.eq_false_iff.2 fun hcovers => ?_
    simp only [CodeRange.covers, CodeRange.contains, List.any_eq_true, Bool.and_eq_true,
      decide_eq_true_eq] at hcovers
    obtain ⟨w, hw, hfirst', hlast'⟩ := hcovers
    have := hdisjoint r hr w hw
    omega
  simp only [continuesWord] at hgo
  simp [isWordChar, hgo, htable]

/-- A character that starts a piece behind a word is no word character. -/
theorem isWordChar_of_not_stray {c : Char} (hgo : continuesWord c = false)
    (hstray : isStray c = false) : isWordChar c = false := by
  simp only [isStray, Bool.not_eq_false', Bool.or_eq_true] at hstray
  rcases hstray with ((hword | hdigit) | hsymbol) | hblank
  · rw [continuesWord_of_startsWord hword] at hgo
    cases hgo
  · rw [continuesWord_of_isDigit hdigit] at hgo
    cases hgo
  · have hall : symbolChars.all (fun d => decide (d.toNat < 128)) = true := by decide
    have hc := List.all_eq_true.1 hall c (List.contains_iff_mem.1 hsymbol)
    rw [isWordChar_of_lt (of_decide_eq_true hc)]
    exact hgo
  · exact isWordChar_of_isBlank hblank

/-! ## Source texts -/

/-- A piece that is not stray starts with a character that is not. -/
theorem Fits.not_stray {kind : SegmentKind} {c : Char} {cs rest : List Char}
    (h : Fits kind (c :: cs) rest) : isStray c = false := by
  refine Bool.eq_false_iff.2 fun hstray => ?_
  exact not_opens_of_isStray hstray ⟨kind, c :: cs, rest, rfl, h⟩

/-- Where nothing is skipped, or all characters are ASCII, every reserved word ends where its piece
does. -/
theorem not_runsOn {policy : UnmatchedPolicy} {source : String} {tokens : List Token}
    (h : (tokenize policy source).2 = .ok tokens)
    (hsource : policy = .reject ∨ ∀ c ∈ source.toList, c.toNat < 128) {s : Segment}
    {behind : List Segment} (hs : s :: behind <:+ segments source.toList) :
    ¬ s.RunsOn (behind.flatMap Segment.text).head? := by
  obtain ⟨read, hsplit⟩ := hs
  rintro ⟨hword, _, hbounds⟩
  apply hbounds
  intro c hc
  -- the word goes on as long as it can
  have hgo : continuesWord c = false := by
    obtain ⟨kind, text⟩ := s
    subst hword
    have hfits := Fits.of_first (segments_first hsplit.symm).2 (by decide)
    cases hfits with
    | word _ _ hends => exact hends c hc
  rcases hsource with rfl | hascii
  · -- so the character starts a piece, which is accepted
    cases behind with
    | nil => simp at hc
    | cons u later =>
        have hu : segments source.toList = (read ++ [s]) ++ u :: later := by simp [hsplit]
        obtain ⟨hne, hfirst⟩ := segments_first hu
        obtain ⟨kind, text⟩ := u
        obtain ⟨d, ds, rfl⟩ := List.exists_cons_of_ne_nil hne
        obtain rfl : d = c := by simpa using hc
        have hkind : kind ≠ .stray := by
          intro hstray
          have hmem : (⟨kind, d :: ds⟩ : Segment) ∈ segments source.toList := by simp [hu]
          cases Pass.skip_of_stray (tokenize_ok h).1 hmem hne hstray
        exact isWordChar_of_not_stray hgo (Fits.of_first hfirst hkind).not_stray
  · have hmem : c ∈ source.toList := by
      rw [← segments_text source.toList, ← hsplit]
      simp only [List.flatMap_append, List.flatMap_cons, List.mem_append]
      exact .inr (.inr (List.mem_of_head? hc))
    rw [isWordChar_of_lt (hascii c hmem)]
    exact hgo

/-- The tokens of a text have the categories of their texts unless a piece runs on. -/
theorem tokenize_kind_iff {policy : UnmatchedPolicy} {source : String} {tokens : List Token}
    (h : (tokenize policy source).2 = .ok tokens) :
    (∀ t ∈ tokens, t.kind = .ofText t.lexeme) ↔
      ∀ s behind, s :: behind <:+ segments source.toList →
        ¬ s.RunsOn (behind.flatMap Segment.text).head? := by
  refine (tokenize_emits h).kind_ofText_iff ?_
  rintro s behind ⟨read, hsplit⟩
  exact (segments_first hsplit.symm).2

/-- Where nothing is skipped, or all characters are ASCII, the text of a token decides its
category. -/
theorem tokenize_kind {policy : UnmatchedPolicy} {source : String} {tokens : List Token}
    (h : (tokenize policy source).2 = .ok tokens)
    (hsource : policy = .reject ∨ ∀ c ∈ source.toList, c.toNat < 128) :
    ∀ t ∈ tokens, t.kind = .ofText t.lexeme :=
  (tokenize_kind_iff h).2 fun _ _ hs => not_runsOn h hsource hs

/-- **When the text of a token decides its category.**  It does for all tokens of a source text
exactly when no reserved word among its pieces has a word character behind it.  So it always does
where nothing is skipped, and in a text of ASCII characters. -/
theorem kind_of_text_iff {policy : UnmatchedPolicy} {source : String} {tokens : List Token}
    (h : (tokenize policy source).2 = .ok tokens) :
    ((∀ t ∈ tokens, t.kind = .ofText t.lexeme) ↔
      ∀ s behind, s :: behind <:+ segments source.toList →
        ¬ s.RunsOn (behind.flatMap Segment.text).head?) ∧
    ((policy = .reject ∨ ∀ c ∈ source.toList, c.toNat < 128) →
      ∀ t ∈ tokens, t.kind = .ofText t.lexeme) :=
  ⟨tokenize_kind_iff h, tokenize_kind h⟩

/-- An arrow behind `for` is no word character, so the word ends there, and what follows the arrow
does not matter. -/
theorem kind_of_text_before_arrow :
    let source := "for→é int9 9int"
    let tokens : List Token :=
      [⟨.scopeKeyword, "for", ⟨1, 0⟩⟩, ⟨.identifier, "int9", ⟨1, 6⟩⟩, ⟨.literal, "9", ⟨1, 11⟩⟩,
        ⟨.typeKeyword, "int", ⟨1, 12⟩⟩, .eof ⟨1, 15⟩]
    (tokenize .skip source).2 = .ok tokens ∧ (∀ t ∈ tokens, t.kind = .ofText t.lexeme) ∧
      ∀ s behind, s :: behind <:+ segments source.toList →
        ¬ s.RunsOn (behind.flatMap Segment.text).head? := by
  intro source tokens
  have h : (tokenize .skip source).2 = .ok tokens := eq_ok_of_toOption (by decide +kernel)
  have hkinds : ∀ t ∈ tokens, t.kind = .ofText t.lexeme := by decide
  exact ⟨h, hkinds, (kind_of_text_iff h).1.1 hkinds⟩

/-- In `for foré` the same text has two categories: the letter that is skipped behind the second
`for` makes it an identifier. -/
theorem skipped_letter_makes_identifier :
    (tokenize .skip "for foré").2 = .ok
      [⟨.scopeKeyword, "for", ⟨1, 0⟩⟩, ⟨.identifier, "for", ⟨1, 4⟩⟩, .eof ⟨1, 8⟩] ∧
    TokenKind.ofText "for" = .scopeKeyword :=
  ⟨eq_ok_of_toOption (by decide +kernel), by decide⟩

end ScopeFront
