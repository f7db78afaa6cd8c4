import ScopeFront.Proofs.Lexer.Categories
import ScopeFront.Proofs.Lexer.Policies

/-!
# Reading the joined texts of tokens

The texts of the tokens of a source, with a blank behind each, are read as the same tokens.  A blank
ends every word and number, and no comment begins with a slash that a blank follows.  The categories
come back as well, provided that they are those of the texts.

* `IsLexeme` – the texts of words, numbers and symbols;
* `Separate`, `Separate.lexFrom` – one such text, before something that leaves it as it is;
* `lexFrom_before_blank` – one such text with a blank behind it;
* `lexFrom_joined` – a sequence of them;
* `rejoins_iff` – tokens come back exactly when they have the categories of their texts;
* `rejoined_tokens` – the tokens of a source text.
-/

set_option autoImplicit false

namespace ScopeFront

open Text

/-- The text is a word, a number or a symbol. -/
def IsLexeme (text : List Char) : Prop :=
  ∃ kind rest, SegmentKind.isToken kind = true ∧ Fits kind text rest

/-! ## One text -/

/-- The text is a word, a number or a symbol before `rest`, and by itself it is the same: a word
ends there, and a slash begins no comment. -/
structure Separate (kind : SegmentKind) (text rest : List Char) : Prop where
  token : kind.isToken = true
  fits : Fits kind text rest
  word : kind = .word → Bounds rest.head?
  slash : text = ['/'] → ∀ c, rest.head? = some c → c ≠ '/' ∧ c ≠ '*'

namespace Separate

variable {kind : SegmentKind} {text rest : List Char}

theorem ofChars {c : Char} {cs : List Char} (h : Separate kind (c :: cs) rest) :
    Segment.ofChars c (cs ++ rest) = (⟨kind, c :: cs⟩, rest) := by
  obtain ⟨htoken, hfits, _, hnext⟩ := h
  cases hfits with
  | word hstart hgo hends =>
      obtain ⟨htake, hdrop⟩ := takeWhile_of_ends hgo hends
      simp [Segment.ofChars, Segment.run, hstart, htake, hdrop]
  | number hdigits hends =>
      obtain ⟨hdigit, hgo⟩ := List.forall_mem_cons.1 hdigits
      obtain ⟨htake, hdrop⟩ := takeWhile_of_ends hgo hends
      simp [Segment.ofChars, Segment.run, startsWord_of_isDigit hdigit, hdigit, htake, hdrop]
  | symbol hsymbol =>
      obtain ⟨hword, hdigit⟩ := not_starts_of_isSymbolChar hsymbol
      by_cases hslash : c = '/'
      · subst hslash
        cases rest with
        | nil => rfl
        | cons d ds =>
            obtain ⟨hline, hblock⟩ := hnext rfl d rfl
            simp [Segment.ofChars, Segment.ofSlash, hword, hdigit, hline, hblock]
      · simp [Segment.ofChars, hword, hdigit, hslash, hsymbol]
  | lineComment _ _ => cases htoken
  | blockComment _ => cases htoken
  | blank _ _ => cases htoken

/-- The piece is read as the token that its text is by itself. -/
theorem read (h : Separate kind text rest) (policy : UnmatchedPolicy) (place : Span) :
    ∃ reading, (⟨kind, text⟩ : Segment).read policy place rest.head? = .ok reading ∧
      reading.token = some ⟨.ofText (String.ofList text), String.ofList text, place⟩ := by
  obtain ⟨htoken, hfits, hword, hslash⟩ := h
  cases kind with
  | word =>
      have hbounds := bounds_iff.1 (hword rfl)
      refine ⟨_, rfl, ?_⟩
      simp [Reading.ofToken, TokenKind.ofWord, hbounds, ofText_word hfits]
  | number =>
      refine ⟨_, rfl, ?_⟩
      rw [ofText_number hfits]
      rfl
  | symbol =>
      have hopen : ¬ (policy = .reject ∧ text = ['/'] ∧ rest.head? = some '*') := by
        rintro ⟨_, htext, hnext⟩
        exact (hslash htext '*' hnext).2 rfl
      refine ⟨.ofToken ⟨.symbol, String.ofList text, place⟩, if_neg hopen, ?_⟩
      rw [ofText_symbol hfits]
      rfl
  | _ => cases htoken

/-- The text is one token, and what stands behind it is read by itself. -/
theorem lexFrom (h : Separate kind text rest) (policy : UnmatchedPolicy) (place : Span) :
    ScopeFront.lexFrom policy place (text ++ rest) =
      (ScopeFront.lexFrom policy (place.after text) rest).map
        (⟨.ofText (String.ofList text), String.ofList text, place⟩ :: ·) := by
  obtain ⟨reading, hread, htoken⟩ := h.read policy place
  obtain ⟨c, cs, rfl, _⟩ := h.fits.starts
  rw [List.cons_append, lexFrom_ok h.ofChars hread, htoken]
  rfl

end Separate

theorem ends_blank {p : Char → Bool} (h : p ' ' = false) (later : List Char) :
    Ends p (' ' :: later) := by
  intro c hc
  obtain rfl : ' ' = c := Option.some.inj hc
  exact h

/-- What is a piece before something is one before a blank. -/
theorem Fits.before_blank {kind : SegmentKind} {text rest : List Char} (h : Fits kind text rest)
    (hkind : kind.isToken = true) (later : List Char) : Fits kind text (' ' :: later) := by
  cases h with
  | word hstart hgo _ => exact .word hstart hgo (ends_blank (by decide) later)
  | number hdigits _ => exact .number hdigits (ends_blank (by decide) later)
  | symbol hsymbol => exact .symbol hsymbol
  | lineComment _ _ => cases hkind
  | blockComment _ => cases hkind
  | blank _ _ => cases hkind

theorem IsLexeme.separate {text : List Char} (h : IsLexeme text) (later : List Char) :
    ∃ kind, Separate kind text (' ' :: later) := by
  obtain ⟨kind, rest, hkind, hfits⟩ := h
  refine ⟨kind, hkind, hfits.before_blank hkind later, fun _ => bounds_iff.2 ?_, ?_⟩
  · show isWordChar ' ' = false
    decide
  · -- the blank is neither a slash nor a star
    rintro _ c hc
    obtain rfl : ' ' = c := Option.some.inj hc
    decide

/-- A text with a blank behind it is one token, and what stands behind the blank is read by
itself. -/
theorem lexFrom_before_blank (policy : UnmatchedPolicy) (place : Span) {text : List Char}
    (h : IsLexeme text) (later : List Char) :
    lexFrom policy place (text ++ ' ' :: later) =
      (lexFrom policy (place.after (text ++ [' '])) later).map
        (⟨.ofText (String.ofList text), String.ofList text, place⟩ :: ·) := by
  obtain ⟨kind, hseparate⟩ := h.separate later
  rw [hseparate.lexFrom, lexFrom_blank (by decide), Span.after_append]
  rfl

/-! ## Sequences of texts -/

/-- Texts with a blank behind each are read as the tokens that they are by themselves. -/
theorem lexFrom_joined (policy : UnmatchedPolicy) (place : Span) {texts : List String}
    (h : ∀ text ∈ texts, IsLexeme text.toList) :
    ∃ tokens, lexFrom policy place (texts.flatMap (·.toList ++ [' '])) = .ok tokens ∧
      tokens.map Token.content =
        (texts ++ [""]).map fun text => (TokenKind.ofText text, text) := by
  induction texts generalizing place with
  | nil =>
      refine ⟨_, lexFrom_nil policy place, ?_⟩
      show [(TokenKind.eof, "")] = [(TokenKind.ofText "", "")]
      decide
  | cons text texts ih =>
      obtain ⟨hhere, hlater⟩ := List.forall_mem_cons.1 h
      obtain ⟨tokens, hread, hcontent⟩ := ih (place.after (text.toList ++ [' '])) hlater
      refine ⟨⟨.ofText text, text, place⟩ :: tokens, ?_, ?_⟩
      · rw [List.flatMap_cons, List.append_assoc, List.singleton_append,
          lexFrom_before_blank policy place hhere, hread, String.ofList_toList]
        rfl
      · rw [List.map_cons, hcontent]
        rfl

/-- Texts are joined with blanks between them; an empty one behind them all leaves a blank behind
each. -/
theorem toList_join_blanks (texts : List String) :
    (" ".intercalate (texts ++ [""])).toList = texts.flatMap (·.toList ++ [' ']) := by
  rw [String.toList_intercalate]
  induction texts with
  | nil => rfl
  | cons text texts ih =>
      cases texts with
      | nil => simp [List.intercalate]
      | cons next texts =>
          rw [List.cons_append, List.cons_append, List.map_cons, List.map_cons,
            List.intercalate_cons_cons, List.flatMap_cons, ← ih]
          simp

/-! ## Source texts -/

/-- The joined texts of the tokens are read as tokens that are the same, but for their places. -/
def Rejoins (policy : UnmatchedPolicy) (tokens : List Token) : Prop :=
  ∃ again, (tokenize policy (" ".intercalate (tokens.map Token.lexeme))).2 = .ok again ∧
    again.map Token.content = tokens.map Token.content

/-- The text of every token but the end marker is a word, a number or a symbol. -/
theorem isLexeme_of_tokenize {policy : UnmatchedPolicy} {source : String} {tokens : List Token}
    (h : (tokenize policy source).2 = .ok tokens) {t : Token} (ht : t ∈ tokens)
    (heof : t.isEof = false) : IsLexeme t.lexeme.toList := by
  obtain ⟨read, s, behind, next, hpieces, hspelled⟩ := (tokenize_emits h).spelled ht heof
  obtain ⟨_, htext, htoken⟩ := hspelled.eq
  have hkind : s.kind ≠ .stray := by
    intro hstray
    rw [hstray] at htoken
    cases htoken
  rw [htext]
  exact ⟨s.kind, _, htoken, Fits.of_first (segments_first hpieces).2 hkind⟩

/-- The joined texts of tokens are read as the tokens that they are by themselves. -/
theorem tokenize_joined {policy : UnmatchedPolicy} {source : String} {tokens : List Token}
    (h : (tokenize policy source).2 = .ok tokens) :
    ∃ again, (tokenize policy (" ".intercalate (tokens.map Token.lexeme))).2 = .ok again ∧
      again.map Token.content = tokens.map fun t => (.ofText t.lexeme, t.lexeme) := by
  obtain ⟨proper, hproper, htokens⟩ := (tokenize_emits h).ends
  have hlexemes : tokens.map Token.lexeme = proper.map Token.lexeme ++ [""] := by
    rw [htokens, List.map_append]
    rfl
  have htexts : ∀ text ∈ proper.map Token.lexeme, IsLexeme text.toList := by
    intro text htext
    obtain ⟨t, ht, rfl⟩ := List.mem_map.1 htext
    have hmem : t ∈ tokens := by
      rw [htokens]
      exact List.mem_append_left _ ht
    exact isLexeme_of_tokenize h hmem (hproper t ht)
  obtain ⟨again, hread, hcontent⟩ := lexFrom_joined policy .start htexts
  refine ⟨again, ?_, ?_⟩
  · rw [tokenize_snd, hlexemes, toList_join_blanks, hread]
  · rw [hcontent, ← hlexemes, List.map_map]
    rfl

/-- Tokens come back exactly when they have the categories of their texts. -/
theorem rejoins_iff {policy : UnmatchedPolicy} {source : String} {tokens : List Token}
    (h : (tokenize policy source).2 = .ok tokens) :
    Rejoins policy tokens ↔ ∀ t ∈ tokens, t.kind = .ofText t.lexeme := by
  obtain ⟨again, hread, hcontent⟩ := tokenize_joined h
  constructor
  · rintro ⟨other, hother, hsame⟩ t ht
    obtain rfl : again = other := Except.ok.inj (hread.symm.trans hother)
    have hkinds := List.map_inj_left.1 (hcontent.symm.trans hsame) t ht
    exact (Prod.mk.inj hkinds).1.symm
  · intro hkind
    refine ⟨again, hread, hcontent.trans (List.map_congr_left fun t ht => ?_)⟩
    rw [← hkind t ht]
    rfl

/-- **Joining the texts of tokens and reading them again gives the same tokens.**  This holds for
every source text that is read where nothing is skipped, and where stray characters are skipped for
every text of ASCII characters, which is always read. -/
theorem rejoined_tokens (source : String) :
    (∀ tokens, (tokenize .reject source).2 = .ok tokens → Rejoins .reject tokens) ∧
    ((∀ c ∈ source.toList, c.toNat < 128) →
      ∃ tokens, (tokenize .skip source).2 = .ok tokens ∧ Rejoins .skip tokens) := by
  constructor
  · intro tokens h
    exact (rejoins_iff h).2 (tokenize_kind h (.inl rfl))
  · intro hascii
    have h := tokenize_skip source
    exact ⟨_, h, (rejoins_iff h).2 (tokenize_kind h (.inr hascii))⟩

/-- In `9for/*/` the digits touch a reserved word and the comment has no end, so its three
characters are symbols; with blanks between them they are symbols again.  Where nothing is skipped,
the text without the comment is read. -/
theorem rejoined_tokens_unclosed :
    let number : Token := ⟨.literal, "9", ⟨1, 0⟩⟩
    let word : Token := ⟨.scopeKeyword, "for", ⟨1, 1⟩⟩
    let symbols : List Token :=
      [⟨.symbol, "/", ⟨1, 4⟩⟩, ⟨.symbol, "*", ⟨1, 5⟩⟩, ⟨.symbol, "/", ⟨1, 6⟩⟩]
    (tokenize .reject "9for").2 = .ok [number, word, .eof ⟨1, 4⟩] ∧
      Rejoins .reject [number, word, .eof ⟨1, 4⟩] ∧
      (∀ c ∈ "9for/*/".toList, c.toNat < 128) ∧
      (tokenize .skip "9for/*/").2 = .ok (number :: word :: symbols ++ [.eof ⟨1, 7⟩]) ∧
      Rejoins .skip (number :: word :: symbols ++ [.eof ⟨1, 7⟩]) := by
  intro number word symbols
  have hreject : (tokenize .reject "9for").2 = .ok [number, word, .eof ⟨1, 4⟩] :=
    eq_ok_of_toOption (by decide +kernel)
  have hskip : (tokenize .skip "9for/*/").2 = .ok (number :: word :: symbols ++ [.eof ⟨1, 7⟩]) :=
    eq_ok_of_toOption (by decide +kernel)
  have hascii : ∀ c ∈ "9for/*/".toList, c.toNat < 128 := by simp
  obtain ⟨tokens, htokens, hrejoins⟩ := (rejoined_tokens "9for/*/").2 hascii
  obtain rfl := Except.ok.inj (hskip.symm.trans htokens)
  exact ⟨hreject, (rejoined_tokens "9for").1 _ hreject, hascii, hskip, hrejoins⟩

end ScopeFront
