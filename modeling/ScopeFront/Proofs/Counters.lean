import Mathlib.Algebra.Group.Nat.Defs
import ScopeFront.Proofs.Lexer.Policies
import ScopeFront.Proofs.Lexer.Progress
import ScopeFront.Proofs.Parser.Operations

/-!
# Counters in words

Lines and columns, the place in the tokens and the depth are counted in words of 64 bits.  Each of
them is bounded by the characters or the tokens that were read so far, so that none overflows on a
text that fits into half of what a word can address, whatever the allowed depth.

* `Word.add?`, `Word.sub?` – sums and differences that fit into a word;
* `Span.step?`, `Span.after?`, `Span.text?` – places, counted in words;
* `Parser.peek?`, `Parser.peekNext?`, `Parser.advance?`, `Parser.enterNested?` – the steps of a
  parser, counted in words;
* `Span.reach_step`, `Span.reach_after` – a place is not further on than its text is long;
* `Scanner.Reaches`, `Scanner.Counted` – the states between two pieces, and what they count;
* `Scanner.Counted.readPiece`, `Scanner.Reaches.counted` – one piece, and a run over pieces;
* `Parser.Fits`, `Parser.fits`, `Parser.Acts.bounds` – the steps of a parser, and what it counts;
* `counters_fit_words` – both stages on a source text.
-/

set_option autoImplicit false

namespace ScopeFront

/-! ## Words -/

namespace Word

/-- What a word can no longer hold. -/
def bound : Nat := 2 ^ 64

/-- The sum, if it fits into a word. -/
def add? (a b : Nat) : Option Nat := if a + b < bound then some (a + b) else none

/-- The difference, if it is not negative. -/
def sub? (a b : Nat) : Option Nat := if b ≤ a then some (a - b) else none

theorem add?_eq {a b : Nat} (h : a + b < bound) : add? a b = some (a + b) := if_pos h

theorem sub?_eq {a b : Nat} (h : b ≤ a) : sub? a b = some (a - b) := if_pos h

end Word

/-! ## Places -/

namespace Span

/-- The place after one character, if its counters fit into words. -/
def step? (s : Span) (c : Char) : Option Span :=
  if c = '\n' then do
    let line ← Word.add? s.line 1
    return ⟨line, 0⟩
  else do
    let column ← Word.add? s.column 1
    return ⟨s.line, column⟩

/-- The place reached after reading `text`, if all counters on the way fit into words. -/
def after? (s : Span) (text : List Char) : Option Span := text.foldlM step? s

/-- The place as it is shown, if the column counted from one fits into a word. -/
def text? (s : Span) : Option String := do
  let column ← Word.add? s.column 1
  return s!"{s.line}:{column}"

/-- Lines before the place and columns before it on its line, together. -/
def reach (s : Span) : Nat := s.line - 1 + s.column

variable {s : Span}

/-- A character takes a place on by at most one, and never before the first line. -/
theorem reach_step (hs : 1 ≤ s.line) (c : Char) :
    1 ≤ (s.step c).line ∧ (s.step c).reach ≤ s.reach + 1 := by
  unfold step reach
  split
  · simp only
    omega
  · simp only
    omega

/-- **A text takes a place on by at most its length.** -/
theorem reach_after (hs : 1 ≤ s.line) (text : List Char) :
    1 ≤ (s.after text).line ∧ (s.after text).reach ≤ s.reach + text.length := by
  induction text generalizing s with
  | nil => exact ⟨hs, Nat.le_refl _⟩
  | cons c text ih =>
      obtain ⟨hline, hreach⟩ := reach_step hs c
      obtain ⟨hline', hreach'⟩ := ih hline
      rw [after_cons, List.length_cons]
      exact ⟨hline', by omega⟩

theorem reach_after_start (read : List Char) :
    1 ≤ (Span.start.after read).line ∧ (Span.start.after read).reach ≤ read.length := by
  obtain ⟨hline, hreach⟩ := reach_after (s := .start) (Nat.le_refl 1) read
  exact ⟨hline, Nat.le_trans hreach (Nat.le_of_eq (Nat.zero_add _))⟩

theorem step?_eq (hs : s.reach + 2 < Word.bound) (c : Char) : s.step? c = some (s.step c) := by
  -- the line is counted from one, so that the next one is two more than the lines before the place
  unfold reach at hs
  unfold step? step
  split
  · rw [Word.add?_eq (by omega)]
    rfl
  · rw [Word.add?_eq (by omega)]
    rfl

/-- Where the reach behind a text fits into a word, so does every counter on the way. -/
theorem after?_eq (hs : 1 ≤ s.line) {text : List Char}
    (h : s.reach + text.length + 1 < Word.bound) : s.after? text = some (s.after text) := by
  induction text generalizing s with
  | nil => rfl
  | cons c text ih =>
      rw [List.length_cons] at h
      obtain ⟨hline, hreach⟩ := reach_step hs c
      have hstep : s.step? c = some (s.step c) := step?_eq (by omega) c
      rw [after?, List.foldlM_cons, hstep]
      exact ih hline (by omega)

theorem text?_eq (h : s.reach + 1 < Word.bound) : s.text? = some s.text := by
  unfold reach at h
  rw [text?, Word.add?_eq (by omega)]
  rfl

end Span

/-! ## Scanners -/

namespace Scanner

variable {policy : UnmatchedPolicy} {source : String} {read : List Char} {s s' : Scanner}

/-- The scanners that reading piece after piece leads to. -/
def Reaches (policy : UnmatchedPolicy) : Scanner → Scanner → Prop :=
  Relation.ReflTransGen fun s s' => ∃ log, s.readPiece policy = (s', log, .ok ())

/-- The scanner stands behind `read` and has at most as many tokens, each at a place in `read`. -/
structure Counted (source : String) (read : List Char) (s : Scanner) : Prop where
  stands : s.StandsIn source read
  tokens : s.tokens.length ≤ read.length
  spans : ∀ t ∈ s.tokens, ∃ before, before <+: read ∧ t.span = Span.start.after before

theorem counted_ofSource (source : String) : (ofSource source).Counted source [] where
  stands := standsIn_ofSource source
  tokens := Nat.le_refl 0
  spans := fun _ ht => absurd ht List.not_mem_nil

/-- **A piece adds at most one token, and at least one character.** -/
theorem Counted.readPiece {log : List Event} (h : s.Counted source read)
    (hok : s.readPiece policy = (s', log, .ok ())) :
    ∃ more, s'.Counted source (read ++ more) := by
  cases hs : s.unread with
  | nil =>
      rw [readPiece_nil hs] at hok
      cases hok
      exact ⟨[], (List.append_nil read).symm ▸ h⟩
  | cons piece later =>
      refine ⟨piece.text, h.stands.readPiece hs hok, ?_, ?_⟩
      · obtain ⟨reading, -, rfl⟩ := exists_reading hs hok
        have hpos := List.length_pos_iff.2 (h.stands.behind hs).1
        have htoken := Option.length_toList_le (o := reading.token)
        have htokens := h.tokens
        simp only [List.length_append]
        omega
      · obtain ⟨reading, hr, rfl⟩ := exists_reading hs hok
        intro t ht
        rcases List.mem_append.1 ht with hearlier | hhere
        · obtain ⟨before, hbefore, hspan⟩ := h.spans t hearlier
          exact ⟨before, hbefore.trans (List.prefix_append ..), hspan⟩
        · refine ⟨read, List.prefix_append .., ?_⟩
          rw [Segment.span_of_token hr hhere, h.stands.place]

theorem Reaches.counted (h : (ofSource source).Reaches policy s) :
    ∃ read, s.Counted source read := by
  induction h with
  | refl => exact ⟨[], counted_ofSource source⟩
  | tail _ hstep ih =>
      obtain ⟨read, hcounted⟩ := ih
      obtain ⟨log, hok⟩ := hstep
      obtain ⟨more, hmore⟩ := hcounted.readPiece hok
      exact ⟨read ++ more, hmore⟩

namespace StandsIn

theorem length_le (h : s.StandsIn source read) {part : List Char} (hpart : part <+: s.unreadText) :
    (read ++ part).length ≤ source.length := by
  rw [← String.length_toList, h.text, List.length_append, List.length_append]
  exact Nat.add_le_add_left hpart.length_le _

/-- The place behind a further part of the text is not further on than all that was read. -/
theorem reach_le (h : s.StandsIn source read) (part : List Char) :
    1 ≤ (s.place.after part).line ∧ (s.place.after part).reach ≤ (read ++ part).length := by
  rw [h.place, ← Span.after_append]
  exact Span.reach_after_start _

/-- Reading a further part of the text, and showing the place behind it, is done in words. -/
theorem place_fits (h : s.StandsIn source read) (hn : source.length < 2 ^ 63) {part : List Char}
    (hpart : part <+: s.unreadText) :
    s.place.after? part = some (s.place.after part) ∧
      (s.place.after part).text? = some (s.place.after part).text := by
  have hlength := h.length_le hpart
  -- the place before the part, and the one behind it
  obtain ⟨hline, hreach⟩ := h.reach_le []
  obtain ⟨_, hbehind⟩ := h.reach_le part
  simp only [Span.after_nil, List.append_nil, List.length_append] at hline hreach hlength hbehind
  have hbound : Word.bound = 2 ^ 64 := rfl
  exact ⟨Span.after?_eq hline (by omega), Span.text?_eq (by omega)⟩

end StandsIn

/-- The places of the tokens, and of an end marker behind them, are shown in words. -/
theorem Counted.span_fits (h : s.Counted source read) (hn : source.length < 2 ^ 63) {t : Token}
    (ht : t ∈ s.tokens ++ [Token.eof s.place]) : t.span.text? = some t.span.text := by
  have hplace : ∃ before, before <+: read ∧ t.span = Span.start.after before := by
    rcases List.mem_append.1 ht with hearlier | hend
    · exact h.spans t hearlier
    · rw [List.mem_singleton.1 hend]
      exact ⟨read, List.prefix_rfl, h.stands.place⟩
  obtain ⟨before, hbefore, hspan⟩ := hplace
  have hread := h.stands.length_le List.nil_prefix
  rw [List.append_nil] at hread
  have hlength := hbefore.length_le
  have hreach := (Span.reach_after_start before).2
  have hbound : Word.bound = 2 ^ 64 := rfl
  rw [hspan]
  exact Span.text?_eq (by omega)

/-- A pass is made up of pieces, to the end or to the piece at fault. -/
theorem exists_reaches_pass (policy : UnmatchedPolicy) (s : Scanner) :
    ∃ m log, s.Reaches policy m ∧
      ((m.unread = [] ∧ s.pass policy = (m, log, .ok ())) ∨
        ∃ e log', m.readPiece policy = (m, log', .error e) ∧
          s.pass policy = (m, log, .error e)) := by
  generalize hk : s.unread.length = k
  induction k generalizing s with
  | zero =>
      have hs := List.eq_nil_of_length_eq_zero hk
      exact ⟨s, [], .refl, .inl ⟨hs, pass_nil hs⟩⟩
  | succ k ih =>
      obtain ⟨piece, later, hs⟩ := List.exists_cons_of_length_eq_add_one hk
      rw [pass_eq_readPiece]
      cases hr : piece.read policy s.place (firstChar? later) with
      | error e =>
          have hpiece := readPiece_of_error hs hr
          rw [hpiece]
          exact ⟨s, _, .refl, .inr ⟨e, _, hpiece, rfl⟩⟩
      | ok reading =>
          have hpiece := readPiece_of_ok hs hr
          rw [hpiece]
          rw [hs, List.length_cons] at hk
          obtain ⟨m, log, hm, hend⟩ := ih ⟨later, s.place.after piece.text,
            s.tokens ++ reading.token.toList⟩ (Nat.succ.inj hk)
          refine ⟨m, [reading.event] ++ log, .head ⟨_, hpiece⟩ hm, ?_⟩
          rcases hend with ⟨hdone, hpass⟩ | ⟨e, log', hfault, hpass⟩
          · exact .inl ⟨hdone, by rw [andThen, hpass]⟩
          · exact .inr ⟨e, log', hfault, by rw [andThen, hpass]⟩

/-- A source text is read piece after piece, to its end or to the piece at fault. -/
theorem exists_reaches_tokenize (policy : UnmatchedPolicy) (source : String) :
    ∃ m, (ofSource source).Reaches policy m ∧
      ((m.unread = [] ∧ (tokenize policy source).2 = .ok (m.tokens ++ [Token.eof m.place])) ∨
        ∃ e log, m.readPiece policy = (m, log, .error e) ∧
          (tokenize policy source).2 = .error e) := by
  obtain ⟨m, log, hm, hend⟩ := exists_reaches_pass policy (ofSource source)
  refine ⟨m, hm, ?_⟩
  unfold tokenize
  rw [scan_eq]
  rcases hend with ⟨hdone, hpass⟩ | ⟨e, log', hfault, hpass⟩
  · exact .inl ⟨hdone, by rw [hpass]; rfl⟩
  · exact .inr ⟨e, log', hfault, by rw [hpass]; rfl⟩

end Scanner

/-- The tokens of a source text are those of a scanner at its end, and an end marker there. -/
theorem exists_counted_of_tokenize {policy : UnmatchedPolicy} {source : String}
    {tokens : List Token} (h : (tokenize policy source).2 = .ok tokens) :
    ∃ m : Scanner, ∃ read, m.Counted source read ∧ tokens = m.tokens ++ [Token.eof m.place] := by
  obtain ⟨m, hm, ⟨_, hok⟩ | ⟨e, log, _, herror⟩⟩ := Scanner.exists_reaches_tokenize policy source
  · obtain ⟨read, hcounted⟩ := hm.counted
    rw [hok] at h
    exact ⟨m, read, hcounted, (Except.ok.inj h).symm⟩
  · rw [herror] at h
    cases h

/-- The end marker is the one token without a character. -/
theorem length_of_tokenize {policy : UnmatchedPolicy} {source : String} {tokens : List Token}
    (h : (tokenize policy source).2 = .ok tokens) : tokens.length ≤ source.length + 1 := by
  obtain ⟨m, read, hcounted, rfl⟩ := exists_counted_of_tokenize h
  have hread := hcounted.stands.length_le List.nil_prefix
  have hcount := hcounted.tokens
  rw [List.append_nil] at hread
  rw [List.length_append, List.length_singleton]
  omega

theorem terminated_of_tokenize {policy : UnmatchedPolicy} {source : String} {tokens : List Token}
    (h : (tokenize policy source).2 = .ok tokens) : terminated tokens = tokens := by
  obtain ⟨m, read, _, rfl⟩ := exists_counted_of_tokenize h
  rw [terminated, List.getLast?_concat]
  rfl

/-! ## Parsers -/

namespace Parser

/-- The token at the place, if its index can be computed in words. -/
def peek? (p : Parser) : Option Token := do
  let last ← Word.sub? p.tokens.length 1
  p.tokens[min p.cursor last]?

/-- The token behind the one at the place, if its index can be computed in words. -/
def peekNext? (p : Parser) : Option Token := do
  let behind ← Word.add? p.cursor 1
  let last ← Word.sub? p.tokens.length 1
  p.tokens[min behind last]?

/-- The token at the place and the index behind it, if both can be computed in words. -/
def advance? (p : Parser) : Option (Token × Nat) := do
  let t ← p.peek?
  if t.isEof then
    return (t, p.cursor)
  else
    let behind ← Word.add? p.cursor 1
    return (t, behind)

/-- The depth behind a bracket, or the error that points at it, if words can hold it. -/
def enterNested? (p : Parser) : Option (Except ParseError Nat) :=
  if p.limit ≤ p.depth then do
    let before ← Word.sub? p.cursor 1
    let t ← p.tokens[before]?
    return .error (.tooDeep (.ofToken t) p.limit)
  else do
    let depth ← Word.add? p.depth 1
    return .ok depth

/-- The steps of a parser at this place can be taken in words; behind a bracket it can open a
level. -/
structure Fits (p : Parser) : Prop where
  peek : p.peek? = some p.peek
  peekNext : p.peekNext? = some p.peekNext
  advance : p.advance? = some (p.peek, p.next.cursor)
  enter : p.peek.opensLevel = true →
    p.next.enterNested? =
      some ((Rule.enterNested p.next).2.map fun _ => (Rule.enterNested p.next).1.depth)

variable {p q : Parser}

theorem cursor_lt_length (p : Parser) : p.cursor < p.tokens.length := by
  rw [p.length_tokens]
  omega

theorem peek?_eq (p : Parser) : p.peek? = some p.peek := by
  have hlt := p.cursor_lt_length
  rw [peek?, Word.sub?_eq (by omega)]
  show p.tokens[min p.cursor (p.tokens.length - 1)]? = some p.peek
  rw [Nat.min_eq_left (by omega), p.sees.here]

theorem peekNext?_eq (h : p.cursor + 1 < Word.bound) : p.peekNext? = some p.peekNext := by
  have hlt := p.cursor_lt_length
  rw [peekNext?, Word.add?_eq h, Word.sub?_eq (by omega)]
  exact p.sees.behind

theorem advance?_eq (hp : p.Proper) (h : p.cursor + 1 < Word.bound) :
    p.advance? = some (p.peek, p.next.cursor) := by
  rw [advance?, p.peek?_eq, Word.add?_eq h]
  cases ht : p.peek.isEof with
  | false =>
      have hlength := (hp.reaches_next ht).length_passed
      have hcursor : p.next.cursor = p.cursor + 1 := by
        rw [cursor, hlength, List.length_singleton, Nat.add_comm]
        rfl
      simp [ht, hcursor]
  | true =>
      have hahead : p.ahead = [] := by
        have hend := hp.peek_isEof
        rw [ht] at hend
        exact List.isEmpty_iff.1 hend.symm
      have hstay : p.next = p := by rw [next, hahead]
      simp [ht, hstay]

theorem enterNested?_eq (hcursor : 1 ≤ p.cursor) (hdepth : p.depth + 1 < Word.bound) :
    p.enterNested? =
      some ((Rule.enterNested p).2.map fun _ => (Rule.enterNested p).1.depth) := by
  unfold enterNested?
  by_cases hle : p.limit ≤ p.depth
  · rw [if_pos hle, Rule.enterNested_of_le hle, Word.sub?_eq hcursor]
    simp only [Option.bind_eq_bind, Option.bind_some, p.sees.before]
    rfl
  · rw [if_neg hle, Rule.enterNested_of_lt (Nat.lt_of_not_le hle), Word.add?_eq hdepth]
    rfl

/-- Where the place and the brackets read leave room in a word, so does every step. -/
theorem fits (hp : p.Proper) (hcursor : p.cursor + 1 < Word.bound)
    (hdepth : p.depth + 1 < Word.bound) : p.Fits where
  peek := p.peek?_eq
  peekNext := peekNext?_eq hcursor
  advance := advance?_eq hp hcursor
  enter := by
    intro hopens
    have hlength := (hp.reaches_next (Token.isEof_of_opensLevel hopens)).length_passed
    refine enterNested?_eq ?_ ?_
    · rw [cursor, hlength, List.length_singleton]
      omega
    · rw [p.next_depth]
      exact hdepth

/-- What a parser counts in `n + 1` tokens stays within `n`. -/
theorem Acts.bounds {tokens : List Token} {limit n : Nat} (hlength : tokens.length ≤ n + 1)
    (hterminated : terminated tokens = tokens) (h : (ofTokens tokens limit).Acts 0 q) :
    q.tokens = tokens ∧ q.cursor ≤ n ∧ q.depth ≤ q.opened ∧ q.opened ≤ n := by
  obtain ⟨ts, hts⟩ := h.moves.reaches
  have htokens : q.tokens = tokens := by rw [hts.tokens, ofTokens_tokens, hterminated]
  have hlt := q.cursor_lt_length
  rw [htokens] at hlt
  have hopened : q.opened ≤ q.cursor := q.opened_le_cursor
  exact ⟨htokens, by omega, h.depth_le (ofTokens_proper ..) (Nat.zero_le _), by omega⟩

end Parser

/-! ## Both stages -/

/-- **No counter overflows.**  The scanner reads a source text piece after piece, to its end or to
the piece at fault.  Between two pieces, and behind any part of what is left, the lines before the
place and the columns before it are together no more than the characters read, and there are no more
tokens than characters.  With the end marker there is at most one token more.

The parser reads these tokens in acts.  Wherever acts lead it, it has not passed as many tokens as
there are characters, and no more levels are open than brackets were read.

So on a text of fewer than `2 ^ 63` characters every place is reached, shown and looked at in words,
and every level is opened in words, whatever the allowed depth. -/
theorem counters_fit_words (settings : Settings) (source : String) :
    let n := source.length
    let policy := settings.unmatched
    (∃ m, (Scanner.ofSource source).Reaches policy m ∧
      ((m.unread = [] ∧ (tokenize policy source).2 = .ok (m.tokens ++ [Token.eof m.place])) ∨
        ∃ e log, m.readPiece policy = (m, log, .error e) ∧
          (tokenize policy source).2 = .error e)) ∧
    (∀ s, (Scanner.ofSource source).Reaches policy s → ∃ read, s.StandsIn source read ∧
      s.tokens.length ≤ read.length ∧ ∀ part, part <+: s.unreadText →
        let place := s.place.after part
        (1 ≤ place.line ∧ place.line - 1 + place.column ≤ (read ++ part).length ∧
            (read ++ part).length ≤ n) ∧
          (n < 2 ^ 63 →
            s.place.after? part = some place ∧ place.text? = some place.text)) ∧
    ∀ tokens, (tokenize policy source).2 = .ok tokens →
      let start := Parser.ofTokens tokens settings.maxDepth
      (tokens.length ≤ n + 1 ∧ (n < 2 ^ 63 → ∀ t ∈ tokens, t.span.text? = some t.span.text)) ∧
        Acted start (Rule.forest start) ∧
        ∀ p, start.Acts 0 p →
          (p.tokens = tokens ∧ p.cursor ≤ n ∧ p.depth ≤ p.opened ∧ p.opened ≤ n) ∧
            (n < 2 ^ 63 → p.Fits) := by
  intro n policy
  refine ⟨Scanner.exists_reaches_tokenize policy source, ?_, ?_⟩
  · intro s hs
    obtain ⟨read, hcounted⟩ := hs.counted
    refine ⟨read, hcounted.stands, hcounted.tokens, ?_⟩
    intro part hpart place
    obtain ⟨hline, hreach⟩ := hcounted.stands.reach_le part
    exact ⟨⟨hline, hreach, hcounted.stands.length_le hpart⟩,
      fun hn => hcounted.stands.place_fits hn hpart⟩
  · intro tokens htokens start
    have hlength := length_of_tokenize htokens
    refine ⟨⟨hlength, ?_⟩, Rule.forest_acts start rfl, ?_⟩
    · intro hn t ht
      obtain ⟨m, read, hcounted, rfl⟩ := exists_counted_of_tokenize htokens
      exact hcounted.span_fits hn ht
    · intro p hp
      have hbounds := Parser.Acts.bounds hlength (terminated_of_tokenize htokens) hp
      refine ⟨hbounds, fun hn => ?_⟩
      obtain ⟨ts, hts⟩ := hp.moves.reaches
      have hbound : Word.bound = 2 ^ 64 := rfl
      exact Parser.fits ((Parser.ofTokens_proper ..).of_reaches hts) (by omega) (by omega)

/-- A body with a parenthesis on its second line, at the largest depth that a word can allow: the
scanner behind the brace, and the parser one level deep there. -/
theorem counters_fit_words_two_lines :
    let source := "\x7b\n("
    let limit := 2 ^ 64 - 1
    let brace : Token := ⟨.symbol, "\x7b", ⟨1, 0⟩⟩
    let tokens : List Token := [brace, ⟨.symbol, "(", ⟨2, 0⟩⟩, .eof ⟨2, 1⟩]
    let s : Scanner := ⟨[⟨.blank, ['\n']⟩, ⟨.symbol, ['(']⟩], ⟨1, 1⟩, [brace]⟩
    let p := (Parser.ofTokens tokens limit).next.deeper
    source.length < 2 ^ 63 ∧ (Scanner.ofSource source).Reaches .reject s ∧
      ['\n', '('] <+: s.unreadText ∧ s.place.after? ['\n', '('] = some ⟨2, 1⟩ ∧
      (tokenize .reject source).2 = .ok tokens ∧ (Parser.ofTokens tokens limit).Acts 0 p ∧
      p.cursor ≤ 3 ∧ (p.depth = 1 ∧ p.depth ≤ p.opened) ∧ p.Fits := by
  intro source limit brace tokens s p
  have hlength : source.length = 3 := by decide
  have hn : source.length < 2 ^ 63 := by omega
  have hstart : Scanner.ofSource source =
      ⟨[⟨.symbol, ['\x7b']⟩, ⟨.blank, ['\n']⟩, ⟨.symbol, ['(']⟩], .start, []⟩ := by
    decide +kernel
  have hs : (Scanner.ofSource source).Reaches .reject s := by
    rw [hstart]
    exact .single ⟨_, rfl⟩
  have hpart : ['\n', '('] <+: s.unreadText := by decide
  have htokens : (tokenize .reject source).2 = .ok tokens :=
    eq_ok_of_toOption (by decide +kernel)
  have hp : (Parser.ofTokens tokens limit).Acts 0 p :=
    .single (.enter (by decide) (by decide))
  obtain ⟨_, hscanner, hparser⟩ := counters_fit_words ⟨0, .reject, limit⟩ source
  obtain ⟨read, _, _, hparts⟩ := hscanner s hs
  obtain ⟨_, _, hacts⟩ := hparser tokens htokens
  obtain ⟨⟨_, hcursor, hdepth, _⟩, hfits⟩ := hacts p hp
  have hthree : p.cursor ≤ 3 := Nat.le_trans hcursor (Nat.le_of_eq hlength)
  exact ⟨hn, hs, hpart, ((hparts _ hpart).2 hn).1, htokens, hp, hthree, ⟨rfl, hdepth⟩, hfits hn⟩

end ScopeFront
