import ScopeFront.Proofs.Concatenation
import ScopeFront.Proofs.Parser.CorrectPrefix

/-!
# Layout has no meaning

Two sequences of tokens that differ in nothing but the places of the tokens are read alike.  There
need not be a mapping of places from one sequence to the other: tokens that share a place in one of
them may stand apart in the other.  So both are compared with a third sequence, in which the place
of every token is its index.

* `numbered`, `placeIn` – tokens at their indices, and the places to which these belong;
* `Parser.alike_of_map`, `forest_of_map` – a sequence and one with its places mapped;
* `FailsAt` – an error, with the index of the token at which it was found;
* `layout_independence` – tokens with the same contents, and source texts with such tokens.
-/

set_option autoImplicit false

namespace ScopeFront

variable {g : Span → Span}

/-! ## Numbered tokens -/

/-- Tokens with the given contents, each at a place that tells its index. -/
def numbered (contents : List (TokenKind × String)) : List Token :=
  contents.mapIdx fun i c => ⟨c.1, c.2, ⟨i, 0⟩⟩

/-- The place at which a sequence has the token that is numbered so. -/
def placeIn (tokens : List Token) (index : Span) : Span :=
  (tokens[index.line]?.map Token.span).getD index

/-- A sequence is its numbered tokens, each moved to its place. -/
theorem numbered_content (tokens : List Token) :
    (numbered (tokens.map Token.content)).map (·.relocate (placeIn tokens)) = tokens := by
  apply List.ext_getElem?
  intro i
  simp only [numbered, List.getElem?_map, List.getElem?_mapIdx]
  cases h : tokens[i]? with
  | none => rfl
  | some t => simp [Token.relocate, Token.content, placeIn, h]

/-- Whether an end marker is added depends on the contents alone, and so does what is added. -/
theorem content_terminated (tokens : List Token) :
    (terminated tokens).map Token.content =
      if (tokens.map Token.content).getLast?.any (·.1 == .eof) then tokens.map Token.content
      else tokens.map Token.content ++ [(.eof, "")] := by
  have hlast : (tokens.map Token.content).getLast?.any (·.1 == .eof) =
      tokens.getLast?.any Token.isEof := by
    rw [List.getLast?_map, Option.any_map]
    rfl
  rw [hlast]
  unfold terminated
  split
  · rfl
  · rw [List.map_append]
    rfl

/-! ## Mapped places -/

section Mapped

variable {ts tokens : List Token} (h : ts.map (·.relocate g) = terminated tokens)

include h

/-- What ends like a terminated sequence is terminated. -/
theorem terminated_of_map : terminated ts = ts := by
  refine if_pos ?_
  have hlast := Parser.getLast?_terminated tokens
  rw [← h, List.getLast?_map, Option.any_map] at hlast
  exact hlast

/-- At the start of a sequence and at that of one with its places mapped, parsers are alike. -/
theorem Parser.alike_of_map (limit k : Nat) :
    (ofTokens ts limit).Alike g k (ofTokens tokens limit) where
  window := by
    have hahead : (ofTokens tokens limit).ahead =
        (ofTokens ts limit).ahead.map (·.relocate g) := by
      show (terminated tokens).takeWhile _ = ((terminated ts).takeWhile _).map _
      rw [terminated_of_map h, ← h, List.takeWhile_map]
      rfl
    have hsplit := ofTokens_split tokens limit
    rw [← h, ← terminated_of_map h, ofTokens_split ts limit, hahead, List.map_append] at hsplit
    have hstop := (List.cons.inj (List.append_cancel_left hsplit)).1
    unfold window
    rw [hahead, ← hstop, List.map_take, List.map_append]
    rfl
  depth := rfl
  limit := Nat.le_refl _

/-- A run over a sequence and one over the sequence with its places mapped come to the same outcome,
up to places, after as many tokens. -/
theorem forest_of_map (limit : Nat) :
    ∃ q, Rule.forest (.ofTokens tokens limit) =
        (q, (Rule.forest (.ofTokens ts limit)).2.mapError (·.relocate g)) ∧
      q.passed.length = (Rule.forest (.ofTokens ts limit)).1.passed.length := by
  have hmirror := Rule.forest_mirrors (g := g) (Nat.le_refl limit) _
    (Parser.ofTokens_proper ts limit) rfl
  obtain ⟨us, q, hread, hread', hq⟩ := hmirror.same (Parser.ofTokens_proper tokens limit) rfl
    (Parser.alike_of_map h limit) rfl
  refine ⟨q, hq, ?_⟩
  rw [hread.length_passed, hread'.length_passed, List.length_map]
  rfl

end Mapped

/-! ## Where a run fails -/

/-- The number of tokens that are read past the one that was found. -/
def ParseError.overrun : ParseError → Nat
  | .tooDeep .. => 1
  | _ => 0

theorem ParseError.overrun_relocate (e : ParseError) : (e.relocate g).overrun = e.overrun := by
  cases e <;> rfl

/-- However the places are mapped, the errors that come of it differ only in where they stand. -/
theorem ParseError.relocate_span (e : ParseError) (g g' : Span → Span) :
    e.relocate g' = (e.relocate g).relocate fun _ => (e.relocate g').span := by
  rcases e with ⟨_, _ | _⟩ | ⟨_ | _, _⟩ | ⟨_ | _, _⟩ <;> rfl

/-- The tokens are refused with the error `e`, and what it found is the token with index `i`: the
one at the place of the parser, or the one just read where this opens a level too many. -/
def FailsAt (limit : Nat) (tokens : List Token) (i : Nat) (e : ParseError) : Prop :=
  ∃ p t, Rule.forest (.ofTokens tokens limit) = (p, .error e) ∧
    p.passed.length = i + e.overrun ∧ (terminated tokens)[i]? = some t ∧ e.found = .ofToken t

/-- Every failing run fails at the token with some index. -/
theorem failsAt_of_forest {limit : Nat} {tokens : List Token} {p : Parser} {e : ParseError}
    (h : Rule.forest (.ofTokens tokens limit) = (p, .error e)) :
    ∃ i, p.passed.length = i + e.overrun ∧ FailsAt limit tokens i e := by
  have hread := Rule.forest_reads _ (Parser.ofTokens_proper tokens limit) rfl
  have hsplit := Parser.ofTokens_split tokens limit
  rw [h] at hread
  cases hread with
  | @tooDeep _ ts t hts _ =>
      have hlength : p.passed.length = ts.length + 1 := by
        rw [hts.length_passed, List.length_append]
        rfl
      refine ⟨ts.length, hlength, p, t, h, hlength, ?_, rfl⟩
      rw [hsplit, hts.ahead]
      simp
  | @refused _ ts _ _ _ _ hts hrefuse _ _ =>
      obtain ⟨rest, hrest⟩ := hts.split
      have hoverrun : e.overrun = 0 := by
        cases e with
        | tooDeep => cases hrefuse
        | _ => rfl
      have hlength : p.passed.length = ts.length + e.overrun := by
        rw [hts.length_passed, hoverrun]
        rfl
      refine ⟨ts.length, hlength, p, p.peek, h, hlength, ?_, ParseError.found_of_refuses hrefuse⟩
      rw [hsplit, hrest]
      simp

/-! ## The same contents -/

/-- Sequences with the same contents come to the same nodes, or fail at the same index with errors
that differ in nothing but the place. -/
theorem parseTokens_of_content {tokens others : List Token}
    (h : tokens.map Token.content = others.map Token.content) (limit : Nat) :
    (∃ nodes, (parseTokens limit tokens).2 = .ok nodes ∧
      (parseTokens limit others).2 = .ok nodes) ∨
    ∃ i e e', FailsAt limit tokens i e ∧ FailsAt limit others i e' ∧
      e' = e.relocate fun _ => e'.span := by
  have hcontent :
      (terminated others).map Token.content = (terminated tokens).map Token.content := by
    rw [content_terminated, content_terminated, h]
  -- both are the numbered tokens, moved to their places
  have hothers := numbered_content (terminated others)
  rw [hcontent] at hothers
  obtain ⟨p, hp, hlength⟩ := forest_of_map (numbered_content (terminated tokens)) limit
  obtain ⟨p', hp', hlength'⟩ := forest_of_map hothers limit
  cases hrun : (Rule.forest (.ofTokens (numbered ((terminated tokens).map Token.content)) limit)).2
    with
  | ok nodes =>
      rw [hrun] at hp hp'
      refine .inl ⟨nodes, ?_, ?_⟩
      · rw [parseTokens_snd, hp]
        rfl
      · rw [parseTokens_snd, hp']
        rfl
  | error e =>
      rw [hrun] at hp hp'
      obtain ⟨i, hi, hfails⟩ := failsAt_of_forest hp
      obtain ⟨j, hj, hfails'⟩ := failsAt_of_forest hp'
      rw [hlength, ParseError.overrun_relocate] at hi
      rw [hlength', ParseError.overrun_relocate] at hj
      obtain rfl : i = j := by omega
      exact .inr ⟨i, _, _, hfails, hfails', e.relocate_span _ _⟩

/-- **Layout has no meaning.**  Sequences of tokens that differ in nothing but places come to the
same nodes, or fail at the same index with the same error, up to its place.  So source texts with
such tokens are read as the same forest, where the same nesting is allowed, or as none. -/
theorem layout_independence {tokens others : List Token}
    (h : tokens.map Token.content = others.map Token.content) :
    (∀ limit, (∃ nodes, (parseTokens limit tokens).2 = .ok nodes ∧
        (parseTokens limit others).2 = .ok nodes) ∨
      ∃ i e e', FailsAt limit tokens i e ∧ FailsAt limit others i e' ∧
        e' = e.relocate fun _ => e'.span) ∧
    ∀ (settings settings' : Settings) (source source' : String),
      settings.maxDepth = settings'.maxDepth →
      (tokenize settings.unmatched source).2 = .ok tokens →
      (tokenize settings'.unmatched source').2 = .ok others →
      ∀ forest, (parseSource settings source).2 = .ok forest ↔
        (parseSource settings' source').2 = .ok forest := by
  refine ⟨parseTokens_of_content h, ?_⟩
  intro settings settings' source source' hdepth hsource hsource' forest
  rw [parseSource_snd, parseSource_snd, hsource, hsource', hdepth]
  rcases parseTokens_of_content h settings'.maxDepth with
    ⟨nodes, hnodes, hnodes'⟩ | ⟨i, e, e', ⟨p, _, hp, _⟩, ⟨p', _, hp', _⟩, _⟩
  · simp only [hnodes, hnodes']
  · simp [parseTokens_snd, hp, hp']

/-- One program on one line, and over two lines with comments and a character that is skipped.
Where no level is allowed, both fail at the brace, which stands at another place. -/
theorem layout_independence_comments :
    let source := "f\x7b\x7d"
    let source' := "é f // \x7b\n\x7b /* \x7d */ \x7d"
    let skipping : Settings := { Settings.default with unmatched := .skip }
    let tokens : List Token := [⟨.identifier, "f", ⟨1, 0⟩⟩, ⟨.symbol, "\x7b", ⟨1, 1⟩⟩,
      ⟨.symbol, "\x7d", ⟨1, 2⟩⟩, .eof ⟨1, 3⟩]
    let others : List Token := [⟨.identifier, "f", ⟨1, 2⟩⟩, ⟨.symbol, "\x7b", ⟨2, 0⟩⟩,
      ⟨.symbol, "\x7d", ⟨2, 10⟩⟩, .eof ⟨2, 11⟩]
    tokens.map Token.content = others.map Token.content ∧
      (tokenize Settings.default.unmatched source).2 = .ok tokens ∧
      (tokenize skipping.unmatched source').2 = .ok others ∧
      (parseSource .default source).2 = .ok [.namedScope "f" []] ∧
      (parseSource skipping source').2 = .ok [.namedScope "f" []] ∧
      ∃ i e e', FailsAt 0 tokens i e ∧ FailsAt 0 others i e' ∧
        e' = e.relocate fun _ => e'.span := by
  intro source source' skipping tokens others
  have htokens : (tokenize Settings.default.unmatched source).2 = .ok tokens :=
    eq_ok_of_toOption (by decide +kernel)
  have hothers : (tokenize skipping.unmatched source').2 = .ok others :=
    eq_ok_of_toOption (by decide +kernel)
  have hforest : (parseSource .default source).2 = .ok [.namedScope "f" []] := by
    rw [parseSource_snd, htokens]
    rfl
  have hcontent : tokens.map Token.content = others.map Token.content := rfl
  obtain ⟨hsame, hsources⟩ := layout_independence hcontent
  refine ⟨hcontent, htokens, hothers, hforest,
    (hsources .default skipping source source' rfl htokens hothers _).1 hforest, ?_⟩
  rcases hsame 0 with ⟨nodes, hnodes, _⟩ | hfails
  · cases hnodes
  · exact hfails

end ScopeFront
