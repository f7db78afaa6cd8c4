import ScopeFront.Proofs.Parser.Acts

/-!
# A parser in use

A parser offers its rules one by one, from looking at a token to reading a whole program, and may be
asked for any of them at any time, also behind a failure that has left levels open.  Whatever it is
asked for, its tokens stay as they are, its place moves on and not past the first end marker, and its
depth stays within the limit.

* `Operation`, `Operation.rule` – what a parser can be asked for;
* `Parser.afterCalls` – the parser after a sequence of calls;
* `Parser.cursor`, `Parser.Sees` – the index of the place, and the indices at which tokens are read;
* `Parser.Orderly` – what every call keeps;
* `Called`, `Operation.called`, `Called.orderly` – every call is made up of moves, and keeps it;
* `Parser.Orderly.afterCalls` – so do calls in any order;
* `operations_keep_order` – the state before, during and after any call.
-/

set_option autoImplicit false

namespace ScopeFront

/-! ## Calls -/

/-- What a parser can be asked for. -/
inductive Operation where
  | peek
  | peekNext
  | advance
  | atEnd
  | checkSymbol (c : Char)
  | matchSymbol (c : Char)
  | expectSymbol (c : Char) (context : String)
  | expectIdentifier (what : String)
  | expectType (what : String)
  | matchIdentifier
  | enterNested
  | leaveNested
  /-- The error that says what was required. -/
  | failExpected (what : String)
  /-- The error that says that nothing starts with the token. -/
  | failUnexpected (context : String)
  | forest
  | scope
  | statement
  | expression
  | arguments (what : String)
  | block (what : String)
  | functionScope
  | namedScope
  | unnamedScope
deriving DecidableEq, Repr

namespace Operation

/-- What a call gives where it succeeds; the two errors never do. -/
def Answer : Operation → Type
  | peek | peekNext | advance | expectSymbol .. => Token
  | atEnd | checkSymbol _ | matchSymbol _ => Bool
  | expectIdentifier _ => String
  | expectType _ => TypeKeyword
  | matchIdentifier => Option String
  | enterNested | leaveNested => Unit
  | failExpected _ | failUnexpected _ => Empty
  | forest | block _ | unnamedScope => List Node
  | scope | statement => Node
  | expression => Expr
  | arguments _ => List Expr
  | functionScope => Function
  | namedScope => String × List Node

/-- What a call does. -/
def rule : (op : Operation) → Rule op.Answer
  | peek => Rule.peek
  | peekNext => Rule.peekNext
  | advance => Rule.advance
  | atEnd => Rule.atEnd
  | checkSymbol c => Rule.checkSymbol c
  | matchSymbol c => Rule.matchSymbol c
  | expectSymbol c context => Rule.expectSymbol c context
  | expectIdentifier what => Rule.expectIdentifier what
  | expectType what => Rule.expectType what
  | matchIdentifier => Rule.matchIdentifier
  | enterNested => Rule.enterNested
  | leaveNested => Rule.leaveNested
  | failExpected what => Rule.failExpected what
  | failUnexpected context => Rule.failUnexpected context
  | forest => Rule.forest
  | scope => Rule.scope
  | statement => Rule.statement
  | expression => Rule.expression
  | arguments what => Rule.arguments what
  | block what => Rule.block what
  | functionScope => Rule.functionScope
  | namedScope => Rule.namedScope
  | unnamedScope => Rule.unnamedScope

/-- Whether the call reads a phrase of the grammar. -/
def readsPhrase : Operation → Bool
  | forest | scope | statement | expression | arguments _ | block _ | functionScope | namedScope
  | unnamedScope => true
  | _ => false

end Operation

/-- The parser after calls in this order; a call that fails does not keep the next one from being
made. -/
def Parser.afterCalls (p : Parser) (calls : List Operation) : Parser :=
  calls.foldl (fun q op => (op.rule q).1) p

/-! ## Indices -/

namespace Parser

/-- The index of the token at the place. -/
def cursor (p : Parser) : Nat := p.passed.length

/-- The tokens that a parser looks at stand at indices of its tokens: at the place, behind it or at
the last token, and before it or at the first one. -/
structure Sees (p : Parser) : Prop where
  here : p.tokens[p.cursor]? = some p.peek
  behind : p.tokens[min (p.cursor + 1) (p.tokens.length - 1)]? = some p.peekNext
  before : p.tokens[p.cursor - 1]? = some p.latest

theorem getElem?_tokens_cursor (p : Parser) (k : Nat) :
    p.tokens[p.cursor + k]? = (p.ahead ++ p.stop :: p.beyond)[k]? := by
  have hlength : p.passed.reverse.length = p.cursor := p.passed.length_reverse
  rw [tokens, List.append_assoc, List.getElem?_append_right (by omega), hlength,
    Nat.add_sub_cancel_left]

theorem length_tokens (p : Parser) :
    p.tokens.length = p.cursor + (p.ahead.length + (p.beyond.length + 1)) := by
  simp only [tokens, cursor, List.length_append, List.length_reverse, List.length_cons]
  omega

/-- A parser looks at nothing outside its tokens, wherever it stands. -/
theorem sees (p : Parser) : p.Sees where
  here := by
    have h := p.getElem?_tokens_cursor 0
    rw [Nat.add_zero] at h
    rw [h, peek]
    cases p.ahead <;> rfl
  behind := by
    have hlength := p.length_tokens
    cases ha : p.ahead with
    | cons t later =>
        rw [ha, List.length_cons] at hlength
        rw [Nat.min_eq_left (by omega), p.getElem?_tokens_cursor 1, peekNext, ha]
        cases later <;> rfl
    | nil =>
        rw [ha, List.length_nil] at hlength
        cases hb : p.beyond with
        | cons t later =>
            rw [hb, List.length_cons] at hlength
            rw [Nat.min_eq_left (by omega), p.getElem?_tokens_cursor 1, peekNext, ha, hb]
            rfl
        | nil =>
            -- the end marker is the last token, so nothing stands behind it
            rw [hb, List.length_nil] at hlength
            have hindex : min (p.cursor + 1) (p.tokens.length - 1) = p.cursor + 0 := by omega
            rw [hindex, p.getElem?_tokens_cursor 0, peekNext, ha, hb]
            rfl
  before := by
    cases hp : p.passed with
    | nil =>
        have hcursor : p.cursor = 0 := by rw [cursor, hp]; rfl
        have h := p.getElem?_tokens_cursor 0
        rw [hcursor] at h ⊢
        rw [h, latest, hp, peek]
        cases p.ahead <;> rfl
    | cons t earlier =>
        have hcursor : p.cursor - 1 = earlier.reverse.length := by
          rw [cursor, hp, List.length_reverse]
          rfl
        rw [hcursor, tokens, latest, hp]
        simp

theorem Reaches.tokens {p q : Parser} {ts : List Token} (h : p.Reaches ts q) :
    q.tokens = p.tokens := by
  simp [Parser.tokens, h.passed, h.ahead, h.stop, h.beyond]

theorem Reaches.cursor_le {p q : Parser} {ts : List Token} (h : p.Reaches ts q) :
    p.cursor ≤ q.cursor := by
  rw [cursor, cursor, h.length_passed]
  omega

theorem ofTokens_tokens (tokens : List Token) (limit : Nat) :
    (ofTokens tokens limit).tokens = terminated tokens :=
  (ofTokens_split tokens limit).symm

/-- The first end marker stands behind all tokens that can be read. -/
theorem findIdx_terminated (tokens : List Token) (limit : Nat) :
    (terminated tokens).findIdx Token.isEof = (ofTokens tokens limit).ahead.length := by
  have hproper := ofTokens_proper tokens limit
  have hahead : (ofTokens tokens limit).ahead.findIdx Token.isEof =
      (ofTokens tokens limit).ahead.length :=
    List.findIdx_eq_length.2 hproper.ahead
  rw [ofTokens_split tokens limit, List.findIdx_append, hahead, if_neg (Nat.lt_irrefl _),
    List.findIdx_cons, hproper.stop]
  exact Nat.zero_add _

/-- What every call keeps of a parser: it stands in the tokens it was made for, and no deeper than
it may. -/
structure Orderly (tokens : List Token) (limit : Nat) (p : Parser) : Prop where
  reached : ∃ ts, (ofTokens tokens limit).Reaches ts p
  depth : p.depth ≤ limit

namespace Orderly

variable {tokens : List Token} {limit : Nat} {p q : Parser}

theorem ofTokens (tokens : List Token) (limit : Nat) :
    (ofTokens tokens limit).Orderly tokens limit :=
  ⟨⟨[], .refl _⟩, Nat.zero_le limit⟩

theorem tokens_eq (hp : p.Orderly tokens limit) : p.tokens = terminated tokens := by
  obtain ⟨ts, hts⟩ := hp.reached
  rw [hts.tokens, ofTokens_tokens]

theorem limit_eq (hp : p.Orderly tokens limit) : p.limit = limit := by
  obtain ⟨ts, hts⟩ := hp.reached
  exact hts.limit

/-- The place is not behind the first end marker. -/
theorem cursor_le (hp : p.Orderly tokens limit) :
    p.cursor ≤ (terminated tokens).findIdx Token.isEof := by
  obtain ⟨ts, hts⟩ := hp.reached
  have hcursor : p.cursor = ts.length := by
    rw [cursor, hts.passed, List.length_append, List.length_reverse]
    rfl
  rw [findIdx_terminated tokens limit, hts.ahead, hcursor, List.length_append]
  exact Nat.le_add_right _ _

theorem of_moves (hp : p.Orderly tokens limit) (h : p.Moves 0 q) : q.Orderly tokens limit := by
  obtain ⟨ts, hts⟩ := hp.reached
  obtain ⟨us, hus⟩ := h.reaches
  have hlimit : p.limit = limit := hp.limit_eq
  have hdepth := h.depth (Nat.zero_le _) (hlimit ▸ hp.depth)
  refine ⟨⟨ts ++ us, hts.trans hus⟩, ?_⟩
  rw [← hlimit, ← hus.limit]
  exact hdepth.2

theorem logging (hp : p.Orderly tokens limit) (e : Event) :
    (p.logging e).Orderly tokens limit := by
  obtain ⟨ts, hts⟩ := hp.reached
  refine ⟨⟨ts, ?_⟩, hp.depth⟩
  have hlog := hts.trans (p.reaches_logging e)
  rwa [List.append_nil] at hlog

end Orderly

end Parser

/-! ## Calls as moves -/

/-- How a call ends: after some moves, and with the error logged at last where it fails. -/
inductive Called {α : Type} (p : Parser) : Parser × Except ParseError α → Prop
  | ok {q : Parser} {a : α} : p.Moves 0 q → Called p (q, .ok a)
  | failed {q : Parser} {e : ParseError} :
    p.Moves 0 q → Called p (q.logging (.fatal parserStage e.message), .error e)

namespace Called

variable {α : Type} {p : Parser} {x : Parser × Except ParseError α}

theorem of_traced (h : Traced p x) : Called p x := by
  cases h with
  | ok hmoves _ => exact .ok (hmoves.mono (Nat.zero_le _))
  | failed hmoves => exact .failed (hmoves.mono (Nat.zero_le _))

theorem cursor_le (h : Called p x) : p.cursor ≤ x.1.cursor := by
  cases h with
  | ok hmoves =>
      obtain ⟨ts, hts⟩ := hmoves.reaches
      exact hts.cursor_le
  | failed hmoves =>
      obtain ⟨ts, hts⟩ := hmoves.reaches
      exact hts.cursor_le

/-- A call keeps the order, also where it fails. -/
theorem orderly {tokens : List Token} {limit : Nat} (h : Called p x)
    (hp : p.Orderly tokens limit) : x.1.Orderly tokens limit := by
  cases h with
  | ok hmoves => exact hp.of_moves hmoves
  | failed hmoves => exact (hp.of_moves hmoves).logging _

end Called

namespace Operation

/-- All calls but the two that open and close levels come back to the depth unless they fail. -/
theorem rule_traces {op : Operation} (henter : op ≠ enterNested) (hleave : op ≠ leaveNested) :
    op.rule.Traces := by
  refine .of_acts fun n => ?_
  cases op with
  | enterNested => exact absurd rfl henter
  | leaveNested => exact absurd rfl hleave
  | peek => exact .peek
  | peekNext => exact .peekNext
  | advance => exact .advance
  | atEnd => exact .atEnd
  | checkSymbol c => exact .checkSymbol c
  | matchSymbol c => exact .matchSymbol c
  | expectSymbol c context => exact .expectSymbol c context
  | expectIdentifier what => exact .expectIdentifier what
  | expectType what => exact .expectType what
  | matchIdentifier => exact .matchIdentifier
  | failExpected what => exact .failExpected what
  | failUnexpected context => exact .failUnexpected context
  | forest => exact Rule.forest_acts
  | scope => exact Rule.scope_acts
  | statement => exact Rule.statement_acts
  | expression => exact Rule.expression_acts
  | arguments what => exact Rule.arguments_acts what
  | block what => exact Rule.block_acts what
  | functionScope => exact Rule.functionScope_acts
  | namedScope => exact Rule.namedScope_acts
  | unnamedScope => exact Rule.unnamedScope_acts

theorem called_enterNested (p : Parser) : Called p (Rule.enterNested p) := by
  by_cases hle : p.limit ≤ p.depth
  · rw [Rule.enterNested_of_le hle]
    exact .failed .refl
  · have hlt : p.depth < p.limit := Nat.lt_of_not_le hle
    rw [Rule.enterNested_of_lt hlt]
    exact .ok (.single (.deeper hlt))

theorem called_leaveNested (p : Parser) : Called p (Rule.leaveNested p) := by
  show Called p (p.shallower, .ok ())
  by_cases hd : 0 < p.depth
  · exact .ok (.single (.shallower hd))
  · -- no level is open, so that none is closed
    have hstay : p.shallower = p := by
      have hzero : p.depth = 0 := Nat.eq_zero_of_not_pos hd
      rw [Parser.shallower, hzero, Nat.zero_sub, ← hzero]
    rw [hstay]
    exact .ok .refl

/-- **Every call is made up of moves**, whatever state it finds. -/
theorem called (op : Operation) (p : Parser) : Called p (op.rule p) := by
  by_cases henter : op = enterNested
  · subst henter
    exact called_enterNested p
  by_cases hleave : op = leaveNested
  · subst hleave
    exact called_leaveNested p
  · exact .of_traced (rule_traces henter hleave p)

/-- A call that reads a phrase comes back to the depth it found, or fails there or deeper. -/
theorem depth_of_readsPhrase {op : Operation} (hop : op.readsPhrase = true) {p : Parser}
    (hp : p.depth ≤ p.limit) :
    (∀ a, (op.rule p).2 = .ok a → (op.rule p).1.depth = p.depth) ∧
      (∀ e, (op.rule p).2 = .error e → p.depth ≤ (op.rule p).1.depth) := by
  have htraces : op.rule.Traces := by
    apply rule_traces
    · rintro rfl
      cases hop
    · rintro rfl
      cases hop
  have htraced := htraces p
  generalize op.rule p = x at htraced
  cases htraced with
  | ok _ hd =>
      refine ⟨fun _ _ => hd, ?_⟩
      intro e he
      cases he
  | failed hmoves =>
      refine ⟨?_, fun _ _ => (hmoves.depth (Nat.le_refl _) hp).1⟩
      intro a ha
      cases ha

end Operation

/-- Calls keep the order, one after the other. -/
theorem Parser.Orderly.afterCalls {tokens : List Token} {limit : Nat} {p : Parser}
    (hp : p.Orderly tokens limit) (calls : List Operation) :
    (p.afterCalls calls).Orderly tokens limit := by
  induction calls generalizing p with
  | nil => exact hp
  | cons op later ih => exact ih ((op.called p).orderly hp)

/-- **Any call at any time leaves a parser in order.**  After any earlier calls, failed or not, a
further call leaves the tokens as they were, with an end marker at their end; it goes on and not
past the first end marker, and stays within the limit.  It is made up of moves, and in no state that
moves lead to does the parser look outside its tokens.  A call that reads a phrase comes back to the
depth it found, or fails there or deeper. -/
theorem operations_keep_order (tokens : List Token) (limit : Nat) (earlier : List Operation)
    (op : Operation) :
    let p := (Parser.ofTokens tokens limit).afterCalls earlier
    let q := (op.rule p).1
    (q.tokens = terminated tokens ∧ ∃ last, q.tokens.getLast? = some last ∧ last.isEof = true) ∧
      (p.cursor ≤ q.cursor ∧ q.cursor ≤ q.tokens.findIdx Token.isEof) ∧
      q.depth ≤ limit ∧
      (Called p (op.rule p) ∧ ∀ m, p.Moves 0 m → m.tokens = terminated tokens ∧ m.Sees) ∧
      (op.readsPhrase = true →
        (∀ a, (op.rule p).2 = .ok a → q.depth = p.depth) ∧
          (∀ e, (op.rule p).2 = .error e → p.depth ≤ q.depth)) := by
  intro p q
  have hp : p.Orderly tokens limit :=
    (Parser.Orderly.ofTokens tokens limit).afterCalls earlier
  have hcalled : Called p (op.rule p) := op.called p
  have hq : q.Orderly tokens limit := hcalled.orderly hp
  have htokens : q.tokens = terminated tokens := hq.tokens_eq
  refine ⟨⟨htokens, ?_⟩, ⟨hcalled.cursor_le, ?_⟩, hq.depth, ⟨hcalled, ?_⟩, ?_⟩
  · rw [htokens]
    exact (Option.any_eq_true _ _).1 (Parser.getLast?_terminated tokens)
  · rw [htokens]
    exact hq.cursor_le
  · intro m hm
    exact ⟨(hp.of_moves hm).tokens_eq, m.sees⟩
  · intro hop
    exact Operation.depth_of_readsPhrase hop (hp.limit_eq ▸ hp.depth)

/-- A body that is never closed leaves its level open.  A further body is asked for there, at an end
marker with a token behind it. -/
theorem operations_keep_order_after_failure :
    let brace : Token := ⟨.symbol, "\x7b", .start⟩
    let tokens := [brace, .eof .start, brace]
    let p := (Parser.ofTokens tokens 1).afterCalls [.unnamedScope]
    let q := ((Operation.block "body").rule p).1
    (p.cursor = 1 ∧ p.depth = 1) ∧ q.tokens = tokens ++ [.eof ⟨1, 1⟩] ∧
      (1 ≤ q.cursor ∧ q.cursor ≤ 1) ∧ q.depth = 1 := by
  intro brace tokens p q
  obtain ⟨⟨htokens, _⟩, ⟨hcursor, hfirst⟩, hlimit, _, hdepth⟩ :=
    operations_keep_order tokens 1 [.unnamedScope] (.block "body")
  have hplace : p.cursor = 1 ∧ p.depth = 1 := ⟨rfl, rfl⟩
  have hmarkers : terminated tokens = tokens ++ [.eof ⟨1, 1⟩] ∧
      (terminated tokens).findIdx Token.isEof = 1 := by decide
  obtain ⟨e, he⟩ : ∃ e, ((Operation.block "body").rule p).2 = .error e := ⟨_, rfl⟩
  have hopen : p.depth ≤ q.depth := (hdepth rfl).2 e he
  rw [htokens, hmarkers.2] at hfirst
  refine ⟨hplace, htokens.trans hmarkers.1, ⟨hplace.1 ▸ hcursor, hfirst⟩, ?_⟩
  exact Nat.le_antisymm hlimit (hplace.2 ▸ hopen)

end ScopeFront
