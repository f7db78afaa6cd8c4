import ScopeFront.Proofs.Lexer.Progress
import ScopeFront.Proofs.Parser.Exactness
import ScopeFront.Proofs.Parser.Operations
import ScopeFront.Proofs.Parser.Recursion

/-!
# Reading goes on and comes to an end

Wherever a parser stands before the first end marker, the routines that read phrases come to an end,
and where they succeed they have read at least one token and no end marker.  A whole program is read
up to the first end marker.  A scanner likewise goes on by at least one character at a time, from
boundary to boundary between characters.

* `Parser.standing` – a parser at any place of any sequence of tokens;
* `Routine.isPhrase`, `Routine.exists_outcome` – the routines that read phrases, none of them empty;
* `Routine.cursor_lt` – such a routine moves on;
* `reading_makes_progress` – parsers and scanners in any state.
-/

set_option autoImplicit false

namespace ScopeFront

/-! ## Parsers at any place -/

namespace Parser

/-- A parser for a sequence of tokens that stands before the token with the index `cursor`. -/
def standing (tokens : List Token) (cursor depth limit : Nat) (log : List Event) : Parser :=
  { ofTokens tokens limit with
    passed := ((ofTokens tokens limit).ahead.take cursor).reverse
    ahead := (ofTokens tokens limit).ahead.drop cursor
    depth := depth
    log := log }

variable (tokens : List Token) (cursor depth limit : Nat) (log : List Event)

theorem reaches_standing :
    (ofTokens tokens limit).Reaches ((ofTokens tokens limit).ahead.take cursor)
      (standing tokens cursor depth limit log) where
  ahead := (List.take_append_drop ..).symm
  passed := (List.append_nil _).symm
  stop := rfl
  beyond := rfl
  limit := rfl

theorem standing_proper : (standing tokens cursor depth limit log).Proper :=
  (ofTokens_proper tokens limit).of_reaches (reaches_standing ..)

theorem standing_tokens : (standing tokens cursor depth limit log).tokens = terminated tokens := by
  rw [(reaches_standing ..).tokens, ofTokens_tokens]

variable {tokens cursor}

theorem standing_cursor (h : cursor ≤ (terminated tokens).findIdx Token.isEof) :
    (standing tokens cursor depth limit log).cursor = cursor := by
  rw [findIdx_terminated tokens limit] at h
  simp [Parser.cursor, standing, h]

theorem standing_ahead_length :
    (standing tokens cursor depth limit log).ahead.length =
      (terminated tokens).findIdx Token.isEof - cursor := by
  rw [findIdx_terminated tokens limit, standing, List.length_drop]

end Parser

/-! ## Phrases -/

theorem Grammar.Body.ne_nil {n : Nat} {nodes : List Node} : ¬ Grammar.Body n [] nodes := by
  intro h
  cases h

theorem Grammar.Signature.ne_nil {n : Nat} {f : Function} : ¬ Grammar.Signature n [] f := by
  intro h
  generalize hts : ([] : List Token) = ts at h
  cases h with
  | mk hhead _ =>
      cases hhead
      cases hts

/-- A scope is read as a node of the top level is. -/
theorem Rule.scope_eq : Rule.scope = Rule.topLevelBy := by
  funext p
  rw [scope, topLevelBy, inspect_apply, inspect_apply]
  cases p.peek.kind <;> rfl

namespace Routine

open Rule

/-- Whether the routine reads a phrase, and not the rest of a loop or a whole program. -/
def isPhrase : Routine → Bool
  | scope | statement | expression | block _ | arguments _ | functionScope | namedScope
  | unnamedScope => true
  | _ => false

/-- What such a routine reads is a phrase of a language without an empty one. -/
theorem exists_outcome {c : Routine} (hc : c.isPhrase = true) {p : Parser} (hp : p.Proper) :
    ∃ L : Language c.Answer, (∀ {m a}, ¬ L.words m [] a) ∧ Outcome L p (c.rule p) := by
  cases c with
  | scope =>
      refine ⟨.topLevel, Grammar.TopLevel.ne_nil, ?_⟩
      rw [rule, scope_eq]
      exact topLevelBy_reads p hp rfl
  | statement => exact ⟨.statement, Grammar.Statement.ne_nil, statementAt_reads p hp rfl⟩
  | expression => exact ⟨.expression, Grammar.Expression.ne_nil, expressionAt_reads p hp rfl⟩
  | block what =>
      exact ⟨.body, Grammar.Body.ne_nil, blockWith_reads bodyStatementAt_reads what p hp rfl⟩
  | arguments what =>
      have hreads := (expressionAt_reads (n := p.room)).commaList Grammar.Expression.ne_nil
        ("',' or ')' in " ++ what ++ " arguments")
      refine ⟨_, ?_, hreads p hp rfl⟩
      rintro m _ ⟨ts, _, _, h, _, _, _, t, rfl, ⟨rfl, _⟩, _⟩
      simp at h
  | functionScope =>
      exact ⟨.signature, Grammar.Signature.ne_nil,
        functionScopeWith_reads bodyStatementAt_reads p hp rfl⟩
  | namedScope =>
      have hreads := (Reads.expectIdentifier "scope name").bind fun name =>
        (blockWith_reads (n := p.room) bodyStatementAt_reads "named scope").bind fun body =>
          (Reads.pure (name, body)).logged ("parsed named scope: " ++ name)
      refine ⟨_, ?_, hreads p hp rfl⟩
      rintro m _ ⟨_, _, _, h, ⟨t, rfl, _⟩, _⟩
      cases h
  | unnamedScope =>
      exact ⟨.body, Grammar.Body.ne_nil, unnamedScopeWith_reads bodyStatementAt_reads p hp rfl⟩
  | _ => cases hc

/-- **A phrase that is read moves the parser on**, and not past the tokens ahead. -/
theorem cursor_lt {c : Routine} (hc : c.isPhrase = true) {p q : Parser} {a : c.Answer}
    (hp : p.Proper) (h : c.rule p = (q, .ok a)) :
    p.cursor < q.cursor ∧ q.cursor ≤ p.cursor + p.ahead.length := by
  obtain ⟨L, hne, hoc⟩ := exists_outcome hc hp
  rw [h] at hoc
  cases hoc with
  | @read _ ts _ hreach _ hword =>
      have hlength := hreach.length_passed
      have hahead := congrArg List.length hreach.ahead
      have hpos : 0 < ts.length := List.length_pos_iff.2 fun hnil => hne (hnil ▸ hword)
      rw [List.length_append] at hahead
      unfold Parser.cursor
      omega

end Routine

/-- A program that is read leaves the parser behind all the tokens that were ahead. -/
theorem Rule.forest_cursor {p q : Parser} {nodes : List Node} (hp : p.Proper)
    (h : Rule.forest p = (q, .ok nodes)) : q.cursor = p.cursor + p.ahead.length := by
  have hread := Rule.forest_reads p hp rfl
  rw [h] at hread
  cases hread with
  | @read _ ts _ hreach _ _ =>
      have hlength := hreach.length_passed
      rw [Parser.cursor, Parser.cursor, hreach.ahead, Rule.forest_ends hp h, List.append_nil]
      omega

/-! ## Every state -/

/-- **Reading goes on and comes to an end.**

A parser may stand anywhere before the first end marker of any tokens, at any depth.  Whatever
routine is called there, its calls of calls come to an end: nested often enough, the innermost of
them are never answered, and the routine comes to what its rule gives.  A routine that reads a
phrase and succeeds has moved on, and not past the first end marker, and a program that is read
leaves the parser there.

A scanner may stand anywhere in a source text.  A go that succeeds takes it strictly further, to the
start of a character or to the end, and so many goes as bytes are left do all that a scan does. -/
theorem reading_makes_progress :
    (∀ (tokens : List Token) (cursor depth limit : Nat) (log : List Event),
      cursor ≤ (terminated tokens).findIdx Token.isEof →
      let first := (terminated tokens).findIdx Token.isEof
      let p := Parser.standing tokens cursor depth limit log
      (p.tokens = terminated tokens ∧ p.cursor = cursor ∧ p.depth = depth ∧ p.limit = limit) ∧
        (∀ (c : Routine) (calls : Nat), 7 * (first - cursor + 1) ≤ calls →
          ∀ innermost, (Routine.body^[calls] innermost) c p = c.rule p) ∧
        (∀ c : Routine, c.isPhrase = true → ∀ q a, c.rule p = (q, .ok a) →
          cursor < q.cursor ∧ q.cursor ≤ first) ∧
        ∀ q forest, Rule.forest p = (q, .ok forest) → q.cursor = first) ∧
    ∀ (policy : UnmatchedPolicy) (source : String),
      (Scanner.ofSource source).StandsIn source [] ∧
        ∀ (read : List Char) (s : Scanner), s.StandsIn source read →
          (s.unread ≠ [] → ∀ s' log, s.scanToken policy = (s', log, .ok ()) →
            (∃ more, s'.StandsIn source (read ++ more)) ∧
              s.offset source < s'.offset source ∧ s'.offset source ≤ source.utf8ByteSize ∧
              String.Pos.Raw.IsValid source ⟨s'.offset source⟩) ∧
          ∀ goes, source.utf8ByteSize - s.offset source < goes → ∀ innermost,
            Scanner.finished (((Scanner.scanLoop policy)^[goes] innermost) s) = s.scan policy := by
  refine ⟨?_, ?_⟩
  · intro tokens cursor depth limit log hcursor first p
    have hp : p.Proper := Parser.standing_proper ..
    have hplace : p.cursor = cursor := Parser.standing_cursor depth limit log hcursor
    have hahead : p.ahead.length = first - cursor := Parser.standing_ahead_length depth limit log
    refine ⟨⟨Parser.standing_tokens .., hplace, rfl, rfl⟩, ?_, ?_, ?_⟩
    · intro c calls hcalls innermost
      have hrank := c.rank_le p
      refine Routine.unrolled hp ?_ innermost
      rw [Routine.weight, hahead]
      omega
    · intro c hc q a h
      have hmoved := Routine.cursor_lt hc hp h
      omega
    · intro q forest h
      have hend := Rule.forest_cursor hp h
      omega
  · intro policy source
    refine ⟨Scanner.standsIn_ofSource source, ?_⟩
    intro read s hs
    refine ⟨?_, ?_⟩
    · intro hne s' log hgo
      obtain ⟨more, hmore, hs'⟩ := hs.scanToken hne hgo
      exact ⟨⟨more, hs'⟩, hs.offset_lt hmore hs', hs'.offset_le, hs'.isValid⟩
    · intro goes hgoes innermost
      rw [Scanner.scanLoop_iterate hs hgoes, Scanner.scan_eq]

/-- A body before an end marker in the middle, with a reserved word behind it that is none, at the
last level; and a stray character of two bytes before a brace. -/
theorem reading_makes_progress_inner_end :
    let tokens : List Token :=
      [⟨.symbol, "\x7b", .start⟩, ⟨.symbol, "\x7d", .start⟩, .eof .start,
        ⟨.scopeKeyword, "while", .start⟩]
    let p := Parser.standing tokens 0 7 8 []
    let s := Scanner.ofSource "é\x7b"
    0 ≤ (terminated tokens).findIdx Token.isEof ∧
      (∀ innermost, (Routine.body^[21] innermost) .scope p = Rule.scope p) ∧
      (∃ q, Rule.unnamedScope p = (q, .ok []) ∧ 0 < q.cursor ∧ q.cursor ≤ 2) ∧
      (∃ q forest, Rule.forest p = (q, .ok forest) ∧ q.cursor = 2) ∧
      ∃ s' log, s.scanToken .skip = (s', log, .ok ()) ∧ s.offset "é\x7b" < s'.offset "é\x7b" ∧
        s'.offset "é\x7b" ≤ 3 := by
  intro tokens p s
  have hfirst : (terminated tokens).findIdx Token.isEof = 2 := by decide
  obtain ⟨hparser, hscanner⟩ := reading_makes_progress
  obtain ⟨_, hcalls, hmoves, hprogram⟩ := hparser tokens 0 7 8 [] (Nat.zero_le _)
  rw [hfirst] at hcalls hmoves hprogram
  obtain ⟨hstart, hgoes⟩ := hscanner .skip "é\x7b"
  refine ⟨Nat.zero_le _, hcalls .scope 21 (Nat.le_refl _), ?_, ?_, ?_⟩
  · exact ⟨_, rfl, hmoves .unnamedScope rfl _ _ rfl⟩
  · exact ⟨_, _, rfl, hprogram _ _ rfl⟩
  · have hs : s = ⟨[⟨.stray, ['é']⟩, ⟨.symbol, ['\x7b']⟩], .start, []⟩ := by decide +kernel
    obtain ⟨s', log, hgo⟩ : ∃ s' log, s.scanToken .skip = (s', log, .ok ()) := by
      rw [hs]
      exact ⟨_, _, rfl⟩
    obtain ⟨_, hlt, hle, _⟩ := (hgoes [] s hstart).1 (by simp [hs]) s' log hgo
    exact ⟨s', log, hgo, hlt, hle⟩

end ScopeFront
