import ScopeFront.Proofs.Parser.Reading

/-!
# The rules read the phrases of the grammar

Each rule, with the levels it has left, reads the phrases that the grammar gives for it.  The rules
for expressions and statements are taken along as parameters, as the rules themselves take them, and
the two inductions over the levels stand in `expressionAt_reads` and `statementAt_reads`.

* `Rule.expressionAt_reads`, `Rule.statementAt_reads` – expressions and statements;
* `Rule.topLevel_reads` – the nodes of the top level;
* `Rule.forest_reads` – whole programs.
-/

set_option autoImplicit false

namespace ScopeFront

namespace Rule

open Grammar

variable {n : Nat}

/-! ## Expressions -/

theorem leaf_reads : leaf.Reads n .primary := by
  intro p hp hn
  unfold leaf
  rw [peek_bind]
  cases hk : p.peek.kind with
  | identifier =>
      refine ((Reads.pure _).logged _).behind hp hn (Token.isEof_eq_false hk (by decide)) ?_
      rintro m _ e ⟨rfl, rfl⟩
      exact Primary.identifier hk
  | literal =>
      refine ((Reads.pure _).logged _).behind hp hn (Token.isEof_eq_false hk (by decide)) ?_
      rintro m _ e ⟨rfl, rfl⟩
      exact Primary.literal hk
  | _ => exact Reads.failExpected _ _ p hp hn

theorem primary_reads {inner : Rule Expr} (h : ∀ m, n = m + 1 → inner.Reads m .expression) :
    (primary inner).Reads n .primary := by
  intro p hp hn
  unfold primary
  rw [matchSymbol_bind]
  split
  · rename_i hc
    exact .nested hp (.inl hc) (fun m hm => h m (hn.symm.trans hm)) fun he hc' =>
      Primary.parenthesized hc he hc'
  · exact leaf_reads p hp hn

theorem chain_primary_reads {inner : Rule Expr}
    (h : ∀ m, n = m + 1 → inner.Reads m .expression) :
    (chain (primary inner)).Reads n .expression := by
  refine ((primary_reads h).chain Primary.ne_nil).weaken ?_
  rintro k _ e ⟨ts, us, first, rfl, hf, ht⟩
  exact Chain.mk hf ht

theorem expressionAt_reads : (expressionAt n).Reads n .expression := by
  induction n with
  | zero => exact chain_primary_reads fun k hk => by cases hk
  | succ m ih =>
      refine chain_primary_reads fun k hk => ?_
      obtain rfl : m = k := by omega
      exact ih

theorem expressionAt_advances : (expressionAt n).Advances n :=
  expressionAt_reads.advances Expression.ne_nil

theorem innerExpressionAt_reads (m : Nat) (h : n = m + 1) :
    (innerExpressionAt n).Reads m .expression := by
  subst h
  exact expressionAt_reads

theorem operand_advances : (primary (innerExpressionAt n)).Advances n :=
  (primary_reads innerExpressionAt_reads).advances Primary.ne_nil

/-! ## Headers -/

theorem parameter_reads : parameter.Reads n .parameter := by
  refine ((Reads.expectType _).bind fun type => (Reads.expectIdentifier _).bind fun name =>
    (Reads.pure _).logged _).weaken ?_
  rintro m _ _ ⟨_, _, type, rfl, ⟨t, rfl, ht⟩, _, _, _, rfl, ⟨x, rfl, hx, rfl⟩, rfl, rfl⟩
  exact Parameter.mk ht hx

theorem parameter_advances : parameter.Advances n :=
  parameter_reads.advances Parameter.ne_nil

theorem parameterList_reads : parameterList.Reads n .parameters := by
  refine .ifSymbol
    ((parameter_reads.commaList Parameter.ne_nil _).bind fun ps => Reads.pure (some ps))
    (Reads.pure none) ?_ ?_
  · rintro m t _ _ ho ⟨_, _, ps, rfl, ⟨ts, _, _, rfl, hps, _, _, c, rfl, ⟨rfl, hc⟩, rfl, rfl⟩,
      rfl, rfl⟩
    rw [List.append_nil]
    exact Parameters.present ho hps hc
  · rintro m _ _ ⟨rfl, rfl⟩
    exact Parameters.absent

theorem returnType_reads : returnType.Reads n .returnType := by
  refine .ifSymbol ((Reads.expectType _).bind fun type => (Reads.pure (some type)).logged _)
    (Reads.pure none) ?_ ?_
  · rintro m t _ _ hc ⟨_, _, type, rfl, ⟨t', rfl, ht⟩, rfl, rfl⟩
    exact ReturnType.present hc ht
  · rintro m _ _ ⟨rfl, rfl⟩
    exact ReturnType.absent

theorem header_reads (label : String) : (header label).Reads n .heading := by
  refine ((Reads.expectIdentifier _).bind fun name => parameterList_reads.bind fun ps =>
    returnType_reads.bind fun type => Reads.pure _).weaken ?_
  rintro m _ _ ⟨_, _, _, rfl, ⟨x, rfl, hx, rfl⟩, ts, _, ps, rfl, hps, us, _, type, rfl, htype,
    rfl, rfl⟩
  rw [List.append_nil]
  exact (Heading.mk hx hps htype :)

theorem matchIdentifier_reads : matchIdentifier.Reads n .optionalName := by
  intro p hp hn
  rw [matchIdentifier_apply]
  split
  · rename_i hk
    exact .taken hp (Token.isEof_eq_false hk (by decide)) (OptionalName.present hk)
  · exact .read (.refl p) rfl OptionalName.absent

theorem member_reads : member.Reads n .member := by
  refine ((Reads.expectType _).bind fun type => (Reads.expectIdentifier _).bind fun name =>
    (Reads.expectSymbol ';' _).bind fun _ => (Reads.pure _).logged _).weaken ?_
  rintro m _ _ ⟨_, _, type, rfl, ⟨t, rfl, ht⟩, _, _, _, rfl, ⟨x, rfl, hx, rfl⟩, _, _, s, rfl,
    ⟨rfl, hs⟩, rfl, rfl⟩
  exact Member.mk ht hx hs

theorem member_advances : member.Advances n := member_reads.advances Member.ne_nil

/-! ## Scopes -/

section Scopes

variable {expr : Rule Expr} {inner : Rule Node} (he : expr.Reads n .expression)
  (hi : ∀ m, n = m + 1 → inner.Reads m .statement)

include hi

theorem blockWith_reads (what : String) : (blockWith inner what).Reads n .body := by
  intro p hp hn
  rw [blockWith_apply]
  split
  · rename_i ho
    exact .nested hp (.inr ho) (fun m hm => (hi m (hn.symm.trans hm)).many Statement.ne_nil _)
      fun hs hc => Body.braces ho hs hc
  · exact Reads.failExpected _ _ p hp hn

theorem signature_reads (label : String) : (signature inner label).Reads n .signature := by
  refine ((header_reads label).bind fun head => (blockWith_reads hi _).bind fun body =>
    Reads.pure _).weaken ?_
  rintro m _ _ ⟨ts, _, head, rfl, hh, us, _, body, rfl, hb, rfl, rfl⟩
  rw [List.append_nil]
  exact Signature.mk hh hb

theorem functionScopeWith_reads : (functionScopeWith inner).Reads n .signature := by
  refine ((signature_reads hi _).bind fun f => (Reads.pure f).logged _).weaken ?_
  intro m _ _ h
  obtain ⟨f, hf, rfl⟩ := Language.seq_unit h
  exact hf

theorem implementedFunction_reads : (implementedFunction inner).Reads n .method := by
  intro p hp hn
  unfold implementedFunction
  rw [peek_bind]
  split
  · rename_i hf
    rw [scopeOf?_eq_some] at hf
    exact (functionScopeWith_reads hi).behind hp hn (Token.isEof_eq_false hf.1 (by decide))
      fun hs => Method.mk hf hs
  · exact Reads.failExpected _ _ p hp hn

include he

theorem keywordScope_reads : (keywordScope expr inner).Reads n .keywordScope := by
  intro p hp hn
  rw [keywordScope_apply]
  cases hk : scopeOf? p.peek with
  | none => exact Reads.failUnexpected _ _ p hp hn
  | some keyword =>
      have hw := scopeOf?_eq_some.1 hk
      have heof := Token.isEof_eq_false hw.1 (by decide)
      cases keyword with
      | function =>
          refine (((functionScopeWith_reads hi).bind fun f =>
            Reads.pure _).logged _).behind hp hn heof ?_
          intro m _ _ h
          obtain ⟨f, hf, rfl⟩ := Language.seq_unit h
          exact KeywordScope.function (.mk hw hf)
      | forLoop =>
          refine (((Reads.expectSymbol '(' _).bind fun _ => he.bind fun condition =>
            (Reads.expectSymbol ')' _).bind fun _ => (blockWith_reads hi _).bind fun body =>
            Reads.pure _).logged _).behind hp hn heof ?_
          rintro m _ _ ⟨_, _, o, rfl, ⟨rfl, ho⟩, ts, _, condition, rfl, hts, _, _, c, rfl,
            ⟨rfl, hc⟩, us, _, body, rfl, hb, rfl, rfl⟩
          rw [List.append_nil]
          exact KeywordScope.forLoop hw ho hts hc hb
      | struct =>
          refine ((matchIdentifier_reads.bind fun name => (Reads.expectSymbol '{' _).bind fun _ =>
            (member_reads.many Member.ne_nil _).bind fun members =>
            (Reads.expectSymbol '}' _).bind fun _ => Reads.pure _).logged _).behind hp hn heof ?_
          rintro m _ _ ⟨ts, _, name, rfl, hname, _, _, o, rfl, ⟨rfl, ho⟩, us, _, members, rfl, hus,
            _, _, c, rfl, ⟨rfl, hc⟩, rfl, rfl⟩
          exact KeywordScope.struct hw hname ho hus hc
      | implement =>
          refine ((matchIdentifier_reads.bind fun name => (Reads.expectSymbol '{' _).bind fun _ =>
            ((implementedFunction_reads hi).many Method.ne_nil _).bind fun functions =>
            (Reads.expectSymbol '}' _).bind fun _ => Reads.pure _).logged _).behind hp hn heof ?_
          rintro m _ _ ⟨ts, _, name, rfl, hname, _, _, o, rfl, ⟨rfl, ho⟩, us, _, functions, rfl,
            hus, _, _, c, rfl, ⟨rfl, hc⟩, rfl, rfl⟩
          exact KeywordScope.implement hw hname ho hus hc

end Scopes

/-! ## Statements -/

section Statements

variable {expr : Rule Expr} {inner : Rule Node} (he : expr.Reads n .expression)
  (hi : ∀ m, n = m + 1 → inner.Reads m .statement)

section

include he

theorem returnStatement_reads {p : Parser} (hp : p.Proper) (hn : p.room = n)
    (hw : p.peek.Spells .identifier returnWord) :
    Outcome .statement p (returnStatement expr p) := by
  have heof := Token.isEof_eq_false hw.1 (by decide)
  rw [returnStatement_apply, returnTail, checkSymbol_bind]
  split
  · refine ((Reads.expectSymbol ';' _).bind fun _ => (Reads.pure _).logged _).behind hp hn heof ?_
    rintro m _ _ ⟨_, _, s, rfl, ⟨rfl, hs⟩, rfl, rfl⟩
    exact Statement.returnNothing hw hs
  · refine (he.bind fun value => (Reads.expectSymbol ';' _).bind fun _ =>
      (Reads.pure _).logged _).behind hp hn heof ?_
    rintro m _ _ ⟨ts, _, value, rfl, hts, _, _, s, rfl, ⟨rfl, hs⟩, rfl, rfl⟩
    exact Statement.returnValue hw hts hs

theorem declaration_reads : (declaration expr).Reads n .anywhere := by
  refine ((Reads.expectType _).bind fun type => (Reads.expectIdentifier _).bind fun name =>
    (Reads.expectSymbol '=' _).bind fun _ => he.bind fun value =>
    (Reads.expectSymbol ';' _).bind fun _ => (Reads.pure _).logged _).weaken ?_
  rintro m _ _ ⟨_, _, type, rfl, ⟨t, rfl, ht⟩, _, _, _, rfl, ⟨x, rfl, hx, rfl⟩, _, _, eq, rfl,
    ⟨rfl, heq⟩, ts, _, value, rfl, hts, _, _, s, rfl, ⟨rfl, hs⟩, rfl, rfl⟩
  exact Anywhere.declaration ht hx heq hts hs

theorem operatorStatement_reads {p : Parser} (hp : p.Proper) (hn : p.room = n)
    (hk : p.peek.kind = .operatorKeyword) :
    Outcome .anywhere p (operatorStatement expr p) := by
  unfold operatorStatement
  rw [peek_bind]
  cases hw : OperatorKeyword.ofWord? p.peek.lexeme with
  | none => exact Reads.failUnexpected _ _ p hp hn
  | some keyword =>
      refine ((Reads.expectSymbol '(' _).bind fun _ =>
        (he.commaList Expression.ne_nil _).bind fun arguments =>
        (Reads.expectSymbol ';' _).bind fun _ => (Reads.pure _).logged _).behind hp hn
        (Token.isEof_eq_false hk (by decide)) ?_
      rintro m _ _ ⟨_, _, o, rfl, ⟨rfl, ho⟩, _, _, arguments, rfl, ⟨ts, _, _, rfl, hts, _, _, c,
        rfl, ⟨rfl, hc⟩, rfl, rfl⟩, _, _, s, rfl, ⟨rfl, hs⟩, rfl, rfl⟩
      show Anywhere m (p.peek :: o :: (ts ++ [c] ++ [s])) _
      rw [List.append_assoc]
      exact Anywhere.operator ⟨hk, operatorKeyword_eq_some.1 hw⟩ ho hts hc hs

/-- An assignment, once its name and `=` were seen. -/
theorem assignmentTail_reads {p : Parser} (hp : p.Proper) (hn : p.room = n)
    (hx : PlainName p.peek) (heq : p.next.peek.isSymbol '=' = true) :
    Outcome .statement p (assignmentTail expr p.peek.lexeme p.next.next) := by
  refine (he.bind fun value => (Reads.expectSymbol ';' _).bind fun _ =>
    (Reads.pure _).logged _).behind_two hp hn (Token.isEof_eq_false hx.1 (by decide))
    (Token.isEof_of_isSymbol heq) ?_
  rintro m _ _ ⟨ts, _, value, rfl, hts, _, _, s, rfl, ⟨rfl, hs⟩, rfl, rfl⟩
  exact Statement.assignment hx heq hts hs

/-- A call, once its name and `(` were seen. -/
theorem callTail_reads {p : Parser} (hp : p.Proper) (hn : p.room = n)
    (hx : PlainName p.peek) (ho : p.next.peek.isSymbol '(' = true) :
    Outcome .statement p (callTail expr p.peek.lexeme p.next.next) := by
  refine ((he.commaList Expression.ne_nil _).bind fun arguments =>
    (Reads.expectSymbol ';' _).bind fun _ => (Reads.pure _).logged _).behind_two hp hn
    (Token.isEof_eq_false hx.1 (by decide)) (Token.isEof_of_isSymbol ho) ?_
  rintro m _ _ ⟨_, _, arguments, rfl, ⟨ts, _, _, rfl, hts, _, _, c, rfl, ⟨rfl, hc⟩, rfl, rfl⟩,
    _, _, s, rfl, ⟨rfl, hs⟩, rfl, rfl⟩
  show Statement m (p.peek :: p.next.peek :: (ts ++ [c] ++ [s])) _
  rw [List.append_assoc]
  exact Statement.call hx ho hts hc hs

end

include hi

/-- The body of a named scope, once its name was seen. -/
theorem namedBody_reads {p : Parser} (hp : p.Proper) (hn : p.room = n) (hx : PlainName p.peek) :
    Outcome .anywhere p ((do
      let body ← blockWith inner "named scope"
      logDetail ("parsed named scope: " ++ p.peek.lexeme)
      return .namedScope p.peek.lexeme body : Rule Node) p.next) := by
  refine ((blockWith_reads hi _).bind fun body => (Reads.pure _).logged _).behind hp hn
    (Token.isEof_eq_false hx.1 (by decide)) ?_
  intro m _ _ h
  obtain ⟨body, hb, rfl⟩ := Language.seq_unit h
  exact Anywhere.namedScope hx hb

theorem unnamedScopeWith_reads : (unnamedScopeWith inner).Reads n .body := by
  refine ((blockWith_reads hi _).bind fun body => (Reads.pure body).logged _).weaken ?_
  intro m _ _ h
  obtain ⟨body, hb, rfl⟩ := Language.seq_unit h
  exact hb

include he

theorem identifierStatement_reads {p : Parser} (hp : p.Proper) (hn : p.room = n)
    (hx : PlainName p.peek) : Outcome .statement p (identifierStatement expr inner p) := by
  have heof := Token.isEof_eq_false hx.1 (by decide)
  rw [identifierStatement_apply expr inner hp hx.1, nameTail_apply]
  split
  · exact (namedBody_reads hi hp hn hx).weaken fun h => Statement.anywhere h
  · split
    · rename_i heq
      exact assignmentTail_reads he hp hn hx heq
    · split
      · rename_i ho
        exact callTail_reads he hp hn hx ho
      · -- the name could still be followed by a body
        refine (Reads.failExpected (Language.body.seq fun body =>
          .unit (.namedScope p.peek.lexeme body)) _).behind hp hn heof ?_
        intro m _ _ h
        obtain ⟨body, hb, rfl⟩ := Language.seq_unit h
        exact Statement.anywhere (.namedScope hx hb)

/-- A statement that no identifier begins may stand anywhere. -/
theorem statementBy_reads_anywhere {p : Parser} (hp : p.Proper) (hn : p.room = n)
    (hk : p.peek.kind ≠ .identifier) : Outcome .anywhere p (statementBy expr inner p) := by
  unfold statementBy
  rw [inspect_apply]
  cases hk' : p.peek.kind with
  | identifier => exact absurd hk' hk
  | symbol =>
      show Outcome _ p ((if p.peek.isSymbol '{' then _ else _ : Rule Node) p)
      split
      · refine (((unnamedScopeWith_reads hi).bind fun body => Reads.pure _) p hp hn).weaken ?_
        intro m _ _ h
        obtain ⟨body, hb, rfl⟩ := Language.seq_unit h
        exact Anywhere.unnamedScope hb
      · exact Reads.failUnexpected _ _ p hp hn
  | scopeKeyword => exact (keywordScope_reads he hi p hp hn).weaken fun h => Anywhere.scope h
  | typeKeyword => exact declaration_reads he p hp hn
  | operatorKeyword => exact operatorStatement_reads he hp hn hk'
  | literal => exact Reads.failUnexpected _ _ p hp hn
  | eof => exact Reads.failUnexpected _ _ p hp hn

theorem statementBy_reads : (statementBy expr inner).Reads n .statement := by
  intro p hp hn
  by_cases hk : p.peek.kind = .identifier
  · by_cases hw : p.peek.lexeme = returnWord
    · rw [statementBy_of_return expr inner ⟨hk, hw⟩]
      exact returnStatement_reads he hp hn ⟨hk, hw⟩
    · rw [statementBy_of_name expr inner ⟨hk, hw⟩]
      exact identifierStatement_reads he hi hp hn ⟨hk, hw⟩
  · exact (statementBy_reads_anywhere he hi hp hn hk).weaken fun h => Statement.anywhere h

theorem statementWith_reads : (statementWith expr inner).Reads n .statement := by
  intro p hp hn
  rw [statementWith_apply]
  exact (statementBy_reads he hi).logged _ p hp hn

end Statements

theorem statementAt_reads : (statementAt n).Reads n .statement := by
  rw [statementAt_eq]
  induction n with
  | zero => exact statementWith_reads expressionAt_reads fun k hk => by cases hk
  | succ m ih =>
      refine statementWith_reads expressionAt_reads fun k hk => ?_
      obtain rfl : m = k := by omega
      show (statementAt m).Reads m .statement
      rw [statementAt_eq]
      exact ih

theorem statementAt_advances : (statementAt n).Advances n :=
  statementAt_reads.advances Statement.ne_nil

theorem bodyStatementAt_reads (m : Nat) (h : n = m + 1) :
    (bodyStatementAt n).Reads m .statement := by
  subst h
  exact statementAt_reads

theorem method_advances : (implementedFunction (bodyStatementAt n)).Advances n :=
  (implementedFunction_reads bodyStatementAt_reads).advances Method.ne_nil

/-! ## Programs -/

theorem identifierScope_reads {inner : Rule Node} (hi : ∀ m, n = m + 1 → inner.Reads m .statement)
    {p : Parser} (hp : p.Proper) (hn : p.room = n) (hk : p.peek.kind = .identifier) :
    Outcome .topLevel p (identifierScope inner p) := by
  have heof := Token.isEof_eq_false hk (by decide)
  rw [identifierScope_apply inner hp hk]
  split
  · exact Reads.failUnexpected _ _ p hp hn
  · rename_i hw
    have hx : PlainName p.peek := ⟨hk, hw⟩
    rw [labelTail_apply]
    split
    · exact (namedBody_reads hi hp hn hx).weaken fun h => TopLevel.anywhere h
    · split
      · refine ((signature_reads hi _).bind fun f => (Reads.pure _).logged _).behind hp hn heof ?_
        intro m _ _ h
        obtain ⟨f, hf, rfl⟩ := Language.seq_unit h
        exact TopLevel.labeled hx hf
      · refine (Reads.failExpected (Language.body.seq fun body =>
          .unit (.namedScope p.peek.lexeme body)) _).behind hp hn heof ?_
        intro m _ _ h
        obtain ⟨body, hb, rfl⟩ := Language.seq_unit h
        exact TopLevel.anywhere (.namedScope hx hb)

theorem topLevelBy_reads : topLevelBy.Reads n .topLevel := by
  intro p hp hn
  by_cases hk : p.peek.kind = .identifier
  · rw [topLevelBy_of_identifier hk, hn]
    exact identifierScope_reads bodyStatementAt_reads hp hn hk
  · by_cases hk' : p.peek.kind = .scopeKeyword
    · rw [topLevelBy_of_scope hk', hn]
      exact (keywordScope_reads expressionAt_reads bodyStatementAt_reads p hp hn).weaken
        fun h => TopLevel.anywhere (.scope h)
    · rw [topLevelBy_of_other hk' hk, hn, statementAt_eq, statementWith_apply, logDetail_bind]
      have hlogged : ∀ event, Outcome .anywhere (p.logging event)
          (statementBy (expressionAt n) (bodyStatementAt n) (p.logging event)) :=
        fun event => statementBy_reads_anywhere expressionAt_reads bodyStatementAt_reads
          (hp.of_reaches (p.reaches_logging event)) hn hk
      exact (hlogged _).logged.weaken fun h => TopLevel.anywhere h

theorem topLevel_reads : topLevel.Reads n .topLevel := by
  rw [topLevel_eq]
  refine (topLevelBy_reads.bind fun node => (Reads.pure node).logged _).weaken ?_
  intro m _ _ h
  obtain ⟨node, h, rfl⟩ := Language.seq_unit h
  exact h

theorem topLevel_advances : topLevel.Advances n := topLevel_reads.advances TopLevel.ne_nil

/-- The nodes of the top level, as many as there are. -/
theorem topLevels_reads : (many (fun _ => false) topLevel).Reads n Language.topLevel.many :=
  topLevel_reads.many TopLevel.ne_nil _

theorem forest_reads : forest.Reads n Language.topLevel.many := by
  refine ((topLevels_reads.bind fun nodes => (Reads.pure nodes).logging _).logging _).weaken ?_
  intro m _ _ h
  obtain ⟨nodes, h, rfl⟩ := Language.seq_unit h
  exact h

/-- What a program comes to is what its nodes come to, but for the log. -/
theorem forest_apply (p : Parser) :
    ∃ q, p.Reaches [] q ∧ q.depth = p.depth ∧ ∀ r x, many (fun _ => false) topLevel q = (r, x) →
      ∃ r', forest p = (r', x) ∧ r.Reaches [] r' ∧ r'.depth = r.depth := by
  refine ⟨_, p.reaches_logging (.debug parserStage .phase "starting parse"), rfl, ?_⟩
  intro r x hx
  unfold forest
  rw [bind_apply_ok (r := logPhase "starting parse") rfl]
  cases x with
  | error e => exact ⟨r, bind_apply_error hx, .refl r, rfl⟩
  | ok nodes => exact ⟨_, bind_apply_ok hx, r.reaches_logging _, rfl⟩

end Rule

end ScopeFront
