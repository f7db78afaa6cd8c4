import ScopeFront.Proofs.Concatenation
import ScopeFront.Proofs.Parser.CorrectPrefix

/-!
# The errors that source texts can have

Of the errors that the rules can fail with, some need tokens that no source text has: a reserved
word of a category, without the spelling of one.  What remains is short.  A token is unexpected only
where a statement should begin, or where it is the word `return` outside of all bodies; a nesting
that goes too deep is told at the bracket that opens the level too many; and where the tokens end
early, something definite was required.

* `Token.Genuine`, `genuine_of_tokenize` – reserved words of source texts are spelled as such;
* `ParseError.Explained` – where a token may be unexpected;
* `Answered`, `Rule.Explains` – a run that ends well or in such an error, and the rules whose runs
  do;
* `Rule.statementAt_explains`, `Rule.forest_explains` – the rules of the grammar;
* `parse_errors_of_source` – the errors of the second stage.
-/

set_option autoImplicit false

namespace ScopeFront

/-! ## Reserved words -/

/-- Whether the category is one of reserved words. -/
def TokenKind.isReserved : TokenKind → Bool
  | scopeKeyword | typeKeyword | operatorKeyword => true
  | _ => false

/-- A token in a category of reserved words has the spelling of one. -/
def Token.Genuine (t : Token) : Prop := t.kind.isReserved = true → Reserved t.kind t.lexeme

theorem Spelled.genuine {before : List Char} {next : Option Char} {s : Segment} {t : Token}
    (h : Spelled before next s t) : t.Genuine := by
  intro hkind
  cases h with
  | word hword =>
      rcases hword with ⟨_, hreserved⟩ | ⟨rfl, _⟩
      · exact hreserved
      · cases hkind
  | number => cases hkind
  | symbol => cases hkind

theorem genuine_of_tokenize {policy : UnmatchedPolicy} {source : String} {tokens : List Token}
    (h : (tokenize policy source).2 = .ok tokens) : ∀ t ∈ tokens, t.Genuine := by
  intro t ht
  cases heof : t.isEof with
  | true =>
      intro hkind
      rw [beq_iff_eq.1 heof] at hkind
      cases hkind
  | false =>
      obtain ⟨_, _, _, _, _, hspelled⟩ := (tokenize_emits h).spelled ht heof
      exact hspelled.genuine

namespace Token.Genuine

variable {t : Token} (h : t.Genuine)

include h

theorem scopeOf? (hk : t.kind = .scopeKeyword) : ∃ keyword, Rule.scopeOf? t = some keyword := by
  have hreserved := h (by rw [hk]; rfl)
  rw [hk] at hreserved
  obtain ⟨keyword, hword⟩ := hreserved
  exact ⟨keyword, Rule.scopeOf?_eq_some.2 ⟨hk, hword.symm⟩⟩

theorem typeOf? (hk : t.kind = .typeKeyword) : ∃ type, Rule.typeOf? t = some type := by
  have hreserved := h (by rw [hk]; rfl)
  rw [hk] at hreserved
  obtain ⟨type, hword⟩ := hreserved
  exact ⟨type, Rule.typeOf?_eq_some.2 ⟨hk, hword.symm⟩⟩

theorem operator? (hk : t.kind = .operatorKeyword) :
    ∃ keyword, OperatorKeyword.ofWord? t.lexeme = some keyword := by
  have hreserved := h (by rw [hk]; rfl)
  rw [hk] at hreserved
  obtain ⟨keyword, hword⟩ := hreserved
  exact ⟨keyword, Rule.operatorKeyword_eq_some.2 hword.symm⟩

end Token.Genuine

/-! ## Runs over genuine tokens -/

/-- All that a parser is still to read are genuine tokens. -/
structure Parser.Genuine (p : Parser) : Prop where
  proper : p.Proper
  ahead : ∀ t ∈ p.ahead, t.Genuine

theorem Parser.peek_mem_tokens (p : Parser) : p.peek ∈ p.tokens := by
  unfold peek tokens
  cases p.ahead with
  | nil => simp
  | cons t later => simp

namespace Parser.Genuine

variable {p q : Parser}

theorem of_reaches {ts : List Token} (hp : p.Genuine) (h : p.Reaches ts q) : q.Genuine where
  proper := hp.proper.of_reaches h
  ahead := by
    intro t ht
    apply hp.ahead
    rw [h.ahead]
    exact List.mem_append_right ts ht

theorem logging (hp : p.Genuine) (e : Event) : (p.logging e).Genuine :=
  hp.of_reaches (p.reaches_logging e)

theorem next (hp : p.Genuine) : p.next.Genuine := by
  cases heof : p.peek.isEof with
  | false => exact hp.of_reaches (hp.proper.reaches_next heof)
  | true =>
      rw [hp.proper.peek_isEof] at heof
      have hstay : p.next = p := by
        unfold Parser.next
        rw [List.isEmpty_iff.1 heof]
      rw [hstay]
      exact hp

/-- The token at the place is genuine, as the end marker is. -/
theorem peek (hp : p.Genuine) : p.peek.Genuine := by
  unfold Parser.peek
  cases ha : p.ahead with
  | nil =>
      intro hkind
      rw [List.headD_nil, beq_iff_eq.1 hp.proper.stop] at hkind
      cases hkind
  | cons t later =>
      apply hp.ahead
      rw [ha]
      exact List.mem_cons_self

end Parser.Genuine

/-- A token is unexpected only where it begins no statement, and `return` also outside of bodies. -/
def ParseError.Explained : ParseError → Prop
  | unexpectedToken found context => ∃ t, found = .token t ∧
      (context = "at start of statement" ∧ (t.kind = .symbol ∨ t.kind = .literal) ∨
        context = "outside a scope body" ∧ t.Spells .identifier Rule.returnWord)
  | _ => True

/-- A run that ends well before genuine tokens, or in an error that is explained. -/
inductive Answered {α : Type} : Parser × Except ParseError α → Prop
  | ok {q : Parser} {a : α} : q.Genuine → Answered (q, .ok a)
  | failed {q : Parser} {e : ParseError} : e.Explained → Answered (q, .error e)

namespace Rule

variable {α β : Type} {pre : Token → Prop}

/-- Before genuine tokens, the first of which satisfies `pre`, every run of the rule is answered. -/
def Explains (r : Rule α) (pre : Token → Prop) : Prop :=
  ∀ p : Parser, p.Genuine → pre p.peek → Answered (r p)

namespace Explains

theorem answered {r : Rule α} (hr : r.Explains fun _ => True) {p : Parser} (hp : p.Genuine) :
    Answered (r p) :=
  hr p hp trivial

theorem bind {r : Rule α} {f : α → Rule β} (hr : r.Explains pre)
    (hf : ∀ a, (f a).Explains fun _ => True) : (r >>= f).Explains pre := by
  intro p hp hpre
  have hx := hr p hp hpre
  generalize hrun : r p = x at hx
  cases hx with
  | ok hq =>
      rw [bind_apply_ok hrun]
      exact (hf _).answered hq
  | failed he =>
      rw [bind_apply_error hrun]
      exact .failed he

theorem pure (a : α) : (Pure.pure a : Rule α).Explains pre := fun _ hp _ => .ok hp

theorem inspect {f : Parser → Rule α} (hf : ∀ p, (f p).Explains pre) :
    (Rule.inspect f).Explains pre :=
  fun p => hf p p

/-- A choice between two rules. -/
theorem ite {c : Prop} [Decidable c] {r s : Rule α} (hr : r.Explains pre) (hs : s.Explains pre) :
    (if c then r else s).Explains pre := by
  split
  · exact hr
  · exact hs

theorem logDetail (message : String) : (Rule.logDetail message).Explains pre :=
  fun _ hp _ => .ok (hp.logging _)

theorem logPhase (message : String) : (Rule.logPhase message).Explains pre :=
  fun _ hp _ => .ok (hp.logging _)

theorem failExpected (what : String) : (Rule.failExpected what : Rule α).Explains pre :=
  fun _ _ _ => .failed trivial

theorem tooDeep : (Rule.tooDeep : Rule α).Explains pre := fun _ _ _ => .failed trivial

/-- No statement begins with a number, nor with a symbol other than a brace. -/
theorem failUnexpected : (Rule.failUnexpected "at start of statement" : Rule α).Explains
    fun t => t.kind = .symbol ∨ t.kind = .literal := by
  intro p _ hk
  have heof : p.peek.isEof = false := by
    rcases hk with hk | hk
    · exact Token.isEof_eq_false hk (by decide)
    · exact Token.isEof_eq_false hk (by decide)
  exact .failed ⟨p.peek, Found.ofToken_eq heof, .inl ⟨rfl, hk⟩⟩

/-! ## Single tokens -/

theorem peek : Rule.peek.Explains pre := fun _ hp _ => .ok hp

theorem peekNext : Rule.peekNext.Explains pre := fun _ hp _ => .ok hp

theorem checkSymbol (c : Char) : (Rule.checkSymbol c).Explains pre := fun _ hp _ => .ok hp

theorem advance : Rule.advance.Explains pre := fun _ hp _ => .ok hp.next

theorem matchSymbol (c : Char) : (Rule.matchSymbol c).Explains pre :=
  (checkSymbol c).bind fun _ => ite (advance.bind fun _ => pure true) (pure false)

theorem expectSymbol (c : Char) (context : String) : (Rule.expectSymbol c context).Explains pre :=
  (checkSymbol c).bind fun _ => ite advance (failExpected _)

theorem expectIdentifier (what : String) : (Rule.expectIdentifier what).Explains pre :=
  peek.bind fun _ => ite (advance.bind fun _ => pure _) (failExpected what)

theorem matchIdentifier : Rule.matchIdentifier.Explains pre :=
  peek.bind fun _ => ite (advance.bind fun _ => pure _) (pure none)

theorem expectType (what : String) : (Rule.expectType what).Explains pre := by
  refine peek.bind fun t => ?_
  cases Rule.typeOf? t with
  | none => exact failExpected what
  | some type => exact advance.bind fun _ => pure type

theorem matchOperator : Rule.matchOperator.Explains pre := by
  refine peek.bind fun t => ?_
  cases operatorOf? t with
  | none => exact pure none
  | some op => exact advance.bind fun _ => pure (some op)

/-! ## Nesting and repetition -/

theorem enterNested : Rule.enterNested.Explains pre := by
  intro p hp hpre
  by_cases hle : p.limit ≤ p.depth
  · rw [enterNested_of_le hle]
    exact tooDeep p hp hpre
  · rw [enterNested_of_lt (Nat.lt_of_not_le hle)]
    exact .ok (hp.of_reaches p.reaches_deeper)

theorem leaveNested : Rule.leaveNested.Explains pre :=
  fun p hp _ => .ok (hp.of_reaches p.reaches_shallower)

theorem nested {inner : Rule α} (hi : inner.Explains fun _ => True) (close : Char)
    (context : String) : (Rule.nested inner close context).Explains pre :=
  enterNested.bind fun _ => hi.bind fun a => (expectSymbol close context).bind fun _ =>
    leaveNested.bind fun _ => pure a

/-- A repetition looks for another item only where tokens are left. -/
theorem many {item : Rule α} (hi : item.Explains (·.isEof = false)) (close : Token → Bool) :
    (Rule.many close item).Explains pre := by
  refine inspect fun p => ?_
  induction p.ahead generalizing pre with
  | nil => exact pure []
  | cons t rounds ih =>
      intro q hq hpre
      show Answered ((if q.atEnd || close q.peek then Rule.pure [] else _ : Rule (List α)) q)
      split
      · exact .ok hq
      · rename_i hgo
        have heof : q.peek.isEof = false := by
          rw [hq.proper.peek_isEof]
          simp only [Bool.or_eq_true, not_or, Bool.not_eq_true] at hgo
          exact hgo.1
        exact hi.bind (fun a => ih.bind fun as => pure (a :: as)) q hq heof

theorem commaTailWithin {item : Rule α} (hi : item.Explains fun _ => True) (what : String)
    (rounds : List Token) : (Rule.commaTailWithin item what rounds).Explains pre := by
  induction rounds generalizing pre with
  | nil => exact failExpected what
  | cons t rounds ih =>
      exact (matchSymbol ',').bind fun _ => ite
        (hi.bind fun a => ih.bind fun as => pure (a :: as))
        ((matchSymbol ')').bind fun _ => ite (pure []) (failExpected what))

theorem commaList {item : Rule α} (hi : item.Explains fun _ => True) (what : String) :
    (Rule.commaList item what).Explains pre :=
  (matchSymbol ')').bind fun _ => ite (pure [])
    (hi.bind fun a => (inspect fun p => hi.commaTailWithin what p.ahead).bind fun as =>
      pure (a :: as))

theorem operatorTailWithin {operand : Rule Expr} (ho : operand.Explains fun _ => True)
    (rounds : List Token) (left : Expr) :
    (Rule.operatorTailWithin operand rounds left).Explains pre := by
  induction rounds generalizing left pre with
  | nil => exact pure left
  | cons t rounds ih =>
      refine matchOperator.bind fun op => ?_
      cases op with
      | none => exact pure left
      | some op => exact ho.bind fun right => ih (.binary left op right)

end Explains

/-! ## Expressions and headers -/

theorem leaf_explains : leaf.Explains pre := by
  refine Explains.peek.bind fun t => ?_
  cases t.kind with
  | identifier =>
      exact Explains.advance.bind fun _ => (Explains.logDetail _).bind fun _ => .pure _
  | literal => exact Explains.advance.bind fun _ => (Explains.logDetail _).bind fun _ => .pure _
  | _ => exact .failExpected _

theorem chain_primary_explains {inner : Rule Expr} (hi : inner.Explains fun _ => True) :
    (chain (primary inner)).Explains pre := by
  have hoperand : ∀ {pre : Token → Prop}, (primary inner).Explains pre :=
    (Explains.matchSymbol '(').bind fun _ => .ite (hi.nested ')' _) leaf_explains
  exact hoperand.bind fun first => .inspect fun p => hoperand.operatorTailWithin p.ahead first

theorem expressionAt_explains (n : Nat) : (expressionAt n).Explains pre := by
  induction n generalizing pre with
  | zero => exact chain_primary_explains .tooDeep
  | succ n ih => exact chain_primary_explains ih

theorem parameter_explains : parameter.Explains pre :=
  (Explains.expectType _).bind fun _ => (Explains.expectIdentifier _).bind fun _ =>
    (Explains.logDetail _).bind fun _ => .pure _

theorem header_explains (label : String) : (header label).Explains pre := by
  have hparameters : parameterList.Explains fun _ => True :=
    (Explains.matchSymbol '(').bind fun _ =>
      .ite ((parameter_explains.commaList _).bind fun ps => .pure (some ps)) (.pure none)
  have htype : returnType.Explains fun _ => True :=
    (Explains.matchSymbol ':').bind fun _ =>
      .ite ((Explains.expectType _).bind fun type => (Explains.logDetail _).bind fun _ =>
        .pure (some type)) (.pure none)
  exact (Explains.expectIdentifier _).bind fun _ => hparameters.bind fun _ =>
    htype.bind fun _ => .pure _

theorem member_explains : member.Explains pre :=
  (Explains.expectType _).bind fun _ => (Explains.expectIdentifier _).bind fun _ =>
    (Explains.expectSymbol ';' _).bind fun _ => (Explains.logDetail _).bind fun _ => .pure _

/-! ## Scopes -/

section Scopes

variable {expr : Rule Expr} {inner : Rule Node} (he : expr.Explains fun _ => True)
  (hi : inner.Explains (·.isEof = false))

section

include hi

theorem blockWith_explains (what : String) : (blockWith inner what).Explains pre := by
  rw [blockWith_eq]
  exact (Explains.expectSymbol '{' _).bind fun _ => (hi.many _).nested '}' _

theorem signature_explains (label : String) : (signature inner label).Explains pre :=
  (header_explains label).bind fun _ => (blockWith_explains hi _).bind fun _ => .pure _

theorem functionScopeWith_explains : (functionScopeWith inner).Explains pre :=
  (signature_explains hi _).bind fun f => (Explains.logDetail _).bind fun _ => .pure f

theorem implementedFunction_explains : (implementedFunction inner).Explains pre :=
  Explains.peek.bind fun _ =>
    .ite (Explains.advance.bind fun _ => functionScopeWith_explains hi) (.failExpected _)

theorem namedScopeWith_explains : (namedScopeWith inner).Explains pre :=
  (Explains.expectIdentifier _).bind fun _ => (blockWith_explains hi _).bind fun _ =>
    (Explains.logDetail _).bind fun _ => .pure _

theorem labeledScope_explains : (labeledScope inner).Explains pre :=
  Explains.advance.bind fun _ => (signature_explains hi _).bind fun _ =>
    (Explains.logDetail _).bind fun _ => .pure _

/-- At the top level, only the word `return` is an identifier that is unexpected. -/
theorem identifierScope_explains :
    (identifierScope inner).Explains (·.kind = .identifier) := by
  intro p hp hk
  unfold identifierScope
  rw [peek_bind]
  split
  · rename_i hreturn
    have heof := Token.isEof_eq_false hk (by decide)
    exact .failed ⟨p.peek, Found.ofToken_eq heof, .inr ⟨rfl, hk, hreturn⟩⟩
  · refine Explains.answered ?_ hp
    exact Explains.peekNext.bind fun _ =>
      .ite ((namedScopeWith_explains hi).bind fun _ => .pure _) (Explains.peekNext.bind fun _ =>
        .ite (labeledScope_explains hi) (Explains.advance.bind fun _ => .failExpected _))

end

include he hi

theorem scopeBehind_explains (keyword : ScopeKeyword) :
    (scopeBehind expr inner keyword).Explains pre := by
  cases keyword with
  | function => exact (functionScopeWith_explains hi).bind fun f => .pure (Node.function f)
  | forLoop =>
      exact (Explains.expectSymbol '(' _).bind fun _ => he.bind fun _ =>
        (Explains.expectSymbol ')' _).bind fun _ => (blockWith_explains hi _).bind fun _ => .pure _
  | struct =>
      exact Explains.matchIdentifier.bind fun _ => (Explains.expectSymbol '{' _).bind fun _ =>
        (member_explains.many _).bind fun _ => (Explains.expectSymbol '}' _).bind fun _ => .pure _
  | implement =>
      exact Explains.matchIdentifier.bind fun _ => (Explains.expectSymbol '{' _).bind fun _ =>
        ((implementedFunction_explains hi).many _).bind fun _ =>
          (Explains.expectSymbol '}' _).bind fun _ => .pure _

/-- A genuine word that introduces scopes introduces one. -/
theorem keywordScope_explains :
    (keywordScope expr inner).Explains (·.kind = .scopeKeyword) := by
  intro p hp hk
  obtain ⟨keyword, hkeyword⟩ := hp.peek.scopeOf? hk
  rw [keywordScope_apply, hkeyword]
  exact (scopeBehind_explains he hi keyword).answered (hp.next.logging _)

end Scopes

/-! ## Statements -/

section Statements

variable {expr : Rule Expr} {inner : Rule Node} (he : expr.Explains fun _ => True)
  (hi : inner.Explains (·.isEof = false))

section

include he

theorem returnStatement_explains : (returnStatement expr).Explains pre := by
  have hend : ∀ value : Option Expr, (do
      let _ ← expectSymbol ';' "after return statement"
      logDetail "parsed return statement"
      return .ret value : Rule Node).Explains fun _ => True := fun value =>
    (Explains.expectSymbol ';' _).bind fun _ => (Explains.logDetail _).bind fun _ => .pure _
  exact Explains.advance.bind fun _ => (Explains.checkSymbol ';').bind fun _ =>
    .ite ((Explains.pure none).bind hend) (he.bind fun e => (Explains.pure (some e)).bind hend)

theorem assignmentTail_explains (name : String) :
    (assignmentTail expr name).Explains fun _ => True :=
  he.bind fun _ => (Explains.expectSymbol ';' _).bind fun _ =>
    (Explains.logDetail _).bind fun _ => .pure _

theorem callTail_explains (name : String) : (callTail expr name).Explains pre :=
  (he.commaList _).bind fun _ => (Explains.expectSymbol ';' _).bind fun _ =>
    (Explains.logDetail _).bind fun _ => .pure _

theorem declaration_explains : (declaration expr).Explains pre :=
  (Explains.expectType _).bind fun _ => (Explains.expectIdentifier _).bind fun _ =>
    (Explains.expectSymbol '=' _).bind fun _ => he.bind fun _ =>
      (Explains.expectSymbol ';' _).bind fun _ => (Explains.logDetail _).bind fun _ => .pure _

/-- A genuine operation is one of those there are. -/
theorem operatorStatement_explains :
    (operatorStatement expr).Explains (·.kind = .operatorKeyword) := by
  intro p hp hk
  obtain ⟨keyword, hkeyword⟩ := hp.peek.operator? hk
  unfold operatorStatement
  rw [peek_bind, hkeyword]
  refine Explains.answered ?_ hp
  exact Explains.advance.bind fun _ => (Explains.expectSymbol '(' _).bind fun _ =>
    (he.commaList _).bind fun _ => (Explains.expectSymbol ';' _).bind fun _ =>
      (Explains.logDetail _).bind fun _ => .pure _

end

include he hi

theorem identifierStatement_explains : (identifierStatement expr inner).Explains pre :=
  Explains.peekNext.bind fun _ => .ite ((namedScopeWith_explains hi).bind fun _ => .pure _)
    (Explains.advance.bind fun _ => (Explains.matchSymbol '=').bind fun _ =>
      .ite (assignmentTail_explains he _) ((Explains.matchSymbol '(').bind fun _ =>
        .ite (callTail_explains he _) (.failExpected _)))

/-- Before a token that is no end marker, a statement begins, or the token is a number or a symbol
other than a brace. -/
theorem statementWith_explains : (statementWith expr inner).Explains (·.isEof = false) := by
  intro p hp heof
  rw [statementWith_apply, logDetail_bind]
  have hq := hp.logging (.debug parserStage .detail
    ("parsing statement at '" ++ p.peek.lexeme ++ "'"))
  generalize hrest : p.logging _ = q at hq
  have hpeek : q.peek = p.peek := by rw [← hrest]; rfl
  unfold statementBy
  rw [inspect_apply]
  cases hk : q.peek.kind with
  | identifier =>
      exact (Explains.ite (returnStatement_explains he)
        (identifierStatement_explains he hi)).answered hq
  | symbol =>
      show Answered ((if q.peek.isSymbol '{' then _ else _ : Rule Node) q)
      split
      · have hbody : (unnamedScopeWith inner).Explains fun _ => True :=
          (blockWith_explains hi _).bind fun body => (Explains.logDetail _).bind fun _ =>
            .pure body
        exact (hbody.bind fun body => .pure (Node.unnamedScope body)).answered hq
      · exact Explains.failUnexpected q hq (.inl hk)
  | scopeKeyword => exact keywordScope_explains he hi q hq hk
  | typeKeyword => exact (declaration_explains he).answered hq
  | operatorKeyword => exact operatorStatement_explains he q hq hk
  | literal => exact Explains.failUnexpected q hq (.inr hk)
  | eof =>
      rw [Token.isEof, ← hpeek, hk] at heof
      cases heof

end Statements

theorem statementAt_explains (n : Nat) : (statementAt n).Explains (·.isEof = false) := by
  induction n with
  | zero => exact statementWith_explains (expressionAt_explains 0) .tooDeep
  | succ n ih => exact statementWith_explains (expressionAt_explains (n + 1)) ih

theorem bodyStatementAt_explains (n : Nat) : (bodyStatementAt n).Explains (·.isEof = false) := by
  cases n with
  | zero => exact .tooDeep
  | succ n => exact statementAt_explains n

/-! ## Programs -/

theorem topLevel_explains : topLevel.Explains (·.isEof = false) := by
  rw [topLevel_eq]
  refine Explains.bind ?_ fun node => (Explains.logDetail _).bind fun _ => .pure node
  intro p hp heof
  by_cases hscope : p.peek.kind = .scopeKeyword
  · rw [topLevelBy_of_scope hscope]
    exact keywordScope_explains (expressionAt_explains _) (bodyStatementAt_explains _) p hp hscope
  · by_cases hname : p.peek.kind = .identifier
    · rw [topLevelBy_of_identifier hname]
      exact identifierScope_explains (bodyStatementAt_explains _) p hp hname
    · rw [topLevelBy_of_other hscope hname]
      exact statementAt_explains _ p hp heof

/-- **A program over genuine tokens is read, or refused with an explained error.** -/
theorem forest_explains : forest.Explains pre :=
  (Explains.logPhase _).bind fun _ => (topLevel_explains.many _).bind fun nodes =>
    (Explains.logPhase _).bind fun _ => .pure nodes

end Rule

/-! ## Source texts -/

/-- An error of the second stage comes from the tokens of the source text. -/
theorem parseSource_error {settings : Settings} {source : String} {e : ParseError}
    (h : (parseSource settings source).2 = .error (.parse e)) :
    ∃ tokens, (tokenize settings.unmatched source).2 = .ok tokens ∧
      (parseTokens settings.maxDepth tokens).2 = .error e := by
  rw [parseSource_snd] at h
  cases htokens : (tokenize settings.unmatched source).2 with
  | error e' =>
      rw [htokens] at h
      cases h
  | ok tokens =>
      rw [htokens] at h
      refine ⟨tokens, rfl, ?_⟩
      cases hforest : (parseTokens settings.maxDepth tokens).2 with
      | error e' => simpa [hforest] using h
      | ok nodes => simp [hforest] at h

theorem explained_of_parseTokens {limit : Nat} {tokens : List Token} {e : ParseError}
    (htokens : ∀ t ∈ tokens, t.Genuine) (h : (parseTokens limit tokens).2 = .error e) :
    e.Explained := by
  have hgenuine : (Parser.ofTokens tokens limit).Genuine := by
    refine ⟨Parser.ofTokens_proper tokens limit, ?_⟩
    intro t ht
    rw [Parser.ofTokens_ahead] at ht
    exact htokens t (List.takeWhile_subset _ ht)
  have hanswer := Rule.forest_explains.answered hgenuine
  rw [parseTokens_snd] at h
  rcases hrun : Rule.forest (Parser.ofTokens tokens limit) with ⟨q, x⟩
  rw [hrun] at hanswer h
  obtain rfl : x = .error e := h
  cases hanswer with
  | failed he => exact he

/-- A level too many is told at the bracket that opens it. -/
theorem bracket_of_tooDeep {limit : Nat} {tokens : List Token} {found : Found} {n : Nat}
    (h : (parseTokens limit tokens).2 = .error (.tooDeep found n)) :
    n = limit ∧ ∃ t, found = .token t ∧ (t.isSymbol '{' = true ∨ t.isSymbol '(' = true) := by
  have hread := Rule.forest_reads _ (Parser.ofTokens_proper tokens limit) rfl
  rw [parseTokens_snd] at h
  rcases hrun : Rule.forest (Parser.ofTokens tokens limit) with ⟨q, x⟩
  rw [hrun] at hread h
  obtain rfl : x = .error (.tooDeep found n) := h
  cases hread with
  | @tooDeep _ _ t _ hbracket =>
      refine ⟨rfl, t, Found.ofToken_eq ?_, hbracket.symm⟩
      rcases hbracket with hopen | hopen
      · exact Token.isEof_of_isSymbol hopen
      · exact Token.isEof_of_isSymbol hopen
  | refused _ hrefuse => cases hrefuse

/-- **The errors of source texts in the second stage.**  One about the nesting names the limit of
the settings and the bracket that opens a level too many.  An unexpected token is a symbol or a
number where a statement should begin, or the identifier `return` outside of all bodies: no source
text has a word that introduces scopes, or an operation, that is none of those there are.  Where the
tokens had ended, something definite was required.  And wherever a parser over the tokens of a text
stands, a type is read from every token in the category of types. -/
theorem parse_errors_of_source (settings : Settings) (source : String) :
    (∀ e, (parseSource settings source).2 = .error (.parse e) →
      (∀ found limit, e = .tooDeep found limit → limit = settings.maxDepth ∧
        ∃ t, found = .token t ∧ (t.isSymbol '{' = true ∨ t.isSymbol '(' = true)) ∧
      (∀ found context, e = .unexpectedToken found context → ∃ t, found = .token t ∧
        (context = "at start of statement" ∧ (t.kind = .symbol ∨ t.kind = .literal) ∨
          context = "outside a scope body" ∧ t.Spells .identifier Rule.returnWord)) ∧
      (e.found.isEndOfStream = true → ∃ what found, e = .expected what found)) ∧
    ∀ tokens, (tokenize settings.unmatched source).2 = .ok tokens →
      ∀ p : Parser, p.tokens = tokens → p.peek.kind = .typeKeyword →
        ∀ what, ∃ type, Rule.expectType what p = (p.next, .ok type) := by
  refine ⟨?_, ?_⟩
  · intro e h
    obtain ⟨tokens, htokens, herror⟩ := parseSource_error h
    have hexplained := explained_of_parseTokens (genuine_of_tokenize htokens) herror
    refine ⟨?_, ?_, ?_⟩
    · rintro found limit rfl
      exact bracket_of_tooDeep herror
    · rintro found context rfl
      exact hexplained
    · intro hend
      cases e with
      | expected what found => exact ⟨what, found, rfl⟩
      | unexpectedToken found context =>
          obtain ⟨t, rfl, _⟩ := hexplained
          cases hend
      | tooDeep found limit =>
          obtain ⟨_, t, rfl, _⟩ := bracket_of_tooDeep herror
          cases hend
  · intro tokens htokens p hp hk what
    have hmem : p.peek ∈ tokens := by
      rw [← hp]
      exact p.peek_mem_tokens
    obtain ⟨type, htype⟩ := (genuine_of_tokenize htokens _ hmem).typeOf? hk
    refine ⟨type, ?_⟩
    rw [Rule.expectType_apply, htype]

/-- In `int a = 1; return;` the type is read, and the word `return` is what is unexpected. -/
theorem parse_error_of_stray_return :
    let source := "int a = 1; return;"
    let stray : Token := ⟨.identifier, "return", ⟨1, 11⟩⟩
    let start : Parser := .ofTokens [⟨.typeKeyword, "int", ⟨1, 0⟩⟩, ⟨.identifier, "a", ⟨1, 4⟩⟩,
      ⟨.symbol, "=", ⟨1, 6⟩⟩, ⟨.literal, "1", ⟨1, 8⟩⟩, ⟨.symbol, ";", ⟨1, 9⟩⟩, stray,
      ⟨.symbol, ";", ⟨1, 17⟩⟩, .eof ⟨1, 18⟩] 128
    (parseSource .default source).2 =
        .error (.parse (.unexpectedToken (.token stray) "outside a scope body")) ∧
      stray.Spells .identifier Rule.returnWord ∧
      (tokenize .reject source).2 = .ok start.tokens ∧
      ∃ type, Rule.expectType "type" start = (start.next, .ok type) := by
  intro source stray start
  have htokens : (tokenize Settings.default.unmatched source).2 = .ok start.tokens :=
    eq_ok_of_toOption (by decide +kernel)
  have herror : (parseSource .default source).2 =
      .error (.parse (.unexpectedToken (.token stray) "outside a scope body")) := by
    rw [parseSource_snd, htokens]
    rfl
  obtain ⟨herrors, htypes⟩ := parse_errors_of_source .default source
  obtain ⟨t, ht, hcontext⟩ := (herrors _ herror).2.1 _ _ rfl
  obtain rfl : stray = t := Found.token.inj ht
  refine ⟨herror, ?_, htokens, htypes _ htokens start rfl rfl "type"⟩
  rcases hcontext with ⟨hstart, _⟩ | ⟨_, hreturn⟩
  · exact absurd hstart (by decide)
  · exact hreturn

end ScopeFront
