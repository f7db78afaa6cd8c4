import ScopeFront.Proofs.Parser.Mirror
import ScopeFront.Proofs.Parser.Soundness

/-!
# The rules look at no more than the next token

Each rule mirrors itself: over tokens that are alike up to the one where a run ends, it ends the
same way.  The levels left may differ, as long as the second run has at least those of the first.
The rules that look at two tokens decide only where they have read the first of them.

* `Rule.expressionAt_mirrors`, `Rule.statementAt_mirrors` – expressions and statements;
* `Rule.topLevels_mirror`, `Rule.forest_mirrors` – the nodes of the top level, and whole programs.
-/

set_option autoImplicit false

namespace ScopeFront

namespace Rule

open Grammar

variable {g : Span → Span} {n m : Nat} (hnm : n ≤ m)

/-! ## Expressions -/

theorem leaf_mirrors : Mirrors g n m leaf leaf := by
  intro p hp hn
  unfold leaf
  rw [peek_bind]
  cases hk : p.peek.kind with
  | identifier =>
      refine ((Mirrors.pure _).logged _).behind hp hn (Token.isEof_eq_false hk (by decide))
        fun p' _ _ hpeek => ?_
      rw [peek_bind, hpeek, Token.kind_relocate, hk]
      rfl
  | literal =>
      refine ((Mirrors.pure _).logged _).behind hp hn (Token.isEof_eq_false hk (by decide))
        fun p' _ _ hpeek => ?_
      rw [peek_bind, hpeek, Token.kind_relocate, hk]
      rfl
  | _ =>
      refine (Mirrors.failExpected _).congr hp hn fun p' _ _ hpeek => ?_
      rw [peek_bind, hpeek, Token.kind_relocate, hk]

theorem innerExpressionAt_rests (l : Nat) (hl : m = l + 1) : (innerExpressionAt m).Rests g l := by
  subst hl
  exact expressionAt_rests l

include hnm

theorem primary_mirrors {inner inner' : Rule Expr} (hrest : ∀ l, m = l + 1 → inner'.Rests g l)
    (hi : ∀ k l, n = k + 1 → m = l + 1 → Mirrors g k l inner inner') :
    Mirrors g n m (primary inner) (primary inner') := by
  intro p hp hn
  unfold primary
  rw [matchSymbol_bind]
  split
  · rename_i hc
    refine .nested (.inl hc) (fun p' _ _ hpeek => ?_) hp (by rw [hn]; exact hnm) hrest
      fun k l hk hl => hi k l (hn.symm.trans hk) hl
    rw [matchSymbol_bind, hpeek, Token.isSymbol_relocate, if_pos hc]
    rfl
  · rename_i hc
    refine leaf_mirrors.congr hp hn fun p' _ _ hpeek => ?_
    rw [matchSymbol_bind, hpeek, Token.isSymbol_relocate, if_neg hc]
    rfl

theorem expressionAt_mirrors : Mirrors g n m (expressionAt n) (expressionAt m) := by
  induction n generalizing m with
  | zero =>
      rw [expressionAt_eq, expressionAt_eq]
      exact .chain operand_advances operand_advances
        (primary_mirrors hnm innerExpressionAt_rests fun k l hk _ => by cases hk)
  | succ n ih =>
      rw [expressionAt_eq, expressionAt_eq]
      refine .chain operand_advances operand_advances
        (primary_mirrors hnm innerExpressionAt_rests fun k l hk hl => ?_)
      subst hl
      obtain rfl : n = k := by omega
      exact ih (by omega)

theorem arguments_mirror (what : String) :
    Mirrors g n m (argumentsWith (expressionAt n) what) (argumentsWith (expressionAt m) what) :=
  .commaList expressionAt_advances expressionAt_advances (expressionAt_mirrors hnm) _

omit hnm

/-! ## Headers -/

theorem parameter_mirrors : Mirrors g n m parameter parameter :=
  (Mirrors.expectType _).bind fun _ => (Mirrors.expectIdentifier _).bind fun _ =>
    (Mirrors.pure _).logged _

theorem parameterList_mirrors : Mirrors g n m parameterList parameterList :=
  .ifSymbol '(' ((Mirrors.commaList parameter_advances parameter_advances parameter_mirrors _).bind
    fun ps => Mirrors.pure (some ps)) (Mirrors.pure none)

theorem returnType_mirrors : Mirrors g n m returnType returnType :=
  .ifSymbol ':' ((Mirrors.expectType _).bind fun _ => (Mirrors.pure _).logged _)
    (Mirrors.pure none)

theorem header_mirrors (label : String) : Mirrors g n m (header label) (header label) :=
  (Mirrors.expectIdentifier _).bind fun _ => parameterList_mirrors.bind fun _ =>
    returnType_mirrors.bind fun _ => Mirrors.pure _

theorem member_mirrors : Mirrors g n m member member :=
  (Mirrors.expectType _).bind fun _ => (Mirrors.expectIdentifier _).bind fun _ =>
    .expectSymbol ';' _ ((Mirrors.pure _).logged _)

/-! ## Scopes -/

section Scopes

-- The statements of a body have a level less, in both runs.
variable (hi : ∀ k l, n = k + 1 → m = l + 1 →
  Mirrors g k l (bodyStatementAt n) (bodyStatementAt m))

section

include hnm hi

theorem blockWith_mirrors (what : String) :
    Mirrors g n m (blockWith (bodyStatementAt n) what) (blockWith (bodyStatementAt m) what) := by
  intro p hp hn
  rw [blockWith_apply]
  split
  · rename_i hc
    have hmany : ∀ k l, p.room = k + 1 → m = l + 1 →
        Mirrors g k l (many (·.isSymbol '}') (bodyStatementAt n))
          (many (·.isSymbol '}') (bodyStatementAt m)) := by
      intro k l hk hl
      have hadv := (bodyStatementAt_reads k (hn.symm.trans hk)).advances Statement.ne_nil
      have hadv' := (bodyStatementAt_reads l hl).advances Statement.ne_nil
      exact .many hadv hadv' (hi k l (hn.symm.trans hk) hl) fun _ => rfl
    refine .nested (.inr hc) (fun p' _ _ hpeek => ?_) hp (by rw [hn]; exact hnm)
      (fun l _ => many_rests _ _) hmany
    rw [blockWith_apply, hpeek, Token.isSymbol_relocate, if_pos hc]
  · rename_i hc
    refine (Mirrors.failExpected _).congr hp hn fun p' _ _ hpeek => ?_
    rw [blockWith_apply, hpeek, Token.isSymbol_relocate, if_neg hc]

theorem signature_mirrors (label : String) :
    Mirrors g n m (signature (bodyStatementAt n) label) (signature (bodyStatementAt m) label) :=
  (header_mirrors label).bind fun _ => (blockWith_mirrors hnm hi _).bind fun _ => Mirrors.pure _

theorem functionScopeWith_mirrors :
    Mirrors g n m (functionScopeWith (bodyStatementAt n)) (functionScopeWith (bodyStatementAt m)) :=
  (signature_mirrors hnm hi _).bind fun _ => (Mirrors.pure _).logged _

theorem implementedFunction_mirrors :
    Mirrors g n m (implementedFunction (bodyStatementAt n))
      (implementedFunction (bodyStatementAt m)) := by
  intro p hp hn
  unfold implementedFunction
  rw [peek_bind]
  split
  · rename_i hf
    have heof := Token.isEof_eq_false (scopeOf?_eq_some.1 hf).1 (by decide)
    refine (functionScopeWith_mirrors hnm hi).behind hp hn heof fun p' _ _ hpeek => ?_
    rw [peek_bind, hpeek, scopeOf?_relocate, if_pos hf]
    rfl
  · rename_i hf
    refine (Mirrors.failExpected _).congr hp hn fun p' _ _ hpeek => ?_
    rw [peek_bind, hpeek, scopeOf?_relocate, if_neg hf]

theorem scopeBehind_mirrors (keyword : ScopeKeyword) :
    Mirrors g n m (scopeBehind (expressionAt n) (bodyStatementAt n) keyword)
      (scopeBehind (expressionAt m) (bodyStatementAt m) keyword) := by
  cases keyword with
  | function => exact (functionScopeWith_mirrors hnm hi).bind fun _ => Mirrors.pure _
  | forLoop =>
      exact .expectSymbol '(' _ ((expressionAt_mirrors hnm).bind fun _ =>
        .expectSymbol ')' _ ((blockWith_mirrors hnm hi _).bind fun _ => Mirrors.pure _))
  | struct =>
      exact Mirrors.matchIdentifier.bind fun _ => .expectSymbol '{' _
        ((Mirrors.many member_advances member_advances member_mirrors fun _ => rfl).bind fun _ =>
          .expectSymbol '}' _ (Mirrors.pure _))
  | implement =>
      exact Mirrors.matchIdentifier.bind fun _ => .expectSymbol '{' _
        ((Mirrors.many method_advances method_advances (implementedFunction_mirrors hnm hi)
          fun _ => rfl).bind fun _ => .expectSymbol '}' _ (Mirrors.pure _))

theorem keywordScope_mirrors :
    Mirrors g n m (keywordScope (expressionAt n) (bodyStatementAt n))
      (keywordScope (expressionAt m) (bodyStatementAt m)) := by
  intro p hp hn
  rw [keywordScope_apply]
  cases hk : scopeOf? p.peek with
  | none =>
      refine (Mirrors.failUnexpected _).congr hp hn fun p' _ _ hpeek => ?_
      rw [keywordScope_apply, hpeek, scopeOf?_relocate, hk]
  | some keyword =>
      have heof := Token.isEof_eq_false (scopeOf?_eq_some.1 hk).1 (by decide)
      refine ((scopeBehind_mirrors hnm hi keyword).logged _).behind hp hn heof
        fun p' _ _ hpeek => ?_
      rw [keywordScope_apply, hpeek, scopeOf?_relocate, hk]

/-- The body of a named scope, behind its name. -/
theorem namedBody_mirrors (name : String) :
    Mirrors g n m
      (do
        let body ← blockWith (bodyStatementAt n) "named scope"
        logDetail ("parsed named scope: " ++ name)
        return .namedScope name body : Rule Node)
      (do
        let body ← blockWith (bodyStatementAt m) "named scope"
        logDetail ("parsed named scope: " ++ name)
        return .namedScope name body : Rule Node) :=
  (blockWith_mirrors hnm hi _).bind fun _ => (Mirrors.pure _).logged _

theorem unnamedScopeWith_mirrors :
    Mirrors g n m (unnamedScopeWith (bodyStatementAt n)) (unnamedScopeWith (bodyStatementAt m)) :=
  (blockWith_mirrors hnm hi _).bind fun _ => (Mirrors.pure _).logged _

end

/-! ## Statements -/

section

include hnm

theorem returnTail_mirrors :
    Mirrors g n m (returnTail (expressionAt n)) (returnTail (expressionAt m)) :=
  .ifChecked ';' (.expectSymbol ';' _ ((Mirrors.pure _).logged _))
    ((expressionAt_mirrors hnm).bind fun _ => .expectSymbol ';' _ ((Mirrors.pure _).logged _))

theorem declaration_mirrors :
    Mirrors g n m (declaration (expressionAt n)) (declaration (expressionAt m)) :=
  (Mirrors.expectType _).bind fun _ => (Mirrors.expectIdentifier _).bind fun _ =>
    .expectSymbol '=' _ ((expressionAt_mirrors hnm).bind fun _ =>
      .expectSymbol ';' _ ((Mirrors.pure _).logged _))

theorem operatorStatement_mirrors {p : Parser} (hp : p.Proper) (hn : p.room = n)
    (hk : p.peek.kind = .operatorKeyword) :
    Mirrored g m (operatorStatement (expressionAt m)) p
      (operatorStatement (expressionAt n) p) := by
  unfold operatorStatement
  rw [peek_bind]
  cases hw : OperatorKeyword.ofWord? p.peek.lexeme with
  | none =>
      refine (Mirrors.failUnexpected _).congr hp hn fun p' _ _ hpeek => ?_
      rw [peek_bind, hpeek, Token.lexeme_relocate, hw]
  | some keyword =>
      refine Mirrors.behind (.expectSymbol '(' _ ((arguments_mirror hnm _).bind fun _ =>
        .expectSymbol ';' _ ((Mirrors.pure _).logged _))) hp hn
        (Token.isEof_eq_false hk (by decide)) fun p' _ _ hpeek => ?_
      rw [peek_bind, hpeek, Token.lexeme_relocate, hw]
      rfl

theorem assignmentTail_mirrors (name : String) :
    Mirrors g n m (assignmentTail (expressionAt n) name) (assignmentTail (expressionAt m) name) :=
  (expressionAt_mirrors hnm).bind fun _ => .expectSymbol ';' _ ((Mirrors.pure _).logged _)

theorem callTail_mirrors (name : String) :
    Mirrors g n m (callTail (expressionAt n) name) (callTail (expressionAt m) name) :=
  (arguments_mirror hnm _).bind fun _ => .expectSymbol ';' _ ((Mirrors.pure _).logged _)

end

include hnm hi

theorem nameTail_mirrors (name : String) :
    Mirrors g n m (nameTail (expressionAt n) (bodyStatementAt n) name)
      (nameTail (expressionAt m) (bodyStatementAt m) name) :=
  .ifChecked '{' (namedBody_mirrors hnm hi name)
    (.ifSymbol '=' (assignmentTail_mirrors hnm name)
      (.ifSymbol '(' (callTail_mirrors hnm name) (Mirrors.failExpected _)))

theorem labelTail_mirrors (name : String) :
    Mirrors g n m (labelTail (bodyStatementAt n) name) (labelTail (bodyStatementAt m) name) := by
  refine .ifChecked '{' (namedBody_mirrors hnm hi name) fun p hp hn => ?_
  rw [peek_bind]
  split
  · rename_i hk
    have hlabeled := (signature_mirrors hnm hi name).bind fun f => (Mirrors.pure
      (Node.labeled name f)).logged ("parsed labeled scope: " ++ name ++ " " ++ f.header.name)
    refine hlabeled.congr hp hn fun p' _ _ hpeek => ?_
    rw [peek_bind, hpeek, Token.kind_relocate, if_pos hk]
  · rename_i hk
    refine (Mirrors.failExpected _).congr hp hn fun p' _ _ hpeek => ?_
    rw [peek_bind, hpeek, Token.kind_relocate, if_neg hk]

theorem statementBy_mirrors :
    Mirrors g n m (statementBy (expressionAt n) (bodyStatementAt n))
      (statementBy (expressionAt m) (bodyStatementAt m)) := by
  intro p hp hn
  by_cases hk : p.peek.kind = .identifier
  · have heof := Token.isEof_eq_false hk (by decide)
    by_cases hw : p.peek.lexeme = returnWord
    · rw [statementBy_of_return _ _ ⟨hk, hw⟩, returnStatement_apply]
      refine (returnTail_mirrors hnm).behind hp hn heof fun p' _ _ hpeek => ?_
      rw [statementBy_of_return _ _ (by rw [hpeek]; exact ⟨hk, hw⟩), returnStatement_apply]
    · rw [statementBy_of_name _ _ ⟨hk, hw⟩, identifierStatement_apply _ _ hp hk]
      refine (nameTail_mirrors hnm hi p.peek.lexeme).behind hp hn heof fun p' hp' _ hpeek => ?_
      rw [statementBy_of_name _ _ (by rw [hpeek]; exact ⟨hk, hw⟩),
        identifierStatement_apply _ _ hp' (by rw [hpeek]; exact hk), hpeek, Token.lexeme_relocate]
  · unfold statementBy
    rw [inspect_apply]
    cases hk' : p.peek.kind with
    | identifier => exact absurd hk' hk
    | symbol =>
        show Mirrored g m _ p ((if p.peek.isSymbol '{' then _ else _ : Rule Node) p)
        split
        · rename_i hc
          refine ((unnamedScopeWith_mirrors hnm hi).bind fun body =>
            Mirrors.pure (Node.unnamedScope body)).congr hp hn fun p' _ _ hpeek => ?_
          rw [inspect_apply, hpeek, Token.kind_relocate, hk']
          show (if p.peek.isSymbol '{' then _ else _ : Rule Node) p' = _
          rw [if_pos hc]
        · rename_i hc
          refine (Mirrors.failUnexpected _).congr hp hn fun p' _ _ hpeek => ?_
          rw [inspect_apply, hpeek, Token.kind_relocate, hk']
          show (if p.peek.isSymbol '{' then _ else _ : Rule Node) p' = _
          rw [if_neg hc]
    | scopeKeyword =>
        refine (keywordScope_mirrors hnm hi).congr hp hn fun p' _ _ hpeek => ?_
        rw [inspect_apply, hpeek, Token.kind_relocate, hk']
    | typeKeyword =>
        refine (declaration_mirrors hnm).congr hp hn fun p' _ _ hpeek => ?_
        rw [inspect_apply, hpeek, Token.kind_relocate, hk']
    | operatorKeyword =>
        refine (operatorStatement_mirrors hnm hp hn hk').congr fun p' _ _ hpeek => ?_
        rw [inspect_apply, hpeek, Token.kind_relocate, hk']
    | literal =>
        refine (Mirrors.failUnexpected _).congr hp hn fun p' _ _ hpeek => ?_
        rw [inspect_apply, hpeek, Token.kind_relocate, hk']
    | eof =>
        refine (Mirrors.failUnexpected _).congr hp hn fun p' _ _ hpeek => ?_
        rw [inspect_apply, hpeek, Token.kind_relocate, hk']

theorem statementWith_mirrors :
    Mirrors g n m (statementWith (expressionAt n) (bodyStatementAt n))
      (statementWith (expressionAt m) (bodyStatementAt m)) := by
  intro p hp hn
  rw [statementWith_apply]
  refine ((statementBy_mirrors hnm hi).logged _).congr hp hn fun p' _ _ hpeek => ?_
  rw [statementWith_apply, hpeek, Token.lexeme_relocate]

end Scopes

include hnm

theorem statementAt_mirrors : Mirrors g n m (statementAt n) (statementAt m) := by
  induction n generalizing m with
  | zero =>
      rw [statementAt_eq, statementAt_eq]
      exact statementWith_mirrors hnm fun k l hk _ => by cases hk
  | succ n ih =>
      rw [statementAt_eq, statementAt_eq]
      refine statementWith_mirrors hnm fun k l hk hl => ?_
      subst hl
      obtain rfl : n = k := by omega
      exact ih (by omega)

omit hnm in
theorem bodyStatementAt_mirrors (hnm : n ≤ m) (k l : Nat) (hk : n = k + 1) (hl : m = l + 1) :
    Mirrors g k l (bodyStatementAt n) (bodyStatementAt m) := by
  subst hk hl
  exact statementAt_mirrors (by omega)

/-! ## Programs -/

theorem topLevelBy_mirrors : Mirrors g n m topLevelBy topLevelBy := by
  intro p hp hn
  by_cases hk : p.peek.kind = .identifier
  · rw [topLevelBy_of_identifier hk, identifierScope_apply _ hp hk, hn]
    have hscope : ∀ p' : Parser, p'.Proper → p'.room = m → p'.peek = p.peek.relocate g →
        topLevelBy p' = if p.peek.lexeme = returnWord then failUnexpected "outside a scope body" p'
          else labelTail (bodyStatementAt m) p.peek.lexeme p'.next := by
      intro p' hp' hm hpeek
      have hk' : p'.peek.kind = .identifier := by rw [hpeek]; exact hk
      rw [topLevelBy_of_identifier hk', identifierScope_apply _ hp' hk', hm, hpeek,
        Token.lexeme_relocate]
    split
    · rename_i hw
      refine (Mirrors.failUnexpected _).congr hp hn fun p' hp' hm hpeek => ?_
      rw [hscope p' hp' hm hpeek, if_pos hw]
    · rename_i hw
      refine (labelTail_mirrors hnm (bodyStatementAt_mirrors hnm) _).behind hp hn
        (Token.isEof_eq_false hk (by decide)) fun p' hp' hm hpeek => ?_
      rw [hscope p' hp' hm hpeek, if_neg hw]
  · by_cases hk' : p.peek.kind = .scopeKeyword
    · rw [topLevelBy_of_scope hk', hn]
      refine (keywordScope_mirrors hnm (bodyStatementAt_mirrors hnm)).congr hp hn
        fun p' _ hm hpeek => ?_
      rw [topLevelBy_of_scope (by rw [hpeek]; exact hk'), hm]
    · rw [topLevelBy_of_other hk' hk, hn]
      refine (statementAt_mirrors hnm).congr hp hn fun p' _ hm hpeek => ?_
      rw [topLevelBy_of_other (by rw [hpeek]; exact hk') (by rw [hpeek]; exact hk), hm]

theorem topLevel_mirrors : Mirrors g n m topLevel topLevel := by
  rw [topLevel_eq]
  exact (topLevelBy_mirrors hnm).bind fun _ => (Mirrors.pure _).logged _

theorem topLevels_mirror :
    Mirrors g n m (many (fun _ => false) topLevel) (many (fun _ => false) topLevel) :=
  .many topLevel_advances topLevel_advances (topLevel_mirrors hnm) fun _ => rfl

theorem forest_mirrors : Mirrors g n m forest forest :=
  ((topLevels_mirror hnm).bind fun nodes => (Mirrors.pure nodes).logging _).logging _

end Rule

end ScopeFront
