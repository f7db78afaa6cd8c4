import ScopeFront.Proofs.Parser.Acceptance
import ScopeFront.Proofs.Parser.Soundness

/-!
# The rules accept the phrases of the grammar

The other direction of `Soundness`: what the grammar derives, the rules read, and they stop right
behind it.  The cases follow the constructors of the grammar; a look at the next token never leads
past the phrase, since no other alternative begins with that token.

* `Rule.expressionAt_accepts`, `Rule.statementAt_accepts` – expressions and statements;
* `Rule.topLevels_append` – the nodes of the top level, and what is read behind them.
-/

set_option autoImplicit false

namespace ScopeFront

namespace Rule

open Grammar

variable {n : Nat} {follow : Token → Prop}

/-! ## Expressions -/

theorem leaf_accepts_identifier {t : Token} (h : t.kind = .identifier) :
    leaf.Accepts n follow [t] (.identifier t.lexeme) := by
  refine ((Accepts.pure _).logged ("parsed primary expression: " ++ t.lexeme)).behind
    fun p rest _ _ ha => ?_
  unfold leaf
  rw [peek_bind, Parser.peek_of_ahead ha, h]
  rfl

theorem leaf_accepts_literal {t : Token} (h : t.kind = .literal) :
    leaf.Accepts n follow [t] (.literal t.lexeme) := by
  refine ((Accepts.pure _).logged ("parsed primary expression: " ++ t.lexeme)).behind
    fun p rest _ _ ha => ?_
  unfold leaf
  rw [peek_bind, Parser.peek_of_ahead ha, h]
  rfl

theorem operatorOf?_of_isSymbol {t : Token} {c : Char} (h : t.isSymbol c = true)
    (hc : BinaryOp.ofSymbol? (String.singleton c) = none) : operatorOf? t = none := by
  obtain ⟨hk, hl⟩ := Token.isSymbol_iff.1 h
  rw [operatorOf?, if_pos hk, hl, hc]

theorem primary_accepts {inner : Rule Expr} {ts : List Token} {e : Expr}
    (hi : ∀ m, n = m + 1 → ∀ {ts e}, Expression m ts e →
      inner.Accepts m (operatorOf? · = none) ts e)
    (h : Primary n ts e) : (primary inner).Accepts n follow ts e := by
  cases h with
  | @identifier _ t hk =>
      exact .ifNotSymbol (leaf_accepts_identifier hk) fun _ _ =>
        Token.isSymbol_of_kind (t := t) (by simp [hk]) _
  | @literal _ t hk =>
      exact .ifNotSymbol (leaf_accepts_literal hk) fun _ _ =>
        Token.isSymbol_of_kind (t := t) (by simp [hk]) _
  | @parenthesized m opening closing ts _ ho he hc =>
      have hinner : inner.Accepts m (·.isSymbol ')' = true) ts e :=
        (hi m rfl he).before fun t ht => operatorOf?_of_isSymbol ht (by decide)
      exact .ifSymbol ho (hinner.nested hc)

theorem expressionAt_accepts {ts : List Token} {e : Expr} (h : Expression n ts e) :
    (expressionAt n).Accepts n (operatorOf? · = none) ts e := by
  induction n generalizing ts e with
  | zero => exact .chain operand_advances (primary_accepts fun k hk => by cases hk) h
  | succ m ih =>
      refine .chain operand_advances (primary_accepts fun k hk => ?_) h
      obtain rfl : m = k := by omega
      exact ih

/-! ## Headers -/

theorem parameter_accepts {ts : List Token} {d : TypedName} (h : Parameter n ts d) :
    parameter.Accepts n follow ts d := by
  cases h with
  | mk ht hx =>
      exact (Accepts.expectType ht _).andThen ((Accepts.expectIdentifier hx _).andThen
        ((Accepts.pure _).logged _))

theorem parameterList_accepts {ts : List Token} {ps : Option (List TypedName)}
    (h : Parameters n ts ps) : parameterList.Accepts n (·.isSymbol '(' = false) ts ps := by
  cases h with
  | absent => exact .ifNotSymbol (Accepts.pure none) fun _ ht => ht
  | @present _ opening closing ts ps ho hps hc =>
      have hlist : (commaList parameter "',' or ')' in parameter list").Accepts n
          (·.isSymbol '(' = false) (ts ++ [closing]) ps := by
        refine .commaList parameter_advances _ parameter_accepts ?_ hc hps
        intro ts d hd
        obtain ⟨t, us, rfl, ht⟩ := hd.head
        exact ⟨t, us, rfl, Token.isSymbol_of_kind (by simp [ht]) _⟩
      exact .ifSymbol ho (hlist.finish (Accepts.pure (some ps)))

theorem returnType_accepts {ts : List Token} {type : Option TypeKeyword}
    (h : ReturnType n ts type) : returnType.Accepts n (·.isSymbol ':' = false) ts type := by
  cases h with
  | absent => exact .ifNotSymbol (Accepts.pure none) fun _ ht => ht
  | present hc ht =>
      exact .ifSymbol hc ((Accepts.expectType ht _).andThen ((Accepts.pure _).logged _))

theorem header_accepts (label : String) {ts : List Token} {head : Header} (h : Heading n ts head) :
    (header label).Accepts n (·.isSymbol '{' = true) ts head := by
  cases h with
  | @mk _ x ts us ps type hx hps htype =>
      have htype' := (returnType_accepts htype).before fun t ht =>
        Token.isSymbol_ne (c := '{') (d := ':') ht (by decide)
      refine (Accepts.expectIdentifier hx _).andThen
        ((parameterList_accepts hps).bind (htype'.finish (Accepts.pure _)) fun t ht => ?_)
      cases htype with
      | absent => exact Token.isSymbol_ne ht (by decide)
      | present hc _ => exact Token.isSymbol_ne hc (by decide)

theorem matchIdentifier_accepts {ts : List Token} {name : Option String}
    (h : OptionalName n ts name) :
    matchIdentifier.Accepts n (·.kind ≠ .identifier) ts name := by
  cases h with
  | absent =>
      refine (Accepts.pure none).congr fun p t _ _ ht hpeek => ?_
      have hpeek' : p.peek = t := hpeek
      rw [matchIdentifier_apply, hpeek', if_neg ht]
      rfl
  | present hx =>
      refine .single fun p hpeek => ?_
      rw [matchIdentifier_apply, hpeek, if_pos hx]

theorem member_accepts {ts : List Token} {d : TypedName} (h : Member n ts d) :
    member.Accepts n follow ts d := by
  cases h with
  | mk ht hx hs =>
      exact (Accepts.expectType ht _).andThen ((Accepts.expectIdentifier hx _).andThen
        ((Accepts.expectSymbol hs _).andThen ((Accepts.pure _).logged _)))

/-- Items in braces behind an optional name. -/
theorem namedBlock_accepts {α : Type} {item : Rule α} {items : Phrases α} (hadv : item.Advances n)
    (hi : ∀ {ts a}, items n ts a → item.Accepts n (fun _ => True) ts a)
    (hhead : ∀ {ts a}, items n ts a →
      ∃ t us, ts = t :: us ∧ t.isEof = false ∧ t.isSymbol '}' = false)
    {ts us : List Token} {name : Option String} {as : List α} {opening closing : Token}
    {start finish : String} (hname : OptionalName n ts name) (ho : opening.isSymbol '{' = true)
    (has : Many items n us as) (hc : closing.isSymbol '}' = true)
    (node : Option String → List α → Node) :
    (do
      let name ← matchIdentifier
      let _ ← expectSymbol '{' start
      let as ← many (·.isSymbol '}') item
      let _ ← expectSymbol '}' finish
      return node name as).Accepts n follow (ts ++ opening :: (us ++ [closing]))
        (node name as) := by
  have hmany := Accepts.manyInBraces hadv hi hhead has
  refine (matchIdentifier_accepts hname).bind ((Accepts.expectSymbol ho _).andThen
    (hmany.bind ((Accepts.expectSymbol hc _).finish (Accepts.pure _)) fun _ _ => hc)) fun _ _ => ?_
  simp [(Token.isSymbol_iff.1 ho).1]

theorem arguments_accepts (what : String) {ts : List Token} {arguments : List Expr}
    {closing : Token} (h : CommaList Expression n ts arguments)
    (hc : closing.isSymbol ')' = true) :
    (argumentsWith (expressionAt n) what).Accepts n follow (ts ++ [closing]) arguments := by
  refine .commaList expressionAt_advances _ (fun h => (expressionAt_accepts h).before ?_) ?_ hc h
  · rintro t (ht | ht)
    · exact operatorOf?_of_isSymbol ht (by decide)
    · exact operatorOf?_of_isSymbol ht (by decide)
  · intro ts e h
    obtain ⟨t, us, rfl, ht⟩ := Expression.head h
    exact ⟨t, us, rfl, ht ')' (by decide)⟩

/-- An expression and the semicolon behind it. -/
theorem value_accepts {β : Type} {ts : List Token} {value : Expr} {semicolon : Token}
    {context : String} {r : Expr → Rule β} {b : β} (h : Expression n ts value)
    (hs : semicolon.isSymbol ';' = true) (hr : (r value).Accepts n follow [] b) :
    (do
      let value ← expressionAt n
      let _ ← expectSymbol ';' context
      r value).Accepts n follow (ts ++ [semicolon]) b :=
  (expressionAt_accepts h).bind ((Accepts.expectSymbol hs _).finish hr) fun _ _ =>
    operatorOf?_of_isSymbol hs (by decide)

/-- Arguments, with the closing parenthesis and the semicolon behind them. -/
theorem call_accepts {β : Type} {what : String} {ts : List Token} {arguments : List Expr}
    {closing semicolon : Token} {context : String} {r : List Expr → Rule β} {b : β}
    (h : CommaList Expression n ts arguments) (hc : closing.isSymbol ')' = true)
    (hs : semicolon.isSymbol ';' = true) (hr : (r arguments).Accepts n follow [] b) :
    (do
      let arguments ← argumentsWith (expressionAt n) what
      let _ ← expectSymbol ';' context
      r arguments).Accepts n follow (ts ++ [closing, semicolon]) b := by
  have hcall : (do
      let arguments ← argumentsWith (expressionAt n) what
      let _ ← expectSymbol ';' context
      r arguments).Accepts n follow (ts ++ [closing] ++ [semicolon]) b :=
    (arguments_accepts what h hc).andThen ((Accepts.expectSymbol hs _).finish hr)
  rwa [List.append_assoc] at hcall

theorem declaration_accepts {t x equals semicolon : Token} {ts : List Token} {type : TypeKeyword}
    {value : Expr} (ht : t.Spells .typeKeyword type.word) (hx : x.kind = .identifier)
    (heq : equals.isSymbol '=' = true) (h : Expression n ts value)
    (hs : semicolon.isSymbol ';' = true) :
    (declaration (expressionAt n)).Accepts n follow (t :: x :: equals :: (ts ++ [semicolon]))
      (.declaration x.lexeme type value) :=
  (Accepts.expectType ht _).andThen ((Accepts.expectIdentifier hx _).andThen
    ((Accepts.expectSymbol heq _).andThen (value_accepts h hs ((Accepts.pure _).logged _))))

theorem operatorStatement_accepts {ts : List Token} {keyword : OperatorKeyword}
    {arguments : List Expr} {word opening closing semicolon : Token}
    (hw : word.Spells .operatorKeyword keyword.word) (ho : opening.isSymbol '(' = true)
    (h : CommaList Expression n ts arguments) (hc : closing.isSymbol ')' = true)
    (hs : semicolon.isSymbol ';' = true) :
    (operatorStatement (expressionAt n)).Accepts n follow
      (word :: opening :: (ts ++ [closing, semicolon])) (.operator keyword arguments) := by
  have hcall : (do
      let _ ← expectSymbol '(' "after operator keyword"
      let arguments ← argumentsWith (expressionAt n) "operator"
      let _ ← expectSymbol ';' "after operator statement"
      logDetail ("parsed operator statement: " ++ keyword.word)
      return .operator keyword arguments : Rule Node).Accepts n follow
      (opening :: (ts ++ [closing, semicolon])) (.operator keyword arguments) :=
    (Accepts.expectSymbol ho _).andThen (call_accepts h hc hs ((Accepts.pure _).logged _))
  refine hcall.behind fun p rest _ _ hahead => ?_
  unfold operatorStatement
  rw [peek_bind, Parser.peek_of_ahead hahead, operatorKeyword_eq_some.2 hw.2]
  rfl

theorem returnStatement_accepts_nothing {word semicolon : Token}
    (hs : semicolon.isSymbol ';' = true) :
    (returnStatement (expressionAt n)).Accepts n follow [word, semicolon] (.ret none) := by
  have hend : (do
      let _ ← expectSymbol ';' "after return statement"
      logDetail "parsed return statement"
      return .ret none : Rule Node).Accepts n follow [semicolon] (.ret none) :=
    (Accepts.expectSymbol hs _).finish ((Accepts.pure _).logged _)
  refine hend.behind fun p rest _ _ hahead => ?_
  rw [returnStatement_apply, returnTail, checkSymbol_bind, Parser.next_peek_of_ahead hahead,
    if_pos hs]

theorem returnStatement_accepts_value {word semicolon : Token} {ts : List Token} {value : Expr}
    (h : Expression n ts value) (hs : semicolon.isSymbol ';' = true) :
    (returnStatement (expressionAt n)).Accepts n follow (word :: (ts ++ [semicolon]))
      (.ret (some value)) := by
  have hvalue : (do
      let value ← expressionAt n
      let _ ← expectSymbol ';' "after return statement"
      logDetail "parsed return statement"
      return .ret (some value) : Rule Node).Accepts n follow (ts ++ [semicolon])
      (.ret (some value)) := value_accepts h hs ((Accepts.pure _).logged _)
  refine hvalue.behind fun p rest _ _ hahead => ?_
  obtain ⟨t, us, rfl, ht⟩ := Expression.head h
  rw [returnStatement_apply, returnTail, checkSymbol_bind, Parser.next_peek_of_ahead hahead,
    ht ';' (by decide)]
  rfl

/-! ## Scopes -/

section Scopes

-- With `n` levels left, the statements of a body have one less.
variable (ha : ∀ m, n = m + 1 → ∀ {ts node}, Statement m ts node →
  (bodyStatementAt n).Accepts m (fun _ => True) ts node)

include ha

theorem blockWith_accepts (what : String) {ts : List Token} {body : List Node}
    (h : Body n ts body) : (blockWith (bodyStatementAt n) what).Accepts n follow ts body := by
  cases h with
  | @braces m opening closing ts body ho hb hc =>
      have hadv := (bodyStatementAt_reads m rfl).advances Statement.ne_nil
      rw [blockWith_eq]
      exact (Accepts.expectSymbol ho _).andThen
        ((Accepts.manyInBraces hadv (ha m rfl) Statement.head hb).nested hc)

theorem signature_accepts (label : String) {ts : List Token} {f : Function}
    (h : Signature n ts f) :
    (signature (bodyStatementAt n) label).Accepts n follow ts f := by
  cases h with
  | mk hh hb =>
      refine (header_accepts label hh).bind ((blockWith_accepts ha _ hb).finish
        (Accepts.pure _)) fun t _ => ?_
      obtain ⟨t, us, rfl, ht⟩ := hb.head
      exact ht

theorem functionScopeWith_accepts {ts : List Token} {f : Function} (h : Signature n ts f) :
    (functionScopeWith (bodyStatementAt n)).Accepts n follow ts f :=
  (signature_accepts ha _ h).finish ((Accepts.pure f).logged _)

theorem implementedFunction_accepts {ts : List Token} {f : Function} (h : Method n ts f) :
    (implementedFunction (bodyStatementAt n)).Accepts n follow ts f := by
  cases h with
  | mk hw hs =>
      refine (functionScopeWith_accepts ha hs).behind fun p rest _ _ hahead => ?_
      unfold implementedFunction
      rw [peek_bind, Parser.peek_of_ahead hahead, if_pos (scopeOf?_eq_some.2 hw)]
      rfl

theorem keywordScope_accepts {ts : List Token} {node : Node} (h : KeywordScope n ts node) :
    (keywordScope (expressionAt n) (bodyStatementAt n)).Accepts n follow ts node := by
  have hword : ∀ {keyword : ScopeKeyword} {word : Token} {ts : List Token} {node : Node},
      word.Spells .scopeKeyword keyword.word →
      (scopeBehind (expressionAt n) (bodyStatementAt n) keyword).Accepts n follow ts node →
      (keywordScope (expressionAt n) (bodyStatementAt n)).Accepts n follow (word :: ts) node := by
    intro keyword word ts node hw hs
    refine (hs.logged ("parsing scope: " ++ keyword.word)).behind fun p rest _ _ hahead => ?_
    rw [keywordScope_apply, Parser.peek_of_ahead hahead, scopeOf?_eq_some.2 hw]
  cases h with
  | function hf =>
      cases hf with
      | mk hw hs => exact hword hw ((functionScopeWith_accepts ha hs).finish (Accepts.pure _))
  | forLoop hw ho hc hclose hb =>
      refine hword hw ((Accepts.expectSymbol ho _).andThen ((expressionAt_accepts hc).bind
        ((Accepts.expectSymbol hclose _).andThen ((blockWith_accepts ha _ hb).finish
          (Accepts.pure _))) fun t _ => ?_))
      exact operatorOf?_of_isSymbol hclose (by decide)
  | struct hw hname ho hm hc =>
      refine hword hw (namedBlock_accepts member_advances member_accepts ?_ hname ho hm hc .struct)
      intro ts d hd
      obtain ⟨t, us, rfl, ht⟩ := hd.head
      exact ⟨t, us, rfl, Token.ends_nothing ht (by decide) (by decide)⟩
  | implement hw hname ho hm hc =>
      refine hword hw (namedBlock_accepts method_advances (implementedFunction_accepts ha) ?_
        hname ho hm hc .implement)
      intro ts f hf
      obtain ⟨t, us, rfl, ht⟩ := hf.head
      exact ⟨t, us, rfl, Token.ends_nothing ht (by decide) (by decide)⟩

/-- The body of a named scope, behind its name. -/
theorem namedBody_accepts (name : String) {ts : List Token} {body : List Node}
    (h : Body n ts body) :
    (do
      let body ← blockWith (bodyStatementAt n) "named scope"
      logDetail ("parsed named scope: " ++ name)
      return .namedScope name body : Rule Node).Accepts n follow ts (.namedScope name body) :=
  (blockWith_accepts ha _ h).finish ((Accepts.pure _).logged _)

theorem unnamedScope_accepts {ts : List Token} {body : List Node} (h : Body n ts body) :
    (do
      let body ← unnamedScopeWith (bodyStatementAt n)
      return .unnamedScope body : Rule Node).Accepts n follow ts (.unnamedScope body) :=
  ((blockWith_accepts ha _ h).finish ((Accepts.pure _).logged _)).finish (Accepts.pure _)

/-! ## Statements -/

theorem nameTail_accepts_scope (name : String) {ts : List Token} {body : List Node}
    (h : Body n ts body) :
    (nameTail (expressionAt n) (bodyStatementAt n) name).Accepts n follow ts
      (.namedScope name body) := by
  refine (namedBody_accepts ha name h).congr fun p _ _ _ _ hpeek => ?_
  obtain ⟨opening, us, rfl, ho⟩ := h.head
  have ho' : p.peek.isSymbol '{' = true := by rw [hpeek]; exact ho
  rw [nameTail_apply, if_pos ho']

omit ha in
theorem nameTail_accepts_assignment (name : String) {equals semicolon : Token} {ts : List Token}
    {value : Expr} (heq : equals.isSymbol '=' = true) (h : Expression n ts value)
    (hs : semicolon.isSymbol ';' = true) :
    (nameTail (expressionAt n) (bodyStatementAt n) name).Accepts n follow
      (equals :: (ts ++ [semicolon])) (.assignment name value) := by
  have htail : (assignmentTail (expressionAt n) name).Accepts n follow (ts ++ [semicolon])
      (.assignment name value) := value_accepts h hs ((Accepts.pure _).logged _)
  refine htail.behind fun p rest _ _ hahead => ?_
  rw [nameTail_apply, Parser.peek_of_ahead hahead, Token.isSymbol_ne heq (by decide),
    if_neg (by decide), if_pos heq]

omit ha in
theorem nameTail_accepts_call (name : String) {opening closing semicolon : Token}
    {ts : List Token} {arguments : List Expr} (ho : opening.isSymbol '(' = true)
    (h : CommaList Expression n ts arguments) (hc : closing.isSymbol ')' = true)
    (hs : semicolon.isSymbol ';' = true) :
    (nameTail (expressionAt n) (bodyStatementAt n) name).Accepts n follow
      (opening :: (ts ++ [closing, semicolon])) (.call name arguments) := by
  have htail : (callTail (expressionAt n) name).Accepts n follow (ts ++ [closing, semicolon])
      (.call name arguments) := call_accepts h hc hs ((Accepts.pure _).logged _)
  refine htail.behind fun p rest _ _ hahead => ?_
  rw [nameTail_apply, Parser.peek_of_ahead hahead, Token.isSymbol_ne ho (by decide),
    if_neg (by decide), Token.isSymbol_ne ho (by decide), if_neg (by decide), if_pos ho]

omit ha in
/-- A statement that begins with a name is read as what follows the name. -/
theorem statementBy_accepts_name {x : Token} {ts : List Token} {node : Node} (hx : PlainName x)
    (h : (nameTail (expressionAt n) (bodyStatementAt n) x.lexeme).Accepts n follow ts node) :
    (statementBy (expressionAt n) (bodyStatementAt n)).Accepts n follow (x :: ts) node := by
  refine h.behind fun p rest hp _ hahead => ?_
  have hpeek := Parser.peek_of_ahead hahead
  rw [statementBy_of_name _ _ (by rw [hpeek]; exact hx),
    identifierStatement_apply _ _ hp (by rw [hpeek]; exact hx.1), hpeek]

theorem statementBy_accepts_anywhere {ts : List Token} {node : Node} (h : Anywhere n ts node) :
    (statementBy (expressionAt n) (bodyStatementAt n)).Accepts n follow ts node := by
  cases h with
  | scope hs =>
      refine (keywordScope_accepts ha hs).congr fun p t _ _ _ hpeek => ?_
      obtain ⟨word, us, rfl, hk⟩ := hs.head
      have hk' : p.peek.kind = .scopeKeyword := by rw [hpeek]; exact hk
      rw [statementBy, inspect_apply, hk']
  | namedScope hx hb => exact statementBy_accepts_name hx (nameTail_accepts_scope ha _ hb)
  | unnamedScope hb =>
      refine (unnamedScope_accepts ha hb).congr fun p t _ _ _ hpeek => ?_
      obtain ⟨opening, us, rfl, ho⟩ := hb.head
      have ho' : p.peek.isSymbol '{' = true := by rw [hpeek]; exact ho
      rw [statementBy, inspect_apply, (Token.isSymbol_iff.1 ho').1]
      simp only [ho', if_true]
  | declaration ht hx heq hv hs =>
      refine (declaration_accepts ht hx heq hv hs).congr fun p t _ _ _ hpeek => ?_
      have hk : p.peek.kind = .typeKeyword := by rw [hpeek]; exact ht.1
      rw [statementBy, inspect_apply, hk]
  | operator hw ho hargs hc hs =>
      refine (operatorStatement_accepts hw ho hargs hc hs).congr fun p t _ _ _ hpeek => ?_
      have hk : p.peek.kind = .operatorKeyword := by rw [hpeek]; exact hw.1
      rw [statementBy, inspect_apply, hk]

theorem statementBy_accepts {ts : List Token} {node : Node} (h : Statement n ts node) :
    (statementBy (expressionAt n) (bodyStatementAt n)).Accepts n follow ts node := by
  cases h with
  | anywhere h => exact statementBy_accepts_anywhere ha h
  | returnNothing hw hs =>
      refine (returnStatement_accepts_nothing hs).congr fun p t _ _ _ hpeek => ?_
      exact statementBy_of_return _ _ (by rw [hpeek]; exact hw)
  | returnValue hw hv hs =>
      refine (returnStatement_accepts_value hv hs).congr fun p t _ _ _ hpeek => ?_
      exact statementBy_of_return _ _ (by rw [hpeek]; exact hw)
  | assignment hx heq hv hs =>
      exact statementBy_accepts_name hx (nameTail_accepts_assignment _ heq hv hs)
  | call hx ho hargs hc hs =>
      exact statementBy_accepts_name hx (nameTail_accepts_call _ ho hargs hc hs)

end Scopes

theorem statementAt_of_statementBy {ts : List Token} {node : Node}
    (h : (statementBy (expressionAt n) (bodyStatementAt n)).Accepts n follow ts node) :
    (statementAt n).Accepts n follow ts node := by
  intro p rest hp hn hahead hfollow
  rw [statementAt_eq, statementWith_apply]
  exact h.logged _ p rest hp hn hahead hfollow

theorem statementAt_accepts {ts : List Token} {node : Node} (h : Statement n ts node) :
    (statementAt n).Accepts n follow ts node := by
  induction n generalizing follow ts node with
  | zero => exact statementAt_of_statementBy (statementBy_accepts (fun m hm => by cases hm) h)
  | succ k ih =>
      refine statementAt_of_statementBy (statementBy_accepts (fun m hm => ?_) h)
      obtain rfl : k = m := by omega
      exact ih

theorem bodyStatementAt_accepts (m : Nat) (hm : n = m + 1) {ts : List Token} {node : Node}
    (h : Statement m ts node) : (bodyStatementAt n).Accepts m (fun _ => True) ts node := by
  subst hm
  exact statementAt_accepts h

/-! ## Programs -/

theorem labelTail_accepts_scope (name : String) {ts : List Token} {body : List Node}
    (h : Body n ts body) :
    (labelTail (bodyStatementAt n) name).Accepts n follow ts (.namedScope name body) := by
  refine (namedBody_accepts bodyStatementAt_accepts name h).congr fun p _ _ _ _ hpeek => ?_
  obtain ⟨opening, us, rfl, ho⟩ := h.head
  have ho' : p.peek.isSymbol '{' = true := by rw [hpeek]; exact ho
  rw [labelTail_apply, if_pos ho']

theorem labelTail_accepts_signature (name : String) {ts : List Token} {f : Function}
    (h : Signature n ts f) :
    (labelTail (bodyStatementAt n) name).Accepts n follow ts (.labeled name f) := by
  have hlabeled : (do
      let f ← signature (bodyStatementAt n) name
      logDetail ("parsed labeled scope: " ++ name ++ " " ++ f.header.name)
      return .labeled name f : Rule Node).Accepts n follow ts (.labeled name f) :=
    (signature_accepts bodyStatementAt_accepts _ h).finish ((Accepts.pure _).logged _)
  refine hlabeled.congr fun p _ _ _ _ hpeek => ?_
  obtain ⟨x, us, rfl, hx⟩ := h.head
  have hk : p.peek.kind = .identifier := by rw [hpeek]; exact hx
  rw [labelTail_apply, Token.isSymbol_of_kind (by simp [hk]), if_neg (by decide), if_pos hk]

/-- A node that begins with a name is read as what follows the name. -/
theorem topLevelBy_accepts_name {x : Token} {ts : List Token} {node : Node} (hx : PlainName x)
    (h : (labelTail (bodyStatementAt n) x.lexeme).Accepts n follow ts node) :
    topLevelBy.Accepts n follow (x :: ts) node := by
  refine h.behind fun p rest hp hn hahead => ?_
  have hpeek := Parser.peek_of_ahead hahead
  have hk : p.peek.kind = .identifier := by rw [hpeek]; exact hx.1
  rw [topLevelBy_of_identifier hk, identifierScope_apply _ hp hk, hn, hpeek, if_neg hx.2]

/-- A node that begins with neither a name nor the word of a scope is read as a statement. -/
theorem topLevelBy_accepts_statement {t : Token} {ts : List Token} {node : Node}
    (h : Anywhere n (t :: ts) node) (hscope : t.kind ≠ .scopeKeyword)
    (hname : t.kind ≠ .identifier) : topLevelBy.Accepts n follow (t :: ts) node := by
  have hstatement : (statementBy (expressionAt n) (bodyStatementAt n)).Accepts n follow (t :: ts)
      node := statementBy_accepts_anywhere bodyStatementAt_accepts h
  refine (statementAt_of_statementBy hstatement).congr fun p _ _ hn _ hpeek => ?_
  have hpeek' : p.peek = t := hpeek
  rw [topLevelBy_of_other (by rw [hpeek']; exact hscope) (by rw [hpeek']; exact hname), hn]

theorem topLevelBy_accepts {ts : List Token} {node : Node} (h : TopLevel n ts node) :
    topLevelBy.Accepts n follow ts node := by
  cases h with
  | anywhere h =>
      cases h with
      | scope hs =>
          refine (keywordScope_accepts bodyStatementAt_accepts hs).congr fun p t _ hn _ hpeek => ?_
          obtain ⟨word, us, rfl, hk⟩ := hs.head
          rw [topLevelBy_of_scope (by rw [hpeek]; exact hk), hn]
      | namedScope hx hb => exact topLevelBy_accepts_name hx (labelTail_accepts_scope _ hb)
      | unnamedScope hb =>
          obtain ⟨opening, us, rfl, ho⟩ := hb.head
          have hk : opening.kind = .symbol := (Token.isSymbol_iff.1 ho).1
          exact topLevelBy_accepts_statement (.unnamedScope hb) (by simp [hk]) (by simp [hk])
      | declaration ht hx heq hv hs =>
          exact topLevelBy_accepts_statement (.declaration ht hx heq hv hs) (by simp [ht.1])
            (by simp [ht.1])
      | operator hw ho hargs hc hs =>
          exact topLevelBy_accepts_statement (.operator hw ho hargs hc hs) (by simp [hw.1])
            (by simp [hw.1])
  | labeled hx hs => exact topLevelBy_accepts_name hx (labelTail_accepts_signature _ hs)

theorem topLevel_accepts {ts : List Token} {node : Node} (h : TopLevel n ts node) :
    topLevel.Accepts n follow ts node := by
  rw [topLevel_eq]
  exact (topLevelBy_accepts h).finish ((Accepts.pure node).logged _)

/-- Behind the nodes that the tokens read so far stand for, the reading of nodes goes on. -/
theorem topLevels_append {ts rest : List Token} {nodes : List Node} (h : Program n ts nodes)
    {p : Parser} (hp : p.Proper) (hn : p.room = n) (hahead : p.ahead = ts ++ rest) :
    ∃ q, p.Reaches ts q ∧ q.depth = p.depth ∧ many (fun _ => false) topLevel p =
      (do let more ← many (fun _ => false) topLevel; return nodes ++ more) q := by
  induction h generalizing p with
  | nil =>
      refine ⟨p, .refl p, rfl, ?_⟩
      rcases hx : many (fun _ => false) topLevel p with ⟨r, e | more⟩
      · rw [bind_apply_error hx]
      · rw [bind_apply_ok hx]
        rfl
  | @cons m ts us node nodes ha _ ih =>
      rw [List.append_assoc] at hahead
      obtain ⟨t, ts, rfl, _⟩ := ha.head
      have hnode : topLevel.Accepts m (fun _ => True) (t :: ts) node := topLevel_accepts ha
      obtain ⟨q, hq, hpq, hd⟩ := hnode p (us ++ rest) hp hn hahead trivial
      obtain ⟨r, hqr, hd', hr⟩ := ih (hp.of_reaches hpq) ((hpq.room_eq hd).trans hn)
        (hpq.ahead_eq hahead)
      refine ⟨r, hpq.trans hqr, hd'.trans hd, ?_⟩
      have hgo : p.atEnd = false := by rw [Parser.atEnd, hahead]; rfl
      rw [many_apply topLevel_advances hp hn, hgo, if_neg (by decide), bind_apply_ok hq]
      rcases hx : many (fun _ => false) topLevel r with ⟨s, e | more⟩
      · rw [bind_apply_error hx] at hr
        rw [bind_apply_error hx, bind_apply_error hr]
      · rw [bind_apply_ok hx] at hr
        rw [bind_apply_ok hx, bind_apply_ok hr]
        rfl

end Rule

end ScopeFront
