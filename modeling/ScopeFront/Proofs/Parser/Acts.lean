import ScopeFront.Proofs.Parser.Moves

/-!
# Runs of the grammar as acts

A rule of the grammar opens a level only with the bracket that belongs to it, right behind reading
it.  Its runs are therefore made up of acts: a token is read, something is noted, a bracket is read
and its level opened, a level is closed.  Each act is one or two moves, so that whatever moves keep
is kept here too.

* `Token.opensLevel` – the brackets behind which a level is opened;
* `Parser.Act`, `Parser.Acts` – one act, and a sequence of acts;
* `Parser.Act.depth_le`, `Parser.Acts.depth_le` – no more levels are open than brackets were read;
* `Acted`, `Rule.Acts` – how a run ends that is made up of acts, and the rules whose runs all are;
* `Rule.Acts.bind`, `Acted.nested`, `Rule.Acts.many`, … – how such rules are put together;
* `Rule.expressionAt_acts`, `Rule.statementAt_acts`, `Rule.forest_acts` – the rules of the grammar;
* `Rule.Traces.of_acts` – such runs are made up of moves.
-/

set_option autoImplicit false

namespace ScopeFront

/-- Whether the token is a bracket behind which a level may be opened. -/
def Token.opensLevel (t : Token) : Bool := t.isSymbol '\x7b' || t.isSymbol '('

theorem Token.isEof_of_opensLevel {t : Token} (h : t.opensLevel = true) : t.isEof = false := by
  rcases Bool.or_eq_true_iff.1 h with h | h
  · exact isEof_of_isSymbol h
  · exact isEof_of_isSymbol h

namespace Parser

/-! ## Acts -/

/-- One act of a rule of the grammar, which closes no level at the depth `floor` or below. -/
inductive Act (floor : Nat) : Parser → Parser → Prop
  | read (p : Parser) : Act floor p p.next
  | note (p : Parser) (level : Level) (message : String) :
    Act floor p (p.logging (.debug parserStage level message))
  | enter {p : Parser} : p.peek.opensLevel = true → p.depth < p.limit → Act floor p p.next.deeper
  | leave {p : Parser} : floor < p.depth → Act floor p p.shallower

/-- Any number of acts. -/
abbrev Acts (floor : Nat) : Parser → Parser → Prop := Relation.ReflTransGen (Act floor)

theorem next_limit (p : Parser) : p.next.limit = p.limit := by
  unfold next
  split <;> rfl

variable {floor : Nat} {p q : Parser}

/-- An act is one or two moves. -/
theorem Act.moves (h : Act floor p q) : Moves floor p q := by
  cases h with
  | read => exact .single (.read p)
  | note level message => exact .single (.note p level message)
  | enter _ hlt =>
      refine .tail (.single (.read p)) (.deeper ?_)
      rw [p.next_depth, p.next_limit]
      exact hlt
  | leave hlt => exact .single (.shallower hlt)

/-- The number of brackets read so far behind which a level may be opened. -/
def opened (p : Parser) : Nat := p.passed.countP Token.opensLevel

theorem opened_next {p : Parser} (hp : p.Proper) (h : p.peek.opensLevel = true) :
    p.next.opened = p.opened + 1 := by
  have hreach := hp.reaches_next (Token.isEof_of_opensLevel h)
  rw [opened, hreach.passed]
  exact List.countP_cons_of_pos h

theorem opened_le_next (p : Parser) : p.opened ≤ p.next.opened := by
  cases ha : p.ahead with
  | nil => simp [next, ha]
  | cons t later =>
      rw [opened, opened, (reaches_next ha).passed]
      exact List.Sublist.countP_le (List.sublist_append_right _ _)

theorem opened_le_cursor (p : Parser) : p.opened ≤ p.passed.length := List.countP_le_length

/-- **An act opens a level only with a bracket.** -/
theorem Act.depth_le (h : Act floor p q) (hp : p.Proper) (hd : p.depth ≤ p.opened) :
    q.depth ≤ q.opened := by
  cases h with
  | read =>
      rw [p.next_depth]
      exact Nat.le_trans hd p.opened_le_next
  | note => exact hd
  | enter hopens _ =>
      have hopened : p.next.deeper.opened = p.opened + 1 := opened_next hp hopens
      rw [deeper_depth, p.next_depth, hopened]
      exact Nat.succ_le_succ hd
  | leave => exact Nat.le_trans (Nat.sub_le ..) hd

namespace Acts

theorem moves (h : Acts floor p q) : Moves floor p q := by
  induction h with
  | refl => exact .refl
  | tail _ hact ih => exact ih.trans hact.moves

/-- A lower floor allows more. -/
theorem mono {floor' : Nat} (hle : floor' ≤ floor) (h : Acts floor p q) : Acts floor' p q := by
  refine Relation.ReflTransGen.mono ?_ p q h
  intro a b hab
  cases hab with
  | read => exact .read a
  | note level message => exact .note a level message
  | enter hopens hlt => exact .enter hopens hlt
  | leave hlt => exact .leave (Nat.lt_of_le_of_lt hle hlt)

/-- Acts that come back to the depth leave as many levels as before. -/
theorem room_eq (h : Acts floor p q) (hd : q.depth = p.depth) : q.room = p.room := by
  obtain ⟨ts, hts⟩ := h.moves.reaches
  exact hts.room_eq hd

/-- **No more levels are open than brackets were read.** -/
theorem depth_le (h : Acts floor p q) (hp : p.Proper) (hd : p.depth ≤ p.opened) :
    q.depth ≤ q.opened := by
  induction h with
  | refl => exact hd
  | tail hacts hact ih =>
      obtain ⟨ts, hts⟩ := moves hacts |>.reaches
      exact hact.depth_le (hp.of_reaches hts) ih

end Acts

end Parser

/-! ## Runs made up of acts -/

/-- How a run from `p` on ends that is made up of acts: at the depth of `p`; with an error logged at
last; or behind a bracket that opens a level too many. -/
inductive Acted {α : Type} (p : Parser) : Parser × Except ParseError α → Prop
  | ok {q : Parser} {a : α} : p.Acts p.depth q → q.depth = p.depth → Acted p (q, .ok a)
  | failed {q : Parser} {e : ParseError} :
    p.Acts p.depth q → (∀ found limit, e ≠ .tooDeep found limit) →
    Acted p (q.logging (.fatal parserStage e.message), .error e)
  | refused {q : Parser} :
    p.Acts p.depth q → q.peek.opensLevel = true → q.limit ≤ q.depth →
    Acted p (Rule.tooDeep q.next)

namespace Acted

variable {α β : Type} {p q : Parser}

/-- What follows acts that come back to the depth they started from. -/
theorem behind {x : Parser × Except ParseError α} (h : p.Acts p.depth q)
    (hd : q.depth = p.depth) (hx : Acted q x) : Acted p x := by
  cases hx with
  | ok hq hd' =>
      rw [hd] at hq
      exact .ok (h.trans hq) (hd'.trans hd)
  | failed hq he =>
      rw [hd] at hq
      exact .failed (h.trans hq) he
  | refused hq hopens hle =>
      rw [hd] at hq
      exact .refused (h.trans hq) hopens hle

theorem bind {r : Rule α} {f : α → Rule β} (hr : Acted p (r p))
    (hf : ∀ a q, q.room = p.room → Acted q (f a q)) : Acted p ((r >>= f) p) := by
  generalize hx : r p = x at hr
  cases hr with
  | ok h hd =>
      rw [Rule.bind_apply_ok hx]
      exact .behind h hd (hf _ _ (h.room_eq hd))
  | failed h he =>
      rw [Rule.bind_apply_error hx]
      exact .failed h he
  | refused h hopens hle =>
      rw [Rule.bind_apply_error hx]
      exact .refused h hopens hle

theorem traced {x : Parser × Except ParseError α} (h : Acted p x) : Traced p x := by
  cases h with
  | ok hacts hd => exact .ok hacts.moves hd
  | failed hacts _ => exact .failed hacts.moves
  | refused hacts _ _ => exact .failed (hacts.moves.tail (.read _))

end Acted

namespace Rule

variable {α β : Type} {n : Nat}

/-- Every run of the rule, with `n` levels left to open, is made up of acts. -/
def Acts (r : Rule α) (n : Nat) : Prop := ∀ p : Parser, p.room = n → Acted p (r p)

/-- Acts are moves. -/
theorem Traces.of_acts {r : Rule α} (h : ∀ n, r.Acts n) : r.Traces := fun p => (h _ p rfl).traced

namespace Acts

/-- A rule that succeeds comes back to the levels that were left, before no more tokens. -/
theorem of_ok {r : Rule α} (hr : r.Acts n) {p q : Parser} {a : α} (hp : p.Proper)
    (hn : p.room = n) (h : r p = (q, .ok a)) :
    q.Proper ∧ q.room = n ∧ q.ahead.length ≤ p.ahead.length := by
  have hx := hr p hn
  rw [h] at hx
  generalize hy : (q, Except.ok a) = y at hx
  cases hx with
  | ok hacts hd =>
      cases hy
      obtain ⟨ts, hts⟩ := hacts.moves.reaches
      refine ⟨hp.of_reaches hts, (hts.room_eq hd).trans hn, ?_⟩
      rw [hts.ahead, List.length_append]
      omega
  | failed _ _ => cases hy
  | refused _ _ _ => cases hy

theorem bind {r : Rule α} {f : α → Rule β} (hr : r.Acts n) (hf : ∀ a, (f a).Acts n) :
    (r >>= f).Acts n :=
  fun p hn => (hr p hn).bind fun a q hq => hf a q (hq.trans hn)

theorem pure (a : α) : (Pure.pure a : Rule α).Acts n := fun _ _ => .ok .refl rfl

theorem inspect {f : Parser → Rule α} (hf : ∀ p, (f p).Acts n) : (Rule.inspect f).Acts n :=
  fun p hn => hf p p hn

/-- A choice between two rules. -/
theorem ite {c : Prop} [Decidable c] {r s : Rule α} (hr : r.Acts n) (hs : s.Acts n) :
    (if c then r else s).Acts n := by
  split
  · exact hr
  · exact hs

theorem logDetail (message : String) : (Rule.logDetail message).Acts n :=
  fun p _ => .ok (.single (.note p .detail message)) rfl

theorem logPhase (message : String) : (Rule.logPhase message).Acts n :=
  fun p _ => .ok (.single (.note p .phase message)) rfl

theorem failExpected (what : String) : (Rule.failExpected what : Rule α).Acts n :=
  fun _ _ => .failed .refl nofun

theorem failUnexpected (context : String) : (Rule.failUnexpected context : Rule α).Acts n :=
  fun _ _ => .failed .refl nofun

/-! ## Single tokens -/

theorem peek : Rule.peek.Acts n := fun _ _ => .ok .refl rfl

theorem peekNext : Rule.peekNext.Acts n := fun _ _ => .ok .refl rfl

theorem atEnd : Rule.atEnd.Acts n := fun _ _ => .ok .refl rfl

theorem checkSymbol (c : Char) : (Rule.checkSymbol c).Acts n := fun _ _ => .ok .refl rfl

theorem advance : Rule.advance.Acts n := fun p _ => .ok (.single (.read p)) p.next_depth

theorem matchSymbol (c : Char) : (Rule.matchSymbol c).Acts n :=
  (checkSymbol c).bind fun _ => ite (advance.bind fun _ => pure true) (pure false)

theorem expectSymbol (c : Char) (context : String) : (Rule.expectSymbol c context).Acts n :=
  (checkSymbol c).bind fun _ => ite advance (failExpected _)

theorem expectIdentifier (what : String) : (Rule.expectIdentifier what).Acts n :=
  peek.bind fun _ => ite (advance.bind fun _ => pure _) (failExpected what)

theorem matchIdentifier : Rule.matchIdentifier.Acts n :=
  peek.bind fun _ => ite (advance.bind fun _ => pure _) (pure none)

theorem expectType (what : String) : (Rule.expectType what).Acts n := by
  refine peek.bind fun t => ?_
  cases typeOf? t with
  | none => exact failExpected what
  | some type => exact advance.bind fun _ => pure type

theorem matchOperator : Rule.matchOperator.Acts n := by
  refine peek.bind fun t => ?_
  cases operatorOf? t with
  | none => exact pure none
  | some op => exact advance.bind fun _ => pure (some op)

/-! ## Repetition -/

theorem many {item : Rule α} (hi : item.Acts n) (close : Token → Bool) :
    (Rule.many close item).Acts n := by
  refine inspect fun p => ?_
  induction p.ahead with
  | nil => exact pure []
  | cons t rounds ih =>
      exact inspect fun _ => ite (pure []) (hi.bind fun a => ih.bind fun as => pure (a :: as))

theorem commaTailWithin {item : Rule α} (hi : item.Acts n) (what : String)
    (rounds : List Token) : (Rule.commaTailWithin item what rounds).Acts n := by
  induction rounds with
  | nil => exact failExpected what
  | cons t rounds ih =>
      exact (matchSymbol ',').bind fun _ => ite
        (hi.bind fun a => ih.bind fun as => pure (a :: as))
        ((matchSymbol ')').bind fun _ => ite (pure []) (failExpected what))

theorem commaList {item : Rule α} (hi : item.Acts n) (what : String) :
    (Rule.commaList item what).Acts n :=
  (matchSymbol ')').bind fun _ => ite (pure [])
    (hi.bind fun a => (inspect fun p => hi.commaTailWithin what p.ahead).bind fun as =>
      pure (a :: as))

theorem operatorTailWithin {operand : Rule Expr} (ho : operand.Acts n) (rounds : List Token)
    (left : Expr) : (Rule.operatorTailWithin operand rounds left).Acts n := by
  induction rounds generalizing left with
  | nil => exact pure left
  | cons t rounds ih =>
      refine matchOperator.bind fun op => ?_
      cases op with
      | none => exact pure left
      | some op => exact ho.bind fun right => ih (.binary left op right)

theorem chain {operand : Rule Expr} (ho : operand.Acts n) : (Rule.chain operand).Acts n :=
  ho.bind fun first => inspect fun p => ho.operatorTailWithin p.ahead first

end Acts

end Rule

/-! ## Levels -/

namespace Acted

variable {α : Type} {p : Parser}

/-- What is done one level deeper, between opening the level and closing it. -/
theorem within {x : Parser × Except ParseError α} (hopens : p.peek.opensLevel = true)
    (hlt : p.depth < p.limit) (hx : Acted p.next.deeper x) :
    Acted p (match x with
      | (q, .ok a) => (q.shallower, .ok a)
      | (q, .error e) => (q, .error e)) := by
  have hdepth : p.next.deeper.depth = p.depth + 1 := by
    rw [Parser.deeper_depth, p.next_depth]
  have hinside : ∀ {q}, p.next.deeper.Acts p.next.deeper.depth q → p.Acts p.depth q := by
    intro q h
    exact .head (.enter hopens hlt) (h.mono (by omega))
  cases hx with
  | ok h hd =>
      refine .ok ((hinside h).tail (.leave (by omega))) ?_
      rw [Parser.shallower_depth]
      omega
  | failed h he => exact .failed (hinside h) he
  | refused h hopens' hle => exact .refused (hinside h) hopens' hle

/-- Behind a bracket, its level is opened and, where the run succeeds, closed again. -/
theorem nested {inner : Rule α} (hopens : p.peek.opensLevel = true)
    (hi : ∀ m, p.room = m + 1 → inner.Acts m) (close : Char) (context : String) :
    Acted p (Rule.nested inner close context p.next) := by
  by_cases hle : p.limit ≤ p.depth
  · have hnext : p.next.limit ≤ p.next.depth := by
      rw [p.next_limit, p.next_depth]
      exact hle
    have hrun : Rule.nested inner close context p.next = Rule.tooDeep p.next :=
      Rule.bind_apply_error (Rule.enterNested_of_le hnext)
    rw [hrun]
    exact .refused .refl hopens hle
  · have hlt : p.depth < p.limit := Nat.lt_of_not_le hle
    have hnext : p.next.depth < p.next.limit := by
      rw [p.next_limit, p.next_depth]
      exact hlt
    have hroom : p.room = p.next.deeper.room + 1 := by
      unfold Parser.room
      rw [Parser.deeper_depth, p.next_depth, show p.next.deeper.limit = p.limit from p.next_limit]
      omega
    have hclosed : (Rule.closed inner close context).Acts p.next.deeper.room :=
      (hi _ hroom).bind fun a => (Rule.Acts.expectSymbol close context).bind fun _ => .pure a
    rw [Rule.nested_apply_of_lt inner close context hnext]
    exact within hopens hlt (hclosed p.next.deeper rfl)

end Acted

namespace Rule

variable {n : Nat}

/-! ## Expressions -/

theorem leaf_acts : leaf.Acts n := by
  refine Acts.peek.bind fun t => ?_
  cases t.kind with
  | identifier =>
      exact Acts.advance.bind fun _ => (Acts.logDetail _).bind fun _ => .pure _
  | literal => exact Acts.advance.bind fun _ => (Acts.logDetail _).bind fun _ => .pure _
  | _ => exact .failExpected _

theorem primary_acts {inner : Rule Expr} (hi : ∀ m, n = m + 1 → inner.Acts m) :
    (primary inner).Acts n := by
  intro p hn
  show Acted p ((matchSymbol '(' >>= fun found => if found then _ else leaf) p)
  rw [matchSymbol_bind]
  split
  · rename_i hopen
    exact .nested (by simp [Token.opensLevel, hopen]) (fun m hm => hi m (hn.symm.trans hm)) ')' _
  · exact leaf_acts p hn

theorem expressionAt_acts : (expressionAt n).Acts n := by
  rw [expressionAt_eq]
  induction n with
  | zero => exact (primary_acts fun m hm => by cases hm).chain
  | succ n ih =>
      refine (primary_acts fun m hm => ?_).chain
      obtain rfl : n = m := by omega
      show (expressionAt n).Acts n
      rw [expressionAt_eq]
      exact ih

theorem innerExpressionAt_acts (m : Nat) (h : n = m + 1) : (innerExpressionAt n).Acts m := by
  subst h
  exact expressionAt_acts

theorem argumentsWith_acts {item : Rule Expr} (hi : item.Acts n) (what : String) :
    (argumentsWith item what).Acts n :=
  hi.commaList _

/-! ## Headers -/

theorem parameter_acts : parameter.Acts n :=
  (Acts.expectType _).bind fun _ => (Acts.expectIdentifier _).bind fun _ =>
    (Acts.logDetail _).bind fun _ => .pure _

theorem parameterList_acts : parameterList.Acts n :=
  (Acts.matchSymbol '(').bind fun _ =>
    .ite ((parameter_acts.commaList _).bind fun ps => .pure (some ps)) (.pure none)

theorem returnType_acts : returnType.Acts n :=
  (Acts.matchSymbol ':').bind fun _ =>
    .ite ((Acts.expectType _).bind fun type => (Acts.logDetail _).bind fun _ =>
      .pure (some type)) (.pure none)

theorem header_acts (label : String) : (header label).Acts n :=
  (Acts.expectIdentifier _).bind fun _ => parameterList_acts.bind fun _ =>
    returnType_acts.bind fun _ => .pure _

theorem member_acts : member.Acts n :=
  (Acts.expectType _).bind fun _ => (Acts.expectIdentifier _).bind fun _ =>
    (Acts.expectSymbol ';' _).bind fun _ => (Acts.logDetail _).bind fun _ => .pure _

/-! ## Scopes -/

section Scopes

variable {expr : Rule Expr} {inner : Rule Node} (he : expr.Acts n)
  (hi : ∀ m, n = m + 1 → inner.Acts m)

section

include hi

theorem blockWith_acts (what : String) : (blockWith inner what).Acts n := by
  intro p hn
  rw [blockWith_apply]
  split
  · rename_i hopen
    exact .nested (by simp [Token.opensLevel, hopen])
      (fun m hm => (hi m (hn.symm.trans hm)).many _) '}' _
  · exact Acts.failExpected _ p hn

theorem signature_acts (label : String) : (signature inner label).Acts n :=
  (header_acts label).bind fun _ => (blockWith_acts hi _).bind fun _ => .pure _

theorem functionScopeWith_acts : (functionScopeWith inner).Acts n :=
  (signature_acts hi _).bind fun f => (Acts.logDetail _).bind fun _ => .pure f

theorem implementedFunction_acts : (implementedFunction inner).Acts n :=
  Acts.peek.bind fun _ =>
    .ite (Acts.advance.bind fun _ => functionScopeWith_acts hi) (.failExpected _)

theorem namedScopeWith_acts : (namedScopeWith inner).Acts n :=
  (Acts.expectIdentifier _).bind fun _ => (blockWith_acts hi _).bind fun _ =>
    (Acts.logDetail _).bind fun _ => .pure _

theorem unnamedScopeWith_acts : (unnamedScopeWith inner).Acts n :=
  (blockWith_acts hi _).bind fun body => (Acts.logDetail _).bind fun _ => .pure body

theorem labeledScope_acts : (labeledScope inner).Acts n :=
  Acts.advance.bind fun _ => (signature_acts hi _).bind fun _ =>
    (Acts.logDetail _).bind fun _ => .pure _

theorem identifierScope_acts : (identifierScope inner).Acts n :=
  Acts.peek.bind fun _ => .ite (.failUnexpected _) (Acts.peekNext.bind fun _ =>
    .ite ((namedScopeWith_acts hi).bind fun _ => .pure _) (Acts.peekNext.bind fun _ =>
      .ite (labeledScope_acts hi) (Acts.advance.bind fun _ => .failExpected _)))

end

include he hi

theorem keywordScope_acts : (keywordScope expr inner).Acts n := by
  refine Acts.peek.bind fun t => ?_
  cases scopeOf? t with
  | none => exact .failUnexpected _
  | some keyword =>
      refine Acts.advance.bind fun _ => (Acts.logDetail _).bind fun _ => ?_
      cases keyword with
      | function => exact (functionScopeWith_acts hi).bind fun f => .pure (Node.function f)
      | forLoop =>
          exact (Acts.expectSymbol '(' _).bind fun _ => he.bind fun _ =>
            (Acts.expectSymbol ')' _).bind fun _ => (blockWith_acts hi _).bind fun _ => .pure _
      | struct =>
          exact Acts.matchIdentifier.bind fun _ => (Acts.expectSymbol '{' _).bind fun _ =>
            (member_acts.many _).bind fun _ => (Acts.expectSymbol '}' _).bind fun _ => .pure _
      | implement =>
          exact Acts.matchIdentifier.bind fun _ => (Acts.expectSymbol '{' _).bind fun _ =>
            ((implementedFunction_acts hi).many _).bind fun _ =>
              (Acts.expectSymbol '}' _).bind fun _ => .pure _

end Scopes

/-! ## Statements -/

section Statements

variable {expr : Rule Expr} {inner : Rule Node} (he : expr.Acts n)
  (hi : ∀ m, n = m + 1 → inner.Acts m)

section

include he

theorem returnStatement_acts : (returnStatement expr).Acts n := by
  have hend : ∀ value : Option Expr, (do
      let _ ← expectSymbol ';' "after return statement"
      logDetail "parsed return statement"
      return .ret value : Rule Node).Acts n := fun value =>
    (Acts.expectSymbol ';' _).bind fun _ => (Acts.logDetail _).bind fun _ => .pure _
  exact Acts.advance.bind fun _ => (Acts.checkSymbol ';').bind fun _ =>
    .ite ((Acts.pure none).bind hend) (he.bind fun e => (Acts.pure (some e)).bind hend)

theorem assignmentTail_acts (name : String) : (assignmentTail expr name).Acts n :=
  he.bind fun _ => (Acts.expectSymbol ';' _).bind fun _ =>
    (Acts.logDetail _).bind fun _ => .pure _

theorem callTail_acts (name : String) : (callTail expr name).Acts n :=
  (argumentsWith_acts he _).bind fun _ => (Acts.expectSymbol ';' _).bind fun _ =>
    (Acts.logDetail _).bind fun _ => .pure _

theorem declaration_acts : (declaration expr).Acts n :=
  (Acts.expectType _).bind fun _ => (Acts.expectIdentifier _).bind fun _ =>
    (Acts.expectSymbol '=' _).bind fun _ => he.bind fun _ =>
      (Acts.expectSymbol ';' _).bind fun _ => (Acts.logDetail _).bind fun _ => .pure _

theorem operatorStatement_acts : (operatorStatement expr).Acts n := by
  refine Acts.peek.bind fun t => ?_
  cases OperatorKeyword.ofWord? t.lexeme with
  | none => exact .failUnexpected _
  | some keyword =>
      exact Acts.advance.bind fun _ => (Acts.expectSymbol '(' _).bind fun _ =>
        (argumentsWith_acts he _).bind fun _ => (Acts.expectSymbol ';' _).bind fun _ =>
          (Acts.logDetail _).bind fun _ => .pure _

end

include he hi

theorem identifierStatement_acts : (identifierStatement expr inner).Acts n :=
  Acts.peekNext.bind fun _ => .ite ((namedScopeWith_acts hi).bind fun _ => .pure _)
    (Acts.advance.bind fun _ => (Acts.matchSymbol '=').bind fun _ =>
      .ite (assignmentTail_acts he _) ((Acts.matchSymbol '(').bind fun _ =>
        .ite (callTail_acts he _) (.failExpected _)))

theorem statementWith_acts : (statementWith expr inner).Acts n := by
  refine Acts.peek.bind fun t => (Acts.logDetail _).bind fun _ => ?_
  cases t.kind with
  | identifier => exact .ite (returnStatement_acts he) (identifierStatement_acts he hi)
  | symbol =>
      exact .ite ((unnamedScopeWith_acts hi).bind fun body => .pure (Node.unnamedScope body))
        (.failUnexpected _)
  | scopeKeyword => exact keywordScope_acts he hi
  | typeKeyword => exact declaration_acts he
  | operatorKeyword => exact operatorStatement_acts he
  | literal => exact .failUnexpected _
  | eof => exact .failUnexpected _

end Statements

theorem statementAt_acts : (statementAt n).Acts n := by
  rw [statementAt_eq]
  induction n with
  | zero => exact statementWith_acts expressionAt_acts fun m hm => by cases hm
  | succ n ih =>
      refine statementWith_acts expressionAt_acts fun m hm => ?_
      obtain rfl : n = m := by omega
      show (statementAt n).Acts n
      rw [statementAt_eq]
      exact ih

theorem bodyStatementAt_acts (m : Nat) (h : n = m + 1) : (bodyStatementAt n).Acts m := by
  subst h
  exact statementAt_acts

/-! ## Programs

The same rules, with the levels that the parser has left. -/

theorem expression_acts : expression.Acts n := fun p _ => expressionAt_acts p rfl

theorem arguments_acts (what : String) : (arguments what).Acts n :=
  fun p _ => argumentsWith_acts expressionAt_acts what p rfl

theorem block_acts (what : String) : (block what).Acts n :=
  fun p _ => blockWith_acts bodyStatementAt_acts what p rfl

theorem functionScope_acts : functionScope.Acts n :=
  fun p _ => functionScopeWith_acts bodyStatementAt_acts p rfl

theorem namedScope_acts : namedScope.Acts n :=
  fun p _ => namedScopeWith_acts bodyStatementAt_acts p rfl

theorem unnamedScope_acts : unnamedScope.Acts n :=
  fun p _ => unnamedScopeWith_acts bodyStatementAt_acts p rfl

theorem statement_acts : statement.Acts n := fun p _ => statementAt_acts p rfl

theorem scope_acts : scope.Acts n := by
  intro p _
  rw [scope, inspect_apply]
  cases p.peek.kind with
  | scopeKeyword => exact keywordScope_acts expressionAt_acts bodyStatementAt_acts p rfl
  | identifier => exact identifierScope_acts bodyStatementAt_acts p rfl
  | _ => exact statement_acts p rfl

theorem topLevel_acts : topLevel.Acts n := by
  refine Acts.bind (.inspect fun p => ?_) fun node => (Acts.logDetail _).bind fun _ =>
    .pure node
  cases p.peek.kind with
  | scopeKeyword => exact scope_acts
  | identifier => exact scope_acts
  | _ => exact statement_acts

/-- **A whole program is read in acts.** -/
theorem forest_acts : forest.Acts n :=
  (Acts.logPhase _).bind fun _ => (topLevel_acts.many _).bind fun nodes =>
    (Acts.logPhase _).bind fun _ => .pure nodes

end Rule

end ScopeFront
