import Mathlib.Logic.Function.Iterate
import ScopeFront.Proofs.Parser.Acts
import ScopeFront.Proofs.Parser.Routine
import ScopeFront.Proofs.Parser.Soundness

/-!
# Calls come to an end

Every call of a routine is made with fewer tokens ahead, or with as many of them and a lower rank.
So the calls come to an end wherever a parser stands, and what they come to is what the rules give.

* `Rule.Agree` – rules that do the same before few enough tokens;
* `Routine.body_of_calls` – a routine whose calls are answered rightly;
* `Routine.unrolled` – calls of calls, down to where no answer matters any more.
-/

set_option autoImplicit false

namespace ScopeFront

/-! ## Rules that do the same -/

namespace Rule

variable {α β : Type} {n k : Nat}

/-- With `n` levels left and fewer than `k` tokens ahead, the rules do the same. -/
def Agree (n k : Nat) (r s : Rule α) : Prop :=
  ∀ p : Parser, p.Proper → p.room = n → p.ahead.length < k → r p = s p

theorem expectSymbol_advances (c : Char) (context : String) :
    (expectSymbol c context).Advances n := by
  refine (Reads.expectSymbol c context).advances ?_
  rintro m t ⟨h, _⟩
  cases h

theorem expectIdentifier_advances (what : String) : (expectIdentifier what).Advances n := by
  refine (Reads.expectIdentifier what).advances ?_
  rintro m name ⟨t, h, _⟩
  cases h

theorem expectType_advances (what : String) : (expectType what).Advances n := by
  refine (Reads.expectType what).advances ?_
  rintro m type ⟨t, h, _⟩
  cases h

theorem header_advances (label : String) : (header label).Advances n := by
  refine (header_reads label).advances ?_
  intro m head h
  cases h

namespace Agree

variable {r s : Rule α}

theorem refl (r : Rule α) : Agree n k r r := fun _ _ _ _ => rfl

theorem mono {k' : Nat} (hle : k' ≤ k) (h : Agree n k r s) : Agree n k' r s :=
  fun p hp hn hlt => h p hp hn (Nat.lt_of_lt_of_le hlt hle)

/-- A rule chosen by the levels that are left. -/
theorem leveled (f : Nat → Rule α) (h : Agree n k r (Rule.inspect fun p => f p.room)) :
    Agree n k r (f n) := by
  intro p hp hn hlt
  rw [h p hp hn hlt, inspect_apply, hn]

/-- A choice between two rules. -/
theorem ite {c : Prop} [Decidable c] {r' s' : Rule α} (h : Agree n k r s)
    (h' : Agree n k r' s') : Agree n k (if c then r else r') (if c then s else s') := by
  split
  · exact h
  · exact h'

theorem bind {f g : α → Rule β} (h : Agree n k r s) (hs : s.Acts n)
    (hf : ∀ a, Agree n k (f a) (g a)) : Agree n k (r >>= f) (s >>= g) := by
  intro p hp hn hlt
  rw [bind_congr_left (h p hp hn hlt)]
  refine bind_congr_right fun q a hx => ?_
  obtain ⟨hq, hqn, hle⟩ := hs.of_ok hp hn hx
  exact hf a q hq hqn (Nat.lt_of_le_of_lt hle hlt)

/-- The same rule, before rules that do the same. -/
theorem after {f g : α → Rule β} (hr : r.Acts n) (hf : ∀ a, Agree n k (f a) (g a)) :
    Agree n k (r >>= f) (r >>= g) :=
  (refl r).bind hr hf

/-- Behind a rule that reads a token, fewer tokens are ahead. -/
theorem behind {f g : α → Rule β} (h : Agree n (k + 1) r s) (hs : s.Advances n)
    (hf : ∀ a, Agree n k (f a) (g a)) : Agree n (k + 1) (r >>= f) (s >>= g) := by
  intro p hp hn hlt
  rw [bind_congr_left (h p hp hn hlt)]
  refine bind_congr_right fun q a hx => ?_
  obtain ⟨hq, hqn, hless⟩ := hs p q a hp hn hx
  exact hf a q hq hqn (by omega)

/-- Where a rule has read the symbol, fewer tokens are ahead. -/
theorem ifSymbol {c : Char} {f g : Bool → Rule β} (hread : Agree n k (f true) (g true))
    (hother : Agree n (k + 1) (f false) (g false)) :
    Agree n (k + 1) (matchSymbol c >>= f) (matchSymbol c >>= g) := by
  intro p hp hn hlt
  rw [matchSymbol_bind, matchSymbol_bind]
  split
  · rename_i hc
    obtain ⟨hq, hqn, hless⟩ := hp.next (Token.isEof_of_isSymbol hc)
    exact hread p.next hq (hqn.trans hn) (by omega)
  · exact hother p hp hn hlt

/-- Behind a token that is no end marker, fewer tokens are ahead. -/
theorem next {f g : Rule β} (h : Agree n k f g) {p : Parser} (hp : p.Proper) (hn : p.room = n)
    (hlt : p.ahead.length < k + 1) (ht : p.peek.isEof = false) : f p.next = g p.next := by
  obtain ⟨hq, hqn, hless⟩ := hp.next ht
  exact h p.next hq (hqn.trans hn) (by omega)

/-- Rules that do the same a level deeper, where there is one. -/
theorem nested {inner inner' : Rule α} (h : ∀ m, n = m + 1 → Agree m k inner inner')
    (close : Char) (context : String) :
    Agree n k (Rule.nested inner close context) (Rule.nested inner' close context) := by
  intro p hp hn hlt
  by_cases hle : p.limit ≤ p.depth
  · obtain ⟨q, hq, _, _⟩ := tooDeep_apply (α := Unit) p
    rw [← enterNested_of_le hle] at hq
    exact (bind_apply_error hq).trans (bind_apply_error hq).symm
  · have hroom : p.room = p.room - 1 + 1 := by
      unfold Parser.room
      omega
    have hdeeper := h (p.room - 1) (hn.symm.trans hroom) p.deeper
      (hp.of_reaches p.reaches_deeper) (Parser.room_deeper hroom) hlt
    have hclosed : closed inner close context p.deeper = closed inner' close context p.deeper :=
      bind_congr_left hdeeper
    rw [nested_apply_of_lt inner close context (Nat.lt_of_not_le hle),
      nested_apply_of_lt inner' close context (Nat.lt_of_not_le hle), hclosed]

end Agree

end Rule

namespace Routine

open Rule

variable {α : Type} {n k : Nat}

/-! ## Rounds of loops -/

/-- An item that reads a token, and those behind it. -/
theorem cons_agree {item item' : Rule α} {more more' : Rule (List α)} (hadv : item.Advances n)
    (hi : Agree n k item' item) (hm : Agree n (k - 1) more' more) :
    Agree n k (do let a ← item'; let as ← more'; return a :: as)
      (do let a ← item; let as ← more; return a :: as) := by
  intro p hp hn hlt
  rw [bind_congr_left (hi p hp hn hlt)]
  refine bind_congr_right fun q a hx => ?_
  obtain ⟨hq, hqn, hless⟩ := hadv p q a hp hn hx
  exact bind_congr_left (hm q hq hqn (by omega))

theorem manyRound_agree {close : Token → Bool} {item item' : Rule α} {again : Rule (List α)}
    (hadv : item.Advances n) (hi : Agree n (k + 1) item' item)
    (ha : Agree n k again (many close item)) :
    Agree n (k + 1) (manyRound close item' again) (many close item) := by
  intro p hp hn hlt
  rw [many_apply hadv hp hn, manyRound, inspect_apply]
  split
  · rfl
  · exact cons_agree hadv hi ha p hp hn hlt

theorem commaStart_agree {item item' : Rule α} {further : Rule (List α)} {what : String}
    (hadv : item.Advances n) (hi : Agree n (k + 1) item' item)
    (hf : Agree n k further (commaTail item what)) :
    Agree n (k + 1) (commaStart item' further) (commaList item what) :=
  .ifSymbol (.refl _) (cons_agree hadv hi hf)

theorem commaRound_agree {item item' : Rule α} {further : Rule (List α)} {what : String}
    (hadv : item.Advances n) (hi : Agree n k item' item)
    (hf : Agree n k further (commaTail item what)) :
    Agree n (k + 1) (commaRound item' what further) (commaTail item what) := by
  intro p hp hn hlt
  rw [commaTail_apply hadv what hp hn, commaRound, matchSymbol_bind]
  split
  · rename_i hc
    have hitem := cons_agree hadv hi (hf.mono (Nat.sub_le k 1))
    exact hitem.next hp hn hlt (Token.isEof_of_isSymbol hc)
  · exact matchSymbol_bind ..

/-! ## One call of each routine -/

/-- Where fewer than `k` tokens are ahead, calls are answered as the rules answer them. -/
def Answers (call : Calls) (k : Nat) : Prop := ∀ c n, Agree n k (call c) c.rule

namespace Answers

variable {call : Calls} (hcall : Answers call k)

include hcall

theorem expression : Agree n k (call expression) (expressionAt n) :=
  (hcall .expression n).leveled expressionAt

theorem operators (left : Expr) :
    Agree n k (call (operators left)) (operatorTail (primary (innerExpressionAt n)) left) :=
  (hcall (.operators left) n).leveled fun m => operatorTail (primary (innerExpressionAt m)) left

theorem arguments (what : String) :
    Agree n k (call (arguments what)) (argumentsWith (expressionAt n) what) :=
  (hcall (.arguments what) n).leveled fun m => argumentsWith (expressionAt m) what

theorem furtherArguments (what : String) :
    Agree n k (call (furtherArguments what))
      (commaTail (expressionAt n) ("',' or ')' in " ++ what ++ " arguments")) :=
  (hcall (.furtherArguments what) n).leveled fun m =>
    commaTail (expressionAt m) ("',' or ')' in " ++ what ++ " arguments")

theorem block (what : String) :
    Agree n k (call (block what)) (blockWith (bodyStatementAt n) what) :=
  (hcall (.block what) n).leveled fun m => blockWith (bodyStatementAt m) what

theorem statements : Agree n k (call statements) (many (·.isSymbol '}') (statementAt n)) :=
  (hcall .statements n).leveled fun m => many (·.isSymbol '}') (statementAt m)

theorem functions :
    Agree n k (call functions)
      (many (·.isSymbol '}') (implementedFunction (bodyStatementAt n))) :=
  (hcall .functions n).leveled fun m =>
    many (·.isSymbol '}') (implementedFunction (bodyStatementAt m))

theorem functionScope : Agree n k (call functionScope) (functionScopeWith (bodyStatementAt n)) :=
  (hcall .functionScope n).leveled fun m => functionScopeWith (bodyStatementAt m)

end Answers

section Steps

variable {call : Calls} (hcall : Answers call k)

include hcall

theorem operand_agree :
    Agree n (k + 1) (primary (call expression)) (primary (innerExpressionAt n)) := by
  refine .ifSymbol (.nested (fun m hm => ?_) ')' _) (.refl _)
  subst hm
  exact hcall.expression

theorem expression_agree : Agree n (k + 1) (body call expression) (expressionAt n) := by
  rw [expressionAt_eq]
  exact (operand_agree hcall).behind operand_advances hcall.operators

theorem operators_agree (left : Expr) :
    Agree n (k + 1) (body call (operators left))
      (operatorTail (primary (innerExpressionAt n)) left) := by
  intro p hp hn hlt
  rw [operatorTail_apply operand_advances left hp hn]
  have hsign := matchOperator_apply p
  cases hop : operatorOf? p.peek with
  | none =>
      rw [hop] at hsign
      exact bind_apply_ok hsign
  | some op =>
      rw [hop] at hsign
      refine (bind_apply_ok hsign).trans ?_
      have hround := ((operand_agree (n := n) hcall).mono (Nat.le_succ k)).bind
        (primary_acts innerExpressionAt_acts) fun right =>
          hcall.operators (.binary left op right)
      exact hround.next hp hn hlt (isEof_of_operatorOf? hop)

theorem block_agree (what : String) :
    Agree n (k + 1) (body call (block what)) (blockWith (bodyStatementAt n) what) := by
  rw [blockWith_eq]
  refine (Agree.refl _).behind (expectSymbol_advances '{' _) fun _ => .nested (fun m hm => ?_) _ _
  subst hm
  exact hcall.statements

theorem furtherArguments_agree (what : String) :
    Agree n (k + 1) (body call (furtherArguments what))
      (commaTail (expressionAt n) ("',' or ')' in " ++ what ++ " arguments")) :=
  commaRound_agree expressionAt_advances hcall.expression (hcall.furtherArguments what)

theorem furtherParameters_agree :
    Agree n (k + 1) (body call furtherParameters)
      (commaTail parameter "',' or ')' in parameter list") :=
  commaRound_agree parameter_advances (.refl _) (hcall furtherParameters n)

theorem members_agree :
    Agree n (k + 1) (body call members) (many (·.isSymbol '}') member) :=
  manyRound_agree member_advances (.refl _) (hcall members n)

theorem methodBy_agree :
    Agree n (k + 1) (methodBy call) (implementedFunction (bodyStatementAt n)) := by
  intro p hp hn hlt
  unfold methodBy implementedFunction
  rw [peek_bind, peek_bind]
  by_cases hf : scopeOf? p.peek = some .function
  · have heof := Token.isEof_eq_false (scopeOf?_eq_some.1 hf).1 (by decide)
    rw [if_pos hf, if_pos hf]
    exact hcall.functionScope.next hp hn hlt heof
  · rw [if_neg hf, if_neg hf]

theorem functions_agree :
    Agree n (k + 1) (body call functions)
      (many (·.isSymbol '}') (implementedFunction (bodyStatementAt n))) :=
  manyRound_agree method_advances (methodBy_agree hcall) hcall.functions

theorem parameterListBy_agree : Agree n k (parameterListBy call) parameterList := by
  have hlist : Agree n k (commaStart parameter (call furtherParameters))
      (commaList parameter "',' or ')' in parameter list") :=
    (commaStart_agree parameter_advances (.refl _) (hcall furtherParameters n)).mono (Nat.le_succ k)
  exact .after (.matchSymbol '(') fun found =>
    .ite (hlist.bind (parameter_acts.commaList _) fun _ => .refl _) (.refl _)

theorem headerBy_agree (label : String) : Agree n (k + 1) (headerBy call label) (header label) :=
  (Agree.refl _).behind (expectIdentifier_advances _) fun _ =>
    (parameterListBy_agree hcall).bind parameterList_acts fun _ => .refl _

theorem signatureBy_agree (label : String) :
    Agree n (k + 1) (signatureBy call label) (signature (bodyStatementAt n) label) :=
  (headerBy_agree hcall label).behind (header_advances label) fun _ =>
    (hcall.block _).bind (blockWith_acts bodyStatementAt_acts _) fun _ => .refl _

theorem functionScope_agree :
    Agree n (k + 1) (body call functionScope) (functionScopeWith (bodyStatementAt n)) :=
  (signatureBy_agree hcall _).bind (signature_acts bodyStatementAt_acts _) fun _ => .refl _

theorem namedScope_agree :
    Agree n (k + 1) (body call namedScope) (namedScopeWith (bodyStatementAt n)) :=
  (Agree.refl _).behind (expectIdentifier_advances _) fun _ =>
    (hcall.block _).bind (blockWith_acts bodyStatementAt_acts _) fun _ => .refl _

theorem arguments_agree (hfirst : Agree n (k + 1) (call expression) (expressionAt n))
    (what : String) :
    Agree n (k + 1) (body call (arguments what)) (argumentsWith (expressionAt n) what) :=
  commaStart_agree expressionAt_advances hfirst (hcall.furtherArguments what)

theorem behindKeyword_agree (keyword : ScopeKeyword) :
    Agree n k (behindKeyword call keyword)
      (scopeBehind (expressionAt n) (bodyStatementAt n) keyword) := by
  cases keyword with
  | function =>
      exact hcall.functionScope.bind (functionScopeWith_acts bodyStatementAt_acts) fun _ => .refl _
  | forLoop =>
      exact .after (.expectSymbol '(' _) fun _ =>
        hcall.expression.bind expressionAt_acts fun _ =>
          .after (.expectSymbol ')' _) fun _ =>
            (hcall.block _).bind (blockWith_acts bodyStatementAt_acts _) fun _ => .refl _
  | struct =>
      exact .after .matchIdentifier fun _ => .after (.expectSymbol '{' _) fun _ =>
        (hcall members n).bind (member_acts.many _) fun _ => .refl _
  | implement =>
      exact .after .matchIdentifier fun _ => .after (.expectSymbol '{' _) fun _ =>
        hcall.functions.bind ((implementedFunction_acts bodyStatementAt_acts).many _)
          fun _ => .refl _

theorem keywordScopeBy_agree :
    Agree n (k + 1) (keywordScopeBy call)
      (keywordScope (expressionAt n) (bodyStatementAt n)) := by
  intro p hp hn hlt
  rw [keywordScope_apply, keywordScopeBy, peek_bind]
  cases hkeyword : scopeOf? p.peek with
  | none => rfl
  | some keyword =>
      have heof := Token.isEof_eq_false (scopeOf?_eq_some.1 hkeyword).1 (by decide)
      have hbehind : Agree n k
          (do logDetail ("parsing scope: " ++ keyword.word); behindKeyword call keyword)
          (do
            logDetail ("parsing scope: " ++ keyword.word)
            scopeBehind (expressionAt n) (bodyStatementAt n) keyword) :=
        .after (.logDetail _) fun _ => behindKeyword_agree hcall keyword
      exact hbehind.next hp hn hlt heof

theorem returnTail_agree :
    Agree n k (returnTail (call expression)) (returnTail (expressionAt n)) :=
  .after (.checkSymbol ';') fun _ =>
    .ite (.refl _) (hcall.expression.bind expressionAt_acts fun _ => .refl _)

theorem declaration_agree :
    Agree n (k + 1) (declaration (call expression)) (declaration (expressionAt n)) :=
  (Agree.refl _).behind (expectType_advances _) fun _ =>
    .after (.expectIdentifier _) fun _ => .after (.expectSymbol '=' _) fun _ =>
      hcall.expression.bind expressionAt_acts fun _ => .refl _

theorem operatorStatementBy_agree {p : Parser} (hp : p.Proper) (hn : p.room = n)
    (hlt : p.ahead.length < k + 1) (hk : p.peek.kind = .operatorKeyword) :
    operatorStatementBy call p = operatorStatement (expressionAt n) p := by
  rw [operatorStatementBy, operatorStatement, peek_bind, peek_bind]
  cases OperatorKeyword.ofWord? p.peek.lexeme with
  | none => rfl
  | some keyword =>
      have hbehind := Agree.after (n := n) (k := k)
        (.expectSymbol '(' "after operator keyword") fun _ =>
          (hcall.arguments "operator").bind (argumentsWith_acts expressionAt_acts _)
            fun given => .refl (do
              let _ ← expectSymbol ';' "after operator statement"
              logDetail ("parsed operator statement: " ++ keyword.word)
              return .operator keyword given : Rule Node)
      exact hbehind.next hp hn hlt (Token.isEof_eq_false hk (by decide))

/-- What follows a name and `=`, or a name and `(`. -/
theorem nameTail_agree (name : String) :
    Agree n k
      (do
        if ← matchSymbol '=' then assignmentTail (call expression) name
        else if ← matchSymbol '(' then callTailBy call name
        else failExpected ("'=', '\x7b' or '(' after '" ++ name ++ "'"))
      (do
        if ← matchSymbol '=' then assignmentTail (expressionAt n) name
        else if ← matchSymbol '(' then callTail (expressionAt n) name
        else failExpected ("'=', '\x7b' or '(' after '" ++ name ++ "'")) :=
  .after (.matchSymbol '=') fun _ =>
    .ite (hcall.expression.bind expressionAt_acts fun _ => .refl _)
      (.after (.matchSymbol '(') fun _ =>
        .ite ((hcall.arguments _).bind (argumentsWith_acts expressionAt_acts _)
          fun _ => .refl _) (.refl _))

end Steps

/-! ## Calls before a token is read

A body begins with its brace and a statement with what stands first in it: these routines call
others before they have read anything. -/

section SameTokens

variable {call : Calls}

theorem unnamedScope_agree
    (hblock : Agree n k (call (block "unnamed scope"))
      (blockWith (bodyStatementAt n) "unnamed scope")) :
    Agree n k (body call unnamedScope) (unnamedScopeWith (bodyStatementAt n)) :=
  hblock.bind (blockWith_acts bodyStatementAt_acts _) fun _ => .refl _

variable (hcall : Answers call k)
  (hname : Agree n (k + 1) (call namedScope) (namedScopeWith (bodyStatementAt n)))

include hcall hname

theorem identifierStatementBy_agree {p : Parser} (hp : p.Proper) (hn : p.room = n)
    (hlt : p.ahead.length < k + 1) (hk : p.peek.kind = .identifier) :
    identifierStatementBy call p =
      identifierStatement (expressionAt n) (bodyStatementAt n) p := by
  show (if p.peekNext.isSymbol '{' then _ else _ : Rule Node) p =
    (if p.peekNext.isSymbol '{' then _ else _ : Rule Node) p
  by_cases hbrace : p.peekNext.isSymbol '{' = true
  · rw [if_pos hbrace, if_pos hbrace]
    exact bind_congr_left (hname p hp hn hlt)
  · rw [if_neg hbrace, if_neg hbrace]
    exact (nameTail_agree hcall p.peek.lexeme).next hp hn hlt
      (Token.isEof_eq_false hk (by decide))

theorem identifierScopeBy_agree {p : Parser} (hp : p.Proper) (hn : p.room = n)
    (hlt : p.ahead.length < k + 1) (hk : p.peek.kind = .identifier) :
    identifierScopeBy call p = identifierScope (bodyStatementAt n) p := by
  have heof := Token.isEof_eq_false hk (by decide)
  rw [identifierScopeBy, identifierScope, peek_bind, peek_bind]
  by_cases hreturn : p.peek.lexeme = returnWord
  · rw [if_pos hreturn, if_pos hreturn]
  rw [if_neg hreturn, if_neg hreturn]
  show (if p.peekNext.isSymbol '{' then _ else _ : Rule Node) p =
    (if p.peekNext.isSymbol '{' then _ else _ : Rule Node) p
  by_cases hbrace : p.peekNext.isSymbol '{' = true
  · rw [if_pos hbrace, if_pos hbrace]
    exact bind_congr_left (hname p hp hn hlt)
  rw [if_neg hbrace, if_neg hbrace]
  show (if p.peekNext.kind = .identifier then _ else _ : Rule Node) p =
    (if p.peekNext.kind = .identifier then _ else _ : Rule Node) p
  by_cases hlabel : p.peekNext.kind = .identifier
  · rw [if_pos hlabel, if_pos hlabel]
    have hsignature := ((signatureBy_agree (n := n) hcall p.peek.lexeme).mono (Nat.le_succ k)).bind
      (signature_acts bodyStatementAt_acts _) fun f => .refl (do
        logDetail ("parsed labeled scope: " ++ p.peek.lexeme ++ " " ++ f.header.name)
        return .labeled p.peek.lexeme f : Rule Node)
    exact hsignature.next hp hn hlt heof
  · rw [if_neg hlabel, if_neg hlabel]

/-- A statement calls a scope only before a reserved word. -/
theorem statement_agree
    (hbody : Agree n (k + 1) (call unnamedScope) (unnamedScopeWith (bodyStatementAt n)))
    (hscope : ∀ p : Parser, p.Proper → p.room = n → p.ahead.length < k + 1 →
      p.peek.kind = .scopeKeyword →
      call scope p = keywordScope (expressionAt n) (bodyStatementAt n) p) :
    Agree n (k + 1) (body call statement) (statementAt n) := by
  rw [statementAt_eq]
  intro p hp hn hlt
  rw [statementWith_apply]
  have hlogged := p.reaches_logging
    (.debug parserStage .detail ("parsing statement at '" ++ p.peek.lexeme ++ "'"))
  show statementFrom call p.peek (p.logging _) = statementBy _ _ (p.logging _)
  generalize hrest : p.logging _ = q at hlogged
  have hpeek : q.peek = p.peek := by rw [← hrest]; rfl
  have hq : q.Proper := hp.of_reaches hlogged
  have hqn : q.room = n := by rw [← hrest]; exact hn
  have hqk : q.ahead.length < k + 1 := by rw [← hrest]; exact hlt
  rw [← hpeek, statementFrom, statementBy, inspect_apply]
  cases hk : q.peek.kind with
  | identifier =>
      by_cases hreturn : q.peek.lexeme = returnWord
      · simp only [if_pos hreturn]
        rw [returnStatement_apply, returnStatement_apply]
        exact (returnTail_agree hcall).next hq hqn hqk (Token.isEof_eq_false hk (by decide))
      · simp only [if_neg hreturn]
        exact identifierStatementBy_agree hcall hname hq hqn hqk hk
  | symbol =>
      by_cases hbrace : q.peek.isSymbol '{' = true
      · simp only [if_pos hbrace]
        exact bind_congr_left (hbody q hq hqn hqk)
      · simp only [if_neg hbrace]
  | scopeKeyword => exact hscope q hq hqn hqk hk
  | typeKeyword => exact declaration_agree hcall q hq hqn hqk
  | operatorKeyword => exact operatorStatementBy_agree hcall hq hqn hqk hk
  | literal => rfl
  | eof => rfl

end SameTokens

section Programs

variable {call : Calls}

theorem scope_of_keyword (hcall : Answers call k) {p : Parser} (hp : p.Proper)
    (hlt : p.ahead.length < k + 1) (hk : p.peek.kind = .scopeKeyword) :
    body call scope p = Rule.scope p := by
  rw [body, Rule.scope, inspect_apply, inspect_apply, hk]
  exact keywordScopeBy_agree hcall p hp rfl hlt

theorem scope_of_other (hcall : Answers call k) {p : Parser} (hp : p.Proper)
    (hlt : p.ahead.length < k + 1) (hk : p.peek.kind ≠ .scopeKeyword)
    (hname : Agree p.room (k + 1) (call namedScope) (namedScopeWith (bodyStatementAt p.room)))
    (hstatement : call statement p = Rule.statement p) : body call scope p = Rule.scope p := by
  rw [body, Rule.scope, inspect_apply, inspect_apply]
  cases hkind : p.peek.kind with
  | scopeKeyword => exact absurd hkind hk
  | identifier => exact identifierScopeBy_agree hcall hname hp rfl hlt hkind
  | _ => exact hstatement

theorem nodes_agree (hcall : Answers call k) (hscope : Agree n (k + 1) (call scope) Rule.scope)
    (hstatement : Agree n (k + 1) (call statement) Rule.statement) :
    Agree n (k + 1) (body call nodes) (many (fun _ => false) topLevel) := by
  refine manyRound_agree topLevel_advances ?_ (hcall nodes n)
  intro p hp hn hlt
  refine bind_congr_left ?_
  rw [inspect_apply, inspect_apply]
  cases p.peek.kind with
  | scopeKeyword => exact hscope p hp hn hlt
  | identifier => exact hscope p hp hn hlt
  | _ => exact hstatement p hp hn hlt

theorem program_agree (hnodes : Agree n k (call nodes) (many (fun _ => false) topLevel)) :
    Agree n k (body call program) forest :=
  .after (.logPhase _) fun _ => hnodes.bind (topLevel_acts.many _) fun _ => .refl _

end Programs

/-! ## Calls of calls -/

section Unrolling

variable {call : Calls} {c : Routine} {p : Parser}
  (hcall : ∀ c' q, q.Proper → weight c' q < weight c p → call c' q = c'.rule q)

include hcall

/-- What calls are answered rightly: all of them further on, … -/
theorem answers_further : Answers call p.ahead.length := by
  intro c' n q hq _ hlt
  refine hcall c' q hq ?_
  have := c'.rank_le q
  unfold weight
  omega

/-- … and those of lower rank at the same place. -/
theorem agree_of_rank (c' : Routine) (hrank : ∀ q, rank c' q < rank c p) :
    Agree n (p.ahead.length + 1) (call c') c'.rule := by
  intro q hq _ hlt
  refine hcall c' q hq ?_
  have := hrank q
  unfold weight
  omega

/-- **A routine whose calls are answered as the rules answer them does what its rule does**, where
only calls with fewer tokens ahead, or with a lower rank before as many, are answered so. -/
theorem body_of_calls (hp : p.Proper) : body call c p = c.rule p := by
  have hfurther : Answers call p.ahead.length := answers_further hcall
  have hlt : p.ahead.length < p.ahead.length + 1 := Nat.lt_succ_self _
  cases c with
  | program =>
      have hnodes := agree_of_rank (n := p.room) hcall nodes fun q => by simp [rank]
      exact program_agree hnodes p hp rfl hlt
  | nodes =>
      have hscope := agree_of_rank (n := p.room) hcall scope fun q => by
        simp only [rank]
        split <;> omega
      have hstatement := agree_of_rank (n := p.room) hcall statement fun q => by
        simp [rank]
      exact nodes_agree hfurther hscope hstatement p hp rfl hlt
  | statements =>
      have hitem := agree_of_rank (n := p.room) hcall statement fun q => by simp [rank]
      exact manyRound_agree statementAt_advances (hitem.leveled statementAt) hfurther.statements
        p hp rfl hlt
  | scope =>
      by_cases hk : p.peek.kind = .scopeKeyword
      · exact scope_of_keyword hfurther hp hlt hk
      · have hname := agree_of_rank (n := p.room) hcall namedScope fun q => by
          simp [rank, hk]
        have hstatement := agree_of_rank (n := p.room) hcall statement fun q => by
          simp [rank, hk]
        exact scope_of_other hfurther hp hlt hk
          (hname.leveled fun m => namedScopeWith (bodyStatementAt m)) (hstatement p hp rfl hlt)
  | statement =>
      have hname := agree_of_rank (n := p.room) hcall namedScope fun q => by simp [rank]
      have hbody := agree_of_rank (n := p.room) hcall unnamedScope fun q => by simp [rank]
      refine statement_agree hfurther (hname.leveled fun m => namedScopeWith (bodyStatementAt m))
        (hbody.leveled fun m => unnamedScopeWith (bodyStatementAt m)) ?_ p hp rfl hlt
      intro q hq hqn hqk hk
      rw [hcall scope q hq (by simp only [weight, rank, hk, if_true]; omega)]
      rw [rule, Rule.scope, inspect_apply, hk, hqn]
  | expression => exact expression_agree hfurther p hp rfl hlt
  | block what => exact block_agree hfurther what p hp rfl hlt
  | arguments what =>
      have hfirst := agree_of_rank (n := p.room) hcall expression fun q => by simp [rank]
      exact arguments_agree hfurther (hfirst.leveled expressionAt) what p hp rfl hlt
  | functionScope => exact functionScope_agree hfurther p hp rfl hlt
  | namedScope => exact namedScope_agree hfurther p hp rfl hlt
  | unnamedScope =>
      have hblock := agree_of_rank (n := p.room) hcall (block "unnamed scope") fun q => by
        simp [rank]
      exact unnamedScope_agree
        (hblock.leveled fun m => blockWith (bodyStatementAt m) "unnamed scope") p hp rfl hlt
  | members => exact members_agree hfurther p hp rfl hlt
  | functions =>
      rw [rule, inspect_apply]
      exact functions_agree hfurther p hp rfl hlt
  | operators left => exact operators_agree hfurther left p hp rfl hlt
  | furtherArguments what => exact furtherArguments_agree hfurther what p hp rfl hlt
  | furtherParameters => exact furtherParameters_agree hfurther p hp rfl hlt

end Unrolling

/-- **Calls come to an end.**  With more calls nested in each other than the weight says, it does
not matter how the innermost ones are answered: what comes out is what the rule gives. -/
theorem unrolled {c : Routine} {p : Parser} {depth : Nat} (hp : p.Proper) (h : weight c p < depth)
    (innermost : Calls) : (body^[depth] innermost) c p = c.rule p := by
  induction depth generalizing c p with
  | zero => cases h
  | succ depth ih =>
      rw [Function.iterate_succ_apply']
      exact body_of_calls (fun c' q hq hlt => ih hq (by omega)) hp

end Routine

end ScopeFront
