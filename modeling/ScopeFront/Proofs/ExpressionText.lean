import ScopeFront.Proofs.Concatenation
import ScopeFront.Proofs.Lexer.Rejoining
import ScopeFront.Proofs.Parser.Dispatch
import ScopeFront.Proofs.Printer
import ScopeFront.Proofs.TreeView

/-!
# The text of an expression

The text of an expression has parentheses around every operation.  The expression is read back from
it, and each operation inside another one opens a level: a limit is enough exactly when it is not
below the height of the expression.

* `Shown` – the tokens of the text of an expression;
* `lexFrom_text` – the text is read as such tokens;
* `Shown.primary`, `Shown.rejects` – the levels that they open;
* `expression_text` – an expression is read back from its text.
-/

set_option autoImplicit false

namespace ScopeFront

open Text

/-- The tokens of the text of an expression. -/
inductive Shown : Expr → List Token → Prop
  | identifier {t : Token} : t.kind = .identifier → Shown (.identifier t.lexeme) [t]
  | literal {t : Token} : t.kind = .literal → Shown (.literal t.lexeme) [t]
  | binary {left right : Expr} {op : BinaryOp} {opening sign closing : Token}
    {ts us : List Token} :
    opening.isSymbol '(' → Shown left ts → sign.Spells .symbol op.symbol → Shown right us →
    closing.isSymbol ')' →
    Shown (.binary left op right) (opening :: (ts ++ sign :: us ++ [closing]))

/-! ## Reading the text -/

/-- A text in a category without reserved words is not reserved. -/
theorem reserved?_of_ofText {text : String} {kind : TokenKind} (h : TokenKind.ofText text = kind)
    (hkind : ¬ Reserved kind text) : TokenKind.reserved? text = none := by
  have hspec := reserved?_spec text
  unfold TokenKind.ofText at h
  cases hr : TokenKind.reserved? text with
  | none => rfl
  | some group =>
      rw [hr] at h hspec
      obtain rfl : group = kind := h
      exact absurd hspec hkind

theorem fits_of_ofText_identifier {text : String} (h : TokenKind.ofText text = .identifier)
    {rest : List Char} (hrest : Ends continuesWord rest) : Fits .word text.toList rest := by
  have hnone := reserved?_of_ofText h id
  unfold TokenKind.ofText at h
  rw [hnone] at h
  cases htext : text.toList with
  | nil => simp [htext] at h
  | cons c cs =>
      simp only [htext] at h
      split at h
      · rename_i hword
        obtain ⟨hstart, hgo⟩ := Bool.and_eq_true_iff.1 hword
        exact .word hstart (List.all_eq_true.1 hgo) hrest
      · split at h <;> cases h

theorem fits_of_ofText_literal {text : String} (h : TokenKind.ofText text = .literal)
    {rest : List Char} (hrest : Ends Char.isDigit rest) : Fits .number text.toList rest := by
  have hnone := reserved?_of_ofText h id
  unfold TokenKind.ofText at h
  rw [hnone] at h
  cases htext : text.toList with
  | nil => simp [htext] at h
  | cons c cs =>
      simp only [htext] at h
      split at h
      · cases h
      · split at h
        · rename_i hdigits
          exact .number (List.all_eq_true.1 hdigits) hrest
        · cases h

/-- What may stand behind an expression in the text of a larger one: nothing, a blank or a closing
parenthesis. -/
def Closes (rest : List Char) : Prop := ∀ c, rest.head? = some c → c = ' ' ∨ c = ')'

namespace Closes

variable {rest : List Char} (h : Closes rest)

include h

theorem ends {p : Char → Bool} (hblank : p ' ' = false) (hclose : p ')' = false) :
    Ends p rest := by
  intro c hc
  rcases h c hc with rfl | rfl
  · exact hblank
  · exact hclose

theorem separate {kind : SegmentKind} {text : List Char} (htoken : kind.isToken = true)
    (hfits : Fits kind text rest) : Separate kind text rest where
  token := htoken
  fits := hfits
  word := fun _ => h.ends (by decide) (by decide)
  slash := by
    intro _ c hc
    rcases h c hc with rfl | rfl <;> decide

end Closes

theorem separate_symbol {c : Char} (hsymbol : isSymbolChar c = true) (hslash : c ≠ '/')
    (rest : List Char) : Separate .symbol [c] rest where
  token := rfl
  fits := .symbol hsymbol
  word := nofun
  slash := by
    intro htext
    exact absurd (List.cons.inj htext).1 hslash

theorem isSymbol_ofText {c : Char} (hsymbol : isSymbolChar c = true) (place : Span) :
    (⟨.ofText (String.ofList [c]), String.ofList [c], place⟩ : Token).isSymbol c = true := by
  have hfits : Fits .symbol [c] [] := .symbol hsymbol
  rw [Token.isSymbol_iff, String.singleton_eq_ofList]
  exact ⟨ofText_symbol hfits, rfl⟩

theorem BinaryOp.isLexeme_symbol (op : BinaryOp) : IsLexeme op.symbol.toList := by
  cases op with
  | add => exact ⟨.symbol, [], rfl, .symbol (by decide)⟩
  | sub => exact ⟨.symbol, [], rfl, .symbol (by decide)⟩
  | mul => exact ⟨.symbol, [], rfl, .symbol (by decide)⟩
  | div => exact ⟨.symbol, [], rfl, .symbol (by decide)⟩

theorem BinaryOp.ofText_symbol (op : BinaryOp) : TokenKind.ofText op.symbol = .symbol := by
  cases op <;> decide

theorem Expr.toList_text_binary (left : Expr) (op : BinaryOp) (right : Expr) (rest : List Char) :
    (binary left op right).text.toList ++ rest =
      ['('] ++ (left.text.toList ++ ' ' :: (op.symbol.toList ++ ' ' ::
        (right.text.toList ++ ([')'] ++ rest)))) := by
  simp [text]

/-- The text of an expression is read as its tokens, and what stands behind it is read by itself. -/
theorem lexFrom_text (policy : UnmatchedPolicy) {e : Expr} (he : e.Spelled) (place : Span)
    {rest : List Char} (hrest : Closes rest) :
    ∃ ts place', Shown e ts ∧ lexFrom policy place (e.text.toList ++ rest) =
      (lexFrom policy place' rest).map (ts ++ ·) := by
  induction e generalizing place rest with
  | identifier name =>
      have hname := hrest.separate rfl
        (fits_of_ofText_identifier he (hrest.ends (by decide) (by decide)))
      have hread := hname.lexFrom policy place
      rw [String.ofList_toList, he] at hread
      exact ⟨_, _, .identifier (t := ⟨.identifier, name, place⟩) rfl, hread⟩
  | literal digits =>
      have hdigits := hrest.separate rfl
        (fits_of_ofText_literal he (hrest.ends (by decide) (by decide)))
      have hread := hdigits.lexFrom policy place
      rw [String.ofList_toList, he] at hread
      exact ⟨_, _, .literal (t := ⟨.literal, digits, place⟩) rfl, hread⟩
  | binary left op right ihl ihr =>
      have hopen := separate_symbol (c := '(') (by decide) (by decide)
      have hclose := separate_symbol (c := ')') (by decide) (by decide)
      have hblank : ∀ later, Closes (' ' :: later) :=
        fun later c hc => .inl (Option.some.inj hc).symm
      have hparenthesis : Closes ([')'] ++ rest) := fun c hc => .inr (Option.some.inj hc).symm
      rw [Expr.toList_text_binary, (hopen _).lexFrom]
      obtain ⟨ts, place₁, hts, hleft⟩ := ihl he.1 (place.after ['(']) (hblank _)
      rw [hleft, lexFrom_blank (by decide), lexFrom_before_blank policy _ op.isLexeme_symbol,
        String.ofList_toList, op.ofText_symbol]
      have hsign : (⟨.symbol, op.symbol, place₁.step ' '⟩ : Token).Spells .symbol op.symbol :=
        ⟨rfl, rfl⟩
      obtain ⟨us, place₂, hus, hright⟩ := ihr he.2
        ((place₁.step ' ').after (op.symbol.toList ++ [' '])) hparenthesis
      rw [hright, (hclose _).lexFrom]
      refine ⟨_, place₂.after [')'], .binary (isSymbol_ofText (by decide) place) hts hsign hus
        (isSymbol_ofText (by decide) place₂), ?_⟩
      cases lexFrom policy (place₂.after [')']) rest with
      | error e => rfl
      | ok tokens => simp [Except.map]

/-! ## Reading the tokens -/

/-- As many levels as the expression is high are enough for its tokens. -/
theorem Shown.primary {e : Expr} {ts : List Token} (h : Shown e ts) :
    Grammar.Primary e.height ts e := by
  induction h with
  | identifier hk => exact .identifier hk
  | literal hk => exact .literal hk
  | @binary left right op opening sign closing ts us ho _ hsign _ hc ihl ihr =>
      have htail : Grammar.OperatorTail Grammar.Primary left (max left.height right.height)
          (sign :: (us ++ [])) (.binary left op right) :=
        .cons hsign (ihr.mono (Nat.le_max_right _ _)) .nil
      rw [List.append_nil] at htail
      exact .parenthesized ho (.mk (ihl.mono (Nat.le_max_left _ _)) htail) hc

namespace Rule

variable {n : Nat} {follow : Token → Prop}

theorem operand_accepts {ts : List Token} {e : Expr} (h : Grammar.Primary n ts e) :
    (primary (innerExpressionAt n)).Accepts n follow ts e := by
  refine primary_accepts (fun m hm => ?_) h
  subst hm
  exact expressionAt_accepts

theorem Rejects.nested_of_zero {α : Type} (inner : Rule α) (close : Char) (context : String)
    (ts : List Token) : (Rule.nested inner close context).Rejects 0 ts := by
  intro p rest _ hn _
  have hle : p.limit ≤ p.depth := Nat.le_of_sub_eq_zero hn
  exact ⟨_, _, bind_apply_error (enterNested_of_le hle)⟩

section Operands

variable {ts us : List Token}

theorem expressionAt_rejects_left (h : (primary (innerExpressionAt n)).Rejects n ts)
    (us : List Token) : (expressionAt n).Rejects n (ts ++ us) := by
  rw [expressionAt_eq]
  exact h.bind.append us

theorem expressionAt_rejects_right {left : Expr} {op : BinaryOp} {sign : Token}
    (hleft : Grammar.Primary n ts left) (hsign : sign.Spells .symbol op.symbol)
    (h : (primary (innerExpressionAt n)).Rejects n us) :
    (expressionAt n).Rejects n (ts ++ sign :: us) := by
  have hround : (do
      let right ← primary (innerExpressionAt n)
      operatorTail (primary (innerExpressionAt n)) (.binary left op right)).Rejects n us := h.bind
  rw [expressionAt_eq]
  refine Rejects.andThen (operand_accepts hleft) (hround.behind fun p rest hp hroom ha => ?_)
  show operatorTail _ left p = _
  rw [operatorTail_apply operand_advances left hp hroom, Parser.peek_of_ahead ha,
    operatorOf?_eq_some.2 hsign]

end Operands

end Rule

/-- With fewer levels than the expression is high, its tokens are not read.  The first level too
many may be in the left operand, or in the right one behind a left one that is read. -/
theorem Shown.rejects {e : Expr} {ts : List Token} (h : Shown e ts) {n : Nat}
    (hn : n < e.height) : (Rule.primary (Rule.innerExpressionAt n)).Rejects n ts := by
  induction h generalizing n with
  | identifier _ => exact absurd hn (Nat.not_lt_zero n)
  | literal _ => exact absurd hn (Nat.not_lt_zero n)
  | @binary left right op opening sign closing ts us ho hleft hsign _ _ ihl ihr =>
      have hinside : (Rule.nested (Rule.innerExpressionAt n) ')' "to close parenthesis").Rejects n
          (ts ++ sign :: us ++ [closing]) := by
        cases n with
        | zero => exact .nested_of_zero _ _ _ _
        | succ n =>
            refine Rule.Rejects.nested (Rule.Rejects.append ?_ [closing])
            by_cases hl : n < left.height
            · exact Rule.expressionAt_rejects_left (ihl hl) (sign :: us)
            · have hr : n < right.height := by
                rw [Expr.height] at hn
                omega
              have hread := hleft.primary.mono (Nat.le_of_not_lt hl)
              exact Rule.expressionAt_rejects_right hread hsign (ihr hr)
      refine hinside.behind fun p rest _ _ ha => ?_
      unfold Rule.primary
      rw [Rule.matchSymbol_bind, Parser.peek_of_ahead ha, if_pos ho]
      rfl

/-- Where a run fails, and the same run with a higher limit does not, it went too deep. -/
theorem Mirrored.tooDeep_of_ok {α : Type} {g : Span → Span} {m : Nat} {s : Rule α}
    {p p' q q' : Parser} {e : ParseError} {a : α} (h : Mirrored g m s p (q, .error e))
    (hp' : p'.Proper) (hm : p'.room = m) (ha : ∀ k, p.Alike g k p') (hok : s p' = (q', .ok a)) :
    ∃ found, e = .tooDeep found p.limit := by
  cases h with
  | refused _ _ _ hrun =>
      obtain ⟨r, hr, _⟩ := hrun p' hp' hm (ha _)
      rw [hok] at hr
      cases hr
  | tooDeep => exact ⟨_, rfl⟩

theorem Parser.alike_raised (p : Parser) (more k : Nat) :
    p.Alike id k { p with limit := p.limit + more } where
  window := (Token.map_relocate_id _).symm
  depth := rfl
  limit := Nat.le_add_right _ _

section Runs

variable {e : Expr} {ts : List Token} {p : Parser} (h : Shown e ts) (hp : p.Proper)
  (ha : p.ahead = ts)

include h hp ha

theorem Shown.expression_ok (hn : e.height ≤ p.room) :
    ∃ q, Rule.expression p = (q, .ok e) ∧ q.peek.isEof = true := by
  have hexpression := Grammar.Expression.of_primary (h.primary.mono hn)
  have hahead : p.ahead = ts ++ [] := by rw [ha, List.append_nil]
  have hstop : Rule.operatorOf? p.stop = none := by
    unfold Rule.operatorOf?
    rw [beq_iff_eq.1 hp.stop]
    rfl
  obtain ⟨q, hq, hreach, _⟩ := Rule.expressionAt_accepts hexpression p [] hp rfl hahead hstop
  refine ⟨q, hq, ?_⟩
  rw [(hp.of_reaches hreach).peek_isEof]
  exact List.isEmpty_iff.2 (hreach.ahead_eq hahead)

theorem Shown.expression_tooDeep (hn : p.room < e.height) :
    ∃ q found, Rule.expression p = (q, .error (.tooDeep found p.limit)) := by
  have hrejects := Rule.expressionAt_rejects_left (h.rejects hn) []
  obtain ⟨q, err, herr⟩ := hrejects p [] hp rfl (by simp [ha])
  -- with enough levels the same tokens are read, so the error is about the levels
  let p' : Parser := { p with limit := p.limit + (p.depth + e.height) }
  have hle : p.room ≤ p'.room := Nat.sub_le_sub_right (Nat.le_add_right _ _) _
  have henough : e.height ≤ p'.room := by
    show e.height ≤ p.limit + (p.depth + e.height) - p.depth
    omega
  have hp' : p'.Proper := ⟨hp.stop, hp.ahead⟩
  obtain ⟨q', hq', _⟩ := h.expression_ok hp' ha henough
  have hmirror := Rule.expressionAt_mirrors (g := id) hle p hp rfl
  rw [herr] at hmirror
  obtain ⟨found, rfl⟩ := hmirror.tooDeep_of_ok hp' rfl (p.alike_raised _) hq'
  exact ⟨q, found, herr⟩

end Runs

/-! ## Source texts -/

/-- **An expression is read back from its text.**  The text can be read whatever is done with stray
characters.  If the limit is not below the height of the expression, all of the tokens are read as
this expression, and otherwise a level too many is reported. -/
theorem expression_text {e : Expr} (he : e.Spelled) (policy : UnmatchedPolicy) (limit : Nat) :
    ∃ tokens, (tokenize policy e.text).2 = .ok tokens ∧
      (e.height ≤ limit → ∃ q, Rule.expression (.ofTokens tokens limit) = (q, .ok e) ∧
        q.peek.isEof = true) ∧
      (limit < e.height → ∃ q found,
        Rule.expression (.ofTokens tokens limit) = (q, .error (.tooDeep found limit))) := by
  have hnothing : Closes [] := nofun
  obtain ⟨ts, place, hts, hread⟩ := lexFrom_text policy he .start hnothing
  rw [List.append_nil, ← tokenize_snd, lexFrom_nil] at hread
  obtain ⟨ts', hproper, hends⟩ := (tokenize_emits hread).ends
  obtain ⟨rfl, _⟩ := List.append_inj' hends rfl
  have hp := Parser.ofTokens_proper (ts ++ [Token.eof place]) limit
  have ha : (Parser.ofTokens (ts ++ [Token.eof place]) limit).ahead = ts :=
    (Parser.ofTokens_append_stop hproper rfl limit).1
  exact ⟨_, hread, hts.expression_ok hp ha, hts.expression_tooDeep hp ha⟩

/-- The text `((a + 1) / b)` has two levels: it is read back with this limit, not with a lower
one. -/
theorem expression_text_quotient :
    let e : Expr := .binary (.binary (.identifier "a") .add (.literal "1")) .div (.identifier "b")
    e.text = "((a + 1) / b)" ∧ e.Spelled ∧
      (∃ tokens q, (tokenize .reject e.text).2 = .ok tokens ∧
        Rule.expression (.ofTokens tokens 2) = (q, .ok e) ∧ q.peek.isEof = true) ∧
      ∃ tokens q found, (tokenize .skip e.text).2 = .ok tokens ∧
        Rule.expression (.ofTokens tokens 1) = (q, .error (.tooDeep found 1)) := by
  intro e
  have hspelled : e.Spelled := by
    refine ⟨⟨?_, ?_⟩, ?_⟩ <;> unfold Expr.Spelled <;> decide
  obtain ⟨tokens, hread, hok, _⟩ := expression_text hspelled .reject 2
  obtain ⟨q, hq, hend⟩ := hok (by decide)
  obtain ⟨tokens', hread', _, hdeep⟩ := expression_text hspelled .skip 1
  obtain ⟨q', found, hq'⟩ := hdeep (by decide)
  exact ⟨by decide, hspelled, ⟨tokens, q, hread, hq, hend⟩, tokens', q', found, hread', hq'⟩

end ScopeFront
