import ScopeFront.Proofs.Parser.Steps

/-!
# What a rule accepts

A rule accepts a phrase when every run that finds the phrase before it succeeds, gives what the
phrase stands for, and stops right behind it at the depth it started from.  An expression or an
optional part ends only where the next token does not continue it, so acceptance is stated before
tokens of a kind.

* `Rule.Accepts` – a rule accepts a phrase before certain tokens;
* `Rule.Accepts.bind`, `Rule.Accepts.nested`, `Rule.Accepts.many`, … – how accepted phrases are put
  together.
-/

set_option autoImplicit false

namespace ScopeFront

namespace Rule

variable {α β : Type} {n : Nat}

/-- With `n` levels left, the rule reads `ts` as `a` wherever a token that satisfies `follow` comes
behind it. -/
def Accepts (r : Rule α) (n : Nat) (follow : Token → Prop) (ts : List Token) (a : α) : Prop :=
  ∀ (p : Parser) (rest : List Token), p.Proper → p.room = n → p.ahead = ts ++ rest →
    follow (rest.headD p.stop) → ∃ q, r p = (q, .ok a) ∧ p.Reaches ts q ∧ q.depth = p.depth

theorem headD_append (ts us : List Token) (t : Token) :
    (ts ++ us).headD t = ts.headD (us.headD t) := by
  cases ts <;> rfl

namespace Accepts

variable {follow : Token → Prop} {ts us : List Token} {a : α}

theorem before {follow' : Token → Prop} {r : Rule α} (hr : r.Accepts n follow ts a)
    (h : ∀ t, follow' t → follow t) : r.Accepts n follow' ts a :=
  fun p rest hp hn ha hfollow => hr p rest hp hn ha (h _ hfollow)

/-- Two rules in a row: what the second one reads, or what follows it, must suit the first. -/
theorem bind {before : Token → Prop} {r : Rule α} {f : α → Rule β} {b : β}
    (hr : r.Accepts n before ts a) (hf : (f a).Accepts n follow us b)
    (hbefore : ∀ t, follow t → before (us.headD t)) : (r >>= f).Accepts n follow (ts ++ us) b := by
  intro p rest hp hn ha hfollow
  rw [List.append_assoc] at ha
  obtain ⟨q, hq, hreach, hd⟩ := hr p (us ++ rest) hp hn ha
    (by rw [headD_append]; exact hbefore _ hfollow)
  rw [← hreach.stop] at hfollow
  obtain ⟨s, hs, hreach', hd'⟩ := hf q rest (hp.of_reaches hreach) ((hreach.room_eq hd).trans hn)
    (hreach.ahead_eq ha) hfollow
  exact ⟨s, by rw [bind_apply_ok hq, hs], hreach.trans hreach', hd'.trans hd⟩

theorem andThen {r : Rule α} {f : α → Rule β} {b : β} (hr : r.Accepts n (fun _ => True) ts a)
    (hf : (f a).Accepts n follow us b) : (r >>= f).Accepts n follow (ts ++ us) b :=
  hr.bind hf fun _ _ => trivial

/-- A second rule that reads nothing. -/
theorem finish {r : Rule α} {f : α → Rule β} {b : β} (hr : r.Accepts n follow ts a)
    (hf : (f a).Accepts n follow [] b) : (r >>= f).Accepts n follow ts b := by
  rw [← List.append_nil ts]
  exact hr.bind hf fun _ h => h

theorem pure (a : α) : (Pure.pure a : Rule α).Accepts n follow [] a :=
  fun p _ _ _ _ _ => ⟨p, rfl, .refl p, rfl⟩

theorem logged {r : Rule α} (hr : r.Accepts n follow ts a) (message : String) :
    (do logDetail message; r).Accepts n follow ts a := by
  intro p rest hp hn ha hfollow
  have h := p.reaches_logging (.debug parserStage .detail message)
  obtain ⟨q, hq, hreach, hd⟩ := hr _ rest (hp.of_reaches h) hn ha hfollow
  exact ⟨q, hq, h.trans hreach, hd⟩

/-- A rule that reads one token. -/
theorem single {r : Rule α} {t : Token} (h : ∀ p : Parser, p.peek = t → r p = (p.next, .ok a)) :
    r.Accepts n follow [t] a := by
  intro p rest hp hn ha _
  exact ⟨p.next, h p (Parser.peek_of_ahead ha), Parser.reaches_next ha, p.next_depth⟩

theorem expectSymbol {c : Char} {t : Token} (h : t.isSymbol c = true) (context : String) :
    (Rule.expectSymbol c context).Accepts n follow [t] t := by
  refine single fun p hp => ?_
  rw [expectSymbol_apply, hp, if_pos h]

theorem expectIdentifier {t : Token} (h : t.kind = .identifier) (what : String) :
    (Rule.expectIdentifier what).Accepts n follow [t] t.lexeme := by
  refine single fun p hp => ?_
  rw [expectIdentifier_apply, hp, if_pos h]

theorem expectType {t : Token} {type : TypeKeyword} (h : t.Spells .typeKeyword type.word)
    (what : String) : (Rule.expectType what).Accepts n follow [t] type := by
  refine single fun p hp => ?_
  rw [expectType_apply, hp, typeOf?_eq_some.2 h]

/-- A rule that does what `r` does before the phrase. -/
theorem congr {r s : Rule α} (hr : r.Accepts n follow ts a)
    (h : ∀ (p : Parser) (t : Token), p.Proper → p.room = n → follow t → p.peek = ts.headD t →
      s p = r p) :
    s.Accepts n follow ts a := by
  intro p rest hp hn ha hfollow
  have hpeek : p.peek = ts.headD (rest.headD p.stop) := by
    rw [Parser.peek, ha, headD_append]
  rw [h p _ hp hn hfollow hpeek]
  exact hr p rest hp hn ha hfollow

/-- A rule that does what `r` does behind the token `t`. -/
theorem behind {r s : Rule α} {t : Token} (hr : r.Accepts n follow ts a)
    (h : ∀ (p : Parser) (rest : List Token), p.Proper → p.room = n →
      p.ahead = t :: (ts ++ rest) → s p = r p.next) : s.Accepts n follow (t :: ts) a := by
  intro p rest hp hn ha hfollow
  have hreach := Parser.reaches_next ha
  have hahead : p.next.ahead = ts ++ rest := by rw [Parser.next_ahead, ha]; rfl
  rw [← hreach.stop] at hfollow
  obtain ⟨q, hq, hreach', hd⟩ := hr p.next rest (hp.of_reaches hreach)
    ((hreach.room_eq p.next_depth).trans hn) hahead hfollow
  exact ⟨q, by rw [h p rest hp hn ha, hq], hreach.trans hreach', hd.trans p.next_depth⟩

theorem ifSymbol {c : Char} {t : Token} {r s : Rule α} (ht : t.isSymbol c = true)
    (hr : r.Accepts n follow ts a) :
    (do if ← matchSymbol c then r else s : Rule α).Accepts n follow (t :: ts) a := by
  refine hr.behind fun p rest _ _ ha => ?_
  rw [matchSymbol_bind, Parser.peek_of_ahead ha, if_pos ht]
  rfl

theorem ifNotSymbol {c : Char} {r s : Rule α} (hs : s.Accepts n follow ts a)
    (hc : ∀ t, follow t → (ts.headD t).isSymbol c = false) :
    (do if ← matchSymbol c then r else s : Rule α).Accepts n follow ts a := by
  refine hs.congr fun p t _ _ ht hpeek => ?_
  rw [matchSymbol_bind, hpeek, hc t ht]
  rfl

theorem nested {inner : Rule α} {close : Char} {context : String} {c : Token}
    (hi : inner.Accepts n (·.isSymbol close = true) ts a) (hc : c.isSymbol close = true) :
    (Rule.nested inner close context).Accepts (n + 1) follow (ts ++ [c]) a := by
  have hclosed : (closed inner close context).Accepts n follow (ts ++ [c]) a :=
    hi.bind ((expectSymbol hc context).finish (pure a)) fun _ _ => hc
  intro p rest hp hn ha hfollow
  have hlt : p.depth < p.limit := by
    unfold Parser.room at hn
    omega
  obtain ⟨q, hq, hreach, hd⟩ := hclosed p.deeper rest (hp.of_reaches p.reaches_deeper)
    (Parser.room_deeper hn) ha hfollow
  refine ⟨q.shallower, ?_, hreach.shallower hd⟩
  rw [nested_apply_of_lt inner close context hlt, hq]

section Loops

variable {item : Rule α} {items : Phrases α} (hadv : item.Advances n)

include hadv

/-- A repetition of items that do not begin where it would stop. -/
theorem many {close : Token → Bool} {as : List α}
    (hi : ∀ {ts a}, items n ts a → item.Accepts n (fun _ => True) ts a)
    (hhead : ∀ {ts a}, items n ts a →
      ∃ t us, ts = t :: us ∧ t.isEof = false ∧ close t = false)
    (h : Grammar.Many items n ts as) :
    (Rule.many close item).Accepts n (fun t => (t.isEof || close t) = true) ts as := by
  induction h with
  | nil =>
      refine (pure []).congr fun p t hp hn hfollow hpeek => ?_
      rw [many_apply hadv hp hn, if_pos (by rw [← hp.peek_isEof, hpeek]; exact hfollow)]
      rfl
  | @cons m ts us a as ha _ ih =>
      obtain ⟨t, ts, rfl, heof, hclose⟩ := hhead ha
      have hround : (do
          let a ← item
          let as ← Rule.many close item
          return a :: as).Accepts m (fun t => (t.isEof || close t) = true)
          (t :: ts ++ us) (a :: as) :=
        (hi ha).andThen ((ih hadv hi hhead).finish (Accepts.pure (a :: as)))
      refine hround.congr fun p t' hp hn _ hpeek => ?_
      have hpeek' : p.peek = t := hpeek
      rw [many_apply hadv hp hn, ← hp.peek_isEof, hpeek', heof, hclose]
      rfl

/-- Items up to a closing brace. -/
theorem manyInBraces {as : List α}
    (hi : ∀ {ts a}, items n ts a → item.Accepts n (fun _ => True) ts a)
    (hhead : ∀ {ts a}, items n ts a →
      ∃ t us, ts = t :: us ∧ t.isEof = false ∧ t.isSymbol '}' = false)
    (h : Grammar.Many items n ts as) :
    (Rule.many (·.isSymbol '}') item).Accepts n (·.isSymbol '}' = true) ts as :=
  (many hadv hi hhead h).before fun t ht => by rw [ht, Bool.or_true]

/-- What follows an item of a list, up to its end. -/
theorem commaTail (what : String) {close : Token} {as : List α}
    (hi : ∀ {ts a}, items n ts a →
      item.Accepts n (fun t => t.isSymbol ',' = true ∨ t.isSymbol ')' = true) ts a)
    (hclose : close.isSymbol ')' = true) (h : Grammar.CommaTail items n ts as) :
    (Rule.commaTail item what).Accepts n follow (ts ++ [close]) as := by
  induction h with
  | nil =>
      refine (pure []).behind fun p rest hp hn ha => ?_
      rw [commaTail_apply hadv what hp hn, Parser.peek_of_ahead ha,
        Token.isSymbol_ne hclose (by decide), hclose]
      rfl
  | @cons m comma ts us a as hc ha htail ih =>
      have hround : (do
          let a ← item
          let as ← Rule.commaTail item what
          return a :: as).Accepts m follow (ts ++ (us ++ [close])) (a :: as) := by
        refine (hi ha).bind ((ih hadv hi).finish (Accepts.pure (a :: as))) fun t _ => ?_
        cases htail with
        | nil => exact .inr hclose
        | cons hc _ _ => exact .inl hc
      rw [← List.append_assoc] at hround
      refine hround.behind fun p rest hp hn ha => ?_
      rw [commaTail_apply hadv what hp hn, Parser.peek_of_ahead ha, hc]
      rfl

/-- Items with commas between them, and the closing parenthesis. -/
theorem commaList (what : String) {close : Token} {as : List α}
    (hi : ∀ {ts a}, items n ts a →
      item.Accepts n (fun t => t.isSymbol ',' = true ∨ t.isSymbol ')' = true) ts a)
    (hhead : ∀ {ts a}, items n ts a → ∃ t us, ts = t :: us ∧ t.isSymbol ')' = false)
    (hclose : close.isSymbol ')' = true) (h : Grammar.CommaList items n ts as) :
    (Rule.commaList item what).Accepts n follow (ts ++ [close]) as := by
  cases h with
  | empty => exact ifSymbol hclose (pure [])
  | @items _ ts us a as ha htail =>
      have hlist : (do
          let a ← item
          let as ← Rule.commaTail item what
          return a :: as).Accepts n follow (ts ++ (us ++ [close])) (a :: as) := by
        refine (hi ha).bind ((commaTail hadv what hi hclose htail).finish
          (Accepts.pure (a :: as))) fun t _ => ?_
        cases htail with
        | nil => exact .inr hclose
        | cons hc _ _ => exact .inl hc
      rw [← List.append_assoc] at hlist
      obtain ⟨t, ts, rfl, ht⟩ := hhead ha
      exact ifNotSymbol hlist fun _ _ => ht

end Loops

section Operands

variable {operand : Rule Expr} {operands : Phrases Expr} (hadv : operand.Advances n)
  (ho : ∀ {ts e}, operands n ts e → operand.Accepts n (fun _ => True) ts e)

include hadv ho

/-- Operators with operands, up to a token that is no operator. -/
theorem operatorTail {left e : Expr} (h : Grammar.OperatorTail operands left n ts e) :
    (Rule.operatorTail operand left).Accepts n (operatorOf? · = none) ts e := by
  induction h with
  | nil =>
      refine (pure _).congr fun p t hp hn hfollow hpeek => ?_
      have hpeek' : p.peek = t := hpeek
      rw [operatorTail_apply hadv _ hp hn, hpeek', hfollow]
      rfl
  | @cons m left right e sign op ts us hsign hr _ ih =>
      have hround : (do
          let right ← operand
          Rule.operatorTail operand (.binary left op right)).Accepts m (operatorOf? · = none)
          (ts ++ us) e := (ho hr).andThen (ih hadv ho)
      refine hround.behind fun p rest hp hn ha => ?_
      rw [operatorTail_apply hadv _ hp hn, Parser.peek_of_ahead ha, operatorOf?_eq_some.2 hsign]

theorem chain {e : Expr} (h : Grammar.Chain operands n ts e) :
    (Rule.chain operand).Accepts n (operatorOf? · = none) ts e := by
  cases h with
  | mk hf ht => exact (ho hf).andThen (operatorTail hadv ho ht)

end Operands

end Accepts

end Rule

end ScopeFront
