import ScopeFront.Proofs.Nesting
import ScopeFront.Proofs.Parser.Exactness

/-!
# The top level and bodies

What begins with a name is dispatched at two places, one for the top level and one for bodies, and
they look at different tokens in a different order.  They agree on everything that may stand in both
places, and at the first node that may not, the other one fails.  So tokens are read in braces as
they are read at the top level, one level deeper, as long as no node is labeled, and the other way
round as long as no statement needs a body.

* `Rule.Rejects` – a rule fails before certain tokens, with the ways such rules are put together;
* `Rule.statementAt_rejects_topLevel`, `Rule.topLevel_rejects_statement` – where each place fails;
* `Grammar.Many.of_good`, `Grammar.Many.exists_first` – all items, or the first one, by a property;
* `parseTokens_braces_agree` – tokens at the top level, and in braces.
-/

set_option autoImplicit false

namespace ScopeFront

namespace Rule

open Grammar

variable {α β : Type} {n : Nat}

/-! ## Rejection -/

/-- With `n` levels left, the rule fails wherever `ts` stands before it. -/
def Rejects (r : Rule α) (n : Nat) (ts : List Token) : Prop :=
  ∀ (p : Parser) (rest : List Token), p.Proper → p.room = n → p.ahead = ts ++ rest →
    ∃ q e, r p = (q, .error e)

namespace Rejects

variable {ts us : List Token}

theorem append {r : Rule α} (hr : r.Rejects n ts) (us : List Token) : r.Rejects n (ts ++ us) := by
  intro p rest hp hn ha
  rw [List.append_assoc] at ha
  exact hr p (us ++ rest) hp hn ha

/-- The first rule fails. -/
theorem bind {r : Rule α} {f : α → Rule β} (hr : r.Rejects n ts) : (r >>= f).Rejects n ts := by
  intro p rest hp hn ha
  obtain ⟨q, e, hq⟩ := hr p rest hp hn ha
  exact ⟨q, e, bind_apply_error hq⟩

/-- The second rule fails, behind what the first one accepts. -/
theorem andThen {r : Rule α} {f : α → Rule β} {a : α} (hr : r.Accepts n (fun _ => True) ts a)
    (hf : (f a).Rejects n us) : (r >>= f).Rejects n (ts ++ us) := by
  intro p rest hp hn ha
  rw [List.append_assoc] at ha
  obtain ⟨q, hq, hreach, hd⟩ := hr p (us ++ rest) hp hn ha trivial
  rw [bind_apply_ok hq]
  exact hf q rest (hp.of_reaches hreach) ((hreach.room_eq hd).trans hn) (hreach.ahead_eq ha)

theorem logged {r : Rule α} (hr : r.Rejects n ts) (message : String) :
    (do logDetail message; r).Rejects n ts := by
  intro p rest hp hn ha
  exact hr _ rest (hp.of_reaches (p.reaches_logging _)) hn ha

/-- A rule that does what `r` does before the tokens. -/
theorem congr {r s : Rule α} (hr : r.Rejects n ts)
    (h : ∀ (p : Parser) (rest : List Token), p.Proper → p.room = n → p.ahead = ts ++ rest →
      s p = r p) : s.Rejects n ts := by
  intro p rest hp hn ha
  rw [h p rest hp hn ha]
  exact hr p rest hp hn ha

/-- A rule that does what `r` does behind the token `t`. -/
theorem behind {r s : Rule α} {t : Token} (hr : r.Rejects n ts)
    (h : ∀ (p : Parser) (rest : List Token), p.Proper → p.room = n →
      p.ahead = t :: (ts ++ rest) → s p = r p.next) : s.Rejects n (t :: ts) := by
  intro p rest hp hn ha
  have hreach := Parser.reaches_next ha
  rw [h p rest hp hn ha]
  exact hr p.next rest (hp.of_reaches hreach) ((hreach.room_eq p.next_depth).trans hn)
    (by rw [Parser.next_ahead, ha]; rfl)

theorem nested {inner : Rule α} {close : Char} {context : String} (hi : inner.Rejects n ts) :
    (Rule.nested inner close context).Rejects (n + 1) ts := by
  intro p rest hp hn ha
  have hlt : p.depth < p.limit := by
    unfold Parser.room at hn
    omega
  obtain ⟨q, e, hq⟩ := hi p.deeper rest (hp.of_reaches p.reaches_deeper) (Parser.room_deeper hn) ha
  exact ⟨q, e, nested_apply_error hlt (closed_apply_error hq)⟩

/-- A repetition fails where an item does, however many items it has read before. -/
theorem many {item : Rule α} {items : Phrases α} {close : Token → Bool} {as : List α} {t : Token}
    (hadv : item.Advances n) (hi : ∀ {ts a}, items n ts a → item.Accepts n (fun _ => True) ts a)
    (hhead : ∀ {ts a}, items n ts a →
      ∃ t us, ts = t :: us ∧ t.isEof = false ∧ close t = false)
    (h : Many items n ts as) (ht : t.isEof = false) (hclose : close t = false)
    (hr : item.Rejects n (t :: us)) : (Rule.many close item).Rejects n (ts ++ t :: us) := by
  -- before a token that does not end the repetition, it makes a round
  have hround : ∀ {t : Token} {us : List Token}, t.isEof = false → close t = false →
      (do let a ← item; let as ← Rule.many close item; return a :: as : Rule (List α)).Rejects n
        (t :: us) → (Rule.many close item).Rejects n (t :: us) := by
    intro t us ht hclose hround
    refine hround.congr fun p rest hp hn ha => ?_
    rw [many_apply hadv hp hn, ← hp.peek_isEof, Parser.peek_of_ahead ha, ht, hclose]
    rfl
  induction h with
  | nil => exact hround ht hclose hr.bind
  | @cons m ts vs a as ha _ ih =>
      obtain ⟨u, ts, rfl, heof, hclose'⟩ := hhead ha
      rw [List.append_assoc]
      exact hround heof hclose' (andThen (hi ha) (ih hadv hi hhead hr hround).bind)

end Rejects

/-! ## Where the two places fail -/

/-- In a body, a name with another name behind it begins nothing. -/
theorem nameTail_rejects {expr : Rule Expr} {inner : Rule Node} {name : String} {x : Token}
    (hx : x.kind = .identifier) : (nameTail expr inner name).Rejects n [x] := by
  intro p rest _ _ ha
  have hsymbol : ∀ c, p.peek.isSymbol c = false := by
    intro c
    rw [Parser.peek_of_ahead ha]
    exact Token.isSymbol_of_kind (by simp [hx]) c
  rw [nameTail_apply]
  simp only [hsymbol]
  exact ⟨_, _, rfl⟩

theorem statementAt_rejects {ts : List Token}
    (h : (statementBy (expressionAt n) (bodyStatementAt n)).Rejects n ts) :
    (statementAt n).Rejects n ts := by
  intro p rest hp hn ha
  rw [statementAt_eq, statementWith_apply]
  exact h.logged _ p rest hp hn ha

theorem statementAt_rejects_label {label x : Token} (hlabel : PlainName label)
    (hx : x.kind = .identifier) : (statementAt n).Rejects n [label, x] := by
  have htail : (nameTail (expressionAt n) (bodyStatementAt n) label.lexeme).Rejects n [x] :=
    nameTail_rejects hx
  refine statementAt_rejects (htail.behind fun p rest hp _ ha => ?_)
  have hpeek := Parser.peek_of_ahead ha
  rw [statementBy_of_name _ _ (by rw [hpeek]; exact hlabel),
    identifierStatement_apply _ _ hp (by rw [hpeek]; exact hlabel.1), hpeek]

theorem topLevel_rejects {ts : List Token} (h : topLevelBy.Rejects n ts) :
    topLevel.Rejects n ts := by
  rw [topLevel_eq]
  exact h.bind

theorem topLevel_rejects_return {word : Token} (hw : word.Spells .identifier returnWord) :
    topLevel.Rejects n [word] := by
  refine topLevel_rejects ?_
  intro p rest hp _ ha
  have hpeek : p.peek = word := Parser.peek_of_ahead ha
  have hk : p.peek.kind = .identifier := by rw [hpeek]; exact hw.1
  rw [topLevelBy_of_identifier hk, identifierScope_apply _ hp hk, hpeek, if_pos hw.2]
  exact ⟨_, _, rfl⟩

/-- At the top level, a name begins nothing before a symbol other than `{`. -/
theorem labelTail_rejects {inner : Rule Node} {name : String} {t : Token} {c : Char}
    (ht : t.isSymbol c = true) (hc : c ≠ '{') : (labelTail inner name).Rejects n [t] := by
  intro p rest _ _ ha
  have hpeek : p.peek = t := Parser.peek_of_ahead ha
  have hk : t.kind ≠ .identifier := by simp [(Token.isSymbol_iff.1 ht).1]
  rw [labelTail_apply, hpeek, Token.isSymbol_ne ht hc, if_neg hk]
  exact ⟨_, _, rfl⟩

theorem topLevel_rejects_name {x t : Token} {c : Char} (hx : PlainName x)
    (ht : t.isSymbol c = true) (hc : c ≠ '{') : topLevel.Rejects n [x, t] := by
  have htail : (labelTail (bodyStatementAt n) x.lexeme).Rejects n [t] := labelTail_rejects ht hc
  refine topLevel_rejects (htail.behind fun p rest hp hn ha => ?_)
  have hpeek := Parser.peek_of_ahead ha
  have hk : p.peek.kind = .identifier := by rw [hpeek]; exact hx.1
  rw [topLevelBy_of_identifier hk, identifierScope_apply _ hp hk, hn, hpeek, if_neg hx.2]

/-- No statement that needs a body is read at the top level. -/
theorem topLevel_rejects_statement {ts : List Token} {node : Node} (h : Statement n ts node)
    (hbody : node.needsBody = true) :
    ∃ t us, ts = t :: us ∧ t.isEof = false ∧ topLevel.Rejects n (t :: us) := by
  obtain ⟨t, us, rfl, heof, _⟩ := h.head
  refine ⟨t, us, rfl, heof, ?_⟩
  cases h with
  | anywhere ha => rw [ha.needsBody] at hbody; cases hbody
  | returnNothing hw _ => exact (topLevel_rejects_return hw).append _
  | returnValue hw _ _ => exact (topLevel_rejects_return hw).append _
  | assignment hx heq _ _ => exact (topLevel_rejects_name hx heq (by decide)).append _
  | call hx ho _ _ _ => exact (topLevel_rejects_name hx ho (by decide)).append _

/-- No labeled scope is read in a body. -/
theorem statementAt_rejects_topLevel {ts : List Token} {node : Node} (h : TopLevel n ts node)
    (hlabeled : node.isLabeled = true) :
    ∃ t us, ts = t :: us ∧ (t.isEof = false ∧ t.isSymbol '}' = false) ∧
      (statementAt n).Rejects n (t :: us) := by
  cases h with
  | anywhere ha =>
      have hinner := (ha.fits Body.fits).2 node List.mem_cons_self
      rw [hinner.1] at hlabeled
      cases hlabeled
  | @labeled _ label _ f hlabel hs =>
      obtain ⟨x, us, rfl, hx⟩ := hs.head
      exact ⟨label, x :: us, rfl, Token.ends_nothing hlabel.1 (by decide) (by decide),
        (statementAt_rejects_label hlabel hx).append us⟩

/-- Behind the nodes of a program, a node that is rejected makes the whole fail. -/
theorem topLevels_rejects {ts us : List Token} {nodes : List Node} {t : Token}
    (h : Program n ts nodes) (ht : t.isEof = false) (hr : topLevel.Rejects n (t :: us)) :
    (many (fun _ => false) topLevel).Rejects n (ts ++ t :: us) := by
  refine .many topLevel_advances topLevel_accepts ?_ h ht rfl hr
  intro ts node hnode
  obtain ⟨t, us, rfl, ht⟩ := hnode.head
  exact ⟨t, us, rfl, ht, rfl⟩

/-- Behind the statements of a body, a statement that is rejected makes the whole fail. -/
theorem statements_rejects {ts us : List Token} {nodes : List Node} {t : Token}
    (h : Many Statement n ts nodes) (ht : t.isEof = false ∧ t.isSymbol '}' = false)
    (hr : (statementAt n).Rejects n (t :: us)) :
    (many (·.isSymbol '}') (statementAt n)).Rejects n (ts ++ t :: us) :=
  .many statementAt_advances statementAt_accepts Statement.head h ht.1
    ht.2 hr

/-- What is rejected in a body is rejected behind the brace that opens it. -/
theorem topLevel_rejects_braces {opening : Token} {ts : List Token}
    (ho : opening.isSymbol '{' = true)
    (h : (many (·.isSymbol '}') (statementAt n)).Rejects n ts) :
    topLevel.Rejects (n + 1) (opening :: ts) := by
  have hblock : ∀ what, (blockWith (bodyStatementAt (n + 1)) what).Rejects (n + 1)
      (opening :: ts) := by
    intro what
    have hinside : (nested (many (·.isSymbol '}') (statementAt n)) '}'
        ("to close " ++ what)).Rejects (n + 1) ts := h.nested
    refine hinside.behind fun p rest _ _ ha => ?_
    rw [blockWith_apply, Parser.peek_of_ahead ha, if_pos ho]
    rfl
  have hscope : (do
      let body ← unnamedScopeWith (bodyStatementAt (n + 1))
      return .unnamedScope body : Rule Node).Rejects (n + 1) (opening :: ts) :=
    (hblock _).bind.bind
  have hk : opening.kind = .symbol := (Token.isSymbol_iff.1 ho).1
  have hstatement : (statementAt (n + 1)).Rejects (n + 1) (opening :: ts) := by
    refine statementAt_rejects (hscope.congr fun p rest _ _ ha => ?_)
    rw [statementBy, inspect_apply, Parser.peek_of_ahead ha, hk]
    simp only [ho, if_true]
  refine topLevel_rejects (hstatement.congr fun p rest _ hn ha => ?_)
  have hpeek := Parser.peek_of_ahead ha
  rw [topLevelBy_of_other (by simp [hpeek, hk]) (by simp [hpeek, hk]), hn]

end Rule

/-! ## Items by a property -/

namespace Grammar

variable {α : Type} {item other : Phrases α} {bad : α → Bool} {n : Nat}
  (hgood : ∀ {ts a}, item n ts a → bad a = false → other n ts a)

include hgood

/-- Items that are all good are items of the other kind. -/
theorem Many.of_good {ts : List Token} {as : List α} (h : Many item n ts as)
    (has : ∀ a ∈ as, bad a = false) : Many other n ts as := by
  induction h with
  | nil => exact .nil
  | cons ha _ ih =>
      obtain ⟨hfirst, hlater⟩ := List.forall_mem_cons.1 has
      exact .cons (hgood ha hfirst) (ih hgood hlater)

/-- Where an item is bad, the items before the first such one are of the other kind. -/
theorem Many.exists_first {ts : List Token} {as : List α} (h : Many item n ts as)
    (has : ∃ a ∈ as, bad a = true) :
    ∃ before us behind others a, ts = before ++ (us ++ behind) ∧ Many other n before others ∧
      item n us a ∧ bad a = true := by
  induction h with
  | nil =>
      obtain ⟨a, ha, _⟩ := has
      cases ha
  | @cons n ts us a as ha _ ih =>
      cases hbad : bad a with
      | true => exact ⟨[], ts, us, [], a, rfl, .nil, ha, hbad⟩
      | false =>
          obtain ⟨b, hb, hbbad⟩ := has
          have hlater : b ∈ as := by
            rcases List.mem_cons.1 hb with rfl | hb
            · rw [hbad] at hbbad
              cases hbbad
            · exact hb
          obtain ⟨before, vs, behind, others, c, rfl, hothers, hc, hcbad⟩ :=
            ih hgood ⟨b, hlater, hbbad⟩
          exact ⟨ts ++ before, vs, behind, a :: others, c, (List.append_assoc ..).symm,
            .cons (hgood ha hbad) hothers, hc, hcbad⟩

omit hgood

/-- A node of the top level without a label may stand in a body too. -/
theorem TopLevel.statement {ts : List Token} {node : Node} (h : TopLevel n ts node)
    (hlabeled : node.isLabeled = false) : Statement n ts node := by
  cases h with
  | anywhere ha => exact .anywhere ha
  | labeled => cases hlabeled

/-- A statement that needs no body may stand at the top level too. -/
theorem Statement.topLevel {ts : List Token} {node : Node} (h : Statement n ts node)
    (hbody : node.needsBody = false) : TopLevel n ts node := by
  cases h with
  | anywhere ha => exact .anywhere ha
  | _ => cases hbody

/-- Statements in braces are a program of one node. -/
theorem Program.braces {opening closing : Token} {ts : List Token} {body : List Node}
    (ho : opening.isSymbol '{' = true) (h : Many Statement n ts body)
    (hc : closing.isSymbol '}' = true) :
    Program (n + 1) (opening :: (ts ++ [closing])) [.unnamedScope body] := by
  have hnode : TopLevel (n + 1) (opening :: (ts ++ [closing])) (.unnamedScope body) :=
    .anywhere (.unnamedScope (.braces ho h hc))
  have hprogram := Many.cons hnode .nil
  rwa [List.append_nil] at hprogram

/-- A program of one body without a name is statements in braces. -/
theorem Program.of_braces {opening closing : Token} {ts : List Token} {body : List Node}
    (h : Program (n + 1) (opening :: (ts ++ [closing])) [.unnamedScope body]) :
    Many Statement n ts body := by
  generalize htokens : opening :: (ts ++ [closing]) = tokens at h
  cases h with
  | @cons _ us vs _ _ hnode hrest =>
      cases hrest
      rw [List.append_nil] at htokens
      cases hnode with
      | anywhere ha =>
          cases ha with
          | scope hs => cases hs
          | unnamedScope hbody =>
              cases hbody with
              | braces _ hstatements _ =>
                  have hinside := (List.cons.inj htokens).2
                  obtain ⟨rfl, _⟩ := List.append_inj' hinside rfl
                  exact hstatements

end Grammar

/-! ## Sequences of tokens -/

/-- Where the nodes of the top level are rejected, the sequence is. -/
theorem parseTokens_of_rejects {limit : Nat} {tokens ts rest : List Token}
    (heof : ∀ t ∈ tokens, t.isEof = false) (htokens : tokens = ts ++ rest)
    (h : (Rule.many (fun _ => false) Rule.topLevel).Rejects limit ts) :
    ∃ e, (parseTokens limit tokens).2 = .error e := by
  obtain ⟨q, hreach, hd, hforest⟩ := Rule.forest_apply (Parser.ofTokens tokens limit)
  have hahead : q.ahead = ts ++ rest := by
    have hstart := hreach.ahead
    rw [Parser.ofTokens_ahead_of_forall heof, List.nil_append] at hstart
    rw [← hstart, htokens]
  obtain ⟨r, e, hr⟩ := h q rest ((Parser.ofTokens_proper tokens limit).of_reaches hreach)
    (hreach.room_eq hd) hahead
  obtain ⟨s, hs, _⟩ := hforest r _ hr
  exact ⟨e, by rw [parseTokens_snd, hs]⟩

section Braces

variable {limit : Nat} {tokens : List Token} {opening closing : Token}
  (heof : ∀ t ∈ tokens, t.isEof = false) (ho : opening.isSymbol '{' = true)
  (hc : closing.isSymbol '}' = true)

include heof ho hc

theorem isEof_braces : ∀ t ∈ opening :: (tokens ++ [closing]), t.isEof = false := by
  refine List.forall_mem_cons.2 ⟨Token.isEof_of_isSymbol ho,
    List.forall_mem_append.2 ⟨heof, ?_⟩⟩
  intro t ht
  rw [List.mem_singleton.1 ht]
  exact Token.isEof_of_isSymbol hc

/-- In braces, the first labeled scope is an error. -/
theorem parseTokens_braces_of_labeled {forest : List Node}
    (h : (parseTokens limit tokens).2 = .ok forest)
    (hlabeled : ∃ node ∈ forest, node.isLabeled = true) :
    ∃ e, (parseTokens (limit + 1) (opening :: (tokens ++ [closing]))).2 = .error e := by
  obtain ⟨before, us, behind, others, node, rfl, hothers, hnode, hbad⟩ :=
    (program_of_parseTokens h heof).exists_first Grammar.TopLevel.statement hlabeled
  obtain ⟨t, vs, rfl, ht, hr⟩ := Rule.statementAt_rejects_topLevel hnode hbad
  have hbraces : Rule.topLevel.Rejects (limit + 1) (opening :: (before ++ t :: vs)) :=
    Rule.topLevel_rejects_braces ho (Rule.statements_rejects hothers ht hr)
  have hprogram := Rule.topLevels_rejects .nil (Token.isEof_of_isSymbol ho) hbraces
  have htokens : opening :: (before ++ (t :: vs ++ behind) ++ [closing]) =
      [] ++ opening :: (before ++ t :: vs) ++ (behind ++ [closing]) := by simp
  exact parseTokens_of_rejects (isEof_braces heof ho hc) htokens hprogram

omit ho hc in
/-- At the top level, the first statement that needs a body is an error. -/
theorem parseTokens_of_needsBody {body : List Node}
    (h : Grammar.Many Grammar.Statement limit tokens body)
    (hbody : ∃ node ∈ body, node.needsBody = true) :
    ∃ e, (parseTokens limit tokens).2 = .error e := by
  obtain ⟨before, us, behind, others, node, rfl, hothers, hnode, hbad⟩ :=
    h.exists_first Grammar.Statement.topLevel hbody
  obtain ⟨t, vs, rfl, ht, hr⟩ := Rule.topLevel_rejects_statement hnode hbad
  have hprogram := Rule.topLevels_rejects hothers ht hr
  exact parseTokens_of_rejects heof (List.append_assoc ..).symm hprogram

end Braces

/-- **The top level and bodies agree.**  Tokens that are a program are, in braces and with one level
more, the program of one body with the same nodes, or an error where one of them is labeled.  Tokens
that are such a body in braces are a program by themselves, or an error where one of the nodes is an
assignment, a call or a `return`. -/
theorem parseTokens_braces_agree {tokens : List Token} {opening closing : Token}
    (heof : ∀ t ∈ tokens, t.isEof = false) (ho : opening.isSymbol '{' = true)
    (hc : closing.isSymbol '}' = true) (limit : Nat) :
    (∀ forest, (parseTokens limit tokens).2 = .ok forest →
      ((∀ node ∈ forest, node.isLabeled = false) →
        (parseTokens (limit + 1) (opening :: (tokens ++ [closing]))).2 =
          .ok [.unnamedScope forest]) ∧
      ((∃ node ∈ forest, node.isLabeled = true) →
        ∃ e, (parseTokens (limit + 1) (opening :: (tokens ++ [closing]))).2 = .error e)) ∧
    ∀ body, (parseTokens (limit + 1) (opening :: (tokens ++ [closing]))).2 =
        .ok [.unnamedScope body] →
      ((∀ node ∈ body, node.needsBody = false) → (parseTokens limit tokens).2 = .ok body) ∧
      ((∃ node ∈ body, node.needsBody = true) →
        ∃ e, (parseTokens limit tokens).2 = .error e) := by
  constructor
  · intro forest hforest
    refine ⟨?_, parseTokens_braces_of_labeled heof ho hc hforest⟩
    intro hlabeled
    have hstatements : Grammar.Many Grammar.Statement limit tokens forest :=
      (program_of_parseTokens hforest heof).of_good Grammar.TopLevel.statement hlabeled
    exact parseTokens_of_program (.braces ho hstatements hc) (isEof_braces heof ho hc)
  · intro body hbody
    have hstatements : Grammar.Many Grammar.Statement limit tokens body :=
      (program_of_parseTokens hbody (isEof_braces heof ho hc)).of_braces
    refine ⟨?_, parseTokens_of_needsBody heof hstatements⟩
    intro hneeds
    exact parseTokens_of_program (hstatements.of_good Grammar.Statement.topLevel hneeds) heof

/-- A named scope is read alike in both places; a labeled one only at the top level, and a call only
in braces. -/
theorem parseTokens_braces_agree_scopes :
    let word (name : String) : Token := ⟨.identifier, name, .start⟩
    let mark (symbol : String) : Token := ⟨.symbol, symbol, .start⟩
    let named := [word "f", mark "\x7b", mark "\x7d"]
    let labeled := [word "scope", word "f", mark "\x7b", mark "\x7d"]
    let call := [word "f", mark "(", mark ")", mark ";"]
    let braces (tokens : List Token) := mark "\x7b" :: (tokens ++ [mark "\x7d"])
    (parseTokens 1 named).2 = .ok [.namedScope "f" []] ∧
      (parseTokens 2 (braces named)).2 = .ok [.unnamedScope [.namedScope "f" []]] ∧
      (parseTokens 1 labeled).2 = .ok [.labeled "scope" (.mk ⟨"f", none, none⟩ [])] ∧
      (∃ e, (parseTokens 2 (braces labeled)).2 = .error e) ∧
      (parseTokens 2 (braces call)).2 = .ok [.unnamedScope [.call "f" []]] ∧
      ∃ e, (parseTokens 1 call).2 = .error e := by
  intro word mark named labeled call braces
  have hnamed : (parseTokens 1 named).2 = .ok [.namedScope "f" []] := rfl
  have hlabeled : (parseTokens 1 labeled).2 =
      .ok [.labeled "scope" (.mk ⟨"f", none, none⟩ [])] := rfl
  have hcall : (parseTokens 2 (braces call)).2 = .ok [.unnamedScope [.call "f" []]] := rfl
  have hagree := fun tokens heof =>
    @parseTokens_braces_agree tokens (mark "\x7b") (mark "\x7d") heof (by decide) (by decide) 1
  exact ⟨hnamed, ((hagree named (by decide)).1 _ hnamed).1 (by decide), hlabeled,
    ((hagree labeled (by decide)).1 _ hlabeled).2 ⟨_, List.mem_cons_self, rfl⟩, hcall,
    ((hagree call (by decide)).2 _ hcall).2 ⟨_, List.mem_cons_self, rfl⟩⟩

end ScopeFront
