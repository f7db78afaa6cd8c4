import Mathlib.Data.List.Chain
import ScopeFront.Proofs.Concatenation
import ScopeFront.Proofs.Nesting

/-!
# The word `return` as the name of a scope

At the top level `return` is neither the name of a scope nor a label, but behind a label any
identifier is taken as the name, the word `return` included.  Nowhere else in a program does
`return` directly follow another identifier, so the tokens show whether a scope has got this name.

* `Node.scopeNames` – the identifiers that introduce and name a scope;
* `Grammar.Parted` – tokens in which no name stands directly before the word `return`;
* `Grammar.Parted.join` – how such tokens are put together;
* `Grammar.Program.parted_iff` – the tokens of a program are parted unless it has a scope with the
  name `return`;
* `return_names_no_scope_iff` – the same for source texts.
-/

set_option autoImplicit false

namespace ScopeFront

/-- The identifiers that introduce and name a scope which no reserved word introduces. -/
def Node.scopeNames : Node → List String
  | .namedScope name _ => [name]
  | .labeled label f => [label, f.header.name]
  | _ => []

namespace Grammar

/-! ## Names before `return` -/

/-- The two tokens are not a name and the word `return` behind it. -/
def Apart (t u : Token) : Prop := PlainName t → ¬ u.Spells .identifier Rule.returnWord

theorem apart_of_left {t : Token} (h : t.kind ≠ .identifier) (u : Token) : Apart t u := by
  intro ht
  exact absurd ht.1 h

theorem apart_of_right (t : Token) {u : Token} (h : u.kind ≠ .identifier) : Apart t u := by
  intro _ hu
  exact h hu.1

/-- Nowhere a name stands directly before the word `return`. -/
def Parted (ts : List Token) : Prop := ts.IsChain Apart

namespace Parted

variable {ts us : List Token} {t : Token}

theorem nil : Parted [] := List.isChain_nil

theorem single (t : Token) : Parted [t] := List.isChain_singleton t

/-- Behind a token that is no identifier anything may follow, and before it anything may stand. -/
theorem join (hts : Parted ts) (ht : t.kind ≠ .identifier) (hus : Parted us) :
    Parted (ts ++ t :: us) := by
  have htail : Parted (t :: us) := List.IsChain.cons hus fun u _ => apart_of_left ht u
  refine List.IsChain.append hts htail ?_
  intro s _ u hu
  obtain rfl : t = u := by simpa using hu
  exact apart_of_right s ht

theorem cons (ht : t.kind ≠ .identifier) (hts : Parted ts) : Parted (t :: ts) :=
  join nil ht hts

end Parted

/-- The tokens end so that anything may follow them. -/
def Ended (ts : List Token) : Prop := ∀ us, Parted us → Parted (ts ++ us)

theorem Ended.append {ts us : List Token} (hts : Ended ts) (hus : Ended us) : Ended (ts ++ us) := by
  intro vs hvs
  rw [List.append_assoc]
  exact hts _ (hus vs hvs)

theorem kind_of_isSymbol {t : Token} {c : Char} (h : t.isSymbol c = true) :
    t.kind ≠ .identifier := by
  rw [(Token.isSymbol_iff.1 h).1]
  decide

theorem kind_of_spells {t : Token} {kind : TokenKind} {word : String} (h : t.Spells kind word)
    (hk : kind ≠ .identifier) : t.kind ≠ .identifier := by
  rw [h.1]
  exact hk

/-! ## Expressions and headers -/

section Repetition

variable {α : Type} {item : Phrases α} {n : Nat}

theorem Many.ended (hi : ∀ {ts a}, item n ts a → Ended ts) {ts : List Token} {as : List α}
    (h : Many item n ts as) : Ended ts := by
  induction h with
  | nil => exact fun _ hus => hus
  | cons ha _ ih => exact (hi ha).append (ih hi)

theorem CommaTail.parted (hi : ∀ {ts a}, item n ts a → Parted ts) {ts : List Token} {as : List α}
    (h : CommaTail item n ts as) {before : List Token} (hb : Parted before) :
    Parted (before ++ ts) := by
  induction h generalizing before with
  | nil => simpa using hb
  | @cons n comma ts us a as hc ha _ ih =>
      have hbefore := hb.join (kind_of_isSymbol hc) (hi ha)
      simpa using ih hi hbefore

theorem CommaList.parted (hi : ∀ {ts a}, item n ts a → Parted ts) {ts : List Token} {as : List α}
    (h : CommaList item n ts as) : Parted ts := by
  cases h with
  | empty => exact .nil
  | items ha has => exact has.parted hi (hi ha)

theorem OperatorTail.parted {operand : Phrases Expr} (ho : ∀ {ts e}, operand n ts e → Parted ts)
    {left e : Expr} {ts : List Token} (h : OperatorTail operand left n ts e)
    {before : List Token} (hb : Parted before) : Parted (before ++ ts) := by
  induction h generalizing before with
  | nil => simpa using hb
  | @cons n left right e sign op ts us hs hr _ ih =>
      have hbefore := hb.join (kind_of_spells hs (by decide)) (ho hr)
      simpa using ih ho hbefore

theorem Chain.parted {operand : Phrases Expr} (ho : ∀ {ts e}, operand n ts e → Parted ts)
    {ts : List Token} {e : Expr} (h : Chain operand n ts e) : Parted ts := by
  cases h with
  | mk hf ht => exact ht.parted ho (ho hf)

end Repetition

theorem Primary.parted {n : Nat} {ts : List Token} {e : Expr} (h : Primary n ts e) :
    Parted ts := by
  induction n generalizing ts e with
  | zero =>
      cases h with
      | identifier _ => exact .single _
      | literal _ => exact .single _
  | succ n ih =>
      cases h with
      | identifier _ => exact .single _
      | literal _ => exact .single _
      | parenthesized ho he hc =>
          exact .cons (kind_of_isSymbol ho) ((he.parted ih).join (kind_of_isSymbol hc) .nil)

theorem Expression.parted {n : Nat} {ts : List Token} {e : Expr} (h : Expression n ts e) :
    Parted ts :=
  Chain.parted Primary.parted h

theorem Parameter.parted {n : Nat} {ts : List Token} {d : TypedName} (h : Parameter n ts d) :
    Parted ts := by
  cases h with
  | mk ht _ => exact .cons (kind_of_spells ht (by decide)) (.single _)

theorem Parameters.parted {n : Nat} {ts : List Token} {ps : Option (List TypedName)}
    (h : Parameters n ts ps) {before : List Token} (hb : Parted before) :
    Parted (before ++ ts) := by
  cases h with
  | absent => simpa using hb
  | present ho hp hc =>
      exact hb.join (kind_of_isSymbol ho)
        ((hp.parted Parameter.parted).join (kind_of_isSymbol hc) .nil)

theorem ReturnType.parted {n : Nat} {ts : List Token} {type : Option TypeKeyword}
    (h : ReturnType n ts type) {before : List Token} (hb : Parted before) :
    Parted (before ++ ts) := by
  cases h with
  | absent => simpa using hb
  | present hc _ => exact hb.join (kind_of_isSymbol hc) (.single _)

theorem Heading.parted {n : Nat} {ts : List Token} {header : Header} (h : Heading n ts header) :
    Parted ts := by
  cases h with
  | mk _ hp ht => exact ht.parted (hp.parted (.single _))

theorem OptionalName.parted {n : Nat} {ts : List Token} {name : Option String}
    (h : OptionalName n ts name) : Parted ts := by
  cases h with
  | absent => exact .nil
  | present _ => exact .single _

theorem Member.ended {n : Nat} {ts : List Token} {d : TypedName} (h : Member n ts d) :
    Ended ts := by
  intro us hus
  cases h with
  | @mk _ t x _ _ ht _ hs =>
      exact .cons (kind_of_spells ht (by decide))
        (Parted.join (.single x) (kind_of_isSymbol hs) hus)

/-! ## Scopes and statements -/

/-- An expression up to the token that ends it. -/
theorem Expression.ended {n : Nat} {ts us : List Token} {e : Expr} {t : Token}
    (h : Expression n ts e) (ht : t.kind ≠ .identifier) (hus : Parted us) :
    Parted (ts ++ t :: us) :=
  (Expression.parted h).join ht hus

/-- Arguments in parentheses with a semicolon behind them. -/
theorem CommaList.ended {n : Nat} {opening closing semicolon : Token} {ts us : List Token}
    {arguments : List Expr} (ho : opening.isSymbol '(' = true)
    (h : CommaList Expression n ts arguments) (hc : closing.isSymbol ')' = true)
    (hs : semicolon.isSymbol ';' = true) {before : List Token} (hb : Parted before)
    (hus : Parted us) :
    Parted (before ++ opening :: (ts ++ closing :: semicolon :: us)) :=
  hb.join (kind_of_isSymbol ho) ((h.parted Expression.parted).join (kind_of_isSymbol hc)
    (.cons (kind_of_isSymbol hs) hus))

section Bodies

-- As for `Body.mono`, the induction over the levels stands once, for bodies.
variable {n : Nat} (hb : ∀ {ts body}, Body n ts body →
  ∀ {before us}, Parted before → Parted us → Parted (before ++ (ts ++ us)))

include hb

theorem Signature.ended {ts : List Token} {f : Function} (h : Signature n ts f) : Ended ts := by
  intro us hus
  cases h with
  | mk hh hbody =>
      rw [List.append_assoc]
      exact hb hbody hh.parted hus

theorem Method.ended {ts : List Token} {f : Function} (h : Method n ts f) : Ended ts := by
  intro us hus
  cases h with
  | mk hw hs => exact .cons (kind_of_spells hw (by decide)) (hs.ended hb us hus)

theorem KeywordScope.ended {ts : List Token} {node : Node} (h : KeywordScope n ts node) :
    Ended ts := by
  intro us hus
  cases h with
  | function hf => exact hf.ended hb us hus
  | forLoop hw ho he hc hbody =>
      simp only [List.cons_append, List.append_assoc]
      refine .cons (kind_of_spells hw (by decide)) (.cons (kind_of_isSymbol ho) ?_)
      exact Expression.ended he (kind_of_isSymbol hc) (hb hbody .nil hus)
  | struct hw hx ho hm hc =>
      simp only [List.cons_append, List.append_assoc]
      refine .cons (kind_of_spells hw (by decide)) (hx.parted.join (kind_of_isSymbol ho) ?_)
      exact hm.ended Member.ended _ (.cons (kind_of_isSymbol hc) hus)
  | implement hw hx ho hf hc =>
      simp only [List.cons_append, List.append_assoc]
      refine .cons (kind_of_spells hw (by decide)) (hx.parted.join (kind_of_isSymbol ho) ?_)
      exact hf.ended (Method.ended hb) _ (.cons (kind_of_isSymbol hc) hus)

theorem Anywhere.ended {ts : List Token} {node : Node} (h : Anywhere n ts node) : Ended ts := by
  intro us hus
  cases h with
  | scope hs => exact hs.ended hb us hus
  | namedScope _ hbody => exact hb hbody (.single _) hus
  | unnamedScope hbody => exact hb hbody .nil hus
  | declaration ht _ he hv hs =>
      simp only [List.cons_append, List.append_assoc]
      refine .cons (kind_of_spells ht (by decide))
        (Parted.join (.single _) (kind_of_isSymbol he) ?_)
      exact Expression.ended hv (kind_of_isSymbol hs) hus
  | operator hw ho ha hc hs =>
      simp only [List.cons_append, List.append_assoc]
      exact .cons (kind_of_spells hw (by decide)) (CommaList.ended ho ha hc hs .nil hus)

theorem Statement.ended {ts : List Token} {node : Node} (h : Statement n ts node) : Ended ts := by
  intro us hus
  cases h with
  | anywhere ha => exact ha.ended hb us hus
  | returnNothing _ hs => exact Parted.join (.single _) (kind_of_isSymbol hs) hus
  | returnValue hw hv hs =>
      -- the word `return` is no name, whatever the value begins with
      simp only [List.cons_append, List.append_assoc]
      refine List.IsChain.cons (Expression.ended hv (kind_of_isSymbol hs) hus) ?_
      intro u _ hname
      exact absurd hw.2 hname.2
  | assignment _ he hv hs =>
      simp only [List.cons_append, List.append_assoc]
      refine Parted.join (.single _) (kind_of_isSymbol he) ?_
      exact Expression.ended hv (kind_of_isSymbol hs) hus
  | call _ ho ha hc hs =>
      simp only [List.cons_append, List.append_assoc]
      exact CommaList.ended ho ha hc hs (.single _) hus

end Bodies

theorem Body.joined {n : Nat} {ts : List Token} {body : List Node} (h : Body n ts body)
    {before us : List Token} (hb : Parted before) (hus : Parted us) :
    Parted (before ++ (ts ++ us)) := by
  induction n generalizing ts body before us with
  | zero => cases h
  | succ n ih =>
      cases h with
      | braces ho hs hc =>
          simp only [List.cons_append, List.append_assoc]
          refine hb.join (kind_of_isSymbol ho) ?_
          have hstatement : ∀ {ts node}, Statement n ts node → Ended ts :=
            fun hs => hs.ended fun hbody => ih hbody
          exact hs.ended hstatement _ (.cons (kind_of_isSymbol hc) hus)

/-! ## Programs -/

/-- A node of the top level without a scope named `return`. -/
theorem TopLevel.ended {n : Nat} {ts : List Token} {node : Node} (h : TopLevel n ts node)
    (hnode : Rule.returnWord ∉ node.scopeNames) : Ended ts := by
  cases h with
  | anywhere ha => exact ha.ended fun hbody => hbody.joined
  | @labeled _ label ts f _ hs =>
      intro us hus
      have hrest := hs.ended (fun hbody => hbody.joined) us hus
      cases hs with
      | @mk _ ts _ header _ hh _ =>
          cases hh with
          | @mk _ x _ _ _ _ hx hp ht =>
              -- only the name directly behind the label matters
              refine List.IsChain.cons hrest ?_
              intro u hu _ hreturn
              obtain rfl : x = u := by simpa using hu
              simp [Node.scopeNames, Function.header, hreturn.2] at hnode

/-- Where a label stands directly before a name, the name is not `return`. -/
theorem TopLevel.scopeNames_of_parted {n : Nat} {ts : List Token} {node : Node}
    (h : TopLevel n ts node) (hts : Parted ts) : Rule.returnWord ∉ node.scopeNames := by
  cases h with
  | anywhere ha =>
      cases ha with
      | scope hs => cases hs <;> simp [Node.scopeNames]
      | namedScope hx _ => simpa [Node.scopeNames] using hx.2.symm
      | _ => simp [Node.scopeNames]
  | labeled hl hs =>
      cases hs with
      | mk hh _ =>
          cases hh with
          | @mk _ x _ _ _ _ hx _ _ =>
              have hpair := (List.isChain_cons_cons.1 hts).1 hl
              have hname : x.lexeme ≠ Rule.returnWord := fun hreturn => hpair ⟨hx, hreturn⟩
              simp [Node.scopeNames, Function.header, hl.2.symm, hname.symm]

/-- **The tokens of a program show whether `return` names one of its scopes.** -/
theorem Program.parted_iff {n : Nat} {ts : List Token} {forest : List Node}
    (h : Program n ts forest) :
    Parted ts ↔ ∀ node ∈ forest, Rule.returnWord ∉ node.scopeNames := by
  induction h with
  | nil => simpa using Parted.nil
  | cons hnode _ ih =>
      rw [List.forall_mem_cons, ← ih]
      constructor
      · intro hparted
        have hleft : Parted _ := List.IsChain.left_of_append hparted
        exact ⟨hnode.scopeNames_of_parted hleft, List.IsChain.right_of_append hparted⟩
      · rintro ⟨hfirst, hlater⟩
        exact hnode.ended hfirst _ hlater

end Grammar

/-! ## Source texts -/

/-- **When `return` is no name of a scope.**  At the top level of a program it is never the name of
a scope that has no label, nor a label.  It is not a name behind a label either exactly when no
identifier other than `return` itself has the word `return` as the next token: this is not
checked. -/
theorem return_names_no_scope_iff {settings : Settings} {source : String} {forest : List Node}
    (h : (parseSource settings source).2 = .ok forest) :
    (∀ node ∈ forest, node.firstName? ≠ some Rule.returnWord) ∧
    ∃ tokens, (tokenize settings.unmatched source).2 = .ok tokens ∧
      ((∀ node ∈ forest, Rule.returnWord ∉ node.scopeNames) ↔
        tokens.IsChain fun t u =>
          Grammar.PlainName t → ¬ u.Spells .identifier Rule.returnWord) := by
  obtain ⟨ts, place, htokens, hprogram⟩ := program_of_parseSource h
  constructor
  · intro node hnode
    exact (wellPlaced_iff.1 hprogram.wellPlaced node hnode).2.1
  · refine ⟨_, htokens, ?_⟩
    rw [← hprogram.parted_iff]
    constructor
    · intro hparted
      exact Grammar.Parted.join hparted (by simp [Token.eof]) .nil
    · intro hparted
      exact List.IsChain.left_of_append hparted

/-- The value of a return statement may be called `return`, and this names no scope. -/
theorem return_names_no_scope_value :
    let source := "f \x7b return return; \x7d task run \x7b \x7d"
    let forest : List Node :=
      [.namedScope "f" [.ret (some (.identifier "return"))],
        .labeled "task" (.mk ⟨"run", none, none⟩ [])]
    (parseSource .default source).2 = .ok forest ∧
      (∀ node ∈ forest, Rule.returnWord ∉ node.scopeNames) ∧
      ∃ tokens, (tokenize .reject source).2 = .ok tokens ∧ tokens.IsChain fun t u =>
        Grammar.PlainName t → ¬ u.Spells .identifier Rule.returnWord := by
  intro source forest
  have htokens : (tokenize Settings.default.unmatched source).2 = .ok
      [⟨.identifier, "f", ⟨1, 0⟩⟩, ⟨.symbol, "\x7b", ⟨1, 2⟩⟩, ⟨.identifier, "return", ⟨1, 4⟩⟩,
        ⟨.identifier, "return", ⟨1, 11⟩⟩, ⟨.symbol, ";", ⟨1, 17⟩⟩, ⟨.symbol, "\x7d", ⟨1, 19⟩⟩,
        ⟨.identifier, "task", ⟨1, 21⟩⟩, ⟨.identifier, "run", ⟨1, 26⟩⟩, ⟨.symbol, "\x7b", ⟨1, 30⟩⟩,
        ⟨.symbol, "\x7d", ⟨1, 32⟩⟩, .eof ⟨1, 33⟩] := eq_ok_of_toOption (by decide +kernel)
  have h : (parseSource .default source).2 = .ok forest := by
    rw [parseSource_snd, htokens]
    rfl
  have hnames : ∀ node ∈ forest, Rule.returnWord ∉ node.scopeNames := by
    simp [forest, Node.scopeNames, Function.header, Rule.returnWord]
  obtain ⟨_, tokens, hread, hiff⟩ := return_names_no_scope_iff h
  exact ⟨h, hnames, tokens, hread, hiff.1 hnames⟩

/-- In `if return { }` the scope behind the label is called `return`. -/
theorem return_names_labeled_scope :
    let forest : List Node := [.labeled "if" (.mk ⟨"return", none, none⟩ [])]
    (parseSource .default "if return \x7b \x7d").2 = .ok forest ∧
      ¬ ∀ node ∈ forest, Rule.returnWord ∉ node.scopeNames := by
  intro forest
  have htokens : (tokenize Settings.default.unmatched "if return \x7b \x7d").2 = .ok
      [⟨.identifier, "if", ⟨1, 0⟩⟩, ⟨.identifier, "return", ⟨1, 3⟩⟩, ⟨.symbol, "\x7b", ⟨1, 10⟩⟩,
        ⟨.symbol, "\x7d", ⟨1, 12⟩⟩, .eof ⟨1, 13⟩] := eq_ok_of_toOption (by decide +kernel)
  constructor
  · rw [parseSource_snd, htokens]
    rfl
  · intro hnames
    refine hnames _ (List.mem_singleton_self _) ?_
    simp [Node.scopeNames, Function.header, Rule.returnWord]

end ScopeFront
