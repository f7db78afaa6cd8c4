import ScopeFront.Proofs.Concatenation

/-!
# Open braces

The limit on nesting counts the braces of bodies.  The braces of structures and implementations open
no level, so they are not counted; but what stands in them is, and only functions stand in an
implementation.  So at any place in an accepted text at most as many bodies are open as the limit
says, at most one brace more than two for each of them, and the limit bounds all open braces where
no structure or implementation occurs.

* `openBraces` – the braces that are open behind some tokens, each with whether it opens a body;
* `Nests`, `Encloses` – tokens that close all braces they open, and open only so many inside each
  other;
* `Grammar.Statement.encloses`, `Grammar.Body.encloses`, `Grammar.Program.encloses` – phrases of the
  grammar;
* `open_braces_le` – accepted texts;
* `struct_brace_is_not_counted` – a brace beyond the limit.
-/

set_option autoImplicit false

namespace ScopeFront

/-! ## Braces -/

/-- Whether the token is one of the two words whose braces hold members or functions. -/
def Token.introducesMembers (t : Token) : Bool :=
  t.kind == .scopeKeyword &&
    (t.lexeme == ScopeKeyword.struct.word || t.lexeme == ScopeKeyword.implement.word)

/-- Whether a brace behind these tokens, the latest first, opens a structure or an implementation:
it stands behind the word for it, or behind the name behind that word. -/
def opensMembers : List Token → Bool
  | [] => false
  | t :: earlier =>
    t.introducesMembers || t.kind == .identifier && earlier.head?.any Token.introducesMembers

/-- The braces that are open behind these tokens, the latest first: whether each opens a body. -/
def openBraces : List Token → List Bool
  | [] => []
  | t :: earlier =>
    if t.isSymbol '{' then (!opensMembers earlier) :: openBraces earlier
    else if t.isSymbol '}' then (openBraces earlier).tail
    else openBraces earlier

/-- The token is no brace. -/
def Token.Braceless (t : Token) : Prop := t.isSymbol '{' = false ∧ t.isSymbol '}' = false

section Steps

variable {t : Token} {earlier : List Token}

theorem openBraces_opening (h : t.isSymbol '{' = true) :
    openBraces (t :: earlier) = (!opensMembers earlier) :: openBraces earlier := by
  rw [openBraces, if_pos h]

theorem openBraces_closing (h : t.isSymbol '}' = true) :
    openBraces (t :: earlier) = (openBraces earlier).tail := by
  have hother : t.isSymbol '{' = false := Token.isSymbol_ne h (by decide)
  rw [openBraces, hother, if_neg Bool.false_ne_true, if_pos h]

theorem openBraces_braceless (h : t.Braceless) :
    openBraces (t :: earlier) = openBraces earlier := by
  rw [openBraces, h.1, h.2, if_neg Bool.false_ne_true, if_neg Bool.false_ne_true]

end Steps

theorem Token.braceless_of_kind {t : Token} {kind : TokenKind} (h : t.kind = kind)
    (hkind : kind ≠ .symbol) : t.Braceless := by
  have hne : t.kind ≠ .symbol := by rw [h]; exact hkind
  exact ⟨isSymbol_of_kind hne _, isSymbol_of_kind hne _⟩

theorem Token.braceless_of_isSymbol {t : Token} {c : Char} (h : t.isSymbol c = true)
    (hopen : c ≠ '{') (hclose : c ≠ '}') : t.Braceless :=
  ⟨isSymbol_ne h hopen, isSymbol_ne h hclose⟩

theorem Token.introducesMembers_of_kind {t : Token} (h : t.kind ≠ .scopeKeyword) :
    t.introducesMembers = false := by
  simp [introducesMembers, h]

/-- Where no word introduces members, a brace opens a body. -/
theorem opensMembers_eq_false {ts : List Token} (h : ∀ t ∈ ts, t.introducesMembers = false) :
    opensMembers ts = false := by
  cases ts with
  | nil => rfl
  | cons t earlier =>
      obtain ⟨ht, hearlier⟩ := List.forall_mem_cons.1 h
      have hhead : earlier.head?.any Token.introducesMembers = false := by
        cases earlier with
        | nil => rfl
        | cons u earlier => exact hearlier u List.mem_cons_self
      simp [opensMembers, ht, hhead]

theorem openBraces_bodies {ts : List Token} (h : ∀ t ∈ ts, t.introducesMembers = false) :
    ∀ body ∈ openBraces ts, body = true := by
  induction ts with
  | nil => simp [openBraces]
  | cons t ts ih =>
      obtain ⟨_, hts⟩ := List.forall_mem_cons.1 h
      rw [openBraces, opensMembers_eq_false hts]
      split
      · exact List.forall_mem_cons.2 ⟨rfl, ih hts⟩
      · split
        · intro body hbody
          exact ih hts body (List.mem_of_mem_tail hbody)
        · exact ih hts

/-! ## Tokens that close what they open -/

/-- Behind `earlier`, the tokens close all braces that they open, and open at most `b` bodies and
`k` braces inside each other. -/
structure Nests (b k : Nat) (earlier ts : List Token) : Prop where
  closes : openBraces (ts.reverse ++ earlier) = openBraces earlier
  within : ∀ read, read <+: ts → ∃ inner,
    openBraces (read.reverse ++ earlier) = inner ++ openBraces earlier ∧
      inner.count true ≤ b ∧ inner.length ≤ k

namespace Nests

variable {b b' k k' : Nat} {earlier ts us : List Token}

theorem mono (hb : b ≤ b') (hk : k ≤ k') (h : Nests b k earlier ts) : Nests b' k' earlier ts where
  closes := h.closes
  within := by
    intro read hread
    obtain ⟨inner, hinner, hcount, hlength⟩ := h.within read hread
    exact ⟨inner, hinner, Nat.le_trans hcount hb, Nat.le_trans hlength hk⟩

theorem nil : Nests b k earlier [] where
  closes := rfl
  within := by
    intro read hread
    rw [List.prefix_nil.1 hread]
    exact ⟨[], rfl, Nat.zero_le b, Nat.zero_le k⟩

theorem append (h : Nests b k earlier ts) (h' : Nests b k (ts.reverse ++ earlier) us) :
    Nests b k earlier (ts ++ us) where
  closes := by rw [List.reverse_append, List.append_assoc, h'.closes, h.closes]
  within := by
    rintro read ⟨later, hlater⟩
    rcases List.append_eq_append_iff.1 hlater with ⟨rest, hrest, _⟩ | ⟨read', rfl, hread'⟩
    · exact h.within read ⟨rest, hrest.symm⟩
    · obtain ⟨inner, hinner, hbounds⟩ := h'.within read' ⟨later, hread'.symm⟩
      rw [h.closes] at hinner
      refine ⟨inner, ?_, hbounds⟩
      rw [List.reverse_append, List.append_assoc, hinner]

/-- A token that is no brace, before tokens that close what they open. -/
theorem cons {t : Token} (h : Nests b k (t :: earlier) ts) (ht : t.Braceless) :
    Nests b k earlier (t :: ts) where
  closes := by
    rw [List.reverse_cons, List.append_assoc, List.singleton_append, h.closes,
      openBraces_braceless ht]
  within := by
    intro read hread
    rcases List.prefix_cons_iff.1 hread with rfl | ⟨read', rfl, hread'⟩
    · exact ⟨[], rfl, Nat.zero_le b, Nat.zero_le k⟩
    · obtain ⟨inner, hinner, hbounds⟩ := h.within read' hread'
      rw [openBraces_braceless ht] at hinner
      refine ⟨inner, ?_, hbounds⟩
      rw [List.reverse_cons, List.append_assoc, List.singleton_append, hinner]

theorem of_braceless (h : ∀ t ∈ ts, t.Braceless) : Nests b k earlier ts := by
  induction ts generalizing earlier with
  | nil => exact nil
  | cons t ts ih =>
      obtain ⟨ht, hts⟩ := List.forall_mem_cons.1 h
      exact cons (ih hts) ht

theorem reverse_braces (opening closing : Token) (ts earlier : List Token) :
    (opening :: (ts ++ [closing])).reverse ++ earlier =
      closing :: (ts.reverse ++ opening :: earlier) := by
  simp

/-- Tokens in braces: one more brace, and one more body unless the brace opens members. -/
theorem braces {opening closing : Token} (h : Nests b k (opening :: earlier) ts)
    (ho : opening.isSymbol '{' = true) (hc : closing.isSymbol '}' = true) :
    Nests (b + (!opensMembers earlier).toNat) (k + 1) earlier (opening :: (ts ++ [closing])) := by
  have hcloses : openBraces ((opening :: (ts ++ [closing])).reverse ++ earlier) =
      openBraces earlier := by
    rw [reverse_braces, openBraces_closing hc, h.closes, openBraces_opening ho]
    rfl
  refine ⟨hcloses, fun read hread => ?_⟩
  rcases List.prefix_cons_iff.1 hread with rfl | ⟨read', rfl, hread'⟩
  · exact ⟨[], rfl, Nat.zero_le _, Nat.zero_le _⟩
  · rcases List.prefix_concat_iff.1 hread' with rfl | hinside
    · exact ⟨[], hcloses, Nat.zero_le _, Nat.zero_le _⟩
    · -- the brace itself is open, below those that are open inside
      obtain ⟨inner, hinner, hcount, hlength⟩ := h.within read' hinside
      rw [openBraces_opening ho] at hinner
      refine ⟨inner ++ [!opensMembers earlier], ?_, ?_, ?_⟩
      · rw [List.reverse_cons, List.append_assoc, List.singleton_append, hinner]
        simp
      · rw [List.count_append]
        cases opensMembers earlier with
        | true => exact hcount
        | false => exact Nat.add_le_add_right hcount 1
      · rw [List.length_append]
        exact Nat.add_le_add_right hlength 1

end Nests

/-- Nothing stands before, or what stands there ends in a symbol. -/
def Settled (earlier : List Token) : Prop := ∀ t, earlier.head? = some t → t.kind = .symbol

namespace Settled

theorem cons {t : Token} {c : Char} (h : t.isSymbol c = true) (earlier : List Token) :
    Settled (t :: earlier) := by
  intro u hu
  obtain rfl : t = u := Option.some.inj hu
  exact (Token.isSymbol_iff.1 h).1

variable {earlier : List Token} (h : Settled earlier)

include h

theorem introducesMembers : earlier.head?.any Token.introducesMembers = false := by
  cases hhead : earlier.head? with
  | none => rfl
  | some t => exact Token.introducesMembers_of_kind (by simp [h t hhead])

/-- A brace there opens a body. -/
theorem opensMembers : opensMembers earlier = false := by
  cases earlier with
  | nil => rfl
  | cons t earlier => simp [ScopeFront.opensMembers, Token.introducesMembers, h t rfl]

end Settled

/-- The tokens close what they open, and end in a symbol. -/
structure Encloses (b k : Nat) (earlier ts : List Token) : Prop extends Nests b k earlier ts where
  settled : Settled (ts.reverse ++ earlier)

namespace Encloses

variable {b b' k k' : Nat} {earlier ts us : List Token}

theorem mono (hb : b ≤ b') (hk : k ≤ k') (h : Encloses b k earlier ts) :
    Encloses b' k' earlier ts :=
  ⟨h.toNests.mono hb hk, h.settled⟩

theorem append (h : Nests b k earlier ts) (h' : Encloses b k (ts.reverse ++ earlier) us) :
    Encloses b k earlier (ts ++ us) where
  toNests := h.append h'.toNests
  settled := by
    rw [List.reverse_append, List.append_assoc]
    exact h'.settled

theorem cons {t : Token} (ht : t.Braceless) (h : Encloses b k (t :: earlier) ts) :
    Encloses b k earlier (t :: ts) where
  toNests := h.toNests.cons ht
  settled := by
    rw [List.reverse_cons, List.append_assoc]
    exact h.settled

/-- A symbol that is no brace. -/
theorem symbol {t : Token} {c : Char} (h : t.isSymbol c = true) (hopen : c ≠ '{')
    (hclose : c ≠ '}') : Encloses b k earlier [t] where
  toNests := .of_braceless
    (List.forall_mem_singleton.2 (Token.braceless_of_isSymbol h hopen hclose))
  settled := .cons h _

theorem braces {opening closing : Token} (ho : opening.isSymbol '{' = true)
    (hc : closing.isSymbol '}' = true) (h : Nests b k (opening :: earlier) ts) :
    Encloses (b + (!opensMembers earlier).toNat) (k + 1) earlier
      (opening :: (ts ++ [closing])) where
  toNests := h.braces ho hc
  settled := by
    rw [Nests.reverse_braces]
    exact .cons hc _

end Encloses

namespace Grammar

/-! ## Phrases without braces -/

section Repetition

variable {α : Type} {item : Phrases α} {n : Nat}
  (hi : ∀ {ts a}, item n ts a → ∀ t ∈ ts, t.Braceless)

include hi

theorem Many.braceless {ts : List Token} {as : List α} (h : Many item n ts as) :
    ∀ t ∈ ts, t.Braceless := by
  induction h with
  | nil => simp
  | cons ha _ ih => exact List.forall_mem_append.2 ⟨hi ha, ih hi⟩

theorem CommaTail.braceless {ts : List Token} {as : List α} (h : CommaTail item n ts as) :
    ∀ t ∈ ts, t.Braceless := by
  induction h with
  | nil => simp
  | cons hcomma ha _ ih =>
      have hc := Token.braceless_of_isSymbol hcomma (by decide) (by decide)
      exact List.forall_mem_cons.2 ⟨hc, List.forall_mem_append.2 ⟨hi ha, ih hi⟩⟩

theorem CommaList.braceless {ts : List Token} {as : List α} (h : CommaList item n ts as) :
    ∀ t ∈ ts, t.Braceless := by
  cases h with
  | empty => simp
  | items ha htail => exact List.forall_mem_append.2 ⟨hi ha, htail.braceless hi⟩

end Repetition

theorem braceless_of_operator {sign : Token} {op : BinaryOp}
    (h : sign.Spells .symbol op.symbol) : sign.Braceless := by
  have hop : op.symbol ≠ "\x7b" ∧ op.symbol ≠ "\x7d" := by
    cases op <;> decide
  simp [Token.Braceless, Token.isSymbol, h.2, hop]

section Operands

variable {operand : Phrases Expr} {n : Nat}
  (ho : ∀ {ts e}, operand n ts e → ∀ t ∈ ts, t.Braceless)

include ho

theorem OperatorTail.braceless {left e : Expr} {ts : List Token}
    (h : OperatorTail operand left n ts e) : ∀ t ∈ ts, t.Braceless := by
  induction h with
  | nil => simp
  | cons hsign hright _ ih =>
      exact List.forall_mem_cons.2
        ⟨braceless_of_operator hsign, List.forall_mem_append.2 ⟨ho hright, ih ho⟩⟩

theorem Chain.braceless {ts : List Token} {e : Expr} (h : Chain operand n ts e) :
    ∀ t ∈ ts, t.Braceless := by
  cases h with
  | mk hfirst htail => exact List.forall_mem_append.2 ⟨ho hfirst, htail.braceless ho⟩

end Operands

/-- A phrase in parentheses. -/
theorem braceless_parenthesized {opening closing : Token} {ts : List Token}
    (ho : opening.isSymbol '(' = true) (h : ∀ t ∈ ts, t.Braceless)
    (hc : closing.isSymbol ')' = true) : ∀ t ∈ opening :: (ts ++ [closing]), t.Braceless := by
  have hopen := Token.braceless_of_isSymbol ho (by decide) (by decide)
  have hclose := Token.braceless_of_isSymbol hc (by decide) (by decide)
  exact List.forall_mem_cons.2 ⟨hopen, List.forall_mem_append.2
    ⟨h, List.forall_mem_singleton.2 hclose⟩⟩

section Phrases

variable {n : Nat} {ts : List Token}

theorem Primary.braceless {e : Expr} (h : Primary n ts e) : ∀ t ∈ ts, t.Braceless := by
  have hleaf : ∀ {t : Token}, t.kind = .identifier ∨ t.kind = .literal →
      ∀ u ∈ [t], u.Braceless := by
    intro t ht
    refine List.forall_mem_singleton.2 ?_
    rcases ht with hk | hk
    · exact Token.braceless_of_kind hk (by decide)
    · exact Token.braceless_of_kind hk (by decide)
  induction n generalizing ts e with
  | zero =>
      cases h with
      | identifier hk => exact hleaf (.inl hk)
      | literal hk => exact hleaf (.inr hk)
  | succ n ih =>
      cases h with
      | identifier hk => exact hleaf (.inl hk)
      | literal hk => exact hleaf (.inr hk)
      | parenthesized ho he hc => exact braceless_parenthesized ho (he.braceless ih) hc

theorem Expression.braceless {e : Expr} (h : Expression n ts e) : ∀ t ∈ ts, t.Braceless :=
  Chain.braceless Primary.braceless h

theorem Parameter.braceless {d : TypedName} (h : Parameter n ts d) : ∀ t ∈ ts, t.Braceless := by
  cases h with
  | mk ht hx =>
      exact List.forall_mem_cons.2 ⟨Token.braceless_of_kind ht.1 (by decide),
        List.forall_mem_singleton.2 (Token.braceless_of_kind hx (by decide))⟩

theorem Parameters.braceless {ps : Option (List TypedName)} (h : Parameters n ts ps) :
    ∀ t ∈ ts, t.Braceless := by
  cases h with
  | absent => simp
  | present ho hps hc => exact braceless_parenthesized ho (hps.braceless Parameter.braceless) hc

theorem ReturnType.braceless {type : Option TypeKeyword} (h : ReturnType n ts type) :
    ∀ t ∈ ts, t.Braceless := by
  cases h with
  | absent => simp
  | present hcolon ht =>
      exact List.forall_mem_cons.2 ⟨Token.braceless_of_isSymbol hcolon (by decide) (by decide),
        List.forall_mem_singleton.2 (Token.braceless_of_kind ht.1 (by decide))⟩

theorem Heading.braceless {header : Header} (h : Heading n ts header) :
    ∀ t ∈ ts, t.Braceless := by
  cases h with
  | mk hx hps htype =>
      exact List.forall_mem_cons.2 ⟨Token.braceless_of_kind hx (by decide),
        List.forall_mem_append.2 ⟨hps.braceless, htype.braceless⟩⟩

theorem OptionalName.braceless {name : Option String} (h : OptionalName n ts name) :
    ∀ t ∈ ts, t.Braceless := by
  cases h with
  | absent => simp
  | present hx => exact List.forall_mem_singleton.2 (Token.braceless_of_kind hx (by decide))

theorem Member.braceless {d : TypedName} (h : Member n ts d) : ∀ t ∈ ts, t.Braceless := by
  cases h with
  | mk ht hx hs =>
      exact List.forall_mem_cons.2 ⟨Token.braceless_of_kind ht.1 (by decide),
        List.forall_mem_cons.2 ⟨Token.braceless_of_kind hx (by decide),
          List.forall_mem_singleton.2 (Token.braceless_of_isSymbol hs (by decide) (by decide))⟩⟩

end Phrases

/-! ## Bodies -/

/-- A brace behind the header of a function opens a body, wherever the name is not behind one of
the words that introduce members. -/
theorem Heading.opensMembers_eq_false {n : Nat} {ts earlier : List Token} {header : Header}
    (h : Heading n ts header) (hword : earlier.head?.any Token.introducesMembers = false) :
    opensMembers (ts.reverse ++ earlier) = false := by
  cases h with
  | mk hx hps htype =>
      cases htype with
      | present _ ht => simp [opensMembers, Token.introducesMembers, ht.1]
      | absent =>
          cases hps with
          | present _ _ hc =>
              have hclose := (Token.isSymbol_iff.1 hc).1
              simp [opensMembers, Token.introducesMembers, hclose]
          | absent => simp [opensMembers, Token.introducesMembers, hx, hword]

/-- A brace behind one of the words that introduce members, or behind a name behind it. -/
theorem OptionalName.opensMembers_eq_true {n : Nat} {ts earlier : List Token}
    {name : Option String} {word : Token} (h : OptionalName n ts name)
    (hword : word.introducesMembers = true) :
    opensMembers (ts.reverse ++ word :: earlier) = true := by
  cases h with
  | absent => simp [opensMembers, hword]
  | present hx => simp [opensMembers, hword, hx]

theorem Many.encloses {α : Type} {item : Phrases α} {n b k : Nat}
    (hi : ∀ {ts a}, item n ts a → ∀ {earlier}, Settled earlier → Encloses b k earlier ts)
    {ts earlier : List Token} {as : List α} (h : Many item n ts as) (hearlier : Settled earlier) :
    Encloses b k earlier ts := by
  induction h generalizing earlier with
  | nil => exact ⟨.nil, hearlier⟩
  | cons ha _ ih =>
      have hfirst := hi ha hearlier
      exact .append hfirst.toNests (ih hi hfirst.settled)

/-- A value and the semicolon behind it. -/
theorem Expression.encloses {n b k : Nat} {ts earlier : List Token} {e : Expr} {semicolon : Token}
    (h : Expression n ts e) (hs : semicolon.isSymbol ';' = true) :
    Encloses b k earlier (ts ++ [semicolon]) :=
  .append (.of_braceless (Expression.braceless h)) (.symbol hs (by decide) (by decide))

/-- Arguments in parentheses and the semicolon behind them. -/
theorem CommaList.encloses {n b k : Nat} {ts earlier : List Token} {es : List Expr}
    {opening closing semicolon : Token} (ho : opening.isSymbol '(' = true)
    (h : CommaList Expression n ts es) (hc : closing.isSymbol ')' = true)
    (hs : semicolon.isSymbol ';' = true) :
    Encloses b k earlier (opening :: (ts ++ [closing, semicolon])) := by
  have hopen := Token.braceless_of_isSymbol ho (by decide) (by decide)
  have hclose := Token.braceless_of_isSymbol hc (by decide) (by decide)
  exact .cons hopen (.append (.of_braceless (h.braceless Expression.braceless))
    (.cons hclose (.symbol hs (by decide) (by decide))))

section Bodies

-- Two braces for each body: its own, and that of an implementation around the function.
variable {n : Nat} (hb : ∀ {ts body earlier}, Body n ts body → opensMembers earlier = false →
  Encloses n (2 * n) earlier ts) {ts earlier : List Token}

include hb

theorem Signature.encloses {f : Function} (h : Signature n ts f)
    (hword : earlier.head?.any Token.introducesMembers = false) :
    Encloses n (2 * n) earlier ts := by
  cases h with
  | mk hh hbody =>
      exact .append (.of_braceless hh.braceless) (hb hbody (hh.opensMembers_eq_false hword))

theorem Method.encloses {f : Function} (h : Method n ts f) : Encloses n (2 * n) earlier ts := by
  cases h with
  | mk hw hs =>
      refine .cons (Token.braceless_of_kind hw.1 (by decide)) (hs.encloses hb ?_)
      rw [List.head?_cons, Option.any_some, Token.introducesMembers, hw.1, hw.2]
      decide

theorem KeywordScope.encloses {node : Node} (h : KeywordScope n ts node) :
    Encloses n (2 * n + 1) earlier ts := by
  cases h with
  | function hf => exact (hf.encloses hb).mono (Nat.le_refl n) (Nat.le_succ _)
  | forLoop hw ho he hc hbody =>
      have hhead := Expression.braceless he
      have hopen := Token.braceless_of_isSymbol ho (by decide) (by decide)
      have hclose := Token.braceless_of_isSymbol hc (by decide) (by decide)
      refine Encloses.mono (Nat.le_refl n) (Nat.le_succ (2 * n)) ?_
      exact .cons (Token.braceless_of_kind hw.1 (by decide)) (.cons hopen
        (.append (.of_braceless hhead) (.cons hclose (hb hbody (Settled.cons hc _).opensMembers))))
  | @struct _ word opening closing names us _ _ hw hname ho hm hc =>
      have hword : word.introducesMembers = true := by
        simp [Token.introducesMembers, hw.1, hw.2]
      have hmembers : Nests 0 0 (opening :: (names.reverse ++ word :: earlier)) us :=
        .of_braceless (hm.braceless Member.braceless)
      have hbraces := Encloses.braces ho hc hmembers
      rw [hname.opensMembers_eq_true hword] at hbraces
      refine .cons (Token.braceless_of_kind hw.1 (by decide))
        (.append (.of_braceless hname.braceless) (hbraces.mono (Nat.zero_le n) ?_))
      omega
  | @implement _ word opening closing names us _ _ hw hname ho hf hc =>
      have hword : word.introducesMembers = true := by
        simp [Token.introducesMembers, hw.1, hw.2]
      have hmethods : Encloses n (2 * n) (opening :: (names.reverse ++ word :: earlier)) us :=
        hf.encloses (fun hmethod _ _ => hmethod.encloses hb) (.cons ho _)
      have hbraces := Encloses.braces ho hc hmethods.toNests
      rw [hname.opensMembers_eq_true hword] at hbraces
      exact .cons (Token.braceless_of_kind hw.1 (by decide))
        (.append (.of_braceless hname.braceless) hbraces)

theorem Anywhere.encloses {node : Node} (h : Anywhere n ts node) (hearlier : Settled earlier) :
    Encloses n (2 * n + 1) earlier ts := by
  cases h with
  | scope hs => exact hs.encloses hb
  | @namedScope _ x _ _ hx hbody =>
      have hopens : opensMembers (x :: earlier) = false := by
        simp [opensMembers, Token.introducesMembers, hx.1, hearlier.introducesMembers]
      exact .cons (Token.braceless_of_kind hx.1 (by decide))
        ((hb hbody hopens).mono (Nat.le_refl n) (Nat.le_succ _))
  | unnamedScope hbody =>
      exact (hb hbody hearlier.opensMembers).mono (Nat.le_refl n) (Nat.le_succ _)
  | declaration ht hx he hv hs =>
      have hequals := Token.braceless_of_isSymbol he (by decide) (by decide)
      exact .cons (Token.braceless_of_kind ht.1 (by decide))
        (.cons (Token.braceless_of_kind hx (by decide)) (.cons hequals (Expression.encloses hv hs)))
  | operator hw ho ha hc hs =>
      exact .cons (Token.braceless_of_kind hw.1 (by decide)) (ha.encloses ho hc hs)

theorem Statement.encloses {node : Node} (h : Statement n ts node) (hearlier : Settled earlier) :
    Encloses n (2 * n + 1) earlier ts := by
  cases h with
  | anywhere ha => exact ha.encloses hb hearlier
  | returnNothing hw hs =>
      exact .cons (Token.braceless_of_kind hw.1 (by decide)) (.symbol hs (by decide) (by decide))
  | returnValue hw hv hs =>
      exact .cons (Token.braceless_of_kind hw.1 (by decide)) (Expression.encloses hv hs)
  | assignment hx he hv hs =>
      have hequals := Token.braceless_of_isSymbol he (by decide) (by decide)
      exact .cons (Token.braceless_of_kind hx.1 (by decide))
        (.cons hequals (Expression.encloses hv hs))
  | call hx ho ha hc hs =>
      exact .cons (Token.braceless_of_kind hx.1 (by decide)) (ha.encloses ho hc hs)

end Bodies

theorem Body.encloses {n : Nat} {ts earlier : List Token} {body : List Node} (h : Body n ts body)
    (hearlier : opensMembers earlier = false) : Encloses n (2 * n) earlier ts := by
  induction n generalizing ts body earlier with
  | zero => cases h
  | succ n ih =>
      cases h with
      | @braces _ opening closing us _ ho hs hc =>
          have hinside : Encloses n (2 * n + 1) (opening :: earlier) us :=
            hs.encloses (fun hstatement _ => hstatement.encloses ih) (.cons ho earlier)
          have hbraces := Encloses.braces ho hc hinside.toNests
          rw [hearlier] at hbraces
          exact hbraces

theorem TopLevel.encloses {n : Nat} {ts earlier : List Token} {node : Node}
    (h : TopLevel n ts node) (hearlier : Settled earlier) :
    Encloses n (2 * n + 1) earlier ts := by
  cases h with
  | anywhere ha => exact ha.encloses Body.encloses hearlier
  | @labeled _ label _ _ hx hs =>
      have hword : (label :: earlier).head?.any Token.introducesMembers = false :=
        Token.introducesMembers_of_kind (by simp [hx.1])
      exact .cons (Token.braceless_of_kind hx.1 (by decide))
        ((hs.encloses Body.encloses hword).mono (Nat.le_refl n) (Nat.le_succ _))

/-- The tokens of a program close what they open. -/
theorem Program.encloses {n : Nat} {ts : List Token} {forest : List Node}
    (h : Program n ts forest) : Encloses n (2 * n + 1) [] ts :=
  Many.encloses (fun hnode _ hearlier => hnode.encloses hearlier) h nofun

end Grammar

/-! ## Source texts -/

/-- **The limit and the open braces.**  At every place in the tokens of an accepted text, as many
bodies are open as the limit says, or fewer, and all in all at most two braces for each of them and
one more.  Without structures and implementations, the limit bounds all of the open braces. -/
theorem open_braces_le {settings : Settings} {source : String} {forest : List Node}
    (h : (parseSource settings source).2 = .ok forest) :
    ∃ tokens, (tokenize settings.unmatched source).2 = .ok tokens ∧ ∀ read, read <+: tokens →
      (openBraces read.reverse).count true ≤ settings.maxDepth ∧
      (openBraces read.reverse).length ≤ 2 * settings.maxDepth + 1 ∧
      ((∀ t ∈ tokens, t.introducesMembers = false) →
        (openBraces read.reverse).length ≤ settings.maxDepth) := by
  obtain ⟨ts, place, htokens, hprogram⟩ := program_of_parseSource h
  have hkind : (Token.eof place).kind = .eof := rfl
  have hend := Token.braceless_of_kind hkind (by decide)
  have hnests := hprogram.encloses.toNests.append
    (.of_braceless (List.forall_mem_singleton.2 hend))
  refine ⟨_, htokens, fun read hread => ?_⟩
  obtain ⟨inner, hinner, hcount, hlength⟩ := hnests.within read hread
  rw [List.append_nil, openBraces, List.append_nil] at hinner
  rw [hinner]
  refine ⟨hcount, hlength, fun hwords => ?_⟩
  have hbodies : ∀ body ∈ inner, body = true := by
    rw [← hinner]
    exact openBraces_bodies fun t ht => hwords t (hread.subset (List.mem_reverse.1 ht))
  rw [← List.count_eq_length.2 fun body hbody => (hbodies body hbody).symm]
  exact hcount

/-- In `implement { function f { struct { } } }` one body is open, and two braces around and in it:
with the limit 1, these are as many as there can be. -/
theorem open_braces_le_one :
    let source := "implement \x7b function f \x7b struct \x7b \x7d \x7d \x7d"
    let settings : Settings := { maxDepth := 1 }
    let forest : List Node := [.implement none [.mk ⟨"f", none, none⟩ [.struct none []]]]
    let read : List Token := [⟨.scopeKeyword, "implement", ⟨1, 0⟩⟩, ⟨.symbol, "\x7b", ⟨1, 10⟩⟩,
      ⟨.scopeKeyword, "function", ⟨1, 12⟩⟩, ⟨.identifier, "f", ⟨1, 21⟩⟩,
      ⟨.symbol, "\x7b", ⟨1, 23⟩⟩, ⟨.scopeKeyword, "struct", ⟨1, 25⟩⟩, ⟨.symbol, "\x7b", ⟨1, 32⟩⟩]
    let later : List Token := [⟨.symbol, "\x7d", ⟨1, 34⟩⟩, ⟨.symbol, "\x7d", ⟨1, 36⟩⟩,
      ⟨.symbol, "\x7d", ⟨1, 38⟩⟩, .eof ⟨1, 39⟩]
    (parseSource settings source).2 = .ok forest ∧
      (tokenize settings.unmatched source).2 = .ok (read ++ later) ∧
      openBraces read.reverse = [false, true, false] ∧
      (openBraces read.reverse).length ≤ 2 * settings.maxDepth + 1 := by
  intro source settings forest read later
  have htokens : (tokenize settings.unmatched source).2 = .ok (read ++ later) :=
    eq_ok_of_toOption (by decide +kernel)
  have h : (parseSource settings source).2 = .ok forest := by
    rw [parseSource_snd, htokens]
    rfl
  obtain ⟨tokens, hread, hbraces⟩ := open_braces_le h
  obtain rfl := Except.ok.inj (htokens.symm.trans hread)
  exact ⟨h, htokens, by decide, (hbraces read (List.prefix_append read later)).2.1⟩

/-- Where no level may be opened, `struct { }` is accepted, although its brace is open behind the
second token. -/
theorem struct_brace_is_not_counted :
    let settings : Settings := { maxDepth := 0 }
    (parseSource settings "struct \x7b \x7d").2 = .ok [.struct none []] ∧
      ∃ tokens read, (tokenize settings.unmatched "struct \x7b \x7d").2 = .ok tokens ∧
        read <+: tokens ∧ ¬ (openBraces read.reverse).length ≤ settings.maxDepth := by
  intro settings
  let word : Token := ⟨.scopeKeyword, "struct", ⟨1, 0⟩⟩
  let brace : Token := ⟨.symbol, "\x7b", ⟨1, 7⟩⟩
  have htokens : (tokenize settings.unmatched "struct \x7b \x7d").2 = .ok
      ([word, brace] ++ [⟨.symbol, "\x7d", ⟨1, 9⟩⟩, .eof ⟨1, 10⟩]) :=
    eq_ok_of_toOption (by decide +kernel)
  refine ⟨?_, _, [word, brace], htokens, List.prefix_append _ _, by decide⟩
  rw [parseSource_snd, htokens]
  rfl

end ScopeFront
