import ScopeFront.Proofs.Grammar

/-!
# Languages

A language is a family of phrases that grows with the levels they may open and is not empty, so that
whatever was begun can be completed.

* `Language` – such a family;
* `Language.seq`, `Language.many`, `Language.commaList` – how languages are put together;
* `Language.expression`, `Language.statement`, `Language.topLevel` – those of the grammar.
-/

set_option autoImplicit false

namespace ScopeFront

namespace Token

/-- A token with this spelling; its place does not matter. -/
def ofWord (kind : TokenKind) (word : String) : Token := ⟨kind, word, .start⟩

/-- The symbol `c`; its place does not matter. -/
def ofSymbol (c : Char) : Token := ofWord .symbol (String.singleton c)

theorem spells_ofWord (kind : TokenKind) (word : String) : (ofWord kind word).Spells kind word :=
  ⟨rfl, rfl⟩

theorem isSymbol_ofSymbol (c : Char) : (ofSymbol c).isSymbol c = true := by
  simp [isSymbol, ofSymbol, ofWord]

end Token

/-- Phrases that grow with the levels they may open, at least one of them without end markers. -/
structure Language (α : Type) where
  words : Phrases α
  mono : ∀ {m n : Nat} {ts : List Token} {a : α}, m ≤ n → words m ts a → words n ts a
  inhabited : ∃ n ts a, words n ts a ∧ ∀ t ∈ ts, t.isEof = false

namespace Language

variable {α β : Type}

/-- The empty phrase, which stands for `a`. -/
def unit (a : α) : Language α where
  words _ ts b := ts = [] ∧ b = a
  mono _ h := h
  inhabited := ⟨0, [], a, ⟨rfl, rfl⟩, by simp⟩

/-- A phrase of `L` and behind it a phrase that may depend on what the first one stands for. -/
def seq (L : Language α) (M : α → Language β) : Language β where
  words n ts b := ∃ us vs a, ts = us ++ vs ∧ L.words n us a ∧ (M a).words n vs b
  mono := by
    rintro m n ts b hmn ⟨us, vs, a, rfl, hu, hv⟩
    exact ⟨us, vs, a, rfl, L.mono hmn hu, (M a).mono hmn hv⟩
  inhabited := by
    obtain ⟨m, us, a, hu, hus⟩ := L.inhabited
    obtain ⟨n, vs, b, hv, hvs⟩ := (M a).inhabited
    refine ⟨max m n, us ++ vs, b, ⟨us, vs, a, rfl, ?_, ?_⟩, List.forall_mem_append.2 ⟨hus, hvs⟩⟩
    · exact L.mono (Nat.le_max_left m n) hu
    · exact (M a).mono (Nat.le_max_right m n) hv

/-- A phrase of `L`, with `f` applied to what it stands for. -/
theorem seq_unit {L : Language α} {f : α → β} {n : Nat} {ts : List Token} {b : β}
    (h : (L.seq fun a => unit (f a)).words n ts b) : ∃ a, L.words n ts a ∧ b = f a := by
  obtain ⟨us, vs, a, rfl, hu, rfl, rfl⟩ := h
  rw [List.append_nil]
  exact ⟨a, hu, rfl⟩

/-- The symbol `c`. -/
def symbol (c : Char) : Language Token where
  words _ ts t := ts = [t] ∧ t.isSymbol c = true
  mono _ h := h
  inhabited := ⟨0, _, .ofSymbol c, ⟨rfl, Token.isSymbol_ofSymbol c⟩, by
    simp [Token.isEof, Token.ofSymbol, Token.ofWord]⟩

/-- An identifier. -/
def name : Language String where
  words _ ts x := ∃ t, ts = [t] ∧ t.kind = .identifier ∧ x = t.lexeme
  mono _ h := h
  inhabited := ⟨0, _, _, ⟨.ofWord .identifier "", rfl, rfl, rfl⟩, by decide⟩

/-- The name of a type. -/
def type : Language TypeKeyword where
  words _ ts k := ∃ t, ts = [t] ∧ t.Spells .typeKeyword k.word
  mono _ h := h
  inhabited := ⟨0, _, .int, ⟨.ofWord .typeKeyword TypeKeyword.int.word, rfl, rfl, rfl⟩, by decide⟩

/-- Any number of phrases of `L`. -/
def many (L : Language α) : Language (List α) where
  words := Grammar.Many L.words
  mono hmn h := h.mono (L.mono hmn)
  inhabited := ⟨0, [], [], .nil, by simp⟩

/-- Commas, each with a phrase of `L` behind it. -/
def commaTail (L : Language α) : Language (List α) where
  words := Grammar.CommaTail L.words
  mono hmn h := h.mono (L.mono hmn)
  inhabited := ⟨0, [], [], .nil, by simp⟩

/-- Phrases of `L` with commas between them. -/
def commaList (L : Language α) : Language (List α) where
  words := Grammar.CommaList L.words
  mono hmn h := h.mono (L.mono hmn)
  inhabited := ⟨0, [], [], .empty, by simp⟩

/-- Operators with phrases of `L`, folded onto `left`. -/
def operatorTail (L : Language Expr) (left : Expr) : Language Expr where
  words := Grammar.OperatorTail L.words left
  mono hmn h := h.mono (L.mono hmn)
  inhabited := ⟨0, [], left, .nil, by simp⟩

/-! ## The languages of the grammar -/

open Grammar

def primary : Language Expr where
  words := Primary
  mono hmn h := h.mono hmn
  inhabited := ⟨0, [.ofWord .identifier ""], _, .identifier rfl, by decide⟩

def expression : Language Expr where
  words := Expression
  mono hmn h := Expression.mono hmn h
  inhabited := by
    obtain ⟨n, ts, e, h, hts⟩ := primary.inhabited
    exact ⟨n, ts ++ [], e, .mk h .nil, by rw [List.append_nil]; exact hts⟩

def parameter : Language TypedName where
  words := Parameter
  mono _ h := h.mono
  inhabited := ⟨0, [_, .ofWord .identifier ""], _,
    .mk (Token.spells_ofWord .typeKeyword TypeKeyword.int.word) rfl, by decide⟩

def parameters : Language (Option (List TypedName)) where
  words := Parameters
  mono _ h := h.mono
  inhabited := ⟨0, [], none, .absent, by simp⟩

def returnType : Language (Option TypeKeyword) where
  words := ReturnType
  mono _ h := h.mono
  inhabited := ⟨0, [], none, .absent, by simp⟩

def heading : Language Header where
  words := Heading
  mono _ h := h.mono
  inhabited := ⟨0, .ofWord .identifier "" :: ([] ++ []), _, .mk rfl .absent .absent, by decide⟩

def optionalName : Language (Option String) where
  words := OptionalName
  mono _ h := h.mono
  inhabited := ⟨0, [], none, .absent, by simp⟩

def member : Language TypedName where
  words := Member
  mono _ h := h.mono
  inhabited := ⟨0, [_, .ofWord .identifier "", _], _,
    .mk (Token.spells_ofWord .typeKeyword TypeKeyword.int.word) rfl (Token.isSymbol_ofSymbol ';'),
    by decide⟩

def body : Language (List Node) where
  words := Body
  mono hmn h := h.mono hmn
  inhabited := ⟨1, _, [], .braces (Token.isSymbol_ofSymbol '{') .nil (Token.isSymbol_ofSymbol '}'),
    by decide⟩

def signature : Language Function where
  words := Signature
  mono hmn h := h.of_bodies (Body.mono hmn)
  inhabited := by
    obtain ⟨m, ts, header, hh, hts⟩ := heading.inhabited
    obtain ⟨n, us, nodes, hb, hus⟩ := body.inhabited
    exact ⟨n, ts ++ us, .mk header nodes, .mk hh.mono hb, List.forall_mem_append.2 ⟨hts, hus⟩⟩

def method : Language Function where
  words := Method
  mono hmn h := h.of_bodies (Body.mono hmn)
  inhabited := by
    obtain ⟨n, ts, f, h, hts⟩ := signature.inhabited
    exact ⟨n, _, f, .mk (Token.spells_ofWord .scopeKeyword ScopeKeyword.function.word) h,
      List.forall_mem_cons.2 ⟨rfl, hts⟩⟩

def keywordScope : Language Node where
  words := KeywordScope
  mono hmn h := h.of_bodies hmn (Body.mono hmn)
  inhabited := by
    obtain ⟨n, ts, f, h, hts⟩ := method.inhabited
    exact ⟨n, ts, .function f, .function h, hts⟩

def anywhere : Language Node where
  words := Anywhere
  mono hmn h := h.of_bodies hmn (Body.mono hmn)
  inhabited := by
    obtain ⟨n, ts, nodes, h, hts⟩ := body.inhabited
    exact ⟨n, ts, .unnamedScope nodes, .unnamedScope h, hts⟩

def statement : Language Node where
  words := Statement
  mono hmn h := h.of_bodies hmn (Body.mono hmn)
  inhabited := by
    obtain ⟨n, ts, node, h, hts⟩ := anywhere.inhabited
    exact ⟨n, ts, node, .anywhere h, hts⟩

def topLevel : Language Node where
  words := TopLevel
  mono hmn h := h.mono hmn
  inhabited := by
    obtain ⟨n, ts, node, h, hts⟩ := anywhere.inhabited
    exact ⟨n, ts, node, .anywhere h, hts⟩

end Language

end ScopeFront
