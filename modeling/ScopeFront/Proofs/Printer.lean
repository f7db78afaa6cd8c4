import ScopeFront.Proofs.Nesting
import ScopeFront.Proofs.Parser.Exactness
import ScopeFront.Proofs.Parser.Language

/-!
# Tokens of forests

Every forest can be written as tokens, with parentheses only around right operands that are
operations.  Where the forest is well placed, it is read back from them, and no other tokens open
fewer levels.

* `Expr.tokens`, `Node.tokens`, `forestTokens` – the tokens of expressions, nodes and forests;
* `Grammar.expression_tokens`, `Grammar.program_tokens` – they derive what they were written for;
* `parseTokens_forestTokens` – a forest is read back from its tokens;
* `exists_parseTokens_eq_ok_iff` – the forests that come of some sequence of tokens.
-/

set_option autoImplicit false

namespace ScopeFront

/-! ## Writing -/

namespace Expr

/-- The tokens of an expression. -/
def tokens : Expr → List Token
  | identifier name => [.ofWord .identifier name]
  | literal digits => [.ofWord .literal digits]
  | binary left op right =>
    left.tokens ++ .ofWord .symbol op.symbol ::
      if right.isBinary then .ofSymbol '(' :: (right.tokens ++ [.ofSymbol ')']) else right.tokens

/-- The tokens of an expression as a right operand. -/
def operandTokens (e : Expr) : List Token :=
  if e.isBinary then .ofSymbol '(' :: (e.tokens ++ [.ofSymbol ')']) else e.tokens

theorem tokens_binary (left : Expr) (op : BinaryOp) (right : Expr) :
    (binary left op right).tokens =
      left.tokens ++ .ofWord .symbol op.symbol :: right.operandTokens := rfl

end Expr

section Lists

variable {α : Type}

/-- Items, each with a comma before it. -/
def commaTailTokens (write : α → List Token) : List α → List Token
  | [] => []
  | a :: as => .ofSymbol ',' :: (write a ++ commaTailTokens write as)

/-- Items with commas between them. -/
def commaTokens (write : α → List Token) : List α → List Token
  | [] => []
  | a :: as => write a ++ commaTailTokens write as

end Lists

/-- A type and a name. -/
def TypedName.tokens (d : TypedName) : List Token :=
  [.ofWord .typeKeyword d.type.word, .ofWord .identifier d.name]

/-- A member of a structure. -/
def TypedName.memberTokens (d : TypedName) : List Token := d.tokens ++ [.ofSymbol ';']

/-- A name, where there is one. -/
def nameTokens : Option String → List Token
  | none => []
  | some name => [.ofWord .identifier name]

/-- A parameter list, where there is one. -/
def parametersTokens : Option (List TypedName) → List Token
  | none => []
  | some ps => .ofSymbol '(' :: (commaTokens TypedName.tokens ps ++ [.ofSymbol ')'])

/-- A return type, where there is one. -/
def returnTypeTokens : Option TypeKeyword → List Token
  | none => []
  | some type => [.ofSymbol ':', .ofWord .typeKeyword type.word]

/-- The tokens before the body of a function. -/
def Header.tokens (header : Header) : List Token :=
  .ofWord .identifier header.name ::
    (parametersTokens header.parameters ++ returnTypeTokens header.returnType)

/-- Tokens in braces. -/
def braced (ts : List Token) : List Token := .ofSymbol '{' :: (ts ++ [.ofSymbol '}'])

/-- The arguments of a call, and the semicolon behind them. -/
def callTokens (arguments : List Expr) : List Token :=
  .ofSymbol '(' :: (commaTokens Expr.tokens arguments ++ [.ofSymbol ')', .ofSymbol ';'])

mutual

/-- The tokens of a node. -/
def Node.tokens : Node → List Token
  | .function f => .ofWord .scopeKeyword ScopeKeyword.function.word :: f.tokens
  | .forLoop condition body =>
    .ofWord .scopeKeyword ScopeKeyword.forLoop.word :: .ofSymbol '(' ::
      (condition.tokens ++ .ofSymbol ')' :: braced (forestTokens body))
  | .struct name members =>
    .ofWord .scopeKeyword ScopeKeyword.struct.word ::
      (nameTokens name ++ braced (members.flatMap TypedName.memberTokens))
  | .implement name functions =>
    .ofWord .scopeKeyword ScopeKeyword.implement.word ::
      (nameTokens name ++ braced (methodsTokens functions))
  | .labeled label f => .ofWord .identifier label :: f.tokens
  | .namedScope name body => .ofWord .identifier name :: braced (forestTokens body)
  | .unnamedScope body => braced (forestTokens body)
  | .declaration name type value =>
    .ofWord .typeKeyword type.word :: .ofWord .identifier name :: .ofSymbol '=' ::
      (value.tokens ++ [.ofSymbol ';'])
  | .assignment target value =>
    .ofWord .identifier target :: .ofSymbol '=' :: (value.tokens ++ [.ofSymbol ';'])
  | .ret none => [.ofWord .identifier Rule.returnWord, .ofSymbol ';']
  | .ret (some value) => .ofWord .identifier Rule.returnWord :: (value.tokens ++ [.ofSymbol ';'])
  | .call callee arguments => .ofWord .identifier callee :: callTokens arguments
  | .operator keyword arguments => .ofWord .operatorKeyword keyword.word :: callTokens arguments

/-- The tokens of a function, without the word that introduces it. -/
def Function.tokens : Function → List Token
  | .mk header body => header.tokens ++ braced (forestTokens body)

/-- The tokens of a forest. -/
def forestTokens : List Node → List Token
  | [] => []
  | node :: nodes => node.tokens ++ forestTokens nodes

/-- The tokens of the functions of an implementation. -/
def methodsTokens : List Function → List Token
  | [] => []
  | f :: fs =>
    .ofWord .scopeKeyword ScopeKeyword.function.word :: (f.tokens ++ methodsTokens fs)

end

/-! ## What is written derives what it was written for -/

namespace Grammar

section Repetition

variable {α : Type} {item : Phrases α} {write : α → List Token} {n : Nat}

theorem Many.of_forall {as : List α} (h : ∀ a ∈ as, item n (write a) a) :
    Many item n (as.flatMap write) as := by
  induction as with
  | nil => exact .nil
  | cons a as ih =>
      obtain ⟨ha, has⟩ := List.forall_mem_cons.1 h
      rw [List.flatMap_cons]
      exact .cons ha (ih has)

theorem CommaTail.of_forall {as : List α} (h : ∀ a ∈ as, item n (write a) a) :
    CommaTail item n (commaTailTokens write as) as := by
  induction as with
  | nil => exact .nil
  | cons a as ih =>
      obtain ⟨ha, has⟩ := List.forall_mem_cons.1 h
      exact .cons (Token.isSymbol_ofSymbol ',') ha (ih has)

theorem CommaList.of_forall {as : List α} (h : ∀ a ∈ as, item n (write a) a) :
    CommaList item n (commaTokens write as) as := by
  cases as with
  | nil => exact .empty
  | cons a as =>
      obtain ⟨ha, has⟩ := List.forall_mem_cons.1 h
      exact .items ha (.of_forall has)

end Repetition

section Operands

variable {operand : Phrases Expr} {n : Nat}

/-- One more operand behind the others. -/
theorem OperatorTail.snoc {left e right : Expr} {sign : Token} {op : BinaryOp}
    {ts us : List Token} (h : OperatorTail operand left n ts e)
    (hs : sign.Spells .symbol op.symbol) (hr : operand n us right) :
    OperatorTail operand left n (ts ++ sign :: us) (.binary e op right) := by
  induction h with
  | nil =>
      rw [← List.append_nil us]
      exact .cons hs hr .nil
  | cons hs' hr' _ ih =>
      rw [List.cons_append, List.append_assoc]
      exact .cons hs' hr' (ih hr)

theorem Chain.snoc {e right : Expr} {sign : Token} {op : BinaryOp} {ts us : List Token}
    (h : Chain operand n ts e) (hs : sign.Spells .symbol op.symbol) (hr : operand n us right) :
    Chain operand n (ts ++ sign :: us) (.binary e op right) := by
  cases h with
  | mk hf ht =>
      rw [List.append_assoc]
      exact .mk hf (ht.snoc hs hr)

end Operands

theorem Expression.of_primary {n : Nat} {ts : List Token} {e : Expr} (h : Primary n ts e) :
    Expression n ts e := by
  rw [← List.append_nil ts]
  exact .mk h .nil

/-- The tokens of an expression as a right operand: those of a leaf, or parentheses around what the
expression itself derives with a level less. -/
theorem primary_operandTokens {e : Expr} {n : Nat} (h : e.operandNesting ≤ n)
    (he : ∀ {m}, e.nesting ≤ m → Expression m e.tokens e) : Primary n e.operandTokens e := by
  cases e with
  | identifier name => exact .identifier rfl
  | literal digits => exact .literal rfl
  | binary left op right =>
      have hn : 1 + (Expr.binary left op right).nesting ≤ n := h
      obtain ⟨m, rfl⟩ : ∃ m, n = m + 1 := ⟨n - 1, by omega⟩
      exact .parenthesized (Token.isSymbol_ofSymbol '(') (he (by omega))
        (Token.isSymbol_ofSymbol ')')

theorem expression_tokens {e : Expr} {n : Nat} (h : e.nesting ≤ n) : Expression n e.tokens e := by
  induction e generalizing n with
  | identifier name => exact .of_primary (.identifier rfl)
  | literal digits => exact .of_primary (.literal rfl)
  | binary left op right ihleft ihright =>
      rw [Expr.nesting_binary, Nat.max_le] at h
      rw [Expr.tokens_binary]
      exact (ihleft h.1).snoc (Token.spells_ofWord _ _) (primary_operandTokens h.2 ihright)

theorem arguments_tokens {es : List Expr} {n : Nat} (h : expressionsNesting es ≤ n) :
    CommaList Expression n (commaTokens Expr.tokens es) es :=
  .of_forall fun e he => expression_tokens (expressionsNesting_le_iff.1 h e he)

theorem parameters_tokens (ps : Option (List TypedName)) (n : Nat) :
    Parameters n (parametersTokens ps) ps := by
  cases ps with
  | none => exact .absent
  | some ps =>
      refine .present (Token.isSymbol_ofSymbol '(') (.of_forall fun d _ => ?_)
        (Token.isSymbol_ofSymbol ')')
      exact .mk (Token.spells_ofWord _ _) rfl

theorem returnType_tokens (type : Option TypeKeyword) (n : Nat) :
    ReturnType n (returnTypeTokens type) type := by
  cases type with
  | none => exact .absent
  | some type => exact .present (Token.isSymbol_ofSymbol ':') (Token.spells_ofWord _ _)

theorem heading_tokens (header : Header) (n : Nat) : Heading n header.tokens header :=
  .mk rfl (parameters_tokens _ n) (returnType_tokens _ n)

theorem optionalName_tokens (name : Option String) (n : Nat) :
    OptionalName n (nameTokens name) name := by
  cases name with
  | none => exact .absent
  | some name => exact .present rfl

theorem members_tokens (ds : List TypedName) (n : Nat) :
    Many Member n (ds.flatMap TypedName.memberTokens) ds :=
  .of_forall fun _ _ => .mk (Token.spells_ofWord _ _) rfl (Token.isSymbol_ofSymbol ';')

theorem forestTokens_eq (nodes : List Node) : forestTokens nodes = nodes.flatMap Node.tokens := by
  induction nodes with
  | nil => rfl
  | cons node nodes ih => rw [forestTokens, ih, List.flatMap_cons]

theorem methodsTokens_eq (fs : List Function) :
    methodsTokens fs = fs.flatMap fun f =>
      .ofWord .scopeKeyword ScopeKeyword.function.word :: f.tokens := by
  induction fs with
  | nil => rfl
  | cons f fs ih => rw [methodsTokens, ih, List.flatMap_cons, List.cons_append]

section Bodies

variable {n : Nat} (hb : ∀ {body}, 1 + forestNesting body ≤ n → (∀ m ∈ allNodes body, m.Inner) →
  Body n (braced (forestTokens body)) body)

include hb

theorem signature_tokens {f : Function} (hn : f.nesting ≤ n) (hf : ∀ m ∈ f.inside, m.Inner) :
    Signature n f.tokens f := by
  obtain ⟨header, body⟩ := f
  exact .mk (heading_tokens header n) (hb hn hf)

theorem method_tokens {f : Function} (hn : f.nesting ≤ n) (hf : ∀ m ∈ f.inside, m.Inner) :
    Method n (.ofWord .scopeKeyword ScopeKeyword.function.word :: f.tokens) f :=
  .mk (Token.spells_ofWord _ _) (signature_tokens hb hn hf)

theorem anywhere_tokens {node : Node} (hn : node.nesting ≤ n) (hlabel : node.isLabeled = false)
    (hbody : node.needsBody = false) (hname : node.firstName? ≠ some Rule.returnWord)
    (hinside : ∀ m ∈ node.inside, m.Inner) : Anywhere n node.tokens node := by
  cases node with
  | function f => exact .scope (.function (method_tokens hb hn hinside))
  | forLoop condition body =>
      obtain ⟨hcondition, hnodes⟩ := Nat.max_le.1 hn
      exact .scope (.forLoop (Token.spells_ofWord _ _) (Token.isSymbol_ofSymbol '(')
        (expression_tokens hcondition) (Token.isSymbol_ofSymbol ')') (hb hnodes hinside))
  | struct name members =>
      exact .scope (.struct (Token.spells_ofWord _ _) (optionalName_tokens name n)
        (Token.isSymbol_ofSymbol '{') (members_tokens members n) (Token.isSymbol_ofSymbol '}'))
  | implement name functions =>
      have hfunctions := functionsNesting_le_iff.1 hn
      have hinner := forall_mem_functionsInside.1 hinside
      have hmethods : Many Method n (methodsTokens functions) functions := by
        rw [methodsTokens_eq]
        exact .of_forall fun f hf => method_tokens hb (hfunctions f hf) (hinner f hf)
      exact .scope (.implement (Token.spells_ofWord _ _) (optionalName_tokens name n)
        (Token.isSymbol_ofSymbol '{') hmethods (Token.isSymbol_ofSymbol '}'))
  | labeled label f => cases hlabel
  | namedScope name body =>
      exact .namedScope ⟨rfl, fun h => hname (congrArg some h)⟩ (hb hn hinside)
  | unnamedScope body => exact .unnamedScope (hb hn hinside)
  | declaration name type value =>
      exact .declaration (Token.spells_ofWord _ _) rfl (Token.isSymbol_ofSymbol '=')
        (expression_tokens hn) (Token.isSymbol_ofSymbol ';')
  | operator keyword arguments =>
      exact .operator (Token.spells_ofWord _ _) (Token.isSymbol_ofSymbol '(') (arguments_tokens hn)
        (Token.isSymbol_ofSymbol ')') (Token.isSymbol_ofSymbol ';')
  | assignment target value => cases hbody
  | ret value => cases hbody
  | call callee arguments => cases hbody

theorem statement_tokens {node : Node} (hn : node.nesting ≤ n) (hnode : node.Inner)
    (hinside : ∀ m ∈ node.inside, m.Inner) : Statement n node.tokens node := by
  obtain ⟨hlabel, hname⟩ := hnode
  by_cases hbody : node.needsBody = false
  · exact .anywhere (anywhere_tokens hb hn hlabel hbody hname hinside)
  · cases node with
    | assignment target value =>
        exact .assignment ⟨rfl, fun h => hname (congrArg some h)⟩ (Token.isSymbol_ofSymbol '=')
          (expression_tokens hn) (Token.isSymbol_ofSymbol ';')
    | ret value =>
        cases value with
        | none => exact .returnNothing (Token.spells_ofWord _ _) (Token.isSymbol_ofSymbol ';')
        | some value =>
            exact .returnValue (Token.spells_ofWord _ _) (expression_tokens hn)
              (Token.isSymbol_ofSymbol ';')
    | call callee arguments =>
        exact .call ⟨rfl, fun h => hname (congrArg some h)⟩ (Token.isSymbol_ofSymbol '(')
          (arguments_tokens hn) (Token.isSymbol_ofSymbol ')') (Token.isSymbol_ofSymbol ';')
    | _ => exact absurd rfl hbody

end Bodies

theorem body_tokens {n : Nat} {body : List Node} (hn : 1 + forestNesting body ≤ n)
    (hbody : ∀ m ∈ allNodes body, m.Inner) : Body n (braced (forestTokens body)) body := by
  induction n generalizing body with
  | zero => omega
  | succ n ih =>
      have hnodes := forestNesting_le_iff.1 (show forestNesting body ≤ n by omega)
      have hinner := forall_mem_allNodes.1 hbody
      have hmany : Many Statement n (forestTokens body) body := by
        rw [forestTokens_eq]
        refine .of_forall fun node hnode => ?_
        exact statement_tokens ih (hnodes node hnode) (hinner node hnode).1 (hinner node hnode).2
      exact .braces (Token.isSymbol_ofSymbol '{') hmany (Token.isSymbol_ofSymbol '}')

theorem program_tokens {n : Nat} {forest : List Node} (hplaced : WellPlaced forest)
    (hn : forestNesting forest ≤ n) : Program n (forestTokens forest) forest := by
  have hnodes := forestNesting_le_iff.1 hn
  have htop := wellPlaced_iff.1 hplaced
  rw [forestTokens_eq]
  refine .of_forall fun node hnode => ?_
  obtain ⟨hbody, hname, hinside⟩ := htop node hnode
  by_cases hlabel : node.isLabeled = false
  · exact .anywhere (anywhere_tokens body_tokens (hnodes node hnode) hlabel hbody hname hinside)
  · cases node with
    | labeled label f =>
        exact .labeled ⟨rfl, fun h => hname (congrArg some h)⟩
          (signature_tokens body_tokens (hnodes _ hnode) hinside)
    | _ => exact absurd rfl hlabel

end Grammar

/-! ## What is written holds no end marker -/

/-- None of the tokens is an end marker. -/
def Unended (ts : List Token) : Prop := ∀ t ∈ ts, t.isEof = false

@[simp]
theorem unended_nil : Unended [] := by simp [Unended]

@[simp]
theorem unended_cons {t : Token} {ts : List Token} :
    Unended (t :: ts) ↔ t.isEof = false ∧ Unended ts :=
  List.forall_mem_cons

@[simp]
theorem unended_append {ts us : List Token} : Unended (ts ++ us) ↔ Unended ts ∧ Unended us :=
  List.forall_mem_append

@[simp]
theorem Token.isEof_ofWord (kind : TokenKind) (word : String) :
    (Token.ofWord kind word).isEof = (kind == .eof) := rfl

@[simp]
theorem Token.isEof_ofSymbol (c : Char) : (Token.ofSymbol c).isEof = false := rfl

theorem Expr.unended_tokens (e : Expr) : Unended e.tokens := by
  induction e with
  | identifier name => simp [tokens]
  | literal digits => simp [tokens]
  | binary left op right ihleft ihright =>
      rw [tokens]
      split <;> simp [ihleft, ihright]

theorem unended_flatMap {α : Type} {write : α → List Token} (h : ∀ a, Unended (write a))
    (as : List α) : Unended (as.flatMap write) := by
  induction as with
  | nil => exact unended_nil
  | cons a as ih => simp [h a, ih]

theorem unended_commaTailTokens {α : Type} {write : α → List Token} (h : ∀ a, Unended (write a))
    (as : List α) : Unended (commaTailTokens write as) := by
  induction as with
  | nil => exact unended_nil
  | cons a as ih => simp [commaTailTokens, h a, ih]

theorem unended_commaTokens {α : Type} {write : α → List Token} (h : ∀ a, Unended (write a))
    (as : List α) : Unended (commaTokens write as) := by
  cases as with
  | nil => exact unended_nil
  | cons a as => simp [commaTokens, h a, unended_commaTailTokens h]

theorem Header.unended_tokens (header : Header) : Unended header.tokens := by
  obtain ⟨name, parameters, type⟩ := header
  have hparameters : Unended (parametersTokens parameters) := by
    cases parameters with
    | none => exact unended_nil
    | some ps =>
        have hwrite : ∀ d : TypedName, Unended d.tokens := by simp [TypedName.tokens]
        simp [parametersTokens, unended_commaTokens hwrite]
  have htype : Unended (returnTypeTokens type) := by
    cases type <;> simp [returnTypeTokens]
  simp [tokens, hparameters, htype]

theorem unended_nameTokens (name : Option String) : Unended (nameTokens name) := by
  cases name <;> simp [nameTokens]

theorem unended_callTokens (arguments : List Expr) : Unended (callTokens arguments) := by
  simp [callTokens, unended_commaTokens Expr.unended_tokens]

mutual

theorem Node.unended_tokens (node : Node) : Unended node.tokens := by
  cases node with
  | function f => simp [Node.tokens, f.unended_tokens]
  | forLoop condition body =>
      simp [Node.tokens, braced, condition.unended_tokens, unended_forestTokens body]
  | struct name members =>
      have hwrite : ∀ d : TypedName, Unended d.memberTokens := by
        simp [TypedName.memberTokens, TypedName.tokens]
      simp [Node.tokens, braced, unended_nameTokens, unended_flatMap hwrite]
  | implement name functions =>
      simp [Node.tokens, braced, unended_nameTokens, unended_methodsTokens functions]
  | labeled label f => simp [Node.tokens, f.unended_tokens]
  | namedScope name body => simp [Node.tokens, braced, unended_forestTokens body]
  | unnamedScope body => simp [Node.tokens, braced, unended_forestTokens body]
  | declaration name type value => simp [Node.tokens, value.unended_tokens]
  | assignment target value => simp [Node.tokens, value.unended_tokens]
  | ret value =>
      cases value with
      | none => simp [Node.tokens]
      | some value => simp [Node.tokens, value.unended_tokens]
  | call callee arguments => simp [Node.tokens, unended_callTokens]
  | operator keyword arguments => simp [Node.tokens, unended_callTokens]

theorem Function.unended_tokens (f : Function) : Unended f.tokens := by
  cases f with
  | mk header body => simp [Function.tokens, braced, header.unended_tokens, unended_forestTokens body]

theorem unended_forestTokens (nodes : List Node) : Unended (forestTokens nodes) := by
  cases nodes with
  | nil => exact unended_nil
  | cons node nodes => simp [forestTokens, node.unended_tokens, unended_forestTokens nodes]

theorem unended_methodsTokens (fs : List Function) : Unended (methodsTokens fs) := by
  cases fs with
  | nil => exact unended_nil
  | cons f fs => simp [methodsTokens, f.unended_tokens, unended_methodsTokens fs]

end

/-! ## Reading what was written -/

/-- A well placed forest is read back from its tokens wherever the limit allows its nesting. -/
theorem parseTokens_forestTokens {limit : Nat} {forest : List Node} (hplaced : WellPlaced forest)
    (hn : forestNesting forest ≤ limit) :
    (parseTokens limit (forestTokens forest)).2 = .ok forest :=
  parseTokens_of_program (Grammar.program_tokens hplaced hn) (unended_forestTokens forest)

/-- **The forests that can be read.**  A forest comes of some sequence of tokens if and only if it
is well placed and nests no deeper than the limit. -/
theorem exists_parseTokens_eq_ok_iff (limit : Nat) (forest : List Node) :
    (∃ tokens, (parseTokens limit tokens).2 = .ok forest) ↔
      WellPlaced forest ∧ forestNesting forest ≤ limit := by
  constructor
  · rintro ⟨tokens, h⟩
    rw [parseTokens_snd, Rule.forest_ok_iff (Parser.ofTokens_proper tokens limit)] at h
    exact ⟨h.wellPlaced, h.nesting_le⟩
  · rintro ⟨hplaced, hn⟩
    exact ⟨forestTokens forest, parseTokens_forestTokens hplaced hn⟩

end ScopeFront
