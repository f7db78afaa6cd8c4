import ScopeFront.Node
import ScopeFront.Parser.Statement

/-!
# The grammar

What the tokens of a program may be, said without reference to how they are read:

    program   = top*
    top       = anywhere | label sig
    statement = anywhere | `return` expr? ';' | id '=' expr ';' | id '(' args ')' ';'
    anywhere  = keyword scope | id body | body | type id '=' expr ';' | operation '(' args ')' ';'
    scope     = method | `for` '(' expr ')' body
              | `struct` id? '{' (type id ';')* '}' | `implement` id? '{' method* '}'
    method    = `function` sig
    sig       = id ('(' params ')')? (':' type)? body
    body      = '{' statement* '}'
    params    = (type id (',' type id)*)?
    args      = (expr (',' expr)*)?
    expr      = primary (op primary)*
    primary   = id | literal | '(' expr ')'

The `id` before a body, `=`, `(` or as a label is not the word `return`.  Operators fold from the
left.

Every phrase comes with the number of levels that it may open inside each other: a body and a
parenthesised primary each open one, and all other brackets open none.

* `Grammar.Program` – the forests that sequences of tokens stand for;
* `Grammar.Program.mono` – what a number of levels allows, a larger one allows too.
-/

set_option autoImplicit false

namespace ScopeFront

/-- Whether the token is the word or symbol `word` of the category `kind`. -/
def Token.Spells (t : Token) (kind : TokenKind) (word : String) : Prop :=
  t.kind = kind ∧ t.lexeme = word

theorem Token.isEof_eq_false {t : Token} {kind : TokenKind} (h : t.kind = kind)
    (hk : kind ≠ .eof) : t.isEof = false := by
  simp [isEof, h, hk]

theorem Token.isSymbol_iff {t : Token} {c : Char} :
    t.isSymbol c = true ↔ t.Spells .symbol (String.singleton c) := by
  simp [isSymbol, Spells]

theorem Token.isEof_of_isSymbol {t : Token} {c : Char} (h : t.isSymbol c = true) :
    t.isEof = false :=
  isEof_eq_false (isSymbol_iff.1 h).1 (by decide)

theorem Token.isSymbol_ne {t : Token} {c d : Char} (h : t.isSymbol c = true) (hcd : c ≠ d) :
    t.isSymbol d = false := by
  have hl := (isSymbol_iff.1 h).2
  simp [isSymbol, hl, hcd]

theorem Token.isSymbol_of_kind {t : Token} (h : t.kind ≠ .symbol) (c : Char) :
    t.isSymbol c = false := by
  simp [isSymbol, h]

/-- A word ends neither a program nor a body. -/
theorem Token.ends_nothing {t : Token} {kind : TokenKind} (h : t.kind = kind)
    (heof : kind ≠ .eof) (hsymbol : kind ≠ .symbol) :
    t.isEof = false ∧ t.isSymbol '}' = false :=
  ⟨isEof_eq_false h heof, isSymbol_of_kind (by rw [h]; exact hsymbol) _⟩

/-- A relation between sequences of tokens and what they stand for, for each number of levels that
the tokens may open inside each other. -/
abbrev Phrases (α : Type) : Type := Nat → List Token → α → Prop

namespace Grammar

section Repetition

variable {α : Type}

/-- `item*` -/
inductive Many (item : Phrases α) : Phrases (List α)
  | nil {n : Nat} : Many item n [] []
  | cons {n : Nat} {ts us : List Token} {a : α} {as : List α} :
    item n ts a → Many item n us as → Many item n (ts ++ us) (a :: as)

/-- `(',' item)*` -/
inductive CommaTail (item : Phrases α) : Phrases (List α)
  | nil {n : Nat} : CommaTail item n [] []
  | cons {n : Nat} {comma : Token} {ts us : List Token} {a : α} {as : List α} :
    comma.isSymbol ',' → item n ts a → CommaTail item n us as →
    CommaTail item n (comma :: (ts ++ us)) (a :: as)

/-- `(item (',' item)*)?` -/
inductive CommaList (item : Phrases α) : Phrases (List α)
  | empty {n : Nat} : CommaList item n [] []
  | items {n : Nat} {ts us : List Token} {a : α} {as : List α} :
    item n ts a → CommaTail item n us as → CommaList item n (ts ++ us) (a :: as)

end Repetition

/-! ## Expressions -/

/-- `(op operand)*`, folded from the left onto what stands before it. -/
inductive OperatorTail (operand : Phrases Expr) : Expr → Phrases Expr
  | nil {n : Nat} {left : Expr} : OperatorTail operand left n [] left
  | cons {n : Nat} {left right e : Expr} {sign : Token} {op : BinaryOp} {ts us : List Token} :
    sign.Spells .symbol op.symbol → operand n ts right →
    OperatorTail operand (.binary left op right) n us e →
    OperatorTail operand left n (sign :: (ts ++ us)) e

/-- `operand (op operand)*` -/
inductive Chain (operand : Phrases Expr) : Phrases Expr
  | mk {n : Nat} {first e : Expr} {ts us : List Token} :
    operand n ts first → OperatorTail operand first n us e → Chain operand n (ts ++ us) e

/-- `id | literal | '(' expr ')'` -/
inductive Primary : Phrases Expr
  | identifier {n : Nat} {t : Token} :
    t.kind = .identifier → Primary n [t] (.identifier t.lexeme)
  | literal {n : Nat} {t : Token} :
    t.kind = .literal → Primary n [t] (.literal t.lexeme)
  | parenthesized {n : Nat} {opening closing : Token} {ts : List Token} {e : Expr} :
    opening.isSymbol '(' → Chain Primary n ts e → closing.isSymbol ')' →
    Primary (n + 1) (opening :: (ts ++ [closing])) e

/-- `primary (op primary)*` -/
abbrev Expression : Phrases Expr := Chain Primary

/-! ## Headers -/

/-- `type id` -/
inductive Parameter : Phrases TypedName
  | mk {n : Nat} {t x : Token} {type : TypeKeyword} :
    t.Spells .typeKeyword type.word → x.kind = .identifier → Parameter n [t, x] ⟨x.lexeme, type⟩

/-- `('(' params ')')?` -/
inductive Parameters : Phrases (Option (List TypedName))
  | absent {n : Nat} : Parameters n [] none
  | present {n : Nat} {opening closing : Token} {ts : List Token} {ps : List TypedName} :
    opening.isSymbol '(' → CommaList Parameter n ts ps → closing.isSymbol ')' →
    Parameters n (opening :: (ts ++ [closing])) (some ps)

/-- `(':' type)?` -/
inductive ReturnType : Phrases (Option TypeKeyword)
  | absent {n : Nat} : ReturnType n [] none
  | present {n : Nat} {colon t : Token} {type : TypeKeyword} :
    colon.isSymbol ':' → t.Spells .typeKeyword type.word → ReturnType n [colon, t] (some type)

/-- `id ('(' params ')')? (':' type)?` -/
inductive Heading : Phrases Header
  | mk {n : Nat} {x : Token} {ts us : List Token} {ps : Option (List TypedName)}
    {type : Option TypeKeyword} :
    x.kind = .identifier → Parameters n ts ps → ReturnType n us type →
    Heading n (x :: (ts ++ us)) ⟨x.lexeme, ps, type⟩

/-- `id?` -/
inductive OptionalName : Phrases (Option String)
  | absent {n : Nat} : OptionalName n [] none
  | present {n : Nat} {x : Token} :
    x.kind = .identifier → OptionalName n [x] (some x.lexeme)

/-- `type id ';'` -/
inductive Member : Phrases TypedName
  | mk {n : Nat} {t x semicolon : Token} {type : TypeKeyword} :
    t.Spells .typeKeyword type.word → x.kind = .identifier → semicolon.isSymbol ';' →
    Member n [t, x, semicolon] ⟨x.lexeme, type⟩

/-! ## Scopes and statements -/

/-- An identifier other than `return`. -/
def PlainName (x : Token) : Prop := x.kind = .identifier ∧ x.lexeme ≠ Rule.returnWord

mutual

/-- `'{' statement* '}'` -/
inductive Body : Phrases (List Node)
  | braces {n : Nat} {opening closing : Token} {ts : List Token} {nodes : List Node} :
    opening.isSymbol '{' → Many Statement n ts nodes → closing.isSymbol '}' →
    Body (n + 1) (opening :: (ts ++ [closing])) nodes

/-- `id ('(' params ')')? (':' type)? body` -/
inductive Signature : Phrases Function
  | mk {n : Nat} {ts us : List Token} {header : Header} {body : List Node} :
    Heading n ts header → Body n us body → Signature n (ts ++ us) (.mk header body)

/-- `function sig` -/
inductive Method : Phrases Function
  | mk {n : Nat} {word : Token} {ts : List Token} {f : Function} :
    word.Spells .scopeKeyword ScopeKeyword.function.word → Signature n ts f →
    Method n (word :: ts) f

/-- A scope that a reserved word introduces. -/
inductive KeywordScope : Phrases Node
  | function {n : Nat} {ts : List Token} {f : Function} :
    Method n ts f → KeywordScope n ts (.function f)
  | forLoop {n : Nat} {word opening closing : Token} {ts us : List Token} {condition : Expr}
    {body : List Node} :
    word.Spells .scopeKeyword ScopeKeyword.forLoop.word → opening.isSymbol '(' →
    Expression n ts condition → closing.isSymbol ')' → Body n us body →
    KeywordScope n (word :: opening :: (ts ++ closing :: us)) (.forLoop condition body)
  | struct {n : Nat} {word opening closing : Token} {ts us : List Token} {name : Option String}
    {members : List TypedName} :
    word.Spells .scopeKeyword ScopeKeyword.struct.word → OptionalName n ts name →
    opening.isSymbol '{' → Many Member n us members → closing.isSymbol '}' →
    KeywordScope n (word :: (ts ++ opening :: (us ++ [closing]))) (.struct name members)
  | implement {n : Nat} {word opening closing : Token} {ts us : List Token} {name : Option String}
    {functions : List Function} :
    word.Spells .scopeKeyword ScopeKeyword.implement.word → OptionalName n ts name →
    opening.isSymbol '{' → Many Method n us functions → closing.isSymbol '}' →
    KeywordScope n (word :: (ts ++ opening :: (us ++ [closing]))) (.implement name functions)

/-- What may stand at the top level and in a body alike. -/
inductive Anywhere : Phrases Node
  | scope {n : Nat} {ts : List Token} {node : Node} :
    KeywordScope n ts node → Anywhere n ts node
  | namedScope {n : Nat} {x : Token} {ts : List Token} {body : List Node} :
    PlainName x → Body n ts body → Anywhere n (x :: ts) (.namedScope x.lexeme body)
  | unnamedScope {n : Nat} {ts : List Token} {body : List Node} :
    Body n ts body → Anywhere n ts (.unnamedScope body)
  | declaration {n : Nat} {t x equals semicolon : Token} {ts : List Token} {type : TypeKeyword}
    {value : Expr} :
    t.Spells .typeKeyword type.word → x.kind = .identifier → equals.isSymbol '=' →
    Expression n ts value → semicolon.isSymbol ';' →
    Anywhere n (t :: x :: equals :: (ts ++ [semicolon])) (.declaration x.lexeme type value)
  | operator {n : Nat} {word opening closing semicolon : Token} {ts : List Token}
    {keyword : OperatorKeyword} {arguments : List Expr} :
    word.Spells .operatorKeyword keyword.word → opening.isSymbol '(' →
    CommaList Expression n ts arguments → closing.isSymbol ')' → semicolon.isSymbol ';' →
    Anywhere n (word :: opening :: (ts ++ [closing, semicolon])) (.operator keyword arguments)

/-- What may stand in a body. -/
inductive Statement : Phrases Node
  | anywhere {n : Nat} {ts : List Token} {node : Node} :
    Anywhere n ts node → Statement n ts node
  | returnNothing {n : Nat} {word semicolon : Token} :
    word.Spells .identifier Rule.returnWord → semicolon.isSymbol ';' →
    Statement n [word, semicolon] (.ret none)
  | returnValue {n : Nat} {word semicolon : Token} {ts : List Token} {value : Expr} :
    word.Spells .identifier Rule.returnWord → Expression n ts value → semicolon.isSymbol ';' →
    Statement n (word :: (ts ++ [semicolon])) (.ret (some value))
  | assignment {n : Nat} {x equals semicolon : Token} {ts : List Token} {value : Expr} :
    PlainName x → equals.isSymbol '=' → Expression n ts value → semicolon.isSymbol ';' →
    Statement n (x :: equals :: (ts ++ [semicolon])) (.assignment x.lexeme value)
  | call {n : Nat} {x opening closing semicolon : Token} {ts : List Token}
    {arguments : List Expr} :
    PlainName x → opening.isSymbol '(' → CommaList Expression n ts arguments →
    closing.isSymbol ')' → semicolon.isSymbol ';' →
    Statement n (x :: opening :: (ts ++ [closing, semicolon])) (.call x.lexeme arguments)

end

/-- What may stand at the top level. -/
inductive TopLevel : Phrases Node
  | anywhere {n : Nat} {ts : List Token} {node : Node} :
    Anywhere n ts node → TopLevel n ts node
  | labeled {n : Nat} {label : Token} {ts : List Token} {f : Function} :
    PlainName label → Signature n ts f → TopLevel n (label :: ts) (.labeled label.lexeme f)

/-- `top*` -/
abbrev Program : Phrases (List Node) := Many TopLevel

/-! ## First tokens -/

theorem Primary.head {n : Nat} {ts : List Token} {e : Expr} (h : Primary n ts e) :
    ∃ t us, ts = t :: us ∧ ∀ c, c ≠ '(' → t.isSymbol c = false := by
  cases h with
  | identifier hk => exact ⟨_, _, rfl, fun c _ => Token.isSymbol_of_kind (by simp [hk]) c⟩
  | literal hk => exact ⟨_, _, rfl, fun c _ => Token.isSymbol_of_kind (by simp [hk]) c⟩
  | parenthesized ho _ _ => exact ⟨_, _, rfl, fun c hc => Token.isSymbol_ne ho hc.symm⟩

theorem Expression.head {n : Nat} {ts : List Token} {e : Expr} (h : Expression n ts e) :
    ∃ t us, ts = t :: us ∧ ∀ c, c ≠ '(' → t.isSymbol c = false := by
  cases h with
  | mk hf _ =>
      obtain ⟨t, us, rfl, ht⟩ := hf.head
      exact ⟨t, _, rfl, ht⟩

theorem Parameter.head {n : Nat} {ts : List Token} {d : TypedName} (h : Parameter n ts d) :
    ∃ t us, ts = t :: us ∧ t.kind = .typeKeyword := by
  cases h with
  | mk ht _ => exact ⟨_, _, rfl, ht.1⟩

theorem Member.head {n : Nat} {ts : List Token} {d : TypedName} (h : Member n ts d) :
    ∃ t us, ts = t :: us ∧ t.kind = .typeKeyword := by
  cases h with
  | mk ht _ _ => exact ⟨_, _, rfl, ht.1⟩

theorem Body.head {n : Nat} {ts : List Token} {body : List Node} (h : Body n ts body) :
    ∃ t us, ts = t :: us ∧ t.isSymbol '{' = true := by
  cases h with
  | braces ho _ _ => exact ⟨_, _, rfl, ho⟩

theorem Signature.head {n : Nat} {ts : List Token} {f : Function} (h : Signature n ts f) :
    ∃ t us, ts = t :: us ∧ t.kind = .identifier := by
  cases h with
  | mk hh _ =>
      cases hh with
      | mk hx _ _ => exact ⟨_, _, rfl, hx⟩

theorem Method.head {n : Nat} {ts : List Token} {f : Function} (h : Method n ts f) :
    ∃ t us, ts = t :: us ∧ t.kind = .scopeKeyword := by
  cases h with
  | mk hw _ => exact ⟨_, _, rfl, hw.1⟩

theorem KeywordScope.head {n : Nat} {ts : List Token} {node : Node} (h : KeywordScope n ts node) :
    ∃ t us, ts = t :: us ∧ t.kind = .scopeKeyword := by
  cases h with
  | function hf => exact hf.head
  | forLoop hw _ _ _ _ => exact ⟨_, _, rfl, hw.1⟩
  | struct hw _ _ _ _ => exact ⟨_, _, rfl, hw.1⟩
  | implement hw _ _ _ _ => exact ⟨_, _, rfl, hw.1⟩

theorem Anywhere.head {n : Nat} {ts : List Token} {node : Node} (h : Anywhere n ts node) :
    ∃ t us, ts = t :: us ∧ t.isEof = false ∧ t.isSymbol '}' = false := by
  cases h with
  | scope hs =>
      obtain ⟨t, us, rfl, ht⟩ := hs.head
      exact ⟨t, us, rfl, Token.ends_nothing ht (by decide) (by decide)⟩
  | namedScope hx _ => exact ⟨_, _, rfl, Token.ends_nothing hx.1 (by decide) (by decide)⟩
  | unnamedScope hb =>
      obtain ⟨t, us, rfl, ht⟩ := hb.head
      exact ⟨t, us, rfl, Token.isEof_of_isSymbol ht, Token.isSymbol_ne ht (by decide)⟩
  | declaration ht _ _ _ _ => exact ⟨_, _, rfl, Token.ends_nothing ht.1 (by decide) (by decide)⟩
  | operator hw _ _ _ _ => exact ⟨_, _, rfl, Token.ends_nothing hw.1 (by decide) (by decide)⟩

theorem Statement.head {n : Nat} {ts : List Token} {node : Node} (h : Statement n ts node) :
    ∃ t us, ts = t :: us ∧ t.isEof = false ∧ t.isSymbol '}' = false := by
  cases h with
  | anywhere ha => exact ha.head
  | returnNothing hw _ => exact ⟨_, _, rfl, Token.ends_nothing hw.1 (by decide) (by decide)⟩
  | returnValue hw _ _ => exact ⟨_, _, rfl, Token.ends_nothing hw.1 (by decide) (by decide)⟩
  | assignment hx _ _ _ => exact ⟨_, _, rfl, Token.ends_nothing hx.1 (by decide) (by decide)⟩
  | call hx _ _ _ _ => exact ⟨_, _, rfl, Token.ends_nothing hx.1 (by decide) (by decide)⟩

theorem TopLevel.head {n : Nat} {ts : List Token} {node : Node} (h : TopLevel n ts node) :
    ∃ t us, ts = t :: us ∧ t.isEof = false := by
  cases h with
  | anywhere ha =>
      obtain ⟨t, us, rfl, ht, _⟩ := ha.head
      exact ⟨t, us, rfl, ht⟩
  | labeled hx _ => exact ⟨_, _, rfl, Token.isEof_eq_false hx.1 (by decide)⟩

theorem ne_nil_of_head {ts : List Token} {P : Token → Prop} (h : ∃ t us, ts = t :: us ∧ P t) :
    ts ≠ [] := by
  obtain ⟨t, us, rfl, _⟩ := h
  exact List.cons_ne_nil t us

section NonEmpty

variable {n : Nat}

theorem Primary.ne_nil {e : Expr} : ¬ Primary n [] e := fun h => ne_nil_of_head h.head rfl

theorem Expression.ne_nil {e : Expr} : ¬ Expression n [] e :=
  fun h => ne_nil_of_head (Expression.head h) rfl

theorem Parameter.ne_nil {d : TypedName} : ¬ Parameter n [] d :=
  fun h => ne_nil_of_head h.head rfl

theorem Member.ne_nil {d : TypedName} : ¬ Member n [] d := fun h => ne_nil_of_head h.head rfl

theorem Method.ne_nil {f : Function} : ¬ Method n [] f := fun h => ne_nil_of_head h.head rfl

theorem Statement.ne_nil {node : Node} : ¬ Statement n [] node :=
  fun h => ne_nil_of_head h.head rfl

theorem TopLevel.ne_nil {node : Node} : ¬ TopLevel n [] node :=
  fun h => ne_nil_of_head h.head rfl

end NonEmpty

/-! ## More levels allow more -/

section Repetition

variable {α : Type} {item : Phrases α} {m n : Nat}

theorem Many.mono (hi : ∀ {ts a}, item m ts a → item n ts a) {ts : List Token} {as : List α}
    (h : Many item m ts as) : Many item n ts as := by
  induction h with
  | nil => exact .nil
  | cons ha _ ih => exact .cons (hi ha) (ih hi)

theorem CommaTail.mono (hi : ∀ {ts a}, item m ts a → item n ts a) {ts : List Token} {as : List α}
    (h : CommaTail item m ts as) : CommaTail item n ts as := by
  induction h with
  | nil => exact .nil
  | cons hc ha _ ih => exact .cons hc (hi ha) (ih hi)

theorem CommaList.mono (hi : ∀ {ts a}, item m ts a → item n ts a) {ts : List Token} {as : List α}
    (h : CommaList item m ts as) : CommaList item n ts as := by
  cases h with
  | empty => exact .empty
  | items ha has => exact .items (hi ha) (has.mono hi)

end Repetition

section Operands

variable {operand : Phrases Expr} {m n : Nat}

theorem OperatorTail.mono (ho : ∀ {ts e}, operand m ts e → operand n ts e) {left e : Expr}
    {ts : List Token} (h : OperatorTail operand left m ts e) :
    OperatorTail operand left n ts e := by
  induction h with
  | nil => exact .nil
  | cons hs hr _ ih => exact .cons hs (ho hr) (ih ho)

theorem Chain.mono (ho : ∀ {ts e}, operand m ts e → operand n ts e) {ts : List Token} {e : Expr}
    (h : Chain operand m ts e) : Chain operand n ts e := by
  cases h with
  | mk hf ht => exact .mk (ho hf) (ht.mono ho)

end Operands

theorem Primary.mono {m n : Nat} (hmn : m ≤ n) {ts : List Token} {e : Expr}
    (h : Primary m ts e) : Primary n ts e := by
  induction m generalizing n ts e with
  | zero =>
      cases h with
      | identifier hk => exact .identifier hk
      | literal hk => exact .literal hk
  | succ m ih =>
      cases h with
      | identifier hk => exact .identifier hk
      | literal hk => exact .literal hk
      | parenthesized ho he hc =>
          obtain ⟨k, rfl⟩ : ∃ k, n = k + 1 := ⟨n - 1, by omega⟩
          exact .parenthesized ho (he.mono (ih (by omega))) hc

theorem Expression.mono {m n : Nat} (hmn : m ≤ n) {ts : List Token} {e : Expr}
    (h : Expression m ts e) : Expression n ts e :=
  Chain.mono (Primary.mono hmn) h

theorem Parameter.mono {m n : Nat} {ts : List Token} {d : TypedName} (h : Parameter m ts d) :
    Parameter n ts d := by
  cases h with
  | mk ht hx => exact .mk ht hx

theorem Member.mono {m n : Nat} {ts : List Token} {d : TypedName} (h : Member m ts d) :
    Member n ts d := by
  cases h with
  | mk ht hx hs => exact .mk ht hx hs

theorem Parameters.mono {m n : Nat} {ts : List Token} {ps : Option (List TypedName)}
    (h : Parameters m ts ps) : Parameters n ts ps := by
  cases h with
  | absent => exact .absent
  | present ho hp hc => exact .present ho (hp.mono Parameter.mono) hc

theorem ReturnType.mono {m n : Nat} {ts : List Token} {type : Option TypeKeyword}
    (h : ReturnType m ts type) : ReturnType n ts type := by
  cases h with
  | absent => exact .absent
  | present hc ht => exact .present hc ht

theorem Heading.mono {m n : Nat} {ts : List Token} {header : Header} (h : Heading m ts header) :
    Heading n ts header := by
  cases h with
  | mk hx hp ht => exact .mk hx hp.mono ht.mono

theorem OptionalName.mono {m n : Nat} {ts : List Token} {name : Option String}
    (h : OptionalName m ts name) : OptionalName n ts name := by
  cases h with
  | absent => exact .absent
  | present hx => exact .present hx

section Bodies

-- The scopes and statements that two numbers of levels allow are compared through their bodies,
-- so that the induction over the levels stands once, in `Body.mono`.
variable {m n : Nat} (hmn : m ≤ n) (hb : ∀ {ts body}, Body m ts body → Body n ts body)

include hb

theorem Signature.of_bodies {ts : List Token} {f : Function} (h : Signature m ts f) :
    Signature n ts f := by
  cases h with
  | mk hh hbody => exact .mk hh.mono (hb hbody)

theorem Method.of_bodies {ts : List Token} {f : Function} (h : Method m ts f) :
    Method n ts f := by
  cases h with
  | mk hw hs => exact .mk hw (hs.of_bodies hb)

include hmn

theorem KeywordScope.of_bodies {ts : List Token} {node : Node} (h : KeywordScope m ts node) :
    KeywordScope n ts node := by
  cases h with
  | function hf => exact .function (hf.of_bodies hb)
  | forLoop hw ho he hc hbody => exact .forLoop hw ho (Expression.mono hmn he) hc (hb hbody)
  | struct hw hx ho hm hc => exact .struct hw hx.mono ho (hm.mono Member.mono) hc
  | implement hw hx ho hf hc => exact .implement hw hx.mono ho (hf.mono (Method.of_bodies hb)) hc

theorem Anywhere.of_bodies {ts : List Token} {node : Node} (h : Anywhere m ts node) :
    Anywhere n ts node := by
  cases h with
  | scope hs => exact .scope (hs.of_bodies hmn hb)
  | namedScope hx hbody => exact .namedScope hx (hb hbody)
  | unnamedScope hbody => exact .unnamedScope (hb hbody)
  | declaration ht hx he hv hs => exact .declaration ht hx he (Expression.mono hmn hv) hs
  | operator hw ho ha hc hs => exact .operator hw ho (ha.mono (Expression.mono hmn)) hc hs

theorem Statement.of_bodies {ts : List Token} {node : Node} (h : Statement m ts node) :
    Statement n ts node := by
  cases h with
  | anywhere ha => exact .anywhere (ha.of_bodies hmn hb)
  | returnNothing hw hs => exact .returnNothing hw hs
  | returnValue hw hv hs => exact .returnValue hw (Expression.mono hmn hv) hs
  | assignment hx he hv hs => exact .assignment hx he (Expression.mono hmn hv) hs
  | call hx ho ha hc hs => exact .call hx ho (ha.mono (Expression.mono hmn)) hc hs

end Bodies

theorem Body.mono {m n : Nat} (hmn : m ≤ n) {ts : List Token} {body : List Node}
    (h : Body m ts body) : Body n ts body := by
  induction m generalizing n ts body with
  | zero => cases h
  | succ m ih =>
      cases h with
      | braces ho hs hc =>
          obtain ⟨k, rfl⟩ : ∃ k, n = k + 1 := ⟨n - 1, by omega⟩
          have hmk : m ≤ k := by omega
          exact .braces ho (hs.mono (Statement.of_bodies hmk (ih hmk))) hc

theorem TopLevel.mono {m n : Nat} (hmn : m ≤ n) {ts : List Token} {node : Node}
    (h : TopLevel m ts node) : TopLevel n ts node := by
  cases h with
  | anywhere ha => exact .anywhere (ha.of_bodies hmn (Body.mono hmn))
  | labeled hx hs => exact .labeled hx (hs.of_bodies (Body.mono hmn))

/-- **What a number of levels allows, a larger one allows too.** -/
theorem Program.mono {m n : Nat} (hmn : m ≤ n) {ts : List Token} {nodes : List Node}
    (h : Program m ts nodes) : Program n ts nodes :=
  Many.mono (TopLevel.mono hmn) h

end Grammar

end ScopeFront
