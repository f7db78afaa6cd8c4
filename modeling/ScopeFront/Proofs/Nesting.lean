import ScopeFront.Proofs.Grammar

/-!
# The shape of forests

Which forests come of some sequence of tokens at all depends on two things: how deep they nest, and
what stands where.

* `Expr.nesting`, `Node.nesting`, `forestNesting` – the levels inside each other that the tokens of
  an expression, a node or a forest have to open;
* `Expr.height` – the operations inside each other in an expression;
* `Node.inside`, `allNodes` – the nodes inside a node, and all nodes of a forest;
* `WellPlaced` – labels, statements of bodies and the word `return` stand only where they may;
* `Grammar.Program.wellPlaced`, `Grammar.Program.nesting_le` – the forests of the grammar have both.
-/

set_option autoImplicit false

namespace ScopeFront

/-! ## Nesting -/

namespace Expr

/-- Whether the expression is an operation, and not a single name or number. -/
def isBinary : Expr → Bool
  | identifier _ | literal _ => false
  | binary .. => true

/-- The levels that an expression opens inside each other.  A left operand needs no parentheses; a
right one does where it is an operation. -/
def nesting : Expr → Nat
  | identifier _ | literal _ => 0
  | binary left _ right =>
    max left.nesting (if right.isBinary then 1 + right.nesting else 0)

/-- The levels that an expression opens as a right operand. -/
def operandNesting (e : Expr) : Nat := if e.isBinary then 1 + e.nesting else 0

/-- The number of operations inside each other, whether as left or as right operands. -/
def height : Expr → Nat
  | identifier _ | literal _ => 0
  | binary left _ right => max left.height right.height + 1

theorem nesting_binary (left : Expr) (op : BinaryOp) (right : Expr) :
    (binary left op right).nesting = max left.nesting right.operandNesting := rfl

theorem nesting_le_operandNesting (e : Expr) : e.nesting ≤ e.operandNesting := by
  cases e with
  | identifier name => exact Nat.le_refl 0
  | literal digits => exact Nat.le_refl 0
  | binary left op right => exact Nat.le_add_left _ 1

theorem operandNesting_le (e : Expr) : e.operandNesting ≤ 1 + e.nesting := by
  unfold operandNesting
  split
  · exact Nat.le_refl _
  · exact Nat.zero_le _

end Expr

/-- The levels that one of these expressions opens. -/
def expressionsNesting : List Expr → Nat
  | [] => 0
  | e :: es => max e.nesting (expressionsNesting es)

theorem expressionsNesting_le_iff {es : List Expr} {n : Nat} :
    expressionsNesting es ≤ n ↔ ∀ e ∈ es, e.nesting ≤ n := by
  induction es with
  | nil => simp [expressionsNesting]
  | cons e es ih => rw [expressionsNesting, Nat.max_le, ih, List.forall_mem_cons]

mutual

/-- The levels that a node opens inside each other: every body opens one, the braces of structures
and implementations open none. -/
def Node.nesting : Node → Nat
  | .function f => f.nesting
  | .forLoop condition body => max condition.nesting (1 + forestNesting body)
  | .struct .. => 0
  | .implement _ functions => functionsNesting functions
  | .labeled _ f => f.nesting
  | .namedScope _ body => 1 + forestNesting body
  | .unnamedScope body => 1 + forestNesting body
  | .declaration _ _ value => value.nesting
  | .assignment _ value => value.nesting
  | .ret none => 0
  | .ret (some value) => value.nesting
  | .call _ arguments => expressionsNesting arguments
  | .operator _ arguments => expressionsNesting arguments

/-- The levels that a function opens. -/
def Function.nesting : Function → Nat
  | .mk _ body => 1 + forestNesting body

/-- The levels that one of these nodes opens. -/
def forestNesting : List Node → Nat
  | [] => 0
  | node :: nodes => max node.nesting (forestNesting nodes)

/-- The levels that one of these functions opens. -/
def functionsNesting : List Function → Nat
  | [] => 0
  | f :: fs => max f.nesting (functionsNesting fs)

end

theorem forestNesting_le_iff {nodes : List Node} {n : Nat} :
    forestNesting nodes ≤ n ↔ ∀ node ∈ nodes, node.nesting ≤ n := by
  induction nodes with
  | nil => simp [forestNesting]
  | cons node nodes ih => rw [forestNesting, Nat.max_le, ih, List.forall_mem_cons]

theorem functionsNesting_le_iff {fs : List Function} {n : Nat} :
    functionsNesting fs ≤ n ↔ ∀ f ∈ fs, f.nesting ≤ n := by
  induction fs with
  | nil => simp [functionsNesting]
  | cons f fs ih => rw [functionsNesting, Nat.max_le, ih, List.forall_mem_cons]

/-! ## Places of nodes -/

mutual

/-- The nodes inside a node, however deep. -/
def Node.inside : Node → List Node
  | .function f => f.inside
  | .forLoop _ body => allNodes body
  | .implement _ functions => functionsInside functions
  | .labeled _ f => f.inside
  | .namedScope _ body => allNodes body
  | .unnamedScope body => allNodes body
  | _ => []

/-- The nodes inside a function. -/
def Function.inside : Function → List Node
  | .mk _ body => allNodes body

/-- The nodes of a forest, and those inside them. -/
def allNodes : List Node → List Node
  | [] => []
  | node :: nodes => node :: (node.inside ++ allNodes nodes)

/-- The nodes inside functions. -/
def functionsInside : List Function → List Node
  | [] => []
  | f :: fs => f.inside ++ functionsInside fs

end

theorem forall_mem_allNodes {nodes : List Node} {P : Node → Prop} :
    (∀ m ∈ allNodes nodes, P m) ↔ ∀ node ∈ nodes, P node ∧ ∀ m ∈ node.inside, P m := by
  induction nodes with
  | nil => simp [allNodes]
  | cons node nodes ih =>
      rw [allNodes, List.forall_mem_cons, List.forall_mem_append, ih, List.forall_mem_cons,
        and_assoc]

theorem forall_mem_functionsInside {fs : List Function} {P : Node → Prop} :
    (∀ m ∈ functionsInside fs, P m) ↔ ∀ f ∈ fs, ∀ m ∈ f.inside, P m := by
  induction fs with
  | nil => simp [functionsInside]
  | cons f fs ih => rw [functionsInside, List.forall_mem_append, ih, List.forall_mem_cons]

namespace Node

/-- Whether the node is a labeled scope. -/
def isLabeled : Node → Bool
  | labeled .. => true
  | _ => false

/-- Whether the node is a statement that only a body can hold. -/
def needsBody : Node → Bool
  | assignment .. | ret _ | call .. => true
  | _ => false

/-- The name of a scope, its label, the target of an assignment or what is called: the identifier
that a node begins with. -/
def firstName? : Node → Option String
  | namedScope name _ => some name
  | labeled label _ => some label
  | assignment target _ => some target
  | call callee _ => some callee
  | _ => none

/-- The node may stand in a body. -/
def Inner (node : Node) : Prop :=
  node.isLabeled = false ∧ node.firstName? ≠ some Rule.returnWord

end Node

/-- Labeled scopes stand only at the top level; assignments, calls and `return` never do; and no
scope, label, target or callee is called `return`. -/
structure WellPlaced (forest : List Node) : Prop where
  labels : ∀ node ∈ forest, ∀ inner ∈ node.inside, inner.isLabeled = false
  statements : ∀ node ∈ forest, node.needsBody = false
  names : ∀ node ∈ allNodes forest, node.firstName? ≠ some Rule.returnWord

/-- A forest is well placed when each of its nodes may stand at the top level, and all that is
inside in a body. -/
theorem wellPlaced_iff {forest : List Node} :
    WellPlaced forest ↔ ∀ node ∈ forest, node.needsBody = false ∧
      node.firstName? ≠ some Rule.returnWord ∧ ∀ inner ∈ node.inside, inner.Inner := by
  constructor
  · rintro ⟨hlabels, hstatements, hnames⟩ node hnode
    obtain ⟨hname, hinside⟩ := forall_mem_allNodes.1 hnames node hnode
    exact ⟨hstatements node hnode, hname,
      fun inner hinner => ⟨hlabels node hnode inner hinner, hinside inner hinner⟩⟩
  · intro h
    refine ⟨fun node hnode inner hinner => ((h node hnode).2.2 inner hinner).1,
      fun node hnode => (h node hnode).1, forall_mem_allNodes.2 fun node hnode => ?_⟩
    exact ⟨(h node hnode).2.1, fun inner hinner => ((h node hnode).2.2 inner hinner).2⟩

/-! ## Forests of the grammar -/

namespace Grammar

section Repetition

variable {α : Type} {item : Phrases α} {P : α → Prop} {n : Nat}

/-- What holds of every item whose tokens are of a certain kind. -/
theorem Many.forall_mem_of_tokens {Q : Token → Prop}
    (hi : ∀ {ts a}, item n ts a → (∀ t ∈ ts, Q t) → P a) {ts : List Token} {as : List α}
    (h : Many item n ts as) (hts : ∀ t ∈ ts, Q t) : ∀ a ∈ as, P a := by
  induction h with
  | nil => simp
  | cons ha _ ih =>
      obtain ⟨hfirst, hlater⟩ := List.forall_mem_append.1 hts
      exact List.forall_mem_cons.2 ⟨hi ha hfirst, ih hi hlater⟩

theorem CommaTail.forall_mem_of_tokens {Q : Token → Prop}
    (hi : ∀ {ts a}, item n ts a → (∀ t ∈ ts, Q t) → P a) {ts : List Token} {as : List α}
    (h : CommaTail item n ts as) (hts : ∀ t ∈ ts, Q t) : ∀ a ∈ as, P a := by
  induction h with
  | nil => simp
  | cons _ ha _ ih =>
      obtain ⟨_, hboth⟩ := List.forall_mem_cons.1 hts
      obtain ⟨hfirst, hlater⟩ := List.forall_mem_append.1 hboth
      exact List.forall_mem_cons.2 ⟨hi ha hfirst, ih hi hlater⟩

theorem CommaList.forall_mem_of_tokens {Q : Token → Prop}
    (hi : ∀ {ts a}, item n ts a → (∀ t ∈ ts, Q t) → P a) {ts : List Token} {as : List α}
    (h : CommaList item n ts as) (hts : ∀ t ∈ ts, Q t) : ∀ a ∈ as, P a := by
  cases h with
  | empty => simp
  | items ha has =>
      obtain ⟨hfirst, hlater⟩ := List.forall_mem_append.1 hts
      exact List.forall_mem_cons.2 ⟨hi ha hfirst, has.forall_mem_of_tokens hi hlater⟩

theorem Many.forall_mem (hi : ∀ {ts a}, item n ts a → P a) {ts : List Token} {as : List α}
    (h : Many item n ts as) : ∀ a ∈ as, P a :=
  h.forall_mem_of_tokens (Q := fun _ => True) (fun ha _ => hi ha) fun _ _ => trivial

theorem CommaList.forall_mem (hi : ∀ {ts a}, item n ts a → P a) {ts : List Token} {as : List α}
    (h : CommaList item n ts as) : ∀ a ∈ as, P a :=
  h.forall_mem_of_tokens (Q := fun _ => True) (fun ha _ => hi ha) fun _ _ => trivial

end Repetition

section Operands

variable {operand : Phrases Expr} {n : Nat}
  (ho : ∀ {ts e}, operand n ts e → e.operandNesting ≤ n)

include ho

theorem OperatorTail.nesting_le {left e : Expr} {ts : List Token}
    (h : OperatorTail operand left n ts e) (hleft : left.nesting ≤ n) : e.nesting ≤ n := by
  induction h with
  | nil => exact hleft
  | cons _ hright _ ih => exact ih ho (Nat.max_le.2 ⟨hleft, ho hright⟩)

theorem Chain.nesting_le {ts : List Token} {e : Expr} (h : Chain operand n ts e) :
    e.nesting ≤ n := by
  cases h with
  | mk hfirst htail =>
      exact htail.nesting_le ho (Nat.le_trans (Expr.nesting_le_operandNesting _) (ho hfirst))

end Operands

theorem Primary.operandNesting_le {n : Nat} {ts : List Token} {e : Expr} (h : Primary n ts e) :
    e.operandNesting ≤ n := by
  induction n generalizing ts e with
  | zero =>
      cases h with
      | identifier _ => exact Nat.zero_le _
      | literal _ => exact Nat.zero_le _
  | succ n ih =>
      cases h with
      | identifier _ => exact Nat.zero_le _
      | literal _ => exact Nat.zero_le _
      | parenthesized _ he _ =>
          have hinner := he.nesting_le ih
          have houter := e.operandNesting_le
          omega

theorem Expression.nesting_le {n : Nat} {ts : List Token} {e : Expr} (h : Expression n ts e) :
    e.nesting ≤ n :=
  Chain.nesting_le Primary.operandNesting_le h

theorem CommaList.expressionsNesting_le {n : Nat} {ts : List Token} {es : List Expr}
    (h : CommaList Expression n ts es) : expressionsNesting es ≤ n :=
  expressionsNesting_le_iff.2 (h.forall_mem Expression.nesting_le)

section Bodies

-- As for `Body.mono`, the induction over the levels stands once, for bodies.
variable {n : Nat} (hb : ∀ {ts body}, Body n ts body →
  1 + forestNesting body ≤ n ∧ ∀ m ∈ allNodes body, m.Inner)

include hb

theorem Signature.fits {ts : List Token} {f : Function} (h : Signature n ts f) :
    f.nesting ≤ n ∧ ∀ m ∈ f.inside, m.Inner := by
  cases h with
  | mk _ hbody =>
      rw [Function.nesting, Function.inside]
      exact hb hbody

theorem Method.fits {ts : List Token} {f : Function} (h : Method n ts f) :
    f.nesting ≤ n ∧ ∀ m ∈ f.inside, m.Inner := by
  cases h with
  | mk _ hs => exact hs.fits hb

theorem KeywordScope.fits {ts : List Token} {node : Node} (h : KeywordScope n ts node) :
    node.nesting ≤ n ∧ ∀ m ∈ node :: node.inside, m.Inner := by
  cases h with
  | function hf =>
      obtain ⟨hnesting, hinside⟩ := hf.fits hb
      exact ⟨hnesting, List.forall_mem_cons.2 ⟨⟨rfl, nofun⟩, hinside⟩⟩
  | forLoop _ _ he _ hbody =>
      obtain ⟨hnesting, hinside⟩ := hb hbody
      exact ⟨Nat.max_le.2 ⟨Expression.nesting_le he, hnesting⟩,
        List.forall_mem_cons.2 ⟨⟨rfl, nofun⟩, hinside⟩⟩
  | struct => exact ⟨Nat.zero_le _, List.forall_mem_cons.2 ⟨⟨rfl, nofun⟩, by simp [Node.inside]⟩⟩
  | implement _ _ _ hfs _ =>
      have hall := hfs.forall_mem (Method.fits hb)
      exact ⟨functionsNesting_le_iff.2 fun f hf => (hall f hf).1, List.forall_mem_cons.2
        ⟨⟨rfl, nofun⟩, forall_mem_functionsInside.2 fun f hf => (hall f hf).2⟩⟩

theorem Anywhere.fits {ts : List Token} {node : Node} (h : Anywhere n ts node) :
    node.nesting ≤ n ∧ ∀ m ∈ node :: node.inside, m.Inner := by
  cases h with
  | scope hs => exact hs.fits hb
  | namedScope hx hbody =>
      obtain ⟨hnesting, hinside⟩ := hb hbody
      exact ⟨hnesting, List.forall_mem_cons.2 ⟨⟨rfl, fun h => hx.2 (Option.some.inj h)⟩, hinside⟩⟩
  | unnamedScope hbody =>
      obtain ⟨hnesting, hinside⟩ := hb hbody
      exact ⟨hnesting, List.forall_mem_cons.2 ⟨⟨rfl, nofun⟩, hinside⟩⟩
  | declaration _ _ _ hv _ =>
      exact ⟨Expression.nesting_le hv,
        List.forall_mem_cons.2 ⟨⟨rfl, nofun⟩, by simp [Node.inside]⟩⟩
  | operator _ _ ha _ _ =>
      exact ⟨ha.expressionsNesting_le,
        List.forall_mem_cons.2 ⟨⟨rfl, nofun⟩, by simp [Node.inside]⟩⟩

theorem Statement.fits {ts : List Token} {node : Node} (h : Statement n ts node) :
    node.nesting ≤ n ∧ ∀ m ∈ node :: node.inside, m.Inner := by
  cases h with
  | anywhere ha => exact ha.fits hb
  | returnNothing =>
      exact ⟨Nat.zero_le _, List.forall_mem_cons.2 ⟨⟨rfl, nofun⟩, by simp [Node.inside]⟩⟩
  | returnValue _ hv _ =>
      exact ⟨Expression.nesting_le hv,
        List.forall_mem_cons.2 ⟨⟨rfl, nofun⟩, by simp [Node.inside]⟩⟩
  | assignment hx _ hv _ =>
      exact ⟨Expression.nesting_le hv, List.forall_mem_cons.2
        ⟨⟨rfl, fun h => hx.2 (Option.some.inj h)⟩, by simp [Node.inside]⟩⟩
  | call hx _ ha _ _ =>
      exact ⟨ha.expressionsNesting_le, List.forall_mem_cons.2
        ⟨⟨rfl, fun h => hx.2 (Option.some.inj h)⟩, by simp [Node.inside]⟩⟩

end Bodies

theorem Body.fits {n : Nat} {ts : List Token} {body : List Node} (h : Body n ts body) :
    1 + forestNesting body ≤ n ∧ ∀ m ∈ allNodes body, m.Inner := by
  induction n generalizing ts body with
  | zero => cases h
  | succ n ih =>
      cases h with
      | braces _ hs _ =>
          have hall := hs.forall_mem (Statement.fits ih)
          have hnesting : forestNesting body ≤ n :=
            forestNesting_le_iff.2 fun node hnode => (hall node hnode).1
          exact ⟨by omega, forall_mem_allNodes.2 fun node hnode =>
            List.forall_mem_cons.1 (hall node hnode).2⟩

theorem Anywhere.needsBody {n : Nat} {ts : List Token} {node : Node} (h : Anywhere n ts node) :
    node.needsBody = false := by
  cases h with
  | scope hs => cases hs <;> rfl
  | _ => rfl

theorem TopLevel.fits {n : Nat} {ts : List Token} {node : Node} (h : TopLevel n ts node) :
    node.nesting ≤ n ∧ node.needsBody = false ∧ node.firstName? ≠ some Rule.returnWord ∧
      ∀ m ∈ node.inside, m.Inner := by
  cases h with
  | anywhere ha =>
      obtain ⟨hnesting, hall⟩ := ha.fits Body.fits
      obtain ⟨hnode, hinside⟩ := List.forall_mem_cons.1 hall
      exact ⟨hnesting, ha.needsBody, hnode.2, hinside⟩
  | labeled hx hs =>
      obtain ⟨hnesting, hinside⟩ := hs.fits Body.fits
      exact ⟨hnesting, rfl, fun h => hx.2 (Option.some.inj h), hinside⟩

/-- **Forests of the grammar are well placed.** -/
theorem Program.wellPlaced {n : Nat} {ts : List Token} {forest : List Node}
    (h : Program n ts forest) : WellPlaced forest :=
  wellPlaced_iff.2 fun node hnode => (h.forall_mem TopLevel.fits node hnode).2

/-- **Forests of the grammar nest no deeper than its levels allow.** -/
theorem Program.nesting_le {n : Nat} {ts : List Token} {forest : List Node}
    (h : Program n ts forest) : forestNesting forest ≤ n :=
  forestNesting_le_iff.2 fun node hnode => (h.forall_mem TopLevel.fits node hnode).1

end Grammar

end ScopeFront
