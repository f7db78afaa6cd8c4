import ScopeFront.Proofs.Concatenation
import ScopeFront.Proofs.Lexer.Categories
import ScopeFront.Proofs.Nesting
import ScopeFront.Tree

/-!
# Trees keep everything

The tree view gives one kind to things that differ: names and numbers, functions and labeled scopes,
and what is left out leaves no child behind.  Trees are read back all the same.  The text of a leaf
tells whether it is a name or a number, a label is no reserved word, and what comes from a header is
of kinds that no node has.

* `Expr.ofTree?`, `Header.ofTrees`, `Node.ofTree?`, `Node.ofTrees` – what trees stand for;
* `Expr.Spelled`, `Node.Spelled` – names, numbers and labels are spelled as such;
* `Node.ofTree?_toTree`, `Node.ofTrees_toTrees` – what is so spelled is read back;
* `Regular`, `Grammar.Program.spelled` – programs are spelled so where the text of every token
  decides its category;
* `tree_view_injective` – source texts with the same trees have the same nodes.
-/

set_option autoImplicit false

namespace ScopeFront

/-! ## Reading trees back -/

/-- The first of the trees that has the kind. -/
def Tree.child? (kind : TreeKind) (trees : List Tree) : Option Tree :=
  trees.find? (·.kind == kind)

/-- The expression that a tree stands for. -/
def Expr.ofTree? : Tree → Option Expr
  | .node .expression value _ =>
    if TokenKind.ofText value = .literal then some (.literal value) else some (.identifier value)
  | .node .operator value [left, right] =>
    match Expr.ofTree? left, BinaryOp.ofSymbol? value, Expr.ofTree? right with
    | some left, some op, some right => some (.binary left op right)
    | _, _, _ => none
  | _ => none

/-- The parameter or member that a tree stands for. -/
def TypedName.ofTree? : Tree → Option TypedName
  | .node _ name [type] => (TypeKeyword.ofWord? type.value).map (⟨name, ·⟩)
  | _ => none

/-- The name among the children of a scope. -/
def nameOfTrees? (children : List Tree) : Option String :=
  (Tree.child? .identifier children).map Tree.value

/-- The header among the children of a scope. -/
def Header.ofTrees (children : List Tree) : Header where
  name := (nameOfTrees? children).getD ""
  parameters := (Tree.child? .parameters children).map (·.children.filterMap TypedName.ofTree?)
  returnType := (Tree.child? .returnType children).bind (TypeKeyword.ofWord? ·.value)

/-- The function that a node is. -/
def Node.function? : Node → Option Function
  | function f => some f
  | _ => none

/-- The node that a tree with these parts stands for; `body` are the nodes among the children. -/
def Node.ofParts? (value : String) (children : List Tree) (body : List Node) :
    TreeKind → Option Node
  | .scope =>
    match ScopeKeyword.ofWord? value with
    | some .function => some (.function (.mk (.ofTrees children) body))
    | some .forLoop =>
      ((Tree.child? .condition children).bind fun t => t.children.head?.bind Expr.ofTree?).map
        (.forLoop · body)
    | some .struct =>
      some (.struct (nameOfTrees? children)
        ((children.filter (·.kind == .member)).filterMap TypedName.ofTree?))
    | some .implement =>
      some (.implement (nameOfTrees? children) (body.filterMap Node.function?))
    | none => some (.labeled value (.mk (.ofTrees children) body))
  | .namedScope => some (.namedScope value body)
  | .unnamedScope => some (.unnamedScope body)
  | .variableDeclaration =>
    match children with
    | [type, e] =>
      (TypeKeyword.ofWord? type.value).bind fun type =>
        (Expr.ofTree? e).map (.declaration value type ·)
    | _ => none
  | .assignment => (children.head?.bind Expr.ofTree?).map (.assignment value ·)
  | .returnStatement => some (.ret (children.head?.bind Expr.ofTree?))
  | .functionCall => some (.call value (children.filterMap Expr.ofTree?))
  | .operator =>
    (OperatorKeyword.ofWord? value).map (.operator · (children.filterMap Expr.ofTree?))
  | _ => none

mutual

/-- The node that a tree stands for, if it stands for one. -/
def Node.ofTree? : Tree → Option Node
  | .node kind value children => Node.ofParts? value children (Node.ofTrees children) kind

/-- The nodes that some of the trees stand for. -/
def Node.ofTrees : List Tree → List Node
  | [] => []
  | t :: ts => (Node.ofTree? t).toList ++ Node.ofTrees ts

end

/-! ## Parts and nodes -/

/-- Whether trees of the kind are parts of nodes, and never nodes. -/
def TreeKind.isPart : TreeKind → Bool
  | identifier | parameters | parameter | returnType | type | member | condition | expression =>
    true
  | _ => false

theorem Node.isPart_toTree (node : Node) : node.toTree.kind.isPart = false := by
  cases node with
  | function f => cases f; rfl
  | labeled label f => cases f; rfl
  | _ => rfl

theorem Node.ofTree?_of_isPart {t : Tree} (h : t.kind.isPart = true) : Node.ofTree? t = none := by
  obtain ⟨kind, value, children⟩ := t
  cases kind with
  | identifier => rfl
  | parameters => rfl
  | parameter => rfl
  | returnType => rfl
  | type => rfl
  | member => rfl
  | condition => rfl
  | expression => rfl
  | _ => cases h

/-- Parts before the trees of nodes stand for no nodes. -/
theorem Node.ofTrees_parts {parts : List Tree} (h : ∀ t ∈ parts, t.kind.isPart = true)
    (ts : List Tree) : Node.ofTrees (parts ++ ts) = Node.ofTrees ts := by
  induction parts with
  | nil => rfl
  | cons t parts ih =>
      obtain ⟨ht, hparts⟩ := List.forall_mem_cons.1 h
      rw [List.cons_append, Node.ofTrees, Node.ofTree?_of_isPart ht, ih hparts]
      rfl

/-- A part is not found among the trees of nodes. -/
theorem Tree.child?_toTrees {kind : TreeKind} (h : kind.isPart = true) (nodes : List Node) :
    Tree.child? kind (Node.toTrees nodes) = none := by
  rw [child?, List.find?_eq_none, Node.toTrees_eq_map, List.forall_mem_map]
  intro node _ hkind
  have hpart := node.isPart_toTree
  rw [beq_iff_eq.1 hkind, h] at hpart
  cases hpart

/-! ## Parts are read back -/

theorem TypedName.ofTree?_toTree (kind : TreeKind) (d : TypedName) :
    TypedName.ofTree? (d.toTree kind) = some d := by
  have htype : TypeKeyword.ofWord? d.type.toTree.value = some d.type :=
    TypeKeyword.ofWord?_word d.type
  rw [toTree, ofTree?, htype]
  rfl

/-- A list is read back where each of its elements is. -/
theorem filterMap_toTree {α : Type} {toTree : α → Tree} {ofTree? : Tree → Option α} {as : List α}
    (h : ∀ a ∈ as, ofTree? (toTree a) = some a) : (as.map toTree).filterMap ofTree? = as := by
  induction as with
  | nil => rfl
  | cons a as ih =>
      obtain ⟨ha, has⟩ := List.forall_mem_cons.1 h
      rw [List.map_cons, List.filterMap_cons_some ha, ih has]

/-- The name of a scope comes before everything else. -/
theorem nameOfTrees?_nameTrees (name : Option String) {ts : List Tree}
    (h : Tree.child? .identifier ts = none) : nameOfTrees? (nameTrees name ++ ts) = name := by
  cases name with
  | none => rw [nameOfTrees?, nameTrees, Option.toList_none, List.map_nil, List.nil_append, h]; rfl
  | some name => rfl

theorem Header.isPart_toTrees (header : Header) : ∀ t ∈ header.toTrees, t.kind.isPart = true := by
  obtain ⟨name, parameters, type⟩ := header
  cases parameters <;> cases type <;> simp [toTrees, Tree.leaf, Tree.kind, TreeKind.isPart]

/-- A header is read back before the trees of a body. -/
theorem Header.ofTrees_toTrees (header : Header) (body : List Node) :
    Header.ofTrees (header.toTrees ++ Node.toTrees body) = header := by
  obtain ⟨name, parameters, type⟩ := header
  have hparameters : (Header.ofTrees (Header.toTrees ⟨name, parameters, type⟩ ++
      Node.toTrees body)).parameters = parameters := by
    cases parameters with
    | some ps => exact congrArg some (filterMap_toTree fun d _ => d.ofTree?_toTree .parameter)
    | none =>
        have hbody : Tree.child? .parameters (Node.toTrees body) = none :=
          Tree.child?_toTrees rfl body
        cases type <;> exact congrArg (Option.map _) hbody
  have htype : (Header.ofTrees (Header.toTrees ⟨name, parameters, type⟩ ++
      Node.toTrees body)).returnType = type := by
    cases type with
    | some type => cases parameters <;> exact TypeKeyword.ofWord?_word type
    | none =>
        have hbody : Tree.child? .returnType (Node.toTrees body) = none :=
          Tree.child?_toTrees rfl body
        cases parameters <;> exact congrArg (Option.bind · _) hbody
  exact congrArg₂ (Header.mk name) hparameters htype

/-! ## Spelling -/

/-- Names and numbers have the texts of names and numbers. -/
def Expr.Spelled : Expr → Prop
  | identifier name => TokenKind.ofText name = .identifier
  | literal digits => TokenKind.ofText digits = .literal
  | binary left _ right => left.Spelled ∧ right.Spelled

namespace Node

/-- The expressions of a node, apart from those of the nodes inside it. -/
def expressions : Node → List Expr
  | forLoop condition _ => [condition]
  | declaration _ _ value => [value]
  | assignment _ value => [value]
  | ret value => value.toList
  | call _ arguments => arguments
  | operator _ arguments => arguments
  | _ => []

/-- The label of a labeled scope. -/
def label? : Node → Option String
  | labeled label _ => some label
  | _ => none

/-- The expressions of the node are spelled as what they are, and its label as a name. -/
structure Spelled (node : Node) : Prop where
  expressions : ∀ e ∈ node.expressions, e.Spelled
  label : ∀ label ∈ node.label?, TokenKind.ofText label = .identifier

end Node

/-- A text that is a name by itself is not reserved for a scope. -/
theorem scopeKeyword_eq_none {text : String} (h : TokenKind.ofText text = .identifier) :
    ScopeKeyword.ofWord? text = none := by
  cases hk : ScopeKeyword.ofWord? text with
  | none => rfl
  | some k =>
      have hreserved : TokenKind.reserved? text = some .scopeKeyword := by
        rw [TokenKind.reserved?, hk]
        rfl
      rw [TokenKind.ofText, hreserved] at h
      cases h

/-! ## Nodes are read back -/

theorem Expr.ofTree?_toTree {e : Expr} (h : e.Spelled) : Expr.ofTree? e.toTree = some e := by
  induction e with
  | identifier name =>
      have hname : TokenKind.ofText name = .identifier := h
      rw [toTree, Tree.leaf, ofTree?, if_neg (by simp [hname])]
  | literal digits =>
      have hdigits : TokenKind.ofText digits = .literal := h
      rw [toTree, Tree.leaf, ofTree?, if_pos hdigits]
  | binary left op right ihleft ihright =>
      rw [toTree, ofTree?, ihleft h.1, ihright h.2, BinaryOp.ofSymbol?_symbol]

theorem Expr.filterMap_toTree {es : List Expr} (h : ∀ e ∈ es, e.Spelled) :
    (es.map Expr.toTree).filterMap Expr.ofTree? = es :=
  ScopeFront.filterMap_toTree fun e he => Expr.ofTree?_toTree (h e he)

/-- The members of a structure are read back behind its name. -/
theorem TypedName.filterMap_members (name : Option String) (members : List TypedName) :
    ((nameTrees name ++ members.map (·.toTree .member)).filter (·.kind == .member)).filterMap
      TypedName.ofTree? = members := by
  have hname : (nameTrees name).filter (·.kind == .member) = [] := by cases name <;> rfl
  have hmembers : (members.map (·.toTree .member)).filter (·.kind == .member) =
      members.map (·.toTree .member) := by
    rw [List.filter_eq_self, List.forall_mem_map]
    intro d _
    rfl
  rw [List.filter_append, hname, hmembers, List.nil_append]
  exact filterMap_toTree fun d _ => d.ofTree?_toTree .member

theorem isPart_nameTrees (name : Option String) : ∀ t ∈ nameTrees name, t.kind.isPart = true := by
  cases name <;> simp [nameTrees, Tree.leaf, Tree.kind, TreeKind.isPart]

/-- A scope with a header is read back where its body is. -/
theorem Function.ofTree?_toTree {f : Function} (h : Node.ofTrees (Node.toTrees f.body) = f.body)
    (label : String) :
    Node.ofTree? (f.toTree label) =
      Node.ofParts? label (f.header.toTrees ++ Node.toTrees f.body) f.body .scope := by
  obtain ⟨header, body⟩ := f
  have hbody : Node.ofTrees (header.toTrees ++ Node.toTrees body) = body := by
    rw [Node.ofTrees_parts header.isPart_toTrees]
    exact h
  rw [Function.toTree, Node.ofTree?, hbody]
  rfl

theorem Function.ofTree?_function {f : Function}
    (h : Node.ofTrees (Node.toTrees f.body) = f.body) :
    Node.ofTree? (f.toTree ScopeKeyword.function.word) = some (.function f) := by
  rw [Function.ofTree?_toTree h]
  simp only [Node.ofParts?, ScopeKeyword.ofWord?_word, Header.ofTrees_toTrees]
  cases f
  rfl

theorem Function.toTrees_eq (fs : List Function) :
    Function.toTrees fs = Node.toTrees (fs.map Node.function) := by
  induction fs with
  | nil => rfl
  | cons f fs ih => rw [Function.toTrees, List.map_cons, Node.toTrees, Node.toTree, ih]

mutual

/-- **A node is read back from its tree.** -/
theorem Node.ofTree?_toTree (node : Node) (hnode : node.Spelled)
    (hinside : ∀ m ∈ node.inside, m.Spelled) : Node.ofTree? node.toTree = some node := by
  cases node with
  | function f =>
      rw [Node.toTree]
      exact Function.ofTree?_function (f.ofTrees_body hinside)
  | forLoop condition body =>
      have hcondition := Expr.ofTree?_toTree (hnode.expressions condition List.mem_cons_self)
      have hbody : Node.ofTrees (.node .condition "" [condition.toTree] :: Node.toTrees body) =
          body := by
        rw [Node.ofTrees, Node.ofTree?_of_isPart rfl, Node.ofTrees_toTrees body hinside]
        rfl
      rw [Node.toTree, Node.ofTree?, hbody]
      simp only [Node.ofParts?, ScopeKeyword.ofWord?_word]
      exact congrArg (Option.map _) hcondition
  | struct name members =>
      have hname : Tree.child? .identifier (members.map (·.toTree .member)) = none := by
        rw [Tree.child?, List.find?_eq_none, List.forall_mem_map]
        intro d _
        exact Bool.false_ne_true
      rw [Node.toTree, Node.ofTree?]
      simp only [Node.ofParts?, ScopeKeyword.ofWord?_word]
      rw [nameOfTrees?_nameTrees name hname, TypedName.filterMap_members]
  | implement name functions =>
      have hname : Tree.child? .identifier (Function.toTrees functions) = none := by
        rw [Function.toTrees_eq]
        exact Tree.child?_toTrees rfl _
      have hfunctions := Function.ofTrees_toTrees functions hinside
      rw [Node.toTree, Node.ofTree?, Node.ofTrees_parts (isPart_nameTrees name)]
      simp only [Node.ofParts?, ScopeKeyword.ofWord?_word]
      rw [nameOfTrees?_nameTrees name hname, hfunctions]
  | labeled label f =>
      have hlabel := scopeKeyword_eq_none (hnode.label label rfl)
      rw [Node.toTree, Function.ofTree?_toTree (f.ofTrees_body hinside)]
      simp only [Node.ofParts?, hlabel, Header.ofTrees_toTrees]
      cases f
      rfl
  | namedScope name body =>
      rw [Node.toTree, Node.ofTree?, Node.ofTrees_toTrees body hinside]
      rfl
  | unnamedScope body =>
      rw [Node.toTree, Node.ofTree?, Node.ofTrees_toTrees body hinside]
      rfl
  | declaration name type value =>
      have hvalue := Expr.ofTree?_toTree (hnode.expressions value List.mem_cons_self)
      have htype : TypeKeyword.ofWord? type.toTree.value = some type :=
        TypeKeyword.ofWord?_word type
      rw [Node.toTree, Node.ofTree?]
      simp only [Node.ofParts?, htype, hvalue]
      rfl
  | assignment target value =>
      have hvalue := Expr.ofTree?_toTree (hnode.expressions value List.mem_cons_self)
      rw [Node.toTree, Node.ofTree?]
      exact congrArg (Option.map _) hvalue
  | ret value =>
      rw [Node.toTree, Node.ofTree?]
      cases value with
      | none => rfl
      | some value =>
          have hvalue := Expr.ofTree?_toTree (hnode.expressions value List.mem_cons_self)
          exact congrArg (some ∘ Node.ret) hvalue
  | call callee arguments =>
      have harguments : (arguments.map Expr.toTree).filterMap Expr.ofTree? = arguments :=
        Expr.filterMap_toTree hnode.expressions
      rw [Node.toTree, Node.ofTree?]
      simp only [Node.ofParts?, harguments]
  | operator keyword arguments =>
      have harguments : (arguments.map Expr.toTree).filterMap Expr.ofTree? = arguments :=
        Expr.filterMap_toTree hnode.expressions
      rw [Node.toTree, Node.ofTree?]
      simp only [Node.ofParts?, OperatorKeyword.ofWord?_word, harguments]
      rfl

/-- The body of a function is read back. -/
theorem Function.ofTrees_body (f : Function) (h : ∀ m ∈ f.inside, m.Spelled) :
    Node.ofTrees (Node.toTrees f.body) = f.body := by
  cases f with
  | mk header body => exact Node.ofTrees_toTrees body h

/-- **A forest is read back from its trees.** -/
theorem Node.ofTrees_toTrees (nodes : List Node) (h : ∀ m ∈ allNodes nodes, m.Spelled) :
    Node.ofTrees (Node.toTrees nodes) = nodes := by
  cases nodes with
  | nil => rfl
  | cons node nodes =>
      rw [allNodes, List.forall_mem_cons, List.forall_mem_append] at h
      obtain ⟨hnode, hinside, hnodes⟩ := h
      rw [Node.toTrees, Node.ofTrees, Node.ofTree?_toTree node hnode hinside,
        Node.ofTrees_toTrees nodes hnodes]
      rfl

/-- Functions are read back as the nodes that they are by themselves. -/
theorem Function.ofTrees_toTrees (fs : List Function) (h : ∀ m ∈ functionsInside fs, m.Spelled) :
    (Node.ofTrees (Function.toTrees fs)).filterMap Node.function? = fs := by
  cases fs with
  | nil => rfl
  | cons f fs =>
      rw [functionsInside, List.forall_mem_append] at h
      rw [Function.toTrees, Node.ofTrees, Function.ofTree?_function (f.ofTrees_body h.1),
        List.filterMap_append, Function.ofTrees_toTrees fs h.2]
      rfl

end

/-! ## Programs are spelled out -/

/-- The text of every token decides its category. -/
def Regular (tokens : List Token) : Prop := ∀ t ∈ tokens, t.kind = .ofText t.lexeme

theorem regular_cons {t : Token} {ts : List Token} :
    Regular (t :: ts) ↔ t.kind = .ofText t.lexeme ∧ Regular ts :=
  List.forall_mem_cons

theorem regular_append {ts us : List Token} : Regular (ts ++ us) ↔ Regular ts ∧ Regular us :=
  List.forall_mem_append

namespace Grammar

section Operands

variable {operand : Phrases Expr} {n : Nat}
  (ho : ∀ {ts e}, operand n ts e → Regular ts → e.Spelled)

include ho

theorem OperatorTail.spelled {left e : Expr} {ts : List Token}
    (h : OperatorTail operand left n ts e) (hts : Regular ts) (hleft : left.Spelled) :
    e.Spelled := by
  induction h with
  | nil => exact hleft
  | cons _ hright _ ih =>
      obtain ⟨_, hboth⟩ := regular_cons.1 hts
      obtain ⟨hfirst, hlater⟩ := regular_append.1 hboth
      exact ih ho hlater ⟨hleft, ho hright hfirst⟩

theorem Chain.spelled {ts : List Token} {e : Expr} (h : Chain operand n ts e)
    (hts : Regular ts) : e.Spelled := by
  cases h with
  | mk hfirst htail =>
      obtain ⟨hleft, hlater⟩ := regular_append.1 hts
      exact htail.spelled ho hlater (ho hfirst hleft)

end Operands

theorem Primary.spelled {n : Nat} {ts : List Token} {e : Expr} (h : Primary n ts e)
    (hts : Regular ts) : e.Spelled := by
  induction n generalizing ts e with
  | zero =>
      cases h with
      | identifier hk => exact (regular_cons.1 hts).1.symm.trans hk
      | literal hk => exact (regular_cons.1 hts).1.symm.trans hk
  | succ n ih =>
      cases h with
      | identifier hk => exact (regular_cons.1 hts).1.symm.trans hk
      | literal hk => exact (regular_cons.1 hts).1.symm.trans hk
      | parenthesized _ he _ =>
          obtain ⟨_, hinside⟩ := regular_cons.1 hts
          exact he.spelled ih (regular_append.1 hinside).1

theorem Expression.spelled {n : Nat} {ts : List Token} {e : Expr} (h : Expression n ts e)
    (hts : Regular ts) : e.Spelled :=
  Chain.spelled Primary.spelled h hts

/-- A statement without a label, in which there are no further nodes. -/
theorem spelled_statement {node : Node} (hlabel : node.label? = none) (hinside : node.inside = [])
    (h : ∀ e ∈ node.expressions, e.Spelled) : ∀ m ∈ node :: node.inside, m.Spelled := by
  rw [hinside]
  intro m hm
  rw [List.mem_singleton.1 hm]
  exact ⟨h, by simp [hlabel]⟩

/-- A scope without a label, with the nodes in it. -/
theorem spelled_scope {node : Node} (hlabel : node.label? = none)
    (h : ∀ e ∈ node.expressions, e.Spelled) (hinside : ∀ m ∈ node.inside, m.Spelled) :
    ∀ m ∈ node :: node.inside, m.Spelled :=
  List.forall_mem_cons.2 ⟨⟨h, by simp [hlabel]⟩, hinside⟩

section Bodies

-- As for `Body.mono`, the induction over the levels stands once, for bodies.
variable {n : Nat} (hb : ∀ {ts body}, Body n ts body → Regular ts → ∀ m ∈ allNodes body, m.Spelled)

include hb

theorem Signature.spelled {ts : List Token} {f : Function} (h : Signature n ts f)
    (hts : Regular ts) : ∀ m ∈ f.inside, m.Spelled := by
  cases h with
  | mk _ hbody => exact hb hbody (regular_append.1 hts).2

theorem Method.spelled {ts : List Token} {f : Function} (h : Method n ts f) (hts : Regular ts) :
    ∀ m ∈ f.inside, m.Spelled := by
  cases h with
  | mk _ hs => exact hs.spelled hb (regular_cons.1 hts).2

theorem KeywordScope.spelled {ts : List Token} {node : Node} (h : KeywordScope n ts node)
    (hts : Regular ts) : ∀ m ∈ node :: node.inside, m.Spelled := by
  cases h with
  | function hf => exact spelled_scope rfl (by simp [Node.expressions]) (hf.spelled hb hts)
  | forLoop _ _ he _ hbody =>
      simp only [regular_cons, regular_append] at hts
      obtain ⟨_, _, hcondition, _, hinside⟩ := hts
      refine spelled_scope rfl ?_ (hb hbody hinside)
      simpa [Node.expressions] using Expression.spelled he hcondition
  | struct => exact spelled_statement rfl rfl (by simp [Node.expressions])
  | implement _ _ _ hfs _ =>
      simp only [regular_cons, regular_append] at hts
      obtain ⟨_, _, _, hmethods, _⟩ := hts
      refine spelled_scope rfl (by simp [Node.expressions]) ?_
      exact forall_mem_functionsInside.2 (hfs.forall_mem_of_tokens (Method.spelled hb) hmethods)

theorem Anywhere.spelled {ts : List Token} {node : Node} (h : Anywhere n ts node)
    (hts : Regular ts) : ∀ m ∈ node :: node.inside, m.Spelled := by
  cases h with
  | scope hs => exact hs.spelled hb hts
  | namedScope _ hbody =>
      exact spelled_scope rfl (by simp [Node.expressions]) (hb hbody (regular_cons.1 hts).2)
  | unnamedScope hbody => exact spelled_scope rfl (by simp [Node.expressions]) (hb hbody hts)
  | declaration _ _ _ hv _ =>
      simp only [regular_cons, regular_append] at hts
      refine spelled_statement rfl rfl ?_
      simpa [Node.expressions] using Expression.spelled hv hts.2.2.2.1
  | operator _ _ ha _ _ =>
      simp only [regular_cons, regular_append] at hts
      exact spelled_statement rfl rfl (ha.forall_mem_of_tokens Expression.spelled hts.2.2.1)

theorem Statement.spelled {ts : List Token} {node : Node} (h : Statement n ts node)
    (hts : Regular ts) : ∀ m ∈ node :: node.inside, m.Spelled := by
  cases h with
  | anywhere ha => exact ha.spelled hb hts
  | returnNothing => exact spelled_statement rfl rfl (by simp [Node.expressions])
  | returnValue _ hv _ =>
      simp only [regular_cons, regular_append] at hts
      refine spelled_statement rfl rfl ?_
      simpa [Node.expressions] using Expression.spelled hv hts.2.1
  | assignment _ _ hv _ =>
      simp only [regular_cons, regular_append] at hts
      refine spelled_statement rfl rfl ?_
      simpa [Node.expressions] using Expression.spelled hv hts.2.2.1
  | call _ _ ha _ _ =>
      simp only [regular_cons, regular_append] at hts
      exact spelled_statement rfl rfl (ha.forall_mem_of_tokens Expression.spelled hts.2.2.1)

end Bodies

theorem Body.spelled {n : Nat} {ts : List Token} {body : List Node} (h : Body n ts body)
    (hts : Regular ts) : ∀ m ∈ allNodes body, m.Spelled := by
  induction n generalizing ts body with
  | zero => cases h
  | succ n ih =>
      cases h with
      | braces _ hs _ =>
          simp only [regular_cons, regular_append] at hts
          have hall := hs.forall_mem_of_tokens (Statement.spelled ih) hts.2.1
          exact forall_mem_allNodes.2 fun node hnode => List.forall_mem_cons.1 (hall node hnode)

theorem TopLevel.spelled {n : Nat} {ts : List Token} {node : Node} (h : TopLevel n ts node)
    (hts : Regular ts) : ∀ m ∈ node :: node.inside, m.Spelled := by
  cases h with
  | anywhere ha => exact ha.spelled Body.spelled hts
  | @labeled _ label _ f hlabel hs =>
      obtain ⟨hregular, hsignature⟩ := regular_cons.1 hts
      refine List.forall_mem_cons.2 ⟨⟨by simp [Node.expressions], ?_⟩,
        hs.spelled Body.spelled hsignature⟩
      rintro _ ⟨rfl⟩
      exact hregular.symm.trans hlabel.1

/-- **Programs are spelled out where the texts of their tokens decide the categories.** -/
theorem Program.spelled {n : Nat} {ts : List Token} {forest : List Node}
    (h : Program n ts forest) (hts : Regular ts) : ∀ m ∈ allNodes forest, m.Spelled :=
  forall_mem_allNodes.2 fun node hnode =>
    List.forall_mem_cons.1 (h.forall_mem_of_tokens TopLevel.spelled hts node hnode)

end Grammar

/-! ## Source texts -/

/-- Where nothing is skipped, the forest of a source text is read back from its trees. -/
theorem ofTrees_forest {settings : Settings} {source : String} {forest : List Node}
    (hpolicy : settings.unmatched = .reject) (h : (parseSource settings source).2 = .ok forest) :
    Node.ofTrees (Tree.forest forest) = forest := by
  obtain ⟨tokens, htokens, hforest⟩ := parseSource_ok h
  have hprogram : Grammar.Program settings.maxDepth (tokens.takeWhile (!·.isEof)) forest := by
    rw [parseTokens_snd, Rule.forest_ok_iff (Parser.ofTokens_proper tokens _),
      Parser.ofTokens_ahead] at hforest
    exact hforest
  have hregular : Regular (tokens.takeWhile (!·.isEof)) := by
    intro t ht
    exact tokenize_kind htokens (.inl hpolicy) t ((List.takeWhile_subset _) ht)
  rw [Tree.forest, ← Node.toTrees_eq_map]
  exact Node.ofTrees_toTrees forest (hprogram.spelled hregular)

/-- **The tree view loses nothing.**  Where nothing is skipped, two programs with the same trees
have the same nodes, whatever their settings are otherwise. -/
theorem tree_view_injective {settings settings' : Settings} {source source' : String}
    {forest forest' : List Node} (hpolicy : settings.unmatched = .reject)
    (hpolicy' : settings'.unmatched = .reject) (h : (parseSource settings source).2 = .ok forest)
    (h' : (parseSource settings' source').2 = .ok forest')
    (htrees : Tree.forest forest = Tree.forest forest') : forest = forest' := by
  calc
    forest = Node.ofTrees (Tree.forest forest) := (ofTrees_forest hpolicy h).symm
    _ = Node.ofTrees (Tree.forest forest') := by rw [htrees]
    _ = forest' := ofTrees_forest hpolicy' h'

/-- One labeled scope in two layouts, with different limits; a name and a number in its body have
leaves of one kind. -/
theorem tree_view_injective_layouts :
    let shallow : Settings := { Settings.default with verbosity := 2, maxDepth := 1 }
    let source := "s f \x7b x = a + 1; \x7d"
    let source' := "s f\x7bx=a+1;\x7d"
    Settings.default.unmatched = .reject ∧ shallow.unmatched = .reject ∧
      ∃ forest forest', (parseSource .default source).2 = .ok forest ∧
        (parseSource shallow source').2 = .ok forest' ∧
        Tree.forest forest = Tree.forest forest' ∧ forest = forest' := by
  intro shallow source source'
  have htokens : (tokenize Settings.default.unmatched source).2 = .ok
      [⟨.identifier, "s", ⟨1, 0⟩⟩, ⟨.identifier, "f", ⟨1, 2⟩⟩, ⟨.symbol, "\x7b", ⟨1, 4⟩⟩,
        ⟨.identifier, "x", ⟨1, 6⟩⟩, ⟨.symbol, "=", ⟨1, 8⟩⟩, ⟨.identifier, "a", ⟨1, 10⟩⟩,
        ⟨.symbol, "+", ⟨1, 12⟩⟩, ⟨.literal, "1", ⟨1, 14⟩⟩, ⟨.symbol, ";", ⟨1, 15⟩⟩,
        ⟨.symbol, "\x7d", ⟨1, 17⟩⟩, .eof ⟨1, 18⟩] := eq_ok_of_toOption (by decide +kernel)
  have htokens' : (tokenize shallow.unmatched source').2 = .ok
      [⟨.identifier, "s", ⟨1, 0⟩⟩, ⟨.identifier, "f", ⟨1, 2⟩⟩, ⟨.symbol, "\x7b", ⟨1, 3⟩⟩,
        ⟨.identifier, "x", ⟨1, 4⟩⟩, ⟨.symbol, "=", ⟨1, 5⟩⟩, ⟨.identifier, "a", ⟨1, 6⟩⟩,
        ⟨.symbol, "+", ⟨1, 7⟩⟩, ⟨.literal, "1", ⟨1, 8⟩⟩, ⟨.symbol, ";", ⟨1, 9⟩⟩,
        ⟨.symbol, "\x7d", ⟨1, 10⟩⟩, .eof ⟨1, 11⟩] := eq_ok_of_toOption (by decide +kernel)
  let forest := [Node.labeled "s" (.mk ⟨"f", none, none⟩
    [.assignment "x" (.binary (.identifier "a") .add (.literal "1"))])]
  have h : (parseSource .default source).2 = .ok forest := by
    rw [parseSource_snd, htokens]
    rfl
  have h' : (parseSource shallow source').2 = .ok forest := by
    rw [parseSource_snd, htokens']
    rfl
  exact ⟨rfl, rfl, forest, forest, h, h', rfl, tree_view_injective rfl rfl h h' rfl⟩

-- Trees by themselves tell neither functions from labeled scopes nor names from numbers.
example (f : Function) :
    (Node.labeled ScopeKeyword.function.word f).toTree = (Node.function f).toTree := by
  rw [Node.toTree, Node.toTree]

example (text : String) : (Expr.identifier text).toTree = (Expr.literal text).toTree := rfl

end ScopeFront
