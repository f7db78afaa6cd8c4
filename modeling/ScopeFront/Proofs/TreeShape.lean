import ScopeFront.Proofs.TreeView
import ScopeFront.Proofs.TreeWalk

/-!
# The shape of trees

Trees are uniform, and yet the tree of a node keeps to a shape: every kind has its place, and what a
scope has before its body comes in one order.  This holds of the trees of all nodes, whether they
were read from a text or not.

* `Expr.toTree_cases` – the tree of an expression, which is what a condition has below it;
* `Tree.ScopeOpening`, `Tree.ScopeChildren` – what a scope has before its body and in it;
* `Tree.WellShaped` – the shape at one node of a tree;
* `Tree.WellShaped.plain`, `Tree.WellShaped.of_scope` – the shape at nodes without and with parts;
* `Node.shapedThroughout_toTree` – the trees of nodes have it at every node;
* `trees_are_well_shaped` – the shape of the tree of a node, from its root to its leaves.
-/

set_option autoImplicit false

namespace ScopeFront

/-! ## Expressions -/

/-- The tree of an expression is a leaf, or an operator above the trees of its two operands. -/
theorem Expr.toTree_cases (e : Expr) :
    (e.toTree.kind = .expression ∧ e.toTree.children = []) ∨
      (e.toTree.kind = .operator ∧
        ∃ left right : Expr, e.toTree.children = [left.toTree, right.toTree]) := by
  cases e with
  | identifier name => exact .inl ⟨rfl, rfl⟩
  | literal digits => exact .inl ⟨rfl, rfl⟩
  | binary left op right => exact .inr ⟨rfl, left, right, rfl⟩

namespace Tree

/-! ## Shapes -/

/-- What a scope has before its body: a condition with one expression, or a name, parameters and a
return type, in this order and each of them at most once. -/
inductive ScopeOpening : List Tree → Prop
  | condition {t : Tree} {e : Expr} :
    t.kind = .condition → t.children = [e.toTree] → ScopeOpening [t]
  | heading {name parameters type : Option Tree} :
    (∀ t ∈ name, t.kind = .identifier) → (∀ t ∈ parameters, t.kind = .parameters) →
    (∀ t ∈ type, t.kind = .returnType) →
    ScopeOpening (name.toList ++ parameters.toList ++ type.toList)

/-- The trees are children of a scope: an opening and a body.  Where there are members, there is
nothing else but a name before them. -/
structure ScopeChildren (cs : List Tree) : Prop where
  opening : ∃ front rest, cs = front ++ rest ∧ ScopeOpening front ∧ ∀ c ∈ rest,
    c.kind ∉ [.identifier, .parameters, .parameter, .returnType, .type, .condition]
  members : (∃ c ∈ cs, c.kind = .member) → ∃ (name : Option Tree) (members : List Tree),
    cs = name.toList ++ members ∧ (∀ t ∈ name, t.kind = .identifier) ∧
      ∀ m ∈ members, m.kind = .member

/-- The shape of a tree at its root: what is below it, by its kind, and which kinds of nodes may be
below it at all. -/
structure WellShaped (t : Tree) : Prop where
  typedName : t.kind = .parameter ∨ t.kind = .member →
    ∃ type : Tree, t.children = [type] ∧ type.kind = .type ∧ type.children = []
  parameters : t.kind = .parameters → ∀ c ∈ t.children, c.kind = .parameter
  belowParameters : ∀ c ∈ t.children, c.kind = .parameter → t.kind = .parameters
  belowScope : ∀ c ∈ t.children,
    c.kind ∈ [.parameters, .member, .identifier, .returnType, .condition] → t.kind = .scope
  scope : t.kind = .scope → ScopeChildren t.children

/-- Every node of the tree has the shape. -/
def ShapedThroughout (t : Tree) : Prop := ∀ u ∈ t.walk, u.WellShaped

theorem shapedThroughout_node {kind : TreeKind} {value : String} {cs : List Tree} :
    (node kind value cs).ShapedThroughout ↔
      (node kind value cs).WellShaped ∧ ∀ c ∈ cs, c.ShapedThroughout :=
  forall_mem_walk

end Tree

/-! ## Kinds with a place of their own -/

/-- Whether trees of the kind occur only below scopes or parameters. -/
def TreeKind.isPlaced : TreeKind → Bool
  | parameters | parameter | member | identifier | returnType | condition => true
  | _ => false

theorem TreeKind.isPart_of_isPlaced {kind : TreeKind} (h : kind.isPlaced = true) :
    kind.isPart = true := by
  revert h
  cases kind <;> decide

theorem TreeKind.not_mem_of_isPlaced {kind : TreeKind} (h : kind.isPlaced = false) :
    kind ∉ [.parameters, .member, .identifier, .returnType, .condition] := by
  revert h
  cases kind <;> decide

theorem TreeKind.not_mem_of_isPart {kind : TreeKind} (h : kind.isPart = false) :
    kind ∉ [.parameters, .parameter, .member, .identifier, .returnType, .type, .condition,
      .expression] := by
  revert h
  cases kind <;> decide

/-- The kinds that a scope has in its opening only, or not at all. -/
theorem TreeKind.not_mem_opening {kind : TreeKind} (h : kind.isPart = false) :
    kind ∉ [.identifier, .parameters, .parameter, .returnType, .type, .condition] := by
  revert h
  cases kind <;> decide

theorem Node.isPlaced_toTree (node : Node) : node.toTree.kind.isPlaced = false := by
  cases h : node.toTree.kind.isPlaced with
  | false => rfl
  | true => exact absurd (TreeKind.isPart_of_isPlaced h) (by simp [node.isPart_toTree])

theorem Expr.isPlaced_toTree (e : Expr) : e.toTree.kind.isPlaced = false := by
  obtain ⟨hkind, _⟩ | ⟨hkind, _⟩ := e.toTree_cases <;> rw [hkind] <;> rfl

theorem Node.isPlaced_of_mem_toTrees {nodes : List Node} :
    ∀ t ∈ Node.toTrees nodes, t.kind.isPlaced = false := by
  rw [Node.toTrees_eq_map, List.forall_mem_map]
  exact fun node _ => node.isPlaced_toTree

namespace Tree

/-! ## Nodes without parts -/

variable {kind : TreeKind} {value : String} {cs : List Tree}

/-- A node that is no parameter, no member and no scope, and has no node with a place of its own
below it. -/
theorem WellShaped.plain (hkind : kind ∉ [.parameter, .member, .parameters, .scope])
    (hplaces : ∀ c ∈ cs, c.kind.isPlaced = false) : (node kind value cs).WellShaped where
  typedName := by
    rintro (rfl | rfl) <;> exact absurd hkind (by decide)
  parameters := by
    rintro rfl
    exact absurd hkind (by decide)
  belowParameters := by
    intro c hc h
    have hplace := hplaces c hc
    rw [h] at hplace
    cases hplace
  belowScope := by
    intro c hc h
    exact absurd h (TreeKind.not_mem_of_isPlaced (hplaces c hc))
  scope := by
    rintro rfl
    exact absurd hkind (by decide)

theorem ShapedThroughout.plain (hkind : kind ∉ [.parameter, .member, .parameters, .scope])
    (hplaces : ∀ c ∈ cs, c.kind.isPlaced = false) (hcs : ∀ c ∈ cs, c.ShapedThroughout) :
    (node kind value cs).ShapedThroughout :=
  shapedThroughout_node.2 ⟨.plain hkind hplaces, hcs⟩

theorem ShapedThroughout.leaf (hkind : kind ∉ [.parameter, .member, .parameters, .scope]) :
    (leaf kind value).ShapedThroughout :=
  .plain hkind (fun _ hc => nomatch hc) (fun _ hc => nomatch hc)

/-! ## Scopes -/

theorem ScopeOpening.kind_mem {front : List Tree} (h : ScopeOpening front) :
    ∀ c ∈ front, c.kind ∈ [.condition, .identifier, .parameters, .returnType] := by
  cases h with
  | condition hkind _ =>
      intro c hc
      rw [List.mem_singleton.1 hc, hkind]
      decide
  | heading hname hparameters htype =>
      intro c hc
      simp only [List.mem_append, Option.mem_toList] at hc
      rcases hc with (hc | hc) | hc
      · rw [hname c hc]
        decide
      · rw [hparameters c hc]
        decide
      · rw [htype c hc]
        decide

/-- A scope needs no more than the right children: no parameter is directly among them. -/
theorem WellShaped.of_scope {label : String} {cs : List Tree} (h : ScopeChildren cs) :
    (node .scope label cs).WellShaped where
  typedName := by
    rintro (h | h) <;> cases h
  parameters := by
    intro h
    cases h
  belowParameters := by
    intro c hc hkind
    obtain ⟨front, rest, hcs, hopening, hrest⟩ := h.opening
    rw [children, hcs, List.mem_append] at hc
    rcases hc with hfront | hbehind
    · have hmem := hopening.kind_mem c hfront
      rw [hkind] at hmem
      exact absurd hmem (by decide)
    · have hmem := hrest c hbehind
      rw [hkind] at hmem
      exact absurd (by decide) hmem
  belowScope := fun _ _ _ => rfl
  scope := fun _ => h

/-- Nodes stand behind the opening of a scope, and there are no members. -/
theorem ScopeChildren.of_nodes {front : List Tree} (hfront : ScopeOpening front)
    (nodes : List Node) : ScopeChildren (front ++ Node.toTrees nodes) where
  opening := by
    refine ⟨front, Node.toTrees nodes, rfl, hfront, ?_⟩
    rw [Node.toTrees_eq_map, List.forall_mem_map]
    exact fun node _ => TreeKind.not_mem_opening node.isPart_toTree
  members := by
    rintro ⟨c, hc, hkind⟩
    exfalso
    rcases List.mem_append.1 hc with hopening | hnode
    · have hmem := hfront.kind_mem c hopening
      rw [hkind] at hmem
      exact absurd hmem (by decide)
    · have hplace := Node.isPlaced_of_mem_toTrees c hnode
      rw [hkind] at hplace
      cases hplace

end Tree

/-! ## The trees of nodes -/

theorem Expr.shapedThroughout_toTree (e : Expr) : e.toTree.ShapedThroughout := by
  induction e with
  | identifier name => exact .leaf (by decide)
  | literal digits => exact .leaf (by decide)
  | binary left op right ihleft ihright =>
      refine .plain (by decide) (List.forall_mem_cons.2 ?_) (List.forall_mem_cons.2 ?_)
      · exact ⟨left.isPlaced_toTree, List.forall_mem_singleton.2 right.isPlaced_toTree⟩
      · exact ⟨ihleft, List.forall_mem_singleton.2 ihright⟩

/-- A statement that has expressions below it. -/
theorem shapedThroughout_statement {kind : TreeKind} (value : String) (es : List Expr)
    (hkind : kind ∉ [.parameter, .member, .parameters, .scope]) :
    (Tree.node kind value (es.map Expr.toTree)).ShapedThroughout := by
  refine .plain hkind (List.forall_mem_map.2 ?_) (List.forall_mem_map.2 ?_)
  · exact fun e _ => e.isPlaced_toTree
  · exact fun e _ => e.shapedThroughout_toTree

theorem TypeKeyword.shapedThroughout_toTree (type : TypeKeyword) :
    type.toTree.ShapedThroughout := .leaf (by decide)

theorem TypedName.shapedThroughout_toTree {kind : TreeKind} (d : TypedName)
    (hkind : kind = .parameter ∨ kind = .member) : (d.toTree kind).ShapedThroughout := by
  refine Tree.shapedThroughout_node.2 ⟨?_, ?_⟩
  · refine ⟨fun _ => ⟨d.type.toTree, rfl, rfl, rfl⟩, ?_, ?_, ?_, ?_⟩
    · intro h
      rcases hkind with rfl | rfl <;> cases h
    · intro c hc h
      rw [List.mem_singleton.1 hc] at h
      cases h
    · intro c hc h
      rw [List.mem_singleton.1 hc] at h
      exact absurd h (TreeKind.not_mem_of_isPlaced rfl)
    · intro h
      rcases hkind with rfl | rfl <;> cases h
  · exact List.forall_mem_singleton.2 d.type.shapedThroughout_toTree

theorem shapedThroughout_parameters (ps : List TypedName) :
    (Tree.node .parameters "" (ps.map (·.toTree .parameter))).ShapedThroughout := by
  have hkinds : ∀ c ∈ ps.map (·.toTree .parameter), c.kind = .parameter :=
    List.forall_mem_map.2 fun _ _ => rfl
  refine Tree.shapedThroughout_node.2 ⟨⟨?_, fun _ => hkinds, fun _ _ _ => rfl, ?_, ?_⟩, ?_⟩
  · rintro (h | h) <;> cases h
  · intro c hc h
    rw [hkinds c hc] at h
    exact absurd h (by decide)
  · intro h
    cases h
  · exact List.forall_mem_map.2 fun d _ => d.shapedThroughout_toTree (.inl rfl)

theorem Header.shapedThroughout_toTrees (h : Header) :
    ∀ t ∈ h.toTrees, t.ShapedThroughout := by
  obtain ⟨name, parameters, type⟩ := h
  simp only [Header.toTrees, List.mem_append, List.mem_singleton, List.mem_map,
    Option.mem_toList]
  rintro t ((rfl | ⟨ps, _, rfl⟩) | ⟨type, _, rfl⟩)
  · exact .leaf (by decide)
  · exact shapedThroughout_parameters ps
  · exact .leaf (by decide)

theorem Header.scopeOpening_toTrees (h : Header) : Tree.ScopeOpening h.toTrees := by
  obtain ⟨name, parameters, type⟩ := h
  have hopening : Tree.ScopeOpening ((some (Tree.leaf .identifier name)).toList ++
      (parameters.map fun ps =>
        Tree.node .parameters "" (ps.map (·.toTree .parameter))).toList ++
      (type.map fun type => Tree.leaf .returnType type.word).toList) := by
    refine .heading ?_ ?_ ?_
    · rintro _ ⟨rfl⟩
      rfl
    · intro t ht
      obtain ⟨ps, _, rfl⟩ := Option.map_eq_some_iff.1 ht
      rfl
    · intro t ht
      obtain ⟨type, _, rfl⟩ := Option.map_eq_some_iff.1 ht
      rfl
  simpa only [Header.toTrees, Option.toList_map, Option.toList_some] using hopening

theorem shapedThroughout_nameTrees (name : Option String) :
    ∀ t ∈ nameTrees name, t.ShapedThroughout := by
  intro t ht
  obtain ⟨name, _, rfl⟩ := List.mem_map.1 ht
  exact .leaf (by decide)

/-- A name, if there is one, is told by its kind. -/
theorem exists_nameTrees_eq (name : Option String) :
    ∃ t : Option Tree, nameTrees name = t.toList ∧ ∀ u ∈ t, u.kind = .identifier := by
  refine ⟨name.map (.leaf .identifier), by rw [nameTrees, Option.toList_map], ?_⟩
  intro u hu
  obtain ⟨_, _, rfl⟩ := Option.map_eq_some_iff.1 hu
  rfl

theorem scopeOpening_nameTrees (name : Option String) : Tree.ScopeOpening (nameTrees name) := by
  obtain ⟨t, hname, hkind⟩ := exists_nameTrees_eq name
  have hnone : ∀ {kind : TreeKind}, ∀ u ∈ (none : Option Tree), u.kind = kind :=
    fun _ h => nomatch h
  have hopening := Tree.ScopeOpening.heading hkind hnone hnone
  rwa [Option.toList_none, List.append_nil, List.append_nil, ← hname] at hopening

theorem scopeChildren_members (name : Option String) (members : List TypedName) :
    Tree.ScopeChildren (nameTrees name ++ members.map (·.toTree .member)) where
  opening := by
    have hmember : TreeKind.member ∉
        [.identifier, .parameters, .parameter, .returnType, .type, .condition] := by decide
    exact ⟨nameTrees name, _, rfl, scopeOpening_nameTrees name,
      List.forall_mem_map.2 fun _ _ => hmember⟩
  members := by
    intro _
    obtain ⟨t, hname, hkind⟩ := exists_nameTrees_eq name
    exact ⟨t, _, by rw [hname], hkind, List.forall_mem_map.2 fun _ _ => rfl⟩

/-- A scope has the shape where its opening and its body do. -/
theorem shapedThroughout_scope {label : String} {front : List Tree} {nodes : List Node}
    (hopening : Tree.ScopeOpening front) (hfront : ∀ t ∈ front, t.ShapedThroughout)
    (hnodes : ∀ t ∈ Node.toTrees nodes, t.ShapedThroughout) :
    (Tree.node .scope label (front ++ Node.toTrees nodes)).ShapedThroughout :=
  Tree.shapedThroughout_node.2
    ⟨.of_scope (.of_nodes hopening nodes), List.forall_mem_append.2 ⟨hfront, hnodes⟩⟩

mutual

/-- **The tree of a node has the shape at every node.** -/
theorem Node.shapedThroughout_toTree (node : Node) : node.toTree.ShapedThroughout := by
  cases node with
  | function f => exact Function.shapedThroughout_toTree f _
  | forLoop condition body =>
      have hopening : Tree.ScopeOpening [.node .condition "" [condition.toTree]] :=
        .condition rfl rfl
      refine shapedThroughout_scope hopening ?_ (Node.shapedThroughout_toTrees body)
      exact List.forall_mem_singleton.2 (shapedThroughout_statement "" [condition] (by decide))
  | struct name members =>
      refine Tree.shapedThroughout_node.2 ⟨.of_scope (scopeChildren_members name members), ?_⟩
      refine List.forall_mem_append.2 ⟨shapedThroughout_nameTrees name, ?_⟩
      exact List.forall_mem_map.2 fun d _ => d.shapedThroughout_toTree (.inr rfl)
  | implement name functions =>
      have hfunctions := Function.shapedThroughout_toTrees functions
      rw [Function.toTrees_eq] at hfunctions
      rw [Node.toTree, Function.toTrees_eq]
      exact shapedThroughout_scope (scopeOpening_nameTrees name) (shapedThroughout_nameTrees name)
        hfunctions
  | labeled label f => exact Function.shapedThroughout_toTree f label
  | namedScope name body =>
      rw [Node.toTree]
      exact .plain (by decide) Node.isPlaced_of_mem_toTrees (Node.shapedThroughout_toTrees body)
  | unnamedScope body =>
      rw [Node.toTree]
      exact .plain (by decide) Node.isPlaced_of_mem_toTrees (Node.shapedThroughout_toTrees body)
  | declaration name type value =>
      rw [Node.toTree]
      refine .plain (by decide) (List.forall_mem_cons.2 ?_) (List.forall_mem_cons.2 ?_)
      · exact ⟨rfl, List.forall_mem_singleton.2 value.isPlaced_toTree⟩
      · exact ⟨type.shapedThroughout_toTree,
          List.forall_mem_singleton.2 value.shapedThroughout_toTree⟩
  | assignment target value => exact shapedThroughout_statement target [value] (by decide)
  | ret value => exact shapedThroughout_statement "return" value.toList (by decide)
  | call callee arguments => exact shapedThroughout_statement callee arguments (by decide)
  | operator keyword arguments =>
      exact shapedThroughout_statement keyword.word arguments (by decide)

theorem Function.shapedThroughout_toTree (f : Function) (label : String) :
    (f.toTree label).ShapedThroughout := by
  cases f with
  | mk header body =>
      rw [Function.toTree]
      exact shapedThroughout_scope header.scopeOpening_toTrees header.shapedThroughout_toTrees
        (Node.shapedThroughout_toTrees body)

theorem Node.shapedThroughout_toTrees (nodes : List Node) :
    ∀ t ∈ Node.toTrees nodes, t.ShapedThroughout := by
  cases nodes with
  | nil => exact fun _ h => nomatch h
  | cons node nodes =>
      rw [Node.toTrees, List.forall_mem_cons]
      exact ⟨Node.shapedThroughout_toTree node, Node.shapedThroughout_toTrees nodes⟩

theorem Function.shapedThroughout_toTrees (fs : List Function) :
    ∀ t ∈ Function.toTrees fs, t.ShapedThroughout := by
  cases fs with
  | nil => exact fun _ h => nomatch h
  | cons f fs =>
      rw [Function.toTrees, List.forall_mem_cons]
      exact ⟨Function.shapedThroughout_toTree f _, Function.shapedThroughout_toTrees fs⟩

end

/-- **The trees of nodes are well shaped.**  The root is a scope or a statement, never a part of one,
and every node of the tree has what its kind demands below it, in the order demanded, and stands
where its kind may stand. -/
theorem trees_are_well_shaped (n : Node) :
    n.toTree.kind ∉ [.parameters, .parameter, .member, .identifier, .returnType, .type, .condition,
      .expression] ∧
      ∀ t ∈ n.toTree.walk, t.WellShaped :=
  ⟨TreeKind.not_mem_of_isPart n.isPart_toTree, n.shapedThroughout_toTree⟩

/-- A parameter of a method, and the method itself, in `implement s { function f(int a): int { } }`. -/
theorem method_tree_is_well_shaped :
    let f : Function := .mk ⟨"f", some [⟨"a", .int⟩], some .int⟩ []
    let n : Node := .implement (some "s") [f]
    let p : Tree := TypedName.toTree .parameter ⟨"a", .int⟩
    (p ∈ n.toTree.walk ∧ p.WellShaped) ∧
      f.toTree "function" ∈ n.toTree.walk ∧ (f.toTree "function").WellShaped := by
  intro f n p
  have hwalk : n.toTree.walk = n.toTree.preorder := n.toTree.walk_eq
  have hp : p ∈ n.toTree.walk := by
    rw [hwalk]
    exact .tail _ (.tail _ (.tail _ (.tail _ (.tail _ (.head _)))))
  have hf : f.toTree "function" ∈ n.toTree.walk := by
    rw [hwalk]
    exact .tail _ (.tail _ (.head _))
  exact ⟨⟨hp, (trees_are_well_shaped n).2 p hp⟩, hf, (trees_are_well_shaped n).2 _ hf⟩

end ScopeFront
