import ScopeFront.Proofs.Concatenation
import ScopeFront.Proofs.Layout
import ScopeFront.Proofs.Lexer.Rejoining
import ScopeFront.Proofs.Printer
import ScopeFront.Proofs.TreeView

/-!
# The height of trees

Two things make the trees of a program high.  Bodies and parentheses inside each other are bounded
by the limit on nesting.  Operators that are folded from the left are not: each of them takes what
stands before it as an operand, and they open no level.  So the height of trees is bounded by the
limit together with the length of such chains, and not by the limit alone.

* `Tree.height` – the edges on the longest way down;
* `Expr.spine`, `Expr.chain` – operators that are folded from the left;
* `Expr.height_le`, `Node.height_toTree_le` – expressions and nodes;
* `forest_height_le` – the trees of an accepted text;
* `forest_height_unbounded` – no bound by the limit alone.
-/

set_option autoImplicit false

namespace ScopeFront

/-! ## Heights -/

namespace Tree

mutual

/-- The number of edges on the longest way from the root to a leaf. -/
def height : Tree → Nat
  | node _ _ cs => heights cs

/-- The height of a node that has these trees as children. -/
def heights : List Tree → Nat
  | [] => 0
  | t :: ts => max (t.height + 1) (heights ts)

end

theorem heights_le_iff {ts : List Tree} {n : Nat} : heights ts ≤ n ↔ ∀ t ∈ ts, t.height < n := by
  induction ts with
  | nil => simp [heights]
  | cons t ts ih => rw [heights, Nat.max_le, ih, List.forall_mem_cons, Nat.succ_le_iff]

theorem heights_append_le {ts us : List Tree} {n : Nat} :
    heights (ts ++ us) ≤ n ↔ heights ts ≤ n ∧ heights us ≤ n := by
  rw [heights_le_iff, heights_le_iff, heights_le_iff, List.forall_mem_append]

end Tree

namespace Expr

theorem height_toTree (e : Expr) : e.toTree.height = e.height := by
  induction e with
  | identifier name => rfl
  | literal digits => rfl
  | binary left op right ihl ihr =>
      simp only [toTree, Tree.height, Tree.heights, ihl, ihr, height]
      omega

/-- The number of operations each of which is the left operand of the next one, up to the whole. -/
def spine : Expr → Nat
  | identifier _ | literal _ => 0
  | binary left _ _ => left.spine + 1

/-- The length of the longest chain of operators that are folded from the left, anywhere in the
expression. -/
def chain : Expr → Nat
  | identifier _ | literal _ => 0
  | binary left _ right => max (left.spine + 1) (max left.chain right.chain)

theorem spine_le_chain (e : Expr) : e.spine ≤ e.chain := by
  cases e with
  | identifier name => exact Nat.le_refl 0
  | literal digits => exact Nat.le_refl 0
  | binary left op right => exact Nat.le_max_left _ _

/-- On the way down, a left operand is the next one of its chain, and a right operand that is an
operation opens a level. -/
theorem height_le_spine {k : Nat} {e : Expr} (h : e.chain ≤ k) :
    e.height ≤ e.spine + e.nesting * k := by
  induction e with
  | identifier name => exact Nat.zero_le _
  | literal digits => exact Nat.zero_le _
  | binary left op right ihl ihr =>
      rw [chain, Nat.max_le, Nat.max_le] at h
      obtain ⟨_, hleft, hright⟩ := h
      have hl : left.nesting * k ≤ (binary left op right).nesting * k :=
        Nat.mul_le_mul_right k (Nat.le_max_left _ _)
      have hr : right.operandNesting * k ≤ (binary left op right).nesting * k :=
        Nat.mul_le_mul_right k (Nat.le_max_right _ _)
      have hoperand : right.height ≤ right.operandNesting * k := by
        cases right with
        | identifier name => exact Nat.zero_le _
        | literal digits => exact Nat.zero_le _
        | binary l o r =>
            have hspine := Nat.le_trans (spine_le_chain _) hright
            have hlevel : (binary l o r).operandNesting * k =
                k + (binary l o r).nesting * k := by
              rw [operandNesting, isBinary, if_pos rfl, Nat.add_mul, Nat.one_mul]
            have hheight := ihr hright
            omega
      have hheight := ihl hleft
      rw [height, spine]
      omega

/-- **The height of an expression** is bounded by the levels it opens and by its chains. -/
theorem height_le {k : Nat} {e : Expr} (h : e.chain ≤ k) : e.height ≤ (e.nesting + 1) * k := by
  have hspine := Nat.le_trans e.spine_le_chain h
  have hheight := e.height_le_spine h
  rw [Nat.add_mul, Nat.one_mul]
  omega

end Expr

theorem heights_toTree_le {k n : Nat} {es : List Expr} (h : ∀ e ∈ es, e.chain ≤ k)
    (hn : ∀ e ∈ es, e.nesting ≤ n) : Tree.heights (es.map Expr.toTree) ≤ (n + 1) * k + 1 := by
  rw [Tree.heights_le_iff]
  intro t ht
  obtain ⟨e, he, rfl⟩ := List.mem_map.1 ht
  have hlevels : (e.nesting + 1) * k ≤ (n + 1) * k :=
    Nat.mul_le_mul_right k (Nat.succ_le_succ (hn e he))
  have hheight := e.height_le (h e he)
  rw [e.height_toTree]
  omega

/-- A typed name has its type below it. -/
theorem heights_typedNames_le (kind : TreeKind) (ds : List TypedName) :
    Tree.heights (ds.map (·.toTree kind)) ≤ 2 := by
  rw [Tree.heights_le_iff]
  intro t ht
  obtain ⟨d, _, rfl⟩ := List.mem_map.1 ht
  simp [TypedName.toTree, TypeKeyword.toTree, Tree.leaf, Tree.height, Tree.heights]

theorem heights_nameTrees_le (name : Option String) : Tree.heights (nameTrees name) ≤ 1 := by
  cases name with
  | none => exact Nat.zero_le 1
  | some name => exact Nat.le_refl 1

theorem heights_header_le (header : Header) : Tree.heights header.toTrees ≤ 3 := by
  unfold Header.toTrees
  refine Tree.heights_append_le.2 ⟨Tree.heights_append_le.2 ⟨?_, ?_⟩, ?_⟩
  · exact Nat.le_add_left 1 2
  · cases header.parameters with
    | none => exact Nat.zero_le 3
    | some ps =>
        have hparameters := heights_typedNames_le .parameter ps
        simp only [Option.toList, List.map, Tree.heights, Tree.height]
        omega
  · cases header.returnType with
    | none => exact Nat.zero_le 3
    | some type => exact Nat.le_add_left 1 2

/-- The chains of operators in the node itself are no longer than `k`. -/
def Node.Chained (k : Nat) (node : Node) : Prop := ∀ e ∈ node.expressions, e.chain ≤ k

mutual

/-- The tree of a node, by the levels that the node opens. -/
theorem Node.height_toTree_le {k : Nat} (hk : 2 ≤ k) (node : Node) (h : node.Chained k)
    (hinside : ∀ m ∈ node.inside, m.Chained k) :
    node.toTree.height ≤ (node.nesting + 1) * k + 2 := by
  cases node with
  | function f =>
      have hf := Function.height_toTree_le hk f hinside ScopeKeyword.function.word
      simp only [Node.toTree, Node.nesting, Nat.add_mul]
      omega
  | forLoop condition body =>
      have hc := condition.height_le (h condition List.mem_cons_self)
      have hb := Node.heights_toTrees_le hk body hinside
      have hcn : (condition.nesting + 1) * k ≤
          (max condition.nesting (1 + forestNesting body) + 1) * k :=
        Nat.mul_le_mul_right k (by omega)
      have hbn : (forestNesting body + 1 + 1) * k ≤
          (max condition.nesting (1 + forestNesting body) + 1) * k :=
        Nat.mul_le_mul_right k (by omega)
      rw [Nat.add_mul _ 1 k] at hbn
      simp only [Node.toTree, Node.nesting, Tree.height, Tree.heights, Expr.height_toTree]
      omega
  | struct name members =>
      have hname := heights_nameTrees_le name
      have hmembers := heights_typedNames_le .member members
      rw [Node.toTree, Tree.height]
      exact Tree.heights_append_le.2 ⟨by omega, by omega⟩
  | implement name functions =>
      have hname := heights_nameTrees_le name
      have hfs := Function.heights_toTrees_le hk functions hinside
      rw [Node.toTree, Tree.height, Node.nesting, Nat.add_mul]
      exact Tree.heights_append_le.2 ⟨by omega, by omega⟩
  | labeled label f =>
      have hf := Function.height_toTree_le hk f hinside label
      simp only [Node.toTree, Node.nesting, Nat.add_mul]
      omega
  | namedScope name body =>
      have hb := Node.heights_toTrees_le hk body hinside
      simp only [Node.toTree, Node.nesting, Tree.height, Nat.add_mul] at hb ⊢
      omega
  | unnamedScope body =>
      have hb := Node.heights_toTrees_le hk body hinside
      simp only [Node.toTree, Node.nesting, Tree.height, Nat.add_mul] at hb ⊢
      omega
  | declaration name type value =>
      have hv := value.height_le (h value List.mem_cons_self)
      simp only [Node.toTree, Node.nesting, TypeKeyword.toTree, Tree.leaf, Tree.height,
        Tree.heights, Expr.height_toTree]
      omega
  | assignment target value =>
      have hv := value.height_le (h value List.mem_cons_self)
      simp only [Node.toTree, Node.nesting, Tree.height, Tree.heights, Expr.height_toTree]
      omega
  | ret value =>
      cases value with
      | none => exact Nat.zero_le _
      | some value =>
          have hv := value.height_le (h value List.mem_cons_self)
          simp only [Node.toTree, Node.nesting, Tree.height, Tree.heights, Option.toList,
            List.map, Expr.height_toTree]
          omega
  | call callee arguments =>
      have ha := heights_toTree_le h (expressionsNesting_le_iff.1 (Nat.le_refl _))
      exact Nat.le_succ_of_le ha
  | operator keyword arguments =>
      have ha := heights_toTree_le h (expressionsNesting_le_iff.1 (Nat.le_refl _))
      exact Nat.le_succ_of_le ha

theorem Function.height_toTree_le {k : Nat} (hk : 2 ≤ k) (f : Function)
    (h : ∀ m ∈ f.inside, m.Chained k) (label : String) :
    (f.toTree label).height ≤ f.nesting * k + 3 := by
  cases f with
  | mk header body =>
      have hh := heights_header_le header
      have hb := Node.heights_toTrees_le hk body h
      rw [Function.toTree, Tree.height, Function.nesting, Nat.add_comm 1]
      exact Tree.heights_append_le.2 ⟨by omega, hb⟩

theorem Node.heights_toTrees_le {k : Nat} (hk : 2 ≤ k) (nodes : List Node)
    (h : ∀ m ∈ allNodes nodes, m.Chained k) :
    Tree.heights (Node.toTrees nodes) ≤ (forestNesting nodes + 1) * k + 3 := by
  cases nodes with
  | nil => exact Nat.zero_le _
  | cons node nodes =>
      rw [allNodes, List.forall_mem_cons, List.forall_mem_append] at h
      obtain ⟨hnode, hinside, hnodes⟩ := h
      have hfirst := Node.height_toTree_le hk node hnode hinside
      have hlater := Node.heights_toTrees_le hk nodes hnodes
      have hn : (node.nesting + 1) * k ≤ (max node.nesting (forestNesting nodes) + 1) * k :=
        Nat.mul_le_mul_right k (by omega)
      have hns : (forestNesting nodes + 1) * k ≤
          (max node.nesting (forestNesting nodes) + 1) * k :=
        Nat.mul_le_mul_right k (by omega)
      rw [Node.toTrees, Tree.heights, forestNesting]
      omega

theorem Function.heights_toTrees_le {k : Nat} (hk : 2 ≤ k) (fs : List Function)
    (h : ∀ m ∈ functionsInside fs, m.Chained k) :
    Tree.heights (Function.toTrees fs) ≤ functionsNesting fs * k + 4 := by
  cases fs with
  | nil => exact Nat.zero_le _
  | cons f fs =>
      rw [functionsInside, List.forall_mem_append] at h
      have hfirst := Function.height_toTree_le hk f h.1 ScopeKeyword.function.word
      have hlater := Function.heights_toTrees_le hk fs h.2
      have hn : f.nesting * k ≤ max f.nesting (functionsNesting fs) * k :=
        Nat.mul_le_mul_right k (Nat.le_max_left _ _)
      have hns : functionsNesting fs * k ≤ max f.nesting (functionsNesting fs) * k :=
        Nat.mul_le_mul_right k (Nat.le_max_right _ _)
      rw [Function.toTrees, Tree.heights, functionsNesting]
      omega

end

/-! ## Source texts -/

/-- **The height of the trees of a program.**  It is bounded by the limit on nesting and the length
of the longest chain of operators that are folded from the left. -/
theorem forest_height_le {settings : Settings} {source : String} {forest : List Node} {m : Nat}
    (h : (parseSource settings source).2 = .ok forest)
    (hm : ∀ node ∈ allNodes forest, ∀ e ∈ node.expressions, e.chain ≤ m) :
    ∀ t ∈ Tree.forest forest, t.height ≤ (settings.maxDepth + 1) * max m 2 + 2 := by
  intro t ht
  obtain ⟨node, hnode, rfl⟩ := List.mem_map.1 ht
  obtain ⟨_, _, _, hprogram⟩ := program_of_parseSource h
  have hnesting := forestNesting_le_iff.1 hprogram.nesting_le node hnode
  have hchains : ∀ node ∈ allNodes forest, node.Chained (max m 2) :=
    fun node hnode e he => Nat.le_trans (hm node hnode e he) (Nat.le_max_left m 2)
  obtain ⟨hhere, hinside⟩ := forall_mem_allNodes.1 hchains node hnode
  calc node.toTree.height
      ≤ (node.nesting + 1) * max m 2 + 2 :=
        Node.height_toTree_le (Nat.le_max_right m 2) node hhere hinside
    _ ≤ (settings.maxDepth + 1) * max m 2 + 2 :=
        Nat.add_le_add_right (Nat.mul_le_mul_right _ (Nat.succ_le_succ hnesting)) 2

/-- In `f { x = (1 + 2) * y - 3; }` the longest chain has three operators. -/
theorem forest_height_le_three :
    let source := "f \x7b x = (1 + 2) * y - 3; \x7d"
    let value : Expr := .binary (.binary (.binary (.literal "1") .add (.literal "2")) .mul
      (.identifier "y")) .sub (.literal "3")
    let forest : List Node := [.namedScope "f" [.assignment "x" value]]
    let settings : Settings := { maxDepth := 2 }
    (parseSource settings source).2 = .ok forest ∧
      (∀ node ∈ allNodes forest, ∀ e ∈ node.expressions, e.chain ≤ 3) ∧
      ∀ t ∈ Tree.forest forest, t.height ≤ 11 := by
  intro source value forest settings
  have htokens : (tokenize settings.unmatched source).2 = .ok
      [⟨.identifier, "f", ⟨1, 0⟩⟩, ⟨.symbol, "\x7b", ⟨1, 2⟩⟩, ⟨.identifier, "x", ⟨1, 4⟩⟩,
        ⟨.symbol, "=", ⟨1, 6⟩⟩, ⟨.symbol, "(", ⟨1, 8⟩⟩, ⟨.literal, "1", ⟨1, 9⟩⟩,
        ⟨.symbol, "+", ⟨1, 11⟩⟩, ⟨.literal, "2", ⟨1, 13⟩⟩, ⟨.symbol, ")", ⟨1, 14⟩⟩,
        ⟨.symbol, "*", ⟨1, 16⟩⟩, ⟨.identifier, "y", ⟨1, 18⟩⟩, ⟨.symbol, "-", ⟨1, 20⟩⟩,
        ⟨.literal, "3", ⟨1, 22⟩⟩, ⟨.symbol, ";", ⟨1, 23⟩⟩, ⟨.symbol, "\x7d", ⟨1, 25⟩⟩,
        .eof ⟨1, 26⟩] := eq_ok_of_toOption (by decide +kernel)
  have h : (parseSource settings source).2 = .ok forest := by
    rw [parseSource_snd, htokens]
    rfl
  have hchains : ∀ node ∈ allNodes forest, ∀ e ∈ node.expressions, e.chain ≤ 3 := by
    simp [forest, value, allNodes, Node.inside, Node.expressions, Expr.chain, Expr.spine]
  exact ⟨h, hchains, forest_height_le h hchains⟩

/-! ## Chains of any length -/

/-- The token has the category of its text, and this is a word, a number or a symbol. -/
def Token.Writable (t : Token) : Prop :=
  t.kind = .ofText t.lexeme ∧ IsLexeme t.lexeme.toList

/-- The tokens of a program, written with blanks between them, are accepted. -/
theorem parseSource_joined {settings : Settings} {ts : List Token} {forest : List Node}
    (hts : ∀ t ∈ ts, t.Writable) (hunended : Unended ts)
    (h : Grammar.Program settings.maxDepth ts forest) :
    (parseSource settings (" ".intercalate (ts.map Token.lexeme ++ [""]))).2 = .ok forest := by
  have htexts : ∀ text ∈ ts.map Token.lexeme, IsLexeme text.toList :=
    List.forall_mem_map.2 fun t ht => (hts t ht).2
  obtain ⟨tokens, hread, hcontent⟩ := lexFrom_joined settings.unmatched .start htexts
  have hsame : (ts ++ [Token.eof .start]).map Token.content = tokens.map Token.content := by
    rw [hcontent, List.map_append, List.map_append, List.map_map]
    refine congrArg₂ _ (List.map_congr_left fun t ht => ?_) rfl
    rw [Token.content, (hts t ht).1]
    rfl
  have hforest : (parseTokens settings.maxDepth (ts ++ [Token.eof .start])).2 = .ok forest := by
    rw [parseTokens_snd, Rule.forest_ok_iff (Parser.ofTokens_proper _ _),
      (Parser.ofTokens_append_stop hunended rfl _).1]
    exact h
  rw [parseSource_snd, tokenize_snd, toList_join_blanks, hread]
  rcases parseTokens_of_content hsame settings.maxDepth with
    ⟨nodes, hnodes, hnodes'⟩ | ⟨i, e, _, ⟨p, _, hp, _⟩, _⟩
  · obtain rfl := Except.ok.inj (hforest.symm.trans hnodes)
    simp [hnodes']
  · rw [parseTokens_snd, hp] at hforest
    cases hforest

/-- The sum `1 + 1 + …` with `n` operators. -/
def sumOfOnes : Nat → Expr
  | 0 => .literal "1"
  | n + 1 => .binary (sumOfOnes n) .add (.literal "1")

theorem height_sumOfOnes (n : Nat) : (sumOfOnes n).height = n := by
  induction n with
  | zero => rfl
  | succ n ih => simp [sumOfOnes, Expr.height, ih]

theorem nesting_sumOfOnes (n : Nat) : (sumOfOnes n).nesting = 0 := by
  induction n with
  | zero => rfl
  | succ n ih => simp [sumOfOnes, Expr.nesting, Expr.isBinary, ih]

theorem writable_sumOfOnes (n : Nat) : ∀ t ∈ (sumOfOnes n).tokens, t.Writable := by
  have hone : (Token.ofWord .literal "1").Writable :=
    ⟨by decide, .number, [], rfl, .number (List.all_eq_true.1 (by decide)) nofun⟩
  have hplus : (Token.ofWord .symbol BinaryOp.add.symbol).Writable :=
    ⟨by decide, .symbol, [], rfl, .symbol (by decide)⟩
  induction n with
  | zero => exact List.forall_mem_singleton.2 hone
  | succ n ih =>
      rw [sumOfOnes, Expr.tokens_binary]
      exact List.forall_mem_append.2 ⟨ih, List.forall_mem_cons.2
        ⟨hplus, List.forall_mem_singleton.2 hone⟩⟩

/-- A declaration of such a sum, as a program. -/
theorem writable_declaration (n : Nat) :
    ∀ t ∈ forestTokens [.declaration "x" .int (sumOfOnes n)], t.Writable := by
  have htype : (Token.ofWord .typeKeyword TypeKeyword.int.word).Writable :=
    ⟨by decide, .word, [], rfl, .word (by decide) (List.all_eq_true.1 (by decide)) nofun⟩
  have hname : (Token.ofWord .identifier "x").Writable :=
    ⟨by decide, .word, [], rfl, .word (by decide) (List.all_eq_true.1 (by decide)) nofun⟩
  have hequals : (Token.ofSymbol '=').Writable :=
    ⟨by decide, .symbol, [], rfl, .symbol (by decide)⟩
  have hsemicolon : (Token.ofSymbol ';').Writable :=
    ⟨by decide, .symbol, [], rfl, .symbol (by decide)⟩
  simp only [forestTokens, Node.tokens, List.append_nil, List.forall_mem_cons,
    List.forall_mem_append]
  exact ⟨htype, hname, hequals, writable_sumOfOnes n, hsemicolon, nofun⟩

/-- **No bound by the limit alone.**  Chains of operators open no level, so that trees of any height
come of texts that are accepted even where no level may be opened. -/
theorem forest_height_unbounded :
    ¬ ∃ bound : Nat → Nat, ∀ (settings : Settings) (source : String) (forest : List Node),
      (parseSource settings source).2 = .ok forest →
      ∀ t ∈ Tree.forest forest, t.height ≤ bound settings.maxDepth := by
  rintro ⟨bound, hbound⟩
  let settings : Settings := { maxDepth := 0 }
  let node : Node := .declaration "x" .int (sumOfOnes (bound 0))
  have hplaced : WellPlaced [node] :=
    wellPlaced_iff.2 (by simp [node, Node.needsBody, Node.firstName?, Node.inside])
  have hnesting : forestNesting [node] ≤ settings.maxDepth := by
    simp [node, forestNesting, Node.nesting, nesting_sumOfOnes]
  have hsource := parseSource_joined (writable_declaration (bound 0))
    (unended_forestTokens [node]) (Grammar.program_tokens hplaced hnesting)
  have hheight : node.toTree.height ≤ bound 0 :=
    hbound settings _ [node] hsource _ List.mem_cons_self
  simp only [node, Node.toTree, Tree.height, Tree.heights, Expr.height_toTree,
    height_sumOfOnes] at hheight
  omega

end ScopeFront
