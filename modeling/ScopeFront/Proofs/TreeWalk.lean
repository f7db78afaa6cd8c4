import ScopeFront.Proofs.QuotedText
import ScopeFront.Tree

/-!
# Walks and outlines

A walk keeps a stack of trees still to be visited; an outline is written by recursion.  Both go
through the nodes of a tree in one order: a node, then what is below its first child, and so on to
the last child.  A node is told from its equals elsewhere in the tree by its address, the way down
to it from the root, so that this order is the order of addresses by their first difference.

* `Tree.preorder` – the order by recursion;
* `Tree.walkFrom_eq` – what the trees on the stack still contribute to a walk;
* `Tree.descendant?`, `Tree.places` – the node at an address, and all addresses with their nodes;
* `Tree.linesAt_eq`, `Tree.splitOn_join_lines` – an outline has a line for each place;
* `Tree.walk_meets_each_place_once` – walks, places and lines agree.
-/

set_option autoImplicit false

namespace ScopeFront.Tree

/-! ## The order of a walk -/

mutual

/-- The tree, then the pre-orders of its children from first to last. -/
def preorder : Tree → List Tree
  | node kind value cs => node kind value cs :: preorders cs

/-- The pre-orders of trees, one after the other. -/
def preorders : List Tree → List Tree
  | [] => []
  | t :: ts => t.preorder ++ preorders ts

end

theorem preorders_eq_flatMap (ts : List Tree) : preorders ts = ts.flatMap preorder := by
  induction ts with
  | nil => rfl
  | cons t ts ih => rw [preorders, ih, List.flatMap_cons]

theorem preorder_eq (t : Tree) : t.preorder = t :: t.children.flatMap preorder := by
  cases t with
  | node kind value cs => rw [preorder, preorders_eq_flatMap, children]

/-- The invariant of a walk: the trees on the stack contribute their pre-orders. -/
theorem walkFrom_eq (pending : List Tree) : walkFrom pending = pending.flatMap preorder := by
  induction pending using walkFrom.induct with
  | case1 => rw [walkFrom, List.flatMap_nil]
  | case2 t pending ih =>
      rw [walkFrom, ih, List.flatMap_append, List.flatMap_cons, preorder_eq t, List.cons_append]

theorem walk_eq (t : Tree) : t.walk = t.preorder := by
  rw [walk, walkFrom_eq, List.flatMap_singleton]

/-- What holds of all nodes of a tree, by what holds of the nodes below its children. -/
theorem forall_mem_walk {P : Tree → Prop} {t : Tree} :
    (∀ u ∈ t.walk, P u) ↔ P t ∧ ∀ c ∈ t.children, ∀ u ∈ c.walk, P u := by
  simp only [walk_eq]
  rw [preorder_eq, List.forall_mem_cons, List.forall_mem_flatMap]

mutual

theorem length_preorder (t : Tree) : t.preorder.length = t.size := by
  cases t with
  | node kind value cs =>
      rw [preorder, List.length_cons, length_preorders cs, size, Nat.add_comm]

theorem length_preorders (ts : List Tree) : (preorders ts).length = sizes ts := by
  cases ts with
  | nil => rfl
  | cons t ts => rw [preorders, List.length_append, length_preorder t, length_preorders ts, sizes]

end

/-! ## Addresses -/

/-- The node at an address: the numbers of the children on the way down to it. -/
def descendant? (t : Tree) : List Nat → Option Tree
  | [] => some t
  | i :: address => t.children[i]?.bind (·.descendant? address)

mutual

/-- The addresses of a tree with the nodes at them, in the order of a walk. -/
def places : Tree → List (List Nat × Tree)
  | node kind value cs => ([], node kind value cs) :: placesFrom 0 cs

/-- The places of trees that are the children of one node from number `i` on. -/
def placesFrom (i : Nat) : List Tree → List (List Nat × Tree)
  | [] => []
  | t :: ts => t.places.map (fun p => (i :: p.1, p.2)) ++ placesFrom (i + 1) ts

end

theorem mem_placesFrom {i : Nat} {ts : List Tree} {address : List Nat} {n : Tree} :
    (address, n) ∈ placesFrom i ts ↔
      ∃ j t below, ts[j]? = some t ∧ (below, n) ∈ t.places ∧ address = (i + j) :: below := by
  induction ts generalizing i with
  | nil => simp [placesFrom]
  | cons t ts ih =>
      rw [placesFrom, List.mem_append, List.mem_map, ih]
      constructor
      · rintro (⟨⟨below, _⟩, hbelow, ⟨rfl, rfl⟩⟩ | ⟨j, u, below, hu, hbelow, rfl⟩)
        · exact ⟨0, t, below, rfl, hbelow, rfl⟩
        · exact ⟨j + 1, u, below, hu, hbelow, by rw [Nat.add_right_comm, Nat.add_assoc]⟩
      · rintro ⟨j, u, below, hu, hbelow, rfl⟩
        cases j with
        | zero =>
            obtain rfl : t = u := Option.some.inj hu
            exact .inl ⟨(below, n), hbelow, rfl⟩
        | succ j => exact .inr ⟨j, u, below, hu, hbelow, by rw [Nat.add_right_comm, Nat.add_assoc]⟩

/-- **The places are the addresses that lead to a node**, each with the node it leads to. -/
theorem mem_places {t : Tree} {address : List Nat} {n : Tree} :
    (address, n) ∈ t.places ↔ t.descendant? address = some n := by
  induction address generalizing t with
  | nil =>
      cases t with
      | node kind value cs =>
          rw [places, List.mem_cons, mem_placesFrom, descendant?]
          simp [eq_comm]
  | cons i address ih =>
      cases t with
      | node kind value cs =>
          rw [places, List.mem_cons, mem_placesFrom, descendant?, Option.bind_eq_some_iff, children]
          constructor
          · rintro (h | ⟨j, c, below, hc, hbelow, heq⟩)
            · cases h
            · obtain ⟨rfl, rfl⟩ := List.cons.inj heq
              rw [Nat.zero_add]
              exact ⟨c, hc, ih.1 hbelow⟩
          · rintro ⟨c, hc, hbelow⟩
            exact .inr ⟨i, c, address, hc, ih.2 hbelow, by rw [Nat.zero_add]⟩

mutual

/-- Places are in the order of their addresses, so no address occurs twice. -/
theorem pairwise_places (t : Tree) : t.places.Pairwise fun p q => p.1 < q.1 := by
  cases t with
  | node kind value cs =>
      rw [places, List.pairwise_cons]
      refine ⟨?_, pairwise_placesFrom 0 cs⟩
      rintro ⟨address, n⟩ hplace
      obtain ⟨j, _, below, _, _, rfl⟩ := mem_placesFrom.1 hplace
      exact List.nil_lt_cons _ _

theorem pairwise_placesFrom (i : Nat) (ts : List Tree) :
    (placesFrom i ts).Pairwise fun p q => p.1 < q.1 := by
  cases ts with
  | nil => exact List.Pairwise.nil
  | cons t ts =>
      rw [placesFrom, List.pairwise_append, List.pairwise_map]
      refine ⟨?_, pairwise_placesFrom (i + 1) ts, ?_⟩
      · exact (pairwise_places t).imp fun h => List.cons_lt_cons_iff.2 (.inr ⟨rfl, h⟩)
      · rintro _ hfirst ⟨address, n⟩ hlater
        obtain ⟨⟨below, m⟩, _, rfl⟩ := List.mem_map.1 hfirst
        obtain ⟨j, _, below', _, _, rfl⟩ := mem_placesFrom.1 hlater
        exact List.cons_lt_cons_iff.2 (.inl (by omega))

end

mutual

theorem map_snd_places (t : Tree) : t.places.map Prod.snd = t.preorder := by
  cases t with
  | node kind value cs => rw [places, preorder, List.map_cons, map_snd_placesFrom 0 cs]

theorem map_snd_placesFrom (i : Nat) (ts : List Tree) :
    (placesFrom i ts).map Prod.snd = preorders ts := by
  cases ts with
  | nil => rfl
  | cons t ts =>
      rw [placesFrom, preorders, List.map_append, List.map_map, ← map_snd_places t,
        map_snd_placesFrom (i + 1) ts]
      rfl

end

/-! ## Lines -/

/-- What stands on the line of a node behind the spaces: the kind, and the value in quotes unless it
is empty. -/
def caption (kind : TreeKind) (value : String) : List Char :=
  kind.name.toList ++ if value.isEmpty then [] else ' ' :: (Text.quoted value).toList

/-- The line of a node without the line feed. -/
def indented (depth : Nat) (kind : TreeKind) (value : String) : List Char :=
  List.replicate (2 * depth) ' ' ++ caption kind value

/-- A text on a line of its own. -/
def asLine (text : List Char) : String := String.ofList (text ++ ['\n'])

theorem line_eq (depth : Nat) (kind : TreeKind) (value : String) :
    line depth kind value = asLine (indented depth kind value) := by
  apply String.toList_injective
  unfold line asLine indented caption
  split <;> simp

theorem lineFeed_not_mem_indented (depth : Nat) (kind : TreeKind) (value : String) :
    '\n' ∉ indented depth kind value := by
  have hname : '\n' ∉ kind.name.toList := by cases kind <;> decide
  unfold indented caption
  rw [List.mem_append, List.mem_replicate, List.mem_append]
  rintro (⟨_, h⟩ | h | h)
  · cases h
  · exact hname h
  · split at h
    · cases h
    · rcases List.mem_cons.1 h with hspace | hvalue
      · cases hspace
      · exact Text.lineFeed_not_mem_quoted value hvalue

/-- Texts without line feeds that are written as lines are the pieces between line feeds. -/
theorem splitOn_join_lines {texts : List (List Char)} (h : ∀ text ∈ texts, '\n' ∉ text) :
    (String.join (texts.map asLine)).toList.splitOn '\n' = texts ++ [[]] := by
  induction texts with
  | nil => rfl
  | cons text texts ih =>
      obtain ⟨htext, htexts⟩ := List.forall_mem_cons.1 h
      rw [List.map_cons, String.join_cons, String.toList_append, asLine, String.toList_ofList,
        List.append_assoc, List.singleton_append,
        List.splitOn_append_cons_self_of_not_mem htext, ih htexts, List.cons_append]

mutual

/-- The lines of a tree are those of its places, where the length of an address is the level. -/
theorem linesAt_eq (depth : Nat) (t : Tree) :
    t.linesAt depth = (t.places.map fun p =>
      indented (depth + p.1.length) p.2.kind p.2.value).map asLine := by
  cases t with
  | node kind value cs =>
      rw [linesAt, places, List.map_cons, List.map_cons, forestLinesAt_eq depth 0 cs, line_eq]
      rfl

theorem forestLinesAt_eq (depth i : Nat) (ts : List Tree) :
    forestLinesAt (depth + 1) ts = ((placesFrom i ts).map fun p =>
      indented (depth + p.1.length) p.2.kind p.2.value).map asLine := by
  cases ts with
  | nil => rfl
  | cons t ts =>
      have hlevel : ∀ n, depth + 1 + n = depth + (n + 1) := fun n => by omega
      rw [forestLinesAt, placesFrom, List.map_append, List.map_append,
        linesAt_eq (depth + 1) t, forestLinesAt_eq depth (i + 1) ts]
      simp only [hlevel, List.map_map]
      rfl

end

/-- **Walks and outlines go through the places of a tree.**  A walk is the pre-order, with one round
for each node.  It meets every node once, in the order of addresses; and the outline has one line
for each node met, in the same order: two spaces for each level, the kind, and the value in quotes
unless it is empty. -/
theorem walk_meets_each_place_once (t : Tree) :
    t.walk = t.preorder ∧ t.walk.length = t.size ∧
      t.walk = t.places.map Prod.snd ∧ (t.places.Pairwise fun p q => p.1 < q.1) ∧
      (∀ address n, (address, n) ∈ t.places ↔ t.descendant? address = some n) ∧
      t.outline.toList.splitOn '\n' =
        t.places.map (fun p =>
          List.replicate (2 * p.1.length) ' ' ++ p.2.kind.name.toList ++
            if p.2.value.isEmpty then [] else ' ' :: (Text.quoted p.2.value).toList) ++ [[]] := by
  refine ⟨t.walk_eq, ?_, ?_, t.pairwise_places, fun _ _ => mem_places, ?_⟩
  · rw [walk_eq, length_preorder]
  · rw [walk_eq, map_snd_places]
  · rw [outline, linesAt_eq, splitOn_join_lines
      (List.forall_mem_map.2 fun p _ => lineFeed_not_mem_indented _ p.2.kind p.2.value)]
    simp only [indented, caption, Nat.zero_add, List.append_assoc]

end ScopeFront.Tree
