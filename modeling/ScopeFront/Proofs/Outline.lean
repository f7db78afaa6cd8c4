import ScopeFront.Proofs.TreeWalk

/-!
# Outlines determine trees

In an outline only the spaces before a line tell whose child a node is, only line feeds tell nodes
apart, and an empty value is left out.  This is enough, whatever the values are: a line determines
its level, kind and value, and among lines the children of a node end where a line is no deeper
than the node.

* `Tree.line_inj` – a line determines what it was written for;
* `Tree.Shallower` – what may stand behind the lines of trees at a level;
* `Tree.forestLinesAt_append_inj` – the lines of trees before such lines determine the trees;
* `Tree.join_lines_inj` – a text determines its lines;
* `Tree.outlines_determine_trees` – the outlines of trees determine the trees.
-/

set_option autoImplicit false

namespace ScopeFront

/-! ## A line -/

/-- A run of characters of a class, and what stands behind it, are determined by the text. -/
theorem run_append_inj {p : Char → Bool} {cs cs' rest rest' : List Char}
    (hcs : ∀ d ∈ cs, p d = true) (hcs' : ∀ d ∈ cs', p d = true) (hrest : Ends p rest)
    (hrest' : Ends p rest') (h : cs ++ rest = cs' ++ rest') : cs = cs' ∧ rest = rest' := by
  obtain ⟨htake, hdrop⟩ := takeWhile_of_ends hcs hrest
  obtain ⟨htake', hdrop'⟩ := takeWhile_of_ends hcs' hrest'
  rw [h] at htake hdrop
  exact ⟨htake.symm.trans htake', hdrop.symm.trans hdrop'⟩

theorem TreeKind.ofName?_name (kind : TreeKind) : ofName? kind.name = some kind := by
  cases kind <;> decide

theorem TreeKind.name_inj {kind kind' : TreeKind} (h : kind.name = kind'.name) :
    kind = kind' := by
  have hread := kind.ofName?_name
  rw [h, kind'.ofName?_name] at hread
  exact (Option.some.inj hread).symm

namespace Tree

theorem caption_inj {kind kind' : TreeKind} {value value' : String}
    (h : caption kind value = caption kind' value') : kind = kind' ∧ value = value' := by
  have hname : ∀ kind : TreeKind, ∀ c ∈ kind.name.toList, (c != ' ') = true := by
    intro kind
    have hall : kind.name.toList.all (· != ' ') = true := by cases kind <;> rfl
    exact List.all_eq_true.1 hall
  have hends : ∀ value : String, Ends (· != ' ')
      (if value.isEmpty then [] else ' ' :: (Text.quoted value).toList) := by
    intro value c hc
    split at hc
    · cases hc
    · rw [← Option.some.inj hc]
      rfl
  obtain ⟨hkind, hvalue⟩ :=
    run_append_inj (hname kind) (hname kind') (hends value) (hends value') h
  refine ⟨TreeKind.name_inj (String.toList_injective hkind), ?_⟩
  split at hvalue
  · rename_i hempty
    split at hvalue
    · rename_i hempty'
      rw [String.isEmpty_iff.1 hempty, String.isEmpty_iff.1 hempty']
    · cases hvalue
  · split at hvalue
    · cases hvalue
    · have hquoted := congrArg (· ++ []) (List.cons.inj hvalue).2
      exact (Text.quoted_append_inj hquoted).1

theorem ends_caption (kind : TreeKind) (value : String) : Ends (· == ' ') (caption kind value) := by
  cases kind <;> exact fun c hc => (Option.some.inj hc) ▸ rfl

theorem asLine_inj {text text' : List Char} (h : asLine text = asLine text') : text = text' :=
  List.append_cancel_right (String.ofList_injective h)

/-- **A line determines its level, kind and value.** -/
theorem line_inj {depth depth' : Nat} {kind kind' : TreeKind} {value value' : String}
    (h : line depth kind value = line depth' kind' value') :
    depth = depth' ∧ kind = kind' ∧ value = value' := by
  have hspaces : ∀ n, ∀ c ∈ List.replicate n ' ', (c == ' ') = true := by
    intro n c hc
    rw [List.eq_of_mem_replicate hc]
    rfl
  rw [line_eq, line_eq] at h
  obtain ⟨hindent, hcaption⟩ := run_append_inj (hspaces _) (hspaces _) (ends_caption kind value)
    (ends_caption kind' value') (asLine_inj h)
  have hlevels : 2 * depth = 2 * depth' := by
    simpa only [List.length_replicate] using congrArg List.length hindent
  exact ⟨by omega, caption_inj hcaption⟩

/-! ## Lines of trees -/

/-- The lines begin, if there are any, with the line of a node above the level. -/
def Shallower (depth : Nat) (lines : List String) : Prop :=
  ∀ l, lines.head? = some l → ∃ above kind value, above < depth ∧ l = line above kind value

/-- Behind the children of a node stand its siblings, and then what stands behind all of them. -/
theorem Shallower.behind {depth : Nat} {lines : List String} (h : Shallower depth lines)
    (ts : List Tree) : Shallower (depth + 1) (forestLinesAt depth ts ++ lines) := by
  intro l hl
  cases ts with
  | nil =>
      obtain ⟨above, kind, value, habove, hline⟩ := h l hl
      exact ⟨above, kind, value, by omega, hline⟩
  | cons t ts =>
      obtain ⟨kind, value, cs⟩ := t
      exact ⟨depth, kind, value, by omega, (Option.some.inj hl).symm⟩

/-- Lines above the level are not those of trees at the level. -/
theorem Shallower.ne_forestLinesAt {depth : Nat} {lines lines' : List String}
    (h : Shallower depth lines) (t : Tree) (ts : List Tree) :
    lines ≠ forestLinesAt depth (t :: ts) ++ lines' := by
  rintro rfl
  obtain ⟨kind, value, cs⟩ := t
  obtain ⟨above, _, _, habove, hline⟩ := h (line depth kind value) rfl
  have hdepth := (line_inj hline).1
  omega

mutual

theorem linesAt_append_inj {depth : Nat} {rest rest' : List String}
    (hrest : Shallower (depth + 1) rest) (hrest' : Shallower (depth + 1) rest') (t u : Tree)
    (h : t.linesAt depth ++ rest = u.linesAt depth ++ rest') : t = u ∧ rest = rest' := by
  cases t with
  | node kind value cs =>
      cases u with
      | node kind' value' cs' =>
          rw [linesAt, linesAt] at h
          obtain ⟨hfirst, hbelow⟩ := List.cons.inj h
          obtain ⟨_, rfl, rfl⟩ := line_inj hfirst
          obtain ⟨rfl, hmore⟩ := forestLinesAt_append_inj hrest hrest' cs cs' hbelow
          exact ⟨rfl, hmore⟩

/-- **The lines of trees determine the trees** and where they end, before lines above them. -/
theorem forestLinesAt_append_inj {depth : Nat} {rest rest' : List String}
    (hrest : Shallower depth rest) (hrest' : Shallower depth rest') (ts us : List Tree)
    (h : forestLinesAt depth ts ++ rest = forestLinesAt depth us ++ rest') :
    ts = us ∧ rest = rest' := by
  cases ts with
  | nil =>
      cases us with
      | nil => exact ⟨rfl, h⟩
      | cons u us => exact absurd h (hrest.ne_forestLinesAt u us)
  | cons t ts =>
      cases us with
      | nil => exact absurd h.symm (hrest'.ne_forestLinesAt t ts)
      | cons u us =>
          rw [forestLinesAt, forestLinesAt, List.append_assoc, List.append_assoc] at h
          obtain ⟨rfl, hmore⟩ := linesAt_append_inj (hrest.behind ts) (hrest'.behind us) t u h
          obtain ⟨rfl, hbehind⟩ := forestLinesAt_append_inj hrest hrest' ts us hmore
          exact ⟨rfl, hbehind⟩

end

/-! ## Outlines -/

/-- A text determines the lines it was written as. -/
theorem join_lines_inj {texts texts' : List (List Char)} (h : ∀ text ∈ texts, '\n' ∉ text)
    (h' : ∀ text ∈ texts', '\n' ∉ text)
    (heq : String.join (texts.map asLine) = String.join (texts'.map asLine)) : texts = texts' := by
  have hpieces := splitOn_join_lines h
  rw [heq, splitOn_join_lines h'] at hpieces
  exact (List.append_cancel_right hpieces).symm

theorem forestLinesAt_eq_flatMap (depth : Nat) (ts : List Tree) :
    forestLinesAt depth ts = ts.flatMap (linesAt depth) := by
  induction ts with
  | nil => rfl
  | cons t ts ih => rw [forestLinesAt, ih, List.flatMap_cons]

theorem forestLinesAt_eq_lines (depth : Nat) (ts : List Tree) :
    ∃ texts : List (List Char), (∀ text ∈ texts, '\n' ∉ text) ∧
      forestLinesAt depth ts = texts.map asLine := by
  refine ⟨(ts.flatMap places).map fun p => indented (depth + p.1.length) p.2.kind p.2.value,
    List.forall_mem_map.2 fun p _ => lineFeed_not_mem_indented _ _ _, ?_⟩
  rw [forestLinesAt_eq_flatMap, List.map_flatMap, List.map_flatMap]
  exact congrArg ts.flatMap (funext (linesAt_eq depth))

/-- The outline of several trees is the outlines of each of them. -/
theorem outlines_eq_join (ts : List Tree) : outlines ts = String.join (ts.map outline) := by
  apply String.toList_injective
  rw [outlines, forestLinesAt_eq_flatMap, String.toList_join, String.toList_join,
    List.flatMap_map, List.flatMap_assoc]
  simp only [outline, String.toList_join]

/-- **The outlines of trees determine the trees**, whatever their kinds, values and children. -/
theorem outlines_determine_trees (ts us : List Tree) :
    String.join (ts.map outline) = String.join (us.map outline) ↔ ts = us := by
  constructor
  · intro h
    rw [← outlines_eq_join, ← outlines_eq_join] at h
    obtain ⟨texts, htexts, hts⟩ := forestLinesAt_eq_lines 0 ts
    obtain ⟨texts', htexts', hus⟩ := forestLinesAt_eq_lines 0 us
    have hlines : forestLinesAt 0 ts ++ [] = forestLinesAt 0 us ++ [] := by
      rw [outlines, outlines, hts, hus] at h
      rw [hts, hus, join_lines_inj htexts htexts' h]
    have hnothing : Shallower 0 [] := fun l hl => nomatch hl
    exact (forestLinesAt_append_inj hnothing hnothing ts us hlines).1
  · rintro rfl
    rfl

-- A value may look like the lines that would follow it: quotes and line feeds in it are escaped.
example : outline (.leaf .expression "a\"\n  Type \"int") ≠
    outline (.node .expression "a" [.leaf .type "int"]) := by
  decide +kernel

end Tree

end ScopeFront
