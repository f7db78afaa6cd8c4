import Mathlib.Data.List.Basic
import Mathlib.Data.List.GetD
import Mathlib.Data.List.Induction
import ScopeFront.Proofs.Lexer.Concatenation
import ScopeFront.Report

/-!
# Places and lines

Places are counted while a text is read; lines are cut from the whole text.  The place reached after
reading a part of a text is the line that this part ends on, and the column is the length of what
the part has of that line.

* `splitLines_eq` – lines are the pieces between line feeds;
* `drop_splitOn_after` – the line that a place is on, and all lines below it;
* `getElem?_splitOn_after` – the line that a place is on;
* `sourceLine_cases` – the line that a report shows.
-/

set_option autoImplicit false

namespace ScopeFront

/-! ## Pieces between line feeds -/

theorem splitOn_cons (c : Char) (cs : List Char) :
    (c :: cs).splitOn '\n' =
      if c = '\n' then [] :: cs.splitOn '\n' else (cs.splitOn '\n').modifyHead (c :: ·) := by
  rw [List.splitOn_eq_splitOnP, List.splitOnP_cons_eq_if_modifyHead, ← List.splitOn_eq_splitOnP]
  simp only [beq_iff_eq]

theorem splitLines_eq (cs : List Char) : splitLines cs = cs.splitOn '\n' := by
  induction cs with
  | nil => rfl
  | cons c cs ih =>
      rw [splitLines, ih, splitOn_cons]
      cases hpieces : cs.splitOn '\n' with
      | nil => exact absurd hpieces (List.splitOn_ne_nil _ _)
      | cons line lines => rfl

theorem length_splitOn (cs : List Char) : (cs.splitOn '\n').length = 1 + cs.count '\n' := by
  induction cs with
  | nil => rfl
  | cons c cs ih =>
      rw [splitOn_cons, List.count_cons]
      split
      · rename_i hc
        rw [List.length_cons, ih, hc, beq_self_eq_true, if_pos rfl]
        omega
      · rename_i hc
        rw [List.length_modifyHead, ih, if_neg (by simpa using hc), Nat.add_zero]

/-- What a text without line feeds begins with, its first line begins with. -/
theorem prefix_head_splitOn {text rest : List Char} (htext : '\n' ∉ text) (h : text <+: rest) :
    ∃ line lines, rest.splitOn '\n' = line :: lines ∧ text <+: line := by
  induction text generalizing rest with
  | nil =>
      obtain ⟨line, lines, hlines⟩ := List.exists_cons_of_ne_nil (List.splitOn_ne_nil '\n' rest)
      exact ⟨line, lines, hlines, List.nil_prefix⟩
  | cons c text ih =>
      obtain ⟨behind, rfl⟩ := h
      rw [List.mem_cons, not_or] at htext
      obtain ⟨hc, htext⟩ := htext
      obtain ⟨line, lines, hlines, hprefix⟩ := ih htext (List.prefix_append text behind)
      refine ⟨c :: line, lines, ?_, List.cons_prefix_cons.2 ⟨rfl, hprefix⟩⟩
      rw [List.cons_append, splitOn_cons, if_neg (Ne.symm hc), hlines]
      rfl

/-! ## The line of a place -/

/-- From the line of a place on, the lines are those of the unread text, the first of them behind
what was read of it. -/
theorem drop_splitOn_after (read unread : List Char) :
    ∃ start : List Char, start.length = (Span.start.after read).column ∧
      ((read ++ unread).splitOn '\n').drop ((Span.start.after read).line - 1) =
        (unread.splitOn '\n').modifyHead (start ++ ·) := by
  -- the last character read moves from the unread text to the read one
  induction read using List.reverseRecOn generalizing unread with
  | nil =>
      refine ⟨[], rfl, ?_⟩
      show unread.splitOn '\n' = _
      cases unread.splitOn '\n' <;> rfl
  | append_singleton read c ih =>
      obtain ⟨start, hcolumn, hdrop⟩ := ih (c :: unread)
      have hline : 1 ≤ (Span.start.after read).line := by
        rw [line_after]
        exact Nat.le_add_right 1 _
      rw [Span.after_append, List.append_assoc, Span.after_cons, Span.after_nil]
      rw [splitOn_cons] at hdrop
      unfold Span.step
      by_cases hc : c = '\n'
      · rw [if_pos hc] at hdrop ⊢
        refine ⟨[], rfl, ?_⟩
        have hnext : (Span.start.after read).line + 1 - 1 = (Span.start.after read).line - 1 + 1 := by
          omega
        show List.drop ((Span.start.after read).line + 1 - 1) _ = _
        rw [hnext, ← List.drop_drop, List.singleton_append, hdrop]
        cases unread.splitOn '\n' <;> rfl
      · rw [if_neg hc] at hdrop ⊢
        refine ⟨start ++ [c], by rw [List.length_append, hcolumn]; rfl, ?_⟩
        rw [List.singleton_append, hdrop, List.modifyHead_modifyHead]
        congr 1
        funext line
        simp

/-- The line of a place: what was read of it and what was not. -/
theorem getElem?_splitOn_after (read : List Char) {unread line : List Char}
    {lines : List (List Char)}
    (h : unread.splitOn '\n' = line :: lines) :
    ∃ start : List Char, start.length = (Span.start.after read).column ∧
      ((read ++ unread).splitOn '\n')[(Span.start.after read).line - 1]? =
        some (start ++ line) := by
  obtain ⟨start, hcolumn, hdrop⟩ := drop_splitOn_after read unread
  refine ⟨start, hcolumn, ?_⟩
  rw [← Nat.add_zero ((Span.start.after read).line - 1), ← List.getElem?_drop, hdrop, h]
  rfl

/-! ## The line that is shown -/

theorem dropReturn_cases (line : List Char) :
    dropReturn line = line ∨ dropReturn line ++ ['\r'] = line := by
  unfold dropReturn
  split
  · rename_i h
    exact .inr (List.dropLast_append_getLast? '\r' h)
  · exact .inl rfl

/-- The line shown is the piece between line feeds, but for a carriage return at its end where a
line feed follows. -/
theorem sourceLine_cases {source : String} {line : Nat} {piece : List Char}
    (h : (source.toList.splitOn '\n')[line - 1]? = some piece) :
    sourceLine source line = piece ∨
      line - 1 + 1 < (source.toList.splitOn '\n').length ∧
        sourceLine source line ++ ['\r'] = piece := by
  unfold sourceLine sourceLines
  simp only [splitLines_eq]
  generalize source.toList.splitOn '\n' = pieces at h ⊢
  rcases List.eq_nil_or_concat pieces with rfl | ⟨above, last, rfl⟩
  · cases h
  · rw [List.concat_eq_append] at h ⊢
    rw [List.getLastD_concat, List.dropLast_concat]
    rcases Nat.lt_or_ge (line - 1) above.length with hlt | hge
    · rw [List.getElem?_append_left hlt] at h
      have hshown : ((above.map dropReturn) ++ if last.isEmpty then [] else [last]).getD
          (line - 1) [] = dropReturn piece := by
        rw [List.getD_append _ _ _ _ (by rwa [List.length_map]), List.getD_eq_getElem?_getD,
          List.getElem?_map, h]
        rfl
      rw [hshown, List.length_append, List.length_singleton]
      rcases dropReturn_cases piece with hsame | hreturn
      · exact .inl hsame
      · exact .inr ⟨by omega, hreturn⟩
    · -- the last piece is shown as it is, and where it is empty there is no such line
      left
      obtain ⟨hlt, _⟩ := List.getElem?_eq_some_iff.1 h
      rw [List.length_append, List.length_singleton] at hlt
      have hlast : line - 1 = above.length := by omega
      rw [hlast, List.getElem?_concat_length] at h
      obtain rfl : last = piece := Option.some.inj h
      have hmap : (above.map dropReturn).length ≤ line - 1 := by
        rw [List.length_map]
        exact hge
      rw [List.getD_append_right _ _ _ _ hmap, List.length_map, hlast, Nat.sub_self]
      cases last <;> rfl

end ScopeFront
