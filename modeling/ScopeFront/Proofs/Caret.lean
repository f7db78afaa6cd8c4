import ScopeFront.Proofs.ErrorPlaces

/-!
# The caret of a report

A report shows the line of an error behind the number of that line, and below it a caret behind as
many blanks as the error's column says.  What stands before the line and what stands before those
blanks do not have the same length, so that the caret does not stand below the text at fault: it is
one column to the left of it, and further where the number of the line has more than three digits.

* `FrontError.numberedLine`, `FrontError.caretLine`, `report_lines` – the two lines in a report;
* `length_numberGutter` – what stands before the line shown;
* `culprit_in_sourceLine` – what an error is about, in the line shown;
* `caret_column` – the columns of both;
* `caret_misses_character` – an error that the caret does not stand below.
-/

set_option autoImplicit false

namespace ScopeFront

open Text

/-! ## The lines of a report -/

/-- What stands before the line that a report shows. -/
def numberGutter (line : Nat) : List Char := (lineNumber line ++ " | ").toList

/-- What stands before the blanks that lead to the caret. -/
def caretGutter : List Char := [' ', ' ', ' ', '|', ' ']

namespace FrontError

/-- The line of a report that shows the source. -/
def numberedLine (e : FrontError) (source : String) : List Char :=
  numberGutter e.span.line ++ sourceLine source e.span.line

/-- The line of a report that holds the caret. -/
def caretLine (e : FrontError) : List Char :=
  caretGutter ++ List.replicate e.span.column ' ' ++ ['^']

/-- What a report says below the caret. -/
def advice (e : FrontError) : String :=
  match e.help with
  | none => ""
  | some help => "\nhelp: " ++ help ++ "\n"

theorem toList_pointer (e : FrontError) :
    e.pointer.toList = e.caretLine ++ '\n' :: e.advice.toList := by
  unfold pointer caretLine advice caretGutter
  cases e.help with
  | none => simp
  | some help => simp

end FrontError

theorem toList_lineNumber (line : Nat) :
    (lineNumber line).toList =
      List.replicate (3 - (toString line).length) ' ' ++ Nat.toDigits 10 line := by
  simp [lineNumber, String.toList_append, Nat.toString_eq_repr]

/-- The number takes three columns, or as many as it has digits, and the bar three more. -/
theorem length_numberGutter (line : Nat) :
    (numberGutter line).length = max 3 (toString line).length + 3 := by
  have hdigits : (toString line).length = (Nat.toDigits 10 line).length := by
    rw [← String.length_toList, Nat.toString_eq_repr, Nat.toList_repr]
  rw [numberGutter, String.toList_append, List.length_append, toList_lineNumber,
    List.length_append, List.length_replicate, hdigits]
  show _ + 3 = _
  omega

theorem lineFeed_not_mem_numberGutter (line : Nat) : '\n' ∉ numberGutter line := by
  rw [numberGutter, String.toList_append, toList_lineNumber, List.mem_append, List.mem_append]
  rintro ((hblank | hdigit) | hbar)
  · exact absurd (List.eq_of_mem_replicate hblank) (by decide)
  · exact absurd (Nat.isDigit_of_mem_toDigits (by decide) (by decide) hdigit) (by decide)
  · exact absurd hbar (by decide)

theorem lineFeed_not_mem_splitOn {cs piece : List Char} (h : piece ∈ cs.splitOn '\n') :
    '\n' ∉ piece := by
  induction cs generalizing piece with
  | nil =>
      rw [List.mem_singleton.1 h]
      exact List.not_mem_nil
  | cons c cs ih =>
      rw [splitOn_cons] at h
      split at h
      · rcases List.mem_cons.1 h with rfl | h
        · exact List.not_mem_nil
        · exact ih h
      · rename_i hc
        cases hpieces : cs.splitOn '\n' with
        | nil => exact absurd hpieces (List.splitOn_ne_nil _ _)
        | cons line lines =>
            rw [hpieces] at h ih
            rcases List.mem_cons.1 h with rfl | h
            · rw [List.mem_cons, not_or]
              exact ⟨Ne.symm hc, ih List.mem_cons_self⟩
            · exact ih (List.mem_cons_of_mem _ h)

/-- The line shown is one line. -/
theorem lineFeed_not_mem_sourceLine (source : String) (line : Nat) :
    '\n' ∉ sourceLine source line := by
  cases hpiece : (source.toList.splitOn '\n')[line - 1]? with
  | some piece =>
      have hmem := lineFeed_not_mem_splitOn (List.mem_of_getElem? hpiece)
      rcases sourceLine_cases hpiece with hsame | ⟨_, hreturn⟩
      · rw [hsame]
        exact hmem
      · rw [← hreturn] at hmem
        exact fun hline => hmem (List.mem_append_left _ hline)
  | none =>
      have hlength := List.getElem?_eq_none_iff.1 hpiece
      have hnone : sourceLine source line = [] := by
        unfold sourceLine sourceLines
        simp only [splitLines_eq]
        refine List.getD_eq_default _ _ (Nat.le_trans ?_ hlength)
        rw [List.length_append, List.length_map, List.length_dropLast]
        have hpos := List.length_pos_of_ne_nil (List.splitOn_ne_nil '\n' source.toList)
        split
        · simp
        · simp only [List.length_singleton]
          omega
      rw [hnone]
      exact List.not_mem_nil

theorem lineFeed_not_mem_caretLine (e : FrontError) : '\n' ∉ e.caretLine := by
  unfold FrontError.caretLine
  rw [List.mem_append, List.mem_append]
  rintro ((hgutter | hblank) | hcaret)
  · exact absurd hgutter (by decide)
  · exact absurd (List.eq_of_mem_replicate hblank) (by decide)
  · exact absurd hcaret (by decide)

/-- **The lines of a report**: those of its heading, the line shown, the caret, and the advice. -/
theorem report_lines (file source : String) (e : FrontError) :
    (report file source e).toList.splitOn '\n' =
      ((e.heading file).toList.splitOn '\n').dropLast ++
        e.numberedLine source :: e.caretLine :: e.advice.toList.splitOn '\n' := by
  have hheading : ∃ above, (e.heading file).toList = above ++ ['\n'] := by
    have hend : "   |\n" = "   |" ++ "\n" := by decide
    unfold FrontError.heading
    rw [hend, ← String.append_assoc, String.toList_append]
    exact ⟨_, rfl⟩
  obtain ⟨above, habove⟩ := hheading
  have hnumbered : '\n' ∉ e.numberedLine source := by
    rw [FrontError.numberedLine, List.mem_append, not_or]
    exact ⟨lineFeed_not_mem_numberGutter _, lineFeed_not_mem_sourceLine _ _⟩
  have hreport : (report file source e).toList =
      above ++ '\n' :: (e.numberedLine source ++ '\n' :: (e.caretLine ++
        '\n' :: e.advice.toList)) := by
    rw [FrontError.report_eq, String.toList_append, String.toList_append, habove,
      e.toList_pointer]
    simp [FrontError.numberedLine, numberGutter, String.toList_append]
  rw [hreport, habove, List.splitOn_append_cons_self,
    List.splitOn_append_cons_self_of_not_mem hnumbered,
    List.splitOn_append_cons_self_of_not_mem (lineFeed_not_mem_caretLine e),
    List.splitOn_append_cons_self, List.splitOn_nil, List.dropLast_concat]

/-! ## The text at fault -/

/-- What an error is about begins at the error's column of the line shown; where the tokens had
ended, that line ends there. -/
theorem culprit_in_sourceLine {settings : Settings} {source : String} {e : FrontError}
    (h : (parseSource settings source).2 = .error e) :
    match e.culprit with
    | some text => text <+: (sourceLine source e.span.line).drop e.span.column
    | none => (sourceLine source e.span.line).length = e.span.column := by
  obtain ⟨read, unread, hsplit, hstands⟩ := exists_standsBehind h
  have hline : e.span.line = 1 + read.count '\n' := by rw [hstands.span, line_after]; rfl
  cases hculprit : e.culprit with
  | some text =>
      obtain ⟨hfeed, hunread⟩ := hstands.text text hculprit
      obtain ⟨line, lines, hlines, hprefix⟩ := prefix_head_splitOn hfeed hunread
      obtain ⟨start, hcolumn, hget⟩ := getElem?_splitOn_after read hlines
      rw [← hsplit, ← hstands.span] at hget
      rw [← hstands.span] at hcolumn
      show text <+: _
      rw [← hcolumn]
      rcases sourceLine_cases hget with hsame | ⟨_, hreturn⟩
      · rw [hsame, List.drop_left]
        exact hprefix
      · -- the carriage return that is not shown belongs to no culprit
        rcases List.eq_nil_or_concat line with rfl | ⟨line, c, rfl⟩
        · rw [List.prefix_nil.1 hprefix]
          exact List.nil_prefix
        · rw [List.concat_eq_append] at hprefix hreturn
          rw [← List.append_assoc] at hreturn
          obtain ⟨hshown, hc⟩ := List.append_inj' hreturn rfl
          obtain rfl : '\r' = c := (List.cons.inj hc).1
          rw [hshown, List.drop_left]
          rcases List.prefix_concat_iff.1 hprefix with rfl | hprefix
          · exact absurd (hstands.solid _ hculprit '\r' (by simp)) (by decide)
          · exact hprefix
  | none =>
      obtain rfl := hstands.ended hculprit
      have hlines : ([] : List Char).splitOn '\n' = [[]] := rfl
      obtain ⟨start, hcolumn, hget⟩ := getElem?_splitOn_after read hlines
      rw [← hsplit, ← hstands.span, List.append_nil] at hget
      rw [← hstands.span] at hcolumn
      show _ = _
      rcases sourceLine_cases hget with hsame | ⟨hlast, _⟩
      · rw [hsame, hcolumn]
      · rw [hsplit, length_splitOn, List.append_nil] at hlast
        omega

/-! ## Columns -/

theorem idxOf_caretLine (e : FrontError) : e.caretLine.idxOf '^' = e.span.column + 5 := by
  have hnot : '^' ∉ caretGutter ++ List.replicate e.span.column ' ' := by
    rw [List.mem_append]
    rintro (hgutter | hblank)
    · exact absurd hgutter (by decide)
    · exact absurd (List.eq_of_mem_replicate hblank) (by decide)
  rw [FrontError.caretLine, List.idxOf_append_of_notMem hnot, List.length_append,
    List.length_replicate, List.idxOf_cons_self]
  show 5 + _ = _
  omega

theorem three_digits_iff (line : Nat) : (toString line).length ≤ 3 ↔ line < 1000 := by
  rw [← String.length_toList, Nat.toString_eq_repr, Nat.toList_repr]
  exact Nat.length_toDigits_le_iff (by decide) (by decide)

/-- **The column of the caret.**  In the report of every error of a source text, the line shown and
the caret stand on successive lines.  What the error is about begins, behind the number of the line
and a bar, at the error's column of the line shown, or the line shown ends there.  The caret stands
to the left of that place: by one column on the lines up to 999, and below those by the number of
digits less two. -/
theorem caret_column {settings : Settings} {source : String} {e : FrontError}
    (h : (parseSource settings source).2 = .error e) (file : String) :
    ∃ number caret,
      (report file source e).toList.splitOn '\n' =
        ((e.heading file).toList.splitOn '\n').dropLast ++
          number :: caret :: e.advice.toList.splitOn '\n' ∧
      number = numberGutter e.span.line ++ sourceLine source e.span.line ∧
      (match e.culprit with
        | some text =>
          text <+: number.drop ((numberGutter e.span.line).length + e.span.column)
        | none => number.length = (numberGutter e.span.line).length + e.span.column) ∧
      '^' ∈ caret ∧
      caret.idxOf '^' + (max 3 (toString e.span.line).length - 2) =
        (numberGutter e.span.line).length + e.span.column ∧
      (caret.idxOf '^' + 1 = (numberGutter e.span.line).length + e.span.column ↔
        e.span.line < 1000) := by
  refine ⟨_, _, report_lines file source e, rfl, ?_, ?_, ?_, ?_⟩
  · have hculprit := culprit_in_sourceLine h
    cases hc : e.culprit with
    | some text =>
        rw [hc] at hculprit
        simp only [FrontError.numberedLine, ← List.drop_drop, List.drop_left]
        exact hculprit
    | none =>
        rw [hc] at hculprit
        simp only [FrontError.numberedLine, List.length_append]
        exact congrArg _ hculprit
  · simp [FrontError.caretLine]
  · rw [idxOf_caretLine, length_numberGutter]
    omega
  · rw [idxOf_caretLine, length_numberGutter, ← three_digits_iff]
    omega

/-- A body that ends early: the line shown ends in column nine, and the caret stands in column
eight. -/
theorem caret_column_at_end :
    let source := "f \x7b"
    let e : FrontError :=
      .parse (.expected "'\x7d' to close named scope" (.endOfStream ⟨1, 3⟩))
    (parseSource .default source).2 = .error e ∧
      ∃ number caret,
        (report "a" source e).toList.splitOn '\n' =
          ((e.heading "a").toList.splitOn '\n').dropLast ++
            number :: caret :: e.advice.toList.splitOn '\n' ∧
        number.length = 9 ∧ caret.idxOf '^' = 8 := by
  intro source e
  have htokens : (tokenize Settings.default.unmatched source).2 = .ok
      [⟨.identifier, "f", ⟨1, 0⟩⟩, ⟨.symbol, "\x7b", ⟨1, 2⟩⟩, .eof ⟨1, 3⟩] :=
    eq_ok_of_toOption (by decide +kernel)
  have h : (parseSource .default source).2 = .error e := by
    rw [parseSource_snd, htokens]
    rfl
  obtain ⟨number, caret, hlines, _, hend, _, _, hcaret⟩ := caret_column h "a"
  have hgutter : (numberGutter 1).length = 6 := by decide +kernel
  have hnumber : number.length = (numberGutter 1).length + 3 := hend
  have hone : caret.idxOf '^' + 1 = (numberGutter 1).length + 3 :=
    hcaret.2 (show 1 < 1000 by decide)
  exact ⟨h, number, caret, hlines, by omega, by omega⟩

/-- The dollar sign at the column four of its line stands in column ten of the report, and the caret
below it in column nine. -/
theorem caret_misses_character :
    let source := "x = 1;\ny = $;"
    let e : FrontError := .lex (.unexpectedCharacter '$' ⟨2, 4⟩)
    let lines := (report "demo.scope" source e).toList.splitOn '\n'
    (parseSource .default source).2 = .error e ∧ '\n' ∉ "demo.scope".toList ∧
      ∃ number caret, lines[3]? = some number ∧ lines[4]? = some caret ∧
        number = numberGutter 2 ++ "y = $;".toList ∧ "y = $;".toList[4]? = some '$' ∧
        caret.idxOf '^' ≠ number.idxOf '$' := by
  intro source e lines
  have htokens : (tokenize Settings.default.unmatched source).2 =
      .error (.unexpectedCharacter '$' ⟨2, 4⟩) := (tokenize_of_fault (by decide +kernel)).1
  have h : (parseSource .default source).2 = .error e := by
    rw [parseSource_snd, htokens]
  refine ⟨h, by decide, numberGutter 2 ++ "y = $;".toList, e.caretLine, ?_, ?_, rfl, ?_, ?_⟩
  · decide +kernel
  · decide +kernel
  · decide +kernel
  · decide +kernel

end ScopeFront
