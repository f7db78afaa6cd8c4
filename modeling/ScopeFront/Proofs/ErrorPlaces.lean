import ScopeFront.Proofs.Concatenation
import ScopeFront.Proofs.Lexer.Lines
import ScopeFront.Proofs.Lexer.Policies
import ScopeFront.Proofs.Parser.CorrectPrefix

/-!
# Where errors stand

An error names a place of its source text, and what it is about stands there: a character, the
beginning of a comment, or a token.  Where the tokens had ended, the place is the end of the text.
A report shows the line of that place.

* `FrontError.culprit` – what an error is about;
* `FrontError.StandsBehind` – an error stands behind a part of the text, right before its culprit;
* `Pass.fault_stands`, `token_stands`, `parseTokens_found` – errors of the two stages;
* `exists_standsBehind` – errors of source texts;
* `error_place` – the line and the column of an error, and the line that is shown.
-/

set_option autoImplicit false

namespace ScopeFront

open Text

namespace FrontError

/-- The text that an error is about, or nothing where the tokens had ended. -/
def culprit : FrontError → Option (List Char)
  | lex (.unexpectedCharacter ch _) => some [ch]
  | lex (.unterminatedComment _) => some ['/', '*']
  | parse e =>
    match e.found with
    | .token t => some t.lexeme.toList
    | .endOfStream _ => none

/-- What a report says before the line it shows. -/
def heading (e : FrontError) (file : String) : String :=
  "error[" ++ e.code ++ "]: " ++ e.message ++ "\n"
    ++ "  --> " ++ file ++ ":" ++ e.span.text ++ "\n"
    ++ "   |\n"

/-- What a report says below the line it shows. -/
def pointer (e : FrontError) : String :=
  "   | " ++ String.ofList (List.replicate e.span.column ' ') ++ "^\n"
    ++ match e.help with
      | none => ""
      | some help => "\nhelp: " ++ help ++ "\n"

theorem report_eq (file source : String) (e : FrontError) :
    report file source e = e.heading file ++ (lineNumber e.span.line ++ " | " ++
      String.ofList (sourceLine source e.span.line) ++ "\n") ++ e.pointer := by
  unfold report heading pointer
  cases e.help with
  | none => simp only [String.append_assoc]
  | some help => simp only [String.append_assoc]

/-- The error stands behind the text `read`: its culprit comes next, on one line and without blanks,
or nothing does where the tokens had ended. -/
structure StandsBehind (e : FrontError) (read unread : List Char) : Prop where
  span : e.span = Span.start.after read
  text : ∀ text, e.culprit = some text → '\n' ∉ text ∧ text <+: unread
  solid : ∀ text, e.culprit = some text → ∀ c ∈ text, isBlank c = false
  ended : e.culprit = none → unread = []

theorem StandsBehind.of_some {e : FrontError} {read unread text : List Char}
    (hspan : e.span = Span.start.after read) (hculprit : e.culprit = some text)
    (hsolid : ∀ c ∈ text, isBlank c = false) (htext : text <+: unread) :
    e.StandsBehind read unread where
  span := hspan
  text := by
    intro text' htext'
    rw [hculprit] at htext'
    obtain rfl := Option.some.inj htext'
    exact ⟨fun hmem => absurd (hsolid _ hmem) (by decide), htext⟩
  solid := by
    intro text' htext'
    rw [hculprit] at htext'
    obtain rfl := Option.some.inj htext'
    exact hsolid
  ended := by
    intro hended
    rw [hculprit] at hended
    cases hended

theorem StandsBehind.of_none {e : FrontError} {read : List Char}
    (hspan : e.span = Span.start.after read) (hculprit : e.culprit = none) :
    e.StandsBehind read [] where
  span := hspan
  text := by
    intro text htext
    rw [hculprit] at htext
    cases htext
  solid := by
    intro text htext
    rw [hculprit] at htext
    cases htext
  ended := fun _ => rfl

end FrontError

/-! ## Errors of the first stage -/

/-- The character of a piece that is refused, or the comment that begins with it. -/
theorem Segment.fault_text {policy : UnmatchedPolicy} {place : Span} {s : Segment}
    {rest : List Char} {e : LexError} (h : s.read policy place rest.head? = .error e)
    (hfirst : First s rest) :
    ∃ text, (FrontError.lex e).culprit = some text ∧ (∀ c ∈ text, isBlank c = false) ∧
      text <+: s.text ++ rest := by
  obtain ⟨kind, text⟩ := s
  cases kind with
  | symbol =>
      unfold Segment.read at h
      simp only at h
      split at h
      · rename_i hslash
        obtain ⟨_, rfl, hstar⟩ := hslash
        cases h
        obtain ⟨behind, rfl⟩ := List.head?_eq_some_iff.1 hstar
        have hsolid : ['/', '*'].all (fun c => !isBlank c) = true := by decide
        refine ⟨['/', '*'], rfl, fun c hc => ?_, List.prefix_append ['/', '*'] behind⟩
        simpa using List.all_eq_true.1 hsolid c hc
      · cases h
  | stray =>
      cases policy with
      | skip => simp [Segment.read] at h
      | reject =>
          cases text with
          | nil => simp [Segment.read] at h
          | cons c cs =>
              cases h
              refine ⟨[c], rfl, ?_, List.prefix_append [c] (cs ++ rest)⟩
              intro d hd
              obtain rfl := List.mem_singleton.1 hd
              -- a blank would not be stray
              cases hfirst with
              | fits hfits => cases hfits
              | stray _ hstray =>
                  refine Bool.eq_false_iff.2 fun hblank => ?_
                  exact hstray [] d cs rfl (opens_of_not_stray (plain_of_isBlank hblank).1 _)
  | _ => cases h

/-- A pass that stops has read the text before the place where it stops. -/
theorem Pass.fault_stands {policy : UnmatchedPolicy} (before : List Char) {pieces : List Segment}
    {e : LexError}
    (hfirst : ∀ read s behind, pieces = read ++ s :: behind →
      s.text ≠ [] ∧ First s (behind.flatMap Segment.text))
    (h : (ofSegments policy (Span.start.after before) pieces).fault = some e) :
    ∃ read unread, pieces.flatMap Segment.text = read ++ unread ∧
      (FrontError.lex e).StandsBehind (before ++ read) unread := by
  induction pieces generalizing before with
  | nil => cases h
  | cons s behind ih =>
      obtain ⟨hne, hs⟩ := hfirst [] s behind rfl
      have hbehind : ∀ read u later, behind = read ++ u :: later →
          u.text ≠ [] ∧ First u (later.flatMap Segment.text) := by
        intro read u later heq
        exact hfirst (s :: read) u later (congrArg (s :: ·) heq)
      have hnext : firstChar? behind = (behind.flatMap Segment.text).head? := by
        refine firstChar?_eq fun u hu => ?_
        obtain ⟨read, later, heq⟩ := List.append_of_mem hu
        exact (hbehind read u later heq).1
      cases hr : s.read policy (Span.start.after before) (firstChar? behind) with
      | error e' =>
          rw [ofSegments_error hr] at h
          obtain rfl : e' = e := Option.some.inj h
          have hspan := Segment.span_of_error hr
          rw [hnext] at hr
          obtain ⟨text, hculprit, hsolid, htext⟩ := Segment.fault_text hr hs
          refine ⟨[], _, rfl, .of_some ?_ hculprit hsolid htext⟩
          rw [List.append_nil]
          exact hspan
      | ok reading =>
          rw [ofSegments_ok hr, ← Span.after_append] at h
          obtain ⟨read, unread, hsplit, hstands⟩ := ih _ hbehind h
          refine ⟨s.text ++ read, unread, ?_, ?_⟩
          · rw [List.flatMap_cons, hsplit, List.append_assoc]
          · rw [← List.append_assoc]
            exact hstands

/-! ## Tokens -/

/-- There are no blanks in words, numbers and symbols. -/
theorem Fits.isBlank_of_mem {kind : SegmentKind} {text rest : List Char}
    (h : Fits kind text rest) (hkind : kind.isToken = true) : ∀ c ∈ text, isBlank c = false := by
  intro c hmem
  refine Bool.eq_false_iff.2 fun hblank => ?_
  obtain ⟨hstarts, hdigit, hsymbol⟩ := not_starts_of_isBlank hblank
  cases h with
  | word hstart hgo _ =>
      rcases List.mem_cons.1 hmem with rfl | hmem
      · exact Bool.false_ne_true (hstarts.symm.trans hstart)
      · have hcontinues := hgo _ hmem
        simp only [startsWord, Bool.or_eq_false_iff] at hstarts
        simp [continuesWord, Char.isAlphanum, hstarts, hdigit] at hcontinues
  | number hdigits _ => exact Bool.false_ne_true (hdigit.symm.trans (hdigits _ hmem))
  | symbol hchar =>
      obtain rfl := List.mem_singleton.1 hmem
      exact Bool.false_ne_true (hsymbol.symm.trans hchar)
  | lineComment | blockComment | blank => cases hkind

/-- A token of a source text stands where its text does. -/
theorem token_stands {policy : UnmatchedPolicy} {source : String} {tokens : List Token}
    (h : (tokenize policy source).2 = .ok tokens) {t : Token} (ht : t ∈ tokens)
    (heof : t.isEof = false) :
    ∃ read unread, source.toList = read ++ unread ∧ t.span = Span.start.after read ∧
      (∀ c ∈ t.lexeme.toList, isBlank c = false) ∧ t.lexeme.toList <+: unread := by
  obtain ⟨read, s, behind, next, hpieces, hspelled⟩ := (tokenize_emits h).spelled ht heof
  obtain ⟨hspan, hlexeme, hkind⟩ := hspelled.eq
  have hfirst := (segments_first hpieces).2
  refine ⟨read.flatMap Segment.text, s.text ++ behind.flatMap Segment.text, ?_, hspan, ?_, ?_⟩
  · rw [← segments_text source.toList, hpieces, List.flatMap_append, List.flatMap_cons]
  · rw [hlexeme]
    obtain ⟨kind, text⟩ := s
    cases hfirst with
    | fits hfits => exact hfits.isBlank_of_mem hkind
    | stray => cases hkind
  · rw [hlexeme]
    exact List.prefix_append _ _

/-! ## Errors of the second stage -/

/-- What a run finds where it gives up is one of the tokens, or their end. -/
theorem parseTokens_found {limit : Nat} {ts : List Token} {stop : Token} {e : ParseError}
    (hts : ∀ t ∈ ts, t.isEof = false) (hstop : stop.isEof = true)
    (h : (parseTokens limit (ts ++ [stop])).2 = .error e) :
    (∃ t ∈ ts, e.found = .token t) ∨ e.found = .endOfStream stop.span := by
  obtain ⟨hahead, hstop'⟩ := Parser.ofTokens_append_stop hts hstop limit
  have hproper := Parser.ofTokens_proper (ts ++ [stop]) limit
  have hread := Rule.forest_reads _ hproper rfl
  rw [parseTokens_snd] at h
  generalize Parser.ofTokens (ts ++ [stop]) limit = p at h hread hahead hstop' hproper
  rcases hx : Rule.forest p with ⟨q, x⟩
  rw [hx] at h hread
  obtain rfl : x = .error e := h
  have htoken : ∀ t ∈ ts, Found.ofToken t = .token t := by
    intro t ht
    exact Found.ofToken_eq (hts t ht)
  cases hread with
  | @tooDeep _ us t hq _ =>
      have ht : t ∈ ts := by
        rw [← hahead, hq.ahead]
        simp
      exact .inl ⟨t, ht, htoken t ht⟩
  | @refused _ us _ _ _ _ hq hrefuse _ _ =>
      rw [ParseError.found_of_refuses hrefuse, Parser.peek]
      cases hlater : q.ahead with
      | nil =>
          right
          rw [List.headD_nil, hq.stop, hstop', Found.ofToken, hstop]
          rfl
      | cons t later =>
          have ht : t ∈ ts := by
            rw [← hahead, hq.ahead, hlater]
            simp
          exact .inl ⟨t, ht, htoken t ht⟩

/-! ## Errors of source texts -/

/-- Every error of a source text stands behind some part of it. -/
theorem exists_standsBehind {settings : Settings} {source : String} {e : FrontError}
    (h : (parseSource settings source).2 = .error e) :
    ∃ read unread, source.toList = read ++ unread ∧ e.StandsBehind read unread := by
  rw [parseSource_snd] at h
  cases htokens : (tokenize settings.unmatched source).2 with
  | error e' =>
      rw [htokens] at h
      cases h
      have hfault := fault_of_tokenize_error htokens
      obtain ⟨read, unread, hsplit, hstands⟩ :=
        Pass.fault_stands [] (fun _ _ _ heq => segments_first heq) hfault
      rw [segments_text] at hsplit
      exact ⟨read, unread, hsplit, hstands⟩
  | ok tokens =>
      rw [htokens] at h
      obtain ⟨ts, hts, rfl⟩ := (tokenize_emits htokens).ends
      rw [List.nil_append, segments_text] at htokens h
      cases hparse : (parseTokens settings.maxDepth
          (ts ++ [Token.eof (Span.start.after source.toList)])).2 with
      | ok forest => simp [hparse] at h
      | error e' =>
          simp only [hparse] at h
          cases h
          rcases parseTokens_found hts rfl hparse with ⟨t, ht, hfound⟩ | hfound
          · obtain ⟨read, unread, hsplit, hspan, hsolid, htext⟩ :=
              token_stands htokens (List.mem_append_left _ ht) (hts t ht)
            have hculprit : (FrontError.parse e').culprit = some t.lexeme.toList := by
              simp only [FrontError.culprit, hfound]
            refine ⟨read, unread, hsplit, .of_some ?_ hculprit hsolid htext⟩
            show e'.found.span = _
            rw [hfound]
            exact hspan
          · have hculprit : (FrontError.parse e').culprit = none := by
              simp only [FrontError.culprit, hfound]
            refine ⟨source.toList, [], (List.append_nil _).symm, .of_none ?_ hculprit⟩
            show e'.found.span = _
            rw [hfound]
            rfl

/-- **The place of an error.**  Its line is one of the pieces of the source text between line feeds,
and its column stands in that piece or at its end.  What the error is about begins there; an error
about the end of the tokens stands at the end of the text.  A report shows the piece, without a
carriage return that stands at its end before a line feed. -/
theorem error_place {settings : Settings} {source : String} {e : FrontError}
    (h : (parseSource settings source).2 = .error e) (file : String) :
    1 ≤ e.span.line ∧ e.span.line ≤ 1 + source.toList.count '\n' ∧
    ∃ piece, (source.toList.splitOn '\n')[e.span.line - 1]? = some piece ∧
      e.span.column ≤ piece.length ∧
      (match e.culprit with
        | some text => text <+: piece.drop e.span.column
        | none => e.span.line = (source.toList.splitOn '\n').length ∧
            e.span.column = piece.length) ∧
      ∃ shown, (shown = piece ∨ e.span.line < (source.toList.splitOn '\n').length ∧
          shown ++ ['\r'] = piece) ∧
        report file source e = e.heading file ++ (lineNumber e.span.line ++ " | " ++
          String.ofList shown ++ "\n") ++ e.pointer := by
  obtain ⟨read, unread, hsplit, hstands⟩ := exists_standsBehind h
  have hline : e.span.line = 1 + read.count '\n' := by rw [hstands.span, line_after]; rfl
  have hcount : source.toList.count '\n' = read.count '\n' + unread.count '\n' := by
    rw [hsplit, List.count_append]
  -- the piece, with what is at fault at the beginning of its second part
  have hpiece : ∃ line lines, unread.splitOn '\n' = line :: lines ∧
      match e.culprit with
      | some text => text <+: line
      | none => unread = [] ∧ line = [] := by
    cases hculprit : e.culprit with
    | some text =>
        obtain ⟨htext, hprefix⟩ := hstands.text text hculprit
        exact prefix_head_splitOn htext hprefix
    | none =>
        obtain rfl := hstands.ended hculprit
        exact ⟨[], [], rfl, rfl, rfl⟩
  obtain ⟨line, lines, hlines, hculprit⟩ := hpiece
  obtain ⟨start, hcolumn, hget⟩ := getElem?_splitOn_after read hlines
  rw [← hsplit, ← hstands.span] at hget
  rw [← hstands.span] at hcolumn
  refine ⟨by omega, by omega, start ++ line, hget, ?_, ?_, sourceLine source e.span.line, ?_,
    FrontError.report_eq file source e⟩
  · rw [← hcolumn, List.length_append]
    exact Nat.le_add_right _ _
  · cases hc : e.culprit with
    | some text =>
        rw [hc] at hculprit
        simp only [← hcolumn, List.drop_left]
        exact hculprit
    | none =>
        rw [hc] at hculprit
        obtain ⟨rfl, rfl⟩ := hculprit
        simp only [length_splitOn, List.append_nil, hcolumn, and_true]
        rw [hline, hcount]
        rfl
  · have hshown := sourceLine_cases hget
    rw [Nat.sub_add_cancel (by omega)] at hshown
    exact hshown

/-- A parenthesis that starts no statement, on a line that ends with a carriage return. -/
theorem error_place_before_return :
    let source := "f \x7b\r\n  (\r\n"
    let e : FrontError := .parse
      (.unexpectedToken (.token ⟨.symbol, "(", ⟨2, 2⟩⟩) "at start of statement")
    (parseSource .default source).2 = .error e ∧
      ∃ piece, (source.toList.splitOn '\n')[1]? = some piece ∧ ['('] <+: piece.drop 2 ∧
        ∃ shown, (shown = piece ∨ 2 < (source.toList.splitOn '\n').length ∧
            shown ++ ['\r'] = piece) ∧
          report "a" source e = e.heading "a" ++ (lineNumber 2 ++ " | " ++
            String.ofList shown ++ "\n") ++ e.pointer := by
  intro source e
  have htokens : (tokenize Settings.default.unmatched source).2 = .ok
      [⟨.identifier, "f", ⟨1, 0⟩⟩, ⟨.symbol, "\x7b", ⟨1, 2⟩⟩, ⟨.symbol, "(", ⟨2, 2⟩⟩,
        .eof ⟨3, 0⟩] := eq_ok_of_toOption (by decide +kernel)
  have h : (parseSource .default source).2 = .error e := by
    rw [parseSource_snd, htokens]
    rfl
  obtain ⟨_, _, piece, hpiece, _, hculprit, hshown⟩ := error_place h "a"
  exact ⟨h, piece, hpiece, hculprit, hshown⟩

end ScopeFront
