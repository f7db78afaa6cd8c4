import ScopeFront.Proofs.Lexer.Segmentation

/-!
# Scanning again

A scanner keeps its place and its tokens, and can be run again from there.  Behind a scan that came
to the end nothing is left to read, and a further one only adds an end marker.  Behind a scan that
stopped at an error the piece at fault is still the next one, at the same place and with the same
text behind it, so that a further scan stops before it has moved.

* `Pass.unread_eq_nil`, `Pass.ofSegments_unread` – a pass over what a pass left unread;
* `Scanner.scanned`, `Scanner.scans` – what one scan and what successive scans leave and answer;
* `Scanner.scanned_completed`, `Scanner.scanned_stopped` – one further scan;
* `Scanner.scans_completed`, `Scanner.scans_stopped` – any number of further scans;
* `rescanning_is_stable` – any number of scans of a source text.
-/

set_option autoImplicit false

namespace ScopeFront

/-! ## A further pass -/

namespace Pass

variable {policy : UnmatchedPolicy}

/-- A pass without a fault leaves nothing unread. -/
theorem unread_eq_nil {place : Span} {pieces : List Segment}
    (h : (ofSegments policy place pieces).fault = none) :
    (ofSegments policy place pieces).unread = [] := by
  induction pieces generalizing place with
  | nil => rfl
  | cons s behind ih =>
      obtain ⟨reading, hr, hlater⟩ := of_cons h
      rw [ofSegments_ok hr]
      exact ih hlater

/-- A pass over what a pass left unread at a fault finds the fault again, and reads nothing. -/
theorem ofSegments_unread {place : Span} {pieces : List Segment} {e : LexError}
    (h : (ofSegments policy place pieces).fault = some e) :
    ofSegments policy (ofSegments policy place pieces).place
        (ofSegments policy place pieces).unread =
      { tokens := []
        log := [.fatal lexerStage e.message]
        unread := (ofSegments policy place pieces).unread
        place := (ofSegments policy place pieces).place
        fault := some e } := by
  induction pieces generalizing place with
  | nil => cases h
  | cons s behind ih =>
      cases hr : s.read policy place (firstChar? behind) with
      | error e' =>
          rw [ofSegments_error hr] at h ⊢
          obtain rfl : e' = e := Option.some.inj h
          -- the piece at fault was left where it stood
          exact ofSegments_error hr
      | ok reading =>
          rw [ofSegments_ok hr] at h ⊢
          exact ih h

/-- No piece is read as an end marker. -/
theorem isEof_of_mem_tokens (before : List Char) {pieces : List Segment} {t : Token}
    (ht : t ∈ (ofSegments policy (Span.start.after before) pieces).tokens) :
    t.isEof = false := by
  induction pieces generalizing before with
  | nil => cases ht
  | cons s behind ih =>
      cases hr : s.read policy (Span.start.after before) (firstChar? behind) with
      | error e =>
          rw [ofSegments_error hr] at ht
          cases ht
      | ok reading =>
          rw [ofSegments_ok hr, ← Span.after_append] at ht
          rcases List.mem_append.1 ht with hhere | hlater
          · rcases Segment.read_ok hr with ⟨u, hu, hspelled⟩ | ⟨hnone, _⟩
            · rw [hu] at hhere
              obtain rfl := List.mem_singleton.1 hhere
              exact hspelled.isEof
            · rw [hnone] at hhere
              cases hhere
          · exact ih _ hlater

end Pass

/-! ## A further scan -/

namespace Scanner

variable {policy : UnmatchedPolicy} {s : Scanner}

/-- What a scan leaves and answers, without its log. -/
def scanned (policy : UnmatchedPolicy) (s : Scanner) : Scanner × Except LexError Unit :=
  ((s.scan policy).1, (s.scan policy).2.2)

/-- What successive scans leave and answer, the first scan first. -/
def scans (policy : UnmatchedPolicy) : Nat → Scanner → List (Scanner × Except LexError Unit)
  | 0, _ => []
  | n + 1, s => s.scanned policy :: scans policy n (s.scanned policy).1

/-- A scan that comes to the end leaves nothing unread, and an end marker behind its tokens. -/
theorem scanned_of_no_fault
    (h : (Pass.ofSegments policy s.place s.unread).fault = none) :
    s.scanned policy =
      (⟨[], (Pass.ofSegments policy s.place s.unread).place,
        s.tokens ++ (Pass.ofSegments policy s.place s.unread).tokens ++
          [Token.eof (Pass.ofSegments policy s.place s.unread).place]⟩, .ok ()) := by
  unfold scanned scan
  simp only [h, Pass.unread_eq_nil h]

/-- A scan that stops at an error leaves what its pass left. -/
theorem scanned_of_fault {e : LexError}
    (h : (Pass.ofSegments policy s.place s.unread).fault = some e) :
    s.scanned policy =
      (⟨(Pass.ofSegments policy s.place s.unread).unread,
        (Pass.ofSegments policy s.place s.unread).place,
        s.tokens ++ (Pass.ofSegments policy s.place s.unread).tokens⟩, .error e) := by
  unfold scanned scan
  simp only [h]

/-- Where nothing is left, a scan adds an end marker and moves nothing. -/
theorem scanned_completed (policy : UnmatchedPolicy) (place : Span) (tokens : List Token) :
    scanned policy ⟨[], place, tokens⟩ = (⟨[], place, tokens ++ [Token.eof place]⟩, .ok ()) := by
  rw [scanned_of_no_fault rfl]
  simp [Pass.ofSegments]

/-- Where a scan stopped at an error, the next one stops with the same error and changes nothing. -/
theorem scanned_stopped {stopped : Scanner} {e : LexError}
    (h : s.scanned policy = (stopped, .error e)) :
    stopped.scanned policy = (stopped, .error e) := by
  cases hfault : (Pass.ofSegments policy s.place s.unread).fault with
  | none =>
      rw [scanned_of_no_fault hfault] at h
      cases h
  | some e' =>
      rw [scanned_of_fault hfault] at h
      cases h
      have hagain := Pass.ofSegments_unread hfault
      rw [scanned_of_fault (congrArg Pass.fault hagain)]
      simp only [hagain, List.append_nil]

/-! ## Any number of scans -/

theorem scans_completed (policy : UnmatchedPolicy) (n : Nat) (place : Span)
    (tokens : List Token) :
    scans policy n ⟨[], place, tokens⟩ = (List.range n).map fun k =>
      (⟨[], place, tokens ++ List.replicate (k + 1) (Token.eof place)⟩, .ok ()) := by
  induction n generalizing tokens with
  | zero => rfl
  | succ n ih =>
      rw [scans, scanned_completed, ih, List.range_succ_eq_map, List.map_cons, List.map_map]
      congr 1
      refine List.map_congr_left fun k _ => ?_
      simp [List.replicate_succ]

theorem scans_stopped {stopped : Scanner} {e : LexError} (n : Nat)
    (h : stopped.scanned policy = (stopped, .error e)) :
    stopped.scans policy n = List.replicate n (stopped, .error e) := by
  induction n with
  | zero => rfl
  | succ n ih => rw [scans, h, ih, List.replicate_succ]

end Scanner

/-- **Scanning again is stable.**  Where the first scan of a source text succeeds, every further one
succeeds too and adds one end marker, at the place of the first, to tokens that otherwise stay as
they are.  Where the first scan stops at an error, every further one stops with the same error and
leaves the scanner, its place and its tokens, as the first one left it; no end marker is among
those. -/
theorem rescanning_is_stable (settings : Settings) (source : String) (n : Nat) :
    (∀ done, (Scanner.ofSource source).scanned settings.unmatched = (done, .ok ()) →
      ∃ place, done.tokens.getLast? = some (Token.eof place) ∧
        (Scanner.ofSource source).scans settings.unmatched n = (List.range n).map fun k =>
          ({ done with tokens := done.tokens ++ List.replicate k (Token.eof place) }, .ok ())) ∧
    ∀ stopped e, (Scanner.ofSource source).scanned settings.unmatched = (stopped, .error e) →
      (∀ t ∈ stopped.tokens, t.isEof = false) ∧
        (Scanner.ofSource source).scans settings.unmatched n =
          List.replicate n (stopped, .error e) := by
  refine ⟨?_, ?_⟩
  · intro done hdone
    cases hfault : (Pass.ofSegments settings.unmatched (Scanner.ofSource source).place
        (Scanner.ofSource source).unread).fault with
    | some e =>
        rw [Scanner.scanned_of_fault hfault] at hdone
        cases hdone
    | none =>
        have hfirst := Scanner.scanned_of_no_fault hfault
        rw [hdone] at hfirst
        obtain rfl := congrArg Prod.fst hfirst
        refine ⟨_, List.getLast?_concat, ?_⟩
        cases n with
        | zero => rfl
        | succ n =>
            rw [Scanner.scans, hdone, Scanner.scans_completed, List.range_succ_eq_map,
              List.map_cons, List.map_map]
            congr 1
            simp
  · intro stopped e hstopped
    refine ⟨?_, ?_⟩
    · intro t ht
      cases hfault : (Pass.ofSegments settings.unmatched (Scanner.ofSource source).place
          (Scanner.ofSource source).unread).fault with
      | none =>
          rw [Scanner.scanned_of_no_fault hfault] at hstopped
          cases hstopped
      | some e' =>
          rw [Scanner.scanned_of_fault hfault] at hstopped
          cases hstopped
          exact Pass.isEof_of_mem_tokens [] ht
    · cases n with
      | zero => rfl
      | succ n =>
          rw [Scanner.scans, hstopped, List.replicate_succ,
            Scanner.scans_stopped n (Scanner.scanned_stopped hstopped)]

/-- Three scans of a text that ends well, and three of one with a stray character. -/
theorem rescanning_is_stable_three :
    let word : Token := ⟨.identifier, "a", ⟨1, 0⟩⟩
    let done : Scanner := ⟨[], ⟨2, 0⟩, [word, .eof ⟨2, 0⟩]⟩
    let stopped : Scanner :=
      ⟨[⟨.stray, ['$']⟩, ⟨.blank, [' ']⟩, ⟨.word, ['b']⟩], ⟨1, 2⟩, [word]⟩
    let e : LexError := .unexpectedCharacter '$' ⟨1, 2⟩
    (Scanner.ofSource "a\n").scanned .reject = (done, .ok ()) ∧
      ((Scanner.ofSource "a\n").scans .reject 3).map (·.1.tokens) =
        [[word, .eof ⟨2, 0⟩], [word, .eof ⟨2, 0⟩, .eof ⟨2, 0⟩],
          [word, .eof ⟨2, 0⟩, .eof ⟨2, 0⟩, .eof ⟨2, 0⟩]] ∧
      (Scanner.ofSource "a $ b").scanned .reject = (stopped, .error e) ∧
      (Scanner.ofSource "a $ b").scans .reject 3 =
        [(stopped, .error e), (stopped, .error e), (stopped, .error e)] := by
  intro word done stopped e
  have hdone : (Scanner.ofSource "a\n").scanned Settings.default.unmatched = (done, .ok ()) := by
    rw [Scanner.scanned_of_no_fault (by decide +kernel)]
    exact congrArg (·, Except.ok ()) (by decide +kernel)
  have hstopped : (Scanner.ofSource "a $ b").scanned Settings.default.unmatched =
      (stopped, .error e) := by
    rw [Scanner.scanned_of_fault (e := e) (by decide +kernel)]
    exact congrArg (·, Except.error e) (by decide +kernel)
  obtain ⟨place, hlast, hscans⟩ := (rescanning_is_stable .default "a\n" 3).1 done hdone
  obtain ⟨_, hagain⟩ := (rescanning_is_stable .default "a $ b" 3).2 stopped e hstopped
  obtain rfl : ⟨2, 0⟩ = place := congrArg Token.span (Option.some.inj hlast)
  refine ⟨hdone, ?_, hstopped, hagain⟩
  rw [show UnmatchedPolicy.reject = Settings.default.unmatched from rfl, hscans]
  rfl

end ScopeFront
