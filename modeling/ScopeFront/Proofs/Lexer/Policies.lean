import ScopeFront.Program
import ScopeFront.Proofs.Lexer.Comments
import ScopeFront.Proofs.Lexer.Segmentation

/-!
# The two policies

What no piece fits is refused or skipped.  Skipping always comes to the end.  Refusing does so
exactly on clean texts, and then both read the same.  Where refusing stops, it has read what
skipping reads up to that place.

* `Span.lt_after`, `Span.le_after` – reading leads further on;
* `Segment.read_skip_of_reject` – one piece under both policies;
* `Pass.reject_fault_none_iff`, `Pass.skip_of_reject` – a pass in which nothing is refused;
* `Pass.tokens_of_reject`, `Pass.span_of_mem_tokens` – a pass that stops at an error;
* `policies_agree` – both policies on a source text.
-/

set_option autoImplicit false

namespace ScopeFront

/-! ## The order of places -/

namespace Span

/-- Places are compared by line, then by column. -/
instance : LT Span := ⟨fun s t => s.line < t.line ∨ s.line = t.line ∧ s.column < t.column⟩

instance : LE Span := ⟨fun s t => s.line < t.line ∨ s.line = t.line ∧ s.column ≤ t.column⟩

theorem lt_def {s t : Span} :
    s < t ↔ s.line < t.line ∨ s.line = t.line ∧ s.column < t.column := Iff.rfl

theorem le_def {s t : Span} :
    s ≤ t ↔ s.line < t.line ∨ s.line = t.line ∧ s.column ≤ t.column := Iff.rfl

theorem le_refl (s : Span) : s ≤ s := .inr ⟨rfl, Nat.le_refl _⟩

theorem le_trans {s t u : Span} (h : s ≤ t) (h' : t ≤ u) : s ≤ u := by
  rw [le_def] at *
  omega

theorem lt_of_lt_of_le {s t u : Span} (h : s < t) (h' : t ≤ u) : s < u := by
  rw [lt_def, le_def] at *
  omega

theorem le_of_lt {s t : Span} (h : s < t) : s ≤ t := by
  rw [lt_def] at h
  rw [le_def]
  omega

theorem lt_step (s : Span) (c : Char) : s < s.step c := by
  rw [lt_def]
  unfold step
  split
  · exact .inl (Nat.lt_succ_self _)
  · exact .inr ⟨rfl, Nat.lt_succ_self _⟩

theorem le_after (s : Span) (text : List Char) : s ≤ s.after text := by
  induction text generalizing s with
  | nil => exact le_refl s
  | cons c text ih =>
      rw [after_cons]
      exact le_trans (le_of_lt (s.lt_step c)) (ih _)

theorem lt_after (s : Span) {text : List Char} (h : text ≠ []) : s < s.after text := by
  obtain ⟨c, cs, rfl⟩ := List.exists_cons_of_ne_nil h
  rw [after_cons]
  exact lt_of_lt_of_le (s.lt_step c) (le_after _ cs)

end Span

/-! ## A pass -/

theorem Segment.read_skip (place : Span) (s : Segment) (next : Option Char) :
    ∃ reading, s.read .skip place next = .ok reading := by
  obtain ⟨kind, text⟩ := s
  cases kind <;> simp [Segment.read]

/-- What is accepted is read the same where it would have been skipped. -/
theorem Segment.read_skip_of_reject {place : Span} {s : Segment} {next : Option Char}
    {reading : Reading} (h : s.read .reject place next = .ok reading) :
    s.read .skip place next = .ok reading := by
  obtain ⟨kind, text⟩ := s
  cases kind with
  | symbol =>
      unfold Segment.read at h ⊢
      simp only at h ⊢
      split at h
      · cases h
      · simpa using h
  | stray =>
      cases text with
      | nil => exact h
      | cons c cs => cases h
  | _ => exact h

theorem Segment.span_of_error {policy : UnmatchedPolicy} {place : Span} {s : Segment}
    {next : Option Char} {e : LexError} (h : s.read policy place next = .error e) :
    e.span = place := by
  obtain ⟨kind, text⟩ := s
  cases kind with
  | symbol =>
      unfold Segment.read at h
      simp only at h
      split at h
      · cases h
        rfl
      · cases h
  | stray =>
      cases policy with
      | skip => simp [Segment.read] at h
      | reject =>
          cases text with
          | nil => simp [Segment.read] at h
          | cons c cs =>
              cases h
              rfl
  | _ => cases h

/-- A token stands where its piece does. -/
theorem Segment.span_of_token {policy : UnmatchedPolicy} {place : Span} {s : Segment}
    {next : Option Char} {reading : Reading} {t : Token}
    (h : s.read policy place next = .ok reading) (ht : t ∈ reading.token.toList) :
    t.span = place := by
  have hnone : ∀ level message, t ∉ (Reading.passed level message).token.toList := by
    simp [Reading.passed]
  obtain ⟨kind, text⟩ := s
  cases kind with
  | word | number =>
      cases h
      obtain rfl := List.mem_singleton.1 ht
      rfl
  | symbol =>
      unfold Segment.read at h
      simp only at h
      split at h
      · cases h
      · cases h
        obtain rfl := List.mem_singleton.1 ht
        rfl
  | stray =>
      unfold Segment.read at h
      simp only at h
      split at h
      · cases h
      · cases h
        exact absurd ht (hnone _ _)
  | _ =>
      cases h
      exact absurd ht (hnone _ _)

namespace Pass

theorem skip_fault (place : Span) (pieces : List Segment) :
    (ofSegments .skip place pieces).fault = none := by
  induction pieces generalizing place with
  | nil => rfl
  | cons s behind ih =>
      obtain ⟨reading, hr⟩ := Segment.read_skip place s (firstChar? behind)
      rw [ofSegments_ok hr]
      exact ih _

/-- A pass that refuses nothing is the pass that skips. -/
theorem skip_of_reject {place : Span} {pieces : List Segment}
    (h : (ofSegments .reject place pieces).fault = none) :
    ofSegments .skip place pieces = ofSegments .reject place pieces := by
  induction pieces generalizing place with
  | nil => rfl
  | cons s behind ih =>
      obtain ⟨reading, hr, hlater⟩ := of_cons h
      rw [ofSegments_ok hr, ofSegments_ok (Segment.read_skip_of_reject hr), ih hlater]

/-- A pass over the pieces of a text refuses nothing exactly when the text is clean. -/
theorem reject_fault_none_iff (place : Span) (cs : List Char) :
    (ofSegments .reject place (segments cs)).fault = none ↔ Clean cs := by
  induction hk : cs.length using Nat.strongRecOn generalizing place cs with
  | ind k ih =>
      cases cs with
      | nil =>
          rw [segments]
          exact iff_of_true rfl clean_nil
      | cons c cs =>
          have hlt := Segment.ofChars_rest_length_lt c cs
          have hne : ∀ s ∈ segments (Segment.ofChars c cs).2, s.text ≠ [] :=
            fun s hs => segments_text_ne_nil hs
          have hnext : firstChar? (segments (Segment.ofChars c cs).2) =
              (Segment.ofChars c cs).2.head? := by
            rw [firstChar?_eq hne, segments_text]
          rw [clean_ofChars place, segments]
          cases hr : (Segment.ofChars c cs).1.read .reject place
              (firstChar? (segments (Segment.ofChars c cs).2)) with
          | error e =>
              rw [ofSegments_error hr]
              rw [hnext] at hr
              simp [Segment.Accepted, hr]
          | ok reading =>
              have hlater := ih _ (hk ▸ hlt) (place.after (Segment.ofChars c cs).1.text) _ rfl
              rw [ofSegments_ok hr]
              rw [hnext] at hr
              exact hlater.trans (and_iff_right ⟨reading, hr⟩).symm

section Places

variable {policy : UnmatchedPolicy}

theorem le_place (place : Span) (pieces : List Segment) :
    place ≤ (ofSegments policy place pieces).place := by
  induction pieces generalizing place with
  | nil => exact place.le_refl
  | cons s behind ih =>
      cases hr : s.read policy place (firstChar? behind) with
      | error e =>
          rw [ofSegments_error hr]
          exact place.le_refl
      | ok reading =>
          rw [ofSegments_ok hr]
          exact Span.le_trans (place.le_after s.text) (ih _)

/-- The tokens of a pass stand between the place where it starts and the one where it ends. -/
theorem span_of_mem_tokens {place : Span} {pieces : List Segment}
    (hne : ∀ s ∈ pieces, s.text ≠ []) {t : Token}
    (ht : t ∈ (ofSegments policy place pieces).tokens) :
    place ≤ t.span ∧ t.span < (ofSegments policy place pieces).place := by
  induction pieces generalizing place with
  | nil => cases ht
  | cons s behind ih =>
      obtain ⟨hs, hbehind⟩ := List.forall_mem_cons.1 hne
      cases hr : s.read policy place (firstChar? behind) with
      | error e =>
          rw [ofSegments_error hr] at ht
          cases ht
      | ok reading =>
          rw [ofSegments_ok hr] at ht ⊢
          have hafter := place.lt_after hs
          rcases List.mem_append.1 ht with hhere | hlater
          · rw [Segment.span_of_token hr hhere]
            exact ⟨place.le_refl, Span.lt_of_lt_of_le hafter (le_place _ behind)⟩
          · obtain ⟨hle, hlt⟩ := ih hbehind hlater
            exact ⟨Span.le_trans (Span.le_of_lt hafter) hle, hlt⟩

end Places

/-- Where a pass that refuses stops, the pass that skips has read the same and goes on. -/
theorem tokens_of_reject {place : Span} {pieces : List Segment} {e : LexError}
    (h : (ofSegments .reject place pieces).fault = some e) :
    (ofSegments .reject place pieces).place = e.span ∧
      ∃ unread, (∀ s ∈ unread, s ∈ pieces) ∧
        (ofSegments .skip place pieces).tokens =
          (ofSegments .reject place pieces).tokens ++ (ofSegments .skip e.span unread).tokens ∧
        (ofSegments .skip place pieces).place = (ofSegments .skip e.span unread).place := by
  induction pieces generalizing place with
  | nil => cases h
  | cons s behind ih =>
      cases hr : s.read .reject place (firstChar? behind) with
      | error e' =>
          rw [ofSegments_error hr] at h ⊢
          obtain rfl : e' = e := Option.some.inj h
          have hspan := Segment.span_of_error hr
          rw [hspan]
          exact ⟨rfl, s :: behind, fun _ hs => hs, rfl, rfl⟩
      | ok reading =>
          rw [ofSegments_ok hr] at h
          obtain ⟨hplace, unread, hunread, htokens, hend⟩ := ih h
          rw [ofSegments_ok hr, ofSegments_ok (Segment.read_skip_of_reject hr)]
          refine ⟨hplace, unread, fun u hu => List.mem_cons_of_mem _ (hunread u hu), ?_, hend⟩
          simp only [htokens, List.append_assoc]

end Pass

/-! ## Source texts -/

theorem tokenize_of_fault {policy : UnmatchedPolicy} {source : String} {e : LexError}
    (h : (Pass.ofSegments policy .start (segments source.toList)).fault = some e) :
    (tokenize policy source).2 = .error e ∧
      ((Scanner.ofSource source).scan policy).1.tokens =
        (Pass.ofSegments policy .start (segments source.toList)).tokens := by
  unfold tokenize Scanner.scan Scanner.ofSource
  simp [h]

theorem tokenize_of_no_fault {policy : UnmatchedPolicy} {source : String}
    (h : (Pass.ofSegments policy .start (segments source.toList)).fault = none) :
    (tokenize policy source).2 =
      .ok ((Pass.ofSegments policy .start (segments source.toList)).tokens ++
        [Token.eof (Pass.ofSegments policy .start (segments source.toList)).place]) := by
  unfold tokenize Scanner.scan Scanner.ofSource
  simp [h]

theorem tokenize_skip (source : String) :
    (tokenize .skip source).2 =
      .ok ((Pass.ofSegments .skip .start (segments source.toList)).tokens ++
        [Token.eof (Pass.ofSegments .skip .start (segments source.toList)).place]) :=
  tokenize_of_no_fault (Pass.skip_fault _ _)

theorem fault_of_tokenize_error {policy : UnmatchedPolicy} {source : String} {e : LexError}
    (h : (tokenize policy source).2 = .error e) :
    (Pass.ofSegments policy .start (segments source.toList)).fault = some e := by
  cases hf : (Pass.ofSegments policy .start (segments source.toList)).fault with
  | none =>
      rw [tokenize_of_no_fault hf] at h
      cases h
  | some e' =>
      rw [(tokenize_of_fault hf).1] at h
      cases h
      rfl

/-- Refusing succeeds exactly on clean texts. -/
theorem tokenize_reject_ok_iff (source : String) :
    (∃ tokens, (tokenize .reject source).2 = .ok tokens) ↔ Clean source.toList := by
  rw [← Pass.reject_fault_none_iff .start]
  constructor
  · rintro ⟨tokens, h⟩
    exact (tokenize_ok h).1
  · intro h
    exact ⟨_, tokenize_of_no_fault h⟩

/-- Both policies read a text alike where nothing is refused. -/
theorem tokenize_skip_of_reject {source : String} {tokens : List Token}
    (h : (tokenize .reject source).2 = .ok tokens) :
    tokenize .skip source = tokenize .reject source := by
  have hfault := (tokenize_ok h).1
  unfold tokenize Scanner.scan Scanner.ofSource
  simp only [Pass.skip_of_reject hfault]

/-- Where refusing stops, its tokens stand before that place and are those of skipping, which go on
from there. -/
theorem tokenize_skip_of_error {source : String} {e : LexError}
    (h : (tokenize .reject source).2 = .error e) :
    ∃ later, (tokenize .skip source).2 =
        .ok (((Scanner.ofSource source).scan .reject).1.tokens ++ later) ∧
      (∀ t ∈ ((Scanner.ofSource source).scan .reject).1.tokens, t.span < e.span) ∧
      ∀ t ∈ later, e.span ≤ t.span := by
  have hfault := fault_of_tokenize_error h
  obtain ⟨hplace, unread, hunread, htokens, hend⟩ := Pass.tokens_of_reject hfault
  have hne : ∀ s ∈ segments source.toList, s.text ≠ [] := fun s hs => segments_text_ne_nil hs
  rw [(tokenize_of_fault hfault).2]
  refine ⟨(Pass.ofSegments .skip e.span unread).tokens ++
    [Token.eof (Pass.ofSegments .skip e.span unread).place], ?_, ?_, ?_⟩
  · rw [tokenize_skip, htokens, hend, List.append_assoc]
  · intro t ht
    rw [← hplace]
    exact (Pass.span_of_mem_tokens hne ht).2
  · intro t ht
    rcases List.mem_append.1 ht with hread | heof
    · exact (Pass.span_of_mem_tokens (fun s hs => hne s (hunread s hs)) hread).1
    · obtain rfl := List.mem_singleton.1 heof
      exact Pass.le_place _ unread

/-- **The two policies.**  Skipping always reads a source text.  Refusing reads it exactly when, at
every place outside comments, a piece starts and no comment without an end; then both give the same
tokens and the same program.  Where refusing stops, the tokens read so far are the first ones that
skipping reads: they stand before the place of the error, and the others there or behind it. -/
theorem policies_agree (settings : Settings) (source : String) :
    (∃ tokens, (tokenize .skip source).2 = .ok tokens) ∧
    ((∃ tokens, (tokenize .reject source).2 = .ok tokens) ↔
      ∀ c rest, Outside source.toList (c :: rest) →
        Opens (c :: rest) ∧ ¬ Unclosed (c :: rest)) ∧
    (∀ tokens, (tokenize .reject source).2 = .ok tokens →
      (tokenize .skip source).2 = .ok tokens ∧
        parseSource { settings with unmatched := .skip } source =
          parseSource { settings with unmatched := .reject } source) ∧
    ∀ e, (tokenize .reject source).2 = .error e →
      ∃ later, (tokenize .skip source).2 =
          .ok (((Scanner.ofSource source).scan .reject).1.tokens ++ later) ∧
        (∀ t ∈ ((Scanner.ofSource source).scan .reject).1.tokens, t.span < e.span) ∧
        ∀ t ∈ later, e.span ≤ t.span := by
  refine ⟨⟨_, tokenize_skip source⟩, tokenize_reject_ok_iff source, ?_,
    fun e => tokenize_skip_of_error⟩
  intro tokens h
  have hsame := tokenize_skip_of_reject h
  refine ⟨by rw [hsame, h], ?_⟩
  unfold parseSource
  simp only [hsame]

/-- In `a /*/ b` the comment is never closed: `a` stands before it, and skipping goes on with the
slash. -/
theorem policies_agree_unclosed :
    let source := "a /*/ b"
    let e : LexError := .unterminatedComment ⟨1, 2⟩
    (tokenize .reject source).2 = .error e ∧
      ((Scanner.ofSource source).scan .reject).1.tokens = [⟨.identifier, "a", ⟨1, 0⟩⟩] ∧
      ¬ (∀ c rest, Outside source.toList (c :: rest) →
        Opens (c :: rest) ∧ ¬ Unclosed (c :: rest)) ∧
      ∃ later, (tokenize .skip source).2 = .ok (⟨.identifier, "a", ⟨1, 0⟩⟩ :: later) ∧
        ∀ t ∈ later, e.span ≤ t.span := by
  intro source e
  have herror : (tokenize .reject source).2 = .error e :=
    (tokenize_of_fault (by decide +kernel)).1
  have htokens : ((Scanner.ofSource source).scan .reject).1.tokens =
      [⟨.identifier, "a", ⟨1, 0⟩⟩] := by decide +kernel
  obtain ⟨_, hiff, _, hlater⟩ := policies_agree .default source
  obtain ⟨later, hskip, _, hbehind⟩ := hlater e herror
  rw [htokens] at hskip
  refine ⟨herror, htokens, fun hclean => ?_, later, hskip, hbehind⟩
  obtain ⟨tokens, hok⟩ := hiff.2 hclean
  rw [herror] at hok
  cases hok

end ScopeFront
