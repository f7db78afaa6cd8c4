import ScopeFront.Proofs.Lexer.Patterns
import ScopeFront.Scan

/-!
# What tokens are read

A text that can be read falls into pieces, each the first that fits at its place, and its tokens are
the words, numbers and symbols among them, in order, each with its text and the place reached by all
that stands before it.

* `WordKind` – the category of a word;
* `Spelled`, `Emits` – the token of a piece, and the tokens of a sequence of pieces;
* `Segment.read_ok`, `Pass.emits` – one piece, and a pass over pieces;
* `tokenize_segmentation` – whole source texts.
-/

set_option autoImplicit false

namespace ScopeFront

open Text

/-! ## Words -/

/-- The spelling is reserved in the category. -/
def Reserved : TokenKind → String → Prop
  | .scopeKeyword, spelling => ∃ k : ScopeKeyword, k.word = spelling
  | .typeKeyword, spelling => ∃ k : TypeKeyword, k.word = spelling
  | .operatorKeyword, spelling => ∃ k : OperatorKeyword, k.word = spelling
  | _, _ => False

/-- A word ends at the following character, if there is one. -/
def Bounds (next : Option Char) : Prop := ∀ c, next = some c → isWordChar c = false

/-- The category of a word: the one in which it is reserved if it ends at the following character,
else it is an identifier. -/
def WordKind (spelling : String) (next : Option Char) (kind : TokenKind) : Prop :=
  Bounds next ∧ Reserved kind spelling ∨
    kind = .identifier ∧ ¬ (Bounds next ∧ ∃ group, Reserved group spelling)

/-- A spelling is found in a list of all the words of a group when one of them has it. -/
theorem isSome_find?_word {κ : Type} {words : List κ} (hall : ∀ k, k ∈ words)
    (word : κ → String) (spelling : String) :
    (words.find? (word · == spelling)).isSome = true ↔ ∃ k, word k = spelling := by
  simp [List.find?_isSome, hall]

theorem isSome_scopeKeyword (spelling : String) :
    (ScopeKeyword.ofWord? spelling).isSome = true ↔ Reserved .scopeKeyword spelling :=
  isSome_find?_word (fun k => by cases k <;> decide) ScopeKeyword.word spelling

theorem isSome_typeKeyword (spelling : String) :
    (TypeKeyword.ofWord? spelling).isSome = true ↔ Reserved .typeKeyword spelling :=
  isSome_find?_word (fun k => by cases k; decide) TypeKeyword.word spelling

theorem isSome_operatorKeyword (spelling : String) :
    (OperatorKeyword.ofWord? spelling).isSome = true ↔ Reserved .operatorKeyword spelling :=
  isSome_find?_word (fun k => by cases k <;> decide) OperatorKeyword.word spelling

/-- Where a group is given for a spelling, it is reserved there, and where none is, nowhere. -/
theorem reserved?_spec (spelling : String) :
    match TokenKind.reserved? spelling with
    | some kind => Reserved kind spelling
    | none => ∀ kind, ¬ Reserved kind spelling := by
  have hscope := isSome_scopeKeyword spelling
  have htype := isSome_typeKeyword spelling
  have hoperator := isSome_operatorKeyword spelling
  unfold TokenKind.reserved?
  cases hs : (ScopeKeyword.ofWord? spelling).isSome with
  | true => exact hscope.1 hs
  | false =>
      cases ht : (TypeKeyword.ofWord? spelling).isSome with
      | true => exact htype.1 ht
      | false =>
          cases ho : (OperatorKeyword.ofWord? spelling).isSome with
          | true => exact hoperator.1 ho
          | false =>
              intro kind hk
              cases kind with
              | scopeKeyword => simp [hscope.2 hk] at hs
              | typeKeyword => simp [htype.2 hk] at ht
              | operatorKeyword => simp [hoperator.2 hk] at ho
              | _ => exact hk

theorem bounds_iff {next : Option Char} : Bounds next ↔ next.any isWordChar = false := by
  cases next with
  | none => simp [Bounds]
  | some c => simp [Bounds]

theorem wordKind_ofWord (spelling : String) (next : Option Char) :
    WordKind spelling next (.ofWord spelling next) := by
  unfold TokenKind.ofWord WordKind
  rw [bounds_iff]
  split
  · rename_i h
    exact .inr ⟨rfl, fun hbounds => by simp [h] at hbounds⟩
  · rename_i h
    rw [Bool.not_eq_true] at h
    have hreserved := reserved?_spec spelling
    cases hr : TokenKind.reserved? spelling with
    | none =>
        rw [hr] at hreserved
        exact .inr ⟨rfl, fun ⟨_, kind, hk⟩ => hreserved kind hk⟩
    | some kind =>
        rw [hr] at hreserved
        exact .inl ⟨h, hreserved⟩

/-! ## Tokens of pieces -/

/-- The token that a piece stands for, with the text before it and the character behind it. -/
inductive Spelled (before : List Char) (next : Option Char) : Segment → Token → Prop
  | word {text : List Char} {kind : TokenKind} : WordKind (String.ofList text) next kind →
    Spelled before next ⟨.word, text⟩ ⟨kind, String.ofList text, Span.start.after before⟩
  | number {text : List Char} :
    Spelled before next ⟨.number, text⟩ ⟨.literal, String.ofList text, Span.start.after before⟩
  | symbol {text : List Char} :
    Spelled before next ⟨.symbol, text⟩ ⟨.symbol, String.ofList text, Span.start.after before⟩

/-- No piece stands for an end marker. -/
theorem Spelled.isEof {before : List Char} {next : Option Char} {s : Segment} {t : Token}
    (h : Spelled before next s t) : t.isEof = false := by
  cases h with
  | @word text kind hkind =>
      rcases hkind with ⟨_, hreserved⟩ | ⟨rfl, _⟩
      · cases kind with
        | eof => cases hreserved
        | _ => rfl
      · rfl
  | number => rfl
  | symbol => rfl

/-- The classes of pieces that are tokens. -/
def SegmentKind.isToken : SegmentKind → Bool
  | .word | .number | .symbol => true
  | _ => false

/-- The tokens of pieces behind the text `before`, one for each word, number and symbol, and then
the end marker. -/
inductive Emits : List Char → List Segment → List Token → Prop
  | nil {before : List Char} : Emits before [] [Token.eof (Span.start.after before)]
  | token {before : List Char} {s : Segment} {behind : List Segment} {t : Token}
    {ts : List Token} :
    Spelled before (behind.flatMap Segment.text).head? s t →
    Emits (before ++ s.text) behind ts → Emits before (s :: behind) (t :: ts)
  | passed {before : List Char} {s : Segment} {behind : List Segment} {ts : List Token} :
    s.kind.isToken = false → Emits (before ++ s.text) behind ts → Emits before (s :: behind) ts

/-- The end marker comes last, behind all the text, and is the only one. -/
theorem Emits.ends {before : List Char} {pieces : List Segment} {tokens : List Token}
    (h : Emits before pieces tokens) :
    ∃ proper, (∀ t ∈ proper, t.isEof = false) ∧ tokens =
      proper ++ [Token.eof (Span.start.after (before ++ pieces.flatMap Segment.text))] := by
  induction h with
  | nil => exact ⟨[], by simp, by simp⟩
  | @token before s behind t ts hspelled _ ih =>
      obtain ⟨proper, hproper, rfl⟩ := ih
      refine ⟨t :: proper, List.forall_mem_cons.2 ⟨hspelled.isEof, hproper⟩, ?_⟩
      rw [List.flatMap_cons, List.append_assoc]
      rfl
  | @passed before s behind ts _ _ ih =>
      obtain ⟨proper, hproper, rfl⟩ := ih
      refine ⟨proper, hproper, ?_⟩
      rw [List.flatMap_cons, List.append_assoc]

/-- Every token but the end marker is that of a piece. -/
theorem Emits.spelled {before : List Char} {pieces : List Segment} {tokens : List Token}
    (h : Emits before pieces tokens) {t : Token} (ht : t ∈ tokens) (heof : t.isEof = false) :
    ∃ read s behind next, pieces = read ++ s :: behind ∧
      Spelled (before ++ read.flatMap Segment.text) next s t := by
  induction h with
  | nil =>
      obtain rfl := List.mem_singleton.1 ht
      cases heof
  | @token before s behind u ts hspelled _ ih =>
      rcases List.mem_cons.1 ht with rfl | ht
      · rw [← List.append_nil before] at hspelled
        exact ⟨[], s, behind, _, rfl, hspelled⟩
      · obtain ⟨read, s', later, next, rfl, hs'⟩ := ih ht
        refine ⟨s :: read, s', later, next, rfl, ?_⟩
        rw [List.flatMap_cons, ← List.append_assoc]
        exact hs'
  | @passed before s behind ts _ _ ih =>
      obtain ⟨read, s', later, next, rfl, hs'⟩ := ih ht
      refine ⟨s :: read, s', later, next, rfl, ?_⟩
      rw [List.flatMap_cons, ← List.append_assoc]
      exact hs'

/-- A token stands at the place of its piece and has its text. -/
theorem Spelled.eq {before : List Char} {next : Option Char} {s : Segment} {t : Token}
    (h : Spelled before next s t) :
    t.span = Span.start.after before ∧ t.lexeme.toList = s.text ∧ s.kind.isToken = true := by
  cases h <;> exact ⟨rfl, String.toList_ofList, rfl⟩

/-- What a piece that is not refused contributes. -/
theorem Segment.read_ok {policy : UnmatchedPolicy} {before : List Char} {s : Segment}
    {next : Option Char} {reading : Reading}
    (h : s.read policy (Span.start.after before) next = .ok reading) :
    (∃ t, reading.token = some t ∧ Spelled before next s t) ∨
      reading.token = none ∧ s.kind.isToken = false := by
  obtain ⟨kind, text⟩ := s
  cases kind with
  | word =>
      cases h
      exact .inl ⟨_, rfl, .word (wordKind_ofWord _ _)⟩
  | number =>
      cases h
      exact .inl ⟨_, rfl, .number⟩
  | symbol =>
      unfold read at h
      simp only at h
      split at h
      · cases h
      · cases h
        exact .inl ⟨_, rfl, .symbol⟩
  | stray =>
      unfold read at h
      simp only at h
      split at h
      · cases h
      · cases h
        exact .inr ⟨rfl, rfl⟩
  | _ =>
      cases h
      exact .inr ⟨rfl, rfl⟩

/-- Only a policy that skips lets stray characters pass. -/
theorem Segment.skip_of_read_ok {policy : UnmatchedPolicy} {place : Span} {s : Segment}
    {next : Option Char} {reading : Reading} (h : s.read policy place next = .ok reading)
    (hne : s.text ≠ []) (hs : s.kind = .stray) : policy = .skip := by
  obtain ⟨kind, text⟩ := s
  subst hs
  cases policy with
  | skip => rfl
  | reject =>
      cases text with
      | nil => exact absurd rfl hne
      | cons c cs => cases h

namespace Pass

variable {policy : UnmatchedPolicy}

theorem ofSegments_error {place : Span} {s : Segment} {behind : List Segment} {e : LexError}
    (h : s.read policy place (firstChar? behind) = .error e) :
    ofSegments policy place (s :: behind) =
      ⟨[], [.fatal lexerStage e.message], s :: behind, place, some e⟩ := by
  rw [ofSegments, h]

theorem ofSegments_ok {place : Span} {s : Segment} {behind : List Segment} {reading : Reading}
    (h : s.read policy place (firstChar? behind) = .ok reading) :
    ofSegments policy place (s :: behind) =
      { ofSegments policy (place.after s.text) behind with
        tokens := reading.token.toList ++ (ofSegments policy (place.after s.text) behind).tokens
        log := reading.event :: (ofSegments policy (place.after s.text) behind).log } := by
  rw [ofSegments, h]

/-- A pass without a fault has read its first piece, and the others without a fault. -/
theorem of_cons {place : Span} {s : Segment} {behind : List Segment}
    (h : (ofSegments policy place (s :: behind)).fault = none) :
    ∃ reading, s.read policy place (firstChar? behind) = .ok reading ∧
      (ofSegments policy (place.after s.text) behind).fault = none := by
  cases hr : s.read policy place (firstChar? behind) with
  | error e =>
      rw [ofSegments_error hr] at h
      cases h
  | ok reading =>
      rw [ofSegments_ok hr] at h
      exact ⟨reading, rfl, h⟩

/-- A pass without a fault comes to the end of the pieces. -/
theorem place_of_fault {place : Span} {pieces : List Segment}
    (h : (ofSegments policy place pieces).fault = none) :
    (ofSegments policy place pieces).place = place.after (pieces.flatMap Segment.text) := by
  induction pieces generalizing place with
  | nil => rfl
  | cons s behind ih =>
      obtain ⟨reading, hr, hlater⟩ := of_cons h
      rw [ofSegments_ok hr, List.flatMap_cons, Span.after_append]
      exact ih hlater

theorem firstChar?_eq {pieces : List Segment} (hne : ∀ s ∈ pieces, s.text ≠ []) :
    firstChar? pieces = (pieces.flatMap Segment.text).head? := by
  cases pieces with
  | nil => rfl
  | cons s behind =>
      obtain ⟨c, cs, hc⟩ := List.exists_cons_of_ne_nil (hne s (List.mem_cons_self ..))
      simp [firstChar?, hc]

/-- A pass without a fault gives the tokens of its pieces. -/
theorem emits {before : List Char} {pieces : List Segment} (hne : ∀ s ∈ pieces, s.text ≠ [])
    (h : (ofSegments policy (Span.start.after before) pieces).fault = none) :
    Emits before pieces ((ofSegments policy (Span.start.after before) pieces).tokens ++
      [Token.eof (Span.start.after (before ++ pieces.flatMap Segment.text))]) := by
  induction pieces generalizing before with
  | nil =>
      rw [List.flatMap_nil, List.append_nil]
      exact .nil
  | cons s behind ih =>
      obtain ⟨reading, hr, hlater⟩ := of_cons h
      have hne' : ∀ s ∈ behind, s.text ≠ [] := fun s hs => hne s (List.mem_cons_of_mem _ hs)
      rw [← Span.after_append] at hlater
      have hbehind := ih hne' hlater
      rw [ofSegments_ok hr, ← Span.after_append, List.flatMap_cons, ← List.append_assoc]
      rw [firstChar?_eq hne'] at hr
      rcases Segment.read_ok hr with ⟨t, ht, hspelled⟩ | ⟨ht, hkind⟩
      · rw [ht]
        exact .token hspelled hbehind
      · rw [ht]
        exact .passed hkind hbehind

/-- A pass without a fault meets stray characters only where they are skipped. -/
theorem skip_of_stray {place : Span} {pieces : List Segment}
    (h : (ofSegments policy place pieces).fault = none) {s : Segment} (hs : s ∈ pieces)
    (hne : s.text ≠ []) (hstray : s.kind = .stray) : policy = .skip := by
  induction pieces generalizing place with
  | nil => cases hs
  | cons u behind ih =>
      obtain ⟨reading, hr, hlater⟩ := of_cons h
      rcases List.mem_cons.1 hs with rfl | hs
      · exact Segment.skip_of_read_ok hr hne hstray
      · exact ih hlater hs

end Pass

/-! ## Source texts -/

/-- Every piece of a text is the first that fits at its place. -/
theorem segments_first {cs : List Char} {before behind : List Segment} {s : Segment}
    (h : segments cs = before ++ s :: behind) :
    s.text ≠ [] ∧ First s (behind.flatMap Segment.text) := by
  induction before generalizing cs with
  | nil =>
      cases cs with
      | nil => simp [segments] at h
      | cons c cs =>
          rw [segments] at h
          obtain ⟨rfl, rfl⟩ := List.cons.inj h
          refine ⟨Segment.ofChars_text_ne_nil c cs, ?_⟩
          rw [segments_text]
          exact Segment.ofChars_first c cs
  | cons u before ih =>
      cases cs with
      | nil => simp [segments] at h
      | cons c cs =>
          rw [segments] at h
          exact ih (List.cons.inj h).2

/-- A source text was read without a fault, and this is what comes out. -/
theorem tokenize_ok {policy : UnmatchedPolicy} {source : String} {tokens : List Token}
    (h : (tokenize policy source).2 = .ok tokens) :
    (Pass.ofSegments policy .start (segments source.toList)).fault = none ∧
      tokens = (Pass.ofSegments policy .start (segments source.toList)).tokens ++
        [Token.eof (Pass.ofSegments policy .start (segments source.toList)).place] := by
  unfold tokenize Scanner.scan Scanner.ofSource at h
  simp only at h
  cases hf : (Pass.ofSegments policy .start (segments source.toList)).fault with
  | some e =>
      rw [hf] at h
      cases h
  | none =>
      rw [hf] at h
      cases h
      exact ⟨rfl, rfl⟩

theorem segments_text_ne_nil {cs : List Char} {s : Segment} (h : s ∈ segments cs) :
    s.text ≠ [] := by
  obtain ⟨before, behind, heq⟩ := List.append_of_mem h
  exact (segments_first heq).1

/-- The tokens of a source text are those of its pieces. -/
theorem tokenize_emits {policy : UnmatchedPolicy} {source : String} {tokens : List Token}
    (h : (tokenize policy source).2 = .ok tokens) : Emits [] (segments source.toList) tokens := by
  obtain ⟨hfault, rfl⟩ := tokenize_ok h
  rw [Pass.place_of_fault hfault]
  exact Pass.emits (fun s => segments_text_ne_nil) hfault

/-- **The tokens of a source text are its words, numbers and symbols.**  The text falls into pieces
that are not empty, each the first that fits at its place, and stray only where that is let pass;
the tokens are those of the pieces, and one end marker behind all the text. -/
theorem tokenize_segmentation {policy : UnmatchedPolicy} {source : String} {tokens : List Token}
    (h : (tokenize policy source).2 = .ok tokens) :
    ∃ pieces : List Segment, pieces.flatMap Segment.text = source.toList ∧
      (∀ before s behind, pieces = before ++ s :: behind → s.text ≠ [] ∧
        First s (behind.flatMap Segment.text) ∧ (s.kind = .stray → policy = .skip)) ∧
      Emits [] pieces tokens ∧
      ∃ proper, (∀ t ∈ proper, t.isEof = false) ∧
        tokens = proper ++ [Token.eof (Span.start.after source.toList)] := by
  have hemits := tokenize_emits h
  have hends := hemits.ends
  rw [List.nil_append, segments_text] at hends
  refine ⟨segments source.toList, segments_text _, ?_, hemits, hends⟩
  intro before s behind heq
  obtain ⟨hs, hfirst⟩ := segments_first heq
  exact ⟨hs, hfirst, Pass.skip_of_stray (tokenize_ok h).1 (by rw [heq]; simp) hs⟩

theorem eq_ok_of_toOption {ε α : Type} {x : Except ε α} {a : α} (h : x.toOption = some a) :
    x = .ok a := by
  cases x with
  | error e => cases h
  | ok b => rw [Option.some.inj h]

/-- Digits before a reserved word, a comment that a slash does not close at once, and a word before
a letter that only the boundary of a word knows. -/
theorem tokenize_segmentation_mixed :
    let source := "9for/*/ */x //*\r\nforé"
    let tokens : List Token :=
      [⟨.literal, "9", ⟨1, 0⟩⟩, ⟨.scopeKeyword, "for", ⟨1, 1⟩⟩, ⟨.identifier, "x", ⟨1, 10⟩⟩,
        ⟨.identifier, "for", ⟨2, 0⟩⟩, .eof ⟨2, 4⟩]
    (tokenize .skip source).2 = .ok tokens ∧
      ∃ pieces : List Segment, pieces.flatMap Segment.text = source.toList ∧
        Emits [] pieces tokens := by
  intro source tokens
  have h : (tokenize .skip source).2 = .ok tokens := eq_ok_of_toOption (by decide +kernel)
  obtain ⟨pieces, hpieces, _, hemits, _⟩ := tokenize_segmentation h
  exact ⟨h, pieces, hpieces, hemits⟩

end ScopeFront
