import ScopeFront.Proofs.Lexer.Segmentation
import ScopeFront.Proofs.Relocation

/-!
# Reading one text behind another

No piece of a text that can be read reaches over a line feed behind it, except for blanks, and these
leave nothing but the place they lead to.  So a text behind a line feed is read as it is by itself,
only further down.

* `lexFrom` – the tokens of a text that starts at a place;
* `lexFrom_blank` – blanks only move the place;
* `lexFrom_append` – a text behind a line feed;
* `lexFrom_relocate` – a text at another place.
-/

set_option autoImplicit false

namespace ScopeFront

open Text

/-- What a pass comes to: its tokens and the end marker, or the error that ended it. -/
def Pass.result (pass : Pass) : Except LexError (List Token) :=
  match pass.fault with
  | some e => .error e
  | none => .ok (pass.tokens ++ [Token.eof pass.place])

/-- The tokens of a text that starts at `place`. -/
def lexFrom (policy : UnmatchedPolicy) (place : Span) (cs : List Char) :
    Except LexError (List Token) :=
  (Pass.ofSegments policy place (segments cs)).result

theorem tokenize_snd (policy : UnmatchedPolicy) (source : String) :
    (tokenize policy source).2 = lexFrom policy .start source.toList := by
  unfold tokenize Scanner.scan Scanner.ofSource lexFrom Pass.result
  simp only
  cases (Pass.ofSegments policy .start (segments source.toList)).fault <;> rfl

/-! ## One piece -/

theorem firstChar?_segments (cs : List Char) : firstChar? (segments cs) = cs.head? := by
  cases cs with
  | nil => simp [segments, firstChar?]
  | cons c cs =>
      rw [segments]
      have happend := Segment.ofChars_append c cs
      obtain ⟨d, ds, hd⟩ := List.exists_cons_of_ne_nil (Segment.ofChars_text_ne_nil c cs)
      rw [hd] at happend
      simp only [firstChar?, hd]
      rw [(List.cons.inj happend).1]
      rfl

theorem lexFrom_nil (policy : UnmatchedPolicy) (place : Span) :
    lexFrom policy place [] = .ok [Token.eof place] := by
  unfold lexFrom
  rw [segments]
  rfl

section Pieces

variable {policy : UnmatchedPolicy} {place : Span} {c : Char} {cs rest : List Char} {s : Segment}

theorem lexFrom_ok {reading : Reading} (hs : Segment.ofChars c cs = (s, rest))
    (h : s.read policy place rest.head? = .ok reading) :
    lexFrom policy place (c :: cs) =
      (lexFrom policy (place.after s.text) rest).map (reading.token.toList ++ ·) := by
  rw [← firstChar?_segments] at h
  unfold lexFrom
  rw [segments, hs, Pass.ofSegments_ok h]
  unfold Pass.result
  simp only
  cases (Pass.ofSegments policy (place.after s.text) (segments rest)).fault with
  | some e => rfl
  | none =>
      simp only [Except.map, List.append_assoc]

theorem lexFrom_error {e : LexError} (hs : Segment.ofChars c cs = (s, rest))
    (h : s.read policy place rest.head? = .error e) :
    lexFrom policy place (c :: cs) = .error e := by
  rw [← firstChar?_segments] at h
  unfold lexFrom
  rw [segments, hs, Pass.ofSegments_error h]
  rfl

/-- A text that can be read: its first piece can, and so can what stands behind it. -/
theorem lexFrom_cons_eq_ok {tokens : List Token} (hs : Segment.ofChars c cs = (s, rest))
    (h : lexFrom policy place (c :: cs) = .ok tokens) :
    ∃ reading later, s.read policy place rest.head? = .ok reading ∧
      lexFrom policy (place.after s.text) rest = .ok later ∧
      tokens = reading.token.toList ++ later := by
  cases hr : s.read policy place rest.head? with
  | error e =>
      rw [lexFrom_error hs hr] at h
      cases h
  | ok reading =>
      rw [lexFrom_ok hs hr] at h
      cases hx : lexFrom policy (place.after s.text) rest with
      | error e =>
          rw [hx] at h
          cases h
      | ok later =>
          rw [hx] at h
          exact ⟨reading, later, rfl, rfl, (Except.ok.inj h).symm⟩

end Pieces

/-! ## Blanks -/

theorem toNat_of_startsWord {c : Char} (h : startsWord c = true) :
    65 ≤ c.toNat ∧ c.toNat ≤ 122 := by
  rcases Bool.or_eq_true_iff.1 h with hletter | hunderscore
  · rcases Bool.or_eq_true_iff.1 hletter with hupper | hlower
    · have hupper : 65 ≤ c.toNat ∧ c.toNat ≤ 90 := of_decide_eq_true hupper
      omega
    · obtain ⟨hfirst, hlast⟩ := Bool.and_eq_true_iff.1 hlower
      have hfirst : 97 ≤ c.toNat := of_decide_eq_true hfirst
      have hlast : c.toNat ≤ 122 := of_decide_eq_true hlast
      omega
  · rw [beq_iff_eq.1 hunderscore]
    decide

theorem toNat_of_isDigit {c : Char} (h : c.isDigit = true) : 48 ≤ c.toNat ∧ c.toNat ≤ 57 := by
  simp only [Char.isDigit, Bool.and_eq_true, decide_eq_true_eq, ge_iff_le,
    UInt32.le_iff_toNat_le] at h
  exact h

theorem toNat_of_isBlank {c : Char} (h : isBlank c = true) : c.toNat ≤ 32 ∨ 133 ≤ c.toNat := by
  simp only [isBlank, CodeRange.covers, CodeRange.contains, List.any_eq_true, Bool.and_eq_true,
    decide_eq_true_eq] at h
  obtain ⟨r, hr, hfirst, hlast⟩ := h
  have hall : ∀ r ∈ blankTable, r.last ≤ 32 ∨ 133 ≤ r.first := by decide
  rcases hall r hr with hle | hle
  · exact .inl (Nat.le_trans hlast hle)
  · exact .inr (Nat.le_trans hle hfirst)

/-- A blank starts nothing else. -/
theorem not_starts_of_isBlank {c : Char} (h : isBlank c = true) :
    startsWord c = false ∧ c.isDigit = false ∧ isSymbolChar c = false := by
  have hblank := toNat_of_isBlank h
  refine ⟨?_, ?_, ?_⟩
  · refine Bool.eq_false_iff.2 fun hword => ?_
    have := toNat_of_startsWord hword
    omega
  · refine Bool.eq_false_iff.2 fun hdigit => ?_
    have := toNat_of_isDigit hdigit
    omega
  · refine Bool.eq_false_iff.2 fun hsymbol => ?_
    have hall : symbolChars.all (fun d => !isBlank d) = true := by decide
    have hc := List.all_eq_true.1 hall c (List.contains_iff_mem.1 hsymbol)
    rw [h] at hc
    cases hc

theorem ofChars_blank {c : Char} (h : isBlank c = true) (cs : List Char) :
    Segment.ofChars c cs = (⟨.blank, c :: cs.takeWhile isBlank⟩, cs.dropWhile isBlank) := by
  obtain ⟨hword, hdigit, hsymbol⟩ := not_starts_of_isBlank h
  have hslash : c ≠ '/' := by
    rintro rfl
    exact absurd hsymbol (by decide)
  simp [Segment.ofChars, Segment.run, hword, hdigit, hslash, hsymbol, h]

theorem map_nil_append (x : Except LexError (List Token)) : x.map ([] ++ ·) = x := by
  cases x <;> rfl

/-- A blank only moves the place, whatever piece it is part of. -/
theorem lexFrom_blank {c : Char} (h : isBlank c = true) (policy : UnmatchedPolicy) (place : Span)
    (cs : List Char) : lexFrom policy place (c :: cs) = lexFrom policy (place.step c) cs := by
  have hrun : ∀ {c : Char}, isBlank c = true → ∀ place cs, lexFrom policy place (c :: cs) =
      lexFrom policy (place.after (c :: cs.takeWhile isBlank)) (cs.dropWhile isBlank) := by
    intro c h place cs
    rw [lexFrom_ok (ofChars_blank h cs) rfl]
    exact map_nil_append _
  rw [hrun h]
  cases cs with
  | nil => rfl
  | cons d ds =>
      by_cases hd : isBlank d = true
      · rw [hrun hd, List.takeWhile_cons_of_pos hd, List.dropWhile_cons_of_pos hd]
        rfl
      · rw [List.takeWhile_cons_of_neg hd, List.dropWhile_cons_of_neg hd]
        rfl

/-! ## Behind a line feed -/

section LineFeed

variable {cs rest b : List Char}

theorem takeWhile_append_stop {p : Char → Bool} {d : Char} (hd : p d = false) (cs b : List Char) :
    (cs ++ d :: b).takeWhile p = cs.takeWhile p ∧
      (cs ++ d :: b).dropWhile p = cs.dropWhile p ++ d :: b := by
  induction cs with
  | nil => simp [hd]
  | cons c cs ih =>
      by_cases hc : p c = true
      · simp [hc, ih]
      · simp [hc]

theorem run_append_stop {p : Char → Bool} {d : Char} (hd : p d = false) (kind : SegmentKind)
    (c : Char) (cs b : List Char) : Segment.run kind p c (cs ++ d :: b) =
      ((Segment.run kind p c cs).1, (Segment.run kind p c cs).2 ++ d :: b) := by
  obtain ⟨htake, hdrop⟩ := takeWhile_append_stop hd cs b
  simp [Segment.run, htake, hdrop]

theorem splitComment_append_right {inside : List Char}
    (h : splitComment cs = some (inside, rest)) (b : List Char) :
    splitComment (cs ++ b) = some (inside, rest ++ b) := by
  induction cs generalizing inside rest with
  | nil => cases h
  | cons c cs ih =>
      rw [splitComment] at h
      rw [List.cons_append, splitComment]
      cases cs with
      | nil => simp [splitComment] at h
      | cons d ds =>
          by_cases hc : c = '*' ∧ (d :: ds).head? = some '/'
          · rw [if_pos hc] at h
            obtain ⟨rfl, rfl⟩ := Prod.mk.inj (Option.some.inj h)
            exact if_pos hc
          · rw [if_neg hc] at h
            rw [if_neg (by exact hc)]
            cases hs : splitComment (d :: ds) with
            | none => simp [hs] at h
            | some found =>
                simp only [hs, Option.some.injEq, Prod.mk.injEq] at h
                obtain ⟨rfl, rfl⟩ := h
                rw [ih hs]

/-- A slash that does not begin a comment without an end. -/
theorem ofSlash_append_lineFeed {place : Span} {reading : Reading}
    (h : (Segment.ofSlash cs).1.read .reject place (Segment.ofSlash cs).2.head? = .ok reading)
    (b : List Char) : Segment.ofSlash (cs ++ '\n' :: b) =
      ((Segment.ofSlash cs).1, (Segment.ofSlash cs).2 ++ '\n' :: b) := by
  cases cs with
  | nil => rfl
  | cons d ds =>
      rw [List.cons_append]
      unfold Segment.ofSlash at h ⊢
      by_cases hd : d = '/'
      · simp only [hd, if_true]
        exact run_append_stop (by decide) _ _ ('/' :: ds) b
      · by_cases hstar : d = '*'
        · subst hstar
          cases hs : splitComment ds with
          | none => simp [hs, Segment.read] at h
          | some found => simp [hs, splitComment_append_right hs]
        · simp [hd, hstar]

/-- A piece that is neither blank nor refused ends before the line feed. -/
theorem ofChars_append_lineFeed {c : Char} {place : Span} {reading : Reading}
    (hblank : isBlank c = false)
    (h : (Segment.ofChars c cs).1.read .reject place (Segment.ofChars c cs).2.head? = .ok reading)
    (b : List Char) : Segment.ofChars c (cs ++ '\n' :: b) =
      ((Segment.ofChars c cs).1, (Segment.ofChars c cs).2 ++ '\n' :: b) := by
  unfold Segment.ofChars at h ⊢
  by_cases hword : startsWord c = true
  · rw [if_pos hword, if_pos hword]
    exact run_append_stop (by decide) _ _ cs b
  rw [if_neg hword] at h
  rw [if_neg hword, if_neg hword]
  by_cases hdigit : c.isDigit = true
  · rw [if_pos hdigit, if_pos hdigit]
    exact run_append_stop (by decide) _ _ cs b
  rw [if_neg hdigit] at h
  rw [if_neg hdigit, if_neg hdigit]
  by_cases hslash : c = '/'
  · rw [if_pos hslash] at h
    rw [if_pos hslash, if_pos hslash]
    exact ofSlash_append_lineFeed h b
  rw [if_neg hslash] at h
  rw [if_neg hslash, if_neg hslash]
  by_cases hsymbol : isSymbolChar c = true
  · rw [if_pos hsymbol, if_pos hsymbol]
  -- what is left are stray characters, which are refused
  rw [if_neg hsymbol, hblank] at h
  cases h

/-- A line feed behind a piece, where the text ended before, changes nothing about the piece. -/
theorem read_lineFeed (policy : UnmatchedPolicy) (place : Span) (s : Segment)
    (rest b : List Char) :
    s.read policy place (rest ++ '\n' :: b).head? = s.read policy place rest.head? := by
  cases rest with
  | cons d ds => rfl
  | nil =>
      obtain ⟨kind, text⟩ := s
      cases kind with
      | word =>
          have hfeed : isWordChar '\n' = false := by decide
          simp [Segment.read, TokenKind.ofWord, hfeed]
      | symbol => simp [Segment.read]
      | _ => rfl

/-- A text behind a line feed is read where the text before the line feed ends. -/
theorem lexFrom_append {place : Span} {a : List Char} {tokens : List Token}
    (h : lexFrom .reject place a = .ok tokens) (b : List Char) :
    ∃ proper, tokens = proper ++ [Token.eof (place.after a)] ∧
      lexFrom .reject place (a ++ '\n' :: b) =
        (lexFrom .reject ((place.after a).step '\n') b).map (proper ++ ·) := by
  induction hk : a.length using Nat.strongRecOn generalizing a place tokens with
  | ind k ih =>
      cases a with
      | nil =>
          rw [lexFrom_nil] at h
          refine ⟨[], (Except.ok.inj h).symm, ?_⟩
          rw [map_nil_append]
          exact lexFrom_blank (by decide) _ _ b
      | cons c cs =>
          rw [List.length_cons] at hk
          cases hblank : isBlank c with
          | true =>
              rw [lexFrom_blank hblank] at h
              obtain ⟨proper, htokens, happend⟩ := ih cs.length (by omega) h rfl
              refine ⟨proper, htokens, ?_⟩
              rw [List.cons_append, lexFrom_blank hblank]
              exact happend
          | false =>
              obtain ⟨reading, later, hr, hx, rfl⟩ := lexFrom_cons_eq_ok (Prod.eta _).symm h
              have hlt := Segment.ofChars_rest_length_lt c cs
              rw [List.length_cons] at hlt
              obtain ⟨proper, rfl, happend⟩ := ih _ (by omega) hx rfl
              rw [← Span.after_append, Segment.ofChars_append] at happend ⊢
              refine ⟨reading.token.toList ++ proper, by rw [List.append_assoc], ?_⟩
              rw [List.cons_append, lexFrom_ok (ofChars_append_lineFeed hblank hr b)
                ((read_lineFeed _ _ _ _ b).trans hr), happend]
              cases lexFrom .reject ((place.after (c :: cs)).step '\n') b with
              | error e => rfl
              | ok tokens => simp [Except.map]

end LineFeed

/-! ## At another place -/

section Relocation

variable {g : Span → Span} (hg : ∀ s c, g (Span.step s c) = (g s).step c)

include hg

theorem after_relocate (place : Span) (text : List Char) :
    (g place).after text = g (place.after text) := by
  induction text generalizing place with
  | nil => rfl
  | cons c text ih => rw [Span.after_cons, Span.after_cons, ← hg, ih]

omit hg in
/-- What one piece contributes does not depend on its place, but for the place of its token. -/
theorem read_relocate (policy : UnmatchedPolicy) (place : Span) (s : Segment)
    (next : Option Char) :
    match s.read policy place next with
    | .error e => s.read policy (g place) next = .error (e.relocate g)
    | .ok reading => ∃ moved, s.read policy (g place) next = .ok moved ∧
        moved.token = reading.token.map (·.relocate g) := by
  obtain ⟨kind, text⟩ := s
  cases kind with
  | symbol =>
      unfold Segment.read
      simp only
      by_cases h : policy = .reject ∧ text = ['/'] ∧ next = some '*'
      · rw [if_pos h, if_pos h]
        rfl
      · rw [if_neg h, if_neg h]
        exact ⟨_, rfl, rfl⟩
  | stray =>
      cases policy with
      | skip => exact ⟨_, rfl, rfl⟩
      | reject =>
          cases text with
          | nil => exact ⟨_, rfl, rfl⟩
          | cons c cs => rfl
  | _ => exact ⟨_, rfl, rfl⟩

/-- What is read does not depend on the place, but for the place itself. -/
theorem lexFrom_relocate (policy : UnmatchedPolicy) (place : Span) (cs : List Char) :
    lexFrom policy (g place) cs =
      match lexFrom policy place cs with
      | .error e => .error (e.relocate g)
      | .ok tokens => .ok (tokens.map (·.relocate g)) := by
  induction hk : cs.length using Nat.strongRecOn generalizing cs place with
  | ind k ih =>
      cases cs with
      | nil => rw [lexFrom_nil, lexFrom_nil]; rfl
      | cons c cs =>
          have hmoved := read_relocate (g := g) policy place (Segment.ofChars c cs).1
            (Segment.ofChars c cs).2.head?
          cases hr : (Segment.ofChars c cs).1.read policy place (Segment.ofChars c cs).2.head? with
          | error e =>
              rw [hr] at hmoved
              rw [lexFrom_error (Prod.eta _).symm hr, lexFrom_error (Prod.eta _).symm hmoved]
          | ok reading =>
              rw [hr] at hmoved
              obtain ⟨moved, hm, htoken⟩ := hmoved
              have hlt := Segment.ofChars_rest_length_lt c cs
              rw [lexFrom_ok (Prod.eta _).symm hr, lexFrom_ok (Prod.eta _).symm hm,
                after_relocate hg, ih _ (hk ▸ hlt) _ _ rfl, htoken]
              cases lexFrom policy (place.after (Segment.ofChars c cs).1.text)
                (Segment.ofChars c cs).2 with
              | error e => rfl
              | ok tokens => cases reading.token <;> rfl

end Relocation

/-! ## Source texts -/

theorem step_down (n : Nat) (s : Span) (c : Char) : Span.down n (s.step c) = (s.down n).step c := by
  unfold Span.step
  split
  · simp only [Span.down, Nat.add_right_comm]
  · rfl

theorem line_after (s : Span) (text : List Char) :
    (s.after text).line = s.line + text.count '\n' := by
  induction text generalizing s with
  | nil => rfl
  | cons c text ih =>
      rw [Span.after_cons, ih, List.count_cons]
      unfold Span.step
      by_cases hc : c = '\n'
      · simp only [hc, if_true, beq_self_eq_true]
        omega
      · simp [hc]

/-- A text behind a line feed starts in the first column of the line below. -/
theorem after_lineFeed (text : List Char) :
    (Span.start.after text).step '\n' = Span.start.down (1 + text.count '\n') := by
  have hline : (Span.start.after text).line + 1 = 1 + (1 + text.count '\n') := by
    rw [line_after]
    show 1 + text.count '\n' + 1 = 1 + (1 + text.count '\n')
    omega
  show (⟨(Span.start.after text).line + 1, 0⟩ : Span) = ⟨1 + (1 + text.count '\n'), 0⟩
  rw [hline]

/-- The tokens of a text behind a line feed are those it has by itself, further down. -/
theorem tokenize_append {a : String} {tokens : List Token}
    (h : (tokenize .reject a).2 = .ok tokens) (b : String) :
    ∃ proper, tokens = proper ++ [Token.eof (Span.start.after a.toList)] ∧
      (tokenize .reject (a ++ "\n" ++ b)).2 =
        match (tokenize .reject b).2 with
        | .error e => .error (e.relocate (Span.down (1 + a.toList.count '\n')))
        | .ok later => .ok (proper ++ later.map
            (·.relocate (Span.down (1 + a.toList.count '\n')))) := by
  rw [tokenize_snd] at h
  obtain ⟨proper, htokens, happend⟩ := lexFrom_append h b.toList
  refine ⟨proper, htokens, ?_⟩
  have hsource : (a ++ "\n" ++ b).toList = a.toList ++ '\n' :: b.toList := by simp
  rw [tokenize_snd, hsource, happend, after_lineFeed, tokenize_snd,
    lexFrom_relocate (step_down _)]
  cases lexFrom .reject .start b.toList <;> rfl

end ScopeFront
