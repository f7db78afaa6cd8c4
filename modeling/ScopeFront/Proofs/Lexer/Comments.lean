import ScopeFront.Proofs.Lexer.Patterns
import ScopeFront.Scan

/-!
# Places outside comments

A text is clean when, wherever it stands outside comments, some piece starts and no comment without
an end.  This is said character by character, without reference to pieces; it turns out to be what
makes every piece acceptable.

* `Outside` – the places of a text outside its comments;
* `Unclosed`, `Clean` – comments without an end, and texts without fault;
* `clean_comment`, `clean_cons`, `clean_run` – comments, single characters and runs of them;
* `clean_ofChars` – a text is clean when its first piece is accepted and the rest is clean.
-/

set_option autoImplicit false

namespace ScopeFront

open Text

/-! ## Outside comments -/

/-- The text is a comment, with `rest` behind it. -/
def IsComment (text rest : List Char) : Prop :=
  Fits .lineComment text rest ∨ Fits .blockComment text rest

/-- A comment stands at the beginning of the text. -/
def Commented (cs : List Char) : Prop := ∃ text rest, cs = text ++ rest ∧ IsComment text rest

/-- What is left of `source` at a place outside comments: from the start on, a comment is passed as
a whole, and else one character after the other. -/
inductive Outside (source : List Char) : List Char → Prop
  | start : Outside source source
  | behind {text rest : List Char} :
    Outside source (text ++ rest) → IsComment text rest → Outside source rest
  | next {c : Char} {rest : List Char} :
    Outside source (c :: rest) → ¬ Commented (c :: rest) → Outside source rest

/-- A slash and a star, and nowhere behind them a star that a slash follows. -/
def Unclosed (cs : List Char) : Prop :=
  ∃ rest, cs = '/' :: '*' :: rest ∧ ∀ before behind, rest ≠ before ++ '*' :: '/' :: behind

/-- Wherever the text stands outside comments, a piece starts, and no comment without an end. -/
def Clean (cs : List Char) : Prop :=
  ∀ c rest, Outside cs (c :: rest) → Opens (c :: rest) ∧ ¬ Unclosed (c :: rest)

/-! ## Comments end at one place -/

theorem takeWhile_of_ends {p : Char → Bool} {cs rest : List Char} (hcs : ∀ d ∈ cs, p d = true)
    (hrest : Ends p rest) :
    (cs ++ rest).takeWhile p = cs ∧ (cs ++ rest).dropWhile p = rest := by
  have hstop : rest.takeWhile p = [] ∧ rest.dropWhile p = rest := by
    cases rest with
    | nil => simp
    | cons d ds => simp [hrest d rfl]
  constructor
  · rw [List.takeWhile_append_of_pos hcs, hstop.1, List.append_nil]
  · rw [List.dropWhile_append_of_pos hcs, hstop.2]

theorem splitComment_of_first {cs : List Char} (rest : List Char)
    (h : ∀ before behind, cs ++ ['*', '/'] = before ++ '*' :: '/' :: behind → behind = []) :
    splitComment (cs ++ '*' :: '/' :: rest) = some (cs ++ ['*', '/'], rest) := by
  induction cs with
  | nil => simp [splitComment]
  | cons c cs ih =>
      have hlater : splitComment (cs ++ '*' :: '/' :: rest) = some (cs ++ ['*', '/'], rest) := by
        refine ih fun before behind heq => h (c :: before) behind ?_
        rw [List.cons_append, heq, List.cons_append]
      have hnot : ¬ (c = '*' ∧ (cs ++ '*' :: '/' :: rest).head? = some '/') := by
        rintro ⟨rfl, hslash⟩
        cases cs with
        | nil => simp at hslash
        | cons d ds =>
            obtain rfl : d = '/' := by simpa using hslash
            simpa using h [] (ds ++ ['*', '/']) rfl
      rw [List.cons_append, splitComment, if_neg hnot, hlater]
      rfl

/-- A comment is the piece that is found at its place. -/
theorem IsComment.ofSlash {text rest : List Char} (h : IsComment text rest) :
    ∃ cs kind, text ++ rest = '/' :: cs ∧ Segment.ofSlash cs = (⟨kind, text⟩, rest) := by
  rcases h with hline | hblock
  · cases hline with
    | @lineComment cs _ hcs hrest =>
        obtain ⟨htake, hdrop⟩ := takeWhile_of_ends (p := (· != '\n')) hcs hrest
        refine ⟨'/' :: (cs ++ rest), .lineComment, rfl, ?_⟩
        simp [Segment.ofSlash, Segment.run, htake, hdrop]
  · cases hblock with
    | @blockComment cs _ hfirst =>
        refine ⟨'*' :: (cs ++ '*' :: '/' :: rest), .blockComment, by simp, ?_⟩
        simp [Segment.ofSlash, splitComment_of_first rest hfirst]

theorem IsComment.unique {text text' rest rest' : List Char} (h : IsComment text rest)
    (h' : IsComment text' rest') (heq : text ++ rest = text' ++ rest') : rest = rest' := by
  obtain ⟨cs, kind, hcs, hpiece⟩ := h.ofSlash
  obtain ⟨cs', kind', hcs', hpiece'⟩ := h'.ofSlash
  rw [heq, hcs'] at hcs
  obtain ⟨_, rfl⟩ := List.cons.inj hcs
  rw [hpiece'] at hpiece
  exact (Prod.mk.inj hpiece).2.symm

/-! ## The places of a text, piece by piece -/

theorem Outside.of_comment {text rest : List Char} (hcomment : IsComment text rest)
    {left : List Char} (h : Outside (text ++ rest) left) :
    left = text ++ rest ∨ Outside rest left := by
  induction h with
  | start => exact .inl rfl
  | @behind text' rest' _ hcomment' ih =>
      rcases ih with heq | hrest
      · rw [hcomment'.unique hcomment heq]
        exact .inr .start
      · exact .inr (.behind hrest hcomment')
  | @next c rest' _ hnot ih =>
      rcases ih with heq | hrest
      · exact absurd ⟨text, rest, heq, hcomment⟩ hnot
      · exact .inr (.next hrest hnot)

theorem Outside.of_cons {c : Char} {cs : List Char} (hnot : ¬ Commented (c :: cs))
    {left : List Char} (h : Outside (c :: cs) left) : left = c :: cs ∨ Outside cs left := by
  induction h with
  | start => exact .inl rfl
  | @behind text rest _ hcomment ih =>
      rcases ih with heq | hrest
      · exact absurd ⟨text, rest, heq.symm, hcomment⟩ hnot
      · exact .inr (.behind hrest hcomment)
  | @next d rest _ hnot' ih =>
      rcases ih with heq | hrest
      · obtain ⟨_, rfl⟩ := List.cons.inj heq
        exact .inr .start
      · exact .inr (.next hrest hnot')

theorem Outside.trans {source middle left : List Char} (h : Outside source middle)
    (h' : Outside middle left) : Outside source left := by
  induction h' with
  | start => exact h
  | behind _ hcomment ih => exact .behind ih hcomment
  | next _ hnot ih => exact .next ih hnot

theorem Outside.suffix {source left : List Char} (h : Outside source left) : left <:+ source := by
  induction h with
  | start => exact List.suffix_rfl
  | @behind text rest _ _ ih => exact (List.suffix_append text rest).trans ih
  | @next c rest _ _ ih => exact (List.suffix_cons c rest).trans ih

theorem clean_nil : Clean [] := by
  intro c rest h
  have hnil := List.eq_nil_of_suffix_nil h.suffix
  cases hnil

/-- A comment is closed, and it is a piece. -/
theorem IsComment.opens {text rest : List Char} (h : IsComment text rest) :
    Opens (text ++ rest) ∧ ¬ Unclosed (text ++ rest) := by
  rcases h with hline | hblock
  · refine ⟨⟨_, text, rest, rfl, hline⟩, ?_⟩
    cases hline with
    | lineComment _ _ =>
        rintro ⟨left, heq, _⟩
        simp at heq
  · refine ⟨⟨_, text, rest, rfl, hblock⟩, ?_⟩
    cases hblock with
    | @blockComment cs _ _ =>
        rintro ⟨left, heq, hopen⟩
        refine hopen cs rest ?_
        simpa using heq.symm

/-- A comment changes nothing about the places outside comments. -/
theorem clean_comment {text rest : List Char} (h : IsComment text rest) :
    Clean (text ++ rest) ↔ Clean rest := by
  constructor
  · intro hclean c left hleft
    have hrest : Outside (text ++ rest) rest := .behind .start h
    exact hclean c left (hrest.trans hleft)
  · intro hclean c left hleft
    rcases hleft.of_comment h with heq | hrest
    · rw [heq]
      exact h.opens
    · exact hclean c left hrest

/-- Where no comment begins, the next place is outside comments as well. -/
theorem clean_cons {c : Char} {cs : List Char} (h : ¬ Commented (c :: cs)) :
    Clean (c :: cs) ↔ (Opens (c :: cs) ∧ ¬ Unclosed (c :: cs)) ∧ Clean cs := by
  constructor
  · intro hclean
    refine ⟨hclean c cs .start, fun d left hleft => ?_⟩
    have hcs : Outside (c :: cs) cs := .next .start h
    exact hclean d left (hcs.trans hleft)
  · rintro ⟨hhere, hclean⟩ d left hleft
    rcases hleft.of_cons h with heq | hcs
    · rw [heq]
      exact hhere
    · exact hclean d left hcs

theorem not_commented {c : Char} (h : c ≠ '/') (cs : List Char) : ¬ Commented (c :: cs) := by
  have hline : SegmentKind.starts .lineComment c = false := beq_eq_false_iff_ne.2 h
  have hblock : SegmentKind.starts .blockComment c = false := beq_eq_false_iff_ne.2 h
  rintro ⟨text, rest, heq, hfits | hfits⟩
  · exact not_fitsAt hline ⟨text, rest, heq, hfits⟩
  · exact not_fitsAt hblock ⟨text, rest, heq, hfits⟩

theorem not_unclosed {c : Char} (h : c ≠ '/') (cs : List Char) : ¬ Unclosed (c :: cs) := by
  rintro ⟨rest, heq, _⟩
  exact h (List.cons.inj heq).1

/-- Characters that start pieces, but no comments, are passed one after the other. -/
theorem clean_run {text : List Char} (h : ∀ d ∈ text, isStray d = false ∧ d ≠ '/')
    (rest : List Char) : Clean (text ++ rest) ↔ Clean rest := by
  induction text with
  | nil => rfl
  | cons c cs ih =>
      obtain ⟨hstray, hslash⟩ := h c (List.mem_cons_self ..)
      have hhere : Opens (c :: (cs ++ rest)) ∧ ¬ Unclosed (c :: (cs ++ rest)) :=
        ⟨Segment.opens_of_not_stray hstray _, not_unclosed hslash _⟩
      rw [List.cons_append, clean_cons (not_commented hslash _),
        ih fun d hd => h d (List.mem_cons_of_mem _ hd)]
      exact and_iff_right hhere

/-! ## One piece -/

theorem plain_of_startsWord {c : Char} (h : startsWord c = true) :
    isStray c = false ∧ c ≠ '/' := by
  refine ⟨by simp [isStray, h], ?_⟩
  rintro rfl
  exact absurd h (by decide)

theorem plain_of_isDigit {c : Char} (h : c.isDigit = true) : isStray c = false ∧ c ≠ '/' := by
  refine ⟨by simp [isStray, h], ?_⟩
  rintro rfl
  exact absurd h (by decide)

theorem plain_of_isBlank {c : Char} (h : isBlank c = true) : isStray c = false ∧ c ≠ '/' := by
  refine ⟨by simp [isStray, h], ?_⟩
  rintro rfl
  exact absurd h (by decide)

theorem plain_of_continuesWord {c : Char} (h : continuesWord c = true) :
    isStray c = false ∧ c ≠ '/' := by
  simp only [continuesWord, Char.isAlphanum, Bool.or_eq_true] at h
  rcases h with (hletter | hdigit) | hunderscore
  · exact plain_of_startsWord (by simp [startsWord, hletter])
  · exact plain_of_isDigit hdigit
  · exact plain_of_startsWord (by simp [startsWord, hunderscore])

theorem Fits.of_first {kind : SegmentKind} {text rest : List Char} (h : First ⟨kind, text⟩ rest)
    (hkind : kind ≠ .stray) : Fits kind text rest := by
  cases h with
  | fits hfits _ => exact hfits
  | stray _ _ _ => exact absurd rfl hkind

/-- A slash is a symbol, or a comment begins with it. -/
theorem ofSlash_cases (cs : List Char) :
    Segment.ofSlash cs = (⟨.symbol, ['/']⟩, cs) ∨
      ((Segment.ofSlash cs).1.kind = .lineComment ∨ (Segment.ofSlash cs).1.kind = .blockComment) ∧
        IsComment (Segment.ofSlash cs).1.text (Segment.ofSlash cs).2 := by
  have hfirst := Segment.ofSlash_first cs
  cases cs with
  | nil => exact .inl rfl
  | cons d ds =>
      rw [Segment.ofSlash] at hfirst ⊢
      by_cases hd : d = '/'
      · rw [if_pos hd] at hfirst ⊢
        exact .inr ⟨.inl rfl, .inl (Fits.of_first hfirst (by decide))⟩
      · rw [if_neg hd] at hfirst ⊢
        by_cases hstar : d = '*'
        · rw [if_pos hstar] at hfirst ⊢
          cases hs : splitComment ds with
          | none => exact .inl rfl
          | some found =>
              rw [hs] at hfirst
              exact .inr ⟨.inr rfl, .inr (Fits.of_first hfirst (by decide))⟩
        · rw [if_neg hstar]
          exact .inl rfl

/-- A slash that begins no comment begins one without an end exactly where a star follows. -/
theorem clean_slash {cs : List Char} (h : Segment.ofSlash cs = (⟨.symbol, ['/']⟩, cs)) :
    Clean ('/' :: cs) ↔ cs.head? ≠ some '*' ∧ Clean cs := by
  have hnot : ¬ Commented ('/' :: cs) := by
    rintro ⟨text, rest, heq, hcomment⟩
    have hfirst := Segment.ofSlash_first cs
    rw [h] at hfirst
    cases hfirst with
    | fits _ hother =>
        rcases hcomment with hline | hblock
        · exact hother .lineComment (by decide) ⟨text, rest, heq, hline⟩
        · exact hother .blockComment (by decide) ⟨text, rest, heq, hblock⟩
  have hopens : Opens ('/' :: cs) := Segment.opens_of_not_stray (by decide) cs
  have hunclosed : Unclosed ('/' :: cs) ↔ cs.head? = some '*' := by
    constructor
    · rintro ⟨rest, heq, _⟩
      rw [(List.cons.inj heq).2]
      rfl
    · intro hstar
      obtain ⟨rest, rfl⟩ : ∃ rest, cs = '*' :: rest := by
        cases cs with
        | nil => simp at hstar
        | cons d rest => exact ⟨rest, by simpa using hstar⟩
      refine ⟨rest, rfl, fun before behind heq => ?_⟩
      -- a star that a slash follows would have closed the comment
      cases hs : splitComment rest with
      | none =>
          rw [heq] at hs
          exact splitComment_ne_none before behind hs
      | some found => simp [Segment.ofSlash, hs] at h
  rw [clean_cons hnot, hunclosed]
  exact and_congr_left' (and_iff_right hopens)

/-- The piece, with what stands behind it, is not refused. -/
def Segment.Accepted (place : Span) (piece : Segment × List Char) : Prop :=
  ∃ reading, piece.1.read .reject place piece.2.head? = .ok reading

theorem clean_ofSlash (place : Span) (cs : List Char) :
    Clean ('/' :: cs) ↔
      Segment.Accepted place (Segment.ofSlash cs) ∧ Clean (Segment.ofSlash cs).2 := by
  rcases ofSlash_cases cs with hsymbol | ⟨hkind, hcomment⟩
  · rw [clean_slash hsymbol, hsymbol]
    refine and_congr_left' ?_
    unfold Segment.Accepted
    by_cases hstar : cs.head? = some '*' <;> simp [Segment.read, hstar]
  · have haccepted : Segment.Accepted place (Segment.ofSlash cs) := by
      unfold Segment.Accepted Segment.read
      rcases hkind with hkind | hkind <;> simp [hkind]
    have hclean := clean_comment hcomment
    rw [Segment.ofSlash_append] at hclean
    rw [hclean]
    exact (and_iff_right haccepted).symm

/-- A run of plain characters is accepted and changes nothing. -/
theorem clean_of_plain (place : Span) {kind : SegmentKind} {p : Char → Bool} {c : Char}
    (hkind : kind = .word ∨ kind = .number ∨ kind = .blank)
    (hp : ∀ d, p d = true → isStray d = false ∧ d ≠ '/') (hc : isStray c = false ∧ c ≠ '/')
    (cs : List Char) :
    Clean (c :: cs) ↔
      Segment.Accepted place (Segment.run kind p c cs) ∧ Clean (Segment.run kind p c cs).2 := by
  have haccepted : Segment.Accepted place (Segment.run kind p c cs) := by
    unfold Segment.Accepted Segment.read Segment.run
    rcases hkind with rfl | rfl | rfl <;> simp
  have hplain : ∀ d ∈ c :: cs.takeWhile p, isStray d = false ∧ d ≠ '/' :=
    List.forall_mem_cons.2 ⟨hc, fun d hd => hp d (forall_mem_takeWhile p cs d hd)⟩
  have hclean := clean_run hplain (cs.dropWhile p)
  rw [List.cons_append, List.takeWhile_append_dropWhile] at hclean
  rw [hclean]
  exact (and_iff_right haccepted).symm

/-- **A text is clean when its first piece is accepted and the rest is clean.** -/
theorem clean_ofChars (place : Span) (c : Char) (cs : List Char) :
    Clean (c :: cs) ↔
      Segment.Accepted place (Segment.ofChars c cs) ∧ Clean (Segment.ofChars c cs).2 := by
  unfold Segment.ofChars
  by_cases hword : startsWord c = true
  · rw [if_pos hword]
    exact clean_of_plain place (.inl rfl) (fun _ => plain_of_continuesWord)
      (plain_of_startsWord hword) cs
  rw [if_neg hword]
  by_cases hdigit : c.isDigit = true
  · rw [if_pos hdigit]
    exact clean_of_plain place (.inr (.inl rfl)) (fun _ => plain_of_isDigit)
      (plain_of_isDigit hdigit) cs
  rw [if_neg hdigit]
  by_cases hslash : c = '/'
  · rw [if_pos hslash, hslash]
    exact clean_ofSlash place cs
  rw [if_neg hslash]
  by_cases hsymbol : isSymbolChar c = true
  · rw [if_pos hsymbol]
    have hplain : ∀ d ∈ [c], isStray d = false ∧ d ≠ '/' := by
      simp [isStray, hsymbol, hslash]
    have haccepted : Segment.Accepted place (⟨.symbol, [c]⟩, cs) := by
      simp [Segment.Accepted, Segment.read, hslash]
    rw [← List.singleton_append, clean_run hplain cs]
    exact (and_iff_right haccepted).symm
  rw [if_neg hsymbol]
  by_cases hblank : isBlank c = true
  · rw [if_pos hblank]
    exact clean_of_plain place (.inr (.inr rfl)) (fun _ => plain_of_isBlank)
      (plain_of_isBlank hblank) cs
  rw [if_neg hblank]
  -- a stray character is refused, and no piece starts with it
  have hstray : isStray c = true := by simp [isStray, hword, hdigit, hsymbol, hblank]
  constructor
  · intro hclean
    exact absurd (hclean c cs .start).1 (not_opens_of_isStray hstray)
  · rintro ⟨⟨reading, hreading⟩, _⟩
    cases hreading

end ScopeFront
