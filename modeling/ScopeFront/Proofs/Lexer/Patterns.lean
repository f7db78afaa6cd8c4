import ScopeFront.Segment

/-!
# The pieces of a text, by pattern

What a piece of each class looks like, said without reference to how pieces are found, and which
class is taken where more than one fits: the first in the order in which the classes are listed.

* `Fits` – a piece of a class, with what stands behind it;
* `Opens` – some class fits at the beginning of a text;
* `First` – the first class that fits, or a longest run of places where none does;
* `Segment.ofChars_first` – the pieces that are found are the first to fit.
-/

set_option autoImplicit false

namespace ScopeFront

open Text

/-! ## Patterns -/

/-- A run of characters that satisfy `p` ends before `rest`. -/
def Ends (p : Char → Bool) (rest : List Char) : Prop := ∀ c, rest.head? = some c → p c = false

/-- The text is a piece of the class, with `rest` behind it. -/
inductive Fits : SegmentKind → List Char → List Char → Prop
  /-- A letter or `_`, then letters, digits and `_`, as many as there are. -/
  | word {c : Char} {cs rest : List Char} :
    startsWord c = true → (∀ d ∈ cs, continuesWord d = true) → Ends continuesWord rest →
    Fits .word (c :: cs) rest
  /-- Digits, as many as there are. -/
  | number {c : Char} {cs rest : List Char} :
    (∀ d ∈ c :: cs, d.isDigit = true) → Ends Char.isDigit rest → Fits .number (c :: cs) rest
  /-- Two slashes and all up to the end of the line. -/
  | lineComment {cs rest : List Char} :
    (∀ d ∈ cs, (d != '\n') = true) → Ends (· != '\n') rest →
    Fits .lineComment ('/' :: '/' :: cs) rest
  /-- A slash and a star, and all up to the first star behind them that a slash follows. -/
  | blockComment {cs rest : List Char} :
    (∀ before behind, cs ++ ['*', '/'] = before ++ '*' :: '/' :: behind → behind = []) →
    Fits .blockComment ('/' :: '*' :: (cs ++ ['*', '/'])) rest
  | symbol {c : Char} {rest : List Char} : isSymbolChar c = true → Fits .symbol [c] rest
  /-- White space, as much as there is. -/
  | blank {c : Char} {cs rest : List Char} :
    (∀ d ∈ c :: cs, isBlank d = true) → Ends isBlank rest → Fits .blank (c :: cs) rest

/-- A piece of the class stands at the beginning of the text. -/
def FitsAt (kind : SegmentKind) (cs : List Char) : Prop :=
  ∃ text rest, cs = text ++ rest ∧ Fits kind text rest

/-- A piece of some class stands at the beginning of the text. -/
def Opens (cs : List Char) : Prop := ∃ kind, FitsAt kind cs

/-- The order in which the classes are tried. -/
def SegmentKind.rank : SegmentKind → Nat
  | .word => 0
  | .number => 1
  | .lineComment => 2
  | .blockComment => 3
  | .symbol => 4
  | .blank => 5
  | .stray => 6

/-- The piece is the first that fits before `rest`; where none fits, it goes on as long as none
does. -/
inductive First : Segment → List Char → Prop
  | fits {kind : SegmentKind} {text rest : List Char} :
    Fits kind text rest → (∀ other, other.rank < kind.rank → ¬ FitsAt other (text ++ rest)) →
    First ⟨kind, text⟩ rest
  | stray {text rest : List Char} :
    text ≠ [] → (∀ before c behind, text = before ++ c :: behind → ¬ Opens (c :: behind ++ rest)) →
    (rest ≠ [] → Opens rest) → First ⟨.stray, text⟩ rest

/-! ## Runs -/

theorem Ends.mono {p q : Char → Bool} {rest : List Char} (h : Ends p rest)
    (himp : ∀ c, q c = true → p c = true) : Ends q rest := by
  intro c hc
  rw [← Bool.not_eq_true]
  exact fun hq => Bool.false_ne_true ((h c hc).symm.trans (himp c hq))

theorem ends_dropWhile (p : Char → Bool) (cs : List Char) : Ends p (cs.dropWhile p) := by
  intro c hc
  have h := List.head?_dropWhile_not p cs
  rw [hc] at h
  exact h

theorem forall_mem_takeWhile (p : Char → Bool) (cs : List Char) :
    ∀ d ∈ cs.takeWhile p, p d = true :=
  List.all_eq_true.1 List.all_takeWhile

/-! ## Block comments -/

/-- What is split off ends with the first star that a slash follows. -/
theorem splitComment_first {cs inside rest : List Char}
    (h : splitComment cs = some (inside, rest)) :
    ∃ body, inside = body ++ ['*', '/'] ∧
      ∀ before behind, inside = before ++ '*' :: '/' :: behind → behind = [] := by
  induction cs generalizing inside rest with
  | nil => cases h
  | cons c cs ih =>
      rw [splitComment] at h
      split at h
      · cases h
        refine ⟨[], rfl, fun before behind heq => ?_⟩
        have hlength := congrArg List.length heq
        simp only [List.length_append, List.length_cons, List.length_nil] at hlength
        exact List.eq_nil_of_length_eq_zero (by omega)
      · rename_i hc
        cases hs : splitComment cs with
        | none => simp [hs] at h
        | some found =>
            obtain ⟨inner, rest'⟩ := found
            simp only [hs, Option.some.injEq, Prod.mk.injEq] at h
            obtain ⟨rfl, rfl⟩ := h
            obtain ⟨body, hbody, hfirst⟩ := ih hs
            refine ⟨c :: body, by rw [hbody]; rfl, fun before behind heq => ?_⟩
            cases before with
            | nil =>
                -- the star would stand at the beginning, where it was ruled out
                obtain ⟨rfl, rfl⟩ := List.cons.inj heq
                refine absurd ⟨rfl, ?_⟩ hc
                rw [← splitComment_append hs]
                rfl
            | cons d before => exact hfirst before behind (List.cons.inj heq).2

/-- A text in which a slash follows a star is split. -/
theorem splitComment_ne_none (before behind : List Char) :
    splitComment (before ++ '*' :: '/' :: behind) ≠ none := by
  induction before with
  | nil => simp [splitComment]
  | cons c before ih =>
      rw [List.cons_append, splitComment]
      split
      · simp
      · cases hs : splitComment (before ++ '*' :: '/' :: behind) with
        | none => exact absurd hs ih
        | some found => simp

/-! ## First characters -/

/-- Whether a piece of the class can start with the character. -/
def SegmentKind.starts : SegmentKind → Char → Bool
  | .word, c => startsWord c
  | .number, c => c.isDigit
  | .lineComment, c => c == '/'
  | .blockComment, c => c == '/'
  | .symbol, c => isSymbolChar c
  | .blank, c => isBlank c
  | .stray, _ => false

theorem Fits.starts {kind : SegmentKind} {text rest : List Char} (h : Fits kind text rest) :
    ∃ c cs, text = c :: cs ∧ kind.starts c = true := by
  cases h with
  | word hc _ _ => exact ⟨_, _, rfl, hc⟩
  | number hc _ => exact ⟨_, _, rfl, hc _ (List.mem_cons_self ..)⟩
  | lineComment _ _ => exact ⟨_, _, rfl, rfl⟩
  | blockComment _ => exact ⟨_, _, rfl, rfl⟩
  | symbol hc => exact ⟨_, _, rfl, hc⟩
  | blank hc _ => exact ⟨_, _, rfl, hc _ (List.mem_cons_self ..)⟩

theorem not_fitsAt {kind : SegmentKind} {c : Char} {cs : List Char} (h : kind.starts c = false) :
    ¬ FitsAt kind (c :: cs) := by
  rintro ⟨text, rest, heq, hfits⟩
  obtain ⟨d, ds, rfl, hd⟩ := hfits.starts
  obtain ⟨rfl, _⟩ := List.cons.inj heq
  rw [h] at hd
  cases hd

/-- No piece starts with a stray character. -/
theorem not_opens_of_isStray {c : Char} {cs : List Char} (h : isStray c = true) :
    ¬ Opens (c :: cs) := by
  rintro ⟨kind, hfits⟩
  simp only [isStray, Bool.not_eq_true', Bool.or_eq_false_iff] at h
  obtain ⟨⟨⟨hword, hdigit⟩, hsymbol⟩, hblank⟩ := h
  have hslash : (c == '/') = false := by
    refine beq_eq_false_iff_ne.2 ?_
    rintro rfl
    exact absurd hsymbol (by decide)
  refine not_fitsAt ?_ hfits
  cases kind with
  | word => exact hword
  | number => exact hdigit
  | lineComment => exact hslash
  | blockComment => exact hslash
  | symbol => exact hsymbol
  | blank => exact hblank
  | stray => rfl

/-- A line comment has a second slash. -/
theorem head?_of_fitsAt_lineComment {cs : List Char} (h : FitsAt .lineComment ('/' :: cs)) :
    cs.head? = some '/' := by
  obtain ⟨text, rest, heq, hfits⟩ := h
  cases hfits with
  | lineComment _ _ =>
      obtain ⟨_, rfl⟩ := List.cons.inj heq
      rfl

/-- A block comment has a star behind its slash, and further on a slash behind a star. -/
theorem split_of_fitsAt_blockComment {cs : List Char} (h : FitsAt .blockComment ('/' :: cs)) :
    ∃ before behind, cs = '*' :: (before ++ '*' :: '/' :: behind) := by
  obtain ⟨text, rest, heq, hfits⟩ := h
  cases hfits with
  | @blockComment body _ _ =>
      obtain ⟨_, rfl⟩ := List.cons.inj heq
      exact ⟨body, rest, by simp⟩

/-! ## The pieces that are found -/

namespace Segment

/-- A slash that begins no comment is a symbol. -/
theorem slash_first {cs : List Char} (hline : cs.head? ≠ some '/')
    (hblock : ∀ before behind, cs ≠ '*' :: (before ++ '*' :: '/' :: behind)) :
    First ⟨.symbol, ['/']⟩ cs := by
  refine .fits (.symbol (by decide)) fun other hother hfits => ?_
  cases other with
  | word => exact not_fitsAt (by decide) hfits
  | number => exact not_fitsAt (by decide) hfits
  | lineComment => exact hline (head?_of_fitsAt_lineComment hfits)
  | blockComment =>
      obtain ⟨before, behind, heq⟩ := split_of_fitsAt_blockComment hfits
      exact hblock before behind heq
  | symbol => exact absurd hother (by decide)
  | blank => exact absurd hother (by decide)
  | stray => exact absurd hother (by decide)

theorem ofSlash_first (cs : List Char) : First (ofSlash cs).1 (ofSlash cs).2 := by
  cases cs with
  | nil => exact slash_first (by decide) (fun _ _ heq => by cases heq)
  | cons d ds =>
      rw [ofSlash]
      by_cases hd : d = '/'
      · subst hd
        have hfits : Fits .lineComment ('/' :: '/' :: ds.takeWhile (· != '\n'))
            (ds.dropWhile (· != '\n')) :=
          .lineComment (forall_mem_takeWhile _ ds) (ends_dropWhile _ ds)
        refine .fits hfits fun other hother => not_fitsAt ?_
        cases other <;> first | rfl | exact absurd hother (by decide)
      · rw [if_neg hd]
        by_cases hstar : d = '*'
        · subst hstar
          cases hs : splitComment ds with
          | none =>
              refine slash_first (by simp) fun before behind heq => ?_
              rw [(List.cons.inj heq).2] at hs
              exact splitComment_ne_none before behind hs
          | some found =>
              obtain ⟨inside, rest⟩ := found
              obtain ⟨body, rfl, hfirst⟩ := splitComment_first hs
              refine .fits (.blockComment hfirst) fun other hother hfits => ?_
              cases other with
              | word => exact not_fitsAt (by decide) hfits
              | number => exact not_fitsAt (by decide) hfits
              | lineComment => cases head?_of_fitsAt_lineComment hfits
              | _ => exact absurd hother (by decide)
        · rw [if_neg hstar]
          refine slash_first (by simpa using hd) fun before behind heq => ?_
          exact hstar (List.cons.inj heq).1

/-- A run of characters that satisfy `p`. -/
theorem run_forall_mem {p : Char → Bool} {c : Char} (hc : p c = true) (cs : List Char) :
    ∀ d ∈ c :: cs.takeWhile p, p d = true :=
  List.forall_mem_cons.2 ⟨hc, forall_mem_takeWhile p cs⟩

/-- Where the first character is not stray, the piece found is the first that fits. -/
theorem ofChars_first_of_not_stray {c : Char} (h : isStray c = false) (cs : List Char) :
    First (ofChars c cs).1 (ofChars c cs).2 := by
  unfold ofChars
  by_cases hword : startsWord c = true
  · rw [if_pos hword]
    exact .fits (.word hword (forall_mem_takeWhile _ cs) (ends_dropWhile _ cs))
      fun other hother => absurd hother (Nat.not_lt_zero _)
  rw [if_neg hword]
  rw [Bool.not_eq_true] at hword
  by_cases hdigit : c.isDigit = true
  · rw [if_pos hdigit]
    refine .fits (.number (run_forall_mem hdigit cs) (ends_dropWhile _ cs)) fun other hother => ?_
    cases other with
    | word => exact not_fitsAt hword
    | _ => exact absurd hother (by decide)
  rw [if_neg hdigit]
  rw [Bool.not_eq_true] at hdigit
  by_cases hslash : c = '/'
  · rw [if_pos hslash]
    exact ofSlash_first cs
  rw [if_neg hslash]
  by_cases hsymbol : isSymbolChar c = true
  · rw [if_pos hsymbol]
    refine .fits (.symbol hsymbol) fun other hother => ?_
    cases other with
    | word => exact not_fitsAt hword
    | number => exact not_fitsAt hdigit
    | lineComment => exact not_fitsAt (beq_eq_false_iff_ne.2 hslash)
    | blockComment => exact not_fitsAt (beq_eq_false_iff_ne.2 hslash)
    | _ => exact absurd hother (by decide)
  rw [if_neg hsymbol]
  rw [Bool.not_eq_true] at hsymbol
  have hblank : isBlank c = true := by
    simpa [isStray, hword, hdigit, hsymbol] using h
  rw [if_pos hblank]
  refine .fits (.blank (run_forall_mem hblank cs) (ends_dropWhile _ cs)) fun other hother => ?_
  cases other with
  | word => exact not_fitsAt hword
  | number => exact not_fitsAt hdigit
  | lineComment => exact not_fitsAt (beq_eq_false_iff_ne.2 hslash)
  | blockComment => exact not_fitsAt (beq_eq_false_iff_ne.2 hslash)
  | symbol => exact not_fitsAt hsymbol
  | _ => exact absurd hother (by decide)

/-- Every character that is not stray starts a piece. -/
theorem opens_of_not_stray {c : Char} (h : isStray c = false) (cs : List Char) :
    Opens (c :: cs) := by
  have hrun : ∀ p : Char → Bool, c :: cs = c :: cs.takeWhile p ++ cs.dropWhile p := fun p => by
    rw [List.cons_append, List.takeWhile_append_dropWhile]
  simp only [isStray, Bool.not_eq_false', Bool.or_eq_true] at h
  obtain ((hword | hdigit) | hsymbol) | hblank := h
  · exact ⟨.word, _, _, hrun continuesWord,
      .word hword (forall_mem_takeWhile _ cs) (ends_dropWhile _ cs)⟩
  · exact ⟨.number, _, _, hrun Char.isDigit,
      .number (run_forall_mem hdigit cs) (ends_dropWhile _ cs)⟩
  · exact ⟨.symbol, [c], cs, rfl, .symbol hsymbol⟩
  · exact ⟨.blank, _, _, hrun isBlank, .blank (run_forall_mem hblank cs) (ends_dropWhile _ cs)⟩

theorem ofChars_of_stray {c : Char} (h : isStray c = true) (cs : List Char) :
    ofChars c cs = run .stray isStray c cs := by
  simp only [isStray, Bool.not_eq_true', Bool.or_eq_false_iff] at h
  obtain ⟨⟨⟨hword, hdigit⟩, hsymbol⟩, hblank⟩ := h
  have hslash : c ≠ '/' := by
    rintro rfl
    exact absurd hsymbol (by decide)
  simp [ofChars, hword, hdigit, hslash, hsymbol, hblank]

/-- **The piece found at the beginning of a text is the first that fits.** -/
theorem ofChars_first (c : Char) (cs : List Char) : First (ofChars c cs).1 (ofChars c cs).2 := by
  cases h : isStray c with
  | false => exact ofChars_first_of_not_stray h cs
  | true =>
      rw [ofChars_of_stray h]
      refine .stray (List.cons_ne_nil _ _) ?_ ?_
      · intro before d behind heq
        have hd : isStray d = true := run_forall_mem h cs d (by rw [heq]; simp)
        exact not_opens_of_isStray hd
      · intro hne
        show Opens (cs.dropWhile isStray)
        obtain ⟨d, ds, hds⟩ := List.exists_cons_of_ne_nil hne
        have hend := ends_dropWhile isStray cs
        have hds' : cs.dropWhile isStray = d :: ds := hds
        rw [hds'] at hend ⊢
        exact opens_of_not_stray (hend d rfl) ds

end Segment

end ScopeFront
