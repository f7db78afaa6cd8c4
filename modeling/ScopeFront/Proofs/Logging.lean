import ScopeFront.Proofs.Concatenation
import ScopeFront.Proofs.Parser.Acts

/-!
# What is logged

Both stages log what they do, and how much of it is emitted is for the verbosity to say.  It has no
say in the outcome.  An error is logged where it is found and nothing behind it, so that every log
holds one error entry, at its end, or none.

* `Plain`, `Tells` – a log without errors, and a log that tells of an outcome;
* `Pass.ofSegments_tells`, `tokenize_tells` – the log of the scanner;
* `Rule.Traces.tells`, `parseTokens_tells` – the log of the parser;
* `emittedEvents` – what is emitted under some settings;
* `verbosity_only_filters` – the outcome and what is emitted, at all verbosities.
-/

set_option autoImplicit false

namespace ScopeFront

/-! ## Logs that tell of an outcome -/

/-- No entry of the log is an error. -/
def Plain (log : List Event) : Prop := ∀ e ∈ log, e.level ≠ none

/-- The log tells of the outcome: there is no error entry where it is a result, and where it is an
error there is one entry for it, at the end. -/
def Tells {ε α : Type} (entry : ε → Event) (log : List Event) : Except ε α → Prop
  | .ok _ => Plain log
  | .error e => ∃ before, Plain before ∧ log = before ++ [entry e]

theorem Plain.append {log log' : List Event} (h : Plain log) (h' : Plain log') :
    Plain (log ++ log') :=
  List.forall_mem_append.2 ⟨h, h'⟩

theorem Plain.singleton (stage : String) (level : Level) (message : String) :
    Plain [.debug stage level message] := by
  intro e he
  rw [List.mem_singleton.1 he]
  simp [Event.debug]

/-- Hiding some entries brings no error in. -/
theorem Plain.shown {log : List Event} (h : Plain log) (verbosity : Nat) :
    Plain (shownEvents verbosity log) :=
  fun e he => h e (List.mem_filter.1 he).1

namespace Tells

variable {ε α : Type} {entry : ε → Event} {log : List Event} {outcome : Except ε α}

/-- Entries before the log tell of no error. -/
theorem behind {earlier : List Event} (hearlier : Plain earlier)
    (h : Tells entry log outcome) : Tells entry (earlier ++ log) outcome := by
  cases outcome with
  | ok a => exact hearlier.append h
  | error e =>
      obtain ⟨before, hbefore, rfl⟩ := h
      exact ⟨earlier ++ before, hearlier.append hbefore, (List.append_assoc ..).symm⟩

/-- An error is told at every verbosity. -/
theorem shown (h : Tells entry log outcome) (hentry : ∀ e, (entry e).level = none)
    (verbosity : Nat) : Tells entry (shownEvents verbosity log) outcome := by
  cases outcome with
  | ok a => exact Plain.shown h verbosity
  | error e =>
      obtain ⟨before, hbefore, rfl⟩ := h
      refine ⟨shownEvents verbosity before, hbefore.shown verbosity, ?_⟩
      have hshown : (entry e).shown verbosity = true := by
        rw [Event.shown, hentry]
        rfl
      rw [shownEvents, List.filter_append, List.filter_cons_of_pos hshown]
      rfl

end Tells

/-! ## The scanner -/

/-- The entry for an error of the scanner. -/
def LexError.entry (e : LexError) : Event := .fatal lexerStage e.message

/-- How a pass ends. -/
def Pass.outcome (pass : Pass) : Except LexError Unit :=
  match pass.fault with
  | some e => .error e
  | none => .ok ()

/-- A piece that is read is logged with a level. -/
theorem Segment.level_of_read {policy : UnmatchedPolicy} {place : Span} {s : Segment}
    {next : Option Char} {reading : Reading} (h : s.read policy place next = .ok reading) :
    reading.event.level ≠ none := by
  have hread : (∃ t, reading = .ofToken t) ∨ ∃ level message, reading = .passed level message := by
    obtain ⟨kind, text⟩ := s
    cases kind with
    | word => exact .inl ⟨_, (Except.ok.inj h).symm⟩
    | number => exact .inl ⟨_, (Except.ok.inj h).symm⟩
    | symbol =>
        unfold Segment.read at h
        simp only at h
        split at h
        · cases h
        · exact .inl ⟨_, (Except.ok.inj h).symm⟩
    | stray =>
        cases policy with
        | skip => exact .inr ⟨_, _, (Except.ok.inj h).symm⟩
        | reject =>
            cases text with
            | nil => exact .inr ⟨_, _, (Except.ok.inj h).symm⟩
            | cons c cs => cases h
    | _ => exact .inr ⟨_, _, (Except.ok.inj h).symm⟩
  rcases hread with ⟨t, rfl⟩ | ⟨level, message, rfl⟩
  · simp [Reading.ofToken, Event.debug]
  · simp [Reading.passed, Event.debug]

/-- A pass logs every piece it reads, and the error that ends it. -/
theorem Pass.ofSegments_tells (policy : UnmatchedPolicy) (place : Span)
    (pieces : List Segment) :
    Tells LexError.entry (ofSegments policy place pieces).log
      (ofSegments policy place pieces).outcome := by
  induction pieces generalizing place with
  | nil =>
      intro e he
      cases he
  | cons s rest ih =>
      cases hread : s.read policy place (firstChar? rest) with
      | error e =>
          rw [ofSegments_error hread]
          refine ⟨[], ?_, rfl⟩
          intro e he
          cases he
      | ok reading =>
          have hplain : Plain [reading.event] := by
            intro e he
            rw [List.mem_singleton.1 he]
            exact Segment.level_of_read hread
          rw [ofSegments_ok hread]
          exact (ih _).behind hplain

theorem tokenize_tells (policy : UnmatchedPolicy) (source : String) :
    Tells LexError.entry (tokenize policy source).1 (tokenize policy source).2 := by
  have hpass := Pass.ofSegments_tells policy .start (segments source.toList)
  have hstart := hpass.behind (Plain.singleton lexerStage .phase "starting tokenization")
  unfold tokenize Scanner.scan Scanner.ofSource
  unfold Pass.outcome at hstart
  cases hfault : (Pass.ofSegments policy .start (segments source.toList)).fault with
  | some e =>
      simp only [hfault] at hstart ⊢
      exact hstart
  | none =>
      simp only [hfault] at hstart ⊢
      exact Plain.append hstart (Plain.singleton lexerStage .phase _)

/-! ## The parser -/

/-- The entry for an error of the parser. -/
def ParseError.entry (e : ParseError) : Event := .fatal parserStage e.message

/-- A run that is made up of moves logs the error that ends it, and nothing behind it. -/
theorem Rule.Traces.tells {α : Type} {r : Rule α} (h : r.Traces) {p : Parser}
    (hlog : p.log = []) : Tells ParseError.entry (r p).1.events (r p).2 := by
  have htraced := h p
  generalize r p = x at htraced
  have hplain : ∀ {q : Parser}, p.Moves p.depth q → Plain q.events := by
    intro q hmoves
    obtain ⟨events, hevents, hlevel⟩ := hmoves.log
    rw [hlog, List.append_nil] at hevents
    intro e he
    rw [Parser.events, hevents] at he
    exact hlevel e (List.mem_reverse.1 he)
  cases htraced with
  | ok hmoves _ => exact hplain hmoves
  | failed hmoves => exact ⟨_, hplain hmoves, List.reverse_cons⟩

theorem parseTokens_tells (limit : Nat) (tokens : List Token) :
    Tells ParseError.entry (parseTokens limit tokens).1 (parseTokens limit tokens).2 :=
  (Rule.Traces.of_acts fun _ => Rule.forest_acts).tells rfl

/-! ## Both stages -/

/-- The stage that finds the error. -/
def FrontError.stage : FrontError → String
  | .lex _ => lexerStage
  | .parse _ => parserStage

/-- The entry for an error of either stage. -/
def FrontError.entry (e : FrontError) : Event := .fatal e.stage e.message

theorem parseSource_tells (settings : Settings) (source : String) :
    Tells FrontError.entry (parseSource settings source).1 (parseSource settings source).2 := by
  have hlex := tokenize_tells settings.unmatched source
  unfold parseSource
  split
  · next log e htokens =>
      rw [htokens] at hlex
      exact hlex
  · next log tokens htokens =>
      rw [htokens] at hlex
      have hparse := (parseTokens_tells settings.maxDepth tokens).behind hlex
      split
      · next log' e hforest =>
          rw [hforest] at hparse
          exact hparse
      · next log' forest hforest =>
          rw [hforest] at hparse
          exact hparse

/-- What is emitted under the settings. -/
def emittedEvents (settings : Settings) (source : String) : List Event :=
  shownEvents settings.verbosity (parseSource settings source).1

/-- Of what a verbosity shows, a lower one shows what it would have shown of the whole log. -/
theorem shownEvents_of_le {v w : Nat} (hle : v ≤ w) (log : List Event) :
    shownEvents v log = shownEvents v (shownEvents w log) := by
  rw [shownEvents, shownEvents, shownEvents, List.filter_filter]
  apply List.filter_congr
  intro e _
  cases hlevel : e.level with
  | none => simp [Event.shown, hlevel]
  | some level =>
      simp only [Event.shown, hlevel, Option.all_some, ← Bool.decide_and]
      apply decide_eq_decide.2
      omega

/-- **Verbosity only filters.**  At two verbosities the outcome is the same, and the lower one emits
what the higher one emits, less the entries of a level above it.  At every verbosity, where the
source text is a program, no error is emitted; where it is none, one is, at last, for the stage that
found it and with its message. -/
theorem verbosity_only_filters (settings : Settings) (source : String) {v w : Nat} (hle : v ≤ w) :
    (parseSource { settings with verbosity := v } source).2 =
        (parseSource { settings with verbosity := w } source).2 ∧
      emittedEvents { settings with verbosity := v } source =
        (emittedEvents { settings with verbosity := w } source).filter
          (fun e => e.level.all (·.rank ≤ v)) ∧
      (∀ forest, (parseSource settings source).2 = .ok forest →
        ∀ e ∈ emittedEvents settings source, e.level ≠ none) ∧
      ∀ e, (parseSource settings source).2 = .error e →
        ∃ before, (∀ b ∈ before, b.level ≠ none) ∧
          emittedEvents settings source =
            before ++ [⟨e.stage, none, "fatal: " ++ e.message⟩] := by
  have htells : Tells FrontError.entry (emittedEvents settings source)
      (parseSource settings source).2 :=
    (parseSource_tells settings source).shown (fun _ => rfl) settings.verbosity
  refine ⟨rfl, shownEvents_of_le hle _, ?_, ?_⟩
  · intro forest hforest
    rw [hforest] at htells
    exact htells
  · intro e he
    rw [he] at htells
    exact htells

/-- A body that ends early, at the first and at the third verbosity. -/
theorem verbosity_only_filters_unclosed :
    let settings : Settings := { Settings.default with verbosity := 1 }
    let source := "f \x7b"
    1 ≤ 3 ∧
      emittedEvents settings source =
        (emittedEvents { settings with verbosity := 3 } source).filter
          (fun e => e.level.all (·.rank ≤ 1)) ∧
      ∃ before, (∀ b ∈ before, b.level ≠ none) ∧
        emittedEvents settings source =
          before ++ [⟨"parser", none,
            "fatal: expected '\x7d' to close named scope, found end of input"⟩] := by
  intro settings source
  have htokens : (tokenize settings.unmatched source).2 = .ok
      [⟨.identifier, "f", ⟨1, 0⟩⟩, ⟨.symbol, "\x7b", ⟨1, 2⟩⟩, .eof ⟨1, 3⟩] :=
    eq_ok_of_toOption (by decide +kernel)
  have herror : (parseSource settings source).2 =
      .error (.parse (.expected "'\x7d' to close named scope" (.endOfStream ⟨1, 3⟩))) := by
    rw [parseSource_snd, htokens]
    rfl
  obtain ⟨_, hfilter, _, hlast⟩ :=
    verbosity_only_filters settings source (v := 1) (w := 3) (by decide)
  exact ⟨by decide, hfilter, hlast _ herror⟩

end ScopeFront
