import Mathlib.Logic.Function.Iterate
import ScopeFront.Proofs.Lexer.Segmentation

/-!
# How a scan goes on

A scan goes on piece by piece: stray characters with the piece behind them in one go, every other
piece by itself, until nothing is left unread.  Each go takes the scanner on to a later character of
the source text, so that there are no more of them than bytes left.

* `Scanner.Stretch`, `Scanner.andThen` – a stretch of a scan, and one behind the other;
* `Scanner.readPiece`, `Scanner.scanToken`, `Scanner.scanLoop` – one piece, one go, and the loop;
* `Scanner.scan_eq`, `Scanner.pass_eq` – a scan is made up of pieces, and of goes;
* `Scanner.StandsIn`, `Scanner.offset` – where in a source text a scanner stands;
* `Scanner.StandsIn.readPiece`, `Scanner.StandsIn.scanToken` – a piece and a go move on;
* `Scanner.scanLoop_iterate` – the loop comes to an end.
-/

set_option autoImplicit false

namespace ScopeFront

namespace Scanner

/-! ## Stretches -/

/-- A stretch of a scan: the scanner it leads to, its log, and how it ended. -/
abbrev Stretch : Type := Scanner × List Event × Except LexError Unit

/-- A stretch and, unless it ended in an error, what follows it. -/
def andThen (x : Stretch) (more : Scanner → Stretch) : Stretch :=
  match x with
  | (s, log, .error e) => (s, log, .error e)
  | (s, log, .ok ()) => ((more s).1, log ++ (more s).2.1, (more s).2.2)

theorem andThen_assoc (x : Stretch) (more later : Scanner → Stretch) :
    andThen (andThen x more) later = andThen x fun s => andThen (more s) later := by
  obtain ⟨s, log, _ | _⟩ := x
  · rfl
  · rcases hmore : more s with ⟨s', log', _ | _⟩
    · simp [andThen, hmore]
    · simp [andThen, hmore]

/-- Nothing, and what follows it. -/
theorem nil_andThen (s : Scanner) (more : Scanner → Stretch) :
    andThen (s, [], .ok ()) more = more s := by
  simp [andThen]

variable (policy : UnmatchedPolicy)

/-- Reads the next piece, if there is one. -/
def readPiece (s : Scanner) : Stretch :=
  match s.unread with
  | [] => (s, [], .ok ())
  | piece :: behind =>
    match piece.read policy s.place (firstChar? behind) with
    | .error e => (s, [.fatal lexerStage e.message], .error e)
    | .ok reading =>
      (⟨behind, s.place.after piece.text, s.tokens ++ reading.token.toList⟩, [reading.event],
        .ok ())

/-- One go: the next piece, and where it is stray the one behind it too. -/
def scanToken (s : Scanner) : Stretch :=
  if s.unread.head?.any (·.kind == .stray) then andThen (s.readPiece policy) (readPiece policy)
  else s.readPiece policy

/-- Nothing where nothing is left, else one go and `again` for those behind it. -/
def scanLoop (again : Scanner → Stretch) (s : Scanner) : Stretch :=
  if s.unread.isEmpty then (s, [], .ok ()) else andThen (s.scanToken policy) again

/-- All that is left, to the end or to the first error. -/
def pass (s : Scanner) : Stretch :=
  let pass := Pass.ofSegments policy s.place s.unread
  (⟨pass.unread, pass.place, s.tokens ++ pass.tokens⟩, pass.log,
    match pass.fault with
    | none => .ok ()
    | some e => .error e)

/-- The stretch as a whole scan, which logs its start and, where it comes to the end, adds an end
marker and logs that. -/
def finished : Stretch → Stretch
  | (s, log, .error e) => (s, .debug lexerStage .phase "starting tokenization" :: log, .error e)
  | (s, log, .ok ()) =>
    let tokens := s.tokens ++ [Token.eof s.place]
    let done := Event.debug lexerStage .phase s!"tokenization completed, {tokens.length} tokens"
    (⟨s.unread, s.place, tokens⟩,
      .debug lexerStage .phase "starting tokenization" :: (log ++ [done]), .ok ())

variable {policy} {s s' : Scanner}

theorem scan_eq (s : Scanner) : s.scan policy = finished (s.pass policy) := by
  unfold scan pass
  cases h : (Pass.ofSegments policy s.place s.unread).fault with
  | none => simp [finished, h]
  | some e => simp [finished, h]

/-- Reading a piece that is no error passes it. -/
theorem readPiece_of_ok {piece : Segment} {behind : List Segment} {reading : Reading}
    (hs : s.unread = piece :: behind)
    (hr : piece.read policy s.place (firstChar? behind) = .ok reading) :
    s.readPiece policy =
      (⟨behind, s.place.after piece.text, s.tokens ++ reading.token.toList⟩, [reading.event],
        .ok ()) := by
  simp only [readPiece, hs, hr]

theorem readPiece_of_error {piece : Segment} {behind : List Segment} {e : LexError}
    (hs : s.unread = piece :: behind)
    (hr : piece.read policy s.place (firstChar? behind) = .error e) :
    s.readPiece policy = (s, [.fatal lexerStage e.message], .error e) := by
  simp only [readPiece, hs, hr]

theorem readPiece_nil (hs : s.unread = []) : s.readPiece policy = (s, [], .ok ()) := by
  simp only [readPiece, hs]

/-- Where the next piece is read, this is what is read. -/
theorem exists_reading {piece : Segment} {behind : List Segment} {log : List Event}
    (hs : s.unread = piece :: behind) (h : s.readPiece policy = (s', log, .ok ())) :
    ∃ reading, piece.read policy s.place (firstChar? behind) = .ok reading ∧
      s' = ⟨behind, s.place.after piece.text, s.tokens ++ reading.token.toList⟩ := by
  cases hr : piece.read policy s.place (firstChar? behind) with
  | error e =>
      rw [readPiece_of_error hs hr] at h
      cases h
  | ok reading =>
      rw [readPiece_of_ok hs hr] at h
      cases h
      exact ⟨reading, rfl, rfl⟩

/-- A pass is its first piece and a pass over the others. -/
theorem pass_eq_readPiece (s : Scanner) :
    s.pass policy = andThen (s.readPiece policy) (pass policy) := by
  cases hs : s.unread with
  | nil => rw [readPiece_nil hs, nil_andThen]
  | cons piece behind =>
      cases hr : piece.read policy s.place (firstChar? behind) with
      | error e =>
          rw [readPiece_of_error hs hr, pass, hs, Pass.ofSegments_error hr]
          simp [andThen, ← hs]
      | ok reading =>
          rw [readPiece_of_ok hs hr, pass, hs, Pass.ofSegments_ok hr]
          simp [andThen, pass]

/-- A pass is one go and a pass over what is left. -/
theorem pass_eq (s : Scanner) : s.pass policy = andThen (s.scanToken policy) (pass policy) := by
  unfold scanToken
  split
  · rw [andThen_assoc, pass_eq_readPiece]
    congr 1
    funext later
    exact pass_eq_readPiece later
  · exact pass_eq_readPiece s

/-- Where nothing is left, a pass does nothing. -/
theorem pass_nil (hs : s.unread = []) : s.pass policy = (s, [], .ok ()) := by
  obtain ⟨unread, place, tokens⟩ := s
  obtain rfl : unread = [] := hs
  simp [pass, Pass.ofSegments]

/-! ## Places in a source text -/

/-- The text still to be read. -/
def unreadText (s : Scanner) : List Char := s.unread.flatMap Segment.text

/-- The number of bytes of the source text that have been read. -/
def offset (source : String) (s : Scanner) : Nat :=
  source.utf8ByteSize - (String.ofList s.unreadText).utf8ByteSize

/-- The scanner stands in the source text behind `read`. -/
structure StandsIn (source : String) (read : List Char) (s : Scanner) : Prop where
  text : source.toList = read ++ s.unreadText
  pieces : s.unread = segments s.unreadText
  place : s.place = Span.start.after read

theorem standsIn_ofSource (source : String) : (ofSource source).StandsIn source [] where
  text := (segments_text source.toList).symm
  pieces := congrArg segments (segments_text source.toList).symm
  place := rfl

namespace StandsIn

variable {source : String} {read : List Char}

theorem eq_append (h : s.StandsIn source read) :
    source = String.ofList read ++ String.ofList s.unreadText := by
  rw [← String.ofList_append, ← h.text, String.ofList_toList]

theorem utf8ByteSize_eq (h : s.StandsIn source read) :
    source.utf8ByteSize =
      (String.ofList read).utf8ByteSize + (String.ofList s.unreadText).utf8ByteSize := by
  rw [← String.utf8ByteSize_append, ← h.eq_append]

theorem offset_eq (h : s.StandsIn source read) :
    s.offset source = (String.ofList read).utf8ByteSize := by
  have := h.utf8ByteSize_eq
  unfold offset
  omega

theorem offset_le (h : s.StandsIn source read) : s.offset source ≤ source.utf8ByteSize := by
  rw [h.offset_eq, h.utf8ByteSize_eq]
  exact Nat.le_add_right _ _

/-- A scanner stands before a character or at the end. -/
theorem isValid (h : s.StandsIn source read) :
    String.Pos.Raw.IsValid source ⟨s.offset source⟩ := by
  refine String.Pos.Raw.isValid_iff_exists_append.2
    ⟨String.ofList read, String.ofList s.unreadText, h.eq_append, ?_⟩
  rw [h.offset_eq]
  rfl

/-- The pieces behind the first one are those of the text behind it. -/
theorem behind {piece : Segment} {later : List Segment} (h : s.StandsIn source read)
    (hs : s.unread = piece :: later) :
    piece.text ≠ [] ∧ later = segments (later.flatMap Segment.text) := by
  have hpieces := h.pieces
  rw [hs] at hpieces
  refine ⟨segments_text_ne_nil (hpieces ▸ List.mem_cons_self), ?_⟩
  cases htext : s.unreadText with
  | nil =>
      rw [htext, segments] at hpieces
      cases hpieces
  | cons c cs =>
      rw [htext, segments] at hpieces
      obtain ⟨-, rfl⟩ := List.cons.inj hpieces
      rw [segments_text]

/-- **A piece that is read takes the scanner on by its text.** -/
theorem readPiece {piece : Segment} {later : List Segment} {log : List Event}
    (h : s.StandsIn source read) (hs : s.unread = piece :: later)
    (hok : s.readPiece policy = (s', log, .ok ())) : s'.StandsIn source (read ++ piece.text) := by
  obtain ⟨reading, -, rfl⟩ := exists_reading hs hok
  have htext : s.unreadText = piece.text ++ later.flatMap Segment.text := by
    rw [unreadText, hs, List.flatMap_cons]
  exact {
    text := by rw [h.text, htext, List.append_assoc]; rfl
    pieces := (h.behind hs).2
    place := by rw [Span.after_append, ← h.place] }

/-- **A go that succeeds takes the scanner on**, to a place behind at least one more character. -/
theorem scanToken {log : List Event} (h : s.StandsIn source read) (hs : s.unread ≠ [])
    (hok : s.scanToken policy = (s', log, .ok ())) :
    ∃ more, more ≠ [] ∧ s'.StandsIn source (read ++ more) := by
  obtain ⟨piece, later, hs⟩ := List.exists_cons_of_ne_nil hs
  have hne := (h.behind hs).1
  unfold Scanner.scanToken at hok
  split at hok
  · rcases hfirst : s.readPiece policy with ⟨s₁, log₁, _ | _⟩
    · rw [hfirst] at hok
      cases hok
    · have h₁ := h.readPiece hs hfirst
      rw [hfirst] at hok
      -- behind stray characters there may be nothing left to read
      cases hs₁ : s₁.unread with
      | nil =>
          rw [andThen, readPiece_nil hs₁] at hok
          cases hok
          exact ⟨piece.text, hne, h₁⟩
      | cons piece₂ later₂ =>
          rcases hsecond : s₁.readPiece policy with ⟨s₂, log₂, _ | _⟩
          · rw [andThen, hsecond] at hok
            cases hok
          · rw [andThen, hsecond] at hok
            cases hok
            refine ⟨piece.text ++ piece₂.text, by simp [hne], ?_⟩
            rw [← List.append_assoc]
            exact h₁.readPiece hs₁ hsecond
  · exact ⟨piece.text, hne, h.readPiece hs hok⟩

/-- The place in bytes lies strictly further on, behind at least one more character. -/
theorem offset_lt {more : List Char} (h : s.StandsIn source read) (hmore : more ≠ [])
    (h' : s'.StandsIn source (read ++ more)) : s.offset source < s'.offset source := by
  have hpos : (String.ofList more).utf8ByteSize ≠ 0 := by
    rw [Ne, String.utf8ByteSize_eq_zero_iff]
    intro hempty
    exact hmore (by rw [← String.toList_ofList (l := more), hempty]; rfl)
  rw [h.offset_eq, h'.offset_eq, String.ofList_append, String.utf8ByteSize_append]
  omega

end StandsIn

/-- **The loop comes to an end.**  With more goes than bytes are left, it does not matter what would
be done behind them: the loop has read all that a pass reads. -/
theorem scanLoop_iterate {source : String} {read : List Char} {n : Nat}
    (h : s.StandsIn source read) (hn : source.utf8ByteSize - s.offset source < n)
    (innermost : Scanner → Stretch) : ((scanLoop policy)^[n] innermost) s = s.pass policy := by
  induction n generalizing s read with
  | zero => cases hn
  | succ n ih =>
      rw [Function.iterate_succ_apply', scanLoop]
      cases hs : s.unread with
      | nil => exact (pass_nil hs).symm
      | cons piece later =>
          rw [if_neg (by simp), pass_eq]
          rcases hgo : s.scanToken policy with ⟨s', log, _ | _⟩
          · rfl
          · obtain ⟨more, hmore, h'⟩ := h.scanToken (by simp [hs]) hgo
            have hlt := h.offset_lt hmore h'
            have hle := h'.offset_le
            rw [andThen, andThen, ih h' (by omega)]

end Scanner

end ScopeFront
