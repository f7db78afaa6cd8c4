import ScopeFront.Proofs.JsonText
import ScopeFront.Settings.Skip

/-!
# Well-formed JSON texts

The grammar of JSON, and the readers of its parts: before whatever may follow, each of them reads
the whole of its part and leaves what stands behind it.  Strings have two readers.  One gives the
text that is spelled and needs the halves of pairs to be paired; the other passes over every string
of the grammar.

* `Blanks`, `IsString`, `Unsigned`, `IsValue` – the grammar;
* `Spells` – the texts that strings spell;
* `takeString_of_spells`, `skipString_of_isString`, `takeNumber_of_unsigned` – the lexical parts are
  read to their end;
* `takeStringFrom_rest` – a string that is read, though it may spell nothing, is read to its end;
* `skipValueWithin_of_isValue`, `skipValue_of_isValue` – values are passed over to their end.
-/

set_option autoImplicit false

namespace ScopeFront.Settings

/-! ## Outcomes -/

theorem ok_bind {ε α β : Type} (a : α) (f : α → Except ε β) : (Except.ok a >>= f) = f a := rfl

theorem bind_eq_ok {ε α β : Type} {x : Except ε α} {f : α → Except ε β} {b : β} :
    x >>= f = .ok b ↔ ∃ a, x = .ok a ∧ f a = .ok b := by
  cases x <;> simp [bind, Except.bind]

theorem map_eq_ok {ε α β : Type} {x : Except ε α} {f : α → β} {b : β} :
    x.map f = .ok b ↔ ∃ a, x = .ok a ∧ f a = b := by
  cases x <;> simp [Except.map]

/-! ## Blanks -/

/-- Blanks, of any number. -/
def Blanks (ws : List Char) : Prop := ∀ c ∈ ws, isJsonBlank c = true

instance (ws : List Char) : Decidable (Blanks ws) :=
  decidable_of_iff (ws.all isJsonBlank = true) List.all_eq_true

theorem isJsonBlank_cases {c : Char} (h : isJsonBlank c = true) :
    c = ' ' ∨ c = '\n' ∨ c = '\t' ∨ c = '\r' := by
  simpa [isJsonBlank, or_assoc] using h

theorem skipBlanks_append {ws : List Char} (h : Blanks ws) (cs : List Char) :
    skipBlanks (ws ++ cs) = skipBlanks cs :=
  List.dropWhile_append_of_pos h

theorem skipBlanks_cons {c : Char} (h : isJsonBlank c = false) (cs : List Char) :
    skipBlanks (c :: cs) = c :: cs := by
  rw [skipBlanks, List.dropWhile_cons_of_neg (by simp [h])]

/-- Blanks are passed over up to the first other character. -/
theorem skipBlanks_of_blanks {ws : List Char} (h : Blanks ws) {c : Char}
    (hc : isJsonBlank c = false) (cs : List Char) : skipBlanks (ws ++ c :: cs) = c :: cs := by
  rw [skipBlanks_append h, skipBlanks_cons hc]

/-! ## Strings -/

/-- The letters that stand for a character behind a backslash, each with that character. -/
def letterEscapes : List (Char × Char) :=
  [('"', '"'), ('\\', '\\'), ('/', '/'), ('b', '\x08'), ('f', '\x0c'), ('n', '\n'), ('r', '\r'),
    ('t', '\t')]

theorem simpleEscape?_of_mem : ∀ p ∈ letterEscapes, simpleEscape? p.1 = some p.2 := by decide

/-- Four hexadecimal digits, and the code unit they stand for. -/
inductive CodeUnit : List Char → Nat → Prop
  | mk {a b c d : Char} {w x y z : Nat} : hexValue? a = some w → hexValue? b = some x →
    hexValue? c = some y → hexValue? d = some z →
    CodeUnit [a, b, c, d] (16 * (16 * (16 * w + x) + y) + z)

/-- What stands between the quotes of a string. -/
inductive IsString : List Char → Prop
  | nil : IsString []
  | plain {c : Char} {body : List Char} :
    c ≠ '"' → c ≠ '\\' → 32 ≤ c.toNat → IsString body → IsString (c :: body)
  | letter {l c : Char} {body : List Char} :
    (l, c) ∈ letterEscapes → IsString body → IsString ('\\' :: l :: body)
  | unit {digits body : List Char} {n : Nat} :
    CodeUnit digits n → IsString body → IsString ('\\' :: 'u' :: (digits ++ body))

/-- What stands between the quotes of a string spells the text: a code unit that is no half stands
for the character with its number, and two halves for one character. -/
inductive Spells : List Char → List Char → Prop
  | nil : Spells [] []
  | plain {c : Char} {text body : List Char} :
    c ≠ '"' → c ≠ '\\' → 32 ≤ c.toNat → Spells text body → Spells (c :: text) (c :: body)
  | letter {l c : Char} {text body : List Char} :
    (l, c) ∈ letterEscapes → Spells text body → Spells (c :: text) ('\\' :: l :: body)
  | unit {digits text body : List Char} {n : Nat} :
    CodeUnit digits n → n < 0xD800 ∨ 0xDFFF < n → Spells text body →
    Spells (Char.ofNat n :: text) ('\\' :: 'u' :: (digits ++ body))
  | pair {digits digits' text body : List Char} {high low : Nat} :
    CodeUnit digits high → 0xD800 ≤ high → high ≤ 0xDBFF →
    CodeUnit digits' low → 0xDC00 ≤ low → low ≤ 0xDFFF → Spells text body →
    Spells (Char.ofNat (0x10000 + (high - 0xD800) * 0x400 + (low - 0xDC00)) :: text)
      ('\\' :: 'u' :: (digits ++ '\\' :: 'u' :: (digits' ++ body)))

theorem Spells.isString {text body : List Char} (h : Spells text body) : IsString body := by
  induction h with
  | nil => exact .nil
  | plain hquote hslash hcontrol _ ih => exact .plain hquote hslash hcontrol ih
  | letter hl _ ih => exact .letter hl ih
  | unit hunit _ _ ih => exact .unit hunit ih
  | pair hhigh _ _ hlow _ _ _ ih => exact .unit hhigh (.unit hlow ih)

/-- Whether a character stands for itself in a string. -/
def needsNoEscape (c : Char) : Bool := c != '"' && c != '\\' && decide (32 ≤ c.toNat)

/-- Characters that need no backslash spell themselves. -/
theorem Spells.append (cs : List Char) (hcs : cs.all needsNoEscape = true)
    {text body : List Char} (h : Spells text body) : Spells (cs ++ text) (cs ++ body) := by
  induction cs with
  | nil => exact h
  | cons c cs ih =>
      rw [List.all_cons, Bool.and_eq_true] at hcs
      obtain ⟨⟨hquote, hslash⟩, hcontrol⟩ : (c ≠ '"' ∧ c ≠ '\\') ∧ 32 ≤ c.toNat := by
        simpa [needsNoEscape] using hcs.1
      exact .plain hquote hslash hcontrol (ih hcs.2)

/-- Four digits are read to the end of their code unit. -/
theorem takeStringFrom_digits {digits : List Char} {n : Nat} (h : CodeUnit digits n) (paired : Bool)
    (high : Option Nat) (rest : List Char) :
    takeStringFrom paired (.digits high 0 4) (digits ++ rest) =
      (afterUnit paired high n).bind fun p =>
        (takeStringFrom paired p.2 rest).map fun q => (p.1.toList ++ q.1, q.2) := by
  obtain ⟨ha, hb, hc, hd⟩ := h
  calc
    _ = takeStringFrom paired (.digits high _ 3) _ := takeStringFrom_digit ha 0 2 _
    _ = takeStringFrom paired (.digits high _ 2) _ := takeStringFrom_digit hb _ 1 _
    _ = takeStringFrom paired (.digits high _ 1) _ := takeStringFrom_digit hc _ 0 _
    _ = _ := takeStringFrom_lastDigit hd _ rest
    _ = _ := by rw [Nat.mul_zero, Nat.zero_add]

/-- A code unit with its backslash is read to its end. -/
theorem takeStringFrom_codeUnit {digits : List Char} {n : Nat} (h : CodeUnit digits n)
    (paired : Bool) (rest : List Char) :
    takeStringFrom paired .plain ('\\' :: 'u' :: (digits ++ rest)) =
      (afterUnit paired none n).bind fun p =>
        (takeStringFrom paired p.2 rest).map fun q => (p.1.toList ++ q.1, q.2) := by
  rw [← takeStringFrom_digits h]
  obtain ⟨_, _, _, _⟩ := h
  exact takeStringFrom_unit _ _ _ _ rest

/-- Behind the first half of a pair, a code unit with its backslash is read to its end. -/
theorem takeStringFrom_secondHalf {digits : List Char} {n : Nat} (h : CodeUnit digits n)
    (paired : Bool) (high : Nat) (rest : List Char) :
    takeStringFrom paired (.pairEscape high) ('\\' :: 'u' :: (digits ++ rest)) =
      (afterUnit paired (some high) n).bind fun p =>
        (takeStringFrom paired p.2 rest).map fun q => (p.1.toList ++ q.1, q.2) := by
  rw [takeStringFrom, if_pos rfl, takeStringFrom, if_pos rfl, ← takeStringFrom_digits h]
  obtain ⟨_, _, _, _⟩ := h
  exact if_neg (by simp [lacksUnit_four])

/-- **A string is read as the text that it spells**, up to its closing quote. -/
theorem takeString_of_spells {text body : List Char} (h : Spells text body) (rest : List Char) :
    takeString (body ++ '"' :: rest) = .ok (text, rest) := by
  unfold takeString
  induction h with
  | nil => rw [List.nil_append, takeStringFrom, if_pos rfl]
  | plain hquote hslash hcontrol _ ih =>
      rw [List.cons_append, takeStringFrom_plain hquote hslash (Nat.not_lt.mpr hcontrol), ih]
      rfl
  | letter hl _ ih =>
      refine (takeStringFrom_letter (simpleEscape?_of_mem _ hl) (_ ++ _)).trans ?_
      rw [ih]
      rfl
  | @unit digits text body n hdigits hwhole _ ih =>
      have hunit : afterUnit true none n = .ok (some (Char.ofNat n), .plain) := by
        have hclass : unitClass n = .whole := by
          rw [unitClass, if_neg (by omega), if_neg (by omega)]
        simp [afterUnit, hclass]
      rw [List.cons_append, List.cons_append, List.append_assoc, takeStringFrom_codeUnit hdigits,
        hunit, Except.bind, ih]
      rfl
  | @pair digits digits' text body high low hfirst hhigh₁ hhigh₂ hsecond hlow₁ hlow₂ _ ih =>
      have hhigh : afterUnit true none high = .ok (none, .pairEscape high) := by
        have hclass : unitClass high = .high := by rw [unitClass, if_pos ⟨hhigh₁, hhigh₂⟩]
        simp [afterUnit, hclass]
      have hlow : afterUnit true (some high) low = .ok (some (joinPair high low), .plain) := by
        have hclass : unitClass low = .low := by
          rw [unitClass, if_neg (by omega), if_pos ⟨hlow₁, hlow₂⟩]
        simp [afterUnit, hclass]
      rw [List.cons_append, List.cons_append, List.append_assoc, takeStringFrom_codeUnit hfirst,
        hhigh, Except.bind, List.cons_append, List.cons_append, List.append_assoc,
        takeStringFrom_secondHalf hsecond, hlow, Except.bind, ih]
      rfl

/-- A code unit leads on between characters or behind the first half of a pair. -/
theorem afterUnit_place {high : Option Nat} {n : Nat} {p : Option Char × StringPlace}
    (h : afterUnit true high n = .ok p) : p.2 = .plain ∨ p.2 = .pairEscape n := by
  unfold afterUnit at h
  simp only [Bool.not_true, Bool.false_eq_true, if_false] at h
  split at h
  · exact .inl (Except.ok.inj h ▸ rfl)
  · exact .inr (Except.ok.inj h ▸ rfl)
  · cases h
  · exact .inl (Except.ok.inj h ▸ rfl)
  · cases h

/-- A string that is read is read to its closing quote, and behind the first half of a pair too. -/
theorem takeStringFrom_rest {body : List Char} (h : IsString body) {rest : List Char} :
    (∀ {text more : List Char},
      takeStringFrom true .plain (body ++ '"' :: rest) = .ok (text, more) → more = rest) ∧
    ∀ {high : Nat} {text more : List Char},
      takeStringFrom true (.pairEscape high) (body ++ '"' :: rest) = .ok (text, more) →
        more = rest := by
  induction h with
  | nil =>
      refine ⟨fun htake => ?_, fun htake => ?_⟩
      · rw [List.nil_append, takeStringFrom, if_pos rfl] at htake
        exact (Prod.mk.inj (Except.ok.inj htake)).2.symm
      · rw [List.nil_append, takeStringFrom, if_neg (by decide)] at htake
        cases htake
  | plain hquote hslash hcontrol _ ih =>
      refine ⟨fun htake => ?_, fun htake => ?_⟩
      · rw [List.cons_append, takeStringFrom_plain hquote hslash (Nat.not_lt.mpr hcontrol)] at htake
        obtain ⟨⟨text, more⟩, hread, heq⟩ := map_eq_ok.mp htake
        exact (Prod.mk.inj heq).2 ▸ ih.1 hread
      · rw [List.cons_append, takeStringFrom, if_neg hslash] at htake
        cases htake
  | @letter l c body hl _ ih =>
      refine ⟨fun htake => ?_, fun htake => ?_⟩
      · rw [List.cons_append, List.cons_append] at htake
        have hread := (takeStringFrom_letter (simpleEscape?_of_mem _ hl) _).symm.trans htake
        obtain ⟨⟨text, more⟩, hread, heq⟩ := map_eq_ok.mp hread
        exact (Prod.mk.inj heq).2 ▸ ih.1 hread
      · have hl : l ≠ 'u' := by
          rintro rfl
          simp [letterEscapes] at hl
        rw [List.cons_append, List.cons_append, takeStringFrom, if_pos rfl, takeStringFrom,
          if_neg hl] at htake
        cases htake
  | @unit digits body n hdigits _ ih =>
      -- what stands behind the unit is read from a place for which the claim is known
      have hbehind : ∀ {high : Option Nat} {text more : List Char},
          ((afterUnit true high n).bind fun p =>
            (takeStringFrom true p.2 (body ++ '"' :: rest)).map fun q => (p.1.toList ++ q.1, q.2)) =
              .ok (text, more) → more = rest := by
        intro high text more htake
        obtain ⟨p, hp, hmap⟩ := bind_eq_ok.mp htake
        obtain ⟨⟨text', more'⟩, hread, heq⟩ := map_eq_ok.mp hmap
        rw [← (Prod.mk.inj heq).2]
        rcases afterUnit_place hp with hplace | hplace
        · exact ih.1 (hplace ▸ hread)
        · exact ih.2 (hplace ▸ hread)
      refine ⟨fun htake => ?_, fun htake => ?_⟩
      · rw [List.cons_append, List.cons_append, List.append_assoc,
          takeStringFrom_codeUnit hdigits] at htake
        exact hbehind htake
      · rw [List.cons_append, List.cons_append, List.append_assoc,
          takeStringFrom_secondHalf hdigits] at htake
        exact hbehind htake

/-- **Every string is passed over** up to its closing quote. -/
theorem skipString_of_isString {body : List Char} (h : IsString body) (rest : List Char) :
    skipString (body ++ '"' :: rest) = .ok rest := by
  have hread : ∃ text, takeStringFrom false .plain (body ++ '"' :: rest) = .ok (text, rest) := by
    induction h with
    | nil => exact ⟨[], by rw [List.nil_append, takeStringFrom, if_pos rfl]⟩
    | @plain c body hquote hslash hcontrol _ ih =>
        obtain ⟨text, htext⟩ := ih
        refine ⟨c :: text, ?_⟩
        rw [List.cons_append, takeStringFrom_plain hquote hslash (Nat.not_lt.mpr hcontrol), htext]
        rfl
    | @letter l c body hl _ ih =>
        obtain ⟨text, htext⟩ := ih
        refine ⟨c :: text, (takeStringFrom_letter (simpleEscape?_of_mem _ hl) (_ ++ _)).trans ?_⟩
        rw [htext]
        rfl
    | @unit digits body n hdigits _ ih =>
        obtain ⟨text, htext⟩ := ih
        refine ⟨Char.ofNat n :: text, ?_⟩
        have hunit : afterUnit false none n = .ok (some (Char.ofNat n), .plain) := by
          simp [afterUnit]
        rw [List.cons_append, List.cons_append, List.append_assoc,
          takeStringFrom_codeUnit hdigits, hunit, Except.bind, htext]
        rfl
  obtain ⟨text, htext⟩ := hread
  rw [skipString, htext]

/-! ## Numbers -/

theorem ne_of_isDigit {c d : Char} (hc : c.isDigit = true) (hd : d.isDigit = false) : c ≠ d := by
  rintro rfl
  exact absurd (hc.symm.trans hd) (by decide)

theorem isJsonBlank_of_isDigit {c : Char} (h : c.isDigit = true) : isJsonBlank c = false := by
  rw [← Bool.not_eq_true]
  intro hblank
  rcases isJsonBlank_cases hblank with rfl | rfl | rfl | rfl <;> exact absurd h (by decide)

/-- Decimal digits, at least one. -/
def Digits (ds : List Char) : Prop := ds ≠ [] ∧ ∀ c ∈ ds, c.isDigit = true

/-- The whole part of a number, where no digit stands behind a leading zero. -/
def WholePart (ds : List Char) : Prop := Digits ds ∧ ¬ (ds.head? = some '0' ∧ 1 < ds.length)

/-- The fraction of a number, if there is one: a point and digits. -/
inductive FractionPart : Option (List Char) → List Char → Prop
  | absent : FractionPart none []
  | point {ds : List Char} : Digits ds → FractionPart (some ds) ('.' :: ds)

/-- The sign of an exponent, and whether it is a minus. -/
inductive SignPart : Bool → List Char → Prop
  | absent : SignPart false []
  | plus : SignPart false ['+']
  | minus : SignPart true ['-']

/-- The exponent of a number, if there is one: a mark, a sign and digits. -/
inductive ExponentPart : Option (Bool × List Char) → List Char → Prop
  | absent : ExponentPart none []
  | mark {c : Char} {negative : Bool} {sign ds : List Char} : c = 'e' ∨ c = 'E' →
    SignPart negative sign → Digits ds → ExponentPart (some (negative, ds)) (c :: (sign ++ ds))

/-- A number without its sign. -/
inductive Unsigned : NumberText → List Char → Prop
  | mk {whole fraction exponent : List Char} {f : Option (List Char)}
    {x : Option (Bool × List Char)} : WholePart whole → FractionPart f fraction →
    ExponentPart x exponent → Unsigned ⟨whole, f, x⟩ (whole ++ (fraction ++ exponent))

/-- Whether a number goes on with the character. -/
def continuesNumber (c : Char) : Bool := c.isDigit || c == '.' || c == 'e' || c == 'E'

/-- The text does not go on with a number that stands before it. -/
abbrev EndsNumber (rest : List Char) : Prop := Ends continuesNumber rest

theorem endsNumber_of_blanks {ws : List Char} (h : Blanks ws) {c : Char}
    (hc : continuesNumber c = false) (rest : List Char) : EndsNumber (ws ++ c :: rest) := by
  intro d hd
  cases ws with
  | nil => rwa [← Option.some.inj hd]
  | cons w ws =>
      rw [← Option.some.inj hd]
      rcases isJsonBlank_cases (h w (List.mem_cons_self ..)) with rfl | rfl | rfl | rfl <;> decide

section Numbers

variable {atEnd : Fault} {rest : List Char}

theorem takeDigits_of_digits {ds : List Char} (h : Digits ds) (hrest : Ends Char.isDigit rest) :
    takeDigits atEnd (ds ++ rest) = .ok (ds, rest) := by
  obtain ⟨htake, hdrop⟩ := takeWhile_of_ends h.2 hrest
  cases ds with
  | nil => exact absurd rfl h.1
  | cons d ds => simp only [takeDigits, htake, hdrop]

theorem takeWhole_of_wholePart {ds : List Char} (h : WholePart ds)
    (hrest : Ends Char.isDigit rest) : takeWhole atEnd (ds ++ rest) = .ok (ds, rest) := by
  simp only [takeWhole, takeDigits_of_digits h.1 hrest, if_neg h.2]

theorem takeFraction_of_fractionPart {f : Option (List Char)} {fraction : List Char}
    (h : FractionPart f fraction) (hdigit : Ends Char.isDigit rest)
    (hpoint : Ends (· == '.') rest) : takeFraction atEnd (fraction ++ rest) = .ok (f, rest) := by
  cases h with
  | absent =>
      rw [List.nil_append]
      unfold takeFraction
      split
      · exact absurd (hpoint '.' rfl) (by decide)
      · rfl
  | point hds =>
      rw [List.cons_append, takeFraction, takeDigits_of_digits hds hdigit]

theorem takeSign_of_signPart {negative : Bool} {sign : List Char} (h : SignPart negative sign)
    {ds : List Char} (hds : Digits ds) :
    takeSign (sign ++ (ds ++ rest)) = (negative, ds ++ rest) := by
  cases h with
  | plus => rfl
  | minus => rfl
  | absent =>
      -- the first digit is no sign
      cases ds with
      | nil => exact absurd rfl hds.1
      | cons d ds =>
          have hdigit : d.isDigit = true := hds.2 d (List.mem_cons_self ..)
          unfold takeSign
          split
          · next heq => rw [(List.cons.inj heq).1] at hdigit; exact absurd hdigit (by decide)
          · next heq => rw [(List.cons.inj heq).1] at hdigit; exact absurd hdigit (by decide)
          · rfl

theorem takeExponent_of_exponentPart {x : Option (Bool × List Char)} {exponent : List Char}
    (h : ExponentPart x exponent) (hrest : EndsNumber rest) :
    takeExponent atEnd (exponent ++ rest) = .ok (x, rest) := by
  cases h with
  | absent =>
      cases rest with
      | nil => rfl
      | cons c rest =>
          have hc : continuesNumber c = false := hrest c rfl
          have hmark : ¬ (c = 'e' ∨ c = 'E') := by
            rintro (rfl | rfl) <;> exact absurd hc (by decide)
          rw [List.nil_append, takeExponent, if_neg hmark]
  | mark hmark hsign hds =>
      rw [List.cons_append, List.append_assoc, takeExponent, if_pos hmark,
        takeSign_of_signPart hsign hds]
      simp only [takeDigits_of_digits hds (hrest.mono fun c hc => by simp [continuesNumber, hc])]

/-- Neither a digit nor a point stands where the exponent begins. -/
theorem ExponentPart.ends {x : Option (Bool × List Char)} {exponent : List Char}
    (h : ExponentPart x exponent) (hrest : EndsNumber rest) :
    Ends (fun c => c.isDigit || c == '.') (exponent ++ rest) := by
  cases h with
  | absent =>
      refine hrest.mono fun c hc => ?_
      rw [continuesNumber, hc, Bool.true_or, Bool.true_or]
  | mark hmark _ _ =>
      intro c hc
      rw [← Option.some.inj hc]
      rcases hmark with rfl | rfl <;> decide

/-- No digit stands where the fraction begins. -/
theorem FractionPart.ends {f : Option (List Char)} {fraction : List Char}
    (h : FractionPart f fraction) (hrest : Ends Char.isDigit rest) :
    Ends Char.isDigit (fraction ++ rest) := by
  cases h with
  | absent => exact hrest
  | point _ =>
      intro c hc
      rw [← Option.some.inj hc]
      decide

/-- **A number is read to its end.** -/
theorem takeNumber_of_unsigned {n : NumberText} {text : List Char} (h : Unsigned n text)
    (hrest : EndsNumber rest) : takeNumber atEnd (text ++ rest) = .ok (n, rest) := by
  obtain ⟨hwhole, hfraction, hexponent⟩ := h
  have hends := hexponent.ends hrest
  have hdigit := hends.mono (q := Char.isDigit) fun c hc => by rw [hc, Bool.true_or]
  have hpoint := hends.mono (q := (· == '.')) fun c hc => by rw [hc, Bool.or_true]
  simp only [takeNumber, List.append_assoc, takeWhole_of_wholePart hwhole (hfraction.ends hdigit),
    takeFraction_of_fractionPart hfraction hdigit hpoint,
    takeExponent_of_exponentPart hexponent hrest]

/-- A number begins with a digit. -/
theorem Unsigned.first {n : NumberText} {text : List Char} (h : Unsigned n text) :
    ∃ c cs, text = c :: cs ∧ c.isDigit = true := by
  obtain ⟨⟨⟨hne, hdigits⟩, _⟩, _, _⟩ := h
  obtain ⟨c, cs, rfl⟩ := List.exists_cons_of_ne_nil hne
  exact ⟨c, _, rfl, hdigits c (List.mem_cons_self ..)⟩

end Numbers

/-! ## Values -/

mutual

/-- The text is a value. -/
inductive IsValue : List Char → Prop
  | null : IsValue ['n', 'u', 'l', 'l']
  | yes : IsValue ['t', 'r', 'u', 'e']
  | no : IsValue ['f', 'a', 'l', 's', 'e']
  | number {n : NumberText} {text : List Char} : Unsigned n text → IsValue text
  | negative {n : NumberText} {text : List Char} : Unsigned n text → IsValue ('-' :: text)
  | string {body : List Char} : IsString body → IsValue ('"' :: (body ++ ['"']))
  | emptyArray {ws : List Char} : Blanks ws → IsValue ('[' :: (ws ++ [']']))
  | array {items : List Char} : IsItems items → IsValue ('[' :: (items ++ [']']))
  | emptyObject {ws : List Char} : Blanks ws → IsValue ('{' :: (ws ++ ['}']))
  | object {fields : List Char} : IsFields fields → IsValue ('{' :: (fields ++ ['}']))

/-- The text holds the items of an array. -/
inductive IsItems : List Char → Prop
  | last {a v b : List Char} : Blanks a → IsValue v → Blanks b → IsItems (a ++ (v ++ b))
  | cons {a v b items : List Char} : Blanks a → IsValue v → Blanks b → IsItems items →
    IsItems (a ++ (v ++ (b ++ ',' :: items)))

/-- The text holds the fields of an object. -/
inductive IsFields : List Char → Prop
  | last {a key b c v d : List Char} : Blanks a → IsString key → Blanks b → Blanks c → IsValue v →
    Blanks d → IsFields (a ++ '"' :: (key ++ '"' :: (b ++ ':' :: (c ++ (v ++ d)))))
  | cons {a key b c v d fields : List Char} : Blanks a → IsString key → Blanks b → Blanks c →
    IsValue v → Blanks d → IsFields fields →
    IsFields (a ++ '"' :: (key ++ '"' :: (b ++ ':' :: (c ++ (v ++ (d ++ ',' :: fields))))))

end

/-- A value begins with a character that is neither a blank nor closes what is around it. -/
theorem IsValue.first {v : List Char} (h : IsValue v) :
    ∃ c cs, v = c :: cs ∧ isJsonBlank c = false ∧ c ≠ ']' := by
  cases h with
  | number hn =>
      obtain ⟨c, cs, rfl, hc⟩ := hn.first
      exact ⟨c, cs, rfl, isJsonBlank_of_isDigit hc, ne_of_isDigit hc (by decide)⟩
  | _ => exact ⟨_, _, rfl, by decide⟩

/-- The items of an array do not begin with its closing bracket. -/
theorem IsItems.first {items : List Char} (h : IsItems items) (rest : List Char) :
    ∃ c more, skipBlanks (items ++ rest) = c :: more ∧ c ≠ ']' := by
  cases h with
  | last ha hv _ =>
      obtain ⟨c, cs, rfl, hblank, hc⟩ := hv.first
      exact ⟨c, _, by rw [List.append_assoc]; exact skipBlanks_of_blanks ha hblank _, hc⟩
  | cons ha hv _ _ =>
      obtain ⟨c, cs, rfl, hblank, hc⟩ := hv.first
      exact ⟨c, _, by rw [List.append_assoc]; exact skipBlanks_of_blanks ha hblank _, hc⟩

/-- The fields of an object begin with a quote. -/
theorem IsFields.first {fields : List Char} (h : IsFields fields) (rest : List Char) :
    ∃ more, skipBlanks (fields ++ rest) = '"' :: more := by
  cases h with
  | last ha =>
      exact ⟨_, by rw [List.append_assoc]; exact skipBlanks_of_blanks ha (by decide) _⟩
  | cons ha =>
      exact ⟨_, by rw [List.append_assoc]; exact skipBlanks_of_blanks ha (by decide) _⟩

/-! ## Passing over values -/

theorem takeColon_of_blanks {ws : List Char} (h : Blanks ws) (rest : List Char) :
    takeColon (ws ++ ':' :: rest) = .ok rest := by
  simp [takeColon, skipBlanks_of_blanks h (c := ':') (by decide)]

theorem takeFollow_comma (close : Char) {ws : List Char} (h : Blanks ws) (rest : List Char) :
    takeFollow close (ws ++ ',' :: rest) = .ok (.more rest) := by
  simp [takeFollow, skipBlanks_of_blanks h (c := ',') (by decide)]

theorem takeFollow_close (close : Char) (hblank : isJsonBlank close = false) (hcomma : close ≠ ',')
    {ws : List Char} (h : Blanks ws) (rest : List Char) :
    takeFollow close (ws ++ close :: rest) = .ok (.closed rest) := by
  simp [takeFollow, skipBlanks_of_blanks h hblank, hcomma]

theorem takeWord_append (word rest : List Char) : takeWord word (word ++ rest) = .ok rest := by
  induction word with
  | nil => rfl
  | cons w word ih => rw [List.cons_append, takeWord, if_pos rfl, ih]

section Values

/-! The first character behind the blanks says which kind of value is passed over. -/

variable {ws : List Char} (hws : Blanks ws) (steps : Nat) (rest : List Char)
include hws

theorem skipValueWithin_word {c : Char} {word : List Char} (hblank : isJsonBlank c = false)
    (hword : wordTail? c = some word) :
    skipValueWithin (steps + 1) (ws ++ c :: rest) = takeWord word rest := by
  rw [skipValueWithin, skipBlanks_of_blanks hws hblank]
  simp only [hword]

theorem skipValueWithin_quote :
    skipValueWithin (steps + 1) (ws ++ '"' :: rest) = skipString rest := by
  rw [skipValueWithin, skipBlanks_of_blanks hws (by decide)]
  rfl

theorem skipValueWithin_minus :
    skipValueWithin (steps + 1) (ws ++ '-' :: rest) = skipNumber rest := by
  rw [skipValueWithin, skipBlanks_of_blanks hws (by decide)]
  rfl

theorem skipValueWithin_digit {c : Char} (hc : c.isDigit = true) :
    skipValueWithin (steps + 1) (ws ++ c :: rest) = skipNumber (c :: rest) := by
  have hne : ∀ d, d.isDigit = false → c ≠ d := fun d hd => ne_of_isDigit hc hd
  have hword : wordTail? c = none := by
    rw [wordTail?, if_neg (hne _ (by decide)), if_neg (hne _ (by decide)),
      if_neg (hne _ (by decide))]
  rw [skipValueWithin, skipBlanks_of_blanks hws (isJsonBlank_of_isDigit hc)]
  simp only [hword, if_neg (hne '"' (by decide)), if_neg (hne '-' (by decide)), if_pos hc]

theorem skipValueWithin_bracket :
    skipValueWithin (steps + 1) (ws ++ '[' :: rest) =
      match skipBlanks rest with
      | ']' :: more => .ok more
      | _ => skipItemsWithin steps rest := by
  rw [skipValueWithin, skipBlanks_of_blanks hws (by decide)]
  rfl

theorem skipValueWithin_brace :
    skipValueWithin (steps + 1) (ws ++ '{' :: rest) =
      match skipBlanks rest with
      | '}' :: more => .ok more
      | _ => skipFieldsWithin steps rest := by
  rw [skipValueWithin, skipBlanks_of_blanks hws (by decide)]
  rfl

end Values

mutual

/-- A value is passed over, within two steps for each of its characters. -/
theorem skipValueWithin_of_isValue {v : List Char} (h : IsValue v) {ws : List Char}
    (hws : Blanks ws) {rest : List Char} (hrest : EndsNumber rest) {steps : Nat}
    (hsteps : 2 * v.length < steps) : skipValueWithin steps (ws ++ (v ++ rest)) = .ok rest := by
  obtain ⟨steps, rfl⟩ : ∃ n, steps = n + 1 := ⟨steps - 1, by omega⟩
  cases h with
  | null => exact (skipValueWithin_word hws steps _ (by decide) rfl).trans (takeWord_append _ rest)
  | yes => exact (skipValueWithin_word hws steps _ (by decide) rfl).trans (takeWord_append _ rest)
  | no => exact (skipValueWithin_word hws steps _ (by decide) rfl).trans (takeWord_append _ rest)
  | number hn =>
      obtain ⟨c, cs, rfl, hc⟩ := hn.first
      rw [List.cons_append, skipValueWithin_digit hws steps _ hc, ← List.cons_append, skipNumber,
        takeNumber_of_unsigned hn hrest]
  | negative hn =>
      rw [List.cons_append, skipValueWithin_minus hws, skipNumber, takeNumber_of_unsigned hn hrest]
  | string hs =>
      rw [List.cons_append, skipValueWithin_quote hws, List.append_assoc]
      exact skipString_of_isString hs rest
  | emptyArray hb =>
      rw [List.cons_append, skipValueWithin_bracket hws, List.append_assoc, List.singleton_append,
        skipBlanks_of_blanks hb (by decide)]
      rfl
  | array hitems =>
      rw [List.length_cons, List.length_append, List.length_singleton] at hsteps
      obtain ⟨c, more, hmore, hc⟩ := hitems.first ([']'] ++ rest)
      rw [List.cons_append, skipValueWithin_bracket hws, List.append_assoc, hmore]
      split
      · next heq => exact absurd (List.cons.inj heq).1 hc
      · exact skipItemsWithin_of_isItems hitems (by omega)
  | emptyObject hb =>
      rw [List.cons_append, skipValueWithin_brace hws, List.append_assoc, List.singleton_append,
        skipBlanks_of_blanks hb (by decide)]
      rfl
  | object hfields =>
      rw [List.length_cons, List.length_append, List.length_singleton] at hsteps
      obtain ⟨more, hmore⟩ := hfields.first (['}'] ++ rest)
      rw [List.cons_append, skipValueWithin_brace hws, List.append_assoc, hmore]
      exact skipFieldsWithin_of_isFields hfields (by omega)
termination_by steps

/-- The items of an array are passed over. -/
theorem skipItemsWithin_of_isItems {items : List Char} (h : IsItems items) {rest : List Char}
    {steps : Nat} (hsteps : 2 * items.length + 1 < steps) :
    skipItemsWithin steps (items ++ ']' :: rest) = .ok rest := by
  obtain ⟨steps, rfl⟩ : ∃ n, steps = n + 1 := ⟨steps - 1, by omega⟩
  cases h with
  | @last a v b ha hv hb =>
      simp only [List.length_append] at hsteps
      have hvalue : skipValueWithin steps (a ++ (v ++ (b ++ ']' :: rest))) =
          .ok (b ++ ']' :: rest) :=
        skipValueWithin_of_isValue hv ha (endsNumber_of_blanks hb (by decide) rest) (by omega)
      simp only [List.append_assoc, skipItemsWithin, hvalue,
        takeFollow_close ']' (by decide) (by decide) hb]
  | @cons a v b items ha hv hb hitems =>
      simp only [List.length_append, List.length_cons] at hsteps
      have hvalue : skipValueWithin steps (a ++ (v ++ (b ++ ',' :: (items ++ ']' :: rest)))) =
          .ok (b ++ ',' :: (items ++ ']' :: rest)) :=
        skipValueWithin_of_isValue hv ha (endsNumber_of_blanks hb (by decide) _) (by omega)
      simp only [List.append_assoc, List.cons_append, skipItemsWithin, hvalue,
        takeFollow_comma ']' hb]
      exact skipItemsWithin_of_isItems hitems (by omega)
termination_by steps

/-- The fields of an object are passed over. -/
theorem skipFieldsWithin_of_isFields {fields : List Char} (h : IsFields fields) {rest : List Char}
    {steps : Nat} (hsteps : 2 * fields.length + 1 < steps) :
    skipFieldsWithin steps (fields ++ '}' :: rest) = .ok rest := by
  obtain ⟨steps, rfl⟩ : ∃ n, steps = n + 1 := ⟨steps - 1, by omega⟩
  cases h with
  | @last a key b c v d ha hkey hb hc hv hd =>
      simp only [List.length_append, List.length_cons] at hsteps
      have hvalue : skipValueWithin steps (c ++ (v ++ (d ++ '}' :: rest))) =
          .ok (d ++ '}' :: rest) :=
        skipValueWithin_of_isValue hv hc (endsNumber_of_blanks hd (by decide) rest) (by omega)
      rw [skipFieldsWithin, List.append_assoc, List.cons_append,
        skipBlanks_of_blanks ha (by decide)]
      simp only [List.append_assoc, List.cons_append, if_true, skipString_of_isString hkey,
        takeColon_of_blanks hb, hvalue, takeFollow_close '}' (by decide) (by decide) hd]
  | @cons a key b c v d fields ha hkey hb hc hv hd hfields =>
      simp only [List.length_append, List.length_cons] at hsteps
      have hvalue : skipValueWithin steps (c ++ (v ++ (d ++ ',' :: (fields ++ '}' :: rest)))) =
          .ok (d ++ ',' :: (fields ++ '}' :: rest)) :=
        skipValueWithin_of_isValue hv hc (endsNumber_of_blanks hd (by decide) _) (by omega)
      rw [skipFieldsWithin, List.append_assoc, List.cons_append,
        skipBlanks_of_blanks ha (by decide)]
      simp only [List.append_assoc, List.cons_append, if_true, skipString_of_isString hkey,
        takeColon_of_blanks hb, hvalue, takeFollow_comma '}' hd]
      exact skipFieldsWithin_of_isFields hfields (by omega)
termination_by steps

end

/-- **Every value is passed over**, with the blanks before it, up to its end. -/
theorem skipValue_of_isValue {v : List Char} (h : IsValue v) {ws : List Char} (hws : Blanks ws)
    {rest : List Char} (hrest : EndsNumber rest) : skipValue (ws ++ (v ++ rest)) = .ok rest := by
  refine skipValueWithin_of_isValue h hws hrest ?_
  rw [List.length_append, List.length_append]
  omega

end ScopeFront.Settings
