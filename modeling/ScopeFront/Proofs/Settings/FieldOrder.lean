import ScopeFront.Proofs.Settings.JsonGrammar
import ScopeFront.Settings.Reader

/-!
# Settings in any order

The fields of a settings object stand in any order, with blanks between its tokens and with fields
among them that settings do not know, whose values are passed over.  The settings say what the
fields say, and a field that is given twice, or a number out of its range, is a fault.

* `Entry`, `WritesObject` – the fields of an object, and the texts that write them;
* `takeNatural_of_integer`, `takePolicy_of_writes` – the values of fields are read;
* `takeNatural_rest`, `takePolicy_rest` – a value of any kind that is read is read to its end;
* `ofJson_of_writes` – fields that suit, each given once, are read one after the other;
* `ofJson_eq_ok` – an object that is read gives no field twice and has its numbers in range;
* `settings_in_any_order` – what an object says does not depend on how it is written.
-/

set_option autoImplicit false

namespace ScopeFront.Settings

/-! ## Written fields -/

/-- The names of the fields that settings know. -/
def fieldNames : List String := ["verbosity", "unmatched", "max_depth"]

/-- A field of a settings object. -/
inductive Entry where
  | verbosity (level : Int)
  | unmatched (policy : UnmatchedPolicy)
  | maxDepth (limit : Int)
  /-- A field of any name and with any value. -/
  | field (name : String)
deriving DecidableEq, Repr

namespace Entry

def name : Entry → String
  | .verbosity _ => "verbosity"
  | .unmatched _ => "unmatched"
  | .maxDepth _ => "max_depth"
  | .field name => name

/-- A level has eight bits, a limit 64. -/
def InRange : Entry → Prop
  | .verbosity level => 0 ≤ level ∧ level ≤ 255
  | .maxDepth limit => 0 ≤ limit ∧ limit < Nat.pow 2 64
  | _ => True

/-- The field is one that settings know, within its range, or has a name they do not know. -/
def Suits : Entry → Prop
  | .field name => name ∉ fieldNames
  | e => e.InRange

/-- The text is a value for the field.  A policy is written by its name, or as an object with this
name as its only key. -/
inductive Writes : Entry → List Char → Prop
  | verbosity (level : Int) : Writes (.verbosity level) (toString level).toList
  | maxDepth (limit : Int) : Writes (.maxDepth limit) (toString limit).toList
  | policy {p : UnmatchedPolicy} {body : List Char} : Spells p.word.toList body →
    Writes (.unmatched p) ('"' :: (body ++ ['"']))
  | policyKey {p : UnmatchedPolicy} {a body b c d : List Char} : Blanks a →
    Spells p.word.toList body → Blanks b → Blanks c → Blanks d →
    Writes (.unmatched p) ('{' :: ((a ++ '"' :: (body ++ '"' :: (b ++ ':' ::
      (c ++ (['n', 'u', 'l', 'l'] ++ d))))) ++ ['}']))
  | field {name : String} {v : List Char} : IsValue v → Writes (.field name) v

/-- The fields given so far, with this one. -/
def give (d : Draft) : Entry → Draft
  | .verbosity level => { d with verbosity := some level.toNat }
  | .unmatched policy => { d with unmatched := some policy }
  | .maxDepth limit => { d with maxDepth := some limit.toNat }
  | .field _ => d

end Entry

/-- The text holds these fields, in this order. -/
inductive WritesFields : List Entry → List Char → Prop
  | last {e : Entry} {a key b c v d : List Char} : Blanks a → Spells e.name.toList key → Blanks b →
    Blanks c → e.Writes v → Blanks d →
    WritesFields [e] (a ++ '"' :: (key ++ '"' :: (b ++ ':' :: (c ++ (v ++ d)))))
  | cons {e : Entry} {es : List Entry} {a key b c v d fields : List Char} : Blanks a →
    Spells e.name.toList key → Blanks b → Blanks c → e.Writes v → Blanks d →
    WritesFields es fields →
    WritesFields (e :: es) (a ++ '"' :: (key ++ '"' :: (b ++ ':' :: (c ++ (v ++
      (d ++ ',' :: fields))))))

/-- The text is an object with these fields, in this order. -/
inductive WritesObject : List Entry → List Char → Prop
  | empty {a b c : List Char} : Blanks a → Blanks b → Blanks c →
    WritesObject [] (a ++ '{' :: (b ++ '}' :: c))
  | fields {es : List Entry} {a fields c : List Char} : Blanks a → WritesFields es fields →
    Blanks c → WritesObject es (a ++ '{' :: (fields ++ '}' :: c))

/-! ## Integers -/

/-- The decimal digits of a number begin with a zero for zero only. -/
theorem eq_zero_of_head?_toDigits (n : Nat) (h : (Nat.toDigits 10 n).head? = some '0') : n = 0 := by
  induction n using Nat.strongRecOn with
  | ind n ih =>
      rw [Nat.toDigits_eq_if (by decide)] at h
      split_ifs at h with hlt
      · have hdigit : ∀ k < 10, k.digitChar = '0' → k = 0 := by decide
        exact hdigit n hlt (Option.some.inj h)
      · obtain ⟨c, cs, hcs⟩ := List.exists_cons_of_ne_nil (Nat.toDigits_ne_nil (n := n / 10))
        have hzero := ih (n / 10) (by omega) (by rw [hcs] at h ⊢; exact h)
        omega

/-- The decimal digits of a number are a number of their own. -/
theorem unsigned_toDigits (n : Nat) :
    Unsigned ⟨Nat.toDigits 10 n, none, none⟩ (Nat.toDigits 10 n) := by
  have hdigits : Digits (Nat.toDigits 10 n) :=
    ⟨Nat.toDigits_ne_nil, fun _ hc => Nat.isDigit_of_mem_toDigits (by decide) (by decide) hc⟩
  have hwhole : WholePart (Nat.toDigits 10 n) := by
    refine ⟨hdigits, fun ⟨hhead, hlength⟩ => ?_⟩
    rw [eq_zero_of_head?_toDigits n hhead, Nat.toDigits_zero] at hlength
    exact absurd hlength (by decide)
  simpa using Unsigned.mk hwhole .absent .absent

theorem digitsValue_toDigits (n : Nat) : digitsValue (Nat.toDigits 10 n) = n :=
  Nat.ofDigitChars_ten_toDigits

theorem toList_toString_natCast (n : Nat) : (toString (n : Int)).toList = Nat.toDigits 10 n := by
  rw [Int.toString_eq_repr, Int.repr_eq_if, if_pos (by omega), Int.toNat_natCast, Nat.toList_repr]

theorem toList_toString_of_neg {i : Int} (h : i < 0) :
    (toString i).toList = '-' :: Nat.toDigits 10 (-i).toNat := by
  rw [Int.toString_eq_repr, Int.repr_eq_if, if_neg (by omega), String.toList_append,
    Nat.toList_repr]
  rfl

theorem isValue_integer (i : Int) : IsValue (toString i).toList := by
  rcases Int.lt_or_le i 0 with hneg | hpos
  · rw [toList_toString_of_neg hneg]
    exact .negative (unsigned_toDigits _)
  · obtain ⟨n, rfl⟩ := Int.eq_ofNat_of_zero_le hpos
    rw [toList_toString_natCast]
    exact .number (unsigned_toDigits n)

/-! ## Natural numbers -/

section Values

variable {ws rest : List Char} (hws : Blanks ws)
include hws

theorem takeNatural_first (bound : Nat) {c : Char} (hblank : isJsonBlank c = false)
    (hc : c.isDigit = false) (rest : List Char) :
    takeNatural bound (ws ++ c :: rest) = .error (wrongKind (c :: rest)) := by
  simp [takeNatural, skipBlanks_of_blanks hws hblank, hc]

/-- A number is read as a natural number if it has neither fraction nor exponent and is in range. -/
theorem takeNatural_of_unsigned (bound : Nat) {n : NumberText} {text : List Char}
    (h : Unsigned n text) (hrest : EndsNumber rest) :
    takeNatural bound (ws ++ (text ++ rest)) =
      n.natural?.elim (.error (if n.isTooLarge then .malformed else .unsuitable)) fun value =>
        if value ≤ bound then .ok (value, rest)
        else .error (if n.isTooLarge then .malformed else .unsuitable) := by
  obtain ⟨c, cs, rfl, hc⟩ := h.first
  rw [takeNatural, List.cons_append, skipBlanks_of_blanks hws (isJsonBlank_of_isDigit hc)]
  simp only [hc, if_true, ← List.cons_append, takeNumber_of_unsigned h hrest]
  cases n.natural? <;> rfl

/-- An integer is read if it is in range, and is a fault otherwise. -/
theorem takeNatural_of_integer (bound : Nat) (i : Int) (hrest : EndsNumber rest) :
    (0 ≤ i ∧ i ≤ bound →
      takeNatural bound (ws ++ ((toString i).toList ++ rest)) = .ok (i.toNat, rest)) ∧
    (¬ (0 ≤ i ∧ i ≤ bound) →
      ∃ fault, takeNatural bound (ws ++ ((toString i).toList ++ rest)) = .error fault) := by
  rcases Int.lt_or_le i 0 with hneg | hpos
  · refine ⟨fun h => absurd h.1 (by omega), fun _ => ?_⟩
    rw [toList_toString_of_neg hneg, List.cons_append]
    exact ⟨_, takeNatural_first hws bound (by decide) (by decide) _⟩
  · obtain ⟨n, rfl⟩ := Int.eq_ofNat_of_zero_le hpos
    have hread := takeNatural_of_unsigned hws bound (unsigned_toDigits n) hrest
    rw [NumberText.natural?, if_pos ⟨rfl, rfl⟩, digitsValue_toDigits, Option.elim_some] at hread
    rw [toList_toString_natCast, hread]
    refine ⟨fun h => ?_, fun h => ?_⟩
    · rw [if_pos (show n ≤ bound by omega), Int.toNat_natCast]
    · exact ⟨_, if_neg (show ¬ n ≤ bound by omega)⟩

/-- A value of any kind that is read as a natural number is read to its end. -/
theorem takeNatural_rest {bound value : Nat} {v more : List Char} (h : IsValue v)
    (hrest : EndsNumber rest) (htake : takeNatural bound (ws ++ (v ++ rest)) = .ok (value, more)) :
    more = rest := by
  cases h with
  | number hn =>
      rw [takeNatural_of_unsigned hws bound hn hrest] at htake
      cases hn : NumberText.natural? _ with
      | none =>
          rw [hn] at htake
          cases htake
      | some n =>
          rw [hn, Option.elim_some] at htake
          split_ifs at htake
          exact (Prod.mk.inj (Except.ok.inj htake)).2.symm
  | _ =>
      rw [List.cons_append, takeNatural_first hws bound (by decide) (by decide)] at htake
      cases htake

/-! ## Policies -/

theorem takeNull_of_blanks (rest : List Char) :
    takeNull (ws ++ (['n', 'u', 'l', 'l'] ++ rest)) = .ok rest := by
  rw [takeNull, List.cons_append, skipBlanks_of_blanks hws (by decide)]
  rfl

theorem takeClosingBrace_of_blanks (rest : List Char) :
    takeClosingBrace (ws ++ '}' :: rest) = .ok rest := by
  rw [takeClosingBrace, skipBlanks_of_blanks hws (by decide)]
  rfl

theorem takePolicy_quote (rest : List Char) :
    takePolicy (ws ++ '"' :: rest) = takePolicyName rest := by
  rw [takePolicy, skipBlanks_of_blanks hws (by decide)]
  rfl

theorem takePolicy_key {a : List Char} (ha : Blanks a) (rest : List Char) :
    takePolicy (ws ++ '{' :: (a ++ '"' :: rest)) = (do
      let (policy, rest) ← takePolicyName rest
      let rest ← takeColon rest
      let rest ← takeNull rest
      let rest ← takeClosingBrace rest
      return (policy, rest)) := by
  rw [takePolicy, skipBlanks_of_blanks hws (by decide)]
  simp only [skipBlanks_of_blanks ha (c := '"') (by decide)]
  rfl

theorem takePolicy_first {c : Char} (hblank : isJsonBlank c = false) (hquote : c ≠ '"')
    (hbrace : c ≠ '{') (rest : List Char) : takePolicy (ws ++ c :: rest) = .error .malformed := by
  rw [takePolicy, skipBlanks_of_blanks hws hblank]
  simp only [if_neg hquote, if_neg hbrace]

omit hws in
theorem takePolicyName_of_spells {p : UnmatchedPolicy} {body : List Char}
    (h : Spells p.word.toList body) (rest : List Char) :
    takePolicyName (body ++ '"' :: rest) = .ok (p, rest) := by
  have hword : UnmatchedPolicy.ofWord? p.word = some p := by cases p <;> decide
  simp only [takePolicyName, takeString_of_spells h, String.ofList_toList, hword]

omit hws in
theorem takePolicyName_rest {p : UnmatchedPolicy} {body rest more : List Char} (h : IsString body)
    (htake : takePolicyName (body ++ '"' :: rest) = .ok (p, more)) : more = rest := by
  unfold takePolicyName at htake
  split at htake
  · cases htake
  · next hread =>
      split at htake
      · cases htake
      · rw [← (Prod.mk.inj (Except.ok.inj htake)).2]
        exact (takeStringFrom_rest h).1 hread

/-- A policy is read as it is written. -/
theorem takePolicy_of_writes {p : UnmatchedPolicy} {v : List Char}
    (h : (Entry.unmatched p).Writes v) (rest : List Char) :
    takePolicy (ws ++ (v ++ rest)) = .ok (p, rest) := by
  cases h with
  | policy hbody =>
      rw [List.cons_append, takePolicy_quote hws, List.append_assoc]
      exact takePolicyName_of_spells hbody rest
  | @policyKey _ a body b c d ha hbody hb hc hd =>
      simp only [List.cons_append, List.append_assoc, List.nil_append]
      have hnull : takeNull (c ++ 'n' :: 'u' :: 'l' :: 'l' :: (d ++ '}' :: rest)) =
          .ok (d ++ '}' :: rest) := takeNull_of_blanks hc _
      rw [takePolicy_key hws ha, takePolicyName_of_spells hbody, ok_bind]
      simp only [takeColon_of_blanks hb, hnull, takeClosingBrace_of_blanks hd, ok_bind]
      rfl

theorem takeNull_first {c : Char} (hblank : isJsonBlank c = false) (hc : c ≠ 'n')
    (rest : List Char) : takeNull (ws ++ c :: rest) = .error (wrongKind (c :: rest)) := by
  simp [takeNull, skipBlanks_of_blanks hws hblank, hc]

/-- A value of any kind that is read as `null` is read to its end. -/
theorem takeNull_rest {v more : List Char} (h : IsValue v)
    (htake : takeNull (ws ++ (v ++ rest)) = .ok more) : more = rest := by
  cases h with
  | null => exact Except.ok.inj (htake.symm.trans (takeNull_of_blanks hws rest))
  | number hn =>
      obtain ⟨c, cs, rfl, hc⟩ := hn.first
      rw [List.cons_append, takeNull_first hws (isJsonBlank_of_isDigit hc)
        (ne_of_isDigit hc (by decide))] at htake
      cases htake
  | _ =>
      rw [List.cons_append, takeNull_first hws (by decide) (by decide)] at htake
      cases htake

/-- Where a policy is read from an object, a closing brace is taken behind its first field. -/
theorem takeClosingBrace_of_takePolicy {p : UnmatchedPolicy} {a key b c v tail more : List Char}
    (ha : Blanks a) (hkey : IsString key) (hb : Blanks b) (hc : Blanks c) (hv : IsValue v)
    (htake : takePolicy (ws ++ '{' :: (a ++ '"' :: (key ++ '"' :: (b ++ ':' ::
      (c ++ (v ++ tail)))))) = .ok (p, more)) : takeClosingBrace tail = .ok more := by
  rw [takePolicy_key hws ha] at htake
  obtain ⟨⟨policy, r₁⟩, hname, hbehindName⟩ := bind_eq_ok.mp htake
  obtain ⟨r₂, hcolon, hbehindColon⟩ := bind_eq_ok.mp hbehindName
  obtain ⟨r₃, hnull, hbehindNull⟩ := bind_eq_ok.mp hbehindColon
  obtain ⟨r₄, hbrace, hend⟩ := bind_eq_ok.mp hbehindNull
  rw [takePolicyName_rest hkey hname, takeColon_of_blanks hb] at hcolon
  rw [← Except.ok.inj hcolon] at hnull
  rw [takeNull_rest hc hv hnull] at hbrace
  rw [hbrace, (Prod.mk.inj (Except.ok.inj hend)).2]

/-- A value of any kind that is read as a policy is read to its end. -/
theorem takePolicy_rest {p : UnmatchedPolicy} {v more : List Char} (h : IsValue v)
    (htake : takePolicy (ws ++ (v ++ rest)) = .ok (p, more)) : more = rest := by
  cases h with
  | string hbody =>
      rw [List.cons_append, takePolicy_quote hws, List.append_assoc] at htake
      exact takePolicyName_rest hbody htake
  | emptyObject hb =>
      rw [List.cons_append, List.append_assoc, List.singleton_append, takePolicy,
        skipBlanks_of_blanks hws (by decide)] at htake
      simp [skipBlanks_of_blanks hb (c := '}') (by decide)] at htake
  | object hfields =>
      cases hfields with
      | last ha hkey hb hc hv hd =>
          simp only [List.cons_append, List.append_assoc, List.nil_append] at htake
          have hbrace := takeClosingBrace_of_takePolicy hws ha hkey hb hc hv htake
          exact Except.ok.inj (hbrace.symm.trans (takeClosingBrace_of_blanks hd rest))
      | cons ha hkey hb hc hv hd _ =>
          simp only [List.cons_append, List.append_assoc, List.nil_append] at htake
          have hbrace := takeClosingBrace_of_takePolicy hws ha hkey hb hc hv htake
          rw [takeClosingBrace, skipBlanks_of_blanks hd (by decide)] at hbrace
          cases hbrace
  | number hn =>
      obtain ⟨c, cs, rfl, hc⟩ := hn.first
      rw [List.cons_append, takePolicy_first hws (isJsonBlank_of_isDigit hc)
        (ne_of_isDigit hc (by decide)) (ne_of_isDigit hc (by decide))] at htake
      cases htake
  | _ =>
      rw [List.cons_append, takePolicy_first hws (by decide) (by decide) (by decide)] at htake
      cases htake

end Values

/-! ## Single fields -/

/-- How often a field was given. -/
def Draft.times (d : Draft) (name : String) : Nat :=
  if name = "verbosity" then d.verbosity.isSome.toNat
  else if name = "unmatched" then d.unmatched.isSome.toNat
  else if name = "max_depth" then d.maxDepth.isSome.toNat
  else 0

theorem Draft.times_le (d : Draft) (name : String) : d.times name ≤ 1 := by
  unfold times
  split_ifs
  · exact Bool.toNat_le _
  · exact Bool.toNat_le _
  · exact Bool.toNat_le _
  · exact Nat.zero_le 1

theorem Entry.Writes.isValue {e : Entry} {v : List Char} (h : e.Writes v) : IsValue v := by
  cases h with
  | verbosity level => exact isValue_integer level
  | maxDepth limit => exact isValue_integer limit
  | policy hbody => exact .string hbody.isString
  | policyKey ha hbody hb hc hd => exact .object (.last ha hbody.isString hb hc .null hd)
  | field hv => exact hv

theorem inRange_maxDepth {limit : Int} :
    (Entry.maxDepth limit).InRange ↔ 0 ≤ limit ∧ limit ≤ depthBound := by
  have hbound : depthBound + 1 = Nat.pow 2 64 := by decide
  rw [Entry.InRange, ← hbound]
  omega

/-- **A field that is read is counted**: one that settings know was not given before. -/
theorem times_of_takeField {key : String} {d d' : Draft} {cs more : List Char}
    (h : takeField key d cs = .ok (d', more)) :
    ∀ name ∈ fieldNames, d'.times name = d.times name + if key = name then 1 else 0 := by
  unfold takeField at h
  split_ifs at h with hverbosity hgiven hunmatched hgiven hdepth hgiven
  all_goals
    obtain ⟨_, _, h⟩ := bind_eq_ok.mp h
    obtain ⟨_, _, h⟩ := bind_eq_ok.mp h
    obtain ⟨rfl, _⟩ := Prod.mk.inj (Except.ok.inj h)
  · simp [fieldNames, Draft.times, hverbosity, hgiven]
  · simp [fieldNames, Draft.times, hunmatched, hgiven]
  · simp [fieldNames, Draft.times, hdepth, hgiven]
  · simp [fieldNames, hverbosity, hunmatched, hdepth]

section Fields

variable {b c rest : List Char} (hb : Blanks b)
include hb

theorem takeField_verbosity (d : Draft) (cs : List Char) :
    takeField "verbosity" d (b ++ ':' :: cs) =
      if d.verbosity.isSome then .error .unsuitable
      else
        (takeNatural verbosityBound cs).map fun p => ({ d with verbosity := some p.1 }, p.2) := by
  rw [takeField, if_pos rfl, takeColon_of_blanks hb, ok_bind]
  split_ifs
  · rfl
  · cases takeNatural verbosityBound cs <;> rfl

theorem takeField_unmatched (d : Draft) (cs : List Char) :
    takeField "unmatched" d (b ++ ':' :: cs) =
      if d.unmatched.isSome then .error .unsuitable
      else (takePolicy cs).map fun p => ({ d with unmatched := some p.1 }, p.2) := by
  rw [takeField, if_neg (by decide), if_pos rfl, takeColon_of_blanks hb, ok_bind]
  split_ifs
  · rfl
  · cases takePolicy cs <;> rfl

theorem takeField_maxDepth (d : Draft) (cs : List Char) :
    takeField "max_depth" d (b ++ ':' :: cs) =
      if d.maxDepth.isSome then .error .unsuitable
      else (takeNatural depthBound cs).map fun p => ({ d with maxDepth := some p.1 }, p.2) := by
  rw [takeField, if_neg (by decide), if_neg (by decide), if_pos rfl, takeColon_of_blanks hb,
    ok_bind]
  split_ifs
  · rfl
  · cases takeNatural depthBound cs <;> rfl

theorem takeField_other {key : String} (hkey : key ∉ fieldNames) (d : Draft) (cs : List Char) :
    takeField key d (b ++ ':' :: cs) = (skipValue cs).map fun rest => (d, rest) := by
  simp only [fieldNames, List.mem_cons, List.not_mem_nil, or_false, not_or] at hkey
  rw [takeField, if_neg hkey.1, if_neg hkey.2.1, if_neg hkey.2.2, takeColon_of_blanks hb,
    ok_bind]
  cases skipValue cs <;> rfl

variable (hc : Blanks c) (hrest : EndsNumber rest)
include hc hrest

/-- A field with a value of any kind that is read is read to its end. -/
theorem takeField_rest {key : String} {d d' : Draft} {v more : List Char} (h : IsValue v)
    (htake : takeField key d (b ++ ':' :: (c ++ (v ++ rest))) = .ok (d', more)) : more = rest := by
  by_cases hkey : key ∈ fieldNames
  · simp only [fieldNames, List.mem_cons, List.not_mem_nil, or_false] at hkey
    rcases hkey with rfl | rfl | rfl
    · rw [takeField_verbosity hb] at htake
      split_ifs at htake
      obtain ⟨p, hvalue, hend⟩ := map_eq_ok.mp htake
      exact (Prod.mk.inj hend).2 ▸ takeNatural_rest hc h hrest hvalue
    · rw [takeField_unmatched hb] at htake
      split_ifs at htake
      obtain ⟨p, hvalue, hend⟩ := map_eq_ok.mp htake
      exact (Prod.mk.inj hend).2 ▸ takePolicy_rest hc h hvalue
    · rw [takeField_maxDepth hb] at htake
      split_ifs at htake
      obtain ⟨p, hvalue, hend⟩ := map_eq_ok.mp htake
      exact (Prod.mk.inj hend).2 ▸ takeNatural_rest hc h hrest hvalue
  · rw [takeField_other hb hkey, skipValue_of_isValue h hc hrest] at htake
    exact (Prod.mk.inj (Except.ok.inj htake)).2.symm

/-- A number that is read is in its range. -/
theorem inRange_of_takeField {e : Entry} {d d' : Draft} {v more : List Char} (h : e.Writes v)
    (htake : takeField e.name d (b ++ ':' :: (c ++ (v ++ rest))) = .ok (d', more)) :
    e.InRange := by
  cases h with
  | verbosity level =>
      refine Classical.byContradiction fun hrange => ?_
      obtain ⟨fault, hfault⟩ := (takeNatural_of_integer hc verbosityBound level hrest).2 hrange
      rw [Entry.name, takeField_verbosity hb, hfault] at htake
      split_ifs at htake
      cases htake
  | maxDepth limit =>
      refine Classical.byContradiction fun hrange => ?_
      have hbound : ¬ (0 ≤ limit ∧ limit ≤ depthBound) := by
        rwa [← inRange_maxDepth]
      obtain ⟨fault, hfault⟩ := (takeNatural_of_integer hc depthBound limit hrest).2 hbound
      rw [Entry.name, takeField_maxDepth hb, hfault] at htake
      split_ifs at htake
      cases htake
  | policy | policyKey | field => trivial

/-- A field that suits and was not given before is read. -/
theorem takeField_of_writes {e : Entry} {d : Draft} {v : List Char} (h : e.Writes v)
    (hsuits : e.Suits) (hfresh : e.name ∈ fieldNames → d.times e.name = 0) :
    takeField e.name d (b ++ ':' :: (c ++ (v ++ rest))) = .ok (e.give d, rest) := by
  cases e with
  | verbosity level =>
      cases h
      have hnone : d.verbosity.isSome.toNat = 0 :=
        hfresh (by simp [Entry.name, fieldNames])
      rw [Entry.name, takeField_verbosity hb,
        (takeNatural_of_integer hc verbosityBound level hrest).1 hsuits]
      rw [if_neg (by simpa using hnone)]
      rfl
  | unmatched policy =>
      have hnone : d.unmatched.isSome.toNat = 0 :=
        hfresh (by simp [Entry.name, fieldNames])
      rw [Entry.name, takeField_unmatched hb, takePolicy_of_writes hc h]
      rw [if_neg (by simpa using hnone)]
      rfl
  | maxDepth limit =>
      cases h
      have hnone : d.maxDepth.isSome.toNat = 0 :=
        hfresh (by simp [Entry.name, fieldNames])
      have hbound : 0 ≤ limit ∧ limit ≤ depthBound := inRange_maxDepth.mp hsuits
      rw [Entry.name, takeField_maxDepth hb,
        (takeNatural_of_integer hc depthBound limit hrest).1 hbound]
      rw [if_neg (by simpa using hnone)]
      rfl
  | field name =>
      cases h with
      | field hv =>
          rw [Entry.name, takeField_other hb hsuits, skipValue_of_isValue hv hc hrest]
          rfl

end Fields

/-! ## Objects -/

/-- What follows a field: the closing brace, or a comma with further fields behind it. -/
def afterField (steps : Nat) (p : Draft × List Char) : Except Fault (Draft × List Char) := do
  match ← takeFollow '}' p.2 with
  | .closed more => return (p.1, more)
  | .more more => takeFieldsWithin steps p.1 more

/-- Behind the quote of a key, the field is read by the name that the key spells. -/
theorem takeFieldsWithin_key {a key : List Char} (ha : Blanks a) {name : String}
    (hkey : Spells name.toList key) (steps : Nat) (d : Draft) (tail : List Char) :
    takeFieldsWithin (steps + 1) d (a ++ '"' :: (key ++ '"' :: tail)) =
      takeField name d tail >>= afterField steps := by
  rw [takeFieldsWithin, skipBlanks_of_blanks ha (by decide)]
  simp only [if_true, takeString_of_spells hkey, ok_bind, String.ofList_toList]
  rfl

theorem afterField_close {b : List Char} (hb : Blanks b) (steps : Nat) (d : Draft)
    (rest : List Char) : afterField steps (d, b ++ '}' :: rest) = .ok (d, rest) := by
  rw [afterField, takeFollow_close '}' (by decide) (by decide) hb]
  rfl

theorem afterField_comma {b : List Char} (hb : Blanks b) (steps : Nat) (d : Draft)
    (rest : List Char) :
    afterField steps (d, b ++ ',' :: rest) = takeFieldsWithin steps d rest := by
  rw [afterField, takeFollow_comma '}' hb]
  rfl

theorem times_eq_zero_of_count {e : Entry} {es : List Entry} {d : Draft}
    (hcount : ∀ name ∈ fieldNames, ((e :: es).map Entry.name).count name + d.times name ≤ 1)
    (hname : e.name ∈ fieldNames) : d.times e.name = 0 := by
  have hle := hcount e.name hname
  rw [List.map_cons, List.count_cons_self] at hle
  omega

/-- **Fields that suit, each given once, are read one after the other.** -/
theorem takeFieldsWithin_of_writes {es : List Entry} {fields : List Char}
    (h : WritesFields es fields) {steps : Nat} (hsteps : fields.length ≤ steps) {d : Draft}
    (hsuits : ∀ e ∈ es, e.Suits)
    (hcount : ∀ name ∈ fieldNames, (es.map Entry.name).count name + d.times name ≤ 1)
    (rest : List Char) :
    takeFieldsWithin steps d (fields ++ '}' :: rest) = .ok (es.foldl Entry.give d, rest) := by
  induction h generalizing steps d with
  | @last e a key b c v f ha hkey hb hc hv hf =>
      rw [List.length_append, List.length_cons] at hsteps
      obtain ⟨steps, rfl⟩ : ∃ n, steps = n + 1 := ⟨steps - 1, by omega⟩
      have hends := endsNumber_of_blanks hf (c := '}') (by decide) rest
      have hfield := takeField_of_writes hb hc hends hv (hsuits e (List.mem_cons_self ..))
        (times_eq_zero_of_count hcount)
      simp only [List.append_assoc, List.cons_append, takeFieldsWithin_key ha hkey, hfield, ok_bind]
      exact afterField_close hf steps _ rest
  | @cons e es a key b c v f fields ha hkey hb hc hv hf _ ih =>
      simp only [List.length_append, List.length_cons] at hsteps
      obtain ⟨steps, rfl⟩ : ∃ n, steps = n + 1 := ⟨steps - 1, by omega⟩
      have hends := endsNumber_of_blanks hf (c := ',') (by decide) (fields ++ '}' :: rest)
      have hfield := takeField_of_writes hb hc hends hv (hsuits e (List.mem_cons_self ..))
        (times_eq_zero_of_count hcount)
      simp only [List.append_assoc, List.cons_append, takeFieldsWithin_key ha hkey, hfield, ok_bind,
        afterField_comma hf]
      refine ih (by omega) (fun e' he' => hsuits e' (List.mem_cons_of_mem _ he')) ?_
      intro name hname
      have hle := hcount name hname
      rw [List.map_cons, List.count_cons] at hle
      simp only [beq_iff_eq] at hle
      rw [times_of_takeField hfield name hname]
      omega

/-- A field that is read has its number in range and is counted, and what follows it is read. -/
theorem takeFieldsWithin_field {e : Entry} {a key b c v tail : List Char} (ha : Blanks a)
    (hkey : Spells e.name.toList key) (hb : Blanks b) (hc : Blanks c) (hv : e.Writes v)
    (htail : EndsNumber tail) {steps : Nat} {d d' : Draft} {more : List Char}
    (htake : takeFieldsWithin steps d (a ++ '"' :: (key ++ '"' :: (b ++ ':' :: (c ++
      (v ++ tail))))) = .ok (d', more)) :
    ∃ steps' d₁, e.InRange ∧
      (∀ name ∈ fieldNames, d₁.times name = d.times name + if e.name = name then 1 else 0) ∧
      afterField steps' (d₁, tail) = .ok (d', more) := by
  cases steps with
  | zero => cases htake
  | succ steps =>
      rw [takeFieldsWithin_key ha hkey] at htake
      obtain ⟨⟨d₁, r⟩, hfield, hbehind⟩ := bind_eq_ok.mp htake
      rw [takeField_rest hb hc htail hv.isValue hfield] at hbehind
      exact ⟨steps, d₁, inRange_of_takeField hb hc htail hv hfield, times_of_takeField hfield,
        hbehind⟩

/-- **Fields that are read are given once, with their numbers in range.** -/
theorem takeFieldsWithin_eq_ok {es : List Entry} {fields : List Char} (h : WritesFields es fields)
    {steps : Nat} {d d' : Draft} {rest more : List Char}
    (htake : takeFieldsWithin steps d (fields ++ '}' :: rest) = .ok (d', more)) :
    (∀ e ∈ es, e.InRange) ∧
      ∀ name ∈ fieldNames, (es.map Entry.name).count name + d.times name ≤ 1 := by
  induction h generalizing steps d with
  | last ha hkey hb hc hv hf =>
      simp only [List.append_assoc, List.cons_append] at htake
      obtain ⟨_, d₁, hrange, htimes, _⟩ := takeFieldsWithin_field ha hkey hb hc hv
        (endsNumber_of_blanks hf (by decide) rest) htake
      refine ⟨List.forall_mem_singleton.mpr hrange, fun name hname => ?_⟩
      have hle := htimes name hname ▸ d₁.times_le name
      rw [List.map_cons, List.count_cons, List.map_nil, List.count_nil]
      simp only [beq_iff_eq]
      omega
  | cons ha hkey hb hc hv hf _ ih =>
      simp only [List.append_assoc, List.cons_append] at htake
      obtain ⟨_, d₁, hrange, htimes, hmore⟩ := takeFieldsWithin_field ha hkey hb hc hv
        (endsNumber_of_blanks hf (by decide) _) htake
      -- the fields behind this one are counted from where it has been given
      rw [afterField_comma hf] at hmore
      obtain ⟨hranges, hcount⟩ := ih hmore
      refine ⟨List.forall_mem_cons.mpr ⟨hrange, hranges⟩, fun name hname => ?_⟩
      have hle := htimes name hname ▸ hcount name hname
      rw [List.map_cons, List.count_cons]
      simp only [beq_iff_eq]
      omega

/-- Written fields are the fields of an object. -/
theorem WritesFields.isFields {es : List Entry} {fields : List Char} (h : WritesFields es fields) :
    IsFields fields := by
  induction h with
  | last ha hkey hb hc hv hf => exact .last ha hkey.isString hb hc hv.isValue hf
  | cons ha hkey hb hc hv hf _ ih => exact .cons ha hkey.isString hb hc hv.isValue hf ih

theorem takeObject_of_fields {es : List Entry} {fields : List Char} (h : WritesFields es fields)
    (rest : List Char) :
    takeObject (fields ++ '}' :: rest) =
      takeFieldsWithin ((fields ++ '}' :: rest).length + 1) {} (fields ++ '}' :: rest) := by
  obtain ⟨more, hmore⟩ := h.isFields.first ('}' :: rest)
  rw [takeObject, hmore]
  rfl

/-- An object between blanks is read as its fields are. -/
theorem ofJson_of_brace {text : String} {a cs : List Char} (ha : Blanks a)
    (htext : text.toList = a ++ '{' :: cs) :
    ofJson text =
      match takeObject cs with
      | .error e => .error e
      | .ok (d, rest) =>
        if (skipBlanks rest).isEmpty then .ok d.complete else .error .malformed := by
  rw [ofJson, htext, takeDraft, skipBlanks_of_blanks ha (by decide)]
  rfl

/-- **An object with fields that suit, each given once, says what its fields say.** -/
theorem ofJson_of_writes {es : List Entry} {text : String} (h : WritesObject es text.toList)
    (hsuits : ∀ e ∈ es, e.Suits)
    (hcount : ∀ name ∈ fieldNames, (es.map Entry.name).count name ≤ 1) :
    ofJson text = .ok (es.foldl Entry.give {}).complete := by
  have hend : ∀ {c : List Char}, Blanks c → (skipBlanks c).isEmpty = true := fun {c} hc => by
    rw [← List.append_nil c, skipBlanks_append hc]
    rfl
  generalize htext : text.toList = cs at h
  cases h with
  | empty ha hb hc =>
      rw [ofJson_of_brace ha htext, takeObject, skipBlanks_of_blanks hb (by decide)]
      exact if_pos (hend hc)
  | @fields _ a fields c ha hfields hc =>
      have hread : takeFieldsWithin ((fields ++ '}' :: c).length + 1) {} (fields ++ '}' :: c) =
          .ok (es.foldl Entry.give {}, c) := by
        refine takeFieldsWithin_of_writes hfields (by rw [List.length_append]; omega) hsuits ?_ c
        intro name hname
        simpa [Draft.times] using hcount name hname
      rw [ofJson_of_brace ha htext, takeObject_of_fields hfields, hread]
      exact if_pos (hend hc)

/-- **An object that is read gives no field twice**, and has its numbers in range. -/
theorem ofJson_eq_ok {es : List Entry} {text : String} (h : WritesObject es text.toList)
    {settings : Settings} (hread : ofJson text = .ok settings) :
    (∀ e ∈ es, e.InRange) ∧ ∀ name ∈ fieldNames, (es.map Entry.name).count name ≤ 1 := by
  generalize htext : text.toList = cs at h
  cases h with
  | empty ha hb hc => simp
  | fields ha hfields hc =>
      rw [ofJson_of_brace ha htext, takeObject_of_fields hfields] at hread
      split at hread
      · cases hread
      · next htake =>
          obtain ⟨hranges, hcount⟩ := takeFieldsWithin_eq_ok hfields htake
          exact ⟨hranges, fun name hname => Nat.le_of_add_right_le (hcount name hname)⟩

/-! ## Any order -/

/-- The fields that are given, in the order in which settings list them. -/
def Draft.entries (d : Draft) : List Entry :=
  (d.verbosity.map fun level : Nat => Entry.verbosity level).toList ++
    (d.unmatched.map Entry.unmatched).toList ++
    (d.maxDepth.map fun limit : Nat => Entry.maxDepth limit).toList

/-- The field says what is given, or has any value. -/
def Draft.Agrees (d : Draft) : Entry → Prop
  | .verbosity level => d.verbosity.map (fun n : Nat => (n : Int)) = some level
  | .unmatched policy => d.unmatched = some policy
  | .maxDepth limit => d.maxDepth.map (fun n : Nat => (n : Int)) = some limit
  | .field _ => True

/-- Fields that say what is given may be taken in either order. -/
theorem give_comm {given : Draft} {e f : Entry} (he : given.Agrees e) (hf : given.Agrees f)
    (d : Draft) : f.give (e.give d) = e.give (f.give d) := by
  cases e with
  | verbosity level =>
      cases f with
      | verbosity level' => rw [Option.some.inj (he.symm.trans hf)]
      | _ => rfl
  | unmatched policy =>
      cases f with
      | unmatched policy' => rw [Option.some.inj (he.symm.trans hf)]
      | _ => rfl
  | maxDepth limit =>
      cases f with
      | maxDepth limit' => rw [Option.some.inj (he.symm.trans hf)]
      | _ => rfl
  | field name => rfl

/-- The given fields, and fields with any values that have these names. -/
def Draft.written (given : Draft) (others : List String) : List Entry :=
  given.entries ++ others.map Entry.field

section Written

variable {given : Draft} {others : List String}

theorem agrees_of_mem_written {e : Entry} (h : e ∈ given.written others) : given.Agrees e := by
  cases e <;> simp_all [Draft.written, Draft.entries, Draft.Agrees]

theorem mem_others_of_mem_written {name : String} (h : Entry.field name ∈ given.written others) :
    name ∈ others := by
  simpa [Draft.written, Draft.entries] using h

theorem suits_of_mem_written (hverbosity : ∀ level, given.verbosity = some level → level ≤ 255)
    (hdepth : ∀ limit, given.maxDepth = some limit → limit < Nat.pow 2 64)
    (hothers : ∀ name ∈ others, name ∉ fieldNames) {e : Entry} (h : e ∈ given.written others) :
    e.Suits := by
  cases e with
  | verbosity level =>
      obtain ⟨n, hn, rfl⟩ := Option.map_eq_some_iff.mp (agrees_of_mem_written h)
      have hle := hverbosity n hn
      exact ⟨by omega, by omega⟩
  | unmatched policy => trivial
  | maxDepth limit =>
      obtain ⟨n, hn, rfl⟩ := Option.map_eq_some_iff.mp (agrees_of_mem_written h)
      have hlt := hdepth n hn
      exact ⟨by omega, by omega⟩
  | field name => exact hothers name (mem_others_of_mem_written h)

/-- Each field that settings know is written at most once. -/
theorem count_written_le (hothers : ∀ name ∈ others, name ∉ fieldNames) {name : String}
    (hname : name ∈ fieldNames) : ((given.written others).map Entry.name).count name ≤ 1 := by
  have hgiven : (given.entries.map Entry.name).Sublist fieldNames := by
    obtain ⟨_ | level, _ | policy, _ | limit⟩ := given <;>
      simp [Draft.entries, Entry.name, fieldNames]
  have hnodup : (given.entries.map Entry.name).Nodup := hgiven.nodup (by decide)
  have hnone : ((others.map Entry.field).map Entry.name).count name = 0 := by
    rw [List.count_eq_zero, List.map_map]
    intro h
    obtain ⟨other, hother, rfl⟩ := List.mem_map.mp h
    exact hothers other hother hname
  rw [Draft.written, List.map_append, List.count_append, hnone]
  exact List.nodup_iff_count.mp hnodup name

theorem foldl_give_written : (given.written others).foldl Entry.give {} = given := by
  have hothers : ∀ d : Draft, (others.map Entry.field).foldl Entry.give d = d := by
    intro d
    induction others with
    | nil => rfl
    | cons name others ih => exact ih
  rw [Draft.written, List.foldl_append, hothers]
  obtain ⟨_ | level, _ | policy, _ | limit⟩ := given <;> rfl

end Written

/-- **What a settings object says does not depend on how it is written.**  Any of its fields, in any
order and among any others, with any blanks between the tokens, give the settings with these fields
and the defaults of those left out.  An object that gives a field twice, or a number out of its
range, is at fault. -/
theorem settings_in_any_order (given : Draft) (others : List String)
    (hverbosity : ∀ level, given.verbosity = some level → level ≤ 255)
    (hdepth : ∀ limit, given.maxDepth = some limit → limit < Nat.pow 2 64)
    (hothers : ∀ name ∈ others, name ∉ fieldNames) :
    (∀ (entries : List Entry) (text : String), entries.Perm (given.written others) →
      WritesObject entries text.toList →
        ofJson text = .ok
          { verbosity := given.verbosity.getD 0
            unmatched := given.unmatched.getD .reject
            maxDepth := given.maxDepth.getD 128 }) ∧
    (∀ (entries : List Entry) (text : String), WritesObject entries text.toList →
      (∃ name ∈ fieldNames, 2 ≤ (entries.map Entry.name).count name) →
        ∃ fault, ofJson text = .error fault) ∧
    (∀ (entries : List Entry) (text : String), WritesObject entries text.toList →
      (∃ e ∈ entries, ¬ e.InRange) → ∃ fault, ofJson text = .error fault) := by
  refine ⟨fun entries text hperm hwrites => ?_, fun entries text hwrites htwice => ?_,
    fun entries text hwrites houtside => ?_⟩
  · have hsuits : ∀ e ∈ entries, e.Suits := fun e he =>
      suits_of_mem_written hverbosity hdepth hothers (hperm.mem_iff.mp he)
    have hcount : ∀ name ∈ fieldNames, (entries.map Entry.name).count name ≤ 1 := by
      intro name hname
      rw [(hperm.map Entry.name).count_eq]
      exact count_written_le hothers hname
    have hgiven : entries.foldl Entry.give {} = given := by
      refine (hperm.foldl_eq' (fun e he f hf d => ?_) _).trans foldl_give_written
      exact give_comm (agrees_of_mem_written (hperm.mem_iff.mp he))
        (agrees_of_mem_written (hperm.mem_iff.mp hf)) d
    rw [ofJson_of_writes hwrites hsuits hcount, hgiven]
    rfl
  · obtain ⟨name, hname, htwo⟩ := htwice
    cases hread : ofJson text with
    | error fault => exact ⟨fault, rfl⟩
    | ok settings =>
        have hone := (ofJson_eq_ok hwrites hread).2 name hname
        omega
  · obtain ⟨e, he, hrange⟩ := houtside
    cases hread : ofJson text with
    | error fault => exact ⟨fault, rfl⟩
    | ok settings => exact absurd ((ofJson_eq_ok hwrites hread).1 e he) hrange

/-- Two fields of one unknown name, with half of a pair in one of them, around a level whose key is
written with an escape; a level and a second field of its name; and the least limit out of range. -/
theorem settings_in_any_order_mixed :
    ofJson " \x7b \"note\": [ ],\"verb\\u006fsity\" :7,\n\"note\":\"\\ud800\"\x7d" =
      .ok { verbosity := 7, unmatched := .reject, maxDepth := 128 } ∧
    (∃ fault, ofJson "\x7b\"verbosity\":7,\"verbosity\":null\x7d" = .error fault) ∧
    ∃ fault, ofJson "\x7b\"max_depth\":18446744073709551616\x7d" = .error fault := by
  have hread := settings_in_any_order { verbosity := some 7 } ["note", "note"] (by simp) (by simp)
    (by decide)
  have hnil : Blanks [] := by decide
  have hblank : Blanks [' '] := by decide
  have hfeed : Blanks ['\n'] := by decide
  have hletter : CodeUnit ['0', '0', '6', 'f'] 111 :=
    .mk (w := 0) (x := 0) (y := 6) (z := 15) rfl rfl rfl rfl
  have hhalf : CodeUnit ['d', '8', '0', '0'] 0xD800 :=
    .mk (w := 13) (x := 8) (y := 0) (z := 0) rfl rfl rfl rfl
  have hnote : Spells "note".toList "note".toList := .append "note".toList (by decide) .nil
  have hlimit : Spells "max_depth".toList "max_depth".toList :=
    .append "max_depth".toList (by decide) .nil
  have hlevel : Spells "verbosity".toList "verbosity".toList :=
    .append "verbosity".toList (by decide) .nil
  have hescaped : Spells "verbosity".toList "verb\\u006fsity".toList :=
    .append "verb".toList (by decide) (.unit hletter (by decide)
      (.append "sity".toList (by decide) .nil))
  refine ⟨hread.1 [.field "note", .verbosity 7, .field "note"] _ (by decide) ?_,
    hread.2.1 [.verbosity 7, .field "verbosity"] _ ?_ ⟨"verbosity", by decide, by decide⟩,
    hread.2.2 [.maxDepth 18446744073709551616] _ ?_ ⟨_, List.mem_singleton_self _, fun h => ?_⟩⟩
  · have hwrites : WritesObject [.field "note", .verbosity 7, .field "note"] _ := .fields hblank
      (.cons hblank hnote hnil hblank (.field (.emptyArray hblank)) hnil
        (.cons hnil hescaped hblank hnil (.verbosity 7) hnil
          (.last hfeed hnote hnil hnil (.field (.string (.unit hhalf .nil))) hnil))) hnil
    exact Eq.subst (motive := WritesObject _) (by decide) hwrites
  · have hwrites : WritesObject [.verbosity 7, .field "verbosity"] _ := .fields hnil
      (.cons hnil hlevel hnil hnil (.verbosity 7) hnil
        (.last hnil hlevel hnil hnil (.field .null) hnil)) hnil
    exact Eq.subst (motive := WritesObject _) (by decide) hwrites
  · have hwrites : WritesObject [.maxDepth 18446744073709551616] _ := .fields hnil
      (.last hnil hlimit hnil hnil (.maxDepth 18446744073709551616) hnil) hnil
    exact Eq.subst (motive := WritesObject _) (by decide) hwrites
  · exact absurd h.2 (by decide)

end ScopeFront.Settings
