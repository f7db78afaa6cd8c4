import ScopeFront.Json
import ScopeFront.Proofs.QuotedText

/-!
# The text of a JSON value

Every value shows by itself where it ends, and its first character tells which kind of value it is.
So a text says which value it was printed from, also with further text behind it.  The strings are
read back by the reader of the settings.

* `Settings.takeString_escaped` – a string is read back;
* `prettyAt_append_inj` – a value is told from what stands behind it;
* `pretty_inj` – values with the same text are the same.
-/

set_option autoImplicit false

namespace ScopeFront

/-! ## Strings -/

/-- The four digits of a control character. -/
theorem Json.escapeByNumber_eq {c : Char} (h : c.toNat < 32) :
    escapeByNumber c =
      ['\\', 'u', '0', '0', (c.toNat / 16).digitChar, (c.toNat % 16).digitChar] := by
  have hall : ∀ n < 32, '\\' :: 'u' :: (List.replicate (4 - (Nat.toDigits 16 n).length) '0' ++
      Nat.toDigits 16 n) = ['\\', 'u', '0', '0', (n / 16).digitChar, (n % 16).digitChar] := by
    decide
  exact hall c.toNat h

namespace Settings

/-- Four characters are enough for a code unit. -/
theorem lacksUnit_four (a b c d : Char) (rest : List Char) :
    lacksUnit (a :: b :: c :: d :: rest) = false := by
  have ha := a.utf8Size_pos
  have hb := b.utf8Size_pos
  have hc := c.utf8Size_pos
  have hd := d.utf8Size_pos
  refine decide_eq_false ?_
  simp only [List.foldr_cons]
  omega

section Reader

variable {paired : Bool}

theorem takeStringFrom_unit (a b c d : Char) (rest : List Char) :
    takeStringFrom paired .plain ('\\' :: 'u' :: a :: b :: c :: d :: rest) =
      takeStringFrom paired (.digits none 0 4) (a :: b :: c :: d :: rest) := by
  rw [takeStringFrom, if_neg (by decide), if_pos rfl, takeStringFrom]
  have hescape : simpleEscape? 'u' = none := by decide
  simp only [hescape, lacksUnit_four]
  rfl

theorem takeStringFrom_digit {high : Option Nat} {c : Char} {d : Nat} (h : hexValue? c = some d)
    (value left : Nat) (rest : List Char) :
    takeStringFrom paired (.digits high value (left + 2)) (c :: rest) =
      takeStringFrom paired (.digits high (16 * value + d) (left + 1)) rest := by
  rw [takeStringFrom, h]
  exact if_neg (by omega)

theorem takeStringFrom_lastDigit {high : Option Nat} {c : Char} {d : Nat} (h : hexValue? c = some d)
    (value : Nat) (rest : List Char) :
    takeStringFrom paired (.digits high value 1) (c :: rest) =
      (afterUnit paired high (16 * value + d)).bind fun p =>
        (takeStringFrom paired p.2 rest).map fun q => (p.1.toList ++ q.1, q.2) := by
  rw [takeStringFrom, h]
  simp only [Nat.le_refl, if_true]
  cases afterUnit paired high (16 * value + d) with
  | error e => rfl
  | ok p =>
      simp only [Except.bind]
      cases takeStringFrom paired p.2 rest <;> rfl

/-- A character is read back from the letter that stands for it. -/
theorem takeStringFrom_letter {letter c : Char} (h : simpleEscape? letter = some c)
    (rest : List Char) :
    takeStringFrom paired .plain (['\\', letter] ++ rest) =
      (takeStringFrom paired .plain rest).map fun p => (c :: p.1, p.2) := by
  rw [List.cons_append, takeStringFrom, if_neg (by decide), if_pos rfl, List.singleton_append,
    takeStringFrom, h]
  cases takeStringFrom paired .plain rest <;> rfl

/-- A character that needs no backslash stands for itself. -/
theorem takeStringFrom_plain {c : Char} (hquote : c ≠ '"') (hslash : c ≠ '\\')
    (hcontrol : ¬ c.toNat < 32) (rest : List Char) :
    takeStringFrom paired .plain (c :: rest) =
      (takeStringFrom paired .plain rest).map fun p => (c :: p.1, p.2) := by
  rw [takeStringFrom, if_neg hquote, if_neg hslash, if_neg hcontrol]
  cases takeStringFrom paired .plain rest <;> rfl

end Reader

/-- A control character is read back from its number. -/
theorem takeStringFrom_escapeByNumber {c : Char} (h : c.toNat < 32) (rest : List Char) :
    takeStringFrom true .plain (Json.escapeByNumber c ++ rest) =
      (takeStringFrom true .plain rest).map fun p => (c :: p.1, p.2) := by
  have hzero : hexValue? '0' = some 0 := by decide
  have hhigh := hexValue?_digitChar (c.toNat / 16) (by omega)
  have hlow := hexValue?_digitChar (c.toNat % 16) (by omega)
  have hunit : afterUnit true none (16 * (16 * (16 * (16 * 0 + 0) + 0) + c.toNat / 16) +
      c.toNat % 16) = .ok (some c, .plain) := by
    have hvalue : 16 * (16 * (16 * (16 * 0 + 0) + 0) + c.toNat / 16) + c.toNat % 16 = c.toNat := by
      omega
    have hwhole : unitClass c.toNat = .whole := by
      rw [unitClass, if_neg (by omega), if_neg (by omega)]
    simp only [hvalue, afterUnit, hwhole, Char.ofNat_toNat]
    rfl
  rw [Json.escapeByNumber_eq h]
  calc
    _ = takeStringFrom true (.digits none 0 4) _ := takeStringFrom_unit _ _ _ _ _
    _ = takeStringFrom true (.digits none _ 3) _ := takeStringFrom_digit hzero _ 2 _
    _ = takeStringFrom true (.digits none _ 2) _ := takeStringFrom_digit hzero _ 1 _
    _ = takeStringFrom true (.digits none _ 1) _ := takeStringFrom_digit hhigh _ 0 _
    _ = _ := takeStringFrom_lastDigit hlow _ rest
    _ = _ := by rw [hunit]; rfl

/-- **A character is read back**, whatever stands behind it. -/
theorem takeStringFrom_escapeChar (c : Char) (rest : List Char) :
    takeStringFrom true .plain (Json.escapeChar c ++ rest) =
      (takeStringFrom true .plain rest).map fun p => (c :: p.1, p.2) := by
  unfold Json.escapeChar
  split_ifs with hquote hslash hback hform hfeed hreturn htab hcontrol
  · exact takeStringFrom_letter (by rw [hquote]; decide) rest
  · exact takeStringFrom_letter (by rw [hslash]; decide) rest
  · exact takeStringFrom_letter (by rw [hback]; decide) rest
  · exact takeStringFrom_letter (by rw [hform]; decide) rest
  · exact takeStringFrom_letter (by rw [hfeed]; decide) rest
  · exact takeStringFrom_letter (by rw [hreturn]; decide) rest
  · exact takeStringFrom_letter (by rw [htab]; decide) rest
  · exact takeStringFrom_escapeByNumber hcontrol rest
  · exact takeStringFrom_plain hquote hslash hcontrol rest

/-- **A string is read back**, up to its closing quote. -/
theorem takeString_escaped (text rest : List Char) :
    takeString (text.flatMap Json.escapeChar ++ '"' :: rest) = .ok (text, rest) := by
  unfold takeString
  induction text with
  | nil => rw [List.flatMap_nil, List.nil_append, takeStringFrom, if_pos rfl]
  | cons c text ih =>
      rw [List.flatMap_cons, List.append_assoc, takeStringFrom_escapeChar, ih]
      rfl

end Settings

namespace Json

theorem toList_stringText (text : String) :
    (stringText text).toList = '"' :: (text.toList.flatMap escapeChar ++ ['"']) :=
  String.toList_ofList

/-- A string is told from what stands behind it. -/
theorem stringText_append_inj {text text' : String} {rest rest' : List Char}
    (h : (stringText text).toList ++ rest = (stringText text').toList ++ rest') :
    text = text' ∧ rest = rest' := by
  rw [toList_stringText, toList_stringText, List.cons_append, List.cons_append, List.append_assoc,
    List.append_assoc] at h
  have hread := congrArg Settings.takeString (List.cons.inj h).2
  rw [List.singleton_append, List.singleton_append, Settings.takeString_escaped,
    Settings.takeString_escaped] at hread
  obtain ⟨htext, hrest⟩ := Prod.mk.inj (Except.ok.inj hread)
  exact ⟨String.toList_injective htext, hrest⟩

/-! ## Values -/

theorem toList_newline (depth : Nat) :
    (newline depth).toList = '\n' :: List.replicate (2 * depth) ' ' := by
  simp [newline]

theorem toList_moreItems (depth : Nat) (item : Json) (items : List Json) :
    (moreItems depth (item :: items)).toList =
      ',' :: ((newline depth).toList ++ ((prettyAt depth item).toList ++
        (moreItems depth items).toList)) := by
  simp [moreItems]

theorem toList_moreFields (depth : Nat) (key : String) (value : Json)
    (fields : List (String × Json)) :
    (moreFields depth ((key, value) :: fields)).toList =
      ',' :: ((newline depth).toList ++ ((stringText key).toList ++ (':' :: ' ' ::
        ((prettyAt depth value).toList ++ (moreFields depth fields).toList)))) := by
  simp [moreFields]

/-- The text of an array or object, from the text of its parts with a comma before each. -/
def enclosed (opening closing : Char) (depth : Nat) : List Char → List Char
  | [] => [opening, closing]
  | _ :: parts => opening :: (parts ++ ((newline depth).toList ++ [closing]))

theorem toList_array (depth : Nat) (items : List Json) :
    (prettyAt depth (.array items)).toList =
      enclosed '[' ']' depth (moreItems (depth + 1) items).toList := by
  cases items with
  | nil => simp [prettyAt, moreItems, enclosed]
  | cons item items => simp [prettyAt, toList_moreItems, enclosed]

theorem toList_object (depth : Nat) (fields : List (String × Json)) :
    (prettyAt depth (.object fields)).toList =
      enclosed '\x7b' '\x7d' depth (moreFields (depth + 1) fields).toList := by
  cases fields with
  | nil => simp [prettyAt, moreFields, enclosed]
  | cons field fields =>
      obtain ⟨key, value⟩ := field
      simp [prettyAt, toList_moreFields, enclosed]

theorem head?_enclosed (opening closing : Char) (depth : Nat) (parts : List Char) :
    (enclosed opening closing depth parts).head? = some opening := by
  cases parts <;> rfl

/-- There are no parts, or the first of them stands on a line of its own. -/
def BeginsLine (parts : List Char) : Prop := parts = [] ∨ ∃ more, parts = ',' :: '\n' :: more

theorem beginsLine_moreItems (depth : Nat) (items : List Json) :
    BeginsLine (moreItems depth items).toList := by
  cases items with
  | nil => exact .inl rfl
  | cons item items => exact .inr ⟨_, by rw [toList_moreItems, toList_newline, List.cons_append]⟩

theorem beginsLine_moreFields (depth : Nat) (fields : List (String × Json)) :
    BeginsLine (moreFields depth fields).toList := by
  cases fields with
  | nil => exact .inl rfl
  | cons field fields =>
      exact .inr ⟨_, by rw [toList_moreFields, toList_newline, List.cons_append]⟩

/-- The parts of an array or object are followed by a line break, or there are none. -/
theorem parts_of_enclosed {opening closing : Char} {depth : Nat}
    {parts parts' rest rest' : List Char} (hclosing : closing ≠ '\n') (hparts : BeginsLine parts)
    (hparts' : BeginsLine parts')
    (h : enclosed opening closing depth parts ++ rest =
      enclosed opening closing depth parts' ++ rest') :
    ∃ more more', parts ++ '\n' :: more = parts' ++ '\n' :: more' ∧
      (more = more' → rest = rest') := by
  rcases hparts with rfl | ⟨ps, rfl⟩ <;> rcases hparts' with rfl | ⟨ps', rfl⟩
  · exact ⟨rest, rest', congrArg (List.cons '\n') (List.append_cancel_left h), id⟩
  · simp [enclosed, hclosing] at h
  · simp [enclosed, hclosing.symm] at h
  · simp only [enclosed, toList_newline, List.cons_append, List.append_assoc, List.nil_append,
      List.cons.injEq, true_and] at h
    refine ⟨List.replicate (2 * depth) ' ' ++ closing :: rest,
      List.replicate (2 * depth) ' ' ++ closing :: rest', ?_, ?_⟩
    · rw [List.cons_append, List.cons_append, List.cons_append, List.cons_append, h]
    · intro hclose
      exact (List.cons.inj (List.append_cancel_left hclose)).2

/-- The first character of a value's text. -/
def firstChar : Json → Char
  | .null => 'n'
  | .string _ => '"'
  | .array _ => '['
  | .object _ => '\x7b'

theorem head?_prettyAt (depth : Nat) (v : Json) :
    (prettyAt depth v).toList.head? = some v.firstChar := by
  cases v with
  | null => simp [prettyAt, firstChar]
  | string text => rw [prettyAt, toList_stringText]; rfl
  | array items => rw [toList_array, head?_enclosed]; rfl
  | object fields => rw [toList_object, head?_enclosed]; rfl

/-- The first character tells the kinds of values apart. -/
theorem firstChar_eq {depth : Nat} {v w : Json} {rest rest' : List Char}
    (h : (prettyAt depth v).toList ++ rest = (prettyAt depth w).toList ++ rest') :
    v.firstChar = w.firstChar := by
  have hhead := congrArg List.head? h
  rw [List.head?_append, List.head?_append, head?_prettyAt, head?_prettyAt] at hhead
  exact Option.some.inj hhead

mutual

/-- A value is told from what stands behind it. -/
theorem prettyAt_append_inj {depth : Nat} (v w : Json) {rest rest' : List Char}
    (h : (prettyAt depth v).toList ++ rest = (prettyAt depth w).toList ++ rest') :
    v = w ∧ rest = rest' := by
  have hfirst := firstChar_eq h
  cases v with
  | null =>
      cases w with
      | null => exact ⟨rfl, List.append_cancel_left h⟩
      | _ => simp [firstChar] at hfirst
  | string text =>
      cases w with
      | string text' =>
          rw [prettyAt, prettyAt] at h
          obtain ⟨rfl, hrest⟩ := stringText_append_inj h
          exact ⟨rfl, hrest⟩
      | _ => simp [firstChar] at hfirst
  | array items =>
      cases w with
      | array items' =>
          rw [toList_array, toList_array] at h
          obtain ⟨more, more', hitems, hrest⟩ := parts_of_enclosed (by decide)
            (beginsLine_moreItems _ items) (beginsLine_moreItems _ items') h
          obtain ⟨rfl, hmore⟩ := moreItems_append_inj items items' hitems
          exact ⟨rfl, hrest hmore⟩
      | _ => simp [firstChar] at hfirst
  | object fields =>
      cases w with
      | object fields' =>
          rw [toList_object, toList_object] at h
          obtain ⟨more, more', hfields, hrest⟩ := parts_of_enclosed (by decide)
            (beginsLine_moreFields _ fields) (beginsLine_moreFields _ fields') h
          obtain ⟨rfl, hmore⟩ := moreFields_append_inj fields fields' hfields
          exact ⟨rfl, hrest hmore⟩
      | _ => simp [firstChar] at hfirst

/-- Items are told from the line break behind them. -/
theorem moreItems_append_inj {depth : Nat} (vs ws : List Json) {rest rest' : List Char}
    (h : (moreItems depth vs).toList ++ '\n' :: rest = (moreItems depth ws).toList ++ '\n' :: rest') :
    vs = ws ∧ rest = rest' := by
  cases vs with
  | nil =>
      cases ws with
      | nil => exact ⟨rfl, by simpa using h⟩
      | cons w ws => simp [moreItems] at h
  | cons v vs =>
      cases ws with
      | nil => simp [moreItems] at h
      | cons w ws =>
          simp only [toList_moreItems, List.cons_append, List.append_assoc, List.cons.injEq,
            true_and, List.append_cancel_left_eq] at h
          obtain ⟨rfl, hmore⟩ := prettyAt_append_inj v w h
          obtain ⟨rfl, hrest⟩ := moreItems_append_inj vs ws hmore
          exact ⟨rfl, hrest⟩

/-- Fields are told from the line break behind them. -/
theorem moreFields_append_inj {depth : Nat} (fs gs : List (String × Json)) {rest rest' : List Char}
    (h : (moreFields depth fs).toList ++ '\n' :: rest =
      (moreFields depth gs).toList ++ '\n' :: rest') :
    fs = gs ∧ rest = rest' := by
  cases fs with
  | nil =>
      cases gs with
      | nil => exact ⟨rfl, by simpa using h⟩
      | cons g gs => simp [moreFields] at h
  | cons f fs =>
      cases gs with
      | nil => simp [moreFields] at h
      | cons g gs =>
          obtain ⟨key, v⟩ := f
          obtain ⟨key', w⟩ := g
          simp only [toList_moreFields, List.cons_append, List.append_assoc, List.cons.injEq,
            true_and, List.append_cancel_left_eq] at h
          obtain ⟨rfl, hvalue⟩ := stringText_append_inj h
          simp only [List.cons.injEq, true_and] at hvalue
          obtain ⟨rfl, hmore⟩ := prettyAt_append_inj v w hvalue
          obtain ⟨rfl, hrest⟩ := moreFields_append_inj fs gs hmore
          exact ⟨rfl, hrest⟩

end

/-- **Values with the same text are the same.** -/
theorem pretty_inj {v w : Json} : v.pretty = w.pretty ↔ v = w := by
  constructor
  · intro h
    have htext : (prettyAt 0 v).toList ++ [] = (prettyAt 0 w).toList ++ [] :=
      congrArg (fun text : String => text.toList ++ []) h
    exact (prettyAt_append_inj v w htext).1
  · rintro rfl
    rfl

end Json

end ScopeFront
