import ScopeFront.Proofs.Parser.Language
import ScopeFront.Proofs.Parser.Steps

/-!
# What a rule reads

A rule reads a language when each of its runs ends in one of three ways: it has read a phrase of
the language and stands at the depth it started from; it has just read a bracket that opens a level
too many; or it refuses the token at its place, and what it has read up to there is the beginning
of some phrase of the language.

* `Outcome`, `Rule.Reads` – the three ways, and the rules that always end in one of them;
* `Rule.Reads.bind`, `Outcome.nested`, `Rule.Reads.many`, … – how the languages of rules are put
  together.
-/

set_option autoImplicit false

namespace ScopeFront

/-! ## The ways a run can end -/

/-- Whether the error refuses the token `t`. -/
def ParseError.Refuses : ParseError → Token → Prop
  | .expected _ found, t => found = .ofToken t
  | .unexpectedToken found _, t => found = .ofToken t
  | .tooDeep .., _ => False

/-- What a run from `p` on that reads `L` ends in. -/
inductive Outcome {α : Type} (L : Language α) (p : Parser) : Parser × Except ParseError α → Prop
  /-- A phrase was read. -/
  | read {q : Parser} {ts : List Token} {a : α} :
    p.Reaches ts q → q.depth = p.depth → L.words p.room ts a → Outcome L p (q, .ok a)
  /-- The last token read opens a level too many. -/
  | tooDeep {q : Parser} {ts : List Token} {t : Token} :
    p.Reaches (ts ++ [t]) q → t.isSymbol '(' = true ∨ t.isSymbol '{' = true →
    Outcome L p (q, .error (.tooDeep (.ofToken t) p.limit))
  /-- The tokens read begin a phrase, which the next token does not continue. -/
  | refused {q : Parser} {ts us : List Token} {n : Nat} {a : α} {e : ParseError} :
    p.Reaches ts q → e.Refuses q.peek → L.words n (ts ++ us) a → (∀ t ∈ us, t.isEof = false) →
    Outcome L p (q, .error e)

namespace Outcome

variable {α β : Type} {L : Language α}

/-- An outcome behind tokens that were read before. -/
theorem prepend {M N : Language α} {p q : Parser} {ts : List Token}
    {x : Parser × Except ParseError α} (h : p.Reaches ts q) (hd : q.depth = p.depth)
    (hx : Outcome M q x)
    (hw : ∀ {n us a}, p.room ≤ n → M.words n us a → N.words n (ts ++ us) a) : Outcome N p x := by
  have hroom := h.room_eq hd
  cases hx with
  | read h' hd' ha =>
      rw [hroom] at ha
      exact .read (h.trans h') (hd'.trans hd) (hw (Nat.le_refl _) ha)
  | tooDeep h' ht =>
      rw [h.limit]
      have hts := h.trans h'
      rw [← List.append_assoc] at hts
      exact .tooDeep hts ht
  | @refused _ us vs n a _ h' he ha hvs =>
      -- the levels of the completed phrase have to do for the tokens read before as well
      have hmax := hw (Nat.le_max_right n p.room) (M.mono (Nat.le_max_left n p.room) ha)
      rw [← List.append_assoc] at hmax
      exact .refused (h.trans h') he hmax hvs

theorem weaken {M : Language α} {p : Parser} {x : Parser × Except ParseError α}
    (hx : Outcome L p x) (hw : ∀ {n ts a}, L.words n ts a → M.words n ts a) : Outcome M p x :=
  prepend (.refl p) rfl hx (fun _ ha => hw ha)

theorem logged {p : Parser} {event : Event} {x : Parser × Except ParseError α}
    (hx : Outcome L (p.logging event) x) : Outcome L p x :=
  prepend (p.reaches_logging event) rfl hx (fun _ ha => ha)

theorem bind {M : α → Language β} {r : Rule α} {f : α → Rule β} {p : Parser}
    (hp : p.Proper) (hr : Outcome L p (r p))
    (hf : ∀ a q, r p = (q, .ok a) → q.Proper → q.room = p.room → Outcome (M a) q (f a q)) :
    Outcome (L.seq M) p ((r >>= f) p) := by
  generalize hx : r p = x at hr
  cases hr with
  | @read q ts a h hd ha =>
      rw [Rule.bind_apply_ok hx]
      refine prepend h hd (hf a q hx (hp.of_reaches h) (h.room_eq hd)) ?_
      intro n us b hn hb
      exact ⟨ts, us, a, rfl, L.mono hn ha, hb⟩
  | tooDeep h ht =>
      rw [Rule.bind_apply_error hx]
      exact .tooDeep h ht
  | @refused q ts us n a e h he ha hus =>
      rw [Rule.bind_apply_error hx]
      obtain ⟨m, vs, b, hb, hvs⟩ := (M a).inhabited
      have hseq : (L.seq M).words (max n m) (ts ++ (us ++ vs)) b :=
        ⟨ts ++ us, vs, a, by rw [List.append_assoc], L.mono (Nat.le_max_left n m) ha,
          (M a).mono (Nat.le_max_right n m) hb⟩
      exact .refused h he hseq (List.forall_mem_append.2 ⟨hus, hvs⟩)

/-- A refusal where nothing was read: nothing is the beginning of some phrase. -/
theorem refuse (L : Language α) {p q : Parser} {e : ParseError} (h : p.Reaches [] q)
    (he : e.Refuses q.peek) : Outcome L p (q, .error e) := by
  obtain ⟨n, ts, a, ha, hts⟩ := L.inhabited
  rw [← List.nil_append ts] at ha
  exact .refused h he ha hts

/-- An outcome behind the token at the place. -/
theorem behind {M : Language α} {p : Parser} {x : Parser × Except ParseError α}
    (hp : p.Proper) (ht : p.peek.isEof = false) (hx : Outcome L p.next x)
    (hw : ∀ {n us a}, p.room ≤ n → L.words n us a → M.words n (p.peek :: us) a) :
    Outcome M p x := by
  obtain ⟨later, ha⟩ := hp.exists_ahead ht
  exact prepend (Parser.reaches_next ha) p.next_depth hx hw

/-- The token at the place was read as a phrase. -/
theorem taken {p : Parser} (hp : p.Proper) (ht : p.peek.isEof = false) {a : α}
    (ha : L.words p.room [p.peek] a) : Outcome L p (p.next, .ok a) := by
  obtain ⟨later, hl⟩ := hp.exists_ahead ht
  exact .read (Parser.reaches_next hl) p.next_depth ha

end Outcome

namespace Rule

variable {α β : Type} {n : Nat}

/-! ## Rules that read languages -/

/-- Every run of the rule, with `n` levels left to open, ends as `Outcome` says. -/
def Reads (r : Rule α) (n : Nat) (L : Language α) : Prop :=
  ∀ p : Parser, p.Proper → p.room = n → Outcome L p (r p)

namespace Reads

theorem weaken {L M : Language α} {r : Rule α} (hr : r.Reads n L)
    (hw : ∀ {m ts a}, L.words m ts a → M.words m ts a) : r.Reads n M :=
  fun p hp hn => (hr p hp hn).weaken hw

theorem bind {L : Language α} {M : α → Language β} {r : Rule α} {f : α → Rule β}
    (hr : r.Reads n L) (hf : ∀ a, (f a).Reads n (M a)) : (r >>= f).Reads n (L.seq M) :=
  fun p hp hn => (hr p hp hn).bind hp fun a q _ hq hroom => hf a q hq (hroom.trans hn)

theorem pure (a : α) : (Pure.pure a : Rule α).Reads n (.unit a) :=
  fun p _ _ => .read (.refl p) rfl ⟨rfl, rfl⟩

/-- Logging is no part of what is read. -/
theorem logging {L : Language α} {r : Rule α} (hr : r.Reads n L) (event : Event) :
    (do update (·.logging event); r).Reads n L :=
  fun p hp hn => .logged (hr _ (hp.of_reaches (p.reaches_logging event)) hn)

theorem logged {L : Language α} {r : Rule α} (hr : r.Reads n L) (message : String) :
    (do logDetail message; r).Reads n L :=
  hr.logging _

theorem failExpected (L : Language α) (what : String) :
    (Rule.failExpected what : Rule α).Reads n L :=
  fun _ _ _ => .refuse L (Parser.reaches_logging _ _) rfl

theorem failUnexpected (L : Language α) (context : String) :
    (Rule.failUnexpected context : Rule α).Reads n L :=
  fun _ _ _ => .refuse L (Parser.reaches_logging _ _) rfl

theorem expectSymbol (c : Char) (context : String) :
    (Rule.expectSymbol c context).Reads n (.symbol c) := by
  intro p hp hn
  rw [expectSymbol_apply]
  split
  · rename_i hc
    exact .taken hp (Token.isEof_of_isSymbol hc) ⟨rfl, hc⟩
  · exact failExpected _ _ p hp hn

theorem expectIdentifier (what : String) : (Rule.expectIdentifier what).Reads n .name := by
  intro p hp hn
  rw [expectIdentifier_apply]
  split
  · rename_i hk
    exact .taken hp (Token.isEof_eq_false hk (by decide)) ⟨p.peek, rfl, hk, rfl⟩
  · exact failExpected _ _ p hp hn

theorem expectType (what : String) : (Rule.expectType what).Reads n .type := by
  intro p hp hn
  rw [expectType_apply]
  split
  · rename_i type ht
    rw [typeOf?_eq_some] at ht
    exact .taken hp (Token.isEof_eq_false ht.1 (by decide)) ⟨p.peek, rfl, ht⟩
  · exact failExpected _ _ p hp hn

/-- A rule behind the token at the place. -/
theorem behind {L M : Language α} {r : Rule α} (hr : r.Reads n L) {p : Parser} (hp : p.Proper)
    (hn : p.room = n) (ht : p.peek.isEof = false)
    (hw : ∀ {m ts a}, L.words m ts a → M.words m (p.peek :: ts) a) : Outcome M p (r p.next) := by
  obtain ⟨hp', hn', _⟩ := hp.next ht
  exact .behind hp ht (hr p.next hp' (hn'.trans hn)) fun _ ha => hw ha

/-- A rule behind the two tokens at the place. -/
theorem behind_two {L M : Language α} {r : Rule α} (hr : r.Reads n L) {p : Parser} (hp : p.Proper)
    (hn : p.room = n) (ht : p.peek.isEof = false) (ht' : p.next.peek.isEof = false)
    (hw : ∀ {m ts a}, L.words m ts a → M.words m (p.peek :: p.next.peek :: ts) a) :
    Outcome M p (r p.next.next) := by
  obtain ⟨hp', hn', _⟩ := hp.next ht
  obtain ⟨hp'', hn'', _⟩ := hp'.next ht'
  have hr' := hr p.next.next hp'' (hn''.trans (hn'.trans hn))
  have hreach := (hp.reaches_next ht).trans (hp'.reaches_next ht')
  exact .prepend hreach (p.next.next_depth.trans p.next_depth) hr' fun _ ha => hw ha

/-- A choice by the symbol at the place. -/
theorem ifSymbol {L M N : Language α} {c : Char} {r s : Rule α} (hr : r.Reads n L)
    (hs : s.Reads n M)
    (hL : ∀ {m t ts a}, t.isSymbol c = true → L.words m ts a → N.words m (t :: ts) a)
    (hM : ∀ {m ts a}, M.words m ts a → N.words m ts a) :
    (do if ← matchSymbol c then r else s : Rule α).Reads n N := by
  intro p hp hn
  rw [matchSymbol_bind]
  split
  · rename_i hc
    exact hr.behind hp hn (Token.isEof_of_isSymbol hc) (hL hc)
  · exact (hs p hp hn).weaken hM

theorem closed {L : Language α} {inner : Rule α} (h : inner.Reads n L) (close : Char)
    (context : String) :
    (Rule.closed inner close context).Reads n
      (L.seq fun a => (Language.symbol close).seq fun _ => .unit a) :=
  h.bind fun a => (expectSymbol close context).bind fun _ => pure a

end Reads

end Rule

/-- Behind a bracket that opens a level, `inner` has a level less to open. -/
theorem Outcome.nested {α : Type} {L M : Language α} {inner : Rule α} {close : Char}
    {context : String} {p : Parser} (hp : p.Proper)
    (hopen : p.peek.isSymbol '(' = true ∨ p.peek.isSymbol '{' = true)
    (hinner : ∀ m, p.room = m + 1 → inner.Reads m L)
    (hw : ∀ {m ts c a}, L.words m ts a → c.isSymbol close = true →
      M.words (m + 1) (p.peek :: (ts ++ [c])) a) :
    Outcome M p (Rule.nested inner close context p.next) := by
  have ht := hopen.elim Token.isEof_of_isSymbol Token.isEof_of_isSymbol
  have hnext := hp.reaches_next ht
  by_cases hle : p.limit ≤ p.depth
  · obtain ⟨q, hq, hr, _⟩ := Rule.nested_apply_of_le inner close context hp ht hle
    rw [hq]
    have hts : p.Reaches ([] ++ [p.peek]) q := hr
    exact .tooDeep hts hopen
  · have hlt : p.next.depth < p.next.limit := by rw [hnext.limit, p.next_depth]; omega
    obtain ⟨m, hm⟩ : ∃ m, p.room = m + 1 := ⟨p.room - 1, by unfold Parser.room; omega⟩
    have hroom : p.next.deeper.room = m :=
      Parser.room_deeper ((hnext.room_eq p.next_depth).trans hm)
    have hstart : p.Reaches [p.peek] p.next.deeper := hnext.trans p.next.reaches_deeper
    have hword : ∀ {k us a}, (L.seq fun a => (Language.symbol close).seq fun _ => .unit a).words
        k us a → M.words (k + 1) (p.peek :: us) a := by
      rintro k us a ⟨ts, _, _, rfl, hts, _, _, c, rfl, ⟨rfl, hc⟩, rfl, rfl⟩
      exact hw hts hc
    rw [Rule.nested_apply_of_lt inner close context hlt]
    have hx := (hinner m hm).closed close context _ (hp.of_reaches hstart) hroom
    generalize Rule.closed inner close context p.next.deeper = x at hx
    cases hx with
    | @read q us a h hd hus =>
        obtain ⟨hback, hdepth⟩ := h.shallower hd
        refine .read (hnext.trans hback) (hdepth.trans p.next_depth) ?_
        rw [hm, ← hroom]
        exact hword hus
    | tooDeep h ht =>
        have hpq := hstart.trans h
        rw [← List.append_assoc] at hpq
        rw [hstart.limit]
        exact .tooDeep hpq ht
    | refused h he hus hend => exact .refused (hstart.trans h) he (hword hus) hend

/-! ## Repetition -/

namespace Rule

variable {α : Type} {n : Nat}

theorem Reads.advances {L : Language α} {r : Rule α} (h : r.Reads n L)
    (hne : ∀ {m a}, ¬ L.words m [] a) : r.Advances n := by
  intro p q a hp hn hr
  have hx := h p hp hn
  rw [hr] at hx
  cases hx with
  | @read _ ts _ hq hd ha =>
      refine ⟨hp.of_reaches hq, (hq.room_eq hd).trans hn, ?_⟩
      cases ts with
      | nil => exact absurd ha hne
      | cons t ts =>
          rw [hq.ahead, List.length_append, List.length_cons]
          omega

/-- One round of a repetition, with what the further rounds come to. -/
theorem round_outcome {L : Language α} {M : Language (List α)} {item : Rule α}
    {k : Rule (List α)} {p : Parser} (hp : p.Proper) (hi : Outcome L p (item p))
    (hk : ∀ a q, item p = (q, .ok a) → q.Proper → q.room = p.room → Outcome M q (k q)) :
    Outcome (L.seq fun a => M.seq fun as => .unit (a :: as)) p
      ((do let a ← item; let as ← k; return a :: as : Rule (List α)) p) :=
  hi.bind hp fun a q hx hq hqn => (hk a q hx hq hqn).bind hq fun as r _ hr _ =>
    Reads.pure (a :: as) r hr rfl

namespace Reads

section

variable {L : Language α} {item : Rule α} (hi : item.Reads n L)
  (hne : ∀ {m a}, ¬ L.words m [] a)

include hi hne

theorem many (close : Token → Bool) : (Rule.many close item).Reads n L.many := by
  intro p hp hn
  induction hk : p.ahead.length using Nat.strongRecOn generalizing p with
  | ind k ih =>
      rw [many_apply (hi.advances hne) hp hn]
      split
      · exact .read (.refl p) rfl .nil
      · have hround := round_outcome (k := Rule.many close item) hp (hi p hp hn)
          fun a q hx hq hqn => ih _ (hk ▸ (hi.advances hne p q a hp hn hx).2.2) q hq
            (hqn.trans hn) rfl
        refine hround.weaken ?_
        rintro m _ _ ⟨ts, _, a, rfl, ha, us, _, as, rfl, has, rfl, rfl⟩
        rw [List.append_nil]
        exact .cons ha has

theorem commaTail (what : String) :
    (Rule.commaTail item what).Reads n
      (L.commaTail.seq fun as => (Language.symbol ')').seq fun _ => .unit as) := by
  intro p hp hn
  induction hk : p.ahead.length using Nat.strongRecOn generalizing p with
  | ind k ih =>
      rw [commaTail_apply (hi.advances hne) what hp hn]
      split
      · rename_i hc
        obtain ⟨hp', hn', hlt'⟩ := hp.next (Token.isEof_of_isSymbol hc)
        have hround := round_outcome (k := Rule.commaTail item what) hp'
          (hi p.next hp' (hn'.trans hn)) fun a q hx hq hqn => by
            have hlt := (hi.advances hne p.next q a hp' (hn'.trans hn) hx).2.2
            exact ih _ (by omega) q hq (hqn.trans (hn'.trans hn)) rfl
        refine .behind hp (Token.isEof_of_isSymbol hc) hround ?_
        rintro m _ _ _ ⟨ts, _, a, rfl, ha, _, _, as, rfl, ⟨us, _, _, rfl, has, _, _, c, rfl,
          ⟨rfl, hclose⟩, rfl, rfl⟩, rfl, rfl⟩
        exact ⟨p.peek :: (ts ++ us), [c], a :: as, by simp, .cons hc ha has, [c], [], c, rfl,
          ⟨rfl, hclose⟩, rfl, rfl⟩
      · split
        · rename_i hc
          exact .taken hp (Token.isEof_of_isSymbol hc)
            ⟨[], _, [], rfl, .nil, [p.peek], [], p.peek, rfl, ⟨rfl, hc⟩, rfl, rfl⟩
        · exact failExpected _ what p hp hn

/-- Items with commas between them, and the closing parenthesis. -/
theorem commaList (what : String) :
    (Rule.commaList item what).Reads n
      (L.commaList.seq fun as => (Language.symbol ')').seq fun _ => .unit as) := by
  refine ifSymbol (pure []) (hi.bind fun a => (hi.commaTail hne what).bind fun as =>
    pure (a :: as)) ?_ ?_
  · rintro m t _ _ hc ⟨rfl, rfl⟩
    exact ⟨[], [t], [], rfl, .empty, [t], [], t, rfl, ⟨rfl, hc⟩, rfl, rfl⟩
  · rintro m _ _ ⟨ts, _, a, rfl, ha, _, _, as, rfl, ⟨us, _, _, rfl, has, _, _, c, rfl,
      ⟨rfl, hclose⟩, rfl, rfl⟩, rfl, rfl⟩
    exact ⟨ts ++ us, [c], a :: as, by simp, .items ha has, [c], [], c, rfl, ⟨rfl, hclose⟩, rfl, rfl⟩

end

section

variable {L : Language Expr} {operand : Rule Expr} (ho : operand.Reads n L)
  (hne : ∀ {m e}, ¬ L.words m [] e)

include ho hne

theorem operatorTail (left : Expr) :
    (Rule.operatorTail operand left).Reads n (L.operatorTail left) := by
  intro p hp hn
  induction hk : p.ahead.length using Nat.strongRecOn generalizing left p with
  | ind k ih =>
      rw [operatorTail_apply (ho.advances hne) left hp hn]
      split
      · rename_i op hop
        obtain ⟨hp', hn', hlt'⟩ := hp.next (isEof_of_operatorOf? hop)
        have hround := (ho p.next hp' (hn'.trans hn)).bind (M := fun right =>
          L.operatorTail (.binary left op right)) hp' fun right q hx hq hqn => by
            have hlt := (ho.advances hne p.next q right hp' (hn'.trans hn) hx).2.2
            exact ih _ (by omega) (.binary left op right) q hq (hqn.trans (hn'.trans hn)) rfl
        refine .behind hp (isEof_of_operatorOf? hop) hround ?_
        rintro m _ e _ ⟨ts, us, right, rfl, hr, ht⟩
        exact .cons (operatorOf?_eq_some.1 hop) hr ht
      · exact .read (.refl p) rfl .nil

/-- Operands with operators between them. -/
theorem chain : (Rule.chain operand).Reads n (L.seq L.operatorTail) :=
  ho.bind fun first => ho.operatorTail hne first

end

end Reads

end Rule

end ScopeFront
