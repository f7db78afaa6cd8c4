import ScopeFront.Proofs.Parser.Alike

/-!
# Runs that mirror each other

Two runs over tokens that are alike up to some point, at other places and perhaps with a higher
limit, do the same until one of them passes that point.  A run looks at no token behind the one it
ends at, so its outcome is settled by the tokens it has read and the next one.  Where it may not
open a level, a run with a higher limit opens it there.

* `Mirrored`, `Rule.Mirrors` – an outcome that every alike parser comes to as well;
* `Mirrored.same` – where parsers are alike up to the end, with the same limit;
* `Rule.Mirrors.bind`, `Mirrored.nested`, `Rule.Mirrors.many`, … – how such rules are put together.
-/

set_option autoImplicit false

namespace ScopeFront

variable {g : Span → Span}

/-! ## Outcomes that alike parsers come to as well -/

/-- Whether the error says that the nesting passes the limit. -/
def ParseError.IsTooDeep : ParseError → Prop
  | .tooDeep .. => True
  | _ => False

/-- The outcome of a run from `p` on, of which `s` makes the same from every parser that is alike
up to the token at which the run ended. -/
inductive Mirrored {α : Type} (g : Span → Span) (m : Nat) (s : Rule α) (p : Parser) :
    Parser × Except ParseError α → Prop
  /-- A success, which leaves no level open even where the tokens end behind it. -/
  | ok {q : Parser} {ts : List Token} {a : α} :
    p.Reaches ts q → q.depth = p.depth →
    (∀ p' : Parser, p'.Proper → p'.room = m → p.Alike g (ts.length + 1) p' →
      ∃ q', s p' = (q', .ok a) ∧ p'.Reaches (ts.map (·.relocate g)) q' ∧ q'.depth = p'.depth) →
    (∀ p' : Parser, p'.Proper → p'.room = m → p.Ends g ts p' → ts ≠ [] →
      s.Stops p' (ts.map (·.relocate g)) p'.depth) →
    Mirrored g m s p (q, .ok a)
  /-- An error about the next token. -/
  | refused {q : Parser} {ts : List Token} {e : ParseError} :
    p.Reaches ts q → ¬ e.IsTooDeep → p.Climbs ts q →
    (∀ p' : Parser, p'.Proper → p'.room = m → p.Alike g (ts.length + 1) p' →
      ∃ q', s p' = (q', .error (e.relocate g)) ∧ p'.Reaches (ts.map (·.relocate g)) q' ∧
        q'.depth = q.depth) →
    Mirrored g m s p (q, .error e)
  /-- An error about a level too many.  Only the same limit leads to the same error.  Where the
  tokens end before the bracket, the levels stay open, and where they end behind it, a higher limit
  leaves one more of them open. -/
  | tooDeep {q : Parser} {ts : List Token} {t : Token} :
    p.Reaches (ts ++ [t]) q → t.isSymbol '(' = true ∨ t.isSymbol '{' = true →
    p.limit ≤ q.depth → p.Climbs ts q →
    (∀ p' : Parser, p'.Proper → p'.room = m → p.Alike g (ts.length + 1) p' → p'.limit = p.limit →
      ∃ q', s p' = (q', .error (.tooDeep (.ofToken (t.relocate g)) p.limit)) ∧
        p'.Reaches ((ts ++ [t]).map (·.relocate g)) q') →
    (∀ p' : Parser, p'.Proper → p'.room = m → p.Ends g ts p' → ts ≠ [] →
      s.Stops p' (ts.map (·.relocate g)) q.depth) →
    (∀ p' : Parser, p'.Proper → p'.room = m → p.Ends g (ts ++ [t]) p' → q.depth < p'.limit →
      s.Stops p' ((ts ++ [t]).map (·.relocate g)) (q.depth + 1)) →
    Mirrored g m s p (q, .error (.tooDeep (.ofToken t) p.limit))

namespace Mirrored

variable {α β : Type} {m : Nat} {p q : Parser} {s s' : Rule α} {x : Parser × Except ParseError α}

section Prepend

-- The rule `s'` reads `ts` and leaves the rest to `s`, from every parser that is alike so far.
variable {ts : List Token} (h : p.Reaches ts q) (hd : q.depth = p.depth)
  (hs : ∀ p' : Parser, p'.Proper → p'.room = m → p.Alike g (ts.length + 1) p' →
    ∃ q', s' p' = s q' ∧ p'.Reaches (ts.map (·.relocate g)) q' ∧ q'.depth = p'.depth)

include h hd hs

/-- An alike parser first goes where `s` can take over, and is still alike there. -/
theorem prepend_alike {us : List Token} {p' : Parser} (hp' : p'.Proper) (hm : p'.room = m)
    (ha : p.Alike g ((ts ++ us).length + 1) p') :
    ∃ q', s' p' = s q' ∧ p'.Reaches (ts.map (·.relocate g)) q' ∧ q'.depth = p'.depth ∧
      q'.Proper ∧ q'.room = m ∧ q.Alike g (us.length + 1) q' := by
  rw [List.length_append, Nat.add_assoc] at ha
  obtain ⟨q', hq', hr, hd'⟩ := hs p' hp' hm (ha.mono (by omega))
  refine ⟨q', hq', hr, hd', hp'.of_reaches hr, (hr.room_eq hd').trans hm, ?_⟩
  exact ha.of_reaches h hr (by rw [hd', hd, ha.depth])

/-- So does a parser whose tokens end later on. -/
theorem prepend_stops {us rest : List Token} {d : Nat} {p' : Parser} (hahead : q.ahead = us ++ rest)
    (hus : us ≠ []) (hp' : p'.Proper) (hm : p'.room = m) (he : p.Ends g (ts ++ us) p')
    (hlater : ∀ q' : Parser, q'.Proper → q'.room = m → q.Ends g us q' → q'.depth = p'.depth →
      q'.limit = p'.limit → s.Stops q' (us.map (·.relocate g)) d) :
    s'.Stops p' ((ts ++ us).map (·.relocate g)) d := by
  have ha := he.alike (by rw [h.ahead, hahead, List.append_assoc]) hus
  obtain ⟨q', hq', hr, hd'⟩ := hs p' hp' hm ha
  obtain ⟨r', hr', hdr', hy⟩ := hlater q' (hp'.of_reaches hr) ((hr.room_eq hd').trans hm)
    (he.of_reaches h hr (by rw [hd', hd, he.depth])) hd' hr.limit
  rw [← hq', hd'] at hy
  rw [List.map_append]
  exact ⟨r', hr.trans hr', hdr', hy⟩

/-- The mirrored outcome of a rule that begins as `s'` does. -/
theorem prepend (hx : Mirrored g m s q x)
    (hstop : ∀ p' : Parser, p'.Proper → p'.room = m → p.Ends g ts p' → ts ≠ [] →
      s'.Stops p' (ts.map (·.relocate g)) p'.depth) :
    Mirrored g m s' p x := by
  cases hx with
  | @ok r us a hqr hdr hrun hstops =>
      refine .ok (h.trans hqr) (hdr.trans hd) (fun p' hp' hm ha => ?_) fun p' hp' hm he hne => ?_
      · obtain ⟨q', hq', hr, hd', hproper, hroom, halike⟩ := prepend_alike h hd hs hp' hm ha
        obtain ⟨r', hr', hqr', hdr'⟩ := hrun q' hproper hroom halike
        refine ⟨r', hq'.trans hr', ?_, hdr'.trans hd'⟩
        rw [List.map_append]
        exact hr.trans hqr'
      · by_cases hus : us = []
        · subst hus
          rw [List.append_nil] at he hne ⊢
          exact hstop p' hp' hm he hne
        · refine prepend_stops h hd hs hqr.ahead hus hp' hm he fun q' hproper hroom he' hd' _ => ?_
          rw [← hd']
          exact hstops q' hproper hroom he' hus
  | @refused r us e hqr hdeep hclimbs hrun =>
      refine .refused (h.trans hqr) hdeep (hclimbs.prepend h hd) fun p' hp' hm ha => ?_
      obtain ⟨q', hq', hr, hd', hproper, hroom, halike⟩ := prepend_alike h hd hs hp' hm ha
      obtain ⟨r', hr', hqr', hdr'⟩ := hrun q' hproper hroom halike
      refine ⟨r', hq'.trans hr', ?_, hdr'⟩
      rw [List.map_append]
      exact hr.trans hqr'
  | @tooDeep r us t hqr hopen hle hclimbs hsame hbefore hpast =>
      have hpr := h.trans hqr
      rw [← List.append_assoc] at hpr
      rw [h.limit]
      rw [h.limit] at hle
      refine .tooDeep hpr hopen hle (hclimbs.prepend h hd) (fun p' hp' hm ha hlimit => ?_)
        (fun p' hp' hm he hne => ?_) fun p' hp' hm he hlt => ?_
      · obtain ⟨q', hq', hr, _, hproper, hroom, halike⟩ := prepend_alike h hd hs hp' hm ha
        obtain ⟨r', hr', hqr'⟩ := hsame q' hproper hroom halike (by rw [hr.limit, h.limit, hlimit])
        rw [h.limit] at hr'
        refine ⟨r', hq'.trans hr', ?_⟩
        rw [List.append_assoc, List.map_append]
        exact hr.trans hqr'
      · by_cases hus : us = []
        · subst hus
          rw [List.append_nil] at he hne ⊢
          rw [hclimbs.depth_eq, hd, ← he.depth]
          exact hstop p' hp' hm he hne
        · have hahead : q.ahead = us ++ ([t] ++ r.ahead) := by rw [hqr.ahead, List.append_assoc]
          exact prepend_stops h hd hs hahead hus hp' hm he fun q' hproper hroom he' _ _ =>
            hbefore q' hproper hroom he' hus
      · rw [List.append_assoc] at he ⊢
        refine prepend_stops h hd hs hqr.ahead (by simp) hp' hm he fun q' hproper hroom he' _ hlimit => ?_
        exact hpast q' hproper hroom he' (by rw [hlimit]; exact hlt)

end Prepend

theorem congr (hx : Mirrored g m s p x)
    (hs : ∀ p' : Parser, p'.Proper → p'.room = m → p'.peek = p.peek.relocate g → s' p' = s p') :
    Mirrored g m s' p x :=
  prepend (.refl p) rfl (fun p' hp' hm ha => ⟨p', hs p' hp' hm ha.peek, .refl p', rfl⟩) hx
    fun _ _ _ _ hne => absurd rfl hne

theorem behind (hp : p.Proper) (ht : p.peek.isEof = false) (hx : Mirrored g m s p.next x)
    (hrest : p.room ≤ m → s.Rests g m)
    (hs : ∀ p' : Parser, p'.Proper → p'.room = m → p'.peek = p.peek.relocate g →
      s' p' = s p'.next) : Mirrored g m s' p x := by
  have hnext : ∀ {p' : Parser}, p'.Proper → p'.peek = p.peek.relocate g →
      p'.Reaches [p.peek.relocate g] p'.next := by
    intro p' hp' hpeek
    have h := hp'.reaches_next (by rw [hpeek]; exact ht)
    rw [hpeek] at h
    exact h
  refine prepend (hp.reaches_next ht) p.next_depth (fun p' hp' hm ha => ?_) hx
    fun p' hp' hm he _ => ?_
  · exact ⟨p'.next, hs p' hp' hm ha.peek, hnext hp' ha.peek, p'.next_depth⟩
  · -- behind the only token, `s` stays where it is
    have hpeek := Parser.peek_of_ahead he.ahead
    have hr := hnext hp' hpeek
    have hahead : p'.next.ahead = [] := by rw [p'.next_ahead, he.ahead]; rfl
    have hm' := (hr.room_eq p'.next_depth).trans hm
    obtain ⟨q', hq', hd', hy⟩ := hrest (hm ▸ he.room_le) p'.next (hp'.of_reaches hr) hm' hahead
      (by rw [hr.stop]; exact he.stop)
    rw [← hs p' hp' hm hpeek, p'.next_depth] at hy
    exact ⟨q', hr.trans hq', hd'.trans p'.next_depth, hy⟩

theorem bind {r : Rule α} {f f' : α → Rule β} (hp : p.Proper) (hr : Mirrored g m s p (r p))
    (hrest : p.room ≤ m → ∀ a, (f' a).Rests g m)
    (hf : ∀ a q, r p = (q, .ok a) → q.Proper → q.room = p.room → Mirrored g m (f' a) q (f a q)) :
    Mirrored g m (s >>= f') p ((r >>= f) p) := by
  generalize hx : r p = x at hr
  cases hr with
  | @ok q ts a h hd hrun hstops =>
      rw [Rule.bind_apply_ok hx]
      refine prepend h hd (fun p' hp' hm ha => ?_) (hf a q hx (hp.of_reaches h) (h.room_eq hd))
        fun p' hp' hm he hne => ?_
      · obtain ⟨q', hq', hr', hd'⟩ := hrun p' hp' hm ha
        exact ⟨q', Rule.bind_apply_ok hq', hr', hd'⟩
      · exact (hstops p' hp' hm he hne).bind hp' hm he (hrest (hm ▸ he.room_le))
  | refused h hdeep hclimbs hrun =>
      rw [Rule.bind_apply_error hx]
      refine .refused h hdeep hclimbs fun p' hp' hm ha => ?_
      obtain ⟨q', hq', hr', hd'⟩ := hrun p' hp' hm ha
      exact ⟨q', Rule.bind_apply_error hq', hr', hd'⟩
  | tooDeep h hopen hle hclimbs hsame hbefore hpast =>
      rw [Rule.bind_apply_error hx]
      refine .tooDeep h hopen hle hclimbs (fun p' hp' hm ha hlimit => ?_)
        (fun p' hp' hm he hne => ?_) fun p' hp' hm he hlt => ?_
      · obtain ⟨q', hq', hr'⟩ := hsame p' hp' hm ha hlimit
        exact ⟨q', Rule.bind_apply_error hq', hr'⟩
      · exact (hbefore p' hp' hm he hne).bind hp' hm he (hrest (hm ▸ he.room_le))
      · exact (hpast p' hp' hm he hlt).bind hp' hm he (hrest (hm ▸ he.room_le))

/-- From a parser that is alike up to the end and has the same limit, the outcome is the same, but
for places. -/
theorem same (hx : Mirrored g m s p x) {p' : Parser} (hp' : p'.Proper) (hm : p'.room = m)
    (ha : ∀ k, p.Alike g k p') (hlimit : p'.limit = p.limit) :
    ∃ ts q', p.Reaches ts x.1 ∧ p'.Reaches (ts.map (·.relocate g)) q' ∧
      s p' = (q', x.2.mapError (·.relocate g)) := by
  cases hx with
  | ok hq _ hrun _ =>
      obtain ⟨q', hq', hr, _⟩ := hrun p' hp' hm (ha _)
      exact ⟨_, q', hq, hr, hq'⟩
  | refused hq _ _ hrun =>
      obtain ⟨q', hq', hr, _⟩ := hrun p' hp' hm (ha _)
      exact ⟨_, q', hq, hr, hq'⟩
  | tooDeep hq _ _ _ hsame _ _ =>
      obtain ⟨q', hq', hr⟩ := hsame p' hp' hm (ha _) hlimit
      rw [Found.ofToken_relocate] at hq'
      exact ⟨_, q', hq, hr, hq'⟩

end Mirrored

namespace Rule

variable {α β : Type} {n m : Nat}

/-! ## Rules that mirror each other -/

/-- Every run of `r` with `n` levels left is mirrored by `s` with `m` levels left. -/
def Mirrors (g : Span → Span) (n m : Nat) (r s : Rule α) : Prop :=
  ∀ p : Parser, p.Proper → p.room = n → Mirrored g m s p (r p)

namespace Mirrors

/-- At the end, a rule does what the one that it mirrors does there. -/
theorem rests {r s : Rule α} (h : Mirrors g n m r s) (hnm : n ≤ m) : s.Rests g m := by
  rintro p' hp' hm ha ⟨u, hu, hstop⟩
  -- a parser at the end, with the levels left that `r` has
  let p : Parser := { p' with stop := u, limit := p'.limit - (m - n) }
  have hp : p.Proper := ⟨hu, fun t ht => hp'.ahead t ht⟩
  have hn : p.room = n := by
    show p'.limit - (m - n) - p'.depth = n
    unfold Parser.room at hm
    omega
  have halike : p.Alike g (([] : List Token).length + 1) p' := by
    refine ⟨?_, rfl, Nat.sub_le _ _⟩
    show (p'.ahead ++ [p'.stop]).take 1 = ((p'.ahead ++ [u]).take 1).map (·.relocate g)
    rw [ha, hstop]
    rfl
  have hnil : ∀ {ts : List Token} {q : Parser}, p.Reaches ts q → ts = [] := by
    intro ts q hq
    have hts := hq.ahead
    rw [show p.ahead = [] from ha] at hts
    exact (List.append_eq_nil_iff.1 hts.symm).1
  have hx := h p hp hn
  generalize r p = x at hx
  cases hx with
  | ok hq _ hrun _ =>
      cases hnil hq
      obtain ⟨q', hq', hr', hd'⟩ := hrun p' hp' hm halike
      exact ⟨q', hr', hd', .inr ⟨rfl, _, hq'⟩⟩
  | refused hq _ hclimbs hrun =>
      cases hnil hq
      obtain ⟨q', hq', hr', hd'⟩ := hrun p' hp' hm halike
      exact ⟨q', hr', hd'.trans hclimbs.depth_eq, .inl ⟨_, hq'⟩⟩
  | tooDeep hq => exact absurd (hnil hq) (by simp)

theorem bind {r s : Rule α} {f f' : α → Rule β} (hr : Mirrors g n m r s)
    (hf : ∀ a, Mirrors g n m (f a) (f' a)) : Mirrors g n m (r >>= f) (s >>= f') :=
  fun p hp hn => (hr p hp hn).bind hp (fun hle a => (hf a).rests (hn ▸ hle))
    fun a q _ hq hroom => hf a q hq (hroom.trans hn)

theorem pure (a : α) : Mirrors g n m (Pure.pure a : Rule α) (Pure.pure a) :=
  fun p _ _ => .ok (.refl p) rfl (fun p' _ _ _ => ⟨p', rfl, .refl p', rfl⟩)
    fun _ _ _ _ hne => absurd rfl hne

theorem logging {r s : Rule α} (hr : Mirrors g n m r s) (event : Event) :
    Mirrors g n m (do update (·.logging event); r) (do update (·.logging event); s) := by
  intro p hp hn
  have h := p.reaches_logging event
  exact .prepend h rfl (fun p' _ _ _ => ⟨p'.logging event, rfl, p'.reaches_logging event, rfl⟩)
    (hr _ (hp.of_reaches h) hn) fun _ _ _ _ hne => absurd rfl hne

theorem logged {r s : Rule α} (hr : Mirrors g n m r s) (message : String) :
    Mirrors g n m (do logDetail message; r) (do logDetail message; s) :=
  hr.logging _

/-- An error about the token at the place. -/
theorem failWith {e : Found → ParseError}
    (he : ∀ found, (e found).relocate g = e (found.relocate g))
    (hdeep : ∀ found, ¬ (e found).IsTooDeep) :
    Mirrors g n m (inspect fun p => fail (e (.ofToken p.peek)) : Rule α)
      (inspect fun p => fail (e (.ofToken p.peek))) := by
  intro p _ _
  refine .refused (p.reaches_logging _) (hdeep _) (.of_depth_eq rfl) fun p' _ _ ha =>
    ⟨p'.logging (.fatal parserStage (e (.ofToken p'.peek)).message), ?_, p'.reaches_logging _,
      ha.depth⟩
  rw [he, ← Found.ofToken_relocate, ← ha.peek]
  rfl

theorem failExpected (what : String) :
    Mirrors g n m (Rule.failExpected what : Rule α) (Rule.failExpected what) :=
  failWith (fun _ => rfl) fun _ => id

theorem failUnexpected (context : String) :
    Mirrors g n m (Rule.failUnexpected context : Rule α) (Rule.failUnexpected context) :=
  failWith (e := (.unexpectedToken · context)) (fun _ => rfl) fun _ => id

/-- Rules behind the token at the place. -/
theorem behind {r s s' : Rule α} (hr : Mirrors g n m r s) {p : Parser} (hp : p.Proper)
    (hn : p.room = n) (ht : p.peek.isEof = false)
    (hs : ∀ p' : Parser, p'.Proper → p'.room = m → p'.peek = p.peek.relocate g →
      s' p' = s p'.next) : Mirrored g m s' p (r p.next) := by
  obtain ⟨hp', hn', _⟩ := hp.next ht
  exact .behind hp ht (hr p.next hp' (hn'.trans hn)) (fun hle => hr.rests (hn ▸ hle)) hs

/-- The rule `s` does what `s'` does, to judge by the token at the place. -/
theorem congr {r s s' : Rule α} (hr : Mirrors g n m r s) {p : Parser} (hp : p.Proper)
    (hn : p.room = n)
    (hs : ∀ p' : Parser, p'.Proper → p'.room = m → p'.peek = p.peek.relocate g →
      s' p' = s p') : Mirrored g m s' p (r p) :=
  .congr (hr p hp hn) hs

theorem ifSymbol {r r' s s' : Rule α} (c : Char) (hr : Mirrors g n m r r')
    (hs : Mirrors g n m s s') :
    Mirrors g n m (do if ← matchSymbol c then r else s : Rule α)
      (do if ← matchSymbol c then r' else s' : Rule α) := by
  intro p hp hn
  rw [matchSymbol_bind]
  split
  · rename_i hc
    refine hr.behind hp hn (Token.isEof_of_isSymbol hc) fun p' _ _ hpeek => ?_
    rw [matchSymbol_bind, hpeek, Token.isSymbol_relocate, if_pos hc]
    rfl
  · rename_i hc
    refine hs.congr hp hn fun p' _ _ hpeek => ?_
    rw [matchSymbol_bind, hpeek, Token.isSymbol_relocate, if_neg hc]
    rfl

theorem ifChecked {r r' s s' : Rule α} (c : Char) (hr : Mirrors g n m r r')
    (hs : Mirrors g n m s s') :
    Mirrors g n m (do if ← checkSymbol c then r else s : Rule α)
      (do if ← checkSymbol c then r' else s' : Rule α) := by
  intro p hp hn
  rw [checkSymbol_bind]
  split
  · rename_i hc
    refine hr.congr hp hn fun p' _ _ hpeek => ?_
    rw [checkSymbol_bind, hpeek, Token.isSymbol_relocate, if_pos hc]
  · rename_i hc
    refine hs.congr hp hn fun p' _ _ hpeek => ?_
    rw [checkSymbol_bind, hpeek, Token.isSymbol_relocate, if_neg hc]

theorem expectSymbol {r s : Rule α} (c : Char) (context : String) (hr : Mirrors g n m r s) :
    Mirrors g n m (do let _ ← Rule.expectSymbol c context; r)
      (do let _ ← Rule.expectSymbol c context; s) := by
  intro p hp hn
  rw [expectSymbol_bind]
  split
  · rename_i hc
    refine hr.behind hp hn (Token.isEof_of_isSymbol hc) fun p' _ _ hpeek => ?_
    rw [expectSymbol_bind, hpeek, Token.isSymbol_relocate, if_pos hc]
  · rename_i hc
    refine (failExpected _).congr hp hn fun p' _ _ hpeek => ?_
    rw [expectSymbol_bind, hpeek, Token.isSymbol_relocate, if_neg hc]

theorem expectIdentifier (what : String) :
    Mirrors g n m (Rule.expectIdentifier what) (Rule.expectIdentifier what) := by
  intro p hp hn
  rw [expectIdentifier_apply]
  split
  · rename_i hk
    refine (pure p.peek.lexeme).behind hp hn (Token.isEof_eq_false hk (by decide))
      fun p' _ _ hpeek => ?_
    rw [expectIdentifier_apply, hpeek, Token.kind_relocate, if_pos hk]
    rfl
  · rename_i hk
    refine (failExpected what).congr hp hn fun p' _ _ hpeek => ?_
    rw [expectIdentifier_apply, hpeek, Token.kind_relocate, if_neg hk]

theorem matchIdentifier : Mirrors g n m Rule.matchIdentifier Rule.matchIdentifier := by
  intro p hp hn
  rw [matchIdentifier_apply]
  split
  · rename_i hk
    refine (pure (some p.peek.lexeme)).behind hp hn (Token.isEof_eq_false hk (by decide))
      fun p' _ _ hpeek => ?_
    rw [matchIdentifier_apply, hpeek, Token.kind_relocate, if_pos hk]
    rfl
  · rename_i hk
    refine (pure none).congr hp hn fun p' _ _ hpeek => ?_
    rw [matchIdentifier_apply, hpeek, Token.kind_relocate, if_neg hk]
    rfl

theorem expectType (what : String) :
    Mirrors g n m (Rule.expectType what) (Rule.expectType what) := by
  intro p hp hn
  rw [expectType_apply]
  cases ht : typeOf? p.peek with
  | none =>
      refine (failExpected what).congr hp hn fun p' _ _ hpeek => ?_
      rw [expectType_apply, hpeek, typeOf?_relocate, ht]
  | some type =>
      have heof := Token.isEof_eq_false (typeOf?_eq_some.1 ht).1 (by decide)
      refine (pure type).behind hp hn heof fun p' _ _ hpeek => ?_
      rw [expectType_apply, hpeek, typeOf?_relocate, ht]
      rfl

end Mirrors

end Rule

section Nested

variable {α : Type} {m : Nat} {inner inner' s : Rule α} {close : Char} {context : String}
  {p : Parser} (hopen : p.peek.isSymbol '(' = true ∨ p.peek.isSymbol '{' = true)
  (hs : ∀ p' : Parser, p'.Proper → p'.room = m → p'.peek = p.peek.relocate g →
    s p' = Rule.nested inner' close context p'.next)

include hopen hs

/-- A parser with the bracket and a level left opens it. -/
theorem Mirrored.nested_start {l : Nat} (hl : m = l + 1) {p' : Parser} (hp' : p'.Proper)
    (hm : p'.room = m) (hpeek : p'.peek = p.peek.relocate g) :
    s p' = Rule.nested inner' close context p'.next ∧ p'.next.depth < p'.next.limit ∧
      p'.Reaches [p.peek.relocate g] p'.next ∧ p'.next.deeper.Proper ∧ p'.next.deeper.room = l := by
  have ht := hopen.elim Token.isEof_of_isSymbol Token.isEof_of_isSymbol
  have hnext := hp'.reaches_next (by rw [hpeek]; exact ht)
  rw [hpeek] at hnext
  have hroom := (hnext.room_eq p'.next_depth).trans (hm.trans hl)
  refine ⟨hs p' hp' hm hpeek, ?_, hnext, hp'.of_reaches (hnext.trans p'.next.reaches_deeper),
    Parser.room_deeper hroom⟩
  unfold Parser.room at hroom
  omega

/-- A level whose tokens end before it is closed stays open. -/
theorem Mirrored.nested_stops {l d : Nat} (hl : m = l + 1) {us : List Token} {p' : Parser}
    (hp' : p'.Proper) (hm : p'.room = m) (he : p.Ends g (p.peek :: us) p')
    (h : inner'.Stops p'.next.deeper (us.map (·.relocate g)) d) :
    s.Stops p' ((p.peek :: us).map (·.relocate g)) d := by
  have hpeek := Parser.peek_of_ahead he.ahead
  obtain ⟨hs', hlt, hnext, hproper, _⟩ := nested_start hopen hs hl hp' hm hpeek
  have hahead : p'.next.deeper.ahead = us.map (·.relocate g) := by
    show p'.next.ahead = _
    rw [p'.next_ahead, he.ahead]
    rfl
  obtain ⟨q', e, hq', hr', hd'⟩ := h.closed hproper hahead close context
  refine ⟨q', (hnext.trans p'.next.reaches_deeper).trans hr', hd', .inl ⟨e, ?_⟩⟩
  rw [hs', Rule.nested_apply_error hlt hq']

variable (hp : p.Proper)

include hp

/-- A run that may not open a level is mirrored where the limit is the same, and a higher limit
opens the level. -/
theorem Mirrored.nested_of_le (hle : p.limit ≤ p.depth)
    (hrest : ∀ l, m = l + 1 → inner'.Rests g l) :
    Mirrored g m s p (Rule.nested inner close context p.next) := by
  have ht := hopen.elim Token.isEof_of_isSymbol Token.isEof_of_isSymbol
  obtain ⟨q, hq, hr, hd⟩ := Rule.nested_apply_of_le inner close context hp ht hle
  rw [hq]
  have hr' : p.Reaches ([] ++ [p.peek]) q := hr
  refine .tooDeep hr' hopen (by rw [hd]; exact hle) (.of_depth_eq hd)
    (fun p' hp' hm ha hlimit => ?_) (fun _ _ _ _ hne => absurd rfl hne) fun p' hp' hm he hlt => ?_
  · have hpeek : p'.peek = p.peek.relocate g := ha.peek
    obtain ⟨q', hq', hr', _⟩ := Rule.nested_apply_of_le inner' close context hp'
      (by rw [hpeek]; exact ht) (by rw [hlimit, ha.depth]; exact hle)
    rw [hpeek] at hr'
    refine ⟨q', ?_, hr'⟩
    rw [hs p' hp' hm hpeek, hq', hlimit, hpeek]
  · obtain ⟨l, hl⟩ : ∃ l, m = l + 1 := by
      refine ⟨m - 1, ?_⟩
      rw [hd, ← he.depth] at hlt
      unfold Parser.room at hm
      omega
    have hpeek := Parser.peek_of_ahead he.ahead
    obtain ⟨_, _, hnext, hproper, hroom⟩ := nested_start hopen hs hl hp' hm hpeek
    have hahead : p'.next.deeper.ahead = [] := by
      show p'.next.ahead = _
      rw [p'.next_ahead, he.ahead]
      rfl
    have hstops := hrest l hl _ hproper hroom hahead (by
      rw [(hnext.trans p'.next.reaches_deeper).stop]
      exact he.stop)
    have hdepth : p'.next.deeper.depth = q.depth + 1 := by
      rw [Parser.deeper_depth, p'.next_depth, he.depth, hd]
    rw [hdepth] at hstops
    exact nested_stops hopen hs hl hp' hm he hstops

section Opened

variable {l : Nat} (hl : m = l + 1)

include hl

/-- An alike parser opens the level too, and is still alike behind the bracket. -/
theorem Mirrored.nested_alike {k : Nat} {p' : Parser} (hp' : p'.Proper) (hm : p'.room = m)
    (ha : p.Alike g (1 + (k + 1)) p') :
    p'.peek = p.peek.relocate g ∧ p.next.deeper.Alike g (k + 1) p'.next.deeper := by
  have hpeek : p'.peek = p.peek.relocate g := (ha.mono (Nat.le_add_right 1 _)).peek
  have ht := hopen.elim Token.isEof_of_isSymbol Token.isEof_of_isSymbol
  have hstart := (hp.reaches_next ht).trans p.next.reaches_deeper
  obtain ⟨_, _, hnext', _, _⟩ := nested_start hopen hs hl hp' hm hpeek
  refine ⟨hpeek, ha.of_reaches hstart (hnext'.trans p'.next.reaches_deeper) ?_⟩
  rw [Parser.deeper_depth, Parser.deeper_depth, p'.next_depth, p.next_depth, ha.depth]

/-- A parser whose tokens end later on has the others before it there. -/
theorem Mirrored.nested_ends {us : List Token} {p' : Parser} (hp' : p'.Proper) (hm : p'.room = m)
    (he : p.Ends g (p.peek :: us) p') : p.next.deeper.Ends g us p'.next.deeper := by
  have ht := hopen.elim Token.isEof_of_isSymbol Token.isEof_of_isSymbol
  have hstart := (hp.reaches_next ht).trans p.next.reaches_deeper
  obtain ⟨_, _, hnext', _, _⟩ := nested_start hopen hs hl hp' hm (Parser.peek_of_ahead he.ahead)
  have he' : p.Ends g ([p.peek] ++ us) p' := he
  refine he'.of_reaches hstart (hnext'.trans p'.next.reaches_deeper) ?_
  rw [Parser.deeper_depth, Parser.deeper_depth, p'.next_depth, p.next_depth, he.depth]

section Inside

-- What stands inside is read by both runs.
variable {q : Parser} {us : List Token} {a : α} (h : p.next.deeper.Reaches us q)
  (hd : q.depth = p.next.deeper.depth)
  (hrun : ∀ p' : Parser, p'.Proper → p'.room = l → p.next.deeper.Alike g (us.length + 1) p' →
    ∃ q', inner' p' = (q', .ok a) ∧ p'.Reaches (us.map (·.relocate g)) q' ∧ q'.depth = p'.depth)

include h hd hrun

theorem Mirrored.nested_inside {p' : Parser} (hp' : p'.Proper) (hm : p'.room = m)
    (ha : p.Alike g (1 + (us.length + 1)) p') :
    ∃ q', inner' p'.next.deeper = (q', .ok a) ∧
      p'.next.deeper.Reaches (us.map (·.relocate g)) q' ∧ q'.Proper ∧ q'.depth = q.depth ∧
      q'.peek = q.peek.relocate g := by
  obtain ⟨hpeek, ha'⟩ := nested_alike hopen hs hp hl hp' hm ha
  obtain ⟨_, _, _, hproper, hroom⟩ := nested_start hopen hs hl hp' hm hpeek
  obtain ⟨q', hq', hr', hd'⟩ := hrun _ hproper hroom ha'
  have hdepth : q'.depth = q.depth := by rw [hd', ha'.depth, hd]
  exact ⟨q', hq', hr', hproper.of_reaches hr', hdepth, (ha'.of_reaches h hr' hdepth).peek⟩

/-- Where the level is closed, the tokens behind it make no difference. -/
theorem Mirrored.nested_closed (hc : q.peek.isSymbol close = true) {p' : Parser}
    (hp' : p'.Proper) (hm : p'.room = m) (ha : p.Alike g (1 + (us.length + 1)) p') :
    ∃ q', s p' = (q', .ok a) ∧
      p'.Reaches (([p.peek] ++ (us ++ [q.peek])).map (·.relocate g)) q' ∧
      q'.depth = p'.depth := by
  obtain ⟨hpeek, ha'⟩ := nested_alike hopen hs hp hl hp' hm ha
  obtain ⟨hs', hlt', hnext', _, _⟩ := nested_start hopen hs hl hp' hm hpeek
  obtain ⟨q', hq', hr', hproper, hd', hpeek'⟩ := nested_inside hopen hs hp hl h hd hrun hp' hm ha
  have hclosed := Rule.closed_apply_ok hq' close context
  rw [hpeek', Token.isSymbol_relocate, if_pos hc] at hclosed
  have hlast := hproper.reaches_next (by rw [hpeek']; exact Token.isEof_of_isSymbol hc)
  rw [hpeek'] at hlast
  have hd'' : q'.next.depth = p'.next.deeper.depth := by rw [q'.next_depth, hd', hd, ha'.depth]
  obtain ⟨hback, hdepth⟩ := (hr'.trans hlast).shallower hd''
  refine ⟨q'.next.shallower, ?_, ?_, hdepth.trans p'.next_depth⟩
  · rw [hs', Rule.nested_apply_ok hlt' hclosed]
  · rw [List.map_append, List.map_append]
    exact hnext'.trans hback

/-- Where it is not, the token at its place is refused. -/
theorem Mirrored.nested_unclosed (hc : ¬ q.peek.isSymbol close = true) {p' : Parser}
    (hp' : p'.Proper) (hm : p'.room = m) (ha : p.Alike g (1 + (us.length + 1)) p') :
    ∃ q', s p' = (q', .error ((ParseError.expected
        ("'" ++ String.singleton close ++ "' " ++ context) (.ofToken q.peek)).relocate g)) ∧
      p'.Reaches (([p.peek] ++ us).map (·.relocate g)) q' ∧ q'.depth = q.depth := by
  obtain ⟨hpeek, _⟩ := nested_alike hopen hs hp hl hp' hm ha
  obtain ⟨hs', hlt', hnext', _, _⟩ := nested_start hopen hs hl hp' hm hpeek
  obtain ⟨q', hq', hr', _, hd', hpeek'⟩ := nested_inside hopen hs hp hl h hd hrun hp' hm ha
  have hclosed := Rule.closed_apply_ok hq' close context
  rw [hpeek', Token.isSymbol_relocate, if_neg hc] at hclosed
  have hlogged := ((hnext'.trans p'.next.reaches_deeper).trans hr').trans (q'.reaches_logging
    (.fatal parserStage (ParseError.expected ("'" ++ String.singleton close ++ "' " ++ context)
      (.ofToken q'.peek)).message))
  rw [List.append_nil] at hlogged
  refine ⟨_, ?_, hlogged, hd'⟩
  rw [hs', Rule.nested_apply_error hlt' hclosed, hpeek', Found.ofToken_relocate]
  rfl

/-- The level is opened and what stands inside is read. -/
theorem Mirrored.nested_of_ok (hlt : p.depth < p.limit)
    (hy : inner p.next.deeper = (q, .ok a)) :
    Mirrored g m s p (Rule.nested inner close context p.next) := by
  have ht := hopen.elim Token.isEof_of_isSymbol Token.isEof_of_isSymbol
  have hnext := hp.reaches_next ht
  have hstart : p.Reaches [p.peek] p.next.deeper := hnext.trans p.next.reaches_deeper
  have hlt' : p.next.depth < p.next.limit := by rw [hnext.limit, p.next_depth]; exact hlt
  have hclosed := Rule.closed_apply_ok hy close context
  by_cases hc : q.peek.isSymbol close = true
  · rw [if_pos hc] at hclosed
    rw [Rule.nested_apply_ok hlt' hclosed]
    have hlast := ((hp.of_reaches hstart).of_reaches h).reaches_next (Token.isEof_of_isSymbol hc)
    obtain ⟨hback, hdepth⟩ := (h.trans hlast).shallower (q.next_depth.trans hd)
    refine .ok (hnext.trans hback) (hdepth.trans p.next_depth) (fun p' hp' hm ha => ?_)
      fun p' hp' hm he _ => ?_
    · refine nested_closed hopen hs hp hl h hd hrun hc hp' hm (ha.mono ?_)
      simp only [List.length_append, List.length_singleton]
      omega
    · have hahead : p.ahead = [p.peek] ++ us ++ [q.peek] ++ q.next.ahead := by
        rw [(hnext.trans hback).ahead]
        simp [Parser.shallower]
      rw [← List.append_assoc] at he
      have ha := he.alike hahead (by simp)
      rw [List.length_append, Nat.add_assoc] at ha
      obtain ⟨q', hq', hr', hd'⟩ := nested_closed hopen hs hp hl h hd hrun hc hp' hm ha
      exact ⟨q', hr', hd', .inr ⟨rfl, a, hq'⟩⟩
  · rw [if_neg hc] at hclosed
    have herror : Rule.nested inner close context p.next =
        Rule.failExpected ("'" ++ String.singleton close ++ "' " ++ context) q :=
      Rule.nested_apply_error hlt' hclosed
    rw [herror]
    have hdeeper : p.next.deeper.depth = p.depth + 1 := by rw [Parser.deeper_depth, p.next_depth]
    refine .refused (hstart.trans (h.trans (q.reaches_logging _))) id
      (.behind hstart hdeeper hlt (.of_depth_eq hd)) fun p' hp' hm ha => ?_
    rw [List.append_nil] at ha ⊢
    rw [List.length_append, Nat.add_assoc] at ha
    exact nested_unclosed hopen hs hp hl h hd hrun hc hp' hm ha

end Inside

/-- A run that opens a level is mirrored when it is mirrored inside. -/
theorem Mirrored.nested_of_lt (hlt : p.depth < p.limit) (hrest : inner'.Rests g l)
    (hx : Mirrored g l inner' p.next.deeper (inner p.next.deeper)) :
    Mirrored g m s p (Rule.nested inner close context p.next) := by
  have ht := hopen.elim Token.isEof_of_isSymbol Token.isEof_of_isSymbol
  have hnext := hp.reaches_next ht
  have hstart : p.Reaches [p.peek] p.next.deeper := hnext.trans p.next.reaches_deeper
  have hdeeper : p.next.deeper.depth = p.depth + 1 := by rw [Parser.deeper_depth, p.next_depth]
  have hlt' : p.next.depth < p.next.limit := by rw [hnext.limit, p.next_depth]; exact hlt
  generalize hy : inner p.next.deeper = y at hx
  cases hx with
  | ok h hd hrun _ => exact nested_of_ok hopen hs hp hl h hd hrun hlt hy
  | @refused q us e h hdeep hclimbs hrun =>
      rw [Rule.nested_apply_error hlt' (Rule.closed_apply_error hy)]
      refine .refused (hstart.trans h) hdeep (hclimbs.behind hstart hdeeper hlt)
        fun p' hp' hm ha => ?_
      rw [List.length_append, Nat.add_assoc] at ha
      obtain ⟨hpeek, ha'⟩ := nested_alike hopen hs hp hl hp' hm ha
      obtain ⟨hs', hopen', hnext', hproper, hroom⟩ := nested_start hopen hs hl hp' hm hpeek
      obtain ⟨q', hq', hr', hd'⟩ := hrun _ hproper hroom ha'
      refine ⟨q', ?_, (hnext'.trans p'.next.reaches_deeper).trans hr', hd'⟩
      rw [hs', Rule.nested_apply_error hopen' (Rule.closed_apply_error hq')]
  | @tooDeep q us t h hopen' hle hclimbs hsame hbefore hpast =>
      rw [Rule.nested_apply_error hlt' (Rule.closed_apply_error hy), hstart.limit]
      rw [hstart.limit] at hle
      have hreach : p.Reaches (p.peek :: us ++ [t]) q := hstart.trans h
      refine .tooDeep hreach hopen' hle (hclimbs.behind hstart hdeeper hlt)
        (fun p' hp' hm ha hlimit => ?_) (fun p' hp' hm he _ => ?_) fun p' hp' hm he hlt' => ?_
      · rw [List.length_cons, Nat.add_comm us.length 1, Nat.add_assoc] at ha
        obtain ⟨hpeek, ha'⟩ := nested_alike hopen hs hp hl hp' hm ha
        obtain ⟨hs', hopen'', hnext', hproper, hroom⟩ := nested_start hopen hs hl hp' hm hpeek
        have hstart' := hnext'.trans p'.next.reaches_deeper
        obtain ⟨q', hq', hr'⟩ := hsame _ hproper hroom ha'
          (by rw [hstart'.limit, hstart.limit, hlimit])
        rw [hstart.limit] at hq'
        refine ⟨q', ?_, hstart'.trans hr'⟩
        rw [hs', Rule.nested_apply_error hopen'' (Rule.closed_apply_error hq')]
      · have hpeek := Parser.peek_of_ahead he.ahead
        obtain ⟨_, _, _, hproper, hroom⟩ := nested_start hopen hs hl hp' hm hpeek
        have he' := nested_ends hopen hs hp hl hp' hm he
        refine nested_stops hopen hs hl hp' hm he ?_
        by_cases hus : us = []
        · subst hus
          rw [hclimbs.depth_eq, ← he'.depth]
          exact hrest _ hproper hroom he'.ahead he'.stop
        · exact hbefore _ hproper hroom he' hus
      · have hpeek := Parser.peek_of_ahead he.ahead
        obtain ⟨_, _, hnext', hproper, hroom⟩ := nested_start hopen hs hl hp' hm hpeek
        refine nested_stops hopen hs hl hp' hm he
          (hpast _ hproper hroom (nested_ends hopen hs hp hl hp' hm he) ?_)
        rw [(hnext'.trans p'.next.reaches_deeper).limit]
        exact hlt'

end Opened

/-- Behind a bracket that opens a level, both have a level less to open. -/
theorem Mirrored.nested (hroom : p.room ≤ m) (hrest : ∀ l, m = l + 1 → inner'.Rests g l)
    (hinner : ∀ k l, p.room = k + 1 → m = l + 1 → Rule.Mirrors g k l inner inner') :
    Mirrored g m s p (Rule.nested inner close context p.next) := by
  by_cases hle : p.limit ≤ p.depth
  · exact nested_of_le hopen hs hp hle hrest
  · have ht := hopen.elim Token.isEof_of_isSymbol Token.isEof_of_isSymbol
    have hnext := hp.reaches_next ht
    obtain ⟨k, hk⟩ : ∃ k, p.room = k + 1 := ⟨p.room - 1, by unfold Parser.room; omega⟩
    obtain ⟨l, hl⟩ : ∃ l, m = l + 1 := ⟨m - 1, by omega⟩
    refine nested_of_lt hopen hs hp hl (by omega) (hrest l hl) (hinner k l hk hl _ ?_ ?_)
    · exact hp.of_reaches (hnext.trans p.next.reaches_deeper)
    · exact Parser.room_deeper ((hnext.room_eq p.next_depth).trans hk)

end Nested

/-! ## Repetition -/

namespace Rule.Mirrors

variable {α : Type} {n m : Nat}

section Loops

variable {item item' : Rule α} (hadv : item.Advances n) (hadv' : item'.Advances m)
  (hi : Mirrors g n m item item')

include hadv hadv' hi

theorem many {close : Token → Bool} (hclose : ∀ t : Token, close (t.relocate g) = close t) :
    Mirrors g n m (Rule.many close item) (Rule.many close item') := by
  intro p hp hn
  induction hk : p.ahead.length using Nat.strongRecOn generalizing p with
  | ind k ih =>
      rw [many_apply hadv hp hn, ← hp.peek_isEof]
      split
      · rename_i hstop
        refine (pure []).congr hp hn fun p' hp' hm hpeek => ?_
        rw [many_apply hadv' hp' hm, ← hp'.peek_isEof, hpeek, Token.isEof_relocate, hclose,
          if_pos hstop]
        rfl
      · rename_i hgo
        have hround : Mirrored g m
            (do let a ← item'; let as ← Rule.many close item'; return a :: as) p
            ((do let a ← item; let as ← Rule.many close item; return a :: as) p) := by
          refine (hi p hp hn).bind hp (fun _ a => (many_rests close item').bind fun as =>
            .pure (a :: as)) fun a q hx hq hroom => ?_
          have hlt := (hadv p q a hp hn hx).2.2
          refine (ih _ (hk ▸ hlt) q hq (hroom.trans hn) rfl).bind hq (fun _ as => .pure (a :: as))
            fun as r _ hr hroom' => ?_
          exact pure (a :: as) r hr (hroom'.trans (hroom.trans hn))
        refine hround.congr fun p' hp' hm hpeek => ?_
        rw [many_apply hadv' hp' hm, ← hp'.peek_isEof, hpeek, Token.isEof_relocate, hclose,
          if_neg hgo]

theorem commaTail (what : String) :
    Mirrors g n m (Rule.commaTail item what) (Rule.commaTail item' what) := by
  intro p hp hn
  induction hk : p.ahead.length using Nat.strongRecOn generalizing p with
  | ind k ih =>
      rw [commaTail_apply hadv what hp hn]
      split
      · rename_i hc
        have heof := Token.isEof_of_isSymbol hc
        obtain ⟨hp', hn', hlt'⟩ := hp.next heof
        have hrest (a : α) :
            (do let as ← Rule.commaTail item' what; return a :: as : Rule (List α)).Rests g m :=
          (commaTail_rests item' what).bind fun as => .pure (a :: as)
        have hround : Mirrored g m
            (do let a ← item'; let as ← Rule.commaTail item' what; return a :: as) p.next
            ((do let a ← item; let as ← Rule.commaTail item what; return a :: as) p.next) := by
          refine (hi p.next hp' (hn'.trans hn)).bind hp' (fun _ => hrest) fun a q hx hq hroom => ?_
          have hlt := (hadv p.next q a hp' (hn'.trans hn) hx).2.2
          have hqn := hroom.trans (hn'.trans hn)
          refine (ih _ (by omega) q hq hqn rfl).bind hq (fun _ as => .pure (a :: as))
            fun as r _ hr hroom' => ?_
          exact pure (a :: as) r hr (hroom'.trans hqn)
        refine .behind hp heof hround (fun hle => (hi.rests (hn ▸ hle)).bind hrest)
          fun p' hp' hm hpeek => ?_
        rw [commaTail_apply hadv' what hp' hm, hpeek, Token.isSymbol_relocate, if_pos hc]
      · rename_i hcomma
        split
        · rename_i hc
          refine (pure []).behind hp hn (Token.isEof_of_isSymbol hc) fun p' hp' hm hpeek => ?_
          rw [commaTail_apply hadv' what hp' hm, hpeek, Token.isSymbol_relocate,
            Token.isSymbol_relocate, if_neg hcomma, if_pos hc]
          rfl
        · rename_i hc
          refine (failExpected what).congr hp hn fun p' hp' hm hpeek => ?_
          rw [commaTail_apply hadv' what hp' hm, hpeek, Token.isSymbol_relocate,
            Token.isSymbol_relocate, if_neg hcomma, if_neg hc]

theorem commaList (what : String) :
    Mirrors g n m (Rule.commaList item what) (Rule.commaList item' what) :=
  ifSymbol ')' (pure []) (hi.bind fun a => (commaTail hadv hadv' hi what).bind fun as =>
    pure (a :: as))

end Loops

section Operands

variable {operand operand' : Rule Expr} (hadv : operand.Advances n) (hadv' : operand'.Advances m)
  (ho : Mirrors g n m operand operand')

include hadv hadv' ho

theorem operatorTail (left : Expr) :
    Mirrors g n m (Rule.operatorTail operand left) (Rule.operatorTail operand' left) := by
  intro p hp hn
  induction hk : p.ahead.length using Nat.strongRecOn generalizing p left with
  | ind k ih =>
      rw [operatorTail_apply hadv left hp hn]
      cases hop : operatorOf? p.peek with
      | none =>
          refine (pure left).congr hp hn fun p' hp' hm hpeek => ?_
          rw [operatorTail_apply hadv' left hp' hm, hpeek, operatorOf?_relocate, hop]
          rfl
      | some op =>
          have heof := isEof_of_operatorOf? hop
          obtain ⟨hp', hn', hlt'⟩ := hp.next heof
          have hround : Mirrored g m
              (do let right ← operand'; Rule.operatorTail operand' (.binary left op right)) p.next
              ((do let right ← operand; Rule.operatorTail operand (.binary left op right))
                p.next) := by
            refine (ho p.next hp' (hn'.trans hn)).bind hp'
              (fun _ right => operatorTail_rests operand' _) fun right q hx hq hroom => ?_
            have hlt := (hadv p.next q right hp' (hn'.trans hn) hx).2.2
            exact ih _ (by omega) _ q hq (hroom.trans (hn'.trans hn)) rfl
          refine .behind hp heof hround (fun hle => (ho.rests (hn ▸ hle)).bind fun right =>
            operatorTail_rests operand' _) fun p' hp' hm hpeek => ?_
          rw [operatorTail_apply hadv' left hp' hm, hpeek, operatorOf?_relocate, hop]

theorem chain : Mirrors g n m (Rule.chain operand) (Rule.chain operand') :=
  ho.bind fun first => operatorTail hadv hadv' ho first

end Operands

end Rule.Mirrors

end ScopeFront
