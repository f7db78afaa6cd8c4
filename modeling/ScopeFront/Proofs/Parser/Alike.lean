import ScopeFront.Proofs.Parser.Steps
import ScopeFront.Proofs.Relocation

/-!
# Parsers that are alike

Runs are compared from parsers that have the same tokens before them: up to some point, with
whatever behind it, or up to their end.

* `Parser.Alike` – two parsers with the same tokens before them, up to a number of tokens;
* `Parser.Ends` – a parser whose tokens end where those of another one go on;
* `Parser.Climbs` – how deep a run can stand that fails;
* `Rule.Stops`, `Rule.Rests` – where a run over all the tokens ends, and a run over none.
-/

set_option autoImplicit false

namespace ScopeFront

variable {g : Span → Span}

namespace Parser

/-! ## The same tokens up to some point -/

/-- The next `k` tokens, the end marker included. -/
def window (p : Parser) (k : Nat) : List Token := (p.ahead ++ [p.stop]).take k

theorem window_succ (p : Parser) (k : Nat) : ∃ later, p.window (k + 1) = p.peek :: later := by
  unfold window peek
  cases p.ahead with
  | nil => exact ⟨_, rfl⟩
  | cons t later => exact ⟨_, rfl⟩

theorem Reaches.window {p q : Parser} {ts : List Token} (h : p.Reaches ts q) (k : Nat) :
    p.window (ts.length + k) = ts ++ q.window k := by
  unfold Parser.window
  rw [h.ahead, h.stop, List.append_assoc, List.take_length_add_append]

/-- `p'` has the next `k` tokens of `p` before it, but for their places, and stands at its depth
with a limit that is no lower. -/
structure Alike (g : Span → Span) (k : Nat) (p p' : Parser) : Prop where
  window : p'.window k = (p.window k).map (·.relocate g)
  depth : p'.depth = p.depth
  limit : p.limit ≤ p'.limit

namespace Alike

variable {p p' q q' : Parser} {k : Nat}

theorem mono {l : Nat} (h : p.Alike g l p') (hk : k ≤ l) : p.Alike g k p' where
  window := by
    have hw := congrArg (·.take k) h.window
    simpa [Parser.window, List.take_take, ← List.map_take, Nat.min_eq_left hk] using hw
  depth := h.depth
  limit := h.limit

theorem peek (h : p.Alike g (k + 1) p') : p'.peek = p.peek.relocate g := by
  obtain ⟨later, hp⟩ := p.window_succ k
  obtain ⟨later', hp'⟩ := p'.window_succ k
  have hw := h.window
  rw [hp, hp', List.map_cons] at hw
  exact (List.cons.inj hw).1

/-- What was read alike may be left out. -/
theorem of_reaches {ts : List Token} (h : p.Alike g (ts.length + k) p') (hq : p.Reaches ts q)
    (hq' : p'.Reaches (ts.map (·.relocate g)) q') (hd : q'.depth = q.depth) : q.Alike g k q' where
  window := by
    have hw := h.window
    have hlength : ts.length + k = (ts.map (·.relocate g)).length + k := by rw [List.length_map]
    rw [hq.window, hlength, hq'.window, List.map_append] at hw
    exact List.append_cancel_left hw
  depth := hd
  limit := by
    rw [hq.limit, hq'.limit]
    exact h.limit

end Alike

/-! ## The same tokens up to the end -/

/-- `p'` has the tokens `ts` before it, but for their places, and none behind them; it stands at the
depth of `p` with a limit that is no lower. -/
structure Ends (g : Span → Span) (ts : List Token) (p p' : Parser) : Prop where
  ahead : p'.ahead = ts.map (·.relocate g)
  stop : ∃ u : Token, u.isEof = true ∧ p'.stop = u.relocate g
  depth : p'.depth = p.depth
  limit : p.limit ≤ p'.limit

namespace Ends

variable {p p' q q' : Parser} {ts us : List Token}

theorem room_le (h : p.Ends g ts p') : p.room ≤ p'.room := by
  unfold room
  rw [h.depth]
  exact Nat.sub_le_sub_right h.limit _

/-- Before the end, the parsers are alike. -/
theorem alike {rest : List Token} (h : p.Ends g (ts ++ us) p') (ha : p.ahead = ts ++ us ++ rest)
    (hus : us ≠ []) : p.Alike g (ts.length + 1) p' where
  window := by
    have hlength : ts.length + 1 ≤ (ts ++ us).length := by
      have := List.length_pos_iff.2 hus
      rw [List.length_append]
      omega
    have hlength' : ts.length + 1 ≤ ((ts ++ us).map (·.relocate g)).length := by
      rw [List.length_map]
      exact hlength
    unfold window
    rw [h.ahead, ha, List.take_append_of_le_length hlength', List.append_assoc (ts ++ us),
      List.take_append_of_le_length hlength, List.map_take]
  depth := h.depth
  limit := h.limit

theorem of_reaches (h : p.Ends g (ts ++ us) p') (hq : p.Reaches ts q)
    (hq' : p'.Reaches (ts.map (·.relocate g)) q') (hd : q'.depth = q.depth) : q.Ends g us q' where
  ahead := by
    have ha := h.ahead
    rw [List.map_append] at ha
    exact hq'.ahead_eq ha
  stop := by
    rw [hq'.stop]
    exact h.stop
  depth := hd
  limit := by
    rw [hq.limit, hq'.limit]
    exact h.limit

end Ends

/-! ## Depths -/

/-- How deep a run from `p` that reads `ts` and fails at `q` can stand there: every level is opened
by a token and within the limit, and no level that was open before is closed. -/
structure Climbs (p : Parser) (ts : List Token) (q : Parser) : Prop where
  le : p.depth ≤ q.depth
  tokens : q.depth ≤ p.depth + ts.length
  limit : q.depth ≤ max p.depth p.limit

namespace Climbs

variable {p q r : Parser} {ts us : List Token}

theorem of_depth_eq (h : q.depth = p.depth) : p.Climbs ts q :=
  ⟨by omega, by omega, by omega⟩

theorem depth_eq (h : p.Climbs [] q) : q.depth = p.depth := by
  have hle := h.le
  have htokens := h.tokens
  rw [List.length_nil] at htokens
  omega

theorem prepend (hq : p.Reaches ts q) (hd : q.depth = p.depth) (h : q.Climbs us r) :
    p.Climbs (ts ++ us) r := by
  obtain ⟨hle, htokens, hlimit⟩ := h
  rw [hq.limit] at hlimit
  refine ⟨by omega, ?_, by omega⟩
  rw [List.length_append]
  omega

/-- A level deeper, behind the token that opens it. -/
theorem behind {t : Token} (hq : p.Reaches [t] q) (hd : q.depth = p.depth + 1)
    (hlt : p.depth < p.limit) (h : q.Climbs us r) : p.Climbs (t :: us) r := by
  obtain ⟨hle, htokens, hlimit⟩ := h
  rw [hq.limit] at hlimit
  refine ⟨by omega, ?_, by omega⟩
  rw [List.length_cons]
  omega

end Climbs

end Parser

/-! ## Runs to the end -/

namespace Rule

variable {α β : Type} {m : Nat}

/-- Run from `p` on, the rule reads `ts` and ends at the depth `d`, with an error or where it
began. -/
def Stops (s : Rule α) (p : Parser) (ts : List Token) (d : Nat) : Prop :=
  ∃ q, p.Reaches ts q ∧ q.depth = d ∧
    ((∃ e, s p = (q, .error e)) ∨ d = p.depth ∧ ∃ a, s p = (q, .ok a))

theorem Stops.fst {s : Rule α} {p : Parser} {ts : List Token} {d : Nat} (h : s.Stops p ts d) :
    p.Reaches ts (s p).1 ∧ (s p).1.depth = d := by
  obtain ⟨q, hq, hd, ⟨e, hx⟩ | ⟨_, a, hx⟩⟩ := h <;>
  · rw [hx]
    exact ⟨hq, hd⟩

/-- Where no token is left, the rule stays at its place and at its depth. -/
def Rests (g : Span → Span) (m : Nat) (s : Rule α) : Prop :=
  ∀ p : Parser, p.Proper → p.room = m → p.ahead = [] →
    (∃ u : Token, u.isEof = true ∧ p.stop = u.relocate g) → s.Stops p [] p.depth

theorem Rests.pure (a : α) : (Pure.pure a : Rule α).Rests g m :=
  fun p _ _ _ _ => ⟨p, .refl p, rfl, .inr ⟨rfl, a, rfl⟩⟩

theorem failExpected_apply (what : String) (p : Parser) :
    ∃ q e, (failExpected what : Rule α) p = (q, .error e) ∧ p.Reaches [] q ∧ q.depth = p.depth :=
  ⟨_, _, rfl, p.reaches_logging _, rfl⟩

theorem Rests.failExpected (what : String) : (Rule.failExpected what : Rule α).Rests g m := by
  intro p _ _ _ _
  obtain ⟨q, e, hq, hr, hd⟩ := failExpected_apply what p
  exact ⟨q, hr, hd, .inl ⟨e, hq⟩⟩

theorem Rests.congr {r s : Rule α} (hr : r.Rests g m)
    (h : ∀ p : Parser, p.Proper → p.ahead = [] → s p = r p) : s.Rests g m := by
  intro p hp hm ha hstop
  unfold Stops
  rw [h p hp ha]
  exact hr p hp hm ha hstop

/-- Behind the last token there is nothing left to read. -/
theorem Stops.bind {s : Rule α} {f : α → Rule β} {p p' : Parser} {ts : List Token} {d : Nat}
    (hs : s.Stops p' (ts.map (·.relocate g)) d) (hp' : p'.Proper) (hm : p'.room = m)
    (he : p.Ends g ts p') (hf : ∀ a, (f a).Rests g m) :
    (s >>= f).Stops p' (ts.map (·.relocate g)) d := by
  obtain ⟨q, hq, hd, ⟨e, hx⟩ | ⟨rfl, a, hx⟩⟩ := hs
  · exact ⟨q, hq, hd, .inl ⟨e, bind_apply_error hx⟩⟩
  · have hahead : q.ahead = [] := hq.ahead_eq (by rw [he.ahead, List.append_nil])
    obtain ⟨r, hr, hdr, hy⟩ := hf a q (hp'.of_reaches hq) ((hq.room_eq hd).trans hm) hahead
      (by rw [hq.stop]; exact he.stop)
    have hqr := hq.trans hr
    rw [List.append_nil] at hqr
    refine ⟨r, hqr, hdr.trans hd, ?_⟩
    rw [bind_apply_ok hx]
    exact hy.imp_right fun ⟨_, b, hb⟩ => ⟨rfl, b, hb⟩

theorem Rests.bind {r : Rule α} {f : α → Rule β} (hr : r.Rests g m)
    (hf : ∀ a, (f a).Rests g m) : (r >>= f).Rests g m := by
  intro p hp hm ha hstop
  have he : p.Ends g [] p := ⟨ha, hstop, rfl, Nat.le_refl _⟩
  have hs : r.Stops p (([] : List Token).map (·.relocate g)) p.depth := hr p hp hm ha hstop
  exact hs.bind hp hm he hf

theorem many_rests (close : Token → Bool) (item : Rule α) : (many close item).Rests g m := by
  refine (Rests.pure []).congr fun p _ ha => ?_
  unfold many
  rw [inspect_apply, ha]
  rfl

theorem commaTail_rests (item : Rule α) (what : String) : (commaTail item what).Rests g m := by
  refine (Rests.failExpected what).congr fun p _ ha => ?_
  unfold commaTail
  rw [inspect_apply, ha]
  rfl

theorem operatorTail_rests (operand : Rule Expr) (left : Expr) :
    (operatorTail operand left).Rests g m := by
  refine (Rests.pure left).congr fun p _ ha => ?_
  unfold operatorTail
  rw [inspect_apply, ha]
  rfl

theorem primary_rests (inner : Rule Expr) : (primary inner).Rests g m := by
  refine (Rests.failExpected "primary expression").congr fun p hp ha => ?_
  unfold primary leaf
  rw [matchSymbol_bind, isSymbol_at_end hp ha, if_neg Bool.false_ne_true]
  show (peek >>= _) p = _
  rw [peek_bind, hp.kind_at_end ha]

theorem expressionAt_rests (n : Nat) : (expressionAt n).Rests g m := by
  rw [expressionAt_eq]
  exact (primary_rests _).bind fun first => operatorTail_rests _ first

/-- A level whose tokens end before it is closed stays open. -/
theorem Stops.closed {inner : Rule α} {p : Parser} {ts : List Token} {d : Nat}
    (h : inner.Stops p ts d) (hp : p.Proper) (ha : p.ahead = ts) (close : Char)
    (context : String) :
    ∃ q e, Rule.closed inner close context p = (q, .error e) ∧ p.Reaches ts q ∧ q.depth = d := by
  obtain ⟨q, hq, hd, ⟨e, hx⟩ | ⟨_, a, hx⟩⟩ := h
  · exact ⟨q, e, closed_apply_error hx, hq, hd⟩
  · have hahead : q.ahead = [] := hq.ahead_eq (by rw [ha, List.append_nil])
    obtain ⟨r, e, hr, hqr, hdr⟩ := failExpected_apply (α := α)
      ("'" ++ String.singleton close ++ "' " ++ context) q
    have hpr := hq.trans hqr
    rw [List.append_nil] at hpr
    refine ⟨r, e, ?_, hpr, hdr.trans hd⟩
    rw [closed_apply_ok hx close context, isSymbol_at_end (hp.of_reaches hq) hahead, if_neg Bool.false_ne_true,
      hr]

end Rule

end ScopeFront
