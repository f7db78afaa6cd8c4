import Mathlib.Data.List.TakeWhile
import ScopeFront.Proofs.Parser.Completeness

/-!
# Exactly the grammar

A sequence of tokens is read as a forest if and only if the tokens before its first end marker
derive the forest in the grammar, within the allowed nesting.  One half says that every accepted
token has its place in a derivation, the other that no look at the next token leads away from one.

* `Rule.forest_ok_iff` – for a parser at any place;
* `parseTokens_eq_ok_iff` – for a sequence of tokens.
-/

set_option autoImplicit false

namespace ScopeFront

namespace Rule

/-- A forest is read up to the end. -/
theorem forest_ends {p q : Parser} {nodes : List Node} (hp : p.Proper)
    (h : forest p = (q, .ok nodes)) : q.ahead = [] := by
  obtain ⟨q, hpq, _, hforest⟩ := forest_apply p
  rcases hx : many (fun _ => false) topLevel q with ⟨r, x⟩
  obtain ⟨r', hr', hrr', _⟩ := hforest r x hx
  rw [h] at hr'
  cases hr'
  have hend := many_stops topLevel_advances (hp.of_reaches hpq) rfl hx
  have hahead : r.ahead = [] ++ [] := by simpa [Parser.atEnd] using hend
  exact hrr'.ahead_eq hahead

/-- The tokens ahead derive the forest that was read from them. -/
theorem program_of_forest {p q : Parser} {nodes : List Node} (hp : p.Proper)
    (h : forest p = (q, .ok nodes)) : Grammar.Program p.room p.ahead nodes := by
  have hread := forest_reads p hp rfl
  rw [h] at hread
  cases hread with
  | read hpq _ hnodes =>
      rw [hpq.ahead, forest_ends hp h, List.append_nil]
      exact hnodes

/-- A forest that the tokens ahead derive is read from them. -/
theorem forest_of_program {p : Parser} {nodes : List Node} (hp : p.Proper)
    (h : Grammar.Program p.room p.ahead nodes) : ∃ q, forest p = (q, .ok nodes) := by
  obtain ⟨q, hpq, hd, hforest⟩ := forest_apply p
  have hq := hp.of_reaches hpq
  have hahead : q.ahead = p.ahead ++ [] := by rw [hpq.ahead, List.nil_append, List.append_nil]
  obtain ⟨r, hqr, hd', hr⟩ := topLevels_append h hq (hpq.room_eq hd) hahead
  have hend : many (fun _ => false) topLevel r = (r, .ok []) := by
    rw [many_apply topLevel_advances (hq.of_reaches hqr) rfl, Parser.atEnd, hqr.ahead_eq hahead]
    rfl
  rw [bind_apply_ok hend, List.append_nil] at hr
  obtain ⟨s, hs, _, _⟩ := hforest _ _ hr
  exact ⟨s, hs⟩

theorem forest_ok_iff {p : Parser} {nodes : List Node} (hp : p.Proper) :
    (forest p).2 = .ok nodes ↔ Grammar.Program p.room p.ahead nodes := by
  constructor
  · intro h
    exact program_of_forest (q := (forest p).1) hp (by rw [← h])
  · intro h
    obtain ⟨q, hq⟩ := forest_of_program hp h
    rw [hq]

end Rule

theorem parseTokens_snd (limit : Nat) (tokens : List Token) :
    (parseTokens limit tokens).2 = (Rule.forest (Parser.ofTokens tokens limit)).2 := rfl

/-- What one limit allows, a higher one allows too. -/
theorem parseTokens_mono {limit limit' : Nat} {tokens : List Token} {nodes : List Node}
    (hle : limit ≤ limit') (h : (parseTokens limit tokens).2 = .ok nodes) :
    (parseTokens limit' tokens).2 = .ok nodes := by
  rw [parseTokens_snd, Rule.forest_ok_iff (Parser.ofTokens_proper tokens _)] at h ⊢
  exact Grammar.Program.mono hle h

/-- Without end markers, all tokens are ahead. -/
theorem Parser.ofTokens_ahead_of_forall {tokens : List Token}
    (heof : ∀ t ∈ tokens, t.isEof = false) (limit : Nat) :
    (ofTokens tokens limit).ahead = tokens := by
  rw [ofTokens_ahead, List.takeWhile_eq_self_iff.2 (by simpa using heof)]

/-- Without end markers, the tokens of a program are accepted. -/
theorem parseTokens_of_program {limit : Nat} {tokens : List Token} {nodes : List Node}
    (h : Grammar.Program limit tokens nodes) (heof : ∀ t ∈ tokens, t.isEof = false) :
    (parseTokens limit tokens).2 = .ok nodes := by
  rw [parseTokens_snd, Rule.forest_ok_iff (Parser.ofTokens_proper tokens limit),
    Parser.ofTokens_ahead_of_forall heof]
  exact h

/-- Without end markers, tokens that are accepted are those of a program. -/
theorem program_of_parseTokens {limit : Nat} {tokens : List Token} {nodes : List Node}
    (h : (parseTokens limit tokens).2 = .ok nodes) (heof : ∀ t ∈ tokens, t.isEof = false) :
    Grammar.Program limit tokens nodes := by
  rw [parseTokens_snd, Rule.forest_ok_iff (Parser.ofTokens_proper tokens limit),
    Parser.ofTokens_ahead_of_forall heof] at h
  exact h

/-- **The accepted sequences are those of the grammar.**  The tokens before the first end marker,
and no others, decide; the forest is the one they derive with at most `limit` levels inside each
other. -/
theorem parseTokens_eq_ok_iff (limit : Nat) (tokens : List Token) (nodes : List Node) :
    (parseTokens limit tokens).2 = .ok nodes ↔
      Grammar.Program limit (tokens.takeWhile (!·.isEof)) nodes := by
  rw [← Parser.ofTokens_ahead tokens limit, parseTokens_snd]
  exact Rule.forest_ok_iff (Parser.ofTokens_proper tokens limit)

end ScopeFront
