import ScopeFront.Proofs.Parser.Exactness
import ScopeFront.Proofs.Parser.Lookahead

/-!
# Errors stand at the first wrong token

A run that refuses a token has read the beginning of some program, and no program goes on with the
refused token.

* `Parser.Proper.window_eq` – the tokens up to the first end marker are the ones a parser sees;
* `refused_token_is_first_wrong` – both halves, for every refused sequence of tokens.
-/

set_option autoImplicit false

namespace ScopeFront

namespace Parser

/-- What stands at the beginning of the sequence, without an end marker before the last token, is
what the parser sees. -/
theorem Proper.window_eq {p : Parser} (hp : p.Proper) {ts rest : List Token} {t : Token}
    (h : p.ahead ++ p.stop :: p.beyond = ts ++ t :: rest) (hts : ∀ u ∈ ts, u.isEof = false) :
    p.window (ts.length + 1) = ts ++ [t] := by
  have hstop := hp.stop
  unfold window
  generalize p.ahead = ahead at h
  generalize p.stop = stop at h hstop ⊢
  induction ts generalizing ahead with
  | nil =>
      cases ahead with
      | nil =>
          obtain ⟨rfl, _⟩ := List.cons.inj h
          rfl
      | cons u later =>
          obtain ⟨rfl, _⟩ := List.cons.inj h
          rfl
  | cons v ts ih =>
      cases ahead with
      | nil =>
          obtain ⟨rfl, _⟩ := List.cons.inj h
          rw [hts stop (List.mem_cons_self ..)] at hstop
          cases hstop
      | cons u later =>
          obtain ⟨rfl, htail⟩ := List.cons.inj h
          have hrest := ih (fun w hw => hts w (List.mem_cons_of_mem _ hw)) later htail
          exact congrArg (u :: ·) hrest

theorem Proper.of_reads {p q : Parser} {ts : List Token} (hp : p.Proper) (h : p.Reaches ts q) :
    ∀ t ∈ ts, t.isEof = false :=
  fun t ht => hp.ahead t (by rw [h.ahead]; exact List.mem_append_left _ ht)

/-- Behind the tokens read comes the one at the place. -/
theorem Reaches.split {p q : Parser} {ts : List Token} (h : p.Reaches ts q) :
    ∃ rest, p.ahead ++ p.stop :: p.beyond = ts ++ q.peek :: rest := by
  rw [h.ahead, ← h.stop, List.append_assoc]
  unfold peek
  cases q.ahead with
  | nil => exact ⟨_, rfl⟩
  | cons t later => exact ⟨_, rfl⟩

/-- Parsers at the start of sequences that begin alike are alike. -/
theorem alike_ofTokens {tokens others : List Token} {limit limit' : Nat} {ts : List Token}
    {t : Token} (h : ts ++ [t] <+: terminated tokens) (h' : ts ++ [t] <+: terminated others)
    (hts : ∀ u ∈ ts, u.isEof = false) (hle : limit ≤ limit') :
    (ofTokens tokens limit).Alike id (ts.length + 1) (ofTokens others limit') where
  window := by
    have hwindow : ∀ {list : List Token} {k : Nat}, ts ++ [t] <+: terminated list →
        (ofTokens list k).window (ts.length + 1) = ts ++ [t] := by
      rintro list k ⟨rest, hrest⟩
      rw [List.append_assoc, ofTokens_split list k] at hrest
      exact (ofTokens_proper list k).window_eq hrest.symm hts
    rw [hwindow h, hwindow h']
    exact (Token.map_relocate_id _).symm
  depth := rfl
  limit := hle

end Parser

/-- An error other than one about the nesting refuses the token it found. -/
theorem ParseError.found_of_refuses {e : ParseError} {t : Token} (h : e.Refuses t) :
    e.found = .ofToken t := by
  cases e with
  | expected what found => exact h
  | unexpectedToken found context => exact h
  | tooDeep found limit => cases h

section Refusal

variable {limit : Nat} {tokens : List Token} {p : Parser} {e : ParseError}
  (hrun : Rule.forest (Parser.ofTokens tokens limit) = (p, .error e)) (he : ¬ e.IsTooDeep)

include hrun he

/-- A refusal, with the tokens read before it and a completion of them. -/
theorem exists_completion : ∃ ts us n nodes, (Parser.ofTokens tokens limit).Reaches ts p ∧
    e.Refuses p.peek ∧ Grammar.Program n (ts ++ us) nodes ∧ ∀ t ∈ us, t.isEof = false := by
  have hread := Rule.forest_reads _ (Parser.ofTokens_proper tokens limit) rfl
  rw [hrun] at hread
  cases hread with
  | tooDeep => exact absurd trivial he
  | @refused _ ts us n nodes _ hp hrefuse hnodes hus =>
      exact ⟨ts, us, n, nodes, hp, hrefuse, hnodes, hus⟩

/-- Sequences that begin with the tokens read and the refused one are refused there as well, with
the same limit or a higher one. -/
theorem refused_alike {ts others : List Token} {limit' : Nat}
    (hts : (Parser.ofTokens tokens limit).Reaches ts p)
    (h : ts ++ [p.peek] <+: terminated tokens) (h' : ts ++ [p.peek] <+: terminated others)
    (hle : limit ≤ limit') : (parseTokens limit' others).2 = .error e := by
  have hproper := Parser.ofTokens_proper tokens limit
  have hmirror : Mirrored id limit' Rule.forest _ _ :=
    Rule.forest_mirrors hle _ hproper (by rfl)
  rw [hrun] at hmirror
  cases hmirror with
  | tooDeep => exact absurd trivial he
  | @refused _ us _ hus _ _ hsame =>
      -- the tokens read are those of the refusal
      obtain rfl := hus.unique hts
      have halike := Parser.alike_ofTokens h h' (hproper.of_reads hts) hle
      obtain ⟨q, hq, _⟩ := hsame _ (Parser.ofTokens_proper others limit') rfl halike
      rw [ParseError.relocate_id] at hq
      unfold parseTokens
      rw [hq]

end Refusal

/-- **An error stands at the first token that no program has there.**  When a token is refused, it
is the one at the place `p.passed.length`, and no end marker stands before it.  Every sequence that
agrees up to and including this token is refused with the same error, and no other limit lets it
pass; but the tokens before it can be completed to a program. -/
theorem refused_token_is_first_wrong {limit : Nat} {tokens : List Token} {p : Parser}
    {e : ParseError} (hrun : Rule.forest (Parser.ofTokens tokens limit) = (p, .error e))
    (he : ¬ e.IsTooDeep) :
    ∃ t, (terminated tokens)[p.passed.length]? = some t ∧ e.found = .ofToken t ∧
      (∀ u ∈ (terminated tokens).take p.passed.length, u.isEof = false) ∧
      (∀ others, (terminated tokens).take (p.passed.length + 1) <+: terminated others →
        (parseTokens limit others).2 = .error e ∧
          ∀ limit' nodes, (parseTokens limit' others).2 ≠ .ok nodes) ∧
      ∃ rest enough nodes, ∀ limit', enough ≤ limit' →
        (parseTokens limit' ((terminated tokens).take p.passed.length ++ rest)).2 = .ok nodes := by
  obtain ⟨ts, us, n, nodes, hts, hrefuse, hnodes, hus⟩ := exists_completion hrun he
  have heof := (Parser.ofTokens_proper tokens limit).of_reads hts
  have hlength : p.passed.length = ts.length := by
    rw [hts.passed, List.length_append, List.length_reverse]
    rfl
  obtain ⟨behind, hsplit⟩ := hts.split
  rw [← Parser.ofTokens_split] at hsplit
  have htake : (terminated tokens).take p.passed.length = ts := by
    rw [hsplit, hlength, List.take_left]
  have htake' : (terminated tokens).take (p.passed.length + 1) = ts ++ [p.peek] := by
    rw [hsplit, hlength, List.take_length_add_append]
    rfl
  have hprefix : ts ++ [p.peek] <+: terminated tokens := ⟨behind, by rw [hsplit]; simp⟩
  refine ⟨p.peek, ?_, ParseError.found_of_refuses hrefuse, ?_, ?_, us, n, nodes, ?_⟩
  · rw [hsplit, hlength]
    simp
  · rw [htake]
    exact heof
  · intro others hothers
    rw [htake'] at hothers
    refine ⟨refused_alike hrun he hts hprefix hothers (Nat.le_refl _), fun limit' nodes hok => ?_⟩
    -- a limit that suits both runs
    have herror := refused_alike hrun he hts hprefix hothers (Nat.le_max_left limit limit')
    rw [parseTokens_mono (Nat.le_max_right limit limit') hok] at herror
    cases herror
  · intro limit' hle
    rw [htake]
    exact parseTokens_of_program (Grammar.Program.mono hle hnodes)
      (List.forall_mem_append.2 ⟨heof, hus⟩)

/-- In `f { x = ( 3 ;` the semicolon is the first wrong token, and what stands before it can be
completed. -/
theorem semicolon_in_parentheses_is_first_wrong :
    let tokens : List Token :=
      [⟨.identifier, "f", ⟨1, 0⟩⟩, ⟨.symbol, "\x7b", ⟨1, 2⟩⟩, ⟨.identifier, "x", ⟨1, 4⟩⟩,
        ⟨.symbol, "=", ⟨1, 6⟩⟩, ⟨.symbol, "(", ⟨1, 8⟩⟩, ⟨.literal, "3", ⟨1, 10⟩⟩,
        ⟨.symbol, ";", ⟨1, 12⟩⟩]
    let e : ParseError :=
      .expected "')' to close parenthesis" (.token ⟨.symbol, ";", ⟨1, 12⟩⟩)
    ¬ e.IsTooDeep ∧
      (∀ others, tokens <+: terminated others → (parseTokens 2 others).2 = .error e ∧
        ∀ limit' nodes, (parseTokens limit' others).2 ≠ .ok nodes) ∧
      ∃ rest enough nodes, ∀ limit', enough ≤ limit' →
        (parseTokens limit' (tokens.take 6 ++ rest)).2 = .ok nodes := by
  intro tokens e
  have he : ¬ e.IsTooDeep := id
  have hrun : Rule.forest (Parser.ofTokens tokens 2) =
      ((Rule.forest (Parser.ofTokens tokens 2)).1, .error e) := rfl
  obtain ⟨t, _, _, _, hothers, hrest⟩ := refused_token_is_first_wrong hrun he
  exact ⟨he, hothers, hrest⟩

end ScopeFront
