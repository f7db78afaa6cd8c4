import ScopeFront.Program
import ScopeFront.Proofs.Lexer.Concatenation
import ScopeFront.Proofs.Parser.Exactness
import ScopeFront.Proofs.Parser.Lookahead

/-!
# One program behind another

A program with a line feed and a text behind it is read as the two of them are by themselves: the
forests are joined, and an error of the second text stands as many lines further down as the first
one has.

* `parseTokens_append` – tokens behind the tokens of a program;
* `parseSource_append` – a source text behind a program.
-/

set_option autoImplicit false

namespace ScopeFront

/-- A parser at the start of a sequence whose only end marker comes last. -/
theorem Parser.ofTokens_append_stop {ts : List Token} {stop : Token}
    (hts : ∀ t ∈ ts, t.isEof = false) (hstop : stop.isEof = true) (limit : Nat) :
    (ofTokens (ts ++ [stop]) limit).ahead = ts ∧
      (ofTokens (ts ++ [stop]) limit).stop = stop := by
  have hproper : ∀ t ∈ ts, (!t.isEof) = true := fun t ht => by rw [hts t ht]; rfl
  have hterminated : terminated (ts ++ [stop]) = ts ++ [stop] := by
    simp [terminated, hstop]
  unfold ofTokens
  rw [hterminated, List.takeWhile_append_of_pos hproper, List.dropWhile_append_of_pos hproper]
  simp [hstop]

namespace Rule

variable {g : Span → Span}

/-- Nodes behind the nodes of a program: read like those of a parser over the same tokens at other
places. -/
theorem topLevels_behind {ts : List Token} {nodes : List Node} {p q : Parser}
    (hp : p.Proper) (hq : q.Proper) (h : Grammar.Program p.room ts nodes)
    (hahead : p.ahead = ts ++ q.ahead.map (·.relocate g)) (hstop : p.stop = q.stop.relocate g)
    (hdepth : p.depth = q.depth) (hlimit : p.limit = q.limit) :
    (many (fun _ => false) topLevel p).2 =
      match (many (fun _ => false) topLevel q).2 with
      | .error e => .error (e.relocate g)
      | .ok more => .ok (nodes ++ more) := by
  obtain ⟨r, hpr, hd, hr⟩ := topLevels_append h hp rfl hahead
  have halike : ∀ k, q.Alike g k r := by
    intro k
    refine ⟨?_, by rw [hd, hdepth], by rw [hpr.limit, hlimit]⟩
    unfold Parser.window
    rw [hpr.ahead_eq hahead, hpr.stop, hstop, List.map_take, List.map_append]
    rfl
  have hroom : r.room = q.room := by rw [hpr.room_eq hd, Parser.room, Parser.room, hlimit, hdepth]
  have hmirror := topLevels_mirror (g := g) (Nat.le_refl q.room) q hq rfl
  obtain ⟨_, s, _, _, hs⟩ := hmirror.same (hp.of_reaches hpr) hroom halike
    (hpr.limit.trans hlimit)
  rw [hr]
  rcases hx : (many (fun _ => false) topLevel q).2 with e | more
  · rw [hx] at hs
    rw [bind_apply_error hs]
  · rw [hx] at hs
    rw [bind_apply_ok hs]
    rfl

/-- What a program comes to is what its nodes come to. -/
theorem forest_snd (p : Parser) : ∃ q, p.Reaches [] q ∧ q.depth = p.depth ∧
    (forest p).2 = (many (fun _ => false) topLevel q).2 := by
  obtain ⟨q, hpq, hd, hforest⟩ := forest_apply p
  refine ⟨q, hpq, hd, ?_⟩
  rcases hx : many (fun _ => false) topLevel q with ⟨r, x⟩
  obtain ⟨r', hr', _, _⟩ := hforest r x hx
  rw [hr']

end Rule

/-- Tokens behind those of a program, at whatever places they stand. -/
theorem parseTokens_append (g : Span → Span) {limit : Nat} {ts us : List Token} {t u : Token}
    {nodes : List Node} (hts : ∀ t ∈ ts, t.isEof = false) (ht : t.isEof = true)
    (hus : ∀ u ∈ us, u.isEof = false) (hu : u.isEof = true)
    (h : (parseTokens limit (ts ++ [t])).2 = .ok nodes) :
    (parseTokens limit (ts ++ (us ++ [u]).map (·.relocate g))).2 =
      match (parseTokens limit (us ++ [u])).2 with
      | .error e => .error (e.relocate g)
      | .ok more => .ok (nodes ++ more) := by
  rw [parseTokens_snd, Rule.forest_ok_iff (Parser.ofTokens_proper _ _),
    (Parser.ofTokens_append_stop hts ht limit).1] at h
  have hall : ∀ v ∈ ts ++ us.map (·.relocate g), v.isEof = false := by
    refine List.forall_mem_append.2 ⟨hts, List.forall_mem_map.2 fun v hv => ?_⟩
    rw [Token.isEof_relocate, hus v hv]
  have hsplit : ts ++ (us ++ [u]).map (·.relocate g) =
      ts ++ us.map (·.relocate g) ++ [u.relocate g] := by simp
  have hu' : (u.relocate g).isEof = true := hu
  obtain ⟨hahead, hstop⟩ := Parser.ofTokens_append_stop hall hu' limit
  obtain ⟨hahead', hstop'⟩ := Parser.ofTokens_append_stop hus hu limit
  obtain ⟨p, hp, hd, hforest⟩ := Rule.forest_snd
    (Parser.ofTokens (ts ++ us.map (·.relocate g) ++ [u.relocate g]) limit)
  obtain ⟨q, hq, hd', hforest'⟩ := Rule.forest_snd (Parser.ofTokens (us ++ [u]) limit)
  have hprogram : Grammar.Program p.room ts nodes := by
    rw [hp.room_eq hd]
    exact h
  have hpahead : p.ahead = ts ++ q.ahead.map (·.relocate g) := by
    rw [hp.ahead_eq (hahead.trans (List.nil_append _).symm),
      hq.ahead_eq (hahead'.trans (List.nil_append _).symm)]
  have hpstop : p.stop = q.stop.relocate g := by rw [hp.stop, hq.stop, hstop, hstop']
  rw [hsplit, parseTokens_snd, parseTokens_snd, hforest, hforest']
  exact Rule.topLevels_behind ((Parser.ofTokens_proper _ _).of_reaches hp)
    ((Parser.ofTokens_proper _ _).of_reaches hq) hprogram hpahead hpstop (hd.trans hd'.symm)
    (hp.limit.trans hq.limit.symm)

/-! ## Source texts -/

theorem parseSource_snd (settings : Settings) (source : String) :
    (parseSource settings source).2 =
      match (tokenize settings.unmatched source).2 with
      | .error e => .error (.lex e)
      | .ok tokens =>
        match (parseTokens settings.maxDepth tokens).2 with
        | .error e => .error (.parse e)
        | .ok forest => .ok forest := by
  unfold parseSource
  rcases tokenize settings.unmatched source with ⟨log, e | tokens⟩
  · rfl
  · simp only
    rcases parseTokens settings.maxDepth tokens with ⟨log', e | forest⟩ <;> rfl

theorem parseSource_ok {settings : Settings} {source : String} {forest : List Node}
    (h : (parseSource settings source).2 = .ok forest) :
    ∃ tokens, (tokenize settings.unmatched source).2 = .ok tokens ∧
      (parseTokens settings.maxDepth tokens).2 = .ok forest := by
  rw [parseSource_snd] at h
  cases htokens : (tokenize settings.unmatched source).2 with
  | error e =>
      rw [htokens] at h
      cases h
  | ok tokens =>
      rw [htokens] at h
      refine ⟨tokens, rfl, ?_⟩
      cases hforest : (parseTokens settings.maxDepth tokens).2 with
      | error e => simp [hforest] at h
      | ok nodes => simpa [hforest] using h

/-- The tokens of an accepted text are those of a program, with the end marker behind them. -/
theorem program_of_parseSource {settings : Settings} {source : String} {forest : List Node}
    (h : (parseSource settings source).2 = .ok forest) :
    ∃ ts place, (tokenize settings.unmatched source).2 = .ok (ts ++ [Token.eof place]) ∧
      Grammar.Program settings.maxDepth ts forest := by
  obtain ⟨tokens, htokens, hforest⟩ := parseSource_ok h
  obtain ⟨ts, hts, rfl⟩ := (tokenize_emits htokens).ends
  refine ⟨ts, _, htokens, ?_⟩
  rw [parseTokens_snd, Rule.forest_ok_iff (Parser.ofTokens_proper _ _),
    (Parser.ofTokens_append_stop hts rfl _).1] at hforest
  exact hforest

/-- What comes of a program with a line feed and a text behind it. -/
theorem parseSource_append_eq {settings : Settings} {a : String} {forest : List Node}
    (hpolicy : settings.unmatched = .reject) (ha : (parseSource settings a).2 = .ok forest)
    (b : String) :
    (parseSource settings (a ++ "\n" ++ b)).2 =
      match (parseSource settings b).2 with
      | .error e => .error (e.relocate (Span.down (1 + a.toList.count '\n')))
      | .ok more => .ok (forest ++ more) := by
  obtain ⟨tokens, htokens, hforest⟩ := parseSource_ok ha
  have hends := (tokenize_emits htokens).ends
  rw [hpolicy] at htokens
  obtain ⟨ts, rfl, happend⟩ := tokenize_append htokens b
  obtain ⟨ts', hts, heq⟩ := hends
  obtain ⟨rfl, _⟩ := List.append_inj' heq rfl
  rw [parseSource_snd, parseSource_snd, hpolicy, happend]
  cases hb : (tokenize .reject b).2 with
  | error e => rfl
  | ok later =>
      obtain ⟨us, hus, rfl⟩ := (tokenize_emits hb).ends
      simp only
      rw [parseTokens_append _ hts rfl hus rfl hforest]
      cases (parseTokens settings.maxDepth
        (us ++ [Token.eof (Span.start.after ([] ++ List.flatMap Segment.text
          (segments b.toList)))])).2 <;> rfl

/-- **A program with a text behind it.**  Behind a line feed, the nodes of a second program are
joined to those of the first, and an error of the second text is the same error, with the place of
what it found as many lines further down as the first text and the line feed take. -/
theorem parseSource_append {settings : Settings} {a b : String} {forest : List Node}
    (hpolicy : settings.unmatched = .reject) (ha : (parseSource settings a).2 = .ok forest) :
    (∀ more, (parseSource settings b).2 = .ok more →
      (parseSource settings (a ++ "\n" ++ b)).2 = .ok (forest ++ more)) ∧
    ∀ e, (parseSource settings b).2 = .error e →
      (parseSource settings (a ++ "\n" ++ b)).2 =
        .error (e.relocate (Span.down (1 + a.toList.count '\n'))) := by
  have happend := parseSource_append_eq hpolicy ha b
  constructor
  · intro more hb
    rw [happend, hb]
  · intro e hb
    rw [happend, hb]

/-- A scope with comments behind it, the last of which ends without a line feed. -/
theorem parseSource_append_comments :
    let a := "f \x7b \x7d /* g */\n// \x7b"
    Settings.default.unmatched = .reject ∧
      (parseSource .default a).2 = .ok [.namedScope "f" []] ∧
      ∀ b, (∀ more, (parseSource .default b).2 = .ok more →
        (parseSource .default (a ++ "\n" ++ b)).2 = .ok (.namedScope "f" [] :: more)) ∧
        ∀ e, (parseSource .default b).2 = .error e →
          (parseSource .default (a ++ "\n" ++ b)).2 = .error (e.relocate (Span.down 2)) := by
  intro a
  have htokens : (tokenize Settings.default.unmatched a).2 = .ok
      [⟨.identifier, "f", ⟨1, 0⟩⟩, ⟨.symbol, "\x7b", ⟨1, 2⟩⟩, ⟨.symbol, "\x7d", ⟨1, 4⟩⟩,
        .eof ⟨2, 4⟩] := eq_ok_of_toOption (by decide +kernel)
  have ha : (parseSource .default a).2 = .ok [.namedScope "f" []] := by
    rw [parseSource_snd, htokens]
    rfl
  have hlines : 1 + a.toList.count '\n' = 2 := by decide
  refine ⟨rfl, ha, fun b => ?_⟩
  have happend := parseSource_append (b := b) rfl ha
  rw [hlines] at happend
  exact happend

end ScopeFront
