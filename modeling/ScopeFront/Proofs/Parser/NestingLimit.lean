import Mathlib.Order.Nat
import ScopeFront.Proofs.Parser.CorrectPrefix

/-!
# The limit on the nesting

A run breaks off at the first bracket that opens a level too many.  With a higher limit it goes on
there, and from some limit on nothing changes any more.  How many levels are open behind some
tokens is where a run over them ends that no limit stops.

* `unlimited`, `openLevels` – where a run ends that no limit stops, and its depth there;
* `Settles`, `BreaksOff` – the two ways a run can end, with what they say about other runs;
* `nesting_limit_threshold` – the limit from which on the nesting is allowed, and the bracket that
  a lower limit complains about.
-/

set_option autoImplicit false

namespace ScopeFront

/-! ## Levels -/

/-- Where a run ends that no limit stops: every level needs a token that opens it. -/
def unlimited (tokens : List Token) : Parser :=
  (Rule.forest (Parser.ofTokens tokens tokens.length)).1

/-- The number of bodies and parentheses that are open behind the tokens. -/
def openLevels (tokens : List Token) : Nat := (unlimited tokens).depth

theorem openLevels_nil : openLevels [] = 0 := rfl

theorem prefix_terminated {ts tokens : List Token} (h : ts <+: tokens) :
    ts <+: terminated tokens := by
  unfold terminated
  split
  · exact h
  · exact h.trans (List.prefix_append _ _)

namespace Parser

variable {tokens ts : List Token} {limit : Nat}

/-- What a run reads stands at the beginning of the sequence. -/
theorem Reaches.prefix_ofTokens {q : Parser} (h : (ofTokens tokens limit).Reaches ts q) :
    ts <+: tokens := by
  have hahead := h.ahead
  rw [ofTokens_ahead] at hahead
  have hts : ts <+: tokens.takeWhile (!·.isEof) := ⟨q.ahead, hahead.symm⟩
  exact hts.trans (List.takeWhile_prefix _)

/-- A parser before tokens that end where those of another one go on. -/
theorem ends_ofTokens {limit' : Nat} (hts : ∀ t ∈ ts, t.isEof = false) (hle : limit ≤ limit') :
    (ofTokens tokens limit).Ends id ts (ofTokens ts limit') where
  ahead := by
    rw [ofTokens_ahead_of_forall hts, Token.map_relocate_id]
  stop := ⟨_, (ofTokens_proper ts limit').stop, rfl⟩
  depth := rfl
  limit := hle

/-- A run never stands deeper than its limit, nor than the number of tokens it has read. -/
theorem Climbs.depth_le {tokens ts : List Token} {d : Nat} {q : Parser}
    (h : (ofTokens tokens d).Climbs ts q) :
    q.depth ≤ d ∧ q.depth ≤ ts.length := by
  have hlimit : q.depth ≤ max 0 d := h.limit
  have htokens : q.depth ≤ 0 + ts.length := h.tokens
  omega

end Parser

/-! ## Runs within their limit -/

/-- With `d` levels allowed, the run reads `ts` and does not ask for more levels.  A higher limit
changes nothing, and neither do other tokens behind the next one. -/
structure Settles (tokens : List Token) (d : Nat) (ts : List Token) : Prop where
  allowed : ∀ e, (Rule.forest (.ofTokens tokens d)).2 = .error e → ¬ e.IsTooDeep
  depth_le : (Rule.forest (.ofTokens tokens d)).1.depth ≤ d
  alike : ∀ others d', d ≤ d' → (terminated tokens).take (ts.length + 1) <+: terminated others →
    (Rule.forest (.ofTokens others d')).2 = (Rule.forest (.ofTokens tokens d)).2 ∧
    (Rule.forest (.ofTokens others d')).1.depth = (Rule.forest (.ofTokens tokens d)).1.depth ∧
    (Parser.ofTokens others d').Reaches ts (Rule.forest (.ofTokens others d')).1

/-- A run that asks for no more levels comes to the same end from every alike parser. -/
theorem Mirrored.alike_of_allowed {α : Type} {m : Nat} {s : Rule α} {p q : Parser}
    {x : Except ParseError α} (h : Mirrored id m s p (q, x))
    (hx : ∀ e, x = .error e → ¬ e.IsTooDeep) :
    ∃ ts, p.Reaches ts q ∧ p.Climbs ts q ∧ ∀ p' : Parser, p'.Proper → p'.room = m →
      p.Alike id (ts.length + 1) p' →
      ∃ q', s p' = (q', x) ∧ p'.Reaches ts q' ∧ q'.depth = q.depth := by
  cases h with
  | @ok _ ts a hq hd hrun _ =>
      refine ⟨ts, hq, .of_depth_eq hd, fun p' hp' hm ha => ?_⟩
      obtain ⟨q', hq', hr', hd'⟩ := hrun p' hp' hm ha
      rw [Token.map_relocate_id] at hr'
      exact ⟨q', hq', hr', by rw [hd', ha.depth, hd]⟩
  | @refused _ ts e hq _ hclimbs hrun =>
      refine ⟨ts, hq, hclimbs, fun p' hp' hm ha => ?_⟩
      obtain ⟨q', hq', hr', hd'⟩ := hrun p' hp' hm ha
      rw [ParseError.relocate_id] at hq'
      rw [Token.map_relocate_id] at hr'
      exact ⟨q', hq', hr', hd'⟩
  | tooDeep => exact absurd trivial (hx _ rfl)

section Runs

variable {tokens : List Token} {d : Nat} {q : Parser} {x : Except ParseError (List Node)}
  (hx : Rule.forest (.ofTokens tokens d) = (q, x))

include hx

theorem forest_mirrored {d' : Nat} (hle : d ≤ d') :
    Mirrored id d' Rule.forest (.ofTokens tokens d) (q, x) := by
  have hmirror : Mirrored id d' Rule.forest _ _ :=
    Rule.forest_mirrors hle (.ofTokens tokens d) (Parser.ofTokens_proper tokens d) rfl
  rw [hx] at hmirror
  exact hmirror

theorem exists_settles (hdeep : ∀ e, x = .error e → ¬ e.IsTooDeep) :
    ∃ ts, Settles tokens d ts := by
  obtain ⟨ts, hts, hclimbs, _⟩ := (forest_mirrored hx (Nat.le_refl d)).alike_of_allowed hdeep
  obtain ⟨behind, hsplit⟩ := hts.split
  rw [← Parser.ofTokens_split] at hsplit
  have htake : (terminated tokens).take (ts.length + 1) = ts ++ [q.peek] := by
    rw [hsplit, List.take_length_add_append]
    rfl
  have hprefix : ts ++ [q.peek] <+: terminated tokens := htake ▸ List.take_prefix _ _
  refine ⟨ts, by rw [hx]; exact hdeep, ?_, fun others d' hle h => ?_⟩
  · rw [hx]
    exact hclimbs.depth_le.1
  · obtain ⟨us, hus, _, hrun⟩ := (forest_mirrored hx hle).alike_of_allowed hdeep
    obtain rfl := hts.unique hus
    rw [htake] at h
    have heof := (Parser.ofTokens_proper tokens d).of_reads hts
    obtain ⟨q', hq', hr', hd'⟩ := hrun _ (Parser.ofTokens_proper others d') rfl
      (Parser.alike_ofTokens hprefix h heof hle)
    rw [hx, hq']
    exact ⟨rfl, hd', hr'⟩

end Runs

/-- A higher limit changes nothing. -/
theorem Settles.raise {tokens ts : List Token} {d d' : Nat} (h : Settles tokens d ts)
    (hle : d ≤ d') :
    (Rule.forest (.ofTokens tokens d')).2 = (Rule.forest (.ofTokens tokens d)).2 ∧
    (Rule.forest (.ofTokens tokens d')).1.depth = (Rule.forest (.ofTokens tokens d)).1.depth := by
  obtain ⟨hsnd, hdepth, _⟩ := h.alike tokens d' hle (List.take_prefix _ _)
  exact ⟨hsnd, hdepth⟩

/-! ## Runs that break off -/

/-- With `d` levels allowed, the run breaks off at the bracket `t` behind `ts`, where `d` levels are
open.  A higher limit opens one more of them. -/
structure BreaksOff (tokens : List Token) (d : Nat) (ts : List Token) (t : Token) : Prop where
  bracket : t.isSymbol '(' = true ∨ t.isSymbol '{' = true
  reads : ts ++ [t] <+: tokens
  le : d ≤ ts.length
  levels : openLevels ts = d
  beyond : ∀ d', d < d' →
    (Parser.ofTokens (ts ++ [t]) d').Reaches (ts ++ [t])
      (Rule.forest (.ofTokens (ts ++ [t]) d')).1 ∧
    (Rule.forest (.ofTokens (ts ++ [t]) d')).1.depth = d + 1
  alike : ∀ others, ts ++ [t] <+: terminated others →
    (Rule.forest (.ofTokens others d)).2 = .error (.tooDeep (.ofToken t) d) ∧
    (Parser.ofTokens others d).Reaches (ts ++ [t]) (Rule.forest (.ofTokens others d)).1

/-- Where a run breaks off, the levels of runs whose tokens end there. -/
theorem Mirrored.ends_of_tooDeep {α : Type} {m : Nat} {s : Rule α} {p q : Parser}
    {e : ParseError} (h : Mirrored id m s p (q, .error e)) (he : e.IsTooDeep) {ts : List Token}
    {t : Token} (hq : p.Reaches (ts ++ [t]) q) :
    (∀ p' : Parser, p'.Proper → p'.room = m → p.Ends id ts p' → ts ≠ [] →
      s.Stops p' ts q.depth) ∧
    ∀ p' : Parser, p'.Proper → p'.room = m → p.Ends id (ts ++ [t]) p' → q.depth < p'.limit →
      s.Stops p' (ts ++ [t]) (q.depth + 1) := by
  cases h with
  | refused _ hallowed => exact absurd he hallowed
  | @tooDeep _ us u hq' _ _ _ _ hbefore hpast =>
      obtain ⟨rfl, hlast⟩ := List.append_inj' (hq'.unique hq) rfl
      obtain rfl := List.singleton_inj.1 hlast
      rw [Token.map_relocate_id] at hbefore hpast
      exact ⟨hbefore, hpast⟩

theorem exists_breaksOff {tokens : List Token} {d : Nat} {q : Parser} {e : ParseError}
    (hx : Rule.forest (.ofTokens tokens d) = (q, .error e)) (he : e.IsTooDeep) :
    ∃ ts t, e = .tooDeep (.ofToken t) d ∧ BreaksOff tokens d ts t := by
  have hproper := Parser.ofTokens_proper tokens d
  have hmirror := forest_mirrored hx (Nat.le_refl d)
  cases hmirror with
  | refused _ hallowed => exact absurd he hallowed
  | @tooDeep _ ts t hq hbracket hle hclimbs hsame _ _ =>
      have heof : ∀ u ∈ ts ++ [t], u.isEof = false := hproper.of_reads hq
      have heof' : ∀ u ∈ ts, u.isEof = false := fun u hu => heof u (List.mem_append_left _ hu)
      have hle' : d ≤ q.depth := hle
      have hbound := hclimbs.depth_le
      have hdepth : q.depth = d := by omega
      have hlength : d ≤ ts.length := by omega
      refine ⟨ts, t, rfl, hbracket, hq.prefix_ofTokens, hlength, ?_, fun d' hlt => ?_,
        fun others h => ?_⟩
      · by_cases hts : ts = []
        · subst hts
          rw [openLevels_nil, Nat.le_zero.1 hlength]
        · have hstops := ((forest_mirrored hx hlength).ends_of_tooDeep trivial hq).1 _
            (Parser.ofTokens_proper ts ts.length) rfl (Parser.ends_ofTokens heof' hlength) hts
          exact hstops.fst.2.trans hdepth
      · have hstops := ((forest_mirrored hx hlt.le).ends_of_tooDeep trivial hq).2 _
          (Parser.ofTokens_proper (ts ++ [t]) d') rfl (Parser.ends_ofTokens heof hlt.le)
          (by rw [hdepth]; exact hlt)
        rw [hdepth] at hstops
        exact hstops.fst
      · obtain ⟨q', hq', hr'⟩ := hsame _ (Parser.ofTokens_proper others d) rfl
          (Parser.alike_ofTokens (prefix_terminated hq.prefix_ofTokens) h heof' (Nat.le_refl d)) rfl
        rw [Token.map_relocate_id] at hr'
        rw [hq']
        exact ⟨rfl, hr'⟩

theorem settles_or_breaksOff (tokens : List Token) (d : Nat) :
    (∃ ts, Settles tokens d ts) ∨ ∃ ts t, BreaksOff tokens d ts t := by
  rcases hx : Rule.forest (.ofTokens tokens d) with ⟨q, x⟩
  by_cases hdeep : ∀ e, x = .error e → ¬ e.IsTooDeep
  · exact .inl (exists_settles hx hdeep)
  · push Not at hdeep
    obtain ⟨e, rfl, he⟩ := hdeep
    obtain ⟨ts, t, _, h⟩ := exists_breaksOff hx he
    exact .inr ⟨ts, t, h⟩

namespace BreaksOff

variable {tokens ts : List Token} {t : Token} {d : Nat} (h : BreaksOff tokens d ts t)

include h

theorem length_lt : ts.length < tokens.length := by
  have hlength := h.reads.length_le
  rw [List.length_append, List.length_singleton] at hlength
  omega

/-- No more levels are open anywhere before the bracket. -/
theorem levels_le {j : Nat} (hj : j ≤ ts.length) : openLevels (tokens.take j) ≤ d := by
  have hlength : (tokens.take j).length = j := List.length_take_of_le (hj.trans h.length_lt.le)
  rcases settles_or_breaksOff (tokens.take j) (min d j) with ⟨us, hus⟩ | ⟨us, u, hus⟩
  · have hle : min d j ≤ (tokens.take j).length := by rw [hlength]; exact Nat.min_le_right d j
    calc openLevels (tokens.take j)
        = (Rule.forest (.ofTokens (tokens.take j) (min d j))).1.depth := (hus.raise hle).2
      _ ≤ min d j := hus.depth_le
      _ ≤ d := Nat.min_le_left d j
  · -- a run over fewer tokens that breaks off does so over all of them, at the same bracket
    have hlt := hus.length_lt
    have hle := hus.le
    obtain hd : min d j = d := by omega
    rw [hd] at hus
    have hprefix := hus.reads.trans (List.take_prefix j tokens)
    have hus' := (hus.alike tokens (prefix_terminated hprefix)).2
    have hts := (h.alike tokens (prefix_terminated h.reads)).2
    have heq := congrArg List.length (hus'.unique hts)
    rw [List.length_append, List.length_append, List.length_singleton, List.length_singleton] at heq
    omega

/-- A run that no limit stops reads the bracket. -/
theorem length_lt_unlimited : ts.length < (unlimited tokens).passed.length := by
  rcases settles_or_breaksOff tokens tokens.length with ⟨us, hus⟩ | ⟨us, u, hus⟩
  · have hread := (hus.alike tokens _ (Nat.le_refl _) (List.take_prefix _ _)).2.2
    have hpassed : (unlimited tokens).passed.length = us.length := by
      rw [unlimited, hread.passed, List.length_append, List.length_reverse]
      rfl
    rw [hpassed]
    by_contra hle
    -- otherwise it ends at the same token where the tokens end behind the bracket
    have hprefix : (terminated tokens).take (us.length + 1) <+: ts ++ [t] := by
      refine List.prefix_of_prefix_length_le (List.take_prefix _ _) (prefix_terminated h.reads) ?_
      rw [List.length_append, List.length_singleton, List.length_take]
      omega
    have hus' := (hus.alike (ts ++ [t]) _ (Nat.le_refl _) (prefix_terminated hprefix)).2.2
    have hts := (h.beyond tokens.length (h.le.trans_lt h.length_lt)).1
    have heq := congrArg List.length (hus'.unique hts)
    rw [List.length_append, List.length_singleton] at heq
    omega
  · have hlt := hus.length_lt
    have hle := hus.le
    omega

/-- The bracket, with the levels before and behind it. -/
theorem exists_place : ∃ i, tokens[i]? = some t ∧ i < (unlimited tokens).passed.length ∧
    openLevels (tokens.take i) = d ∧ openLevels (tokens.take (i + 1)) = d + 1 ∧
    ∀ j ≤ i, openLevels (tokens.take j) ≤ d := by
  obtain ⟨rest, hrest⟩ := h.reads
  have hplace : tokens[ts.length]? = some t := by rw [← hrest]; simp
  have htake : tokens.take ts.length = ts := by rw [← hrest]; simp
  have htake' : tokens.take (ts.length + 1) = ts ++ [t] := by
    rw [← hrest, List.append_assoc, List.take_length_add_append]
    rfl
  have hlt : d < (ts ++ [t]).length := by
    rw [List.length_append, List.length_singleton]
    exact Nat.lt_succ_of_le h.le
  refine ⟨ts.length, hplace, h.length_lt_unlimited, ?_, ?_, ?_⟩
  · rw [htake]
    exact h.levels
  · rw [htake']
    exact (h.beyond _ hlt).2
  · intro j hj
    exact h.levels_le hj

end BreaksOff

/-! ## The threshold -/

theorem tooDeep_iff {tokens : List Token} {d : Nat} :
    (∃ e, (parseTokens d tokens).2 = .error e ∧ e.IsTooDeep) ↔
      ∃ ts t, BreaksOff tokens d ts t := by
  constructor
  · rintro ⟨e, hx, he⟩
    rw [parseTokens_snd] at hx
    obtain ⟨ts, t, _, h⟩ := exists_breaksOff (Prod.ext rfl hx) he
    exact ⟨ts, t, h⟩
  · rintro ⟨ts, t, h⟩
    exact ⟨_, (h.alike tokens (prefix_terminated h.reads)).1, trivial⟩

theorem Settles.not_tooDeep {tokens ts : List Token} {d d' : Nat} (h : Settles tokens d ts)
    (hle : d ≤ d') : ¬ ∃ e, (parseTokens d' tokens).2 = .error e ∧ e.IsTooDeep := by
  rintro ⟨e, hx, he⟩
  rw [parseTokens_snd, (h.raise hle).1] at hx
  exact h.allowed e hx he

/-- The least limit that is high enough; the number of tokens is. -/
theorem exists_least_limit (tokens : List Token) : ∃ N ≤ tokens.length,
    (∃ ts, Settles tokens N ts) ∧ ∀ d < N, ∃ ts t, BreaksOff tokens d ts t := by
  classical
  have hlength : ¬ ∃ ts t, BreaksOff tokens tokens.length ts t := by
    rintro ⟨ts, t, h⟩
    have hle := h.le
    have hlt := h.length_lt
    omega
  have hex : ∃ d, ¬ ∃ ts t, BreaksOff tokens d ts t := ⟨_, hlength⟩
  refine ⟨Nat.find hex, Nat.find_min' hex hlength, ?_, ?_⟩
  · exact (settles_or_breaksOff tokens _).resolve_right (Nat.find_spec hex)
  · intro d hlt
    exact not_not.1 (Nat.find_min hex hlt)

/-- **The nesting of the tokens is a threshold for the limit.**  There is a number, no greater than
the number of tokens, such that every lower limit is too low and all the others lead to the same
outcome.  Where a limit `d` is too low, the error names `d` and a bracket of the sequence.  A run
that no limit stops reads this bracket and opens a level with it, `d` levels are open before it, and
there were never more of them before. -/
theorem nesting_limit_threshold (tokens : List Token) :
    ∃ N ≤ tokens.length,
      (∀ d, (∃ e, (parseTokens d tokens).2 = .error e ∧ e.IsTooDeep) ↔ d < N) ∧
      (∀ d, N ≤ d → (parseTokens d tokens).2 = (parseTokens N tokens).2) ∧
      ∀ d found limit, (parseTokens d tokens).2 = .error (.tooDeep found limit) →
        limit = d ∧ ∃ i t, tokens[i]? = some t ∧ found = .token t ∧
          (t.isSymbol '(' = true ∨ t.isSymbol '{' = true) ∧
          i < (unlimited tokens).passed.length ∧
          openLevels (tokens.take i) = d ∧ openLevels (tokens.take (i + 1)) = d + 1 ∧
          ∀ j ≤ i, openLevels (tokens.take j) ≤ d := by
  obtain ⟨N, hN, ⟨ts, hts⟩, hlow⟩ := exists_least_limit tokens
  refine ⟨N, hN, ?_, ?_, ?_⟩
  · intro d
    constructor
    · intro hdeep
      by_contra hlt
      exact hts.not_tooDeep (Nat.not_lt.1 hlt) hdeep
    · intro hlt
      exact tooDeep_iff.2 (hlow d hlt)
  · intro d hle
    exact (hts.raise hle).1
  · intro d found limit hx
    rw [parseTokens_snd] at hx
    obtain ⟨us, t, he, h⟩ := exists_breaksOff (Prod.ext rfl hx) trivial
    obtain ⟨i, hplace, hread, hlevels⟩ := h.exists_place
    have heof : t.isEof = false := h.bracket.elim Token.isEof_of_isSymbol Token.isEof_of_isSymbol
    have hfound : Found.ofToken t = .token t := by
      rw [Found.ofToken, heof]
      rfl
    cases he
    exact ⟨rfl, i, t, hplace, hfound, h.bracket, hread, hlevels⟩

/-- In `g { } f { x = ( ( 3 ;` the closed body leaves no level open.  Two levels are too few at the
second parenthesis, and with any higher limit the semicolon is refused. -/
theorem nesting_limit_threshold_three :
    let tokens : List Token :=
      [⟨.identifier, "g", ⟨1, 0⟩⟩, ⟨.symbol, "\x7b", ⟨1, 2⟩⟩, ⟨.symbol, "\x7d", ⟨1, 4⟩⟩,
        ⟨.identifier, "f", ⟨1, 6⟩⟩, ⟨.symbol, "\x7b", ⟨1, 8⟩⟩, ⟨.identifier, "x", ⟨1, 10⟩⟩,
        ⟨.symbol, "=", ⟨1, 12⟩⟩, ⟨.symbol, "(", ⟨1, 14⟩⟩, ⟨.symbol, "(", ⟨1, 16⟩⟩,
        ⟨.literal, "3", ⟨1, 18⟩⟩, ⟨.symbol, ";", ⟨1, 20⟩⟩]
    openLevels (tokens.take 2) = 1 ∧ openLevels (tokens.take 3) = 0 ∧
      (parseTokens 2 tokens).2 = .error (.tooDeep (.token ⟨.symbol, "(", ⟨1, 16⟩⟩) 2) ∧
      (∃ i t, tokens[i]? = some t ∧ Found.token ⟨.symbol, "(", ⟨1, 16⟩⟩ = .token t ∧
        openLevels (tokens.take i) = 2 ∧ openLevels (tokens.take (i + 1)) = 3 ∧
        ∀ j ≤ i, openLevels (tokens.take j) ≤ 2) ∧
      ∀ d, 3 ≤ d → (parseTokens d tokens).2 =
        .error (.expected "')' to close parenthesis" (.token ⟨.symbol, ";", ⟨1, 20⟩⟩)) := by
  intro tokens
  have hopen : openLevels (tokens.take 2) = 1 := rfl
  have hclosed : openLevels (tokens.take 3) = 0 := rfl
  have htwo : (parseTokens 2 tokens).2 =
      .error (.tooDeep (.token ⟨.symbol, "(", ⟨1, 16⟩⟩) 2) := rfl
  have hthree : (parseTokens 3 tokens).2 =
      .error (.expected "')' to close parenthesis" (.token ⟨.symbol, ";", ⟨1, 20⟩⟩)) := rfl
  obtain ⟨N, _, hdeep, hsame, hbracket⟩ := nesting_limit_threshold tokens
  have hN : N ≤ 3 := by
    by_contra hlt
    obtain ⟨e, he, hdeep⟩ := (hdeep 3).2 (by omega)
    rw [hthree] at he
    cases he
    exact hdeep
  obtain ⟨_, i, t, ht, hfound, _, _, hbefore, hbehind, hle⟩ := hbracket 2 _ _ htwo
  refine ⟨hopen, hclosed, htwo, ⟨i, t, ht, hfound, hbefore, hbehind, hle⟩, fun d hd => ?_⟩
  rw [hsame d (by omega), ← hsame 3 hN, hthree]

end ScopeFront
