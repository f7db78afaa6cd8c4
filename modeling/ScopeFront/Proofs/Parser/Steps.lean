import ScopeFront.Parser.Forest
import ScopeFront.Proofs.Grammar

/-!
# Runs of rules, step by step

What the rules do to a parser, as equations that later proofs rewrite with, so that the rules need
not be unfolded there.

* `Parser.Proper`, `Parser.Reaches` – parsers over proper tokens, and a parser further on in them;
* `Parser.ofTokens_split`, `Parser.ofTokens_proper` – the start of a sequence of tokens;
* `Rule.matchSymbol_bind`, `Rule.expectSymbol_apply`, … – single tokens;
* `Rule.nested` – what stands behind a bracket that counts as a level;
* `Rule.many_apply`, `Rule.commaTail_apply`, `Rule.operatorTail_apply` – a loop is one round and the
  loop again, whatever number of rounds it was given.
-/

set_option autoImplicit false

namespace ScopeFront

/-! ## Parsers further on -/

namespace Parser

/-- Only the end marker of a parser is one. -/
structure Proper (p : Parser) : Prop where
  stop : p.stop.isEof = true
  ahead : ∀ t ∈ p.ahead, t.isEof = false

/-- `q` is `p` after reading `ts`; its depth and its log are left open. -/
structure Reaches (p : Parser) (ts : List Token) (q : Parser) : Prop where
  ahead : p.ahead = ts ++ q.ahead
  passed : q.passed = ts.reverse ++ p.passed
  stop : q.stop = p.stop
  beyond : q.beyond = p.beyond
  limit : q.limit = p.limit

theorem Reaches.refl (p : Parser) : p.Reaches [] p := ⟨rfl, rfl, rfl, rfl, rfl⟩

theorem Reaches.trans {p q r : Parser} {ts us : List Token} (h : p.Reaches ts q)
    (h' : q.Reaches us r) : p.Reaches (ts ++ us) r where
  ahead := by rw [h.ahead, h'.ahead, List.append_assoc]
  passed := by rw [h'.passed, h.passed, List.reverse_append, List.append_assoc]
  stop := h'.stop.trans h.stop
  beyond := h'.beyond.trans h.beyond
  limit := h'.limit.trans h.limit

theorem Proper.of_reaches {p q : Parser} {ts : List Token} (hp : p.Proper) (h : p.Reaches ts q) :
    q.Proper where
  stop := by rw [h.stop]; exact hp.stop
  ahead := fun t ht => hp.ahead t (by rw [h.ahead]; exact List.mem_append_right ts ht)

theorem Reaches.room_eq {p q : Parser} {ts : List Token} (h : p.Reaches ts q)
    (hd : q.depth = p.depth) : q.room = p.room := by
  rw [room, room, h.limit, hd]

theorem Reaches.unique {p q : Parser} {ts us : List Token} (h : p.Reaches ts q)
    (h' : p.Reaches us q) : ts = us :=
  List.reverse_inj.1 (List.append_cancel_right (h.passed.symm.trans h'.passed))

theorem Reaches.ahead_eq {p q : Parser} {ts rest : List Token} (h : p.Reaches ts q)
    (ha : p.ahead = ts ++ rest) : q.ahead = rest := by
  have hts := h.ahead
  rw [ha] at hts
  exact (List.append_cancel_left hts).symm

theorem Reaches.length_passed {p q : Parser} {ts : List Token} (h : p.Reaches ts q) :
    q.passed.length = ts.length + p.passed.length := by
  rw [h.passed, List.length_append, List.length_reverse]

theorem reaches_logging (p : Parser) (e : Event) : p.Reaches [] (p.logging e) :=
  ⟨rfl, rfl, rfl, rfl, rfl⟩

theorem reaches_next {p : Parser} {t : Token} {later : List Token} (h : p.ahead = t :: later) :
    p.Reaches [t] p.next := by
  unfold next
  rw [h]
  exact ⟨h, rfl, rfl, rfl, rfl⟩

theorem peek_of_ahead {p : Parser} {t : Token} {later : List Token} (h : p.ahead = t :: later) :
    p.peek = t := by
  simp [peek, h]

theorem next_peek_of_ahead {p : Parser} {t u : Token} {later : List Token}
    (h : p.ahead = t :: u :: later) : p.next.peek = u := by
  rw [peek, next_ahead, h]
  rfl

@[simp]
theorem next_depth (p : Parser) : p.next.depth = p.depth := by
  unfold next
  split <;> rfl

/-- The parser one level deeper. -/
def deeper (p : Parser) : Parser := { p with depth := p.depth + 1 }

/-- The parser one level less deep. -/
def shallower (p : Parser) : Parser := { p with depth := p.depth - 1 }

@[simp]
theorem deeper_depth (p : Parser) : p.deeper.depth = p.depth + 1 := rfl

@[simp]
theorem shallower_depth (p : Parser) : p.shallower.depth = p.depth - 1 := rfl

theorem reaches_deeper (p : Parser) : p.Reaches [] p.deeper := ⟨rfl, rfl, rfl, rfl, rfl⟩

theorem reaches_shallower (p : Parser) : p.Reaches [] p.shallower := ⟨rfl, rfl, rfl, rfl, rfl⟩

theorem room_deeper {p : Parser} {n : Nat} (h : p.room = n + 1) : p.deeper.room = n := by
  unfold room at h ⊢
  simp only [deeper]
  omega

/-- The level that was opened at `p` is closed behind what was read in it. -/
theorem Reaches.shallower {p q : Parser} {ts : List Token} (h : p.deeper.Reaches ts q)
    (hd : q.depth = p.deeper.depth) : p.Reaches ts q.shallower ∧ q.shallower.depth = p.depth := by
  have hback := (p.reaches_deeper.trans h).trans q.reaches_shallower
  rw [List.append_nil] at hback
  refine ⟨hback, ?_⟩
  rw [shallower_depth, hd, deeper_depth, Nat.add_sub_cancel]

/-- Where the token at the place is no end marker, it is the first of the tokens ahead. -/
theorem Proper.exists_ahead {p : Parser} (hp : p.Proper) (h : p.peek.isEof = false) :
    ∃ later, p.ahead = p.peek :: later := by
  unfold peek at h ⊢
  cases ha : p.ahead with
  | nil => rw [ha, List.headD_nil, hp.stop] at h; cases h
  | cons t later => exact ⟨later, rfl⟩

theorem Proper.peek_isEof {p : Parser} (hp : p.Proper) : p.peek.isEof = p.atEnd := by
  unfold peek atEnd
  cases ha : p.ahead with
  | nil => exact hp.stop
  | cons t later => exact hp.ahead t (by rw [ha]; exact List.mem_cons_self ..)

theorem Proper.reaches_next {p : Parser} (hp : p.Proper) (h : p.peek.isEof = false) :
    p.Reaches [p.peek] p.next := by
  obtain ⟨later, ha⟩ := hp.exists_ahead h
  exact Parser.reaches_next ha

theorem Proper.latest_next {p : Parser} (hp : p.Proper) (h : p.peek.isEof = false) :
    p.next.latest = p.peek := by
  simp [latest, (hp.reaches_next h).passed]

theorem Proper.next {p : Parser} (hp : p.Proper) (h : p.peek.isEof = false) :
    p.next.Proper ∧ p.next.room = p.room ∧ p.next.ahead.length < p.ahead.length := by
  have hq := hp.reaches_next h
  refine ⟨hp.of_reaches hq, hq.room_eq p.next_depth, ?_⟩
  rw [hq.ahead, List.length_append, List.length_singleton]
  omega

/-- At the end stands an end marker. -/
theorem Proper.kind_at_end {p : Parser} (hp : p.Proper) (ha : p.ahead = []) :
    p.peek.kind = .eof := by
  have h := hp.stop
  simpa [peek, ha, Token.isEof] using h

/-! ## The start of a sequence -/

/-- The last token is an end marker. -/
theorem getLast?_terminated (tokens : List Token) :
    (terminated tokens).getLast?.any Token.isEof = true := by
  unfold terminated
  split
  · assumption
  · rw [List.getLast?_concat]
    rfl

theorem exists_isEof_terminated (tokens : List Token) :
    ∃ t ∈ terminated tokens, t.isEof = true := by
  obtain ⟨t, ht, heof⟩ := (Option.any_eq_true _ _).1 (getLast?_terminated tokens)
  exact ⟨t, List.mem_of_getLast? ht, heof⟩

theorem takeWhile_terminated (tokens : List Token) :
    (terminated tokens).takeWhile (!·.isEof) = tokens.takeWhile (!·.isEof) := by
  unfold terminated
  split
  · rfl
  · rw [List.takeWhile_append]
    split
    · rename_i h
      have htokens := (List.takeWhile_prefix (fun t : Token => !t.isEof)).eq_of_length h
      rw [htokens]
      simp [Token.isEof, Token.eof]
    · rfl

/-- A parser at the start has the whole sequence before it. -/
theorem ofTokens_split (tokens : List Token) (limit : Nat) :
    terminated tokens = (ofTokens tokens limit).ahead ++
      (ofTokens tokens limit).stop :: (ofTokens tokens limit).beyond := by
  obtain ⟨t, ht, heof⟩ := exists_isEof_terminated tokens
  show terminated tokens = (terminated tokens).takeWhile (!·.isEof) ++
    ((terminated tokens).dropWhile (!·.isEof)).headD _ ::
      ((terminated tokens).dropWhile (!·.isEof)).tail
  cases hd : (terminated tokens).dropWhile (!·.isEof) with
  | nil =>
      have hall := List.takeWhile_append_dropWhile (p := (!·.isEof)) (l := terminated tokens)
      rw [hd, List.append_nil] at hall
      rw [← hall] at ht
      have hproper := List.all_eq_true.1 List.all_takeWhile t ht
      simp [heof] at hproper
  | cons stop beyond =>
      have hall := List.takeWhile_append_dropWhile (p := (!·.isEof)) (l := terminated tokens)
      rw [hd] at hall
      exact hall.symm

theorem ofTokens_ahead (tokens : List Token) (limit : Nat) :
    (ofTokens tokens limit).ahead = tokens.takeWhile (!·.isEof) :=
  takeWhile_terminated tokens

theorem ofTokens_proper (tokens : List Token) (limit : Nat) : (ofTokens tokens limit).Proper where
  stop := by
    have hstop := List.head?_dropWhile_not (!·.isEof) (terminated tokens)
    unfold ofTokens
    cases hd : (terminated tokens).dropWhile (!·.isEof) with
    | nil => rfl
    | cons stop beyond => simpa [hd] using hstop
  ahead := by
    intro t ht
    have hproper := List.all_eq_true.1 List.all_takeWhile t ht
    simpa using hproper

end Parser

namespace Rule

variable {α β : Type} {n : Nat}

/-! ## Single tokens -/

theorem inspect_apply (f : Parser → Rule α) (p : Parser) : inspect f p = f p p := rfl

theorem peek_bind (f : Token → Rule α) (p : Parser) : (peek >>= f) p = f p.peek p := rfl

theorem advance_bind (f : Token → Rule α) (p : Parser) : (advance >>= f) p = f p.peek p.next := rfl

theorem logDetail_bind (message : String) (r : Rule α) (p : Parser) :
    (do logDetail message; r) p = r (p.logging (.debug parserStage .detail message)) := rfl

theorem checkSymbol_bind (c : Char) (f : Bool → Rule α) (p : Parser) :
    (checkSymbol c >>= f) p = f (p.peek.isSymbol c) p := rfl

theorem matchSymbol_apply (c : Char) (p : Parser) :
    matchSymbol c p = if p.peek.isSymbol c then (p.next, .ok true) else (p, .ok false) := by
  unfold matchSymbol
  rw [checkSymbol_bind]
  split <;> rfl

theorem matchSymbol_bind (c : Char) (f : Bool → Rule α) (p : Parser) :
    (matchSymbol c >>= f) p = if p.peek.isSymbol c then f true p.next else f false p := by
  split
  · rename_i h
    exact bind_apply_ok (by rw [matchSymbol_apply, if_pos h])
  · rename_i h
    exact bind_apply_ok (by rw [matchSymbol_apply, if_neg h])

theorem expectSymbol_apply (c : Char) (context : String) (p : Parser) :
    expectSymbol c context p = if p.peek.isSymbol c then (p.next, .ok p.peek)
      else failExpected ("'" ++ String.singleton c ++ "' " ++ context) p := by
  unfold expectSymbol
  rw [checkSymbol_bind]
  split <;> rfl

theorem expectSymbol_bind (c : Char) (context : String) (r : Rule α) (p : Parser) :
    (do let _ ← expectSymbol c context; r) p = if p.peek.isSymbol c then r p.next
      else failExpected ("'" ++ String.singleton c ++ "' " ++ context) p := by
  have hx := expectSymbol_apply c context p
  split
  · rename_i hc
    rw [if_pos hc] at hx
    exact bind_apply_ok hx
  · rename_i hc
    rw [if_neg hc] at hx
    exact bind_apply_error hx

theorem expectIdentifier_apply (what : String) (p : Parser) :
    expectIdentifier what p = if p.peek.kind = .identifier then (p.next, .ok p.peek.lexeme)
      else failExpected what p := by
  unfold expectIdentifier
  rw [peek_bind]
  split <;> rfl

theorem matchIdentifier_apply (p : Parser) :
    matchIdentifier p = if p.peek.kind = .identifier then (p.next, .ok (some p.peek.lexeme))
      else (p, .ok none) := by
  unfold matchIdentifier
  rw [peek_bind]
  split <;> rfl

theorem expectType_apply (what : String) (p : Parser) :
    expectType what p = match typeOf? p.peek with
      | some type => (p.next, .ok type)
      | none => failExpected what p := by
  unfold expectType
  rw [peek_bind]
  cases typeOf? p.peek <;> rfl

theorem typeOf?_eq_some {t : Token} {type : TypeKeyword} :
    typeOf? t = some type ↔ t.Spells .typeKeyword type.word := by
  unfold typeOf? Token.Spells
  constructor
  · intro h
    split at h
    · rename_i hk
      have hw := List.find?_some h
      exact ⟨hk, (beq_iff_eq.1 hw).symm⟩
    · cases h
  · rintro ⟨hk, hw⟩
    rw [if_pos hk, hw, TypeKeyword.ofWord?_word]

theorem scopeOf?_eq_some {t : Token} {keyword : ScopeKeyword} :
    scopeOf? t = some keyword ↔ t.Spells .scopeKeyword keyword.word := by
  unfold scopeOf? Token.Spells
  constructor
  · intro h
    split at h
    · rename_i hk
      have hw := List.find?_some h
      exact ⟨hk, (beq_iff_eq.1 hw).symm⟩
    · cases h
  · rintro ⟨hk, hw⟩
    rw [if_pos hk, hw, ScopeKeyword.ofWord?_word]

theorem operatorKeyword_eq_some {word : String} {keyword : OperatorKeyword} :
    OperatorKeyword.ofWord? word = some keyword ↔ word = keyword.word := by
  constructor
  · intro h
    have hw := List.find?_some h
    exact (beq_iff_eq.1 hw).symm
  · rintro rfl
    exact OperatorKeyword.ofWord?_word keyword

theorem operatorOf?_eq_some {t : Token} {op : BinaryOp} :
    operatorOf? t = some op ↔ t.Spells .symbol op.symbol := by
  unfold operatorOf? Token.Spells
  constructor
  · intro h
    split at h
    · rename_i hk
      have hw := List.find?_some h
      exact ⟨hk, (beq_iff_eq.1 hw).symm⟩
    · cases h
  · rintro ⟨hk, hw⟩
    rw [if_pos hk, hw, BinaryOp.ofSymbol?_symbol]

theorem isEof_of_operatorOf? {t : Token} {op : BinaryOp} (h : operatorOf? t = some op) :
    t.isEof = false :=
  Token.isEof_eq_false (operatorOf?_eq_some.1 h).1 (by decide)

theorem isSymbol_at_end {p : Parser} (hp : p.Proper) (ha : p.ahead = []) (c : Char) :
    p.peek.isSymbol c = false := by
  simp [Token.isSymbol, hp.kind_at_end ha]

theorem operatorOf?_at_end {p : Parser} (hp : p.Proper) (ha : p.ahead = []) :
    operatorOf? p.peek = none := by
  simp [operatorOf?, hp.kind_at_end ha]

/-! ## A level deeper -/

/-- `inner` and the closing bracket behind it. -/
def closed (inner : Rule α) (close : Char) (context : String) : Rule α := do
  let a ← inner
  let _ ← expectSymbol close context
  return a

/-- What stands behind an opening bracket that counts as a level. -/
def nested (inner : Rule α) (close : Char) (context : String) : Rule α := do
  enterNested
  let a ← inner
  let _ ← expectSymbol close context
  leaveNested
  return a

theorem blockWith_eq (inner : Rule Node) (what : String) :
    blockWith inner what = (do
      let _ ← expectSymbol '{' ("to start " ++ what)
      nested (many (·.isSymbol '}') inner) '}' ("to close " ++ what)) := rfl

theorem blockWith_apply (inner : Rule Node) (what : String) (p : Parser) :
    blockWith inner what p =
      if p.peek.isSymbol '{' then
        nested (many (·.isSymbol '}') inner) '}' ("to close " ++ what) p.next
      else failExpected ("'" ++ String.singleton '{' ++ "' " ++ ("to start " ++ what)) p := by
  rw [blockWith_eq, expectSymbol_bind]

theorem enterNested_of_le {p : Parser} (h : p.limit ≤ p.depth) : enterNested p = tooDeep p := by
  unfold enterNested
  rw [inspect_apply, if_pos h]

theorem enterNested_of_lt {p : Parser} (h : p.depth < p.limit) :
    enterNested p = (p.deeper, .ok ()) := by
  unfold enterNested
  rw [inspect_apply, if_neg (by omega)]
  rfl

theorem tooDeep_apply (p : Parser) : ∃ q, (tooDeep : Rule α) p =
    (q, .error (.tooDeep (.ofToken p.latest) p.limit)) ∧ p.Reaches [] q ∧ q.depth = p.depth :=
  ⟨_, rfl, ⟨rfl, rfl, rfl, rfl, rfl⟩, rfl⟩

/-- Where no level is left to open, the bracket just read is one too many. -/
theorem nested_apply_of_le (inner : Rule α) (close : Char) (context : String) {p : Parser}
    (hp : p.Proper) (ht : p.peek.isEof = false) (h : p.limit ≤ p.depth) :
    ∃ q, nested inner close context p.next = (q, .error (.tooDeep (.ofToken p.peek) p.limit)) ∧
      p.Reaches [p.peek] q ∧ q.depth = p.depth := by
  have hnext := hp.reaches_next ht
  obtain ⟨q, hq, hr, hd⟩ := tooDeep_apply (α := Unit) p.next
  have hle : p.next.limit ≤ p.next.depth := by
    rw [hnext.limit, p.next_depth]
    exact h
  rw [← enterNested_of_le hle, hp.latest_next ht, hnext.limit] at hq
  exact ⟨q, bind_apply_error hq, hnext.trans hr, hd.trans p.next_depth⟩

theorem nested_apply_of_lt (inner : Rule α) (close : Char) (context : String) {p : Parser}
    (h : p.depth < p.limit) :
    nested inner close context p =
      match closed inner close context p.deeper with
      | (q, .ok a) => (q.shallower, .ok a)
      | (q, .error e) => (q, .error e) := by
  unfold nested closed
  rw [bind_apply_ok (enterNested_of_lt h)]
  rcases hx : inner p.deeper with ⟨q, _ | a⟩
  · rw [bind_apply_error hx, bind_apply_error hx]
  · rw [bind_apply_ok hx, bind_apply_ok hx]
    rcases hy : expectSymbol close context q with ⟨r, _ | t⟩
    · rw [bind_apply_error hy, bind_apply_error hy]
    · rw [bind_apply_ok hy, bind_apply_ok hy]
      rfl

theorem nested_apply_ok {inner : Rule α} {close : Char} {context : String} {p q : Parser} {a : α}
    (h : p.depth < p.limit) (hx : closed inner close context p.deeper = (q, .ok a)) :
    nested inner close context p = (q.shallower, .ok a) := by
  rw [nested_apply_of_lt inner close context h, hx]

theorem nested_apply_error {inner : Rule α} {close : Char} {context : String} {p q : Parser}
    {e : ParseError} (h : p.depth < p.limit)
    (hx : closed inner close context p.deeper = (q, .error e)) :
    nested inner close context p = (q, .error e) := by
  rw [nested_apply_of_lt inner close context h, hx]

theorem closed_apply_error {inner : Rule α} {close : Char} {context : String} {p q : Parser}
    {e : ParseError} (h : inner p = (q, .error e)) :
    closed inner close context p = (q, .error e) :=
  bind_apply_error h

theorem closed_apply_ok {inner : Rule α} {p q : Parser} {a : α} (h : inner p = (q, .ok a))
    (close : Char) (context : String) :
    closed inner close context p = if q.peek.isSymbol close then (q.next, .ok a)
      else failExpected ("'" ++ String.singleton close ++ "' " ++ context) q := by
  unfold closed
  rw [bind_apply_ok h, expectSymbol_bind]
  split <;> rfl

/-! ## Choices by a token or two -/

theorem peekNext_eq {p : Parser} (hp : p.Proper) (h : p.peek.isEof = false) :
    p.peekNext = p.next.peek := by
  obtain ⟨later, ha⟩ := hp.exists_ahead h
  generalize p.peek = t at ha
  simp [Parser.peekNext, Parser.next, Parser.peek, ha]

/-- What follows the word `return`. -/
def returnTail (expr : Rule Expr) : Rule Node := do
  if ← checkSymbol ';' then
    let _ ← expectSymbol ';' "after return statement"
    logDetail "parsed return statement"
    return .ret none
  else
    let value ← expr
    let _ ← expectSymbol ';' "after return statement"
    logDetail "parsed return statement"
    return .ret (some value)

theorem returnStatement_apply (expr : Rule Expr) (p : Parser) :
    returnStatement expr p = returnTail expr p.next := by
  unfold returnStatement returnTail
  rw [advance_bind, checkSymbol_bind, checkSymbol_bind]
  split <;> rfl

/-- A named scope, with its name at the place. -/
theorem namedScopeWith_apply (inner : Rule Node) {p : Parser} (hk : p.peek.kind = .identifier) :
    (do
      let (name, body) ← namedScopeWith inner
      return .namedScope name body : Rule Node) p =
      (do
        let body ← blockWith inner "named scope"
        logDetail ("parsed named scope: " ++ p.peek.lexeme)
        return .namedScope p.peek.lexeme body : Rule Node) p.next := by
  have hx := expectIdentifier_apply "scope name" p
  rw [if_pos hk] at hx
  rcases hb : blockWith inner "named scope" p.next with ⟨q, e | body⟩
  · have hs : namedScopeWith inner p = (q, .error e) := by
      unfold namedScopeWith
      rw [bind_apply_ok hx, bind_apply_error hb]
    rw [bind_apply_error hb, bind_apply_error hs]
  · have hs : namedScopeWith inner p =
        (q.logging (.debug parserStage .detail ("parsed named scope: " ++ p.peek.lexeme)),
          .ok (p.peek.lexeme, body)) := by
      unfold namedScopeWith
      rw [bind_apply_ok hx, bind_apply_ok hb]
      rfl
    rw [bind_apply_ok hb, bind_apply_ok hs]
    rfl

/-- What follows a name that begins a statement. -/
def nameTail (expr : Rule Expr) (inner : Rule Node) (name : String) : Rule Node := do
  if ← checkSymbol '{' then
    let body ← blockWith inner "named scope"
    logDetail ("parsed named scope: " ++ name)
    return .namedScope name body
  else if ← matchSymbol '=' then assignmentTail expr name
  else if ← matchSymbol '(' then callTail expr name
  else failExpected ("'=', '\x7b' or '(' after '" ++ name ++ "'")

theorem nameTail_apply (expr : Rule Expr) (inner : Rule Node) (name : String) (p : Parser) :
    nameTail expr inner name p =
      if p.peek.isSymbol '{' then
        (do
          let body ← blockWith inner "named scope"
          logDetail ("parsed named scope: " ++ name)
          return .namedScope name body : Rule Node) p
      else if p.peek.isSymbol '=' then assignmentTail expr name p.next
      else if p.peek.isSymbol '(' then callTail expr name p.next
      else failExpected ("'=', '\x7b' or '(' after '" ++ name ++ "'") p := by
  unfold nameTail
  rw [checkSymbol_bind]
  split
  · rfl
  · rw [matchSymbol_bind]
    split
    · rfl
    · exact matchSymbol_bind ..

theorem identifierStatement_apply (expr : Rule Expr) (inner : Rule Node) {p : Parser}
    (hp : p.Proper) (hk : p.peek.kind = .identifier) :
    identifierStatement expr inner p = nameTail expr inner p.peek.lexeme p.next := by
  have hnext := peekNext_eq hp (Token.isEof_eq_false hk (by decide))
  show (if p.peekNext.isSymbol '{' then _ else _ : Rule Node) p = _
  unfold nameTail
  rw [hnext, checkSymbol_bind]
  split
  · exact namedScopeWith_apply inner hk
  · rfl

/-- An expression in parentheses that are opened with `level` levels left. -/
def innerExpressionAt : Nat → Rule Expr
  | 0 => tooDeep
  | level + 1 => expressionAt level

theorem expressionAt_eq (n : Nat) : expressionAt n = chain (primary (innerExpressionAt n)) := by
  cases n <;> rfl

/-- What stands behind a reserved word. -/
def scopeBehind (expr : Rule Expr) (inner : Rule Node) : ScopeKeyword → Rule Node
  | .function => do
    let f ← functionScopeWith inner
    return .function f
  | .forLoop => forScope expr inner
  | .struct => structScope
  | .implement => implementScope inner

theorem keywordScope_apply (expr : Rule Expr) (inner : Rule Node) (p : Parser) :
    keywordScope expr inner p =
      match scopeOf? p.peek with
      | none => failUnexpected "as a scope keyword" p
      | some keyword => (do
          logDetail ("parsing scope: " ++ keyword.word)
          scopeBehind expr inner keyword : Rule Node) p.next := by
  unfold keywordScope
  rw [peek_bind]
  cases scopeOf? p.peek with
  | none => rfl
  | some keyword => cases keyword <;> rfl

/-- The statement that the token at the place begins. -/
def statementBy (expr : Rule Expr) (inner : Rule Node) : Rule Node := inspect fun p =>
  match p.peek.kind with
  | .identifier =>
    if p.peek.lexeme = returnWord then returnStatement expr else identifierStatement expr inner
  | .symbol =>
    if p.peek.isSymbol '{' then do
      let body ← unnamedScopeWith inner
      return .unnamedScope body
    else failUnexpected "at start of statement"
  | .scopeKeyword => keywordScope expr inner
  | .typeKeyword => declaration expr
  | .operatorKeyword => operatorStatement expr
  | _ => failUnexpected "at start of statement"

theorem statementBy_of_name (expr : Rule Expr) (inner : Rule Node) {p : Parser}
    (h : Grammar.PlainName p.peek) :
    statementBy expr inner p = identifierStatement expr inner p := by
  unfold statementBy
  rw [inspect_apply, h.1]
  simp only [h.2, if_false]

theorem statementBy_of_return (expr : Rule Expr) (inner : Rule Node) {p : Parser}
    (h : p.peek.Spells .identifier returnWord) :
    statementBy expr inner p = returnStatement expr p := by
  unfold statementBy
  rw [inspect_apply, h.1]
  simp only [h.2, if_true]

theorem statementWith_apply (expr : Rule Expr) (inner : Rule Node) (p : Parser) :
    statementWith expr inner p = (do
      logDetail ("parsing statement at '" ++ p.peek.lexeme ++ "'")
      statementBy expr inner : Rule Node) p := rfl

theorem statementAt_eq (n : Nat) :
    statementAt n = statementWith (expressionAt n) (bodyStatementAt n) := by
  cases n <;> rfl

/-- What follows a name that begins a node of the top level. -/
def labelTail (inner : Rule Node) (name : String) : Rule Node := do
  if ← checkSymbol '{' then
    let body ← blockWith inner "named scope"
    logDetail ("parsed named scope: " ++ name)
    return .namedScope name body
  else if (← peek).kind = .identifier then
    let f ← signature inner name
    logDetail ("parsed labeled scope: " ++ name ++ " " ++ f.header.name)
    return .labeled name f
  else failExpected "'\x7b' to start named scope"

theorem labelTail_apply (inner : Rule Node) (name : String) (p : Parser) :
    labelTail inner name p =
      if p.peek.isSymbol '{' then
        (do
          let body ← blockWith inner "named scope"
          logDetail ("parsed named scope: " ++ name)
          return .namedScope name body : Rule Node) p
      else if p.peek.kind = .identifier then
        (do
          let f ← signature inner name
          logDetail ("parsed labeled scope: " ++ name ++ " " ++ f.header.name)
          return .labeled name f : Rule Node) p
      else failExpected "'\x7b' to start named scope" p := by
  unfold labelTail
  rw [checkSymbol_bind]
  split
  · rfl
  · rw [peek_bind]
    split <;> rfl

theorem identifierScope_apply (inner : Rule Node) {p : Parser} (hp : p.Proper)
    (hk : p.peek.kind = .identifier) :
    identifierScope inner p =
      if p.peek.lexeme = returnWord then failUnexpected "outside a scope body" p
      else labelTail inner p.peek.lexeme p.next := by
  have hnext := peekNext_eq hp (Token.isEof_eq_false hk (by decide))
  unfold identifierScope
  rw [peek_bind]
  split
  · rfl
  · rw [labelTail_apply]
    show (if p.peekNext.isSymbol '{' then _ else _ : Rule Node) p = _
    rw [hnext]
    split
    · exact namedScopeWith_apply inner hk
    · show (if p.peekNext.kind = .identifier then _ else _ : Rule Node) p = _
      rw [hnext]
      split <;> rfl

/-- The node of the top level that the token at the place begins. -/
def topLevelBy : Rule Node := inspect fun p =>
  match p.peek.kind with
  | .scopeKeyword => keywordScope (expressionAt p.room) (bodyStatementAt p.room)
  | .identifier => identifierScope (bodyStatementAt p.room)
  | _ => statementAt p.room

theorem topLevelBy_of_scope {p : Parser} (h : p.peek.kind = .scopeKeyword) :
    topLevelBy p = keywordScope (expressionAt p.room) (bodyStatementAt p.room) p := by
  rw [topLevelBy, inspect_apply, h]

theorem topLevelBy_of_identifier {p : Parser} (h : p.peek.kind = .identifier) :
    topLevelBy p = identifierScope (bodyStatementAt p.room) p := by
  rw [topLevelBy, inspect_apply, h]

theorem topLevelBy_of_other {p : Parser} (hscope : p.peek.kind ≠ .scopeKeyword)
    (hname : p.peek.kind ≠ .identifier) : topLevelBy p = statementAt p.room p := by
  rw [topLevelBy, inspect_apply]
  cases hk : p.peek.kind with
  | scopeKeyword => exact absurd hk hscope
  | identifier => exact absurd hk hname
  | _ => rfl

theorem topLevel_eq :
    topLevel = (do
      let node ← topLevelBy
      let category := if node.isScope then "scope" else "statement"
      logDetail ("added top-level " ++ category ++ " " ++ Text.quoted node.label)
      return node) := by
  have h : topLevelBy = inspect fun p =>
      match p.peek.kind with
      | .scopeKeyword | .identifier => scope
      | _ => statement := by
    funext p
    unfold topLevelBy
    rw [inspect_apply, inspect_apply]
    unfold scope statement
    cases hk : p.peek.kind <;> simp [inspect_apply, hk]
  rw [h]
  rfl

/-! ## Loops -/

/-- Every success of the rule reads at least one token. -/
def Advances (r : Rule α) (n : Nat) : Prop :=
  ∀ p q a, p.Proper → p.room = n → r p = (q, .ok a) →
    q.Proper ∧ q.room = n ∧ q.ahead.length < p.ahead.length

theorem bind_congr_left {β : Type} {r s : Rule α} {f : α → Rule β} {p : Parser} (h : r p = s p) :
    (r >>= f) p = (s >>= f) p := by
  rcases hx : s p with ⟨q, _ | a⟩
  · rw [bind_apply_error hx, bind_apply_error (h.trans hx)]
  · rw [bind_apply_ok hx, bind_apply_ok (h.trans hx)]

theorem bind_congr_right {β : Type} {r : Rule α} {f g : α → Rule β} {p : Parser}
    (h : ∀ q a, r p = (q, .ok a) → f a q = g a q) : (r >>= f) p = (r >>= g) p := by
  rcases hx : r p with ⟨q, _ | a⟩
  · rw [bind_apply_error hx, bind_apply_error hx]
  · rw [bind_apply_ok hx, bind_apply_ok hx, h q a hx]

section Rounds

-- `F` is a loop that takes a token off a list for each round, and `G` is one round of it, which
-- goes on with the rest of the loop only behind at least one token.
variable {ι : Type} {F : List Token → ι → Rule α} {G : ι → (ι → Rule α) → Rule α}
  (hnil : ∀ i k p, p.Proper → p.ahead = [] → F [] i p = G i k p)
  (hcons : ∀ t rounds i p, F (t :: rounds) i p = G i (F rounds) p)
  (hround : ∀ i k k' p, p.Proper → p.room = n →
    (∀ j q, q.Proper → q.room = n → q.ahead.length < p.ahead.length → k j q = k' j q) →
    G i k p = G i k' p)

include hnil hcons hround

/-- No more rounds are made than there are tokens ahead. -/
theorem enough_rounds (rounds rounds' : List Token) (i : ι) (p : Parser) (hp : p.Proper)
    (hn : p.room = n) (h : p.ahead.length ≤ rounds.length)
    (h' : p.ahead.length ≤ rounds'.length) : F rounds i p = F rounds' i p := by
  induction rounds generalizing rounds' i p with
  | nil =>
      have ha : p.ahead = [] := List.eq_nil_of_length_eq_zero (by simpa using h)
      cases rounds' with
      | nil => rfl
      | cons t' rounds' => rw [hcons, hnil i _ p hp ha]
  | cons t rounds ih =>
      cases rounds' with
      | nil =>
          have ha : p.ahead = [] := List.eq_nil_of_length_eq_zero (by simpa using h')
          rw [hcons, hnil i _ p hp ha]
      | cons t' rounds' =>
          rw [List.length_cons] at h h'
          rw [hcons, hcons]
          exact hround i _ _ p hp hn fun j q hq hqn hlt =>
            ih rounds' j q hq hqn (by omega) (by omega)

/-- With a round for each token ahead, the loop is one round and the loop again. -/
theorem rounds_apply (i : ι) (p : Parser) (hp : p.Proper) (hn : p.room = n) :
    F p.ahead i p = G i (fun j => inspect fun q => F q.ahead j) p := by
  cases ha : p.ahead with
  | nil => exact hnil i _ p hp ha
  | cons t later =>
      rw [hcons]
      refine hround i _ _ p hp hn fun j q hq hqn hlt => ?_
      rw [ha, List.length_cons] at hlt
      exact enough_rounds hnil hcons hround later q.ahead j q hq hqn (by omega) (Nat.le_refl _)

end Rounds

/-- A repetition stops, or makes a round and is repeated. -/
theorem many_apply {close : Token → Bool} {item : Rule α} (hi : item.Advances n) {p : Parser}
    (hp : p.Proper) (hn : p.room = n) :
    many close item p = if p.atEnd || close p.peek then (p, .ok [])
      else (do let a ← item; let as ← many close item; return a :: as) p := by
  refine (rounds_apply (F := fun rounds (_ : Unit) => manyWithin close item rounds)
    (G := fun _ k => inspect fun p =>
      if p.atEnd || close p.peek then Rule.pure []
      else do let a ← item; let as ← k (); return a :: as) ?_ ?_ ?_ () p hp hn).trans ?_
  · intro _ k p _ ha
    rw [inspect_apply]
    simp [Parser.atEnd, ha, manyWithin]
  · intro t rounds _ p
    rfl
  · intro _ k k' p hp hn hk
    rw [inspect_apply, inspect_apply]
    split
    · rfl
    · refine bind_congr_right fun q a hx => bind_congr_left ?_
      obtain ⟨hq, hqn, hlt⟩ := hi p q a hp hn hx
      exact hk () q hq hqn hlt
  · rw [inspect_apply]
    split <;> rfl

/-- A repetition that succeeds has come to the end or to where it is to stop. -/
theorem many_stops {close : Token → Bool} {item : Rule α} (hi : item.Advances n) {p q : Parser}
    {as : List α} (hp : p.Proper) (hn : p.room = n) (h : many close item p = (q, .ok as)) :
    (q.atEnd || close q.peek) = true := by
  induction hk : p.ahead.length using Nat.strongRecOn generalizing p as with
  | ind k ih =>
      rw [many_apply hi hp hn] at h
      split at h
      · rename_i hstop
        cases h
        exact hstop
      · rcases hx : item p with ⟨r, e | a⟩
        · rw [bind_apply_error hx] at h
          cases h
        · rw [bind_apply_ok hx] at h
          obtain ⟨hr, hrn, hlt⟩ := hi p r a hp hn hx
          rcases hy : many close item r with ⟨s, e | bs⟩
          · rw [bind_apply_error hy] at h
            cases h
          · rw [bind_apply_ok hy] at h
            cases h
            exact ih _ (by omega) hr hrn hy rfl

/-- What follows an item of a list, with a round for each token ahead. -/
def commaTail (item : Rule α) (what : String) : Rule (List α) :=
  inspect fun p => commaTailWithin item what p.ahead

theorem commaTail_apply {item : Rule α} (hi : item.Advances n) (what : String) {p : Parser}
    (hp : p.Proper) (hn : p.room = n) :
    commaTail item what p =
      if p.peek.isSymbol ',' then
        (do let a ← item; let as ← commaTail item what; return a :: as) p.next
      else if p.peek.isSymbol ')' then (p.next, .ok [])
      else failExpected what p := by
  refine (rounds_apply (F := fun rounds (_ : Unit) => commaTailWithin item what rounds)
    (G := fun _ k p =>
      if p.peek.isSymbol ',' then (do let a ← item; let as ← k (); return a :: as : Rule _) p.next
      else if p.peek.isSymbol ')' then (p.next, .ok [])
      else failExpected what p) ?_ ?_ ?_ () p hp hn).trans rfl
  · intro _ k p hp ha
    simp only [isSymbol_at_end hp ha]
    rfl
  · intro t rounds _ p
    rw [commaTailWithin, matchSymbol_bind]
    split
    · rfl
    · exact matchSymbol_bind ..
  · intro _ k k' p hp hn hk
    split
    · rename_i hc
      refine bind_congr_right fun q a hx => bind_congr_left ?_
      obtain ⟨hp', hn', hlt'⟩ := hp.next (Token.isEof_of_isSymbol hc)
      obtain ⟨hq, hqn, hlt⟩ := hi p.next q a hp' (hn'.trans hn) hx
      exact hk () q hq hqn (by omega)
    · rfl

theorem matchOperator_apply (p : Parser) :
    matchOperator p = match operatorOf? p.peek with
      | some op => (p.next, .ok (some op))
      | none => (p, .ok none) := by
  unfold matchOperator
  rw [peek_bind]
  cases operatorOf? p.peek <;> rfl

/-- Operators with operands, folded onto `left`, with a round for each token ahead. -/
def operatorTail (operand : Rule Expr) (left : Expr) : Rule Expr :=
  inspect fun p => operatorTailWithin operand p.ahead left

theorem operatorTail_apply {operand : Rule Expr} (ho : operand.Advances n) (left : Expr)
    {p : Parser} (hp : p.Proper) (hn : p.room = n) :
    operatorTail operand left p =
      match operatorOf? p.peek with
      | some op => (do let right ← operand; operatorTail operand (.binary left op right)) p.next
      | none => (p, .ok left) := by
  refine (rounds_apply (F := operatorTailWithin operand)
    (G := fun left k p =>
      match operatorOf? p.peek with
      | some op => (do let right ← operand; k (.binary left op right) : Rule _) p.next
      | none => (p, .ok left)) ?_ ?_ ?_ left p hp hn).trans rfl
  · intro left k p hp ha
    simp only [operatorOf?_at_end hp ha]
    rfl
  · intro t rounds left p
    rw [operatorTailWithin]
    cases h : operatorOf? p.peek with
    | none =>
        have hm : matchOperator p = (p, .ok none) := by rw [matchOperator_apply, h]
        exact bind_apply_ok hm
    | some op =>
        have hm : matchOperator p = (p.next, .ok (some op)) := by rw [matchOperator_apply, h]
        exact bind_apply_ok hm
  · intro left k k' p hp hn hk
    split
    · rename_i op hop
      refine bind_congr_right fun q right hx => ?_
      obtain ⟨hp', hn', hlt'⟩ := hp.next (isEof_of_operatorOf? hop)
      obtain ⟨hq, hqn, hlt⟩ := ho p.next q right hp' (hn'.trans hn) hx
      exact hk _ q hq hqn (by omega)
    · rfl

end Rule

end ScopeFront
