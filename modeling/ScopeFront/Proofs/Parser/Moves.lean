import Mathlib.Logic.Relation
import ScopeFront.Proofs.Parser.Steps

/-!
# Runs as sequences of moves

Whatever a rule does to a parser is made up of four moves: it reads a token, notes what it has read,
opens a level or closes one.  A rule of the grammar closes no level that was open before it, and
comes back to the depth it started from unless it fails; where it fails, it logs the error as the
last thing it does.

* `Parser.Move`, `Parser.Moves` – one move, and a sequence of moves;
* `Parser.Moves.reaches`, `Parser.Moves.depth`, `Parser.Moves.log` – what moves keep;
* `Traced`, `Rule.Traces` – how a run ends that is made up of moves, and rules whose runs all are.
-/

set_option autoImplicit false

namespace ScopeFront

namespace Parser

/-! ## Moves -/

/-- One move of a parser, which closes no level at the depth `floor` or below. -/
inductive Move (floor : Nat) : Parser → Parser → Prop
  | read (p : Parser) : Move floor p p.next
  | note (p : Parser) (level : Level) (message : String) :
    Move floor p (p.logging (.debug parserStage level message))
  | deeper {p : Parser} : p.depth < p.limit → Move floor p p.deeper
  | shallower {p : Parser} : floor < p.depth → Move floor p p.shallower

/-- Any number of moves. -/
abbrev Moves (floor : Nat) : Parser → Parser → Prop := Relation.ReflTransGen (Move floor)

variable {floor : Nat} {p q : Parser}

/-- A move reads at most one token. -/
theorem Move.reaches (h : Move floor p q) : ∃ ts, p.Reaches ts q := by
  cases h with
  | read =>
      cases ha : p.ahead with
      | nil =>
          have hstay : p.next = p := by rw [next, ha]
          rw [hstay]
          exact ⟨[], .refl p⟩
      | cons t later => exact ⟨[t], reaches_next ha⟩
  | note level message => exact ⟨[], p.reaches_logging _⟩
  | deeper => exact ⟨[], p.reaches_deeper⟩
  | shallower => exact ⟨[], p.reaches_shallower⟩

/-- A move stays between the floor and the limit. -/
theorem Move.depth (h : Move floor p q) (hfloor : floor ≤ p.depth) (hlimit : p.depth ≤ p.limit) :
    floor ≤ q.depth ∧ q.depth ≤ q.limit := by
  cases h with
  | read =>
      obtain ⟨ts, hreach⟩ := (@Move.read floor p).reaches
      rw [p.next_depth, hreach.limit]
      exact ⟨hfloor, hlimit⟩
  | note => exact ⟨hfloor, hlimit⟩
  | deeper hlt =>
      simp only [Parser.deeper]
      omega
  | shallower hlt =>
      simp only [Parser.shallower]
      omega

/-- A move logs no error. -/
theorem Move.log (h : Move floor p q) :
    ∃ events, q.log = events ++ p.log ∧ ∀ e ∈ events, e.level ≠ none := by
  cases h with
  | read =>
      refine ⟨[], ?_, by simp⟩
      unfold next
      split <;> rfl
  | note level message => exact ⟨[_], rfl, by simp [Event.debug]⟩
  | deeper => exact ⟨[], rfl, by simp⟩
  | shallower => exact ⟨[], rfl, by simp⟩

namespace Moves

/-- A lower floor allows more. -/
theorem mono {floor' : Nat} (hle : floor' ≤ floor) (h : Moves floor p q) : Moves floor' p q := by
  refine Relation.ReflTransGen.mono ?_ p q h
  intro a b hab
  cases hab with
  | read => exact .read a
  | note level message => exact .note a level message
  | deeper hlt => exact .deeper hlt
  | shallower hlt => exact .shallower (Nat.lt_of_le_of_lt hle hlt)

/-- Moves read some of the tokens ahead. -/
theorem reaches (h : Moves floor p q) : ∃ ts, p.Reaches ts q := by
  induction h with
  | refl => exact ⟨[], .refl p⟩
  | tail _ hmove ih =>
      obtain ⟨ts, hts⟩ := ih
      obtain ⟨us, hus⟩ := hmove.reaches
      exact ⟨ts ++ us, hts.trans hus⟩

/-- Moves stay between the floor and the limit. -/
theorem depth (h : Moves floor p q) (hfloor : floor ≤ p.depth) (hlimit : p.depth ≤ p.limit) :
    floor ≤ q.depth ∧ q.depth ≤ q.limit := by
  induction h with
  | refl => exact ⟨hfloor, hlimit⟩
  | tail _ hmove ih => exact hmove.depth ih.1 ih.2

/-- Moves log no error. -/
theorem log (h : Moves floor p q) :
    ∃ events, q.log = events ++ p.log ∧ ∀ e ∈ events, e.level ≠ none := by
  induction h with
  | refl => exact ⟨[], rfl, by simp⟩
  | tail _ hmove ih =>
      obtain ⟨earlier, hearlier, hall⟩ := ih
      obtain ⟨later, hlater, hall'⟩ := hmove.log
      refine ⟨later ++ earlier, ?_, List.forall_mem_append.2 ⟨hall', hall⟩⟩
      rw [hlater, hearlier, List.append_assoc]

end Moves

end Parser

/-! ## Runs made up of moves -/

/-- How a run from `p` on ends that is made up of moves: at the depth of `p`, or with the error
logged at last. -/
inductive Traced {α : Type} (p : Parser) : Parser × Except ParseError α → Prop
  | ok {q : Parser} {a : α} : p.Moves p.depth q → q.depth = p.depth → Traced p (q, .ok a)
  | failed {q : Parser} {e : ParseError} :
    p.Moves p.depth q → Traced p (q.logging (.fatal parserStage e.message), .error e)

/-- Every run of the rule is made up of moves. -/
def Rule.Traces {α : Type} (r : Rule α) : Prop := ∀ p : Parser, Traced p (r p)

end ScopeFront
