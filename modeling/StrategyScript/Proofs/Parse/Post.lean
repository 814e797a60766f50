/-
What is known when a parser ends. The rules for the combinators are read from the end of a parser to its
beginning, and the one for repetition follows the steps one by one and knows where they end.
-/
import StrategyScript.Parse.Program
import Mathlib.Tactic

namespace StrategyScript

variable {α β : Type} {E : ParseError → Prop}

/-- A parser has ended with a result and a rest that satisfy `Q`, or with an error that satisfies `E`. -/
def Parsed.Post (E : ParseError → Prop) (Q : α → Cursor → Prop) : Parsed α → Prop
  | .ok a d => Q a d
  | .error e _ => E e

namespace Parsed.Post

variable {Q Q' : α → Cursor → Prop} {R : β → Cursor → Prop} {c : Cursor}

theorem mono {r : Parsed α} (h : r.Post E Q) (hQ : ∀ a d, Q a d → Q' a d) : r.Post E Q' := by
  cases r with
  | ok a d => exact hQ a d h
  | error e d => exact h

theorem of_ok {a : α} {d : Cursor} {p : Parser α} (h : (p c).Post E Q) (hp : p c = .ok a d) : Q a d := by
  rw [hp] at h
  exact h

theorem bind {p : Parser α} {f : α → Parser β} (h : (p c).Post E fun a d => (f a d).Post E R) :
    ((p >>= f) c).Post E R := by
  cases hp : p c with
  | ok a d =>
    rw [Parser.bind_ok hp]
    exact h.of_ok hp
  | error e d =>
    rw [hp] at h
    rw [Parser.bind_error hp]
    exact h

theorem accept {Q : Bool → Cursor → Prop} {k : TokenKind} (hyes : c.peek.kind = k → Q true c.next)
    (hno : c.peek.kind ≠ k → Q false c) : (Parser.accept k c).Post E Q := by
  unfold Parser.accept
  split
  · exact hyes ‹_›
  · exact hno ‹_›

theorem expect {Q : Token → Cursor → Prop} {k : TokenKind} {what : String} (hk : c.peek.kind = k)
    (h : Q c.peek c.next) : (Parser.expect k what c).Post E Q := by
  unfold Parser.expect
  rw [if_pos hk]
  exact h

end Parsed.Post

namespace Parser

theorem peek_bind (f : Token → Parser β) (c : Cursor) : (peek >>= f) c = f c.peek c := rfl

theorem advance_bind (f : Token → Parser β) (c : Cursor) : (advance >>= f) c = f c.peek c.next := rfl

end Parser

/-! ## Repetition -/

namespace Parser

variable {step : α → Parser (Option α)}

/-- From here the steps come to an end: after some that each read a token, one answers `none` where `Q`
holds, or fails in an allowed way. -/
inductive Loops (step : α → Parser (Option α)) (E : ParseError → Prop) (Q : α → Cursor → Prop) : α → Cursor → Prop
  | stop {a : α} {c d : Cursor} (hs : step a c = .ok none d) (h : Q a d) : Loops step E Q a c
  | fail {a : α} {c d : Cursor} {e : ParseError} (hs : step a c = .error e d) (h : E e) : Loops step E Q a c
  | go {a b : α} {c d : Cursor} (hs : step a c = .ok (some b) d) (hlt : d.rest.length < c.rest.length)
      (h : Loops step E Q b d) : Loops step E Q a c

variable {Q : α → Cursor → Prop} {a : α} {c : Cursor}

theorem Loops.of_post
    (h : (step a c).Post E fun o d => ∃ b, o = some b ∧ d.rest.length < c.rest.length ∧ Loops step E Q b d) :
    Loops step E Q a c := by
  cases hs : step a c with
  | error e d =>
    rw [hs] at h
    exact .fail hs h
  | ok o d =>
    rw [hs] at h
    obtain ⟨b, rfl, hlt, hloop⟩ := h
    exact .go hs hlt hloop

theorem iterateWithin_loops (h : Loops step E Q a c) :
    ∀ bound : List Token, c.rest.length < bound.length → (iterateWithin step bound a c).Post E Q := by
  -- each step reads a token, so the bound stays longer than the row
  induction h with
  | stop hs hQ | fail hs hQ =>
    intro bound hlt
    obtain _ | ⟨t, bound⟩ := bound
    · cases hlt
    · unfold iterateWithin
      rw [hs]
      exact hQ
  | go hs hshorter _ ih =>
    intro bound hlt
    obtain _ | ⟨t, bound⟩ := bound
    · cases hlt
    · unfold iterateWithin
      rw [hs]
      rw [List.length_cons] at hlt
      exact ih bound (by omega)

theorem Loops.iterate (h : Loops step E Q a c) : (iterate step a c).Post E Q :=
  iterateWithin_loops h _ (Nat.lt_succ_self _)

end Parser

end StrategyScript
