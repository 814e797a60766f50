/-
The order of tokens. Every segment of a text takes up at least one character, so each token begins
behind where the one before it began.
-/
import StrategyScript.Proofs.Token.Spell

namespace StrategyScript

namespace Lexer

theorem before_advanceAll {cs : List Char} (h : cs ≠ []) (p : Position) : p.before (p.advanceAll cs) := by
  induction cs generalizing p with
  | nil => exact absurd rfl h
  | cons c cs ih =>
    rw [Position.advanceAll_cons]
    by_cases hnil : cs = []
    · subst hnil
      exact p.before_advance c
    · exact Position.before_trans (p.before_advance c) (ih hnil (p.advance c))

/-- What is before the place where a row of segments begins is before all of its tokens. -/
theorem before_place {p q : Position} (segments : List Segment) (h : q.before p) : ∀ t ∈ place p segments, q.before t.position := by
  induction segments generalizing p with
  | nil =>
    intro t ht
    obtain rfl := List.mem_singleton.1 ht
    exact h
  | cons s rest ih =>
    have hrest : ∀ t ∈ place (p.advanceAll s.text) rest, q.before t.position := by
      by_cases hnil : s.text = []
      · rw [hnil]
        exact ih h
      · exact ih (Position.before_trans h (before_advanceAll hnil p))
    intro t ht
    unfold place at ht
    split at ht
    · rcases List.mem_cons.1 ht with rfl | ht
      · exact h
      · exact hrest t ht
    · exact hrest t ht

theorem place_pairwise (segments : List Segment) (h : ∀ s ∈ segments, s.text ≠ []) (p : Position) :
    (place p segments).Pairwise fun t u => t.position.before u.position := by
  induction segments generalizing p with
  | nil => exact List.pairwise_singleton _ _
  | cons s rest ih =>
    obtain ⟨hs, hrest⟩ := List.forall_mem_cons.1 h
    unfold place
    split
    · exact .cons (before_place rest (before_advanceAll hs p)) (ih hrest _)
    · exact ih hrest _

theorem getLast?_place (segments : List Segment) (p : Position) :
    ∃ q, (place p segments).getLast? = some ⟨⟨.endOfInput, ""⟩, q⟩ := by
  induction segments generalizing p with
  | nil => exact ⟨p, rfl⟩
  | cons s rest ih =>
    obtain ⟨q, hq⟩ := ih (p.advanceAll s.text)
    refine ⟨q, ?_⟩
    unfold place
    split
    · rw [List.getLast?_cons, hq]
      rfl
    · exact hq

theorem segmentsWithin_ne_nil : ∀ (n : Nat) (cs : List Char), ∀ s ∈ segmentsWithin n cs, s.text ≠ []
  | 0, _ => nofun
  | _ + 1, [] => nofun
  | n + 1, c :: cs => by
    intro s hs
    rcases List.mem_cons.1 hs with rfl | hs
    · exact firstSegment_ne_nil c cs
    · exact segmentsWithin_ne_nil n _ s hs

/-- The tokens of a source stand in reading order. -/
theorem tokens_pairwise (source : String) :
    (tokens source).Pairwise fun t u => t.position.before u.position :=
  place_pairwise _ (segmentsWithin_ne_nil _ _) _

end Lexer

end StrategyScript
