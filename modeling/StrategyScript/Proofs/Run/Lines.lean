/-
Where errors are reported. Every position in a program is that of one of its tokens. So a relocation
that leaves the lines of a source alone leaves the program alone that is read from it, and then its
run in a new session too, the error at the end included. Among the lines that can be moved away there is
therefore none that an error is on.
-/
import StrategyScript.Proofs.Run.Layout
import StrategyScript.Proofs.Token.Order

namespace StrategyScript

/-! ## Lines of a source -/

theorem Lexer.one_le_line {source : String} : ∀ t ∈ tokens source, 1 ≤ t.position.line := by
  intro t ht
  have hstart : Position.before ⟨1, 0⟩ .start := .inr ⟨rfl, Nat.one_pos⟩
  have hbefore : Position.before ⟨1, 0⟩ t.position := before_place _ hstart t ht
  rcases hbefore with h | h
  · exact h.le
  · exact h.1.le

namespace Relocation

/-- Every line that is not among these moves down by one. -/
def outside (lines : List Nat) : Relocation where
  position p := ⟨if p.line ∈ lines then p.line else p.line + 1, p.column⟩
  line l := if l ∈ lines then l else l + 1
  line_position _ := rfl

variable {lines : List Nat}

theorem outside_line {l : Nat} : (outside lines).line l = l ↔ l ∈ lines := by
  show (if l ∈ lines then l else l + 1) = l ↔ l ∈ lines
  split
  · exact iff_of_true rfl ‹_›
  · exact iff_of_false (Nat.succ_ne_self l) ‹_›

theorem outside_position {p : Position} (h : p.line ∈ lines) : (outside lines).position p = p := by
  obtain ⟨line, column⟩ := p
  exact congrArg (Position.mk · column) (if_pos h)

end Relocation

/-! ## What stays where it is -/

section

variable {ρ : Relocation}

/-- A program stays where it is when its tokens do. -/
theorem Parse.relocateAll_of_source {source : String} {p : Program} (h : Parse.source source = .ok p)
    (hρ : ∀ t ∈ Lexer.tokens source, ρ.position t.position = t.position) : Stmt.relocateAll ρ p = p := by
  have hjoins : ρ.Joins .stay fun p q => ρ.position p = q := fun _ _ hpq => hpq
  have hrow : List.Forall₂ (Token.Alike fun p q => ρ.position p = q) (Lexer.tokens source) (Lexer.tokens source) :=
    List.forall₂_same.2 fun t ht => ⟨rfl, hρ t ht⟩
  rcases program_alike hjoins hrow fun hnil => absurd hnil (Lexer.place_ne_nil _ _) with
    ⟨q, q', hq, hq', heq⟩ | ⟨e, -, he, -⟩
  · obtain rfl : q = p := Except.ok.inj (hq.symm.trans h)
    obtain rfl : q' = q := Except.ok.inj (hq'.symm.trans h)
    rwa [Stmt.relocateAll_stay] at heq
  · cases he.symm.trans h

theorem Forest.defineBuiltins_relocate (f : Forest) (i : ScopeId) :
    (f.relocate ρ).defineBuiltins i = (f.defineBuiltins i).relocate ρ := by
  unfold defineBuiltins
  generalize Builtin.all = bs
  induction bs generalizing f with
  | nil => rfl
  | cons b bs ih =>
    have hdefine := f.define_relocate ρ i b.name (.builtin b)
    exact (congrArg (fun g => List.foldl _ g bs) hdefine).trans (ih _)

namespace Session

/-- A new session knows no position. -/
theorem relocate_new (c : Limits) : (new c).relocate ρ = new c := by
  have hglobal : (Forest.empty.addGlobal).relocate ρ = Forest.empty.addGlobal := by
    simp only [Forest.relocate, Forest.addGlobal, Forest.empty, Array.map_push, Array.map_empty]
    rfl
  have hscopes : ((Forest.empty.addGlobal).defineBuiltins globalScope).relocate ρ =
      (Forest.empty.addGlobal).defineBuiltins globalScope := by rw [← Forest.defineBuiltins_relocate, hglobal]
  exact congrArg (fun scopes => { new c with scopes }) hscopes

/-- What stays where it is ends where it does. -/
theorem relocate_ending {s : Session} {p : Program} (hs : s.relocate ρ = s) (hp : Stmt.relocateAll ρ p = p) (fuel : Nat)
    (market : Market) : (s.run fuel p market).1.relocate ρ = (s.run fuel p market).1 := by
  have hrun := run_relocate ρ s fuel p market
  rw [hs, hp] at hrun
  exact (congrArg Prod.fst hrun).symm

/-- A program that fails in a new session, other than by its budget, fails on the line of one of its tokens. -/
theorem error_on_token_line {source : String} {p : Program} {limits : Limits} {fuel : Nat} {market : Market}
    {e : RuntimeError} (hp : Parse.source source = .ok p) (he : ((new limits).run fuel p market).1 = .failure e)
    (hlimit : ∀ limit, e ≠ .stepLimitExceeded limit) :
    ∃ t ∈ Lexer.tokens source, e.line? = some t.position.line ∧ 1 ≤ t.position.line := by
  -- all lines are moved away but those of the tokens
  let ρ : Relocation := .outside ((Lexer.tokens source).map (·.position.line))
  have hmem : ∀ t ∈ Lexer.tokens source, t.position.line ∈ (Lexer.tokens source).map (·.position.line) :=
    fun t ht => List.mem_map.2 ⟨t, ht, rfl⟩
  have hfixed : Stmt.relocateAll ρ p = p :=
    Parse.relocateAll_of_source hp fun t ht => Relocation.outside_position (hmem t ht)
  have hending := relocate_ending (relocate_new limits) hfixed fuel market
  rw [he] at hending
  cases e with
  | stepLimitExceeded limit => exact absurd rfl (hlimit limit)
  | fault cause line =>
    have hline : ρ.line line = line := (RuntimeError.fault.inj (Ending.failure.inj hending)).2
    obtain ⟨t, ht, rfl⟩ := List.mem_map.1 (Relocation.outside_line.1 hline)
    exact ⟨t, ht, rfl, Lexer.one_le_line t ht⟩

/-- A function that fails on its own line and is called from another one. -/
theorem error_in_function_body :
    ∃ p e, Parse.source "function f(a)\n\x7b return a / 0 \x7d\n\nf(1)" = .ok p ∧
      ((new {}).run 12 p .empty).1 = .failure e ∧ (∀ limit, e ≠ .stepLimitExceeded limit) ∧
      ∃ t ∈ Lexer.tokens "function f(a)\n\x7b return a / 0 \x7d\n\nf(1)", e.line? = some t.position.line ∧
        t.position.line = 2 := by
  have hrun : ((Parse.source "function f(a)\n\x7b return a / 0 \x7d\n\nf(1)").toOption.bind fun p =>
      ((new {}).run 12 p .empty).1.error?.bind (·.line?)) = some 2 := by decide +kernel
  cases hp : Parse.source "function f(a)\n\x7b return a / 0 \x7d\n\nf(1)" with
  | error complaint =>
    rw [hp] at hrun
    cases hrun
  | ok p =>
    have hrun : ((new {}).run 12 p .empty).1.error?.bind (·.line?) = some 2 := by rwa [hp] at hrun
    obtain ⟨e, he, hline⟩ := Option.bind_eq_some_iff.1 hrun
    rw [Ending.error?_eq_some] at he
    have hlimit : ∀ limit, e ≠ .stepLimitExceeded limit := by
      rintro limit rfl
      cases hline
    obtain ⟨t, ht, hteq, -⟩ := error_on_token_line hp he hlimit
    exact ⟨p, e, rfl, he, hlimit, t, ht, hteq, Option.some.inj (hteq.symm.trans hline)⟩

end Session

end

end StrategyScript
