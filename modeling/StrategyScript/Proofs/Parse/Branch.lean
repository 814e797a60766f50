/-
Which `if` an `else` belongs to. A statement that ends in a branch without `else` has looked for one behind
all newlines before it gave up, and it leaves the place where it looked to the statements around it. So where
one of these finds an `else`, the statement before it was not open.
-/
import StrategyScript.Proofs.Parse.Yield

namespace StrategyScript

/-- The statement ends in a branch without `else`, so that an `else` behind it would become its own. -/
def Stmt.isOpen : Stmt → Bool
  | .branch _ _ none => true
  | .branch _ _ (some elseBranch) => elseBranch.isOpen
  | .whileLoop _ body | .forLoop _ _ _ body => body.isOpen
  | _ => false

/-- If the statement has an `else` of its own, no branch at the end of the statement before that could have taken
it. -/
def Stmt.OwnsElse (s : Stmt) : Prop :=
  ∀ condition thenBranch elseBranch, s = .branch condition thenBranch (some elseBranch) → thenBranch.isOpen = false

/-- What a statement that ends here says about an `else`: about its own one, and about one that stands behind. -/
structure Stmt.Settled (s : Stmt) (d : Cursor) : Prop where
  own : s.OwnsElse
  behind : s.isOpen → (d.skip (· == .newline)).peek.kind ≠ .keyword .elseWord

/-- Not a branch, and not ending in one. -/
theorem Stmt.Settled.of_closed {s : Stmt} {d : Cursor} (hbranch : ∀ c t o, s ≠ .branch c t o) (hclosed : s.isOpen = false) :
    s.Settled d := by
  refine ⟨fun c t e h => absurd h (hbranch c t (some e)), fun hopen => ?_⟩
  rw [hclosed] at hopen
  cases hopen

/-- What is made of settled statements is settled where it ends: behind a settled statement, an `else` is read only
where the statement is not open. -/
theorem Stmt.Made.settled {s : Sides} {slot : Expr → Expr → Prop} {stmt : Stmt → Stmt → s.Place → Prop} {t u : Stmt}
    {w : s.Place} (h : Made s slot stmt t u w) (hstmt : ∀ t u w, stmt t u w → t.Settled w.left) : t.Settled w.left := by
  cases h with
  | branch he ht ho =>
    have hthen := hstmt _ _ _ ht
    cases ho with
    | none hnone => exact ⟨nofun, fun _ => hnone⟩
    | some helse hu =>
      refine ⟨?_, (hstmt _ _ _ hu).behind⟩
      rintro _ _ _ ⟨⟩
      exact Bool.eq_false_iff.2 fun hopen => hthen.behind hopen helse
  | whileLoop he ht => exact ⟨nofun, (hstmt _ _ _ ht).behind⟩
  | forLoop hstart ho hi ht => exact ⟨nofun, (hstmt _ _ _ ht).behind⟩
  | function | var | ret | trade | block | expr => exact .of_closed nofun rfl

namespace Parse

/-- All branches in a program that is read own their `else`. -/
theorem program_ownsElse {tokens : List Token} {p : Program} (hp : program tokens = .ok p) :
    ∀ t ∈ Stmt.withinAll true p, t.OwnsElse := by
  refine Sides.oneRow_same.program_within (S := Stmt.Settled) (fun t u w h => ?_) (.of (.ofTokens tokens)) rfl hp
  have hsettled := h.settled fun _ _ _ ht => ht
  exact ⟨hsettled, hsettled.own⟩

/-- In every program that is read, the statement before an `else` is not open: no branch at its end, behind
whatever loops, lacks an `else` and could have taken this one. -/
theorem else_of_nearest {tokens : List Token} {p : Program} (h : program tokens = .ok p) {condition : Expr}
    {thenBranch elseBranch : Stmt} (hbranch : .branch condition thenBranch (some elseBranch) ∈ Stmt.withinAll true p) :
    thenBranch.isOpen = false := by
  exact program_ownsElse h _ hbranch _ _ _ rfl

/-- Two branches with a loop between them, and newlines and a semicolon before each `else`: the first `else` is that
of the inner branch, and so the second can be that of the outer one. -/
theorem else_of_inner_first :
    let inner : Stmt := .branch (.identifier "c" ⟨1, 22⟩) (.expr (.identifier "x" ⟨1, 25⟩))
      (some (.expr (.identifier "y" ⟨3, 6⟩)))
    let outer : Stmt := .branch (.identifier "a" ⟨1, 5⟩) (.whileLoop (.identifier "b" ⟨1, 15⟩) inner)
      (some (.expr (.identifier "z" ⟨5, 6⟩)))
    program (Lexer.tokens "if (a) while (b) if (c) x;\n\nelse y\n;\nelse z") = .ok [outer] ∧
      Stmt.isOpen (.whileLoop (.identifier "b" ⟨1, 15⟩) inner) = false := by
  intro inner outer
  have h : program (Lexer.tokens "if (a) while (b) if (c) x;\n\nelse y\n;\nelse z") = .ok [outer] := rfl
  exact ⟨h, else_of_nearest h (.head _)⟩

end Parse

end StrategyScript
