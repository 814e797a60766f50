/-
Trees that are made in the same way. What two readers give side by side is made of tokens that belong together, and
of expressions and statements that were read inside; how, is said by one rule for each form of expression and of
statement. A property of all that is read needs no more than that the rules keep it.
-/
import StrategyScript.Proofs.Parse.Accord
import StrategyScript.Proofs.Syntax.Meet

namespace StrategyScript

variable {s : Sides} {slot : Expr → Expr → Prop} {stmt : Stmt → Stmt → s.Place → Prop}

/-! ## Expressions -/

section

variable (s slot)

/-- Expressions that are made in the same way of tokens that belong together, where those inside are related by `slot`.
An operator of rank `k + 1` is looser than what stands on its right. -/
inductive Expr.Made : Nat → Expr → Expr → Prop
  | atom {t u : Token} {e f : Expr} (ht : s.Tokens t u) (hunary : Parse.unaryOperator t.toLexeme = none)
      (he : Parse.atom? t = .ok e) (hf : Parse.atom? u = .ok f) : Made 0 e f
  | parens {e f : Expr} (h : slot e f) : Made 0 e f
  | call {x : String} {p q : Position} {es fs : List Expr} (h : Made 0 (.identifier x p) (.identifier x q))
      (hargs : List.Forall₂ slot es fs) : Made 0 (.call x es p) (.call x fs q)
  | index {e f i j : Expr} (h : Made 0 e f) (hi : slot i j) : Made 0 (.index e i e.position) (.index f j f.position)
  | unary {op : UnaryOp} {t u : Token} {e f : Expr} (ht : s.Tokens t u) (h : slot e f) :
      Made 0 (.unary op e t.position) (.unary op f u.position)
  | looser {k : Nat} {e f : Expr} (h : Made k e f) : Made (k + 1) e f
  | binary {k : Nat} {op : BinaryOp} {t u : Token} {l l' r r' : Expr} (ht : s.Tokens t u) (hl : Made (k + 1) l l')
      (hr : Made k r r') : Made (k + 1) (.binary op l r t.position) (.binary op l' r' u.position)
  | assign {k : Nat} {x : String} {p q : Position} {v w : Expr} (h : Made k (.identifier x p) (.identifier x q))
      (hv : slot v w) : Made k (.assign x v p) (.assign x w q)

end

namespace Parse

/-- What a token stands for, or that it stands for nothing, hangs on what it says alone. -/
theorem atom?_cases (l : Lexeme) :
    (∃ f : Position → Expr, (∀ p, atom? ⟨l, p⟩ = .ok (f p)) ∧ ∀ ρ p, (f p).relocate ρ = f (ρ.position p)) ∨
      ∃ complaint : Complaint, complaint.Founded ∧ ∀ p, atom? ⟨l, p⟩ = .error complaint := by
  obtain ⟨kind, text⟩ := l
  cases kind with
  | number =>
    cases hread : Number.readFloat text with
    | ok x =>
      refine .inl ⟨.number x, fun p => ?_, fun _ _ => rfl⟩
      simp only [atom?, hread]
    | error fault =>
      refine .inr ⟨.badNumber text, ⟨fault, hread⟩, fun p => ?_⟩
      simp only [atom?, hread]
  | string => exact .inl ⟨.string text, fun _ => rfl, fun _ _ => rfl⟩
  | identifier =>
    cases htrue : Lexeme.isWord ⟨.identifier, text⟩ "true" with
    | true =>
      refine .inl ⟨.boolean true, fun p => ?_, fun _ _ => rfl⟩
      simp only [atom?, htrue, if_true]
    | false =>
      cases hfalse : Lexeme.isWord ⟨.identifier, text⟩ "false" with
      | true =>
        refine .inl ⟨.boolean false, fun p => ?_, fun _ _ => rfl⟩
        simp only [atom?, htrue, hfalse, if_true, Bool.false_eq_true, if_false]
      | false =>
        refine .inl ⟨.identifier text, fun p => ?_, fun _ _ => rfl⟩
        simp only [atom?, htrue, hfalse, Bool.false_eq_true, if_false]
  | keyword k =>
    cases hk : k.isBuiltinName with
    | true =>
      refine .inl ⟨.identifier (Text.lowercase text), fun p => ?_, fun _ _ => rfl⟩
      simp only [atom?, hk, if_true]
    | false =>
      refine .inr ⟨.unexpected ⟨.keyword k, text⟩, trivial, fun p => ?_⟩
      simp only [atom?, hk, Bool.false_eq_true, if_false]
  | symbol _ | newline | endOfInput => exact .inr ⟨.unexpected _, trivial, fun _ => rfl⟩

end Parse

/-- Positions that belong together go to the same place. -/
def Sides.Joined (s : Sides) (ρ σ : Relocation) : Prop :=
  ∀ t u, s.Tokens t u → ρ.position t.position = σ.position u.position

namespace Expr.Made

variable {k : Nat} {e f : Expr} {ρ σ : Relocation}

/-- What is made of inner expressions that meet meets. -/
theorem meet (h : Made s slot k e f) (hs : s.Joined ρ σ) (hslot : ∀ e f, slot e f → e.Meet ρ σ f) : e.Meet ρ σ f := by
  induction h with
  | @atom t u e f ht hunary he hf =>
    have hposition := hs t u ht
    have hlexeme := ht.lexeme
    obtain ⟨l, p⟩ := t
    obtain ⟨_, q⟩ := u
    cases hlexeme
    rcases Parse.atom?_cases l with ⟨g, hg, hmove⟩ | ⟨complaint, -, hcomplaint⟩
    · cases (hg p).symm.trans he
      cases (hg q).symm.trans hf
      show relocate ρ _ = relocate σ _
      rw [hmove, hmove]
      exact congrArg g hposition
    · cases (hcomplaint p).symm.trans he
  | parens h => exact hslot _ _ h
  | call _ hargs ih =>
    have hargs := relocateAll_of_meet (hargs.imp hslot)
    show relocate ρ _ = relocate σ _
    simp only [relocate, hargs, (Expr.identifier.inj ih).2]
  | index _ hi ih =>
    have hi : _ = _ := hslot _ _ hi
    show relocate ρ _ = relocate σ _
    simp only [relocate, show relocate ρ _ = _ from ih, hi, ih.position]
  | unary ht h =>
    have h : _ = _ := hslot _ _ h
    show relocate ρ _ = relocate σ _
    simp only [relocate, h, hs _ _ ht]
  | looser _ ih => exact ih
  | binary ht _ _ ihl ihr =>
    show relocate ρ _ = relocate σ _
    simp only [relocate, show relocate ρ _ = _ from ihl, show relocate ρ _ = _ from ihr, hs _ _ ht]
  | assign _ hv ih =>
    have hv : _ = _ := hslot _ _ hv
    show relocate ρ _ = relocate σ _
    simp only [relocate, hv, (Expr.identifier.inj ih).2]

theorem alike (h : Made s slot k e f) (hslot : ∀ e f, slot e f → e.Alike f) : e.Alike f :=
  h.meet (fun _ _ _ => rfl) hslot

theorem loosest (h : Made s slot 0 e f) : Made s slot 6 e f := h.looser.looser.looser.looser.looser.looser

theorem mono {slot' : Expr → Expr → Prop} (h : Made s slot k e f) (hslot : ∀ e f, slot e f → slot' e f) :
    Made s slot' k e f := by
  induction h with
  | atom ht hunary he hf => exact .atom ht hunary he hf
  | parens h => exact .parens (hslot _ _ h)
  | call _ hargs ih => exact .call ih (hargs.imp hslot)
  | index _ hi ih => exact .index ih (hslot _ _ hi)
  | unary ht h => exact .unary ht (hslot _ _ h)
  | looser _ ih => exact .looser ih
  | binary ht _ _ ihl ihr => exact .binary ht ihl ihr
  | assign _ hv ih => exact .assign ih (hslot _ _ hv)

end Expr.Made

/-! ## Statements -/

/-- A name that is declared, as the tokens have it. -/
def Sides.Declares (s : Sides) (x : String) : Prop := ∃ t u, s.Tokens t u ∧ t.kind = .identifier ∧ t.text = x

section

variable (s slot stmt)

inductive LoopStart.Made : LoopStart → LoopStart → Prop
  | var {x : String} {o o' : Option Expr} (hx : s.Declares x) (ho : Option.Rel slot o o') : Made (.var x o) (.var x o')
  | expr {e f : Expr} (h : slot e f) : Made (.expr e) (.expr f)

/-- What is read between a statement, which ends at `w`, and the end of the branch that it stands in: an `else` with its
statement, or nothing where no `else` is ahead. -/
inductive Stmt.ElseMade (w : s.Place) : Option Stmt → Option Stmt → s.Place → Prop
  | none (h : ¬ w.elseAhead) : ElseMade w none none w
  | some {t u : Stmt} {w' : s.Place} (h : w.elseAhead) (ht : stmt t u w') : ElseMade w (some t) (some u) w'

/-- Statements that are made in the same way, where expressions in them are related by `slot` and statements in them
by `stmt`. The last place is the one behind. -/
inductive Stmt.Made : Stmt → Stmt → s.Place → Prop
  | function {x : String} {xs : List String} {ts us : List Stmt} {w : s.Place} (hx : s.Declares x)
      (hxs : ∀ y ∈ xs, s.Declares y) (h : List.Forall₂ (fun t u => ∃ w, stmt t u w) ts us) :
      Made (.function x xs ts) (.function x xs us) w
  | var {x : String} {o o' : Option Expr} {w : s.Place} (hx : s.Declares x) (ho : Option.Rel slot o o') :
      Made (.var x o) (.var x o') w
  | branch {e f : Expr} {t u : Stmt} {o o' : Option Stmt} {w w' : s.Place} (he : slot e f) (ht : stmt t u w)
      (ho : Stmt.ElseMade s stmt w o o' w') : Made (.branch e t o) (.branch f u o') w'
  | whileLoop {e f : Expr} {t u : Stmt} {w : s.Place} (he : slot e f) (ht : stmt t u w) :
      Made (.whileLoop e t) (.whileLoop f u) w
  | forLoop {start start' : Option LoopStart} {o o' i i' : Option Expr} {t u : Stmt} {w : s.Place}
      (hstart : Option.Rel (LoopStart.Made s slot) start start') (ho : Option.Rel slot o o') (hi : Option.Rel slot i i')
      (ht : stmt t u w) : Made (.forLoop start o i t) (.forLoop start' o' i' u) w
  | ret {o o' : Option Expr} {t u : Token} {w : s.Place} (ho : Option.Rel slot o o') (ht : s.Tokens t u) :
      Made (.ret o t.position.line) (.ret o' u.position.line) w
  | trade {action : TradeAction} {es fs : List Expr} {t u : Token} {w : s.Place} (hargs : List.Forall₂ slot es fs)
      (hfit : Parse.tradeArgumentComplaint? es = none) (ht : s.Tokens t u) :
      Made (.trade action es t.position.line) (.trade action fs u.position.line) w
  | block {ts us : List Stmt} {w : s.Place} (h : List.Forall₂ (fun t u => ∃ w, stmt t u w) ts us) :
      Made (.block ts) (.block us) w
  | expr {e f : Expr} {w : s.Place} (h : slot e f) : Made (.expr e) (.expr f) w

end

section

variable {ρ σ : Relocation}

theorem LoopStart.Made.meet {start start' : LoopStart} (h : start.Made s slot start')
    (hslot : ∀ e f, slot e f → e.Meet ρ σ f) : start.Meet ρ σ start' := by
  cases h with
  | var hx ho =>
    have ho := map_of_rel ho hslot
    show relocate ρ _ = relocate σ _
    simp only [relocate, ho]
  | expr h => exact congrArg LoopStart.expr (hslot _ _ h)

/-- What is made of expressions and statements that meet meets. -/
theorem Stmt.Made.meet {t u : Stmt} {w : s.Place} (h : Made s slot stmt t u w) (hs : s.Joined ρ σ)
    (hslot : ∀ e f, slot e f → e.Meet ρ σ f) (hstmt : ∀ t u w, stmt t u w → t.Meet ρ σ u) : t.Meet ρ σ u := by
  have hall : ∀ {ts us : List Stmt}, List.Forall₂ (fun t u => ∃ w, stmt t u w) ts us →
      relocateAll ρ ts = relocateAll σ us := by
    intro ts us h
    refine relocateAll_of_meet (h.imp ?_)
    rintro t u ⟨w, htu⟩
    exact hstmt t u w htu
  show relocate ρ _ = relocate σ _
  cases h with
  | function hx hxs h => simp only [relocate, hall h]
  | var hx ho => simp only [relocate, map_of_rel ho hslot]
  | @branch _ _ _ _ o o' _ _ he ht ho =>
    have helse : o.map (relocate ρ) = o'.map (relocate σ) := by
      cases ho with
      | none => rfl
      | some _ ht => exact congrArg some (hstmt _ _ _ ht)
    rw [relocate_branch, relocate_branch, show Expr.relocate ρ _ = _ from hslot _ _ he,
      show relocate ρ _ = _ from hstmt _ _ _ ht, helse]
  | whileLoop he ht =>
    simp only [relocate, show Expr.relocate ρ _ = _ from hslot _ _ he, show relocate ρ _ = _ from hstmt _ _ _ ht]
  | forLoop hstart ho hi ht =>
    have hstart := map_of_rel hstart fun _ _ h => LoopStart.Made.meet h hslot
    simp only [relocate, hstart, map_of_rel ho hslot, map_of_rel hi hslot,
      show relocate ρ _ = _ from hstmt _ _ _ ht]
  | ret ho ht => simp only [relocate, map_of_rel ho hslot, Relocation.line_eq (hs _ _ ht)]
  | trade hargs hfit ht =>
    simp only [relocate, Expr.relocateAll_of_meet (hargs.imp hslot), Relocation.line_eq (hs _ _ ht)]
  | block h => simp only [relocate, hall h]
  | expr h => exact congrArg Stmt.expr (hslot _ _ h)

end

theorem LoopStart.Made.mono {slot' : Expr → Expr → Prop} {start start' : LoopStart} (h : start.Made s slot start')
    (hslot : ∀ e f, slot e f → slot' e f) : start.Made s slot' start' := by
  cases h with
  | var hx ho => exact .var hx (rel_imp ho hslot)
  | expr h => exact .expr (hslot _ _ h)

theorem Stmt.Made.mono {slot' : Expr → Expr → Prop} {stmt' : Stmt → Stmt → s.Place → Prop} {t u : Stmt} {w : s.Place}
    (h : Made s slot stmt t u w) (hslot : ∀ e f, slot e f → slot' e f) (hstmt : ∀ t u w, stmt t u w → stmt' t u w) :
    Made s slot' stmt' t u w := by
  have hsome : ∀ t u, (∃ w, stmt t u w) → ∃ w, stmt' t u w := by
    rintro t u ⟨w, htu⟩
    exact ⟨w, hstmt t u w htu⟩
  cases h with
  | function hx hxs h => exact .function hx hxs (h.imp hsome)
  | var hx ho => exact .var hx (rel_imp ho hslot)
  | branch he ht ho =>
    refine .branch (hslot _ _ he) (hstmt _ _ _ ht) ?_
    cases ho with
    | none h => exact .none h
    | some h ht => exact .some h (hstmt _ _ _ ht)
  | whileLoop he ht => exact .whileLoop (hslot _ _ he) (hstmt _ _ _ ht)
  | forLoop hstart ho hi ht =>
    exact .forLoop (rel_imp hstart fun _ _ h => h.mono hslot) (rel_imp ho hslot) (rel_imp hi hslot) (hstmt _ _ _ ht)
  | ret ho ht => exact .ret (rel_imp ho hslot) ht
  | trade hargs hfit ht => exact .trade (hargs.imp hslot) hfit ht
  | block h => exact .block (h.imp hsome)
  | expr h => exact .expr (hslot _ _ h)

end StrategyScript
