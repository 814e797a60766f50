/-
What the parser gives for a row of tokens, also for one that no text has. The parser is put beside itself, so that
what it gives is made of tokens of the row and of what it gives one level deeper. A property of all expressions or
statements that are read is an induction on the levels that are left.
-/
import StrategyScript.Proofs.Syntax.Levels
import StrategyScript.Proofs.Parse.Grammar

namespace StrategyScript

/-! ## One row -/

/-- Both sides stand at the same place, always. -/
def Sides.OneRow (s : Sides) : Prop := ∀ c d, s.Beside c d → c = d

theorem Sides.oneRow_within {P : Cursor → Prop} {hnext : ∀ c, P c → P c.next} {hskip : ∀ c p, P c → P (c.skip p)} :
    (within P hnext hskip).OneRow := fun _ _ h => h.1

theorem Sides.oneRow_same : same.OneRow := oneRow_within

section

variable {s : Sides} {slot : Expr → Expr → Prop} {stmt : Stmt → Stmt → s.Place → Prop} (hs : s.OneRow)
include hs

theorem Sides.OneRow.tokens {t u : Token} (h : s.Tokens t u) : t = u := by
  obtain ⟨w⟩ := h
  rw [hs _ _ w.beside]

theorem Sides.OneRow.joined (ρ : Relocation) : s.Joined ρ ρ := by
  intro t u h
  rw [hs.tokens h]

theorem Expr.Made.eq {k : Nat} {e f : Expr} (h : Made s slot k e f) (hslot : ∀ e f, slot e f → e = f) : e = f := by
  have hmeet := h.meet (hs.joined .stay) fun e f hef => congrArg (relocate .stay) (hslot e f hef)
  rwa [Meet, relocate_stay, relocate_stay] at hmeet

theorem Stmt.Made.eq {t u : Stmt} {w : s.Place} (h : Made s slot stmt t u w) (hslot : ∀ e f, slot e f → e = f)
    (hstmt : ∀ t u w, stmt t u w → t = u) : t = u := by
  have hmeet := h.meet (hs.joined .stay) (fun e f hef => congrArg (Expr.relocate .stay) (hslot e f hef))
    fun t u w htu => congrArg (relocate .stay) (hstmt t u w htu)
  rwa [Meet, relocate_stay, relocate_stay] at hmeet

end

/-! ## Made of parts -/

theorem forall_mem_of_forall₂ {α β : Type} {R : α → β → Prop} {P : α → Prop} {as : List α} {bs : List β}
    (h : List.Forall₂ R as bs) (hR : ∀ a b, R a b → P a) : ∀ a ∈ as, P a := by
  induction h with
  | nil => nofun
  | cons hab _ ih => exact List.forall_mem_cons.2 ⟨hR _ _ hab, ih⟩

theorem forall_mem_of_rel {α β : Type} {R : α → β → Prop} {P : α → Prop} {a : Option α} {b : Option β}
    (h : Option.Rel R a b) (hR : ∀ a b, R a b → P a) : ∀ x ∈ a.toList, P x := by
  cases h with
  | none => nofun
  | some hab => exact List.forall_mem_singleton.2 (hR _ _ hab)

/-- What a statement has itself satisfies `R` and `S`, and no literal among the arguments of a trade is a
reason to complain. -/
structure MadeOf (R : Expr → Prop) (S : Stmt → Prop) (t : Stmt) : Prop where
  slots : ∀ e ∈ t.ownSlots, R e
  inner : ∀ u ∈ t.inner, S u
  trade : ∀ action args line, t = .trade action args line → Parse.tradeArgumentComplaint? args = none

section

variable {s : Sides} {R : Expr → Prop} {S : Stmt → Cursor → Prop}

theorem LoopStart.Made.slots {start start' : LoopStart} (h : start.Made s (fun e _ => R e) start') :
    ∀ e ∈ start.slots, R e := by
  cases h with
  | var _ ho => exact forall_mem_of_rel ho fun _ _ he => he
  | expr he => exact List.forall_mem_singleton.2 he

theorem Stmt.Made.parts {t u : Stmt} {w : s.Place} (h : Made s (fun e _ => R e) (fun t _ w => S t w.left) t u w) :
    MadeOf R (fun t => ∃ c, S t c) t := by
  have hall : ∀ {ts us : List Stmt}, List.Forall₂ (fun t _ => ∃ w : s.Place, S t w.left) ts us →
      ∀ t ∈ ts, ∃ c, S t c := by
    intro ts us h
    refine forall_mem_of_forall₂ h ?_
    rintro t _ ⟨w, ht⟩
    exact ⟨_, ht⟩
  cases h with
  | function _ _ h => exact ⟨nofun, hall h, nofun⟩
  | var _ ho => exact ⟨forall_mem_of_rel ho fun _ _ he => he, nofun, nofun⟩
  | branch he ht ho =>
    refine ⟨List.forall_mem_singleton.2 he, List.forall_mem_cons.2 ⟨⟨_, ht⟩, ?_⟩, nofun⟩
    cases ho with
    | none => nofun
    | some _ ht => exact List.forall_mem_singleton.2 ⟨_, ht⟩
  | whileLoop he ht => exact ⟨List.forall_mem_singleton.2 he, List.forall_mem_singleton.2 ⟨_, ht⟩, nofun⟩
  | forLoop hstart ho hi ht =>
    refine ⟨?_, List.forall_mem_singleton.2 ⟨_, ht⟩, nofun⟩
    have hrest := List.forall_mem_append.2 ⟨forall_mem_of_rel ho fun _ _ he => he, forall_mem_of_rel hi fun _ _ he => he⟩
    cases hstart with
    | none => exact hrest
    | some hstart => exact List.forall_mem_append.2 ⟨hstart.slots, hrest⟩
  | ret ho _ => exact ⟨forall_mem_of_rel ho fun _ _ he => he, nofun, nofun⟩
  | trade hargs hfit _ =>
    refine ⟨forall_mem_of_forall₂ hargs fun _ _ he => he, nofun, ?_⟩
    rintro _ _ _ ⟨⟩
    exact hfit
  | block h => exact ⟨nofun, hall h, nofun⟩
  | expr he => exact ⟨List.forall_mem_singleton.2 he, nofun, nofun⟩

end

/-! ## Properties of what is read -/

namespace Sides.OneRow

/-- What expressions have that are made of expressions which have it one level deeper is had by all that are read. -/
theorem expression {s : Sides} {R : Nat → Expr → Prop} (hs : s.OneRow)
    (hR : ∀ n e f, Expr.Made s (fun e _ => R n e) 6 e f → R (n + 1) e) (n : Nat) :
    s.parsers.Rel (fun e f => R n e ∧ e = f) (Parse.expression n) (Parse.expression n) := by
  have hslot : ∀ n e f, R n e ∧ e = f → e.Alike f := fun n e f h => congrArg _ h.2
  refine Sides.expression hslot (fun n e f h => ?_) n
  exact ⟨hR n e f (h.mono fun _ _ he => he.1), h.eq hs fun _ _ he => he.2⟩

section

variable {s : Sides} {R : Nat → Expr → Prop} {S : Nat → Stmt → Cursor → Prop} (hs : s.OneRow)
  (hR : ∀ n e f, Expr.Made s (fun e _ => R n e) 6 e f → R (n + 1) e)
  (hS : ∀ n t u w, Stmt.Made s (fun e _ => R n e) (fun t _ w => S n t w.left) t u w → S (n + 1) t w.left)
include hs hR hS

/-- The same for statements, with the places behind them. -/
theorem statement : ∀ n w, s.parsers.Run w (Parse.statement n) (Parse.statement n) fun t u w => S n t w.left ∧ t = u := by
  have hslot : ∀ n e f, R n e ∧ e = f → e.Alike f := fun n e f h => congrArg _ h.2
  refine Sides.statement hslot (hs.expression hR) fun n t u w h => ?_
  exact ⟨hS n t u w (h.mono (fun _ _ he => he.1) fun _ _ _ ht => ht.1),
    h.eq hs (fun _ _ he => he.2) fun _ _ _ ht => ht.2⟩

variable {tokens : List Token} {p : Program} (w : s.Place) (hw : w.left = .ofTokens tokens)
  (hp : Parse.program tokens = .ok p)
include hw hp

/-- What is true of every statement that is read is true of every statement of a program. -/
theorem program : ∀ t ∈ p, ∃ c, S Parse.maxNesting t c := by
  have hended : s.Ended _ _ _ := Accord.allStatements (hs.statement hR hS Parse.maxNesting) w
  rw [← hs _ _ w.beside, hw] at hended
  unfold Parse.program Parse.statements at hp
  split at hp
  · rename_i q d hq
    cases hp
    rw [hq] at hended
    obtain ⟨w', -, -, h⟩ := hended.of_ok
    refine forall_mem_of_forall₂ h ?_
    rintro t _ ⟨w, ht, -⟩
    exact ⟨_, ht⟩
  · cases hp

end

/-- What every statement has by the way it is made is had by all in a program, at any depth. -/
theorem program_within {s : Sides} (hs : s.OneRow) {S : Stmt → Cursor → Prop} {Q : Stmt → Prop}
    (hS : ∀ t u w, Stmt.Made s (fun _ _ => True) (fun t _ w => S t w.left) t u w → S t w.left ∧ Q t) {tokens : List Token}
    {p : Program} (w : s.Place) (hw : w.left = .ofTokens tokens) (hp : Parse.program tokens = .ok p) :
    ∀ t ∈ Stmt.withinAll true p, Q t := by
  intro t ht
  rw [Stmt.withinAll_eq, List.mem_flatMap] at ht
  obtain ⟨r, hr, ht⟩ := ht
  have hall := hs.program (R := fun _ _ => True) (S := fun _ t c => S t c ∧ ∀ u ∈ t.within true, Q u)
    (fun _ _ _ _ => trivial) (fun n t u w h => ?_) w hw hp r hr
  · obtain ⟨_, -, hall⟩ := hall
    exact hall t ht
  · obtain ⟨hown, hQ⟩ := hS t u w (h.mono (fun _ _ _ => trivial) fun _ _ _ ht => ht.1)
    refine ⟨hown, fun v hv => ?_⟩
    rw [Stmt.within_true, List.mem_cons, Stmt.withinAll_eq, List.mem_flatMap] at hv
    obtain rfl | ⟨r, hr, hv⟩ := hv
    · exact hQ
    · obtain ⟨_, -, hinner⟩ := (h.parts (S := fun t c => S t c ∧ ∀ u ∈ t.within true, Q u)).inner r hr
      exact hinner v hv

end Sides.OneRow

end StrategyScript
