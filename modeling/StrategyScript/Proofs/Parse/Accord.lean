/-
Readers side by side. The grammar is one and the same for all readers, and it does only a few things: it reads one
part after another, reads again and again, looks at tokens, passes over them and complains. A relation of readers
that is kept by each of these is kept by the whole grammar. The rows that the two are in say the same, and may be one
row; what is true of one parser alone is what relates it to itself.
-/
import StrategyScript.Parse.Program
import Mathlib.Tactic

namespace StrategyScript

variable {α β γ δ : Type}

/-! ## Complaints -/

/-- If the complaint is about a number, its text cannot be read. -/
def Parse.Complaint.Founded : Parse.Complaint → Prop
  | .badNumber text => ∃ fault, Number.readFloat text = .error fault
  | _ => True

/-! ## Places that belong together -/

/-- Which places of two rows belong together. From there on the rows say the same, as far as they are passed over
at the same pace. -/
structure Sides where
  Beside : Cursor → Cursor → Prop
  lexeme {c d : Cursor} (h : Beside c d) : c.peek.toLexeme = d.peek.toLexeme
  length {c d : Cursor} (h : Beside c d) : c.rest.length = d.rest.length
  next {c d : Cursor} (h : Beside c d) : Beside c.next d.next
  skip {c d : Cursor} (h : Beside c d) (p : TokenKind → Bool) : Beside (c.skip p) (d.skip p)

namespace Sides

/-- A place in either row. -/
structure Place (s : Sides) where
  left : Cursor
  right : Cursor
  beside : s.Beside left right

variable {s : Sides}

namespace Place

def next (w : s.Place) : s.Place := ⟨w.left.next, w.right.next, s.next w.beside⟩

def skip (w : s.Place) (p : TokenKind → Bool) : s.Place := ⟨w.left.skip p, w.right.skip p, s.skip w.beside p⟩

/-- An `else` stands here, behind newlines perhaps. -/
def elseAhead (w : s.Place) : Prop := (w.left.skip (· == .newline)).peek.kind = .keyword .elseWord

end Place

/-- The next tokens at some place. -/
inductive Tokens (s : Sides) : Token → Token → Prop
  | peek (w : s.Place) : Tokens s w.left.peek w.right.peek

namespace Tokens

variable {t u : Token}

theorem lexeme (h : s.Tokens t u) : t.toLexeme = u.toLexeme := by
  obtain ⟨w⟩ := h
  exact s.lexeme w.beside

theorem kind (h : s.Tokens t u) : t.kind = u.kind := congrArg Lexeme.kind h.lexeme

theorem text (h : s.Tokens t u) : t.text = u.text := congrArg Lexeme.text h.lexeme

end Tokens

/-- Two parsers have ended in the same way: with results, and a place behind them, that satisfy `R`, or with the same
founded complaint about tokens that belong together. -/
inductive Ended (s : Sides) (R : α → β → s.Place → Prop) : Parsed α → Parsed β → Prop
  | ok {a : α} {b : β} (w : s.Place) (h : R a b w) : Ended s R (.ok a w.left) (.ok b w.right)
  | error {complaint : Parse.Complaint} {t u : Token} (w : s.Place) (hc : complaint.Founded) (h : s.Tokens t u) :
    Ended s R (.error ⟨complaint.message, t.position⟩ w.left) (.error ⟨complaint.message, u.position⟩ w.right)

theorem Ended.mono {R R' : α → β → s.Place → Prop} {x : Parsed α} {y : Parsed β} (h : s.Ended R x y)
    (hR : ∀ a b w, R a b w → R' a b w) : s.Ended R' x y := by
  cases h with
  | ok w h => exact .ok w (hR _ _ w h)
  | error w hc h => exact .error w hc h

theorem Ended.of_ok {R : α → β → s.Place → Prop} {a : α} {b : β} {c d : Cursor} (h : s.Ended R (.ok a c) (.ok b d)) :
    ∃ w : s.Place, w.left = c ∧ w.right = d ∧ R a b w := by
  obtain ⟨w, h⟩ := h
  exact ⟨w, rfl, rfl, h⟩

theorem Ended.of_error {R : α → β → s.Place → Prop} {e f : ParseError} {c d : Cursor}
    (h : s.Ended R (.error e c) (.error f d)) : ∃ (complaint : Parse.Complaint) (t u : Token), complaint.Founded ∧
      s.Tokens t u ∧ e = ⟨complaint.message, t.position⟩ ∧ f = ⟨complaint.message, u.position⟩ := by
  obtain _ | ⟨w, hc, htu⟩ := h
  exact ⟨_, _, _, hc, htu, rfl, rfl⟩

/-- One row, where both sides stand at the same place and `P` holds of it. -/
def within (P : Cursor → Prop) (hnext : ∀ c, P c → P c.next) (hskip : ∀ c p, P c → P (c.skip p)) : Sides where
  Beside c d := c = d ∧ P c
  lexeme := by
    rintro c _ ⟨rfl, -⟩
    rfl
  length := by
    rintro c _ ⟨rfl, -⟩
    rfl
  next := by
    rintro c _ ⟨rfl, hc⟩
    exact ⟨rfl, hnext c hc⟩
  skip := by
    rintro c _ ⟨rfl, hc⟩ p
    exact ⟨rfl, hskip c p hc⟩

/-- One row, and any place in it. -/
def same : Sides := within (fun _ => True) (fun _ _ => trivial) fun _ _ _ => trivial

/-- Any place of a row, on both sides. -/
def Place.of (c : Cursor) : same.Place := ⟨c, c, rfl, trivial⟩

end Sides

/-! ## Relations of readers -/

/-- A relation of readers that the parts of the grammar keep. `Run w p q R` says that `p` and `q`, begun at `w`, end in
the same way, and that results and the place behind them satisfy `R`. -/
structure Accord (s : Sides) (m n : Type → Type) [Reading m] [Reading n] where
  Run {α β : Type} (w : s.Place) (p : m α) (q : n β) (R : α → β → s.Place → Prop) : Prop
  pure {α β : Type} {w : s.Place} {a : α} {b : β} {R : α → β → s.Place → Prop} (h : R a b w) :
    Run w (Pure.pure a) (Pure.pure b) R
  bind {α β γ δ : Type} {w : s.Place} {p : m α} {q : n β} {f : α → m γ} {g : β → n δ} {R : α → β → s.Place → Prop}
    {S : γ → δ → s.Place → Prop} (h : Run w p q R) (hf : ∀ a b w', R a b w' → Run w' (f a) (g b) S) :
    Run w (p >>= f) (q >>= g) S
  mono {α β : Type} {w : s.Place} {p : m α} {q : n β} {R R' : α → β → s.Place → Prop} (h : Run w p q R)
    (hR : ∀ a b w', R a b w' → R' a b w') : Run w p q R'
  iterate {α β : Type} {step : α → m (Option α)} {step' : β → n (Option β)} {I : α → β → Prop} {a : α} {b : β}
    (h : ∀ a b w, I a b → Run w (step a) (step' b) fun o o' _ => Option.Rel I o o') (hab : I a b) (w : s.Place) :
    Run w (Reading.iterate step a) (Reading.iterate step' b) fun a b _ => I a b
  read {α β : Type} {w : s.Place} {p : Parser α} {q : Parser β} {R : α → β → s.Place → Prop}
    (h : s.Ended R (p w.left) (q w.right)) : Run w (liftM p) (liftM q) R

namespace Sides

variable {s : Sides}

theorem iterateWithin_ended {step : α → Parser (Option α)} {step' : β → Parser (Option β)} {I : α → β → Prop}
    (h : ∀ a b (w : s.Place), I a b → s.Ended (fun o o' _ => Option.Rel I o o') (step a w.left) (step' b w.right)) :
    ∀ (l l' : List Token), l.length = l'.length → ∀ a b (w : s.Place), I a b →
      s.Ended (fun a b _ => I a b) (Parser.iterateWithin step l a w.left) (Parser.iterateWithin step' l' b w.right)
  | [], [], _, _, _, w, hab => .ok w hab
  | _ :: l, _ :: l', hl, a, b, w, hab => by
    have hstep := h a b w hab
    unfold Parser.iterateWithin
    generalize step a w.left = x at hstep
    generalize step' b w.right = y at hstep
    cases hstep with
    | error w' hc ht => exact .error w' hc ht
    | ok w' ho =>
      cases ho with
      | none => exact .ok w' hab
      | some hab' => exact iterateWithin_ended h l l' (Nat.succ.inj hl) _ _ w' hab'

/-- Parsers beside parsers. -/
def parsers (s : Sides) : Accord s Parser Parser where
  Run w p q R := s.Ended R (p w.left) (q w.right)
  pure h := .ok _ h
  bind {_ _ _ _ w p q f g _ _} h hf := by
    show s.Ended _ (Parser.bind p f w.left) (Parser.bind q g w.right)
    unfold Parser.bind
    generalize p w.left = x at h
    generalize q w.right = y at h
    cases h with
    | ok w' hab => exact hf _ _ w' hab
    | error w' hc ht => exact .error w' hc ht
  mono h hR := h.mono hR
  iterate {_ _ _ _ _ _ _} h hab w := by
    refine iterateWithin_ended h _ _ ?_ _ _ w hab
    rw [List.length_cons, List.length_cons, s.length w.beside]
  read h := h

end Sides

variable {s : Sides} {m n : Type → Type} [Reading m] [Reading n] {A : Accord s m n}

/-- Wherever they begin, the readers end in the same way, with results that satisfy `R`. -/
def Accord.Rel (A : Accord s m n) (R : α → β → Prop) (p : m α) (q : n β) : Prop :=
  ∀ w, A.Run w p q fun a b _ => R a b

/-! ## Parts of the grammar -/

namespace Accord

open StrategyScript.Parser

variable {w : s.Place}

/-- What looks at the next token and goes on from there. -/
theorem look {f : Token → m α} {g : Token → n β} {R : α → β → s.Place → Prop}
    (h : A.Run w (f w.left.peek) (g w.right.peek) R) :
    A.Run w ((liftM peek : m Token) >>= f) ((liftM peek : n Token) >>= g) R := by
  refine A.bind (R := fun t u w' => t = w.left.peek ∧ u = w.right.peek ∧ w' = w) (A.read (.ok w ⟨rfl, rfl, rfl⟩)) ?_
  rintro _ _ _ ⟨rfl, rfl, rfl⟩
  exact h

theorem acceptElse {R : Bool → Bool → s.Place → Prop} (hyes : w.elseAhead → ∀ w', R true true w')
    (hno : ¬ w.elseAhead → R false false w) :
    A.Run w (liftM Parse.acceptElse : m Bool) (liftM Parse.acceptElse : n Bool) R := by
  have hkind : (w.left.skip (· == .newline)).peek.kind = (w.right.skip (· == .newline)).peek.kind :=
    (Sides.Tokens.peek (w.skip (· == .newline))).kind
  refine A.read ?_
  unfold Parse.acceptElse
  dsimp only
  rw [← hkind]
  split
  · rename_i helse
    exact .ok (w.skip (· == .newline)).next (hyes helse _)
  · rename_i helse
    exact .ok w (hno helse)

namespace Rel

variable {R : α → β → Prop} {S : γ → δ → Prop}

theorem pure {a : α} {b : β} (h : R a b) : A.Rel R (Pure.pure a) (Pure.pure b) := fun _ => A.pure h

theorem bind {p : m α} {q : n β} {f : α → m γ} {g : β → n δ} (h : A.Rel R p q) (hf : ∀ a b, R a b → A.Rel S (f a) (g b)) :
    A.Rel S (p >>= f) (q >>= g) := fun w => A.bind (h w) fun a b w' hab => hf a b hab w'

theorem mono {p : m α} {q : n β} {R' : α → β → Prop} (h : A.Rel R p q) (hR : ∀ a b, R a b → R' a b) : A.Rel R' p q :=
  fun w => A.mono (h w) fun a b _ => hR a b

theorem iterate {step : α → m (Option α)} {step' : β → n (Option β)} {a : α} {b : β}
    (h : ∀ a b, R a b → A.Rel (Option.Rel R) (step a) (step' b)) (hab : R a b) :
    A.Rel R (Reading.iterate step a) (Reading.iterate step' b) :=
  A.iterate (fun a b w hab => h a b hab w) hab

/-- What parsers do beside each other, they do inside the readers. -/
theorem lift {p : Parser α} {q : Parser β} (h : s.parsers.Rel R p q) : A.Rel R (liftM p) (liftM q) :=
  fun w => A.read (h w)

theorem peek : A.Rel s.Tokens (liftM Parser.peek) (liftM Parser.peek) := fun w => A.read (.ok w ⟨w⟩)

theorem advance : A.Rel s.Tokens (liftM Parser.advance) (liftM Parser.advance) := fun w => A.read (.ok w.next ⟨w⟩)

theorem check {kind : TokenKind} : A.Rel Eq (liftM (Parser.check kind)) (liftM (Parser.check kind)) := by
  refine fun w => A.read (.ok w ?_)
  rw [(Sides.Tokens.peek w).kind]

theorem accept {kind : TokenKind} : A.Rel Eq (liftM (Parser.accept kind)) (liftM (Parser.accept kind)) := by
  refine fun w => A.read ?_
  unfold Parser.accept
  rw [(Sides.Tokens.peek w).kind]
  split
  · exact .ok w.next rfl
  · exact .ok w rfl

theorem expect {kind : TokenKind} {what : String} :
    A.Rel (fun t u => s.Tokens t u ∧ t.kind = kind) (liftM (Parser.expect kind what)) (liftM (Parser.expect kind what)) := by
  refine fun w => A.read ?_
  have htokens := Sides.Tokens.peek w
  unfold Parser.expect
  rw [← htokens.kind]
  split
  · rename_i hkind
    exact .ok w.next ⟨htokens, hkind⟩
  · rw [← htokens.lexeme]
    exact .error w trivial htokens

theorem skip {p : TokenKind → Bool} : A.Rel Eq (liftM (Parser.skip p)) (liftM (Parser.skip p)) :=
  fun w => A.read (.ok (w.skip p) rfl)

theorem fail {complaint : Parse.Complaint} {t u : Token} (hc : complaint.Founded) (h : s.Tokens t u) :
    A.Rel R (liftM (Parser.fail complaint t : Parser α)) (liftM (Parser.fail complaint u : Parser β)) :=
  fun w => A.read (.error w hc h)

theorem failHere {complaint : Lexeme → Parse.Complaint} (hc : ∀ l, (complaint l).Founded) :
    A.Rel R (liftM (Parser.failHere complaint : Parser α)) (liftM (Parser.failHere complaint : Parser β)) := by
  refine fun w => A.read ?_
  have htokens := Sides.Tokens.peek w
  unfold Parser.failHere
  rw [← htokens.lexeme]
  exact .error w (hc _) htokens

theorem commaSeparated {item : m α} {item' : n β} (h : A.Rel R item item') :
    A.Rel (List.Forall₂ R) (Reading.commaSeparated item) (Reading.commaSeparated item') := by
  refine .bind h fun a b hab => .bind (R := List.Forall₂ R) (.iterate (fun as bs habs => ?_) (.cons hab .nil))
    fun as bs habs => .pure (List.forall₂_reverse_iff.2 habs)
  refine .bind .accept fun x y hxy => ?_
  subst hxy
  split
  · exact .bind h fun a b hab => .pure (.some (.cons hab habs))
  · exact .pure .none

end Rel

end Accord

end StrategyScript
