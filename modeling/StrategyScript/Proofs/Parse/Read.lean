/-
Reading a given row of lexemes. A parser reads from one place of a row to another if it stops exactly
there, with a result of the expected kind; the only other way to end that is allowed is to refuse to go
any deeper.
-/
import StrategyScript.Proofs.Syntax.Render
import StrategyScript.Proofs.Parse.Post

namespace StrategyScript

/-! ## Rows -/

/-- From `c` to `d` stand tokens that say `ls`. -/
def Cursor.Row (ls : List Lexeme) (c d : Cursor) : Prop :=
  ∃ ts : List Token, ts.map Token.toLexeme = ls ∧ c = ⟨ts ++ d.rest, d.stop⟩

namespace Cursor.Row

variable {l : Lexeme} {ls ms : List Lexeme} {c d : Cursor}

theorem nil (h : Row [] c d) : c = d := by
  obtain ⟨ts, hts, rfl⟩ := h
  obtain rfl := List.map_eq_nil_iff.1 hts
  rfl

theorem cons (h : Row (l :: ls) c d) :
    c.peek.toLexeme = l ∧ Row ls c.next d ∧ c.next.rest.length < c.rest.length := by
  obtain ⟨ts, hts, rfl⟩ := h
  obtain ⟨t, ts, rfl, ht, hts⟩ := List.map_eq_cons_iff.1 hts
  exact ⟨ht, ⟨ts, hts, rfl⟩, Nat.lt_succ_self _⟩

theorem append (h : Row (ls ++ ms) c d) : ∃ m, Row ls c m ∧ Row ms m d := by
  obtain ⟨ts, hts, rfl⟩ := h
  obtain ⟨us, vs, rfl, hus, hvs⟩ := List.map_eq_append_iff.1 hts
  exact ⟨⟨vs ++ d.rest, d.stop⟩, ⟨us, hus, by rw [List.append_assoc]⟩, vs, hvs, rfl⟩

theorem uncons (h : Row (l :: ls) c d) : ∃ m, Row [l] c m ∧ Row ls m d := by
  rw [← List.singleton_append] at h
  exact h.append

theorem length_le (h : Row ls c d) : d.rest.length ≤ c.rest.length := by
  obtain ⟨ts, -, rfl⟩ := h
  show d.rest.length ≤ (ts ++ d.rest).length
  rw [List.length_append]
  exact Nat.le_add_left _ _

theorem length_lt {m : Cursor} (h : Row ls c m) (h' : Row (l :: ms) m d) : d.rest.length < c.rest.length := by
  obtain ⟨-, hnext, hlt⟩ := h'.cons
  exact hnext.length_le.trans_lt (hlt.trans_le h.length_le)

/-- A row that begins with a given lexeme, taken apart. -/
theorem cons_symbol {s : Symbol} (h : Row (.symbol s :: ls) c d) :
    c.peek.kind = .symbol s ∧ Row ls c.next d ∧ c.next.rest.length < c.rest.length := by
  obtain ⟨hl, hrow, hlt⟩ := h.cons
  exact ⟨congrArg Lexeme.kind hl, hrow, hlt⟩

end Cursor.Row

/-! ## Reading -/

/-- The message says that something is nested too deeply. -/
def ParseError.Deep (e : ParseError) : Prop := ∃ what, e.message = (Parse.Complaint.tooDeep what).message

namespace Parser

variable {α β : Type} {R : α → Prop} {S : β → Prop} {c m d : Cursor}

/-- From `c` the parser reads exactly up to `d` and gives what satisfies `R`, or it refuses to go so deep. -/
def Reads (p : Parser α) (R : α → Prop) (c d : Cursor) : Prop :=
  (p c).Post ParseError.Deep fun a d' => R a ∧ d' = d

theorem Reads.pure {a : α} (h : R a) : Reads (Pure.pure a) R c c := ⟨h, rfl⟩

theorem Reads.bind {p : Parser α} {f : α → Parser β} (hp : p.Reads R c m) (hf : ∀ a, R a → (f a).Reads S m d) :
    (p >>= f).Reads S c d := by
  refine Parsed.Post.bind (Parsed.Post.mono hp ?_)
  rintro a _ ⟨ha, rfl⟩
  exact hf a ha

theorem Reads.mono {p : Parser α} {R' : α → Prop} (h : p.Reads R c d) (hR : ∀ a, R a → R' a) : p.Reads R' c d :=
  Parsed.Post.mono h fun a _ ⟨ha, hd⟩ => ⟨hR a ha, hd⟩

theorem Reads.peek : Parser.peek.Reads (· = c.peek) c c := ⟨rfl, rfl⟩

theorem Reads.advance : Parser.advance.Reads (· = c.peek) c c.next := ⟨rfl, rfl⟩

theorem Reads.expect {k : TokenKind} {what : String} (hk : c.peek.kind = k) :
    (Parser.expect k what).Reads (· = c.peek) c c.next :=
  Parsed.Post.expect hk ⟨rfl, rfl⟩

theorem Reads.check (k : TokenKind) : (Parser.check k).Reads (· = (c.peek.kind == k)) c c := ⟨rfl, rfl⟩

theorem Reads.accept {k : TokenKind} (hk : c.peek.kind = k) : (Parser.accept k).Reads (· = true) c c.next :=
  Parsed.Post.accept (fun _ => ⟨rfl, rfl⟩) fun hne => absurd hk hne

theorem Reads.not_accept {k : TokenKind} (hk : c.peek.kind ≠ k) : (Parser.accept k).Reads (· = false) c c :=
  Parsed.Post.accept (fun he => absurd he hk) fun _ => ⟨rfl, rfl⟩

theorem Reads.tooDeep (what : Parse.Construct) : (Parse.tooDeep what : Parser α).Reads R c d := ⟨what, rfl⟩

/-- A loop that goes on after a step that reads at least a token. -/
theorem Loops.of_reads {step : α → Parser (Option α)} {Q : α → Cursor → Prop} {a : α}
    (h : (step a).Reads (fun o => ∃ b, R b ∧ o = some b) c m) (hlt : m.rest.length < c.rest.length)
    (hgo : ∀ b, R b → Loops step ParseError.Deep Q b m) : Loops step ParseError.Deep Q a c := by
  refine .of_post (Parsed.Post.mono h ?_)
  rintro _ _ ⟨⟨b, hb, rfl⟩, rfl⟩
  exact ⟨b, rfl, hlt, hgo b hb⟩

/-! ## Items with commas between them -/

/-- Rows of lexemes with commas between them. -/
def separated : List (List Lexeme) → List Lexeme
  | [] => []
  | [ls] => ls
  | ls :: lss => ls ++ .symbol .comma :: separated lss

/-- The step of `commaSeparated`. -/
def nextItem (item : Parser α) (items : List α) : Parser (Option (List α)) := do
  if ← accept (.symbol .comma) then
    return some ((← item) :: items)
  else return none

theorem commaSeparated_eq (item : Parser α) :
    Reading.commaSeparated item = (do
      let first ← item
      let items ← iterate (nextItem item) [first]
      return items.reverse) := rfl

/-- What may stand behind an item of a list in parentheses. -/
def endsItem (k : TokenKind) : Prop := k = .symbol .comma ∨ k = .symbol .rightParen

variable {item : Parser α} {lexemes : β → List Lexeme} {R : α → β → Prop}

theorem nextItem_loops (hd : d.peek.kind = .symbol .rightParen) :
    ∀ (bs done : List β) (as : List α) (c : Cursor),
      (∀ b ∈ bs, ∀ c d, Cursor.Row (lexemes b) c d → endsItem d.peek.kind → item.Reads (R · b) c d) →
      List.Forall₂ R as.reverse done → Cursor.Row (bs.flatMap fun b => .symbol .comma :: lexemes b) c d →
      Loops (nextItem item) ParseError.Deep (fun as d' => List.Forall₂ R as.reverse (done ++ bs) ∧ d' = d) as c
  | [], done, as, c, _, has, hrow => by
    obtain rfl := hrow.nil
    have hstop : nextItem item as c = .ok none c := by
      have haccept : Parser.accept (.symbol .comma) c = .ok false c := by
        unfold Parser.accept
        rw [if_neg (by rw [hd]; nofun)]
      unfold nextItem
      rw [bind_ok haccept]
      rfl
    rw [List.append_nil]
    exact .stop hstop ⟨has, rfl⟩
  | b :: bs, done, as, c, hitem, has, hrow => by
    obtain ⟨hfirst, hitem⟩ := List.forall_mem_cons.1 hitem
    rw [List.flatMap_cons, List.cons_append] at hrow
    obtain ⟨hcomma, hrow, hlt⟩ := hrow.cons_symbol
    obtain ⟨m, hb, hbs⟩ := hrow.append
    -- behind an item stands the comma of the next one or the closing parenthesis
    have hends : endsItem m.peek.kind := by
      cases bs with
      | nil =>
        obtain rfl := hbs.nil
        exact .inr hd
      | cons _ _ => exact .inl hbs.cons_symbol.1
    have hread : (nextItem item as).Reads (fun o => ∃ as', (∃ a, R a b ∧ as' = a :: as) ∧ o = some as') c m := by
      refine .bind (.accept hcomma) ?_
      rintro _ rfl
      exact .bind (hfirst c.next m hb hends) fun a ha => .pure ⟨_, ⟨a, ha, rfl⟩, rfl⟩
    refine .of_reads hread (hb.length_le.trans_lt hlt) ?_
    rintro _ ⟨a, ha, rfl⟩
    -- `b` moves from the items to come to those that are done
    have hdone : List.Forall₂ R (a :: as).reverse (done ++ [b]) := by
      rw [List.reverse_cons]
      exact List.rel_append has (.cons ha .nil)
    have hloop := nextItem_loops hd bs (done ++ [b]) (a :: as) m hitem hdone hbs
    rw [List.append_assoc] at hloop
    exact hloop

theorem separated_cons (f : β → List Lexeme) (b : β) (bs : List β) :
    separated ((b :: bs).map f) = f b ++ bs.flatMap fun b => .symbol .comma :: f b := by
  induction bs generalizing b with
  | nil => exact (List.append_nil _).symm
  | cons b' bs ih =>
    show f b ++ .symbol .comma :: separated ((b' :: bs).map f) = _
    rw [ih, List.flatMap_cons, List.cons_append]

/-- Items are read one by one up to the closing parenthesis. -/
theorem Reads.commaSeparated {bs : List β}
    (hitem : ∀ b ∈ bs, ∀ c d, Cursor.Row (lexemes b) c d → endsItem d.peek.kind → item.Reads (R · b) c d)
    (hbs : bs ≠ []) (hrow : Cursor.Row (separated (bs.map lexemes)) c d)
    (hd : d.peek.kind = .symbol .rightParen) :
    (Reading.commaSeparated item).Reads (fun as => List.Forall₂ R as bs) c d := by
  obtain _ | ⟨b, bs⟩ := bs
  · exact absurd rfl hbs
  obtain ⟨hfirst, hitem⟩ := List.forall_mem_cons.1 hitem
  rw [separated_cons] at hrow
  obtain ⟨m, hb, hrest⟩ := hrow.append
  have hends : endsItem m.peek.kind := by
    cases bs with
    | nil =>
      obtain rfl := hrest.nil
      exact .inr hd
    | cons _ _ => exact .inl hrest.cons_symbol.1
  rw [commaSeparated_eq]
  refine .bind (hfirst c m hb hends) fun a ha => ?_
  have hloop : (iterate (nextItem item) [a]).Reads (fun as => List.Forall₂ R as.reverse ([b] ++ bs)) m d :=
    (nextItem_loops hd bs [b] [a] m hitem (.cons ha .nil) hrest).iterate
  exact .bind hloop fun as has => .pure has

end Parser

end StrategyScript
