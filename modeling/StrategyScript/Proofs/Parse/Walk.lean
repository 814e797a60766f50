/-
The way that a parser goes along its row. It passes over some tokens, never back over where it began,
and where it fails the error is about a token passed over or the next one. What the tokens passed over
have to do with the result is said by a relation, one for each parser.

A loop whose every round reads a token needs no bound: it is left because a round answers `none` or
fails. So the bound of `iterate`, one round for each token, is never what ends it.
-/
import StrategyScript.Parse.Program
import StrategyScript.Proofs.Syntax.Sign

namespace StrategyScript

/-! ## Places in a row -/

/-- Passing over `ts`, a reader gets from `c` to `d`. -/
structure Cursor.Passes (c : Cursor) (ts : List Token) (d : Cursor) : Prop where
  rest : c.rest = ts ++ d.rest
  stop : c.stop = d.stop

namespace Cursor.Passes

variable {c d e : Cursor} {ts us : List Token}

theorem refl (c : Cursor) : c.Passes [] c := ⟨rfl, rfl⟩

theorem trans (h : c.Passes ts d) (h' : d.Passes us e) : c.Passes (ts ++ us) e := by
  refine ⟨?_, h.stop.trans h'.stop⟩
  rw [h.rest, h'.rest, List.append_assoc]

theorem length (h : c.Passes ts d) : c.rest.length = ts.length + d.rest.length := by
  rw [h.rest, List.length_append]

theorem next (h : c.peek.kind ≠ .endOfInput) : c.Passes [c.peek] c.next := by
  obtain ⟨_ | ⟨t, rest⟩, stop⟩ := c
  · exact absurd rfl h
  · exact ⟨rfl, rfl⟩

theorem skip (c : Cursor) (p : TokenKind → Bool) : c.Passes (c.rest.takeWhile (p ·.kind)) (c.skip p) :=
  ⟨List.takeWhile_append_dropWhile.symm, rfl⟩

end Cursor.Passes

/-! ## Errors and their tokens -/

/-- What is wrong can be wrong with the lexeme. -/
def Parse.Complaint.Concerns (l : Lexeme) : Parse.Complaint → Prop
  | .expected _ found | .unended found | .unexpected found => found = l
  | .tooDeep _ => True
  | .badNumber text => l.kind = .number ∧ text = l.text
  | .badAssignment => l.kind = .symbol .assign
  | .badCall => l.kind = .symbol .leftParen
  | .tooManyTradeArguments | .badTradeArguments _ => ∃ action, l.kind = .keyword (.trade action)

/-- The error stands where the token stands, and complains of something that can be wrong with it. -/
def ParseError.About (e : ParseError) (t : Token) : Prop :=
  ∃ complaint : Parse.Complaint, complaint.Concerns t.toLexeme ∧ e = ⟨complaint.message, t.position⟩

/-! ## Walks -/

/-- A parser that began at `c` has ended. If it has a result, `R` holds of it and the tokens passed over;
an error is about one of those tokens or about the next. -/
def Parsed.Walked {α : Type} (c : Cursor) (R : α → List Token → Prop) : Parsed α → Prop
  | .ok a d => ∃ ts, c.Passes ts d ∧ R a ts
  | .error e d => ∃ ts, c.Passes ts d ∧ ∃ t ∈ ts ++ [d.peek], e.About t

/-- From any place the parser goes forward, and `R` holds of its result and the tokens passed over. -/
def Parser.Walks {α : Type} (p : Parser α) (R : α → List Token → Prop) : Prop :=
  ∀ c, (p c).Walked c R

variable {α β : Type} {R R' : α → List Token → Prop} {S : β → List Token → Prop}

namespace Parsed.Walked

variable {c d : Cursor} {ts : List Token}

theorem mono {r : Parsed α} (h : r.Walked c R) (hR : ∀ a ts, R a ts → R' a ts) : r.Walked c R' := by
  cases r with
  | ok a d =>
    obtain ⟨ts, hd, ha⟩ := h
    exact ⟨ts, hd, hR a ts ha⟩
  | error e d => exact h

theorem done {a : α} (hd : c.Passes ts d) (h : R a ts) : ((pure a : Parser α) d).Walked c R :=
  ⟨ts, hd, h⟩

/-- What began at `d` is seen from `c`, where the way to `d` began. -/
theorem extend {r : Parsed α} (h : r.Walked d R) (hd : c.Passes ts d) (hR : ∀ a us, R a us → R' a (ts ++ us)) :
    r.Walked c R' := by
  cases r with
  | ok a e =>
    obtain ⟨us, he, ha⟩ := h
    exact ⟨ts ++ us, hd.trans he, hR a us ha⟩
  | error err e =>
    obtain ⟨us, he, t, ht, habout⟩ := h
    refine ⟨ts ++ us, hd.trans he, t, ?_, habout⟩
    rw [List.append_assoc]
    exact List.mem_append_right _ ht

theorem bind {p : Parser α} {f : α → Parser β} (h : (p d).Walked c R)
    (hf : ∀ a ts e, R a ts → c.Passes ts e → (f a e).Walked c S) : ((p >>= f) d).Walked c S := by
  cases hr : p d with
  | ok a e =>
    rw [hr] at h
    obtain ⟨ts, he, ha⟩ := h
    rw [Parser.bind_ok hr]
    exact hf a ts e ha he
  | error err e =>
    rw [hr] at h
    rw [Parser.bind_error hr]
    exact h

/-- Having got from `c` to `d`, a parser goes on from there. -/
theorem step {p : Parser α} {f : α → Parser β} (hd : c.Passes ts d) (hp : p.Walks R)
    (hf : ∀ a us e, R a us → c.Passes (ts ++ us) e → (f a e).Walked c S) : ((p >>= f) d).Walked c S := by
  have hpd : (p d).Walked c fun a vs => ∃ us, vs = ts ++ us ∧ R a us :=
    (hp d).extend hd fun a us ha => ⟨us, rfl, ha⟩
  refine hpd.bind ?_
  rintro a _ e ⟨us, rfl, ha⟩ he
  exact hf a us e ha he

theorem fail {complaint : Parse.Complaint} {t : Token} (hd : c.Passes ts d) (ht : t ∈ ts ++ [d.peek])
    (h : complaint.Concerns t.toLexeme) : (Parser.fail complaint t d).Walked c R :=
  ⟨ts, hd, t, ht, complaint, h, rfl⟩

/-- Looking at the next token and passing over it. -/
theorem peek {f : Token → Parser β} (h : (f d.peek d).Walked c S) : ((Parser.peek >>= f) d).Walked c S := h

theorem advance {f : Token → Parser β} (hd : c.Passes ts d) (hk : d.peek.kind ≠ .endOfInput)
    (h : c.Passes (ts ++ [d.peek]) d.next → (f d.peek d.next).Walked c S) :
    ((Parser.advance >>= f) d).Walked c S :=
  h (hd.trans (.next hk))

end Parsed.Walked

namespace Parser.Walks

open Parsed

theorem mono {p : Parser α} (h : p.Walks R) (hR : ∀ a ts, R a ts → R' a ts) : p.Walks R' :=
  fun c => (h c).mono hR

theorem expect {k : TokenKind} {what : String} (hk : k ≠ .endOfInput) :
    (Parser.expect k what).Walks fun t ts => ts = [t] ∧ t.kind = k := by
  intro c
  unfold Parser.expect
  split
  · rename_i hpeek
    exact ⟨[c.peek], .next (hpeek ▸ hk), rfl, hpeek⟩
  · exact ⟨[], .refl c, c.peek, List.mem_singleton_self _, .expected what c.peek.toLexeme, rfl, rfl⟩

theorem accept {k : TokenKind} (hk : k ≠ .endOfInput) :
    (Parser.accept k).Walks fun b ts => if b then ∃ t, ts = [t] ∧ t.kind = k else ts = [] := by
  intro c
  unfold Parser.accept
  split
  · rename_i hpeek
    exact ⟨[c.peek], .next (hpeek ▸ hk), c.peek, rfl, hpeek⟩
  · exact ⟨[], .refl c, rfl⟩

theorem check (k : TokenKind) : (Parser.check k).Walks fun _ ts => ts = [] :=
  fun c => ⟨[], .refl c, rfl⟩

theorem skip (p : TokenKind → Bool) : (Parser.skip p).Walks fun _ ts => ∀ t ∈ ts, p t.kind := by
  intro c
  refine ⟨_, .skip c p, ?_⟩
  intro t ht
  exact List.all_eq_true.1 List.all_takeWhile t ht

theorem failHere {complaint : Lexeme → Parse.Complaint} (h : ∀ l, (complaint l).Concerns l) :
    (Parser.failHere complaint : Parser α).Walks R :=
  fun c => ⟨[], .refl c, c.peek, List.mem_singleton_self _, complaint c.peek.toLexeme, h _, rfl⟩

end Parser.Walks

/-! ## Keeping signs -/

/-- A result of the parser has the signs of all that the parser passed over. -/
def Parser.Keeps (p : Parser α) (signs : α → List Sign) : Prop := p.Walks fun a ts => Sign.Tell (signs a) ts

/-- The next parser, with what it adds to the signs told so far. -/
theorem Parsed.Walked.keep {p : Parser α} {f : α → Parser β} {signs : α → List Sign} {told : List Sign} {c d : Cursor}
    {ts : List Token} (hd : c.Passes ts d) (h : Sign.Tell told ts) (hp : p.Keeps signs)
    (hf : ∀ a us e, c.Passes (ts ++ us) e → Sign.Tell (told ++ signs a) (ts ++ us) → (f a e).Walked c S) :
    ((p >>= f) d).Walked c S := by
  refine .step hd hp ?_
  intro a us e ha he
  exact hf a us e he (h.append ha)

namespace Parser.Keeps

theorem expect_mark {k : TokenKind} {what : String} (hk : k.isPunctuation) : (Parser.expect k what).Keeps fun _ => [] := by
  have hend : k ≠ .endOfInput := by
    rintro rfl
    cases hk
  refine (Walks.expect hend).mono ?_
  rintro t _ ⟨rfl, ht⟩
  exact .punctuation (List.forall_mem_singleton.2 (ht ▸ hk))

theorem expect_name {what : String} : (Parser.expect .identifier what).Keeps fun t => [.declared t.text] := by
  refine (Walks.expect (k := .identifier) nofun).mono ?_
  rintro t _ ⟨rfl, ht⟩
  exact .single ⟨ht, rfl⟩

theorem skip {p : TokenKind → Bool} (hp : ∀ k, p k → k.isPunctuation) : (Parser.skip p).Keeps fun _ => [] := by
  refine (Walks.skip p).mono ?_
  intro _ ts hts
  exact .punctuation fun t ht => hp _ (hts t ht)

end Parser.Keeps

/-- A closing mark at the end of a parser tells nothing. -/
theorem Parsed.Walked.close {a : α} {k : TokenKind} {what : String} {told : List Sign} {c d : Cursor} {ts : List Token}
    (hd : c.Passes ts d) (h : Sign.Tell told ts) (hk : k.isPunctuation) (hR : ∀ us, Sign.Tell told us → R a us) :
    ((do let _ ← Parser.expect k what; return a : Parser α) d).Walked c R := by
  refine .keep hd h (.expect_mark hk) ?_
  intro _ us e he htell
  refine .done he (hR _ ?_)
  simpa using htell

/-! ## Loops -/

namespace Parser

variable {step : α → Parser (Option α)}

/-- What comes of repeating a step until it answers `none`, however often that may be. -/
inductive Repeats (step : α → Parser (Option α)) : α → Cursor → Parsed α → Prop
  | stop {a : α} {c d : Cursor} (hs : step a c = .ok none d) : Repeats step a c (.ok a d)
  | fail {a : α} {c d : Cursor} {e : ParseError} (hs : step a c = .error e d) : Repeats step a c (.error e d)
  | go {a b : α} {c d : Cursor} {r : Parsed α} (hs : step a c = .ok (some b) d) (h : Repeats step b d r) :
    Repeats step a c r

/-- Wherever the loop begins, it ends by its own steps, and `iterate` has what comes of it. -/
def Ends (step : α → Parser (Option α)) : Prop := ∀ a c, Repeats step a c (iterate step a c)

theorem Repeats.unique {a : α} {c : Cursor} {r r' : Parsed α} (h : Repeats step a c r) (h' : Repeats step a c r') :
    r = r' := by
  induction h with
  | stop hs =>
    cases h' with
    | stop hs' =>
      rw [hs] at hs'
      cases hs'
      rfl
    | fail hs' | go hs' _ =>
      rw [hs] at hs'
      cases hs'
  | fail hs =>
    cases h' with
    | fail hs' =>
      rw [hs] at hs'
      cases hs'
      rfl
    | stop hs' | go hs' _ =>
      rw [hs] at hs'
      cases hs'
  | go hs _ ih =>
    cases h' with
    | stop hs' | fail hs' =>
      rw [hs] at hs'
      cases hs'
    | go hs' h' =>
      rw [hs] at hs'
      cases hs'
      exact ih h'

theorem repeats_iterateWithin
    (h : ∀ a c b d, step a c = .ok (some b) d → d.rest.length < c.rest.length) :
    ∀ (bound : List Token) (a : α) (c : Cursor), c.rest.length < bound.length →
      Repeats step a c (iterateWithin step bound a c)
  | [], _, _, hlt => absurd hlt (Nat.not_lt_zero _)
  | t :: bound, a, c, hlt => by
    unfold iterateWithin
    cases hs : step a c with
    | error e d => exact .fail hs
    | ok o d =>
      cases o with
      | none => exact .stop hs
      | some b =>
        have hshorter := h a c b d hs
        rw [List.length_cons] at hlt
        exact .go hs (repeats_iterateWithin h bound b d (by omega))

/-- A loop that reads a token in every round has enough rounds. -/
theorem ends_of_reads (h : ∀ a c b d, step a c = .ok (some b) d → d.rest.length < c.rest.length) : Ends step :=
  fun a c => repeats_iterateWithin h _ a c (Nat.lt_succ_self _)

/-- A loop that ends goes on after a round as if it began there. -/
theorem Ends.iterate_go {a b : α} {c d : Cursor} (h : Ends step) (hs : step a c = .ok (some b) d) :
    iterate step a c = iterate step b d := by
  have hgo : Repeats step a c (iterate step b d) := .go hs (h b d)
  exact (h a c).unique hgo

/-- Round after round, the loop gets from `a` and `c` to `b` and `d`. -/
inductive Reaches (step : α → Parser (Option α)) : α → Cursor → α → Cursor → Prop
  | here {a : α} {c : Cursor} : Reaches step a c a c
  | go {a a' b : α} {c c' d : Cursor} (hs : step a c = .ok (some a') c') (h : Reaches step a' c' b d) :
    Reaches step a c b d

/-- Each round of the loop passes over at least one token, and adds the signs of what it passed over to
those of the result. The last look passes over punctuation only. -/
def Adds (signs : α → List Sign) (step : α → Parser (Option α)) : Prop :=
  ∀ a, (step a).Walks fun o ts =>
    match o with
    | none => Sign.Tell [] ts
    | some b => ts ≠ [] ∧ ∃ more, signs b = signs a ++ more ∧ Sign.Tell more ts

theorem Adds.ends {signs : α → List Sign} (h : Adds signs step) : Ends step := by
  refine ends_of_reads fun a c b d hs => ?_
  have hround := h a c
  rw [hs] at hround
  obtain ⟨ts, hd, hne, -⟩ := hround
  have hlength := hd.length
  have hpos := List.length_pos_of_ne_nil hne
  omega

/-- A whole loop adds the signs of all that it passes over. -/
theorem Adds.iterate {signs : α → List Sign} (h : Adds signs step) (a : α) :
    (iterate step a).Walks fun b ts => ∃ more, signs b = signs a ++ more ∧ Sign.Tell more ts := by
  intro c
  have hrepeats := h.ends a c
  generalize Parser.iterate step a c = r at hrepeats
  -- round after round: what the rest of the loop adds stands behind what this round adds
  induction hrepeats with
  | @stop a c d hs =>
    have hround := h a c
    rw [hs] at hround
    obtain ⟨ts, hd, htell⟩ := hround
    exact ⟨ts, hd, [], (List.append_nil _).symm, htell⟩
  | @fail a c d e hs =>
    have hround := h a c
    rw [hs] at hround
    exact hround
  | @go a b c d r hs _ ih =>
    have hround := h a c
    rw [hs] at hround
    obtain ⟨ts, hd, -, more, hb, htell⟩ := hround
    refine ih.extend hd ?_
    rintro f us ⟨more', hf, htell'⟩
    refine ⟨more ++ more', ?_, htell.append htell'⟩
    rw [hf, hb, List.append_assoc]

end Parser

end StrategyScript
