/-
Reading comes to its end, stays in the row, and finds errors in their order. All loops of the grammar are
left by their own steps; no parser leaves the part of the row up to the first end of input, behind which
nothing is looked at; and each error is about a token behind that of the error before. For the tokens of
a source, which stand in reading order, the errors stand in reading order too.
-/
import StrategyScript.Proofs.Parse.Recovery
import StrategyScript.Proofs.Token.Order

namespace StrategyScript

open StrategyScript.Parser

/-! ## Parsers in a row -/

/-- Where a parser stands that has ended. -/
def Parsed.after {α : Type} : Parsed α → Cursor
  | .ok _ d => d
  | .error _ d => d

/-- From an index of the row the parser gets to an index that is not before it. -/
def Parser.StaysIn {α : Type} (tokens : List Token) (p : Parser α) : Prop :=
  ∀ c i, c.At tokens i → ∃ j, i ≤ j ∧ (p c).after.At tokens j

section

variable {α : Type} {tokens ts : List Token} {c d : Cursor} {i : Nat}

theorem Cursor.At.staysAt (h : c.At tokens i) (hd : c.Passes ts d) : ∃ j, i ≤ j ∧ d.At tokens j :=
  ⟨i + ts.length, Nat.le_add_right _ _, h.walk hd⟩

theorem Parser.Walks.staysIn {p : Parser α} {R : α → List Token → Prop} (h : p.Walks R) : p.StaysIn tokens := by
  intro c i hc
  have hwalk := h c
  cases hp : p c with
  | ok a d =>
    rw [hp] at hwalk
    obtain ⟨ts, hd, -⟩ := hwalk
    exact hc.staysAt hd
  | error e d =>
    rw [hp] at hwalk
    obtain ⟨ts, hd, -⟩ := hwalk
    exact hc.staysAt hd

/-- A loop stays where each of its rounds stays. -/
theorem Parser.Ends.staysIn {step : α → Parser (Option α)} (h : Ends step) (hstep : ∀ a, (step a).StaysIn tokens) (a : α) :
    (iterate step a).StaysIn tokens := by
  intro c i hc
  have hrepeats := h a c
  generalize iterate step a c = r at hrepeats
  induction hrepeats generalizing i with
  | @stop a c d hs =>
    have hround := hstep a c i hc
    rwa [hs] at hround
  | @fail a c d e hs =>
    have hround := hstep a c i hc
    rwa [hs] at hround
  | @go a b c d r hs _ ih =>
    have hround := hstep a c i hc
    rw [hs] at hround
    obtain ⟨j, hij, hd⟩ := hround
    obtain ⟨k, hjk, hr⟩ := ih j hd
    exact ⟨k, hij.trans hjk, hr⟩

end

namespace Parse

/-! ## The loops of the grammar -/

/-- Wherever it is entered, every loop is left by its own steps: the two loops over a row, and those over the
statements of a block, arguments, parameters, operators of each rank, and calls. -/
structure LoopsEnd (levels : Nat) : Prop where
  findings : Ends (Findings.step levels)
  program : Ends (nextStatement (fun k => k = .endOfInput) (statement levels))
  block : Ends (nextStatement (fun k => k = .symbol .rightBrace ∨ k = .endOfInput) (statement levels))
  arguments : Ends (nextItem (expression levels))
  parameters : Ends (nextItem (expect .identifier "parameter name"))
  operators : ∀ looser operator tighter, ranks = looser ++ operator :: tighter →
    Ends (chainStep operator (tighter.foldr chain (unary (operand levels) (expression levels))))
  calls : Ends (postfixStep (expression levels))

theorem loopsEnd (levels : Nat) : LoopsEnd levels where
  findings := findings_ends levels
  program := nextStatement_ends levels
  block := (nextStatement_adds (statement_walks levels)).ends
  arguments := (nextItem_adds (expression_keeps levels)).ends
  parameters := (nextItem_adds .expect_name).ends
  operators := by
    intro looser operator tighter hranks
    have hoperator : operator ∈ ranks := by
      rw [hranks]
      exact List.mem_append_right looser List.mem_cons_self
    have htighter : ∀ f ∈ tighter, f ∈ ranks := by
      intro f hf
      rw [hranks]
      exact List.mem_append_right looser (List.mem_cons_of_mem operator hf)
    have hoperands := unary_keeps (operand_keeps levels) (expression_keeps levels)
    exact (chainStep_adds hoperator (chains_keep htighter hoperands)).ends
  calls := (postfixStep_adds (expression_keeps levels)).ends

/-! ## The parsers of the grammar -/

/-- From an index of the row, all that is read is at indices of the row. -/
structure ReadsIn (tokens : List Token) (levels : Nat) : Prop where
  expression : (expression levels).StaysIn tokens
  operand : (operand levels).StaysIn tokens
  statement : (statement levels).StaysIn tokens
  statements : (statements levels).StaysIn tokens
  round : ∀ f, (Findings.step levels f).StaysIn tokens
  rounds : ∀ f, (iterate (Findings.step levels) f).StaysIn tokens

theorem round_staysIn (tokens : List Token) (levels : Nat) (f : Findings) : (Findings.step levels f).StaysIn tokens := by
  intro c i hc
  by_cases hend : (c.skip isTerminator).peek.kind = .endOfInput
  · rw [findings_stop hend]
    exact hc.staysAt (.skip c isTerminator)
  · cases hs : Parse.statement levels (c.skip isTerminator) with
    | ok s d =>
      obtain ⟨ts, hd, -⟩ := statement_read hs
      rw [findings_statement hend hs]
      exact hc.staysAt hd
    | error e d =>
      obtain ⟨ts, hd, -⟩ := statement_stopped hs
      obtain ⟨us, hresume, -⟩ := resume_passes d
      rw [findings_error hend hs]
      exact hc.staysAt (hd.trans hresume)

theorem readsIn (tokens : List Token) (levels : Nat) : ReadsIn tokens levels where
  expression := (expression_keeps levels).staysIn
  operand := (operand_keeps levels).staysIn
  statement := (statement_walks levels).staysIn
  statements := (statements_keeps levels).staysIn
  round := round_staysIn tokens levels
  rounds := (findings_ends levels).staysIn (round_staysIn tokens levels)

/-! ## Behind the first end of input -/

theorem ofTokens_append_end {t : Token} (h : t.kind = .endOfInput) (us vs : List Token) :
    Cursor.ofTokens (us ++ t :: vs) = Cursor.ofTokens (us ++ [t]) := by
  have htake : (us ++ t :: vs).takeWhile (·.kind ≠ .endOfInput) = (us ++ [t]).takeWhile (·.kind ≠ .endOfInput) := by
    rw [List.takeWhile_append, List.takeWhile_append]
    simp [h]
  have hfind : (us ++ t :: vs).find? (·.kind = .endOfInput) = (us ++ [t]).find? (·.kind = .endOfInput) := by
    rw [List.find?_append, List.find?_append]
    simp [h]
  have hsome : ∃ u, (us ++ [t]).find? (·.kind = .endOfInput) = some u := by
    rw [← Option.isSome_iff_exists, List.find?_isSome]
    exact ⟨t, by simp, by simpa using h⟩
  obtain ⟨u, hu⟩ := hsome
  simp only [Cursor.ofTokens, htake, hfind, hu]

/-- Both readers are done with a row at its first end of input. -/
theorem programs_append_end {t : Token} (h : t.kind = .endOfInput) (us vs : List Token) :
    program (us ++ t :: vs) = program (us ++ [t]) ∧ programOrErrors (us ++ t :: vs) = programOrErrors (us ++ [t]) := by
  unfold program programOrErrors
  rw [ofTokens_append_end h]
  exact ⟨rfl, rfl⟩

/-! ## Errors in their order -/

section

variable {levels : Nat} {tokens : List Token} {c : Cursor} {i : Nat} {ss : List Stmt} {es : List ParseError}

/-- From index `i` on, each error is about a token behind that of the error before, and for each error there is
a token that is passed over. -/
theorem Finds.in_order (h : Finds levels c ss es) (hc : c.At tokens i) :
    ∃ indices, List.Forall₂ (fun e j => e.AboutAt tokens j) es indices ∧ indices.Pairwise (· < ·) ∧
      (∀ j ∈ indices, i ≤ j ∧ j ≤ endIndex tokens) ∧ i + es.length ≤ endIndex tokens := by
  induction h generalizing i with
  | stop _ => exact ⟨[], .nil, .nil, nofun, hc.le_endIndex⟩
  | @statement c d s ss es hgo hs _ ih =>
    obtain ⟨ts, hd, -⟩ := statement_read hs
    obtain ⟨j, hij, hj⟩ := hc.staysAt hd
    obtain ⟨indices, habout, hpairwise, hbounds, hlength⟩ := ih hj
    refine ⟨indices, habout, hpairwise, ?_, by omega⟩
    intro k hk
    have hk := hbounds k hk
    omega
  | @error c d e ss es hgo hs h ih =>
    obtain ⟨ts, hd, t, ht, he⟩ := statement_stopped hs
    have hstopped := hc.walk hd
    obtain ⟨k, hik, hkstop, hk⟩ := hc.about hd ht he
    obtain ⟨us, hresume, hne⟩ := resume_passes d
    have hresumed := hstopped.walk hresume
    obtain ⟨indices, habout, hpairwise, hbounds, hlength⟩ := ih hresumed
    have hstop := hstopped.le_endIndex
    by_cases hrest : d.rest = []
    · -- the statement has gone wrong at the end of the row, and there is nothing behind
      have hnil : (resume d).rest = [] := by
        have hsplit := hresume.rest
        rw [hrest] at hsplit
        exact (List.append_eq_nil_iff.1 hsplit.symm).2
      obtain ⟨-, rfl⟩ := h.at_end hnil
      cases habout
      have hpos := List.length_pos_of_ne_nil (rest_ne_nil hgo)
      have hall := hc.length
      refine ⟨[k], .cons hk .nil, List.pairwise_singleton _ _, ?_, ?_⟩
      · intro j hj
        obtain rfl := List.mem_singleton.1 hj
        omega
      · simp only [List.length_cons, List.length_nil]
        omega
    · have hpos := List.length_pos_of_ne_nil (hne hrest)
      refine ⟨k :: indices, .cons hk habout, .cons ?_ hpairwise, ?_, ?_⟩
      · intro j hj
        have hj := hbounds j hj
        omega
      · intro j hj
        rcases List.mem_cons.1 hj with rfl | hj
        · omega
        · have hj := hbounds j hj
          omega
      · rw [List.length_cons]
        omega

theorem exists_index {indices : List Nat} {f : ParseError} (h : List.Forall₂ (fun e j => e.AboutAt tokens j) es indices)
    (hf : f ∈ es) : ∃ j ∈ indices, f.AboutAt tokens j := by
  induction h with
  | nil => cases hf
  | @cons e j es indices he _ ih =>
    rcases List.mem_cons.1 hf with rfl | hf
    · exact ⟨j, List.mem_cons_self, he⟩
    · obtain ⟨k, hk, hfk⟩ := ih hf
      exact ⟨k, List.mem_cons_of_mem j hk, hfk⟩

/-- If the tokens stand in reading order, errors about later and later tokens stand in reading order. -/
theorem before_of_about {indices : List Nat} (h : List.Forall₂ (fun e j => e.AboutAt tokens j) es indices)
    (hindices : indices.Pairwise (· < ·)) (htokens : (completed tokens).Pairwise fun t u => t.position.before u.position) :
    es.Pairwise fun e f => e.position.before f.position := by
  induction h with
  | nil => exact .nil
  | @cons e j es indices he hes ih =>
    obtain ⟨hj, hindices⟩ := List.pairwise_cons.1 hindices
    refine .cons ?_ (ih hindices)
    intro f hf
    obtain ⟨k, hk, hfk⟩ := exists_index hes hf
    obtain ⟨t, ht, complaint, -, rfl⟩ := he
    obtain ⟨u, hu, complaint', -, rfl⟩ := hfk
    obtain ⟨hjlt, rfl⟩ := List.getElem?_eq_some_iff.1 ht
    obtain ⟨hklt, rfl⟩ := List.getElem?_eq_some_iff.1 hu
    exact List.pairwise_iff_getElem.1 htokens j k hjlt hklt (hj k hk)

theorem completed_tokens (source : String) : completed (Lexer.tokens source) = Lexer.tokens source := by
  obtain ⟨q, hq⟩ := Lexer.getLast?_place (Lexer.segments source.toList) .start
  have hlast : (Lexer.tokens source).getLast? = some ⟨⟨.endOfInput, ""⟩, q⟩ := hq
  unfold completed
  rw [hlast]
  exact if_pos rfl

/-! ## All of it -/

/-- Both readers come to an end by the steps of their loops, and read at indices of the row only, up to that of
the first end of input; what stands behind it does not count. Each error is about a token up to there, later
errors are about later tokens, and there are no more errors than tokens before it. For the tokens of a source,
the errors stand in reading order. -/
theorem reading_in_order (tokens : List Token) :
    (∀ levels, LoopsEnd levels ∧ ReadsIn tokens levels) ∧
    (∀ (c : Cursor) i, c.At tokens i → i ≤ endIndex tokens ∧ ∃ t, (completed tokens)[i]? = some t ∧ t.kind = c.peek.kind ∧
      t.position = c.peek.position ∧ (i < endIndex tokens → t = c.peek)) ∧
    (∀ us t vs, tokens = us ++ t :: vs → t.kind = .endOfInput →
      program tokens = program (us ++ [t]) ∧ programOrErrors tokens = programOrErrors (us ++ [t])) ∧
    (∀ e, program tokens = .error e → ∃ i ≤ endIndex tokens, e.AboutAt tokens i) ∧
    ∀ es, programOrErrors tokens = .error es →
      (∃ indices, List.Forall₂ (fun e i => e.AboutAt tokens i) es indices ∧ indices.Pairwise (· < ·) ∧
        ∀ i ∈ indices, i ≤ endIndex tokens) ∧
      es.length ≤ endIndex tokens ∧
      ∀ source, tokens = Lexer.tokens source → es.Pairwise fun e f => e.position.before f.position := by
  refine ⟨fun levels => ⟨loopsEnd levels, readsIn tokens levels⟩, ?_, ?_, ?_, ?_⟩
  · intro c i hc
    obtain ⟨t, ht, hkind, hposition, hsame⟩ := hc.peek
    refine ⟨hc.le_endIndex, t, ht, hkind, hposition, ?_⟩
    intro hi
    refine hsame ?_
    intro hrest
    have hlength := hc.length
    rw [hrest, List.length_nil] at hlength
    omega
  · rintro us t vs rfl ht
    exact programs_append_end ht us vs
  · intro e he
    obtain ⟨ss, es, hfinds⟩ := finds_of_error he
    obtain ⟨indices, habout, -, hbounds, -⟩ := hfinds.in_order (.start tokens)
    obtain ⟨i, hi, hei⟩ := exists_index habout List.mem_cons_self
    exact ⟨i, (hbounds i hi).2, hei⟩
  · intro es hes
    obtain ⟨-, ss, hfinds⟩ := finds_of_errors hes
    obtain ⟨indices, habout, hpairwise, hbounds, hlength⟩ := hfinds.in_order (.start tokens)
    refine ⟨⟨indices, habout, hpairwise, fun i hi => (hbounds i hi).2⟩, by omega, ?_⟩
    rintro source rfl
    refine before_of_about habout hpairwise ?_
    rw [completed_tokens]
    exact Lexer.tokens_pairwise source

/-- An error about a token in the middle, and one about the end of the input. -/
theorem two_errors_in_order :
    let first : ParseError := ⟨"expected ')' after expression, found ';'", ⟨1, 3⟩⟩
    let second : ParseError := ⟨"unexpected token end of input", ⟨2, 2⟩⟩
    let tokens := Lexer.tokens "(a;\n-"
    programOrErrors tokens = .error [first, second] ∧
      (∃ indices, List.Forall₂ (fun e i => e.AboutAt tokens i) [first, second] indices ∧ indices.Pairwise (· < ·) ∧
        ∀ i ∈ indices, i ≤ endIndex tokens) ∧
      [first, second].Pairwise fun e f => e.position.before f.position := by
  have herrors : programOrErrors (Lexer.tokens "(a;\n-") =
      .error [⟨"expected ')' after expression, found ';'", ⟨1, 3⟩⟩, ⟨"unexpected token end of input", ⟨2, 2⟩⟩] := rfl
  obtain ⟨hindices, -, hpairwise⟩ := (reading_in_order (Lexer.tokens "(a;\n-")).2.2.2.2 _ herrors
  exact ⟨herrors, hindices, hpairwise _ rfl⟩

end

end Parse

end StrategyScript
