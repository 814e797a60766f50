/-
Indices of a row of tokens. A cursor stands at the index of the next token; what is behind the first
end of input cannot be reached. A row whose last token is no end of input has one added behind it, in
the place where that token begins, so that at every index where a cursor can stand there is a token.
-/
import StrategyScript.Proofs.Parse.Walk

namespace StrategyScript

/-! ## Rows and indices -/

namespace Parse

/-- The row with an end of input behind it, if there is none there. -/
def completed (tokens : List Token) : List Token :=
  match tokens.getLast? with
  | some t => if t.kind = .endOfInput then tokens else tokens ++ [⟨⟨.endOfInput, ""⟩, t.position⟩]
  | none => [⟨⟨.endOfInput, ""⟩, .start⟩]

/-- The index of the first end of input. -/
def endIndex (tokens : List Token) : Nat := (tokens.takeWhile (·.kind ≠ .endOfInput)).length

end Parse

/-- The error is about the token at index `i` of the row. -/
def ParseError.AboutAt (tokens : List Token) (e : ParseError) (i : Nat) : Prop :=
  ∃ t, (Parse.completed tokens)[i]? = some t ∧ e.About t

/-- An end of input is described without its text, so that what is wrong with one is wrong with any other. -/
theorem Parse.Complaint.Concerns.of_end {complaint : Parse.Complaint} {l m : Lexeme} (h : complaint.Concerns l)
    (hl : l.kind = .endOfInput) (hm : m.kind = .endOfInput) :
    ∃ other : Parse.Complaint, other.Concerns m ∧ complaint.message = other.message := by
  have hdescribe : l.describe = m.describe := by
    unfold Lexeme.describe
    rw [hl, hm]
  cases complaint with
  | expected what found =>
    obtain rfl : found = l := h
    exact ⟨.expected what m, rfl, congrArg (s!"expected {what}, found " ++ ·) hdescribe⟩
  | unended found =>
    obtain rfl : found = l := h
    exact ⟨.unended m, rfl, congrArg ("expected newline or ';' after statement, found " ++ ·) hdescribe⟩
  | unexpected found =>
    obtain rfl : found = l := h
    exact ⟨.unexpected m, rfl, congrArg ("unexpected token " ++ ·) hdescribe⟩
  | tooDeep what => exact ⟨.tooDeep what, trivial, rfl⟩
  | badNumber text => exact absurd (hl.symm.trans h.1) nofun
  | badAssignment | badCall => exact absurd (hl.symm.trans h) nofun
  | tooManyTradeArguments | badTradeArguments =>
    obtain ⟨action, haction⟩ := h
    exact absurd (hl.symm.trans haction) nofun

namespace Cursor

open Parse

/-- The cursor stands at index `i` of the row: the tokens before it have been passed over. -/
structure At (tokens : List Token) (i : Nat) (c : Cursor) : Prop where
  le : i ≤ tokens.length
  passes : (Cursor.ofTokens tokens).Passes (tokens.take i) c

variable {tokens ts : List Token} {c d : Cursor} {i : Nat}

/-! ## The first end of input -/

theorem kind_of_mem_takeWhile {t : Token} (h : t ∈ tokens.takeWhile (·.kind ≠ .endOfInput)) : t.kind ≠ .endOfInput := by
  simpa using List.all_eq_true.1 List.all_takeWhile t h

theorem find?_of_kind (h : ∀ t ∈ ts, t.kind ≠ .endOfInput) : ts.find? (·.kind = .endOfInput) = none := by
  rw [List.find?_eq_none]
  intro t ht
  simpa using h t ht

/-- Either there is a first end of input, and the cursor stops there, or nothing is cut off. -/
theorem ofTokens_cases (tokens : List Token) :
    (∃ t others, tokens = (Cursor.ofTokens tokens).rest ++ t :: others ∧ t.kind = .endOfInput ∧
      t.position = (Cursor.ofTokens tokens).stop) ∨
    ((∀ t ∈ tokens, t.kind ≠ .endOfInput) ∧ (Cursor.ofTokens tokens).rest = tokens) := by
  have hsplit := List.takeWhile_append_dropWhile (p := fun t : Token => decide (t.kind ≠ .endOfInput)) (l := tokens)
  have hbefore : ∀ t ∈ tokens.takeWhile (·.kind ≠ .endOfInput), t.kind ≠ .endOfInput := fun _ => kind_of_mem_takeWhile
  cases hdrop : tokens.dropWhile (·.kind ≠ .endOfInput) with
  | nil =>
    rw [hdrop, List.append_nil] at hsplit
    rw [hsplit] at hbefore
    exact .inr ⟨hbefore, hsplit⟩
  | cons t others =>
    have hkind : t.kind = .endOfInput := by
      have hhead := List.head?_dropWhile_not (fun t : Token => decide (t.kind ≠ .endOfInput)) tokens
      rw [hdrop] at hhead
      simpa using hhead
    rw [hdrop] at hsplit
    have hfind : tokens.find? (·.kind = .endOfInput) = some t := by
      rw [← hsplit, List.find?_append, find?_of_kind hbefore]
      simp [hkind]
    refine .inl ⟨t, others, hsplit.symm, hkind, ?_⟩
    simp [Cursor.ofTokens, hfind]

/-- Behind the tokens that a cursor can reach, the completed row has an end of input. -/
theorem completed_eq (tokens : List Token) :
    ∃ t others, completed tokens = (Cursor.ofTokens tokens).rest ++ t :: others ∧ t.kind = .endOfInput ∧
      t.position = (Cursor.ofTokens tokens).stop := by
  rcases ofTokens_cases tokens with ⟨t, others, htokens, hkind, hposition⟩ | ⟨hkinds, hrest⟩
  · have hcompleted : ∃ more, completed tokens = tokens ++ more := by
      unfold completed
      split
      · split
        · exact ⟨[], (List.append_nil _).symm⟩
        · exact ⟨_, rfl⟩
      · rename_i hlast
        rw [List.getLast?_eq_none_iff] at hlast
        rw [hlast] at htokens
        simp at htokens
    obtain ⟨more, hmore⟩ := hcompleted
    refine ⟨t, others ++ more, ?_, hkind, hposition⟩
    rw [hmore]
    conv => lhs; rw [htokens]
    simp
  · have hfind := find?_of_kind hkinds
    rw [hrest]
    cases hlast : tokens.getLast? with
    | none =>
      rw [List.getLast?_eq_none_iff] at hlast
      subst hlast
      exact ⟨_, [], rfl, rfl, rfl⟩
    | some t =>
      have ht := hkinds t (List.mem_of_getLast? hlast)
      refine ⟨⟨⟨.endOfInput, ""⟩, t.position⟩, [], ?_, rfl, ?_⟩
      · simp [completed, hlast, ht]
      · simp [Cursor.ofTokens, hfind, hlast]

/-! ## Cursors at an index -/

theorem At.of_index (h : c.At tokens i) : (tokens.take i).length = i := List.length_take_of_le h.le

/-- A cursor stands at the index of as many tokens as were passed over. -/
theorem At.of_passes (h : (Cursor.ofTokens tokens).Passes ts c) : c.At tokens ts.length := by
  have hfront : ts <+: tokens := by
    have hrow : ts ++ c.rest <+: tokens := by
      rw [← h.rest]
      exact List.takeWhile_prefix _
    exact (List.prefix_append ts c.rest).trans hrow
  have hts : tokens.take ts.length = ts := (List.prefix_iff_eq_take.1 hfront).symm
  exact ⟨hfront.length_le, by rw [hts]; exact h⟩

theorem At.start (tokens : List Token) : (Cursor.ofTokens tokens).At tokens 0 :=
  .of_passes (.refl _)

theorem At.walk (h : c.At tokens i) (hd : c.Passes ts d) : d.At tokens (i + ts.length) := by
  have hpasses := At.of_passes (h.passes.trans hd)
  rwa [List.length_append, h.of_index] at hpasses

/-- What is left of the row reaches as far as the first end of input. -/
theorem At.length (h : c.At tokens i) : i + c.rest.length = endIndex tokens := by
  have hlength := h.passes.length
  rw [h.of_index] at hlength
  exact hlength.symm

/-- At the index of a cursor stands what the cursor looks at. Only the text of an end of input may differ,
which nothing hangs on. -/
theorem At.peek (h : c.At tokens i) : ∃ t, (completed tokens)[i]? = some t ∧ t.kind = c.peek.kind ∧
    t.position = c.peek.position ∧ (c.rest ≠ [] → t = c.peek) := by
  obtain ⟨t, others, hcompleted, hkind, hposition⟩ := completed_eq tokens
  have hindex := h.of_index
  obtain ⟨-, hrest, hstop⟩ := h
  rw [hrest, List.append_assoc] at hcompleted
  have hget : (completed tokens)[i]? = (c.rest ++ t :: others)[0]? := by
    rw [hcompleted, List.getElem?_append_right hindex.le, hindex, Nat.sub_self]
  obtain ⟨_ | ⟨u, rest⟩, stop⟩ := c
  · exact ⟨t, hget, hkind, hposition.trans hstop, fun hne => absurd rfl hne⟩
  · exact ⟨u, hget, rfl, rfl, fun _ => rfl⟩

/-- A row that begins at the index of a cursor is read from that cursor on, or there is nothing in it. -/
theorem At.drop (h : c.At tokens i) :
    Cursor.ofTokens (tokens.drop i) = c ∨ tokens.drop i = [] ∧ c.rest = [] := by
  have hsplit := List.take_append_drop i tokens
  obtain ⟨-, hrest, hstop⟩ := h
  have hkinds : ∀ t ∈ tokens.take i, t.kind ≠ .endOfInput := by
    intro t ht
    have hmem : t ∈ (Cursor.ofTokens tokens).rest := by
      rw [hrest]
      exact List.mem_append_left _ ht
    exact kind_of_mem_takeWhile hmem
  have hdrop : (tokens.drop i).takeWhile (·.kind ≠ .endOfInput) = c.rest := by
    have hboth : (tokens.take i ++ tokens.drop i).takeWhile (·.kind ≠ .endOfInput) = tokens.take i ++ c.rest := by
      rw [hsplit]
      exact hrest
    rw [List.takeWhile_append_of_pos (by simpa using hkinds)] at hboth
    exact List.append_cancel_left hboth
  by_cases hnil : tokens.drop i = []
  · rw [hnil] at hdrop
    exact .inr ⟨hnil, hdrop.symm⟩
  · have hfind : tokens.find? (·.kind = .endOfInput) = (tokens.drop i).find? (·.kind = .endOfInput) := by
      conv => lhs; rw [← hsplit]
      rw [List.find?_append, find?_of_kind hkinds]
      rfl
    have hlast : tokens.getLast? = (tokens.drop i).getLast? := by
      conv => lhs; rw [← hsplit]
      rw [List.getLast?_append_of_ne_nil _ hnil]
    refine .inl ?_
    obtain ⟨rest, stop⟩ := c
    obtain rfl : (Cursor.ofTokens tokens).stop = stop := hstop
    simp only [Cursor.ofTokens, hfind, hlast] at hdrop ⊢
    rw [hdrop]

/-! ## Parsers between indices -/

theorem At.le_endIndex (h : c.At tokens i) : i ≤ endIndex tokens := by
  have hlength := h.length
  omega

theorem peek_of_nil (h : c.rest = []) : c.peek.kind = .endOfInput := by
  obtain ⟨rest, stop⟩ := c
  obtain rfl : rest = [] := h
  rfl

/-- What is said about the next token is said about the token at the index of the cursor. -/
theorem At.about_peek (h : c.At tokens i) {e : ParseError} (he : e.About c.peek) : e.AboutAt tokens i := by
  obtain ⟨t, ht, hkind, hposition, hsame⟩ := h.peek
  refine ⟨t, ht, ?_⟩
  by_cases hrest : c.rest = []
  · have hend := peek_of_nil hrest
    obtain ⟨complaint, hconcerns, rfl⟩ := he
    obtain ⟨other, hother, hmessage⟩ := hconcerns.of_end hend (hkind.trans hend)
    exact ⟨other, hother, by rw [hmessage, hposition]⟩
  · rw [hsame hrest]
    exact he

/-- An error about a token passed over, or about the next one, is about the token at some index between. -/
theorem At.about (h : c.At tokens i) (hd : c.Passes ts d) {t : Token} (ht : t ∈ ts ++ [d.peek]) {e : ParseError}
    (he : e.About t) : ∃ j, i ≤ j ∧ j ≤ i + ts.length ∧ e.AboutAt tokens j := by
  rcases List.mem_append.1 ht with ht | ht
  · obtain ⟨us, vs, rfl⟩ := List.append_of_mem ht
    have hpasses : c.Passes us ⟨t :: vs ++ d.rest, c.stop⟩ := by
      refine ⟨?_, rfl⟩
      rw [hd.rest, List.append_assoc]
    have hat := h.walk hpasses
    refine ⟨i + us.length, Nat.le_add_right _ _, ?_, hat.about_peek he⟩
    simp
  · obtain rfl := List.mem_singleton.1 ht
    exact ⟨i + ts.length, Nat.le_add_right _ _, le_refl _, (h.walk hd).about_peek he⟩

end Cursor

end StrategyScript
