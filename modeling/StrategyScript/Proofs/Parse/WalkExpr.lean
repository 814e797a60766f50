/-
What the parsers of expressions pass over. An expression has the signs of all its tokens, in their
order; parentheses, brackets and commas leave none. An accord tells what is read and where it ends, but
not what was passed over on the way, so here each parser is asked for the tokens of its own.
-/
import StrategyScript.Proofs.Parse.Walk
import StrategyScript.Proofs.Parse.ReadExpr

namespace StrategyScript

open StrategyScript.Parser

namespace Parser

/-! ## Items with commas between them -/

variable {α : Type} {item : Parser α} {signs : α → List Sign}

theorem nextItem_adds (h : item.Keeps signs) :
    Adds (fun items => items.reverse.flatMap signs) (nextItem item) := by
  intro items c
  unfold nextItem
  refine .step (.refl c) (.accept nofun) ?_
  intro b ts d hb hd
  cases b with
  | false =>
    simp only [Bool.false_eq_true, if_false] at hb ⊢
    subst hb
    exact .done hd .nil
  | true =>
    obtain ⟨t, rfl, ht⟩ := hb
    have hcomma : Sign.Tell [] [t] := .punctuation (List.forall_mem_singleton.2 (by rw [ht]; rfl))
    refine .keep hd hcomma h ?_
    intro a us e he htell
    refine .done he ⟨List.cons_ne_nil t us, signs a, ?_, htell⟩
    simp

theorem commaSeparated_keeps (h : item.Keeps signs) : (Reading.commaSeparated item).Keeps fun items => items.flatMap signs := by
  intro c
  rw [commaSeparated_eq]
  refine .keep (.refl c) .nil h ?_
  intro first ts d hd htell
  refine .step hd ((nextItem_adds h).iterate [first]) ?_
  rintro items us e ⟨more, hitems, hmore⟩ he
  have hall := htell.append hmore
  rw [List.nil_append] at hall
  refine .done he ?_
  show Sign.Tell (items.reverse.flatMap signs) _
  rw [hitems]
  simpa using hall

end Parser

namespace Parse

/-! ## Operators -/

theorem saidBy_of_ranks {operator : Lexeme → Option BinaryOp} (h : operator ∈ ranks) {l : Lexeme} {op : BinaryOp}
    (hop : operator l = some op) : op.SaidBy l := by
  simp only [ranks, List.mem_cons, List.not_mem_nil, or_false] at h
  rcases h with rfl | rfl | rfl | rfl | rfl | rfl
  · simp only [orOperator, Option.ite_none_right_eq_some, Option.some.injEq] at hop
    obtain ⟨hword, rfl⟩ := hop
    exact hword
  · simp only [andOperator, Option.ite_none_right_eq_some, Option.some.injEq] at hop
    obtain ⟨hword, rfl⟩ := hop
    exact hword
  all_goals
    simp only [equalityOperator, comparisonOperator, sumOperator, productOperator] at hop
    split at hop
    all_goals cases hop
    all_goals assumption

theorem saidBy_of_unary {l : Lexeme} {op : UnaryOp} (h : unaryOperator l = some op) : op.SaidBy l := by
  unfold unaryOperator at h
  split at h
  · cases h
    assumption
  · split at h
    · cases h
      assumption
    · cases h

section

variable {operator : Lexeme → Option BinaryOp} {operand inner : Parser Expr}

theorem chainStep_adds (ho : operator ∈ ranks) (h : operand.Keeps Expr.signs) :
    Adds Expr.signs (chainStep operator operand) := by
  intro left c
  unfold chainStep
  refine .peek ?_
  cases hop : operator c.peek.toLexeme with
  | none => exact .done (.refl c) .nil
  | some op =>
    have hkept : c.peek.KeptAs (.binary op) := saidBy_of_ranks ho hop
    refine .advance (.refl c) hkept.kind.2 ?_
    intro hd
    refine .keep hd (.single hkept) h ?_
    intro right us e he htell
    exact .done he ⟨List.cons_ne_nil _ us, _, rfl, htell⟩

theorem chain_keeps (ho : operator ∈ ranks) (h : operand.Keeps Expr.signs) :
    (chain operator operand).Keeps Expr.signs := by
  intro c
  rw [chain_eq]
  refine .keep (.refl c) .nil h ?_
  intro first ts d hd htell
  refine Parsed.Walked.extend ((chainStep_adds ho h).iterate first d) hd ?_
  rintro e us ⟨more, he, hmore⟩
  rw [he]
  exact htell.append hmore

theorem chains_keep {operators : List (Lexeme → Option BinaryOp)} (ho : ∀ f ∈ operators, f ∈ ranks)
    (h : operand.Keeps Expr.signs) : (operators.foldr chain operand).Keeps Expr.signs := by
  induction operators with
  | nil => exact h
  | cons f operators ih =>
    obtain ⟨hf, hrest⟩ := List.forall_mem_cons.1 ho
    exact chain_keeps hf (ih hrest)

/-! ## The smallest expressions -/

theorem atom_kept {t : Token} {e : Expr} (hunary : unaryOperator t.toLexeme = none) (h : atom? t = .ok e) :
    ∃ sign, e.signs = [sign] ∧ t.KeptAs sign := by
  unfold atom? at h
  split at h
  case h_1 hk =>
    split at h
    · rename_i x hx
      cases h
      exact ⟨.number x, rfl, hk, hx⟩
    · cases h
  case h_2 hk =>
    cases h
    exact ⟨.string t.text, rfl, hk, rfl⟩
  case h_3 hk =>
    by_cases htrue : t.isWord "true"
    · rw [if_pos htrue] at h
      cases h
      exact ⟨.boolean true, rfl, htrue⟩
    · rw [if_neg htrue] at h
      by_cases hfalse : t.isWord "false"
      · rw [if_pos hfalse] at h
        cases h
        exact ⟨.boolean false, rfl, hfalse⟩
      · rw [if_neg hfalse] at h
        cases h
        -- as an operator, the word `not` would have been read before
        have hnot : ¬ t.isWord "not" := by
          intro hnot
          simp [unaryOperator, hk, hnot] at hunary
        refine ⟨.name t.text, rfl, .inl ⟨hk, rfl, ?_⟩⟩
        simp [htrue, hfalse, hnot]
  case h_4 k hk =>
    by_cases hbuiltin : k.isBuiltinName
    · rw [if_pos hbuiltin] at h
      cases h
      exact ⟨.name _, rfl, .inr ⟨k, hk, hbuiltin, rfl⟩⟩
    · rw [if_neg hbuiltin] at h
      cases h
  case h_5 => cases h

theorem atom_concerns {t : Token} {complaint : Complaint} (h : atom? t = .error complaint) :
    complaint.Concerns t.toLexeme := by
  unfold atom? at h
  split at h
  case h_1 hk =>
    split at h
    · cases h
    · cases h
      exact ⟨hk, rfl⟩
  case h_2 => cases h
  case h_3 =>
    split at h
    · cases h
    · split at h <;> cases h
  case h_4 =>
    split at h
    · cases h
    · cases h
      rfl
  case h_5 =>
    cases h
    rfl

theorem mark_of_kind {t : Token} {k : TokenKind} (h : t.kind = k) (hk : k.isPunctuation) :
    t.kind ≠ .endOfInput ∧ Sign.Tell [] [t] := by
  subst h
  refine ⟨?_, .punctuation (List.forall_mem_singleton.2 hk)⟩
  intro hend
  rw [hend] at hk
  cases hk

theorem primary_keeps (h : inner.Keeps Expr.signs) {c : Cursor} (hunary : unaryOperator c.peek.toLexeme = none) :
    (primary inner c).Walked c fun e ts => Sign.Tell e.signs ts := by
  unfold primary
  refine .peek ?_
  by_cases hopen : c.peek.kind = .symbol .leftParen
  · rw [if_pos hopen]
    obtain ⟨hend, htell⟩ := mark_of_kind hopen rfl
    refine .advance (.refl c) hend ?_
    intro hd
    refine .keep hd htell h ?_
    intro e us d hd htell
    exact .close hd htell rfl fun _ htold => htold
  · rw [if_neg hopen]
    cases hatom : atom? c.peek with
    | ok e =>
      obtain ⟨sign, hsigns, hkept⟩ := atom_kept hunary hatom
      refine .advance (.refl c) hkept.kind.2 ?_
      intro hd
      refine .done hd ?_
      rw [hsigns]
      exact .single hkept
    | error complaint => exact .fail (.refl c) (List.mem_singleton_self _) (atom_concerns hatom)

theorem arguments_keeps (h : inner.Keeps Expr.signs) (what : String) : (arguments inner what).Keeps Expr.signsAll := by
  have hclose : ∀ (es : List Expr) (c d : Cursor) (ts : List Token), c.Passes ts d → Sign.Tell (Expr.signsAll es) ts →
      ((do let _ ← expect (.symbol .rightParen) what; return es : Parser (List Expr)) d).Walked c
        fun es ts => Sign.Tell (Expr.signsAll es) ts := by
    intro es c d ts hd htell
    exact .close hd htell rfl fun _ htold => htold
  intro c
  unfold arguments
  refine .step (.refl c) (.check _) ?_
  rintro b _ d rfl hd
  split
  · exact hclose [] c d _ hd .nil
  · refine .keep hd .nil (commaSeparated_keeps h) ?_
    intro es us e he htell
    refine hclose es c e _ he ?_
    rw [Expr.signsAll_eq]
    exact htell

/-! ## Calls and indexings -/

theorem callOf_walks {callee : Expr} {args : List Expr} {paren : Token} {c d : Cursor} {ts : List Token}
    (hd : c.Passes ts d) (hparen : paren ∈ ts) (hk : paren.kind = .symbol .leftParen) :
    (callOf callee args paren d).Walked c fun e us => us = ts ∧ e.signs = callee.signs ++ Expr.signsAll args := by
  cases callee with
  | identifier name p => exact .done hd ⟨rfl, rfl⟩
  | _ => exact .fail hd (List.mem_append_left _ hparen) hk

theorem postfixStep_adds (h : inner.Keeps Expr.signs) : Adds Expr.signs (postfixStep inner) := by
  intro callee c
  unfold postfixStep
  refine .peek ?_
  by_cases hcall : c.peek.kind = .symbol .leftParen
  · rw [if_pos hcall]
    obtain ⟨hend, htell⟩ := mark_of_kind hcall rfl
    refine .advance (.refl c) hend ?_
    intro hd
    refine .keep hd htell (arguments_keeps h _) ?_
    intro args us d hd htell
    refine (callOf_walks hd List.mem_cons_self hcall).bind ?_
    rintro e _ d ⟨rfl, he⟩ hd
    exact .done hd ⟨List.cons_ne_nil _ _, _, he, htell⟩
  · rw [if_neg hcall]
    by_cases hindex : c.peek.kind = .symbol .leftBracket
    · rw [if_pos hindex]
      obtain ⟨hend, htell⟩ := mark_of_kind hindex rfl
      refine .advance (.refl c) hend ?_
      intro hd
      refine .keep hd htell h ?_
      intro i us d hd htell
      refine .keep hd htell (.expect_mark rfl) ?_
      intro t us d hd htell
      exact .done hd ⟨List.cons_ne_nil _ _, i.signs, rfl, by simpa using htell⟩
    · rw [if_neg hindex]
      exact .done (.refl c) .nil

theorem postfixed_keeps (h : inner.Keeps Expr.signs) {c : Cursor} (hunary : unaryOperator c.peek.toLexeme = none) :
    (postfixed inner c).Walked c fun e ts => Sign.Tell e.signs ts := by
  rw [postfixed_eq]
  refine (primary_keeps h hunary).bind ?_
  intro first ts d hfirst hd
  refine Parsed.Walked.extend ((postfixStep_adds h).iterate first d) hd ?_
  rintro e us ⟨more, he, hmore⟩
  rw [he]
  exact hfirst.append hmore

/-! ## The grammar -/

theorem unary_keeps (ho : operand.Keeps Expr.signs) (hi : inner.Keeps Expr.signs) :
    (unary operand inner).Keeps Expr.signs := by
  intro c
  unfold unary
  refine .peek ?_
  cases hop : unaryOperator c.peek.toLexeme with
  | none => exact postfixed_keeps hi hop
  | some op =>
    have hkept : c.peek.KeptAs (.unary op) := saidBy_of_unary hop
    refine .advance (.refl c) hkept.kind.2 ?_
    intro hd
    refine .keep hd (.single hkept) ho ?_
    intro e us d hd htell
    exact .done hd htell

theorem assignmentOf_walks {target value : Expr} {equals : Token} {c d : Cursor} {ts : List Token}
    (hd : c.Passes ts d) (hequals : equals ∈ ts) (hk : equals.kind = .symbol .assign) :
    (assignmentOf target value equals d).Walked c fun e us =>
      us = ts ∧ e.signs = target.signs ++ .assign :: value.signs := by
  cases target with
  | identifier name p => exact .done hd ⟨rfl, rfl⟩
  | _ => exact .fail hd (List.mem_append_left _ hequals) hk

theorem assignment_keeps {target : Parser Expr} (ht : target.Keeps Expr.signs) (hi : inner.Keeps Expr.signs) :
    (assignment target inner).Keeps Expr.signs := by
  intro c
  unfold assignment
  refine .keep (.refl c) .nil ht ?_
  intro left ts d hd hleft
  refine .peek ?_
  by_cases hassign : d.peek.kind = .symbol .assign
  · rw [if_pos hassign]
    have hkept : d.peek.KeptAs .assign := hassign
    refine .advance hd hkept.kind.2 ?_
    intro hd'
    refine .keep hd' (hleft.append (.single hkept)) hi ?_
    intro value us e he htell
    refine (assignmentOf_walks he (by simp) hassign).mono ?_
    rintro f _ ⟨rfl, hf⟩
    rw [hf]
    simpa using htell
  · rw [if_neg hassign]
    exact .done hd hleft

end

theorem tooDeep_walks {α : Type} {R : α → List Token → Prop} (what : Construct) : (tooDeep what : Parser α).Walks R :=
  .failHere fun _ => trivial

mutual

theorem expression_keeps : ∀ levels, (expression levels).Keeps Expr.signs
  | 0 => tooDeep_walks .expression
  | levels + 1 =>
    have hunary := unary_keeps (operand_keeps levels) (expression_keeps levels)
    assignment_keeps (chains_keep (fun _ h => h) hunary) (expression_keeps levels)

theorem operand_keeps : ∀ levels, (operand levels).Keeps Expr.signs
  | 0 => tooDeep_walks .expression
  | levels + 1 => unary_keeps (operand_keeps levels) (expression_keeps levels)

end

end Parse

end StrategyScript
