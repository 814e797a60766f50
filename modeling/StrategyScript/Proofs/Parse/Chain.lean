/-
How operators without parentheses are read. One loop reads each rank, and takes for its operands what the
loop of the next tighter rank gives. A loop stops at the first token that is no operator of its rank or of
a tighter one, so what it has read is grouped, and its root is of its rank or tighter. That carries over
from rank to rank; what is left is the operand with its unary operators, the one place where reading
becomes deeper.
-/
import StrategyScript.Proofs.Syntax.Chain
import StrategyScript.Proofs.Parse.Recovery

namespace StrategyScript

/-! ## Rows of kept tokens -/

/-- From `c` to `d` stand tokens that are kept as these signs, one by one. -/
def Cursor.Tells : List Sign → Cursor → Cursor → Prop
  | [], c, d => c = d
  | sign :: signs, c, d => c.peek.KeptAs sign ∧ Tells signs c.next d

namespace Cursor.Tells

variable {sign : Sign} {signs more : List Sign} {c d : Cursor}

theorem append (h : Tells (signs ++ more) c d) : ∃ m, Tells signs c m ∧ Tells more m d := by
  induction signs generalizing c with
  | nil => exact ⟨c, rfl, h⟩
  | cons sign signs ih =>
    obtain ⟨hkept, hrest⟩ := h
    obtain ⟨m, hsigns, hmore⟩ := ih hrest
    exact ⟨m, ⟨hkept, hsigns⟩, hmore⟩

theorem of_tokens {ts : List Token} (h : List.Forall₂ (fun sign t => t.toLexeme.KeptAs sign) signs ts)
    (rest : List Token) (stop : Position) : Tells signs ⟨ts ++ rest, stop⟩ ⟨rest, stop⟩ := by
  induction h with
  | nil => rfl
  | cons hkept _ ih => exact ⟨hkept, ih⟩

end Cursor.Tells

theorem exists_kept {signs : List Sign} {ts : List Token} {t : Token}
    (h : List.Forall₂ (fun sign t => t.toLexeme.KeptAs sign) signs ts) (ht : t ∈ ts) : ∃ sign, t.KeptAs sign := by
  induction h with
  | nil => cases ht
  | cons hkept _ ih =>
    cases ht with
    | head => exact ⟨_, hkept⟩
    | tail _ ht => exact ih ht

theorem Cursor.next_shorter {sign : Sign} {c : Cursor} (h : c.peek.KeptAs sign) :
    c.next.rest.length < c.rest.length := by
  have hlength := (Cursor.Passes.next h.kind.2).length
  rw [List.length_singleton] at hlength
  omega

theorem Cursor.Tells.length_le {signs : List Sign} {c d : Cursor} (h : Tells signs c d) :
    d.rest.length ≤ c.rest.length := by
  induction signs generalizing c with
  | nil => exact h ▸ le_rfl
  | cons sign signs ih => exact (ih h.2).trans (Cursor.next_shorter h.1).le

namespace Parse

open StrategyScript.Parser

/-! ## Which token says what -/

/-- What is one word is no other. -/
theorem isWord_other {l : Lexeme} {v w : String} (h : l.isWord v) (hne : sameWord v w = false) : l.isWord w = false := by
  unfold Lexeme.isWord sameWord at *
  rw [Bool.and_eq_true, beq_iff_eq, beq_iff_eq] at h
  rw [h.2, hne, Bool.and_false]

theorem isWord_of_kind {l : Lexeme} (h : l.kind ≠ .identifier) (w : String) : l.isWord w = false := by
  by_contra hword
  exact h (Lexeme.isWord_kind (by simpa using hword))

/-- The tokens that are operands: a numeral that can be read, a string, an identifier other than `not`, and a
keyword that names a built-in. -/
theorem kept_as_atom {l : Lexeme} :
    (∃ a : Atom, l.KeptAs a.sign) ↔
      (l.kind = .number ∧ ∃ x, Number.readFloat l.text = .ok x) ∨ l.kind = .string ∨
        (l.kind = .identifier ∧ l.isWord "not" = false) ∨ ∃ k : Keyword, l.kind = .keyword k ∧ k.isBuiltinName := by
  constructor
  · rintro ⟨a, h⟩
    cases a with
    | number x => exact .inl ⟨h.1, x, h.2⟩
    | string s => exact .inr (.inl h.1)
    | boolean b => exact .inr (.inr (.inl ⟨Lexeme.isWord_kind h, isWord_other h (by cases b <;> decide)⟩))
    | name x =>
      rcases h with ⟨hkind, -, hwords⟩ | ⟨k, hkind, hbuiltin, -⟩
      · exact .inr (.inr (.inl ⟨hkind, hwords "not" (by simp)⟩))
      · exact .inr (.inr (.inr ⟨k, hkind, hbuiltin⟩))
  · rintro (⟨hkind, x, hx⟩ | hkind | ⟨hkind, hnot⟩ | ⟨k, hkind, hbuiltin⟩)
    · exact ⟨.number x, hkind, hx⟩
    · exact ⟨.string l.text, hkind, rfl⟩
    · by_cases htrue : l.isWord "true"
      · exact ⟨.boolean true, htrue⟩
      · by_cases hfalse : l.isWord "false"
        · exact ⟨.boolean false, hfalse⟩
        · exact ⟨.name l.text, .inl ⟨hkind, rfl, by simp [htrue, hfalse, hnot]⟩⟩
    · exact ⟨.name _, .inr ⟨k, hkind, hbuiltin, rfl⟩⟩

/-- An operator is one for the loop of its rank, and for none of the tighter ones. -/
theorem ranks_said {l : Lexeme} {op : BinaryOp} (h : op.SaidBy l) :
    ∃ f, ranks[op.rank]? = some f ∧ f l = some op ∧ ∀ g ∈ ranks.drop (op.rank + 1), g l = none := by
  have htighter : ∀ g ∈ ranks.drop 2, l.kind = .identifier → g l = none := by
    obtain ⟨kind, text⟩ := l
    rintro g hg rfl
    simp only [ranks, List.drop_succ_cons, List.drop_zero, List.mem_cons, List.not_mem_nil, or_false] at hg
    rcases hg with rfl | rfl | rfl | rfl <;> rfl
  cases op with
  | or =>
    refine ⟨orOperator, rfl, if_pos h, List.forall_mem_cons.2 ⟨?_, fun g hg => htighter g hg (Lexeme.isWord_kind h)⟩⟩
    exact if_neg (by rw [isWord_other h (by decide)]; decide)
  | and => exact ⟨andOperator, rfl, if_pos h, fun g hg => htighter g hg (Lexeme.isWord_kind h)⟩
  | _ =>
    obtain ⟨kind, text⟩ := l
    obtain rfl : kind = _ := h
    refine ⟨_, rfl, rfl, ?_⟩
    simp [ranks, BinaryOp.rank, comparisonOperator, sumOperator, productOperator]

theorem unaryOperator_said {l : Lexeme} {op : UnaryOp} (h : op.SaidBy l) : unaryOperator l = some op := by
  cases op with
  | negate => exact if_pos h
  | not =>
    have hword : l.isWord "not" := h
    unfold unaryOperator
    rw [if_neg (by rw [Lexeme.isWord_kind hword]; nofun), if_pos hword]

/-- An operand is no operator. -/
theorem unaryOperator_of_kept {l : Lexeme} {a : Atom} (h : l.KeptAs a.sign) : unaryOperator l = none := by
  have hnone : ∀ k, l.kind = k → k ≠ .symbol .minus → l.isWord "not" = false → unaryOperator l = none := by
    rintro k rfl hminus hnot
    unfold unaryOperator
    rw [if_neg hminus, hnot]
    rfl
  rcases kept_as_atom.1 ⟨a, h⟩ with ⟨hkind, -⟩ | hkind | ⟨hkind, hnot⟩ | ⟨k, hkind, -⟩
  · exact hnone _ hkind nofun (isWord_of_kind (by rw [hkind]; nofun) _)
  · exact hnone _ hkind nofun (isWord_of_kind (by rw [hkind]; nofun) _)
  · exact hnone _ hkind nofun hnot
  · exact hnone _ hkind nofun (isWord_of_kind (by rw [hkind]; nofun) _)

/-- A token that is kept as an atom is read as that atom. -/
theorem atom_of_kept {t : Token} {a : Atom} (h : t.KeptAs a.sign) : atom? t = .ok (a.expr t.position) := by
  unfold atom?
  cases a with
  | number x =>
    obtain ⟨hkind, hread⟩ := h
    rw [hkind]
    dsimp only
    rw [hread]
    rfl
  | string s =>
    obtain ⟨hkind, rfl⟩ := h
    rw [hkind]
    rfl
  | boolean b =>
    rw [Lexeme.isWord_kind (show t.isWord _ from h)]
    cases b with
    | true => exact if_pos h
    | false =>
      have hfalse : t.isWord "false" := h
      have htrue : t.isWord "true" = false := isWord_other hfalse (by decide)
      dsimp only
      rw [htrue]
      exact if_pos hfalse
  | name x =>
    rcases h with ⟨hkind, rfl, hwords⟩ | ⟨k, hkind, hbuiltin, rfl⟩
    · rw [hkind]
      dsimp only
      rw [hwords "true" (by simp), hwords "false" (by simp)]
      rfl
    · rw [hkind]
      exact if_pos hbuiltin

/-! ## Reading a chain rank by rank -/

/-- What stands at `d` continues no chain of operators of rank `r` or tighter ones, and no operand. -/
structure Stops (r : Nat) (d : Cursor) : Prop where
  operators : ∀ f ∈ ranks.drop r, f d.peek.toLexeme = none
  call : d.peek.kind ≠ .symbol .leftParen
  index : d.peek.kind ≠ .symbol .leftBracket

theorem Stops.tighter {r : Nat} {d : Cursor} (h : Stops r d) : Stops (r + 1) d := by
  refine ⟨fun f hf => h.operators f ?_, h.call, h.index⟩
  rw [← List.tail_drop] at hf
  exact List.mem_of_mem_tail hf

/-- An operator stops what is tighter. -/
theorem Stops.of_operator {op : BinaryOp} {d : Cursor} (h : op.SaidBy d.peek.toLexeme) : Stops (op.rank + 1) d := by
  obtain ⟨f, -, -, htighter⟩ := ranks_said h
  have hkind : d.peek.kind ≠ .symbol .leftParen ∧ d.peek.kind ≠ .symbol .leftBracket := by
    have hkept : d.peek.KeptAs (.binary op) := h
    constructor
    all_goals
      intro hk
      have hpunctuation := hkept.kind.1
      rw [hk] at hpunctuation
      cases hpunctuation
  exact ⟨htighter, hkind.1, hkind.2⟩

/-- The operators are of rank `r` or tighter, and no operand is deeper than `n` unary operators. -/
def Fits (n r : Nat) (links : Links) : Prop := ∀ link ∈ links, r ≤ link.1.rank ∧ link.2.unary.length ≤ n

/-- The tree groups a row with these signs, and its root is an operator of rank `r` or a tighter one. -/
structure Groups (r : Nat) (signs : List Sign) (e : Expr) : Prop where
  signs : e.signs = signs
  grouped : e.Grouped
  root : ∀ o ∈ e.root?, r ≤ o.rank

/-- The parser reads and groups every chain of operators of rank `r` or tighter ones. -/
def ReadsFrom (n r : Nat) (p : Parser Expr) : Prop :=
  ∀ ⦃x : Operand⦄ ⦃links : Links⦄ ⦃c d : Cursor⦄, Cursor.Tells (x.signs ++ links.signs) c d → Stops r d →
    x.unary.length ≤ n → Fits n r links → ∃ e, p c = .ok e d ∧ Groups r (x.signs ++ links.signs) e

section

variable {n r : Nat} {p : Parser Expr} {x : Operand} {links : Links} {c d : Cursor}

/-- A row of links up to the first one of rank `r`. -/
theorem Fits.split (h : Fits n r links) :
    ∃ tight loose, links = tight ++ loose ∧ Fits n (r + 1) tight ∧ ∀ link ∈ loose.head?, link.1.rank = r := by
  let tighter : BinaryOp × Operand → Bool := fun link => r < link.1.rank
  refine ⟨links.takeWhile tighter, links.dropWhile tighter, List.takeWhile_append_dropWhile.symm, ?_, ?_⟩
  · intro link hlink
    have htighter : tighter link := List.all_eq_true.1 List.all_takeWhile link hlink
    exact ⟨by simpa [tighter] using htighter, (h link ((List.takeWhile_sublist _).subset hlink)).2⟩
  · intro link hlink
    have hle := (h link ((List.dropWhile_sublist _).subset (List.mem_of_mem_head? hlink))).1
    have hnot := List.head?_dropWhile_not tighter links
    rw [hlink] at hnot
    have hge : ¬ r < link.1.rank := by simpa [tighter] using hnot
    omega

/-- A parser of tighter chains stops in front of the first operator of rank `r`. -/
theorem segment_reads (h : ReadsFrom n (r + 1) p) (hrow : Cursor.Tells (x.signs ++ links.signs) c d) (hd : Stops r d)
    (hx : x.unary.length ≤ n) (hlinks : Fits n r links) :
    ∃ tight loose m e, links = tight ++ loose ∧ (∀ link ∈ loose.head?, link.1.rank = r) ∧ p c = .ok e m ∧
      Groups (r + 1) (x.signs ++ tight.signs) e ∧ Cursor.Tells loose.signs m d ∧ m.rest.length ≤ c.rest.length := by
  obtain ⟨tight, loose, rfl, htight, hhead⟩ := hlinks.split
  rw [Links.signs, List.flatMap_append, ← List.append_assoc] at hrow
  obtain ⟨m, hsegment, hloose⟩ := hrow.append
  have hm : Stops (r + 1) m := by
    cases loose with
    | nil =>
      obtain rfl : m = d := hloose
      exact hd.tighter
    | cons link loose =>
      rw [← hhead link rfl]
      exact .of_operator hloose.1
  obtain ⟨e, he, hgroups⟩ := h hsegment hm hx htight
  exact ⟨tight, loose, m, e, rfl, hhead, he, hgroups, hloose, hsegment.length_le⟩

/-- The loop of rank `r` reads on behind what it has grouped so far. -/
theorem chainStep_loops {f : Lexeme → Option BinaryOp} (hf : ranks[r]? = some f) (h : ReadsFrom n (r + 1) p)
    (hd : Stops r d) : ∀ (links : Links) (left : Expr) (signs : List Sign) (c : Cursor), Groups r signs left →
      Cursor.Tells links.signs c d → Fits n r links → (∀ link ∈ links.head?, link.1.rank = r) →
      Loops (chainStep f p) (fun _ => False) (fun e d' => Groups r (signs ++ links.signs) e ∧ d' = d) left c
  | [], left, signs, c, hleft, hrow, _, _ => by
    obtain rfl : c = d := hrow
    have hmem : f ∈ ranks.drop r := by
      rw [List.drop_eq_getElem_cons (List.getElem?_eq_some_iff.1 hf).1]
      exact List.mem_cons.2 (.inl (List.getElem?_eq_some_iff.1 hf).2.symm)
    rw [show Links.signs [] = [] from rfl, List.append_nil]
    exact .stop (chainStep_none (hd.operators f hmem)) ⟨hleft, rfl⟩
  | (op, x) :: links, left, signs, c, hleft, hrow, hlinks, hhead => by
    obtain ⟨hop, hrow⟩ := hrow
    obtain ⟨hx, hlinks⟩ := List.forall_mem_cons.1 hlinks
    have hrank : op.rank = r := hhead _ rfl
    have hfop : f c.peek.toLexeme = some op := by
      obtain ⟨g, hg, hgop, -⟩ := ranks_said hop
      rw [hrank, hf] at hg
      cases hg
      exact hgop
    -- the right operand takes the tighter links behind it along; the loop goes on with the other ones
    obtain ⟨tight, loose, m, right, rfl, hloose, hright, hgroups, hrest, hle⟩ := segment_reads h hrow hd hx.2 hlinks
    have hstep : chainStep f p left c = .ok (some (.binary op left right c.peek.position)) m := by
      unfold chainStep
      rw [peek_bind, hfop]
      dsimp only
      rw [advance_bind, bind_ok hright]
      rfl
    have hleft' : Groups r (signs ++ .binary op :: (x.signs ++ tight.signs)) (.binary op left right c.peek.position) := by
      refine ⟨?_, .binary op _ hleft.grouped hgroups.grouped (hrank ▸ hleft.root) (hrank ▸ hgroups.root), ?_⟩
      · rw [Expr.signs, hleft.signs, hgroups.signs]
      · rintro _ ⟨⟩
        exact hrank.ge
    have hloop := chainStep_loops hf h hd loose _ _ m hleft' hrest (fun link hlink => hlinks link (by simp [hlink])) hloose
    have hsigns : signs ++ Links.signs ((op, x) :: (tight ++ loose)) =
        signs ++ .binary op :: (x.signs ++ tight.signs) ++ Links.signs loose := by
      simp [Links.signs]
    rw [hsigns]
    exact .go hstep (hle.trans_lt (Cursor.next_shorter hop)) hloop
termination_by links => links.length

theorem chain_reads {f : Lexeme → Option BinaryOp} (hf : ranks[r]? = some f) (h : ReadsFrom n (r + 1) p) :
    ReadsFrom n r (chain f p) := by
  intro x links c d hrow hd hx hlinks
  obtain ⟨tight, loose, m, left, rfl, hloose, hleft, hgroups, hrest, -⟩ := segment_reads h hrow hd hx hlinks
  have hgroups' : Groups r (x.signs ++ tight.signs) left :=
    ⟨hgroups.signs, hgroups.grouped, fun o ho => (Nat.le_succ r).trans (hgroups.root o ho)⟩
  have hfits : Fits n r loose := fun link hlink => hlinks link (List.mem_append_right tight hlink)
  have hpost := (chainStep_loops hf h hd loose left _ m hgroups' hrest hfits hloose).iterate
  rw [chain_eq, bind_ok hleft]
  have hsigns : x.signs ++ Links.signs (tight ++ loose) = x.signs ++ tight.signs ++ loose.signs := by
    simp [Links.signs]
  rw [hsigns]
  cases hloop : iterate (chainStep f p) left m with
  | ok e d' =>
    rw [hloop] at hpost
    obtain ⟨he, rfl⟩ := hpost
    exact ⟨e, rfl, he⟩
  | error e d' =>
    rw [hloop] at hpost
    cases hpost

/-- All ranks from one on. -/
theorem chains_read (h : ReadsFrom n ranks.length p) :
    ∀ looser tighter : List (Lexeme → Option BinaryOp), ranks = looser ++ tighter →
      ReadsFrom n looser.length (tighter.foldr chain p)
  | looser, [], hranks => by
    rw [List.append_nil] at hranks
    rw [← hranks]
    exact h
  | looser, f :: tighter, hranks => by
    have hf : ranks[looser.length]? = some f := by simp [hranks]
    have hrest := chains_read h (looser ++ [f]) tighter (by simp [hranks])
    rw [List.length_append] at hrest
    exact chain_reads hf hrest

end

/-! ## Operands -/

/-- An operand is read as long as there is a level left for each of its unary operators. -/
theorem operand_reads {a : Atom} {d : Cursor} (hcall : d.peek.kind ≠ .symbol .leftParen)
    (hindex : d.peek.kind ≠ .symbol .leftBracket) {ops : List UnaryOp} {levels : Nat} {c : Cursor}
    (hrow : Cursor.Tells (Operand.signs ⟨ops, a⟩) c d) (hlevels : ops.length ≤ levels) :
    ∃ e, unary (operand levels) (expression levels) c = .ok e d ∧ e.signs = Operand.signs ⟨ops, a⟩ ∧ e.Grouped ∧
      e.root? = none := by
  induction ops generalizing levels c with
  | nil =>
    obtain ⟨hkept, rfl⟩ := hrow
    refine ⟨a.expr c.peek.position, ?_, a.signs_expr _, .atom a _, a.root_expr _⟩
    unfold unary
    rw [Reading.liftM_self, peek_bind, unaryOperator_of_kept hkept]
    dsimp only
    rw [postfixed_eq, bind_ok (primary_atom (atom_of_kept hkept))]
    exact iterate_stop (postfixStep_none hcall hindex)
  | cons op ops ih =>
    obtain ⟨hkept, hrow⟩ := hrow
    obtain _ | levels := levels
    · cases hlevels
    obtain ⟨e, he, hsigns, hgrouped, hroot⟩ := ih hrow (Nat.le_of_succ_le_succ hlevels)
    refine ⟨.unary op e c.peek.position, ?_, congrArg (Sign.unary op :: ·) hsigns, .unary op _ hgrouped hroot, rfl⟩
    have hoperand : operand (levels + 1) c.next = .ok e d := by
      rw [operand]
      exact he
    unfold unary
    rw [Reading.liftM_self, peek_bind, unaryOperator_said hkept]
    dsimp only
    rw [Reading.liftM_self, advance_bind, bind_ok hoperand]
    rfl

theorem rank_lt (op : BinaryOp) : op.rank < ranks.length := by cases op <;> decide

/-- A chain is read by the loops of all ranks, one inside another. -/
theorem binary_reads (levels : Nat) : ReadsFrom levels 0 (binary (unary (operand levels) (expression levels))) := by
  rw [binary_eq]
  refine chains_read ?_ [] ranks rfl
  intro x links c d hrow hd hx hlinks
  obtain rfl : links = [] := by
    rw [List.eq_nil_iff_forall_not_mem]
    exact fun link hlink => (rank_lt link.1).not_ge (hlinks link hlink).1
  have hnil : Links.signs [] = [] := rfl
  rw [hnil, List.append_nil] at hrow ⊢
  obtain ⟨e, he, hsigns, hgrouped, hroot⟩ := operand_reads hd.call hd.index hrow hx
  refine ⟨e, he, hsigns, hgrouped, ?_⟩
  rw [hroot]
  nofun

/-! ## A chain as a program -/

/-- What may stand behind a chain that is the last statement. -/
def EndsRow (k : TokenKind) : Prop := isTerminator k ∨ k = .endOfInput

theorem EndsRow.cases {k : TokenKind} (h : EndsRow k) : k = .newline ∨ k = .symbol .semicolon ∨ k = .endOfInput := by
  rcases h with h | h
  · simp only [isTerminator, Bool.or_eq_true, beq_iff_eq] at h
    exact h.imp_right .inl
  · exact .inr (.inr h)

theorem EndsRow.ne_symbol {k : TokenKind} (h : EndsRow k) {s : Symbol} (hs : s ≠ .semicolon) : k ≠ .symbol s := by
  rintro rfl
  rcases h.cases with hk | hk | hk
  · cases hk
  · cases hk
    exact hs rfl
  · cases hk

theorem EndsRow.stops {d : Cursor} (h : EndsRow d.peek.kind) : Stops 0 d := by
  refine ⟨?_, h.ne_symbol (by decide), h.ne_symbol (by decide)⟩
  generalize d.peek.toLexeme = l at h
  obtain ⟨kind, text⟩ := l
  rcases h.cases with rfl | rfl | rfl
  all_goals
    simp [ranks, orOperator, andOperator, equalityOperator, comparisonOperator, sumOperator, productOperator,
      isWord_of_kind]

/-- A chain cannot be taken for another kind of statement, unless it begins with a trade. -/
theorem beginsStmt_of_chain {chain : Chain} {c d : Cursor} (hrow : Cursor.Tells chain.signs c d)
    (htrade : ∀ action, c.peek.kind ≠ .keyword (.trade action)) : beginsStmt c.peek.kind = false := by
  obtain ⟨⟨_ | ⟨op, ops⟩, a⟩, links⟩ := chain
  · have hkept : c.peek.KeptAs a.sign := hrow.1
    cases a with
    | number x => rw [hkept.1]; rfl
    | string s => rw [hkept.1]; rfl
    | boolean b => rw [Lexeme.isWord_kind hkept]; rfl
    | name x =>
      rcases hkept with ⟨hkind, -⟩ | ⟨k, hkind, hbuiltin, -⟩
      · rw [hkind]
        rfl
      · rw [hkind]
        cases k with
        | trade action => exact absurd hkind (htrade action)
        | _ => first | rfl | cases hbuiltin
  · have hkept : c.peek.KeptAs (.unary op) := hrow.1
    cases op with
    | negate => rw [show c.peek.kind = _ from hkept]; rfl
    | not => rw [Lexeme.isWord_kind hkept]; rfl

theorem anyStatement_other {expression : Parser Expr} {statement : Parser Stmt} {c : Cursor}
    (h : beginsStmt c.peek.kind = false) : anyStatement expression statement c = expressionStatement expression c := by
  unfold anyStatement
  rw [Reading.liftM_self, peek_bind]
  generalize c.peek = t at h
  obtain ⟨⟨kind, text⟩, p⟩ := t
  cases kind with
  | keyword k => cases k <;> first | rfl | cases h
  | symbol s => cases s <;> first | rfl | cases h
  | _ => rfl

/-- A chain is read as one statement, with all the ends of statements behind it. -/
theorem statement_chain {chain : Chain} {levels : Nat} {c d : Cursor} (hrow : Cursor.Tells chain.signs c d)
    (hd : EndsRow d.peek.kind) (hunary : ∀ x ∈ chain.operands, x.unary.length ≤ levels)
    (htrade : ∀ action, c.peek.kind ≠ .keyword (.trade action)) :
    ∃ e, statement (levels + 2) c = .ok (.expr e) (d.skip isTerminator) ∧ Groups 0 chain.signs e := by
  obtain ⟨hx, hlinks⟩ := List.forall_mem_cons.1 hunary
  have hfits : Fits levels 0 chain.links := fun link hlink => ⟨Nat.zero_le _, hlinks _ (List.mem_map_of_mem hlink)⟩
  obtain ⟨e, he, hgroups⟩ := binary_reads levels hrow hd.stops hx hfits
  have hskip : skipTerminators d = .ok () (d.skip isTerminator) := rfl
  have hassign : d.peek.kind ≠ .symbol .assign := hd.ne_symbol (by decide)
  have hexpression : expression (levels + 1) c = .ok e d := by
    rw [expression]
    unfold assignment
    rw [bind_ok he, Reading.liftM_self, peek_bind, if_neg hassign]
    rfl
  have hends : endsStatement d.peek.kind := by rcases hd.cases with hk | hk | hk <;> rw [hk] <;> rfl
  have hend : statementEnd d = .ok () (d.skip isTerminator) := by
    unfold statementEnd
    rw [peek_bind, if_pos hends, hskip]
  refine ⟨e, ?_, hgroups⟩
  rw [statement, anyStatement_other (beginsStmt_of_chain hrow htrade)]
  unfold expressionStatement
  rw [bind_ok hexpression, Reading.liftM_self, bind_ok hend]
  rfl

/-- Where nothing but ends of statements stands behind a chain, the chain is all there is to be found. -/
theorem finds_chain {chain : Chain} {levels : Nat} {c d : Cursor} (hrow : Cursor.Tells chain.signs c d)
    (hd : ∀ t ∈ d.rest, isTerminator t.kind) (hunary : ∀ x ∈ chain.operands, x.unary.length ≤ levels)
    (htrade : ∀ action, c.peek.kind ≠ .keyword (.trade action)) :
    ∃ e, Finds (levels + 2) c [.expr e] [] ∧ Groups 0 chain.signs e := by
  have hends : EndsRow d.peek.kind := by
    obtain ⟨_ | ⟨t, rest⟩, stop⟩ := d
    · exact .inr rfl
    · exact .inl (hd t List.mem_cons_self)
  obtain ⟨e, he, hgroups⟩ := statement_chain hrow hends hunary htrade
  obtain ⟨sign, hkept⟩ : ∃ sign, c.peek.KeptAs sign := by
    obtain ⟨⟨_ | ⟨op, ops⟩, a⟩, links⟩ := chain
    · exact ⟨_, hrow.1⟩
    · exact ⟨_, hrow.1⟩
  obtain ⟨hpunctuation, hend⟩ := hkept.kind
  have hskip : c.skip isTerminator = c := by
    obtain ⟨_ | ⟨t, rest⟩, stop⟩ := c
    · rfl
    · refine congrArg (Cursor.mk · stop) (List.dropWhile_cons_of_neg fun hterminator => ?_)
      have hcontra := isPunctuation_of_isTerminator hterminator
      rw [show t.kind.isPunctuation = false from hpunctuation] at hcontra
      cases hcontra
  have hstop : ((d.skip isTerminator).skip isTerminator).peek.kind = .endOfInput := by
    have hnil : (d.skip isTerminator).rest = [] := List.dropWhile_eq_nil_iff.2 hd
    refine Cursor.peek_of_nil ?_
    show (d.skip isTerminator).rest.dropWhile _ = []
    rw [hnil, List.dropWhile_nil]
  refine ⟨e, .statement ?_ ?_ (.stop hstop), hgroups⟩
  · rw [hskip]
    exact hend
  · rw [hskip]
    exact he

/-- A row that says a chain and ends there is a program of one statement, the chain grouped. -/
theorem chain_program {chain : Chain} {ts tail : List Token}
    (hts : List.Forall₂ (fun sign t => t.toLexeme.KeptAs sign) chain.signs ts)
    (hunary : ∀ x ∈ chain.operands, x.unary.length + 2 ≤ maxNesting)
    (htrade : ∀ t ∈ ts.head?, ∀ action, t.kind ≠ .keyword (.trade action)) (htail : ∀ t ∈ tail, EndsRow t.kind) :
    ∃ e, program (ts ++ tail) = .ok [.expr e] ∧ Groups 0 chain.signs e := by
  -- the reader gets the chain and the ends of statements up to the end of input
  let notEnd : Token → Bool := fun t => t.kind ≠ .endOfInput
  have hkept : ∀ t ∈ ts, notEnd t := by
    intro t ht
    obtain ⟨sign, hsign⟩ := exists_kept hts ht
    simpa [notEnd] using hsign.kind.2
  have hrest : (Cursor.ofTokens (ts ++ tail)).rest = ts ++ tail.takeWhile notEnd := List.takeWhile_append_of_pos hkept
  have hends : ∀ t ∈ tail.takeWhile notEnd, isTerminator t.kind := by
    intro t ht
    have hnot : notEnd t := List.all_eq_true.1 List.all_takeWhile t ht
    exact (htail t ((List.takeWhile_sublist _).subset ht)).resolve_right (by simpa [notEnd] using hnot)
  have hrow := Cursor.Tells.of_tokens hts (tail.takeWhile notEnd) (Cursor.ofTokens (ts ++ tail)).stop
  rw [← hrest] at hrow
  have hpeek : ∀ action, (Cursor.ofTokens (ts ++ tail)).peek.kind ≠ .keyword (.trade action) := by
    unfold Cursor.peek
    rw [hrest]
    cases ts with
    | nil => obtain ⟨⟨_ | ⟨op, ops⟩, a⟩, links⟩ := chain <;> cases hts
    | cons t ts => exact htrade t rfl
  obtain ⟨e, hfinds, hgroups⟩ := finds_chain hrow hends (fun x hx => Nat.le_sub_of_add_le (hunary x hx)) hpeek
  exact ⟨e, (program_of_accepted hfinds).1, hgroups⟩

/-- The lexemes of the text say a chain that does not begin with a trade, so the chain is the program. -/
theorem source_chain {text : String} {chain : Chain}
    (h : List.Forall₂ (fun sign l => l.KeptAs sign) chain.signs (Lexer.lexemes text.toList))
    (hunary : ∀ x ∈ chain.operands, x.unary.length + 2 ≤ maxNesting)
    (htrade : ∀ l ∈ (Lexer.lexemes text.toList).head?, ∀ action, l.kind ≠ .keyword (.trade action)) :
    ∃ e, source text = .ok [.expr e] ∧ Groups 0 chain.signs e := by
  obtain ⟨ts, tail, htokens, hts, htail⟩ := List.map_eq_append_iff.1 (Lexer.tokens_toLexeme text)
  obtain ⟨t, ht, hend⟩ := List.map_eq_singleton_iff.1 htail
  rw [← hts] at h htrade
  unfold source
  rw [htokens]
  refine chain_program (List.forall₂_map_right_iff.1 h) hunary ?_ ?_
  · intro t ht
    exact htrade t.toLexeme (by rw [List.head?_map, ht]; rfl)
  · rw [ht]
    exact List.forall_mem_singleton.2 (.inr (congrArg Lexeme.kind hend))

/-- Operators without parentheses, as many as there are, with ends of statements behind them, are read as one
statement. Its tree has the operands and operators in their order, the looser ones above the tighter ones and
those of one rank grouped from the left, and there is no other such tree. -/
theorem program_groups {chain : Chain} {ts tail : List Token}
    (hts : List.Forall₂ (fun sign t => t.toLexeme.KeptAs sign) chain.signs ts)
    (hunary : ∀ x ∈ chain.operands, x.unary.length + 2 ≤ maxNesting)
    (htrade : ∀ t ∈ ts.head?, ∀ action, t.kind ≠ .keyword (.trade action)) (htail : ∀ t ∈ tail, EndsRow t.kind) :
    ∃ e : Expr, program (ts ++ tail) = .ok [.expr e] ∧ e.signs = chain.signs ∧ e.Grouped ∧
      ∀ f : Expr, f.Grouped → f.signs = chain.signs → f.Alike e := by
  obtain ⟨e, hprogram, hgroups⟩ := chain_program hts hunary htrade htail
  refine ⟨e, hprogram, hgroups.signs, hgroups.grouped, ?_⟩
  intro f hf hsigns
  exact hf.unique hgroups.grouped (hsigns.trans hgroups.signs.symm)

theorem five_operators_grouped :
    ∃ x, Number.readFloat "2" = .ok x ∧
      let signs : List Sign := [.name "a", .binary .or, .unary .negate, .name "b", .binary .multiply, .number x,
        .binary .equal, .string "s", .binary .subtract, .unary .not, .boolean true]
      ∃ e : Expr, program (Lexer.tokens "a or -b * 2 == 's' - not TRUE;") = .ok [.expr e] ∧ e.signs = signs ∧ e.Grouped ∧
        ∀ f : Expr, f.Grouped → f.signs = signs → f.Alike e := by
  obtain ⟨x, hx⟩ : ∃ x, Number.readFloat "2" = .ok x := ⟨_, rfl⟩
  let chain : Chain := ⟨⟨[], .name "a"⟩, [(.or, ⟨[.negate], .name "b"⟩), (.multiply, ⟨[], .number x⟩),
    (.equal, ⟨[], .string "s"⟩), (.subtract, ⟨[.not], .boolean true⟩)]⟩
  let ts : List Token := [⟨⟨.identifier, "a"⟩, ⟨1, 1⟩⟩, ⟨⟨.identifier, "or"⟩, ⟨1, 3⟩⟩, ⟨⟨.symbol .minus, "-"⟩, ⟨1, 6⟩⟩,
    ⟨⟨.identifier, "b"⟩, ⟨1, 7⟩⟩, ⟨⟨.symbol .star, "*"⟩, ⟨1, 9⟩⟩, ⟨⟨.number, "2"⟩, ⟨1, 11⟩⟩,
    ⟨⟨.symbol .equalEqual, "=="⟩, ⟨1, 13⟩⟩, ⟨⟨.string, "s"⟩, ⟨1, 16⟩⟩, ⟨⟨.symbol .minus, "-"⟩, ⟨1, 20⟩⟩,
    ⟨⟨.identifier, "not"⟩, ⟨1, 22⟩⟩, ⟨⟨.identifier, "TRUE"⟩, ⟨1, 26⟩⟩]
  let tail : List Token := [⟨⟨.symbol .semicolon, ";"⟩, ⟨1, 30⟩⟩, ⟨⟨.endOfInput, ""⟩, ⟨1, 31⟩⟩]
  have htokens : Lexer.tokens "a or -b * 2 == 's' - not TRUE;" = ts ++ tail := rfl
  have hname : ∀ w, (∀ v ∈ ["true", "false", "not"], Lexeme.isWord ⟨.identifier, w⟩ v = false) →
      Lexeme.KeptAs ⟨.identifier, w⟩ (.name w) := fun w hw => .inl ⟨rfl, rfl, hw⟩
  have hor : Lexeme.isWord ⟨.identifier, "or"⟩ "or" := by decide
  have hnot : Lexeme.isWord ⟨.identifier, "not"⟩ "not" := by decide
  have htrue : Lexeme.isWord ⟨.identifier, "TRUE"⟩ "true" := by decide
  have hts : List.Forall₂ (fun sign t => t.toLexeme.KeptAs sign) chain.signs ts :=
    .cons (hname "a" (by decide)) (.cons hor (.cons rfl (.cons (hname "b" (by decide)) (.cons rfl (.cons ⟨rfl, hx⟩
      (.cons rfl (.cons ⟨rfl, rfl⟩ (.cons rfl (.cons hnot (.cons htrue .nil))))))))))
  have hunary : ∀ y ∈ chain.operands, y.unary.length + 2 ≤ maxNesting := by
    simp [chain, Chain.operands, maxNesting]
  have htail : ∀ t ∈ tail, EndsRow t.kind :=
    List.forall_mem_cons.2 ⟨.inl rfl, List.forall_mem_singleton.2 (.inr rfl)⟩
  rw [htokens]
  exact ⟨x, hx, program_groups hts hunary (by rintro _ ⟨⟩; nofun) htail⟩

end Parse

end StrategyScript
