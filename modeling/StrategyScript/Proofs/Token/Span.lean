/-
Where the tokens of a source stand in it. The text of a source is gap, token, gap, token and so on up to
a last gap: nothing of it is lost, and what no token takes up is a blank, a comment or a character that
begins no token.
-/
import StrategyScript.Proofs.Token.Order
import StrategyScript.Proofs.Token.Proper

namespace StrategyScript

/-! ## Positions -/

/-- The position behind a text: its line feeds are counted, and the characters behind the last of them. -/
def Position.behind (before : List Char) : Position :=
  ⟨1 + before.count '\n', 1 + (before.reverse.takeWhile (· ≠ '\n')).length⟩

theorem Position.behind_append_singleton (before : List Char) (c : Char) :
    Position.behind (before ++ [c]) = (Position.behind before).advance c := by
  unfold behind advance
  rw [List.count_append, List.reverse_append, List.reverse_singleton, List.singleton_append, List.takeWhile_cons]
  by_cases hc : c = '\n'
  · simp [hc, Nat.add_assoc]
  · simp [hc, Nat.add_comm]

theorem Position.behind_append (before cs : List Char) :
    Position.behind (before ++ cs) = (Position.behind before).advanceAll cs := by
  induction cs generalizing before with
  | nil => rw [List.append_nil, advanceAll_nil]
  | cons c cs ih => rw [List.append_cons, ih, behind_append_singleton, advanceAll_cons]

namespace Lexer

/-! ## Tokens and gaps -/

/-- The text is a token where `rest` stands behind it. Only a string says another text than its own, and only
words and numerals ask that the text behind does not continue them. -/
inductive Says : List Char → List Char → Lexeme → Prop
  | word {text rest : List Char} (h : IsWord text) (hend : ∀ c, rest.head? = some c → continuesWord c = false) :
    Says text rest ⟨wordKind text, String.ofList text⟩
  | numeral {text rest : List Char} (h : Number.IsNumeral text)
      (hend : ∀ c, rest.head? = some c → c.isDigit = false ∧ (c = '.' → '.' ∈ text)) :
    Says text rest ⟨.number, String.ofList text⟩
  | string {quote : Char} {body rest : List Char} (value : String) (hquote : quote = '\x22' ∨ quote = '\x27')
      (hend : body.getLast? = some quote ∨ rest = []) :
    Says (quote :: body) rest ⟨.string, value⟩
  | symbol {rest : List Char} (s : Symbol) : Says s.spelling rest ⟨.symbol s, String.ofList s.spelling⟩
  | newline {rest : List Char} : Says ['\n'] rest .newline

/-- No token begins with the character where `rest` stands behind it. -/
structure BeginsNothing (c : Char) (rest : List Char) : Prop where
  newline : c ≠ '\n'
  digit : c.isDigit = false
  quote : c ≠ '\x22' ∧ c ≠ '\x27'
  word : beginsWord c = false
  symbol : ∀ s : Symbol, ¬ s.spelling <+: c :: rest

/-- The text is a gap between tokens where `rest` stands behind it. A comment goes on up to the end of its
line. -/
inductive Gap : List Char → List Char → Prop
  | nil {rest : List Char} : Gap [] rest
  | blank {c : Char} {cs rest : List Char} (hc : c = ' ' ∨ c = '\t' ∨ c = '\r') (h : Gap cs rest) : Gap (c :: cs) rest
  | comment (text : List Char) {cs rest : List Char} (htext : ∀ c ∈ text, c ≠ '\n') (hend : ∀ c, (cs ++ rest).head? = some c → c = '\n')
      (h : Gap cs rest) : Gap ('/' :: '/' :: (text ++ cs)) rest
  | skipped {c : Char} {cs rest : List Char} (hc : BeginsNothing c (cs ++ rest)) (h : Gap cs rest) : Gap (c :: cs) rest

/-- The tokens of the text `rest`, in front of which stands the text `before`: each at the position where its
own text begins, and the end of input at the end. -/
inductive Cuts : List Char → List Char → List Token → Prop
  | done {before gap : List Char} (hgap : Gap gap []) :
    Cuts before gap [⟨⟨.endOfInput, ""⟩, .behind (before ++ gap)⟩]
  | token {before gap text rest : List Char} {l : Lexeme} {ts : List Token} (hgap : Gap gap (text ++ rest))
      (hne : text ≠ []) (hl : Says text rest l) (h : Cuts (before ++ (gap ++ text)) rest ts) :
    Cuts before (gap ++ (text ++ rest)) (⟨l, .behind (before ++ gap)⟩ :: ts)

/-! ## The front of a text -/

theorem head?_dropWhile {p : Char → Bool} {cs : List Char} {c : Char} (h : (cs.dropWhile p).head? = some c) : p c = false := by
  have hnot := List.head?_dropWhile_not p cs
  rw [h] at hnot
  simpa using hnot

theorem says_word {c : Char} (cs : List Char) (h : beginsWord c) :
    ∃ l rest, (word (c :: cs)).token = some l ∧ c :: cs = (word (c :: cs)).text ++ rest ∧ Says (word (c :: cs)).text rest l :=
  ⟨_, (c :: cs).dropWhile continuesWord, rfl, List.takeWhile_append_dropWhile.symm,
    .word (isWord_takeWhile h) fun _ => head?_dropWhile⟩

theorem says_numeral {c : Char} (cs : List Char) (h : c.isDigit) :
    ∃ l rest, (numeral (c :: cs)).token = some l ∧ c :: cs = (numeral (c :: cs)).text ++ rest ∧
      Says (numeral (c :: cs)).text rest l := by
  have hsplit := List.takeWhile_append_dropWhile (p := Char.isDigit) (l := c :: cs)
  have hdigits : ∀ d ∈ (c :: cs).takeWhile Char.isDigit, d.isDigit := fun d hd => List.all_eq_true.1 List.all_takeWhile d hd
  have hne : (c :: cs).takeWhile Char.isDigit ≠ [] := by
    rw [List.takeWhile_cons, if_pos h]
    exact List.cons_ne_nil _ _
  have hstop : ∀ d, ((c :: cs).dropWhile Char.isDigit).head? = some d → d.isDigit = false := fun _ => head?_dropWhile
  unfold numeral numeralText
  dsimp only [Segment.lexeme]
  generalize (c :: cs).takeWhile Char.isDigit = whole at hsplit hdigits hne
  generalize (c :: cs).dropWhile Char.isDigit = left at hsplit hstop
  split
  · rename_i fraction
    -- the point is taken, and the digits behind it
    refine ⟨_, fraction.dropWhile Char.isDigit, rfl, hsplit.symm.trans ?_, .numeral ⟨whole, hne, hdigits, .inr ⟨_, ?_, rfl⟩⟩ ?_⟩
    · rw [List.append_assoc, List.cons_append, List.takeWhile_append_dropWhile]
    · exact fun d hd => List.all_eq_true.1 List.all_takeWhile d hd
    · exact fun d hd => ⟨head?_dropWhile hd, fun _ => List.mem_append_right whole List.mem_cons_self⟩
  · rename_i hpoint
    refine ⟨_, left, rfl, hsplit.symm, .numeral ⟨whole, hne, hdigits, .inl rfl⟩ ?_⟩
    intro d hd
    refine ⟨hstop d hd, ?_⟩
    rintro rfl
    obtain ⟨rest, rfl⟩ := List.head?_eq_some_iff.1 hd
    exact absurd rfl (hpoint rest)

/-- The text of a string ends with its quote, or there is no more text. -/
theorem stringBody_split (quote : Char) (cs : List Char) :
    ∃ rest, cs = (stringBody quote cs).1 ++ rest ∧ ((stringBody quote cs).1.getLast? = some quote ∨ rest = []) := by
  fun_induction stringBody quote cs with
  | case1 => exact ⟨[], rfl, .inr rfl⟩
  | case2 => exact ⟨[], rfl, .inr rfl⟩
  | case3 c cs text value hbody ih =>
    obtain ⟨rest, hcs, hend⟩ := ih
    rw [hbody] at hcs hend
    refine ⟨rest, by rw [hcs]; rfl, hend.imp_left fun hlast => ?_⟩
    dsimp only at hlast ⊢
    simp [List.getLast?_cons, hlast]
  | case4 cs => exact ⟨cs, rfl, .inl rfl⟩
  | case5 c cs _ _ _ text value hbody ih =>
    obtain ⟨rest, hcs, hend⟩ := ih
    rw [hbody] at hcs hend
    refine ⟨rest, by rw [hcs]; rfl, hend.imp_left fun hlast => ?_⟩
    dsimp only at hlast ⊢
    simp [List.getLast?_cons, hlast]

theorem prefix_of_symbolAt {cs : List Char} {s : Symbol} (h : symbolAt cs = some s) : s.spelling <+: cs := by
  have hspelled : ∀ n, Symbol.spelled? (cs.take n) = some s → s.spelling <+: cs := by
    intro n hn
    have hs : s.spelling = cs.take n := by simpa using List.find?_some hn
    rw [hs]
    exact List.take_prefix n cs
  unfold symbolAt at h
  split at h
  · rename_i t ht
    cases h
    exact hspelled 2 ht
  · exact hspelled 1 h

theorem not_prefix_of_symbolAt {cs : List Char} (h : symbolAt cs = none) (s : Symbol) : ¬ s.spelling <+: cs := by
  intro hprefix
  have htake : cs.take s.spelling.length = s.spelling := (List.prefix_iff_eq_take.1 hprefix).symm
  have hfound := Symbol.spelled?_spelling s
  rw [← htake] at hfound
  unfold symbolAt at h
  split at h
  · cases h
  · rename_i htwo
    -- every symbol has one character or two
    have hlength : s.spelling.length = 1 ∨ s.spelling.length = 2 := by cases s <;> decide
    rcases hlength with hone | hpair
    · rw [hone, h] at hfound
      cases hfound
    · rw [hpair, htwo] at hfound
      cases hfound

/-- A segment without a token goes in front of any gap that follows. -/
def Segment.Fits (s : Segment) (rest : List Char) : Prop :=
  match s.token with
  | some l => Says s.text rest l
  | none => ∀ gap behind, rest = gap ++ behind → Gap gap behind → Gap (s.text ++ gap) behind

theorem fits_of_token {s : Segment} {rest : List Char} {l : Lexeme} (h : s.token = some l) (hl : Says s.text rest l) :
    s.Fits rest := by
  unfold Segment.Fits
  rw [h]
  exact hl

theorem fits_comment (cs : List Char) :
    ∃ rest, '/' :: '/' :: cs = ('/' :: '/' :: cs).takeWhile (· ≠ '\n') ++ rest ∧
      (Segment.gap (('/' :: '/' :: cs).takeWhile (· ≠ '\n'))).Fits rest := by
  refine ⟨('/' :: '/' :: cs).dropWhile (· ≠ '\n'), List.takeWhile_append_dropWhile.symm, ?_⟩
  intro gap behind hrest hgap
  refine .comment (cs.takeWhile (· ≠ '\n')) ?_ ?_ hgap
  · intro d hd
    simpa using List.all_eq_true.1 List.all_takeWhile d hd
  · intro d hd
    rw [← hrest] at hd
    simpa using head?_dropWhile hd

/-- The segment at the front of a text is a token there, or a part of a gap. -/
theorem firstSegment_fits (c : Char) (cs : List Char) :
    ∃ rest, c :: cs = (firstSegment c cs).text ++ rest ∧ (firstSegment c cs).Fits rest := by
  unfold firstSegment
  split
  · rename_i hblank
    exact ⟨cs, rfl, fun _ _ _ hgap => .blank hblank hgap⟩
  · split
    · rename_i hslash
      obtain ⟨rfl, hslash⟩ := hslash
      obtain ⟨rest, rfl⟩ := List.head?_eq_some_iff.1 hslash
      exact fits_comment rest
    · split
      · rename_i hnewline
        subst hnewline
        exact ⟨cs, rfl, .newline⟩
      · rename_i hnewline
        split
        · rename_i hdigit
          obtain ⟨l, rest, htoken, htext, hl⟩ := says_numeral cs hdigit
          exact ⟨rest, htext, fits_of_token htoken hl⟩
        · rename_i hdigit
          split
          · rename_i hquote
            obtain ⟨rest, hbody, hend⟩ := stringBody_split c cs
            exact ⟨rest, congrArg (c :: ·) hbody, .string _ hquote hend⟩
          · rename_i hquote
            split
            · rename_i hword
              obtain ⟨l, rest, htoken, htext, hl⟩ := says_word cs hword
              exact ⟨rest, htext, fits_of_token htoken hl⟩
            · rename_i hword
              split
              · rename_i s hs
                obtain ⟨rest, hrest⟩ := prefix_of_symbolAt hs
                exact ⟨rest, hrest.symm, .symbol s⟩
              · rename_i hs
                refine ⟨cs, rfl, ?_⟩
                rintro gap behind rfl hgap
                refine .skipped ⟨hnewline, by simpa using hdigit, ?_, by simpa using hword, not_prefix_of_symbolAt hs⟩ hgap
                exact not_or.1 hquote

/-! ## The whole text -/

variable {before text rest : List Char} {ts : List Token}

/-- A segment without a token becomes the front of the first gap. -/
theorem Cuts.behind_gap (htext : ∀ gap behind, rest = gap ++ behind → Gap gap behind → Gap (text ++ gap) behind)
    (h : Cuts (before ++ text) rest ts) : Cuts before (text ++ rest) ts := by
  cases h with
  | done hgap =>
    have hgap := htext _ [] (List.append_nil _).symm hgap
    rw [List.append_assoc]
    exact .done hgap
  | @token _ gap said behind l ts hgap hne hl h =>
    have hgap := htext gap (said ++ behind) rfl hgap
    rw [List.append_assoc, ← List.append_assoc text gap]
    refine .token hgap hne hl ?_
    simpa using h

theorem place_cuts (n : Nat) (before cs : List Char) (h : cs.length ≤ n) :
    Cuts before cs (place (.behind before) (segmentsWithin n cs)) := by
  induction n generalizing before cs with
  | zero =>
    obtain rfl := List.length_eq_zero_iff.1 (Nat.le_zero.1 h)
    have hdone : Cuts before [] [⟨⟨.endOfInput, ""⟩, .behind (before ++ [])⟩] := .done .nil
    rwa [List.append_nil] at hdone
  | succ n ih =>
    cases cs with
    | nil =>
      have hdone : Cuts before [] [⟨⟨.endOfInput, ""⟩, .behind (before ++ [])⟩] := .done .nil
      rwa [List.append_nil] at hdone
    | cons c cs =>
      obtain ⟨rest, hrest, hfits⟩ := firstSegment_fits c cs
      have hne := firstSegment_ne_nil c cs
      have hshorter := (length_drop_lt c cs).trans (Nat.le_of_succ_le_succ h)
      show Cuts before (c :: cs) (place (.behind before) (firstSegment c cs :: segmentsWithin n _))
      generalize firstSegment c cs = s at *
      rw [hrest, List.drop_left] at hshorter ⊢
      have hothers := ih (before ++ s.text) rest hshorter
      rw [Position.behind_append] at hothers
      unfold place
      unfold Segment.Fits at hfits
      split
      · rename_i l hl
        rw [hl] at hfits
        have htoken : Cuts before ([] ++ (s.text ++ rest)) (⟨l, .behind (before ++ [])⟩ :: _) := .token .nil hne hfits hothers
        rwa [List.append_nil] at htoken
      · rename_i hnone
        rw [hnone] at hfits
        exact hothers.behind_gap hfits

theorem cuts_tokens (source : String) : Cuts [] source.toList (tokens source) := place_cuts _ [] source.toList le_rfl

theorem Says.spoken {l : Lexeme} (h : Says text rest l) : l.kind ≠ .endOfInput := by
  cases h with
  | word h _ => exact (spoken_of_isWord h).2
  | _ => nofun

theorem Cuts.last (h : Cuts before rest ts) :
    ∃ us, ts = us ++ [⟨⟨.endOfInput, ""⟩, .behind (before ++ rest)⟩] ∧ ∀ t ∈ us, t.kind ≠ .endOfInput := by
  induction h with
  | done _ => exact ⟨[], rfl, nofun⟩
  | @token before gap _ _ l _ _ _ hl _ ih =>
    obtain ⟨us, rfl, hus⟩ := ih
    refine ⟨⟨l, .behind (before ++ gap)⟩ :: us, by simp, ?_⟩
    exact List.forall_mem_cons.2 ⟨hl.spoken, hus⟩

/-- The tokens of a source cut its text into tokens and gaps. They stand in reading order, and only the last of
them is an end of input, at the position behind the text. -/
theorem tokens_cut (source : String) :
    Cuts [] source.toList (tokens source) ∧
      (tokens source).Pairwise (fun t u => t.position.before u.position) ∧
      ∃ ts, tokens source = ts ++ [⟨⟨.endOfInput, ""⟩, .behind source.toList⟩] ∧ ∀ t ∈ ts, t.kind ≠ .endOfInput := by
  have hcuts := cuts_tokens source
  exact ⟨hcuts, tokens_pairwise source, hcuts.last⟩

end Lexer

end StrategyScript
