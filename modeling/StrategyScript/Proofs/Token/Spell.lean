/-
Texts that are read back as given lexemes. A text spells a row of lexemes if the lexer finds them at
its front, whatever is behind it. Most segments end by themselves; a word, a numeral or an operator
ends only where a character stands that cannot continue it, so some spellings ask for a delimiter.
-/
import StrategyScript.Proofs.Syntax.Render
import StrategyScript.Proofs.Number.Text

namespace StrategyScript

namespace Lexer

/-! ## The lexer, segment by segment -/

/-- What a text says, gaps left out. -/
def lexemes (cs : List Char) : List Lexeme := (segments cs).filterMap (·.token)

theorem place_toLexeme (p : Position) (ss : List Segment) :
    (place p ss).map Token.toLexeme = ss.filterMap (·.token) ++ [⟨.endOfInput, ""⟩] := by
  induction ss generalizing p with
  | nil => rfl
  | cons s ss ih =>
    obtain ⟨text, token⟩ := s
    cases token with
    | none => exact ih _
    | some l => exact congrArg (l :: ·) (ih _)

theorem tokens_toLexeme (source : String) :
    (tokens source).map Token.toLexeme = lexemes source.toList ++ [⟨.endOfInput, ""⟩] :=
  place_toLexeme _ _

theorem continuesWord_of_beginsWord {c : Char} (h : beginsWord c) : continuesWord c := by
  unfold beginsWord at h
  unfold continuesWord Text.isAlphanumeric
  rw [Bool.or_eq_true] at h
  rcases h with h | h <;> simp [h]

theorem numeralText_ne_nil {c : Char} {cs : List Char} (h : c.isDigit) : numeralText (c :: cs) ≠ [] := by
  unfold numeralText
  dsimp only
  rw [List.takeWhile_cons, if_pos h]
  split
  · exact List.append_ne_nil_of_left_ne_nil (List.cons_ne_nil _ _) _
  · exact List.cons_ne_nil _ _

theorem firstSegment_ne_nil (c : Char) (cs : List Char) : (firstSegment c cs).text ≠ [] := by
  unfold firstSegment
  split
  · exact List.cons_ne_nil _ _
  · split
    · rename_i hslash
      rw [hslash.1]
      exact List.cons_ne_nil _ _
    · split
      · exact List.cons_ne_nil _ _
      · split
        · rename_i hdigit
          exact numeralText_ne_nil hdigit
        · split
          · exact List.cons_ne_nil _ _
          · split
            · rename_i hword
              show (c :: cs).takeWhile continuesWord ≠ []
              rw [List.takeWhile_cons, if_pos (continuesWord_of_beginsWord hword)]
              exact List.cons_ne_nil _ _
            · split
              · rename_i s _
                cases s <;> exact List.cons_ne_nil _ _
              · exact List.cons_ne_nil _ _

theorem length_drop_lt (c : Char) (cs : List Char) :
    ((c :: cs).drop (firstSegment c cs).text.length).length ≤ cs.length := by
  have htext := List.length_pos_iff.2 (firstSegment_ne_nil c cs)
  rw [List.length_drop, List.length_cons]
  omega

/-- The bound only has to be large enough. -/
theorem segmentsWithin_eq : ∀ (m n : Nat) (cs : List Char), cs.length ≤ m → cs.length ≤ n →
    segmentsWithin m cs = segmentsWithin n cs
  | 0, 0, _, _, _ => rfl
  | 0, _ + 1, [], _, _ | _ + 1, 0, [], _, _ | _ + 1, _ + 1, [], _, _ => rfl
  | m + 1, n + 1, c :: cs, hm, hn => by
    rw [List.length_cons, Nat.add_le_add_iff_right] at hm hn
    have hdrop := length_drop_lt c cs
    show firstSegment c cs :: segmentsWithin m _ = firstSegment c cs :: segmentsWithin n _
    rw [segmentsWithin_eq m n _ (hdrop.trans hm) (hdrop.trans hn)]

theorem segments_cons (c : Char) (cs : List Char) :
    segments (c :: cs) = firstSegment c cs :: segments ((c :: cs).drop (firstSegment c cs).text.length) := by
  show firstSegment c cs :: segmentsWithin cs.length _ = _
  rw [segmentsWithin_eq cs.length _ _ (length_drop_lt c cs) le_rfl]
  rfl

/-! ## Spellings -/

/-- At the front of a text, before any rest that satisfies `F`, the lexer finds these lexemes. -/
def Spells (cs : List Char) (ls : List Lexeme) (F : List Char → Prop) : Prop :=
  ∀ rest, F rest → lexemes (cs ++ rest) = ls ++ lexemes rest

def Anything (_ : List Char) : Prop := True

/-- Characters that end a word, a numeral or an operator. -/
def delimits (c : Char) : Bool :=
  [' ', '\n', '(', ')', '[', ']', ',', ';', '\x7b', '\x7d'].contains c

/-- The rest is empty or begins with a delimiter. -/
def Delimited (rest : List Char) : Prop := ∀ c, rest.head? = some c → delimits c

theorem delimited_cons {c : Char} (cs : List Char) (h : delimits c) : Delimited (c :: cs) := by
  intro d hd
  cases hd
  exact h

theorem spells_nil (F : List Char → Prop) : Spells [] [] F := fun _ _ => rfl

theorem spells_segment {c : Char} {cs : List Char} {s : Segment} {F : List Char → Prop}
    (h : ∀ rest, F rest → firstSegment c (cs ++ rest) = s) (ht : s.text = c :: cs) :
    Spells (c :: cs) s.token.toList F := by
  intro rest hrest
  unfold lexemes
  rw [List.cons_append, segments_cons, h rest hrest, ht]
  have hdrop : (c :: (cs ++ rest)).drop (c :: cs).length = rest := @List.drop_left _ (c :: cs) rest
  rw [hdrop, List.filterMap_cons]
  cases s.token <;> rfl

section

variable {cs ds : List Char} {ls ms : List Lexeme} {F G : List Char → Prop}

theorem Spells.append (h : Spells cs ls F) (h' : Spells ds ms G) (hFG : ∀ rest, G rest → F (ds ++ rest)) :
    Spells (cs ++ ds) (ls ++ ms) G := by
  intro rest hrest
  rw [List.append_assoc, h _ (hFG rest hrest), h' rest hrest, List.append_assoc]

/-- What ends by itself can stand before anything. -/
theorem Spells.then (h : Spells cs ls Anything) (h' : Spells ds ms G) : Spells (cs ++ ds) (ls ++ ms) G :=
  h.append h' fun _ _ => trivial

theorem Spells.before {d : Char} (h : Spells cs ls Delimited) (h' : Spells (d :: ds) ms G)
    (hd : delimits d) : Spells (cs ++ d :: ds) (ls ++ ms) G :=
  h.append h' fun rest _ => delimited_cons (ds ++ rest) hd

theorem Spells.weaken (h : Spells cs ls Anything) : Spells cs ls F := fun rest _ => h rest trivial

end

/-! ## Gaps and symbols -/

theorem spells_space : Spells [' '] [] Anything := spells_segment (s := .gap [' ']) (fun _ _ => rfl) rfl

theorem spells_newline : Spells ['\n'] [.newline] Anything :=
  spells_segment (s := .lexeme ['\n'] .newline) (fun _ _ => rfl) rfl

theorem spelling_head {s : Symbol} {c : Char} {tail : List Char} (h : s.spelling = c :: tail) :
    ¬(c = ' ' ∨ c = '\t' ∨ c = '\r') ∧ c ≠ '\n' ∧ c.isDigit = false ∧ ¬(c = '\x22' ∨ c = '\x27') ∧
      beginsWord c = false := by
  cases s <;> cases h <;> decide

/-- Symbols of two characters end in an equals sign. -/
theorem spelled?_pair {c d : Char} {s : Symbol} (h : Symbol.spelled? [c, d] = some s) :
    c ∈ ['=', '!', '<', '>'] ∧ d = '=' := by
  have hs : s.spelling = [c, d] := by simpa using List.find?_some h
  cases s <;> cases hs <;> decide

theorem symbolAt_of_none {cs : List Char} (h : Symbol.spelled? (cs.take 2) = none) :
    symbolAt cs = Symbol.spelled? (cs.take 1) := by
  unfold symbolAt
  rw [h]

theorem symbolAt_of_some {cs : List Char} {s : Symbol} (h : Symbol.spelled? (cs.take 2) = some s) :
    symbolAt cs = some s := by
  unfold symbolAt
  rw [h]

theorem symbolAt_single {c : Char} {cs : List Char} (h : c ∈ ['=', '!', '<', '>'] → cs.head? ≠ some '=') :
    symbolAt (c :: cs) = Symbol.spelled? [c] := by
  cases hp : Symbol.spelled? ((c :: cs).take 2) with
  | none => exact symbolAt_of_none hp
  | some s =>
    cases cs with
    | nil => exact (symbolAt_of_some hp).trans hp.symm
    | cons d cs =>
      obtain ⟨hc, rfl⟩ := spelled?_pair hp
      exact absurd rfl (h hc)

theorem symbolAt_pair {s : Symbol} {c d : Char} (h : s.spelling = [c, d]) (cs : List Char) :
    symbolAt (c :: d :: cs) = some s := by
  have hs := Symbol.spelled?_spelling s
  rw [h] at hs
  exact symbolAt_of_some hs

theorem firstSegment_symbol {s : Symbol} {c : Char} {tail rest : List Char} (h : s.spelling = c :: tail)
    (hslash : ¬(c = '/' ∧ rest.head? = some '/')) (hsymbol : symbolAt (c :: rest) = some s) :
    firstSegment c rest = .lexeme s.spelling (.symbol s) := by
  obtain ⟨hblank, hnewline, hdigit, hquote, hword⟩ := spelling_head h
  unfold firstSegment
  rw [if_neg hblank, if_neg hslash, if_neg hnewline, if_neg (by rw [hdigit]; decide), if_neg hquote,
    if_neg (by rw [hword]; decide), hsymbol]

/-- Symbols that no other symbol begins with, and no comment. -/
def standsAlone (s : Symbol) : Bool :=
  [.leftParen, .rightParen, .leftBrace, .rightBrace, .leftBracket, .rightBracket, .comma, .semicolon,
    .minus].contains s

theorem spells_alone {s : Symbol} {c : Char} (h : s.spelling = [c]) (hs : standsAlone s) :
    Spells [c] [.symbol s] Anything := by
  have hhead : c ∉ ['=', '!', '<', '>'] ∧ c ≠ '/' := by
    cases s <;> cases h <;> first | decide | cases hs
  have hspell := Symbol.spelled?_spelling s
  rw [h] at hspell
  -- no symbol of two characters begins like this one, so what is behind it does not matter
  have hseg : ∀ rest, Anything rest → firstSegment c ([] ++ rest) = .lexeme s.spelling (.symbol s) := fun rest _ =>
    firstSegment_symbol h (fun hc => hhead.2 hc.1) ((symbolAt_single fun hc => absurd hc hhead.1).trans hspell)
  exact spells_segment hseg h

theorem head?_of_delimited {rest : List Char} (h : Delimited rest) {c : Char} (hc : delimits c = false) :
    rest.head? ≠ some c := by
  intro hrest
  rw [h c hrest] at hc
  cases hc

/-- Any symbol ends before a delimiter. -/
theorem spells_symbol (s : Symbol) : Spells s.spelling [.symbol s] Delimited := by
  have hspell := Symbol.spelled?_spelling s
  have hseg : ∀ c tail, s.spelling = c :: tail → ∀ rest, Delimited rest →
      firstSegment c (tail ++ rest) = .lexeme s.spelling (.symbol s) := by
    intro c tail h rest hrest
    rw [h] at hspell
    -- a slash before a delimiter is no comment
    have hslash : ¬(c = '/' ∧ (tail ++ rest).head? = some '/') := by
      rintro ⟨rfl, hhead⟩
      cases s <;> cases h
      exact head?_of_delimited hrest rfl hhead
    refine firstSegment_symbol h hslash ?_
    cases tail with
    | nil => exact (symbolAt_single fun _ => head?_of_delimited hrest rfl).trans hspell
    | cons d tail =>
      obtain rfl : tail = [] := by cases s <;> cases h <;> rfl
      exact symbolAt_pair h rest
  cases hs : s.spelling with
  | nil => cases s <;> cases hs
  | cons c tail => exact spells_segment (hseg c tail hs) hs

/-! ## Words -/

/-- A letter or an underscore, then letters, digits and underscores. -/
def IsWord (cs : List Char) : Prop := ∃ c tail, cs = c :: tail ∧ beginsWord c ∧ ∀ d ∈ tail, continuesWord d

theorem takeWhile_of_stop {p : Char → Bool} {cs rest : List Char} (h : ∀ c ∈ cs, p c)
    (hrest : ∀ c, rest.head? = some c → p c = false) : (cs ++ rest).takeWhile p = cs := by
  rw [List.takeWhile_append_of_pos h]
  cases rest with
  | nil => simp
  | cons c rest => rw [List.takeWhile_cons, if_neg (by rw [hrest c rfl]; decide), List.append_nil]

theorem dropWhile_of_stop {p : Char → Bool} {cs rest : List Char} (h : ∀ c ∈ cs, p c)
    (hrest : ∀ c, rest.head? = some c → p c = false) : (cs ++ rest).dropWhile p = rest := by
  rw [List.dropWhile_append_of_pos h]
  cases rest with
  | nil => rfl
  | cons c rest => rw [List.dropWhile_cons, if_neg (by rw [hrest c rfl]; decide)]

theorem mem_delimiters {c : Char} (h : delimits c) :
    c ∈ [' ', '\n', '(', ')', '[', ']', ',', ';', '\x7b', '\x7d'] := by
  simpa [delimits] using h

theorem continuesWord_of_delimits {c : Char} (h : delimits c) : continuesWord c = false := by
  have hmem := mem_delimiters h
  simp only [List.mem_cons, List.not_mem_nil, or_false] at hmem
  rcases hmem with rfl | rfl | rfl | rfl | rfl | rfl | rfl | rfl | rfl | rfl <;> decide

theorem beginsWord_of_isDigit {c : Char} (h : c.isDigit) : beginsWord c = false := by
  have hrange : 48 ≤ c.toNat ∧ c.toNat ≤ 57 := by simpa [Char.isDigit, UInt32.le_iff_toNat_le] using h
  have hunderscore : c ≠ '_' := by
    rintro rfl
    cases h
  have halpha : c.isAlpha = false := by
    have hval : c.val.toNat = c.toNat := rfl
    simp [Char.isAlpha, Char.isUpper, Char.isLower, UInt32.le_iff_toNat_le, hval]
    omega
  unfold beginsWord Text.isAlphabetic
  rw [if_pos (by omega), halpha]
  simpa using hunderscore

/-- What begins a word begins nothing else. -/
theorem beginsWord_only {c : Char} (h : beginsWord c) :
    ¬(c = ' ' ∨ c = '\t' ∨ c = '\r') ∧ c ≠ '/' ∧ c ≠ '\n' ∧ c.isDigit = false ∧ ¬(c = '\x22' ∨ c = '\x27') := by
  have hne : ∀ d, beginsWord d = false → c ≠ d := by
    rintro d hd rfl
    rw [hd] at h
    cases h
  refine ⟨?_, hne '/' (by decide), hne '\n' (by decide), ?_, ?_⟩
  · rintro (hc | hc | hc)
    · exact hne ' ' (by decide) hc
    · exact hne '\t' (by decide) hc
    · exact hne '\r' (by decide) hc
  · by_contra hdigit
    have hnot := beginsWord_of_isDigit (c := c) (by simpa using hdigit)
    rw [h] at hnot
    cases hnot
  · rintro (hc | hc)
    · exact hne '\x22' (by decide) hc
    · exact hne '\x27' (by decide) hc

theorem firstSegment_word {c : Char} {cs : List Char} (h : beginsWord c) : firstSegment c cs = word (c :: cs) := by
  obtain ⟨hblank, hslash, hnewline, hdigit, hquote⟩ := beginsWord_only h
  unfold firstSegment
  rw [if_neg hblank, if_neg fun hc => hslash hc.1, if_neg hnewline, if_neg (by rw [hdigit]; decide),
    if_neg hquote, if_pos h]

theorem spells_word {w : String} (h : IsWord w.toList) : Spells w.toList [.word w] Delimited := by
  obtain ⟨c, tail, hw, hc, htail⟩ := h
  have hseg : ∀ rest, Delimited rest → firstSegment c (tail ++ rest) = .lexeme w.toList (wordKind w.toList) := by
    intro rest hrest
    have hall : ∀ d ∈ c :: tail, continuesWord d := List.forall_mem_cons.2 ⟨continuesWord_of_beginsWord hc, htail⟩
    have htake : (c :: (tail ++ rest)).takeWhile continuesWord = w.toList := by
      rw [hw]
      rw [← List.cons_append]
      exact takeWhile_of_stop hall fun d hd => continuesWord_of_delimits (hrest d hd)
    rw [firstSegment_word hc, word, htake]
  have hspells := spells_segment hseg hw
  rw [← hw, Segment.lexeme, String.ofList_toList] at hspells
  exact hspells

/-! ## Numerals -/

theorem isDigit_of_delimits {c : Char} (h : delimits c) : c.isDigit = false := by
  have hmem := mem_delimiters h
  simp only [List.mem_cons, List.not_mem_nil, or_false] at hmem
  rcases hmem with rfl | rfl | rfl | rfl | rfl | rfl | rfl | rfl | rfl | rfl <;> decide

theorem numeralText_append {cs rest : List Char} (h : Number.IsNumeral cs) (hrest : Delimited rest) :
    numeralText (cs ++ rest) = cs := by
  obtain ⟨whole, -, hwhole, rfl | ⟨fraction, hfraction, rfl⟩⟩ := h
  · have hstop : ∀ c, rest.head? = some c → c.isDigit = false := fun c hc => isDigit_of_delimits (hrest c hc)
    unfold numeralText
    rw [takeWhile_of_stop hwhole hstop, dropWhile_of_stop hwhole hstop]
    dsimp only
    split
    · exact absurd rfl (head?_of_delimited hrest (c := '.') rfl)
    · rfl
  · have hpoint : ∀ c, ('.' :: (fraction ++ rest)).head? = some c → c.isDigit = false := by
      intro c hc
      cases hc
      rfl
    unfold numeralText
    rw [List.append_assoc, List.cons_append, takeWhile_of_stop hwhole hpoint, dropWhile_of_stop hwhole hpoint]
    show whole ++ '.' :: (fraction ++ rest).takeWhile Char.isDigit = _
    rw [takeWhile_of_stop hfraction fun c hc => isDigit_of_delimits (hrest c hc)]

theorem spells_numeral {text : String} (h : Number.IsNumeral text.toList) :
    Spells text.toList [⟨.number, text⟩] Delimited := by
  obtain ⟨c, tail, hcs, hc⟩ : ∃ c tail, text.toList = c :: tail ∧ c.isDigit := by
    obtain ⟨_ | ⟨c, whole⟩, hne, hwhole, heq | ⟨fraction, -, heq⟩⟩ := h
    · exact absurd rfl hne
    · exact absurd rfl hne
    · exact ⟨c, _, heq, hwhole c List.mem_cons_self⟩
    · exact ⟨c, _, heq, hwhole c List.mem_cons_self⟩
  -- the lexer asks for digits late, so everything it looks for before has to be ruled out
  have hne : ∀ d, d.isDigit = false → c ≠ d := by
    rintro d hd rfl
    rw [hd] at hc
    cases hc
  have hseg : ∀ rest, Delimited rest → firstSegment c (tail ++ rest) = .lexeme text.toList .number := by
    intro rest hrest
    have htext := numeralText_append h hrest
    rw [hcs, List.cons_append] at htext
    unfold firstSegment
    rw [if_neg, if_neg fun hs => hne '/' rfl hs.1, if_neg (hne '\n' rfl), if_pos hc, numeral, htext, hcs]
    rintro (hd | hd | hd)
    · exact hne _ rfl hd
    · exact hne _ rfl hd
    · exact hne _ rfl hd
  have hspells := spells_segment hseg hcs
  rw [← hcs, Segment.lexeme, String.ofList_toList] at hspells
  exact hspells

/-! ## Strings -/

/-- Quoting writes the character as itself, or behind a backslash in a way that the lexer undoes. -/
def Quotable (c : Char) : Prop := Text.escape c = [c] ∨ c ∈ ['\x22', '\\', '\n', '\r', '\t']

theorem stringBody_verbatim {quote c : Char} (hquote : c ≠ quote) (hslash : c ≠ '\\') (cs : List Char) :
    stringBody quote (c :: cs) = (c :: (stringBody quote cs).1, c :: (stringBody quote cs).2) := by
  rw [stringBody.eq_def]
  split
  · rename_i heq; cases heq
  · rename_i heq; cases heq; exact absurd rfl hslash
  · rename_i heq; cases heq; exact absurd rfl hslash
  · rename_i heq
    cases heq
    rw [if_neg hquote]

theorem stringBody_escape {c : Char} (h : Quotable c) (cs : List Char) :
    stringBody '\x22' (Text.escape c ++ cs) =
      (Text.escape c ++ (stringBody '\x22' cs).1, c :: (stringBody '\x22' cs).2) := by
  rcases h with h | h
  · have hne : ∀ d, Text.escape d ≠ [d] → c ≠ d := by
      rintro d hd rfl
      exact hd h
    rw [h]
    exact stringBody_verbatim (hne _ (by decide)) (hne _ (by decide)) cs
  · simp only [List.mem_cons, List.not_mem_nil, or_false] at h
    rcases h with rfl | rfl | rfl | rfl | rfl <;> rfl

theorem stringBody_quoted {s : List Char} (h : ∀ c ∈ s, Quotable c) (rest : List Char) :
    stringBody '\x22' (s.flatMap Text.escape ++ '\x22' :: rest) =
      (s.flatMap Text.escape ++ ['\x22'], s) := by
  induction s with
  | nil => rfl
  | cons c s ih =>
    obtain ⟨hc, hs⟩ := List.forall_mem_cons.1 h
    rw [List.flatMap_cons, List.append_assoc, stringBody_escape hc, ih hs, List.append_assoc]

theorem spells_string {s : String} (h : ∀ c ∈ s.toList, Quotable c) :
    Spells (Text.quoted s).toList [⟨.string, s⟩] Anything := by
  have hseg : ∀ rest, Anything rest → firstSegment '\x22' ((s.toList.flatMap Text.escape ++ ['\x22']) ++ rest) =
      ⟨(Text.quoted s).toList, some ⟨.string, s⟩⟩ := by
    intro rest _
    show string '\x22' _ = _
    unfold string Text.quoted
    rw [List.append_assoc, List.singleton_append, stringBody_quoted h, String.toList_ofList]
    dsimp only
    rw [String.ofList_toList]
    rfl
  have hquoted : (Text.quoted s).toList = '\x22' :: (s.toList.flatMap Text.escape ++ ['\x22']) := by
    unfold Text.quoted
    rw [String.toList_ofList]
    rfl
  generalize (Text.quoted s).toList = text at hseg hquoted ⊢
  have hspells := spells_segment hseg hquoted
  rw [← hquoted] at hspells
  exact hspells

end Lexer

end StrategyScript
