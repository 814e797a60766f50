/-
What can be said of every token of a source. Its kind fits its text: identifiers are words that are no
keywords, keywords are spelled like themselves but for case, and numerals begin with a digit.
-/
import StrategyScript.Proofs.Token.Spell

namespace StrategyScript

/-- The kind of a lexeme fits its text. -/
structure Lexeme.Proper (l : Lexeme) : Prop where
  identifier : l.kind = .identifier → Lexer.IsWord l.text.toList ∧ Lexer.wordKind l.text.toList = .identifier
  keyword : ∀ k, l.kind = .keyword k → Text.lowercase l.text = k.word
  number : l.kind = .number → ∃ c cs, l.text = String.ofList (c :: cs) ∧ c ≠ '-'

theorem Lexeme.Proper.of_kind {l : Lexeme} (hi : l.kind ≠ .identifier) (hk : ∀ k, l.kind ≠ .keyword k)
    (hn : l.kind ≠ .number) : l.Proper :=
  ⟨fun h => absurd h hi, fun k h => absurd h (hk k), fun h => absurd h hn⟩

namespace Lexer

theorem isWord_takeWhile {c : Char} {cs : List Char} (h : beginsWord c) :
    IsWord ((c :: cs).takeWhile continuesWord) := by
  rw [List.takeWhile_cons, if_pos (continuesWord_of_beginsWord h)]
  exact ⟨c, _, rfl, h, fun d hd => List.all_eq_true.1 List.all_takeWhile d hd⟩

theorem word_of_ofWord {w : String} {k : Keyword} (h : TokenKind.ofWord w = .keyword k) : w = k.word := by
  unfold TokenKind.ofWord at h
  split at h
  · cases h
    have hfind := List.find?_some ‹_›
    exact (eq_of_beq hfind).symm
  · cases h

theorem ofWord_kind (w : String) : TokenKind.ofWord w = .identifier ∨ ∃ k, TokenKind.ofWord w = .keyword k := by
  unfold TokenKind.ofWord
  split
  · exact .inr ⟨_, rfl⟩
  · exact .inl rfl

/-- The lexeme is proper and is not the end of input, which no stretch of text says. -/
def Spoken (l : Lexeme) : Prop := l.Proper ∧ l.kind ≠ .endOfInput

/-- A word has the kind of an identifier or of the keyword that it is. -/
theorem spoken_of_isWord {cs : List Char} (h : IsWord cs) : Spoken ⟨wordKind cs, String.ofList cs⟩ := by
  have hkinds : wordKind cs = .identifier ∨ ∃ k, wordKind cs = .keyword k := ofWord_kind _
  have hkeyword : ∀ k, wordKind cs = .keyword k → Text.lowercase (String.ofList cs) = k.word := fun _ => word_of_ofWord
  generalize hkind : wordKind cs = kind at hkinds hkeyword ⊢
  rcases hkinds with rfl | ⟨k, rfl⟩
  · refine ⟨⟨fun _ => ?_, nofun, nofun⟩, nofun⟩
    rw [String.toList_ofList]
    exact ⟨h, hkind⟩
  · exact ⟨⟨nofun, hkeyword, nofun⟩, nofun⟩

theorem spoken_word {c : Char} {cs : List Char} (h : beginsWord c) :
    ∀ l, (word (c :: cs)).token = some l → Spoken l := by
  intro l hl
  have hl : ⟨wordKind ((c :: cs).takeWhile continuesWord), String.ofList ((c :: cs).takeWhile continuesWord)⟩ = l :=
    Option.some.inj hl
  rw [← hl]
  exact spoken_of_isWord (isWord_takeWhile h)

theorem spoken_numeral {c : Char} {cs : List Char} (h : c.isDigit) :
    ∀ l, (numeral (c :: cs)).token = some l → Spoken l := by
  rintro l hl
  obtain rfl := Option.some.inj hl
  have hne : c ≠ '-' := by
    rintro rfl
    cases h
  have hhead : ∃ tail, numeralText (c :: cs) = c :: tail := by
    unfold numeralText
    dsimp only
    rw [List.takeWhile_cons, if_pos h]
    split
    · exact ⟨_, rfl⟩
    · exact ⟨_, rfl⟩
  obtain ⟨tail, htail⟩ := hhead
  refine ⟨⟨nofun, nofun, fun _ => ⟨c, tail, ?_, hne⟩⟩, nofun⟩
  show String.ofList (numeralText (c :: cs)) = _
  rw [htail]

theorem spoken_firstSegment (c : Char) (cs : List Char) :
    ∀ l, (firstSegment c cs).token = some l → Spoken l := by
  unfold firstSegment
  split
  · nofun
  · split
    · nofun
    · split
      · rintro l hl
        obtain rfl := Option.some.inj hl
        exact ⟨Lexeme.Proper.of_kind nofun nofun nofun, nofun⟩
      · split
        · exact spoken_numeral ‹_›
        · split
          · rintro l hl
            obtain rfl := Option.some.inj hl
            exact ⟨Lexeme.Proper.of_kind nofun nofun nofun, nofun⟩
          · split
            · exact spoken_word ‹_›
            · split
              · rintro l hl
                obtain rfl := Option.some.inj hl
                exact ⟨Lexeme.Proper.of_kind nofun nofun nofun, nofun⟩
              · nofun

theorem spoken_segmentsWithin : ∀ (n : Nat) (cs : List Char),
    ∀ l ∈ (segmentsWithin n cs).filterMap (·.token), Spoken l
  | 0, _ => nofun
  | _ + 1, [] => nofun
  | n + 1, c :: cs => by
    intro l hl
    obtain ⟨s, hs, htoken⟩ := List.mem_filterMap.1 hl
    rcases List.mem_cons.1 hs with rfl | hs
    · exact spoken_firstSegment c cs l htoken
    · exact spoken_segmentsWithin n _ l (List.mem_filterMap.2 ⟨s, hs, htoken⟩)

theorem spoken_lexemes (cs : List Char) : ∀ l ∈ lexemes cs, Spoken l := spoken_segmentsWithin _ _

/-- The tokens of any source are proper. -/
theorem proper_tokens (source : String) : ∀ t ∈ tokens source, t.toLexeme.Proper := by
  intro t ht
  have hmem := List.mem_map_of_mem (f := Token.toLexeme) ht
  rw [tokens_toLexeme, List.mem_append] at hmem
  rcases hmem with hmem | hmem
  · exact (spoken_lexemes _ _ hmem).1
  · rw [List.eq_of_mem_singleton hmem]
    exact Lexeme.Proper.of_kind nofun nofun nofun

end Lexer

end StrategyScript
