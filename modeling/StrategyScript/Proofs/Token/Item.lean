/-
Writing any row of words, numerals, strings, symbols and newlines so that the lexer finds just these.
Single spaces between them are enough: each ends before a space, and inside a string a backslash takes
away the meaning of quotes and backslashes.
-/
import StrategyScript.Proofs.Token.Render
import StrategyScript.Proofs.Token.Proper

namespace StrategyScript.Lexer

/-! ## Items -/

/-- What can be written in a source. A string may hold any characters, between quotes of either kind. -/
inductive Item
  | word (text : String) (h : IsWord text.toList)
  | numeral (text : String) (h : Number.IsNumeral text.toList)
  | string (quote : Char) (value : String) (h : quote = '\x22' ∨ quote = '\x27')
  | symbol (s : Symbol)
  | newline

/-- Inside a string, a backslash stands before every backslash and before the quotes that are not its end. -/
def escaped (quote c : Char) : List Char :=
  if c = '\\' ∨ c = quote then ['\\', c] else [c]

def Item.text : Item → List Char
  | .word text _ | .numeral text _ => text.toList
  | .string quote value _ => quote :: (value.toList.flatMap (escaped quote) ++ [quote])
  | .symbol s => s.spelling
  | .newline => ['\n']

/-- Items with single spaces between them. -/
def written (items : List Item) : List Char :=
  [' '].intercalate (items.map Item.text)

/-- The lexeme is the item: a word that is a keyword in lower case has the kind of that keyword, any other that
of an identifier. -/
def Item.Is (l : Lexeme) : Item → Prop
  | .word text _ =>
    l.text = text ∧ (∀ k : Keyword, Text.lowercase text = k.word → l.kind = .keyword k) ∧
      ((∀ k : Keyword, Text.lowercase text ≠ k.word) → l.kind = .identifier)
  | .numeral text _ => l = ⟨.number, text⟩
  | .string _ value _ => l = ⟨.string, value⟩
  | .symbol s => l = ⟨.symbol s, String.ofList s.spelling⟩
  | .newline => l = ⟨.newline, "\n"⟩

/-! ## Strings -/

theorem stringBody_escaped {quote : Char} (hquote : quote = '\x22' ∨ quote = '\x27') (c : Char) (cs : List Char) :
    stringBody quote (escaped quote c ++ cs) =
      (escaped quote c ++ (stringBody quote cs).1, c :: (stringBody quote cs).2) := by
  unfold escaped
  split
  · rename_i hc
    -- neither a backslash nor a quote stands for another character
    have hsame : unescape c = c := by
      rcases hc with rfl | rfl
      · rfl
      · rcases hquote with rfl | rfl <;> rfl
    show ('\\' :: c :: _, unescape c :: _) = _
    rw [hsame]
    rfl
  · rename_i hc
    obtain ⟨hslash, hne⟩ := not_or.1 hc
    exact stringBody_verbatim hne hslash cs

theorem stringBody_written {quote : Char} (hquote : quote = '\x22' ∨ quote = '\x27') (value rest : List Char) :
    stringBody quote (value.flatMap (escaped quote) ++ quote :: rest) =
      (value.flatMap (escaped quote) ++ [quote], value) := by
  induction value with
  | nil => rcases hquote with rfl | rfl <;> rfl
  | cons c value ih =>
    rw [List.flatMap_cons, List.append_assoc, stringBody_escaped hquote, ih, List.append_assoc]

theorem spells_written_string {quote : Char} (hquote : quote = '\x22' ∨ quote = '\x27') (value : String) :
    Spells (quote :: (value.toList.flatMap (escaped quote) ++ [quote])) [⟨.string, value⟩] Anything := by
  have hseg : ∀ rest, Anything rest → firstSegment quote ((value.toList.flatMap (escaped quote) ++ [quote]) ++ rest) =
      ⟨quote :: (value.toList.flatMap (escaped quote) ++ [quote]), some ⟨.string, value⟩⟩ := by
    intro rest _
    have hstring : firstSegment quote ((value.toList.flatMap (escaped quote) ++ [quote]) ++ rest) =
        string quote ((value.toList.flatMap (escaped quote) ++ [quote]) ++ rest) := by
      rcases hquote with rfl | rfl <;> rfl
    rw [hstring, List.append_assoc, List.singleton_append, string, stringBody_written hquote]
    dsimp only
    rw [String.ofList_toList]
  exact spells_segment hseg rfl

/-! ## Words -/

theorem ofWord_word (k : Keyword) : TokenKind.ofWord k.word = .keyword k := by
  cases k with
  | trade a => cases a <;> decide
  | price f => cases f <;> decide
  | _ => decide

theorem kind_word (text : String) : (Lexeme.word text).kind = TokenKind.ofWord (Text.lowercase text) := by
  unfold Lexeme.word wordKind
  dsimp only
  rw [String.ofList_toList]

theorem is_word {text : String} (h : IsWord text.toList) : (Item.word text h).Is (.word text) := by
  have hkeyword : ∀ k : Keyword, Text.lowercase text = k.word → (Lexeme.word text).kind = .keyword k := by
    intro k hk
    rw [kind_word, hk, ofWord_word]
  have hidentifier : (∀ k : Keyword, Text.lowercase text ≠ k.word) → (Lexeme.word text).kind = .identifier := by
    intro hno
    rw [kind_word]
    rcases ofWord_kind (Text.lowercase text) with hw | ⟨k, hw⟩
    · exact hw
    · exact absurd (word_of_ofWord hw) (hno k)
  exact ⟨rfl, hkeyword, hidentifier⟩

/-! ## Rows of items -/

/-- An item is found where it stands, as long as a delimiter follows. -/
theorem Item.spells (i : Item) : ∃ l, Spells i.text [l] Delimited ∧ i.Is l := by
  cases i with
  | word text h => exact ⟨.word text, spells_word h, is_word h⟩
  | numeral text h => exact ⟨⟨.number, text⟩, spells_numeral h, rfl⟩
  | string quote value h => exact ⟨⟨.string, value⟩, (spells_written_string h value).weaken, rfl⟩
  | symbol s => exact ⟨.symbol s, spells_symbol s, rfl⟩
  | newline => exact ⟨.newline, spells_newline.weaken, rfl⟩

theorem written_cons (i : Item) (items : List Item) (h : items ≠ []) :
    written (i :: items) = i.text ++ ' ' :: written items := by
  obtain ⟨j, items, rfl⟩ := List.exists_cons_of_ne_nil h
  rfl

theorem written_spells (items : List Item) :
    ∃ ls, Spells (written items) ls Delimited ∧ List.Forall₂ (fun i l => Item.Is l i) items ls := by
  induction items with
  | nil => exact ⟨[], spells_nil Delimited, .nil⟩
  | cons i items ih =>
    obtain ⟨l, hl, hi⟩ := i.spells
    obtain ⟨ls, hls, his⟩ := ih
    refine ⟨l :: ls, ?_, .cons hi his⟩
    by_cases hnil : items = []
    · subst hnil
      cases his
      have hwritten : written [i] = i.text := List.append_nil _
      rw [hwritten]
      exact hl
    · rw [written_cons i items hnil]
      exact hl.before hls.spaced rfl

theorem lexemes_written (items : List Item) :
    List.Forall₂ (fun i l => Item.Is l i) items (lexemes (written items)) := by
  obtain ⟨ls, hls, his⟩ := written_spells items
  have hnothing : Delimited [] := fun _ h => absurd h nofun
  have hlexemes := hls [] hnothing
  rw [List.append_nil, show lexemes [] = [] from rfl, List.append_nil] at hlexemes
  rw [hlexemes]
  exact his

/-- Whatever items are written with single spaces between them, the lexer finds these items, and behind them the
end of input. -/
theorem tokens_written (items : List Item) :
    ∃ ls, (tokens (String.ofList (written items))).map Token.toLexeme = ls ++ [⟨.endOfInput, ""⟩] ∧
      List.Forall₂ (fun i l => Item.Is l i) items ls := by
  refine ⟨lexemes (written items), ?_, lexemes_written items⟩
  rw [tokens_toLexeme, String.toList_ofList]

end StrategyScript.Lexer
