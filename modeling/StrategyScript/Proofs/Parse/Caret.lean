/-
Where the caret of an error stands. An error is shown under its source line, behind a label with the number of
the line; the caret is on the line below, behind a gutter. Label and gutter have the same width as long as the
number has no more than four digits. So up to line 9999 the caret stands under the first character of the
token that the error is about, and from line 10000 on it stands too far to the left.
-/
import StrategyScript.Proofs.Parse.Bounds
import StrategyScript.Proofs.Token.Span

namespace StrategyScript

/-! ## Lines of a text -/

namespace Text

/-- What stands behind a line: the end of the text, or the end of the line and the text below. A carriage return in
front of a line feed is no part of the line. -/
inductive EndsLine (line : List Char) : List Char → Prop
  | nil : EndsLine line []
  | lineFeed (below : List Char) (h : line.getLast? ≠ some '\r') : EndsLine line ('\n' :: below)
  | carriageReturn (below : List Char) : EndsLine line ('\r' :: '\n' :: below)

/-- The text is this line with the lines above it and what stands behind it. -/
structure HasLine (text above line behind : List Char) : Prop where
  cut : text = above ++ (line ++ behind)
  begins : above = [] ∨ above.getLast? = some '\n'
  whole : '\n' ∉ line
  ends : EndsLine line behind

theorem lines_cons {c : Char} {cs : List Char} (hfeed : c ≠ '\n') (hreturn : c = '\r' → cs.head? ≠ some '\n') :
    lines (c :: cs) = match lines cs with
      | [] => [[c]]
      | l :: ls => (c :: l) :: ls := by
  refine lines.eq_4 c cs hfeed ?_
  rintro ds hc rfl
  exact hreturn hc rfl

/-- What stands above a line is lines of its own, as many as there are line feeds in it. -/
theorem lines_append {above : List Char} (h : above = [] ∨ above.getLast? = some '\n') (cs : List Char) :
    ∃ ls, lines (above ++ cs) = ls ++ lines cs ∧ ls.length = above.count '\n' ∧ (above ≠ [] → ls ≠ []) := by
  induction above with
  | nil => exact ⟨[], rfl, rfl, fun h => absurd rfl h⟩
  | cons c above ih =>
    have hrest : c = '\n' ∧ above = [] ∨ above ≠ [] ∧ above.getLast? = some '\n' := by
      cases above with
      | nil => simpa using h
      | cons d above => exact .inr ⟨List.cons_ne_nil d above, by simpa using h⟩
    obtain ⟨ls, hls, hlength, hne⟩ := ih (hrest.imp And.right And.right)
    by_cases hfeed : c = '\n'
    · subst hfeed
      refine ⟨[] :: ls, ?_, ?_, fun _ => List.cons_ne_nil _ _⟩
      · show [] :: lines (above ++ cs) = _
        rw [hls]
        rfl
      · rw [List.length_cons, hlength, List.count_cons_self]
    · obtain ⟨habove, -⟩ := hrest.resolve_left fun h => hfeed h.1
      have hcount : (c :: above).count '\n' = above.count '\n' := List.count_cons_of_ne hfeed
      by_cases hreturn : c = '\r' ∧ above.head? = some '\n'
      · obtain ⟨rfl, hhead⟩ := hreturn
        obtain ⟨others, rfl⟩ := List.head?_eq_some_iff.1 hhead
        exact ⟨ls, hls, hlength.trans hcount.symm, fun _ => hne habove⟩
      · have hhead : c = '\r' → (above ++ cs).head? ≠ some '\n' := by
          rw [List.head?_append_of_ne_nil _ habove]
          exact fun hc h => hreturn ⟨hc, h⟩
        cases ls with
        | nil => exact absurd rfl (hne habove)
        | cons l ls =>
          refine ⟨(c :: l) :: ls, ?_, hlength.trans hcount.symm, fun _ => List.cons_ne_nil _ _⟩
          rw [List.cons_append, lines_cons hfeed hhead, hls]
          rfl

theorem EndsLine.tail {c : Char} {line behind : List Char} (h : EndsLine (c :: line) behind) : EndsLine line behind := by
  cases h with
  | nil => exact .nil
  | lineFeed below h =>
    refine .lineFeed below fun hlast => h ?_
    rw [List.getLast?_cons, hlast]
    rfl
  | carriageReturn below => exact .carriageReturn below

/-- A line is the first line of itself and what stands behind it, except where there is nothing at all. -/
theorem lines_line {line behind : List Char} (hline : '\n' ∉ line) (hends : EndsLine line behind) :
    line = [] ∧ behind = [] ∨ ∃ ls, lines (line ++ behind) = line :: ls := by
  induction line with
  | nil =>
    cases hends with
    | nil => exact .inl ⟨rfl, rfl⟩
    | lineFeed below | carriageReturn below => exact .inr ⟨lines below, rfl⟩
  | cons c line ih =>
    obtain ⟨hc, hline⟩ := not_or.1 (mt List.mem_cons.2 hline)
    have hhead : c = '\r' → (line ++ behind).head? ≠ some '\n' := by
      rintro rfl
      cases line with
      | nil =>
        cases hends with
        | nil | carriageReturn below => nofun
        | lineFeed below h => exact absurd rfl h
      | cons d line => simpa using fun h : d = '\n' => hline (h ▸ List.mem_cons_of_mem _ List.mem_cons_self)
    right
    rw [List.cons_append, lines_cons (Ne.symm hc) hhead]
    obtain ⟨rfl, rfl⟩ | ⟨ls, hls⟩ := ih hline hends.tail
    · exact ⟨[], rfl⟩
    · exact ⟨ls, by rw [hls]⟩

/-- The text up to the first line feed, and from there on. -/
theorem exists_lineFeed (cs : List Char) :
    ∃ front rest, cs = front ++ rest ∧ '\n' ∉ front ∧ (rest = [] ∨ ∃ below, rest = '\n' :: below) := by
  refine ⟨cs.takeWhile (· ≠ '\n'), cs.dropWhile (· ≠ '\n'), List.takeWhile_append_dropWhile.symm, fun h => ?_, ?_⟩
  · simpa using List.all_eq_true.1 List.all_takeWhile _ h
  · have hnot := List.head?_dropWhile_not (· ≠ '\n') cs
    cases hrest : cs.dropWhile (· ≠ '\n') with
    | nil => exact .inl rfl
    | cons c below =>
      rw [hrest] at hnot
      exact .inr ⟨below, by simpa using hnot⟩

theorem HasLine.getElem? {text above line behind : List Char} (h : HasLine text above line behind) (hne : line ≠ []) :
    (lines text)[above.count '\n']? = some line := by
  obtain ⟨ls, hls, hlength, -⟩ := lines_append h.begins (line ++ behind)
  obtain ⟨others, hothers⟩ := (lines_line h.whole h.ends).resolve_left fun h => hne h.1
  rw [h.cut, hls, List.getElem?_append_right hlength.le, hlength, Nat.sub_self, hothers]
  rfl

/-- A text that begins with a character of a line goes on with the rest of that line. -/
theorem exists_hasLine {above front rest : List Char} {c : Char} (habove : above = [] ∨ above.getLast? = some '\n')
    (hfront : '\n' ∉ front) (hrest : rest.head? = some c) (hfeed : c ≠ '\n') (hreturn : c ≠ '\r') :
    ∃ shown behind, rest = shown ++ behind ∧ shown ≠ [] ∧ HasLine (above ++ (front ++ rest)) above (front ++ shown) behind := by
  obtain ⟨rest, rfl⟩ := List.head?_eq_some_iff.1 hrest
  obtain ⟨body, below, rfl, hbody, hbelow⟩ := exists_lineFeed rest
  have hwhole : ∀ part, (∀ d ∈ part, d ∈ body) → '\n' ∉ front ++ c :: part := by
    intro part hpart hmem
    rcases List.mem_append.1 hmem with hmem | hmem
    · exact hfront hmem
    · exact (List.mem_cons.1 hmem).elim (hfeed ·.symm) fun h => hbody (hpart _ h)
  rcases hbelow with rfl | ⟨below, rfl⟩
  · exact ⟨c :: body, [], rfl, List.cons_ne_nil _ _, by simp, habove, hwhole body fun _ => id, .nil⟩
  · by_cases hlast : body.getLast? = some '\r'
    · obtain ⟨body, rfl⟩ := List.getLast?_eq_some_iff.1 hlast
      exact ⟨c :: body, '\r' :: '\n' :: below, by simp, List.cons_ne_nil _ _, by simp, habove,
        hwhole body fun _ => List.mem_append_left _, .carriageReturn below⟩
    · refine ⟨c :: body, '\n' :: below, rfl, List.cons_ne_nil _ _, by simp, habove, hwhole body fun _ => id,
        .lineFeed below ?_⟩
      rw [List.getLast?_append, List.getLast?_cons]
      cases hbody' : body.getLast? with
      | none => simpa using hreturn
      | some d => simpa [hbody'] using hlast

end Text

/-! ## The line of a token -/

/-- The line feeds in front of a place are those above its line, and its column is counted from the beginning of the line. -/
theorem Position.behind_line (before : List Char) :
    ∃ above front, before = above ++ front ∧ (above = [] ∨ above.getLast? = some '\n') ∧ '\n' ∉ front ∧
      Position.behind before = ⟨1 + above.count '\n', 1 + front.length⟩ := by
  obtain ⟨front, above, hsplit, hfront, habove⟩ := Text.exists_lineFeed before.reverse
  obtain rfl : before = above.reverse ++ front.reverse := by
    rw [← List.reverse_append, ← hsplit, List.reverse_reverse]
  refine ⟨above.reverse, front.reverse, rfl, ?_, by simpa using hfront, ?_⟩
  · rcases habove with rfl | ⟨below, rfl⟩
    · exact .inl rfl
    · exact .inr (by simp)
  · have htake : (front ++ above).takeWhile (· ≠ '\n') = front := by
      refine Lexer.takeWhile_of_stop (fun c hc => ?_) (fun c hc => ?_)
      · simpa using fun h : c = '\n' => hfront (h ▸ hc)
      · rcases habove with rfl | ⟨below, rfl⟩
        · cases hc
        · cases hc
          rfl
    have hcount : front.count '\n' = 0 := List.count_eq_zero.2 hfront
    unfold behind
    rw [List.reverse_append, List.reverse_reverse, List.reverse_reverse, htake]
    simp [hcount]

namespace Lexer

/-- Every token but the end of input has a text in the source, and its position is that of the text. -/
theorem Cuts.of_mem {before rest : List Char} {ts : List Token} {t : Token} (h : Cuts before rest ts) (ht : t ∈ ts)
    (hkind : t.kind ≠ .endOfInput) :
    ∃ front text behind, before ++ rest = front ++ (text ++ behind) ∧ text ≠ [] ∧ Says text behind t.toLexeme ∧
      t.position = .behind front := by
  induction h with
  | done _ =>
    obtain rfl := List.mem_singleton.1 ht
    exact absurd rfl hkind
  | @token before gap text rest l ts _ hne hl _ ih =>
    rcases List.mem_cons.1 ht with rfl | ht
    · exact ⟨before ++ gap, text, rest, by simp, hne, hl, rfl⟩
    · obtain ⟨front, text, behind, hsplit, hsays⟩ := ih ht
      refine ⟨front, text, behind, ?_, hsays⟩
      rw [← hsplit]
      simp

/-- The first character of a token is no end of a line, unless the token is a newline. -/
theorem Says.head? {text rest : List Char} {l : Lexeme} (h : Says text rest l) (hne : text ≠ [])
    (hkind : l.kind ≠ .newline) : ∃ c, text.head? = some c ∧ c ≠ '\n' ∧ c ≠ '\r' := by
  cases h with
  | word h _ =>
    obtain ⟨c, tail, rfl, hc, -⟩ := h
    obtain ⟨hblank, -, hfeed, -⟩ := beginsWord_only hc
    exact ⟨c, rfl, hfeed, fun hreturn => hblank (.inr (.inr hreturn))⟩
  | numeral h _ =>
    obtain ⟨whole, hwhole, hdigits, h⟩ := h
    obtain ⟨c, whole, rfl⟩ := List.exists_cons_of_ne_nil hwhole
    have hc : c.isDigit := hdigits c List.mem_cons_self
    refine ⟨c, ?_, ?_, ?_⟩
    · obtain rfl | ⟨fraction, -, rfl⟩ := h <;> rfl
    · rintro rfl
      cases hc
    · rintro rfl
      cases hc
  | @string quote _ _ _ hquote _ =>
    refine ⟨quote, rfl, ?_⟩
    obtain rfl | rfl := hquote <;> decide
  | symbol s => cases s <;> exact ⟨_, rfl, by decide⟩
  | newline => exact absurd rfl hkind

/-- The token stands in a line of the source: `front` is before it on that line, and `onward` begins with it. -/
structure InLine (source : List Char) (t : Token) (above front onward behind : List Char) : Prop where
  line : Text.HasLine source above (front ++ onward) behind
  begins : onward ≠ []
  token : ∃ text rest, onward ++ behind = text ++ rest ∧ text ≠ [] ∧ Says text rest t.toLexeme

/-- Every token but newlines and the end of input stands in a line, and its position says in which and where. -/
theorem exists_inLine {source : String} {t : Token} (ht : t ∈ tokens source) (hnewline : t.kind ≠ .newline)
    (hend : t.kind ≠ .endOfInput) :
    ∃ above front onward behind, InLine source.toList t above front onward behind ∧
      t.position = ⟨1 + above.count '\n', 1 + front.length⟩ := by
  obtain ⟨before, text, rest, hsource, hne, hsays, hposition⟩ := (cuts_tokens source).of_mem ht hend
  obtain ⟨above, front, rfl, habove, hfront, hbehind⟩ := Position.behind_line before
  obtain ⟨c, hc, hfeed, hreturn⟩ := hsays.head? hne hnewline
  have hhead : (text ++ rest).head? = some c := by rw [List.head?_append_of_ne_nil _ hne, hc]
  obtain ⟨onward, behind, honward, hbegins, hline⟩ := Text.exists_hasLine habove hfront hhead hfeed hreturn
  rw [List.nil_append, List.append_assoc] at hsource
  rw [← hsource] at hline
  exact ⟨above, front, onward, behind, ⟨hline, hbegins, text, rest, honward.symm, hne, hsays⟩, hposition.trans hbehind⟩

end Lexer

/-! ## Label and gutter -/

namespace ParseError

/-- What stands in front of the source line. -/
def label (e : ParseError) : List Char := (Text.padStart 4 (toString e.position.line)).toList ++ [' ', '|', ' ']

/-- What stands in front of the caret. -/
def gutter (e : ParseError) : List Char := [' ', ' ', ' ', ' ', ' ', '|', ' '] ++ List.replicate (e.position.column - 1) ' '

/-- The first two lines that are shown: on the first one the source line, of which `front` is before the place of
the caret, on the second one the caret. -/
structure Picture (e : ParseError) (source : String) (label front onward gutter : List Char) : Prop where
  text : ∃ below, (e.textIn source).toList = label ++ front ++ onward ++ '\n' :: (gutter ++ '^' :: '\n' :: below)
  first : '\n' ∉ label ++ front ++ onward
  second : '\n' ∉ gutter
  caret : '^' ∉ gutter

theorem toList_padStart (width : Nat) (s : String) :
    (Text.padStart width s).toList = List.replicate (width - s.toList.length) ' ' ++ s.toList := by
  simp [Text.padStart, String.length_toList]

theorem toList_toString (n : Nat) : (toString n).toList = Nat.toDigits 10 n := by
  rw [Nat.toString_eq_ofList_toDigits, String.toList_ofList]

theorem toList_textIn (e : ParseError) (source : String) :
    (e.textIn source).toList = e.label ++ e.sourceLine source ++ '\n' :: (e.gutter ++ '^' :: '\n' :: e.text.toList) := by
  simp [textIn, label, gutter]

/-- The label is as wide as the empty gutter, or wider by the digits of the line that are more than four. -/
theorem length_label (e : ParseError) : e.label.length = 7 + ((Nat.toDigits 10 e.position.line).length - 4) := by
  unfold label
  rw [toList_padStart, toList_toString]
  simp
  omega

theorem length_gutter (e : ParseError) : e.gutter.length = 7 + (e.position.column - 1) := by
  simp [gutter]
  omega

/-- The gutter is as wide as all that stands in front of the token, as long as the line has at most four digits. -/
theorem gutter_aligned {e : ParseError} {above front : List Char} (h : e.position = ⟨1 + above.count '\n', 1 + front.length⟩) :
    e.gutter.length = (e.label ++ front).length ↔ e.position.line < 10000 := by
  have hfour := Nat.length_toDigits_le_iff (b := 10) (n := e.position.line) (k := 4) (by decide) (by decide)
  have hcolumn : e.position.column = 1 + front.length := by rw [h]
  rw [length_gutter, List.length_append, length_label, hcolumn]
  omega

theorem label_lineFeed (e : ParseError) : '\n' ∉ e.label := by
  unfold label
  rw [toList_padStart, toList_toString]
  have hdigits : '\n' ∉ Nat.toDigits 10 e.position.line := fun h => absurd (Number.isDigit_toDigits _ _ h) (by decide)
  simp [hdigits]

/-- An error at the position of a token is shown under the line of the token. -/
theorem picture_of_inLine {e : ParseError} {source : String} {t : Token} {above front onward behind : List Char}
    (ht : Lexer.InLine source.toList t above front onward behind)
    (hposition : e.position = ⟨1 + above.count '\n', 1 + front.length⟩) :
    e.Picture source e.label front onward e.gutter := by
  have hne : front ++ onward ≠ [] := List.append_ne_nil_of_right_ne_nil front ht.begins
  have hline : e.sourceLine source = front ++ onward := by
    unfold sourceLine
    rw [hposition, Nat.add_sub_cancel_left, ht.line.getElem? hne]
    rfl
  refine ⟨⟨e.text.toList, ?_⟩, ?_, ?_, ?_⟩
  · rw [toList_textIn, hline]
    simp
  · rw [List.append_assoc]
    exact fun h => (List.mem_append.1 h).elim e.label_lineFeed ht.line.whole
  · simp [gutter]
  · simp [gutter]

end ParseError

namespace Script

/-- Every error that is reported is about a token. -/
theorem about_of_check {source : String} {e : ParseError} (he : e ∈ check source) : ∃ t ∈ Lexer.tokens source, e.About t := by
  unfold check at he
  split at he
  · cases he
  · rename_i es hes
    obtain ⟨-, ss, hfinds⟩ := Parse.finds_of_errors hes
    obtain ⟨indices, habout, -⟩ := hfinds.in_order (.start _)
    obtain ⟨i, -, t, ht, habout⟩ := Parse.exists_index habout he
    rw [Parse.completed_tokens] at ht
    exact ⟨t, List.mem_of_getElem? ht, habout⟩

/-- Every error that is reported is about a token of the source. If that is neither a newline nor the end of input,
the first line that is shown has the source line of the token, and as many characters are before the caret on the
second line as before the token on the first one exactly if the line is before line 10000. -/
theorem caret_under_token {source : String} {e : ParseError} (he : e ∈ check source) :
    (∃ t ∈ Lexer.tokens source, e.About t) ∧
    ∀ t ∈ Lexer.tokens source, t.position = e.position → t.kind ≠ .newline → t.kind ≠ .endOfInput →
      ∃ above front onward behind label gutter, Lexer.InLine source.toList t above front onward behind ∧
        e.Picture source label front onward gutter ∧
        (gutter.length = (label ++ front).length ↔ e.position.line < 10000) := by
  refine ⟨about_of_check he, fun t ht hposition hnewline hend => ?_⟩
  obtain ⟨above, front, onward, behind, hline, hplace⟩ := Lexer.exists_inLine ht hnewline hend
  rw [hposition] at hplace
  exact ⟨above, front, onward, behind, e.label, e.gutter, hline, ParseError.picture_of_inLine hline hplace,
    ParseError.gutter_aligned hplace⟩

/-- The name of a variable is missing, and the caret stands under what is there in its place. -/
theorem caret_under_equals :
    let source := "flat\n\tvar = 2"
    let e : ParseError := ⟨"expected variable name, found '='", ⟨2, 6⟩⟩
    check source = [e] ∧
      e.textIn source = "   2 | \tvar = 2\n     |      ^\nparse error at line 2, column 6: expected variable name, found '='" ∧
      ∃ above front onward behind label gutter,
        Lexer.InLine source.toList ⟨⟨.symbol .assign, "="⟩, ⟨2, 6⟩⟩ above front onward behind ∧
        e.Picture source label front onward gutter ∧
        (gutter.length = (label ++ front).length ↔ 2 < 10000) := by
  have hcheck : check "flat\n\tvar = 2" = [⟨"expected variable name, found '='", ⟨2, 6⟩⟩] := rfl
  refine ⟨hcheck, by decide, ?_⟩
  exact (caret_under_token (hcheck ▸ List.mem_cons_self)).2 ⟨⟨.symbol .assign, "="⟩, ⟨2, 6⟩⟩ (by decide) rfl nofun nofun

/-! ## Many lines -/

/-- A text of newlines with a closing parenthesis behind them. -/
def parenthesisBehind (n : Nat) : String := String.ofList (List.replicate n '\n' ++ [')'])

theorem segments_behind (n : Nat) : Lexer.segments (List.replicate n '\n' ++ [')']) =
    List.replicate n (.lexeme ['\n'] .newline) ++ [.lexeme [')'] (.symbol .rightParen)] := by
  induction n with
  | zero => rfl
  | succ n ih =>
    rw [List.replicate_succ, List.cons_append, Lexer.segments_cons]
    exact congrArg (_ :: ·) ih

theorem place_newlines (n line : Nat) (ss : List Lexer.Segment) :
    ∃ ts, Lexer.place ⟨line, 1⟩ (List.replicate n (.lexeme ['\n'] .newline) ++ ss) =
      ts ++ Lexer.place ⟨line + n, 1⟩ ss ∧ ∀ t ∈ ts, t.kind = .newline := by
  induction n generalizing line with
  | zero => exact ⟨[], rfl, nofun⟩
  | succ n ih =>
    obtain ⟨ts, hts, hkinds⟩ := ih (line + 1)
    refine ⟨⟨.newline, ⟨line, 1⟩⟩ :: ts, ?_, List.forall_mem_cons.2 ⟨rfl, hkinds⟩⟩
    rw [Nat.add_right_comm] at hts
    exact congrArg (_ :: ·) hts

/-- The newlines are passed over, and the parenthesis is what cannot begin a statement. -/
theorem parenthesis_behind (n : Nat) :
    check (parenthesisBehind n) = [⟨"unexpected token ')'", ⟨n + 1, 1⟩⟩] ∧
      ⟨⟨.symbol .rightParen, ")"⟩, ⟨n + 1, 1⟩⟩ ∈ Lexer.tokens (parenthesisBehind n) := by
  obtain ⟨ts, hts, hkinds⟩ := place_newlines n 1 [.lexeme [')'] (.symbol .rightParen)]
  have htokens : Lexer.tokens (parenthesisBehind n) =
      ts ++ [⟨⟨.symbol .rightParen, ")"⟩, ⟨n + 1, 1⟩⟩, ⟨⟨.endOfInput, ""⟩, ⟨n + 1, 2⟩⟩] := by
    unfold Lexer.tokens parenthesisBehind
    rw [String.toList_ofList, segments_behind]
    rw [Nat.add_comm] at hts
    exact hts
  have hskip : ((Cursor.ofTokens (Lexer.tokens (parenthesisBehind n))).skip Parse.isTerminator) =
      ⟨[⟨⟨.symbol .rightParen, ")"⟩, ⟨n + 1, 1⟩⟩], ⟨n + 1, 2⟩⟩ := by
    have hnot : ∀ t ∈ ts, t.kind ≠ .endOfInput := fun t ht => by rw [hkinds t ht]; decide
    have htake : ∀ t ∈ ts, decide (t.kind ≠ .endOfInput) = true := fun t ht => decide_eq_true (hnot t ht)
    have hdrop : ∀ t ∈ ts, Parse.isTerminator t.kind = true := fun t ht => by rw [hkinds t ht]; rfl
    unfold Cursor.ofTokens
    rw [htokens, List.takeWhile_append_of_pos htake, List.find?_append, Cursor.find?_of_kind hnot]
    unfold Cursor.skip
    dsimp only
    rw [List.dropWhile_append_of_pos hdrop]
    rfl
  have hfinds : Parse.Finds Parse.maxNesting (.ofTokens (Lexer.tokens (parenthesisBehind n))) []
      [⟨"unexpected token ')'", ⟨n + 1, 1⟩⟩] := by
    refine .error (d := ⟨[⟨⟨.symbol .rightParen, ")"⟩, ⟨n + 1, 1⟩⟩], ⟨n + 1, 2⟩⟩) ?_ ?_ (.stop rfl)
    · rw [hskip]
      nofun
    · rw [hskip]
      rfl
  refine ⟨?_, ?_⟩
  · unfold check
    rw [(Parse.program_of_rejected hfinds).2]
  · rw [htokens]
    simp

/-- At line 10000 the caret is one column to the left of the token. -/
theorem caret_left_of_token :
    ∃ e ∈ check (parenthesisBehind 9999), ∃ t ∈ Lexer.tokens (parenthesisBehind 9999),
      t.position = e.position ∧ t.kind ≠ .newline ∧ t.kind ≠ .endOfInput ∧
      Lexer.InLine (parenthesisBehind 9999).toList t (List.replicate 9999 '\n') [] [')'] [] ∧
      e.Picture (parenthesisBehind 9999) "10000 | ".toList [] [')'] "     | ".toList ∧
      "     | ".toList.length + 1 = ("10000 | ".toList ++ []).length := by
  obtain ⟨hcheck, ht⟩ := parenthesis_behind 9999
  have hline : Lexer.InLine (parenthesisBehind 9999).toList ⟨⟨.symbol .rightParen, ")"⟩, ⟨10000, 1⟩⟩
      (List.replicate 9999 '\n') [] [')'] [] := by
    refine ⟨⟨?_, .inr ?_, by decide, .nil⟩, by decide, [')'], [], rfl, by decide, .symbol .rightParen⟩
    · rw [parenthesisBehind, String.toList_ofList]
      rfl
    · rw [List.getLast?_replicate]
      rfl
  have hplace : (⟨10000, 1⟩ : Position) = ⟨1 + (List.replicate 9999 '\n').count '\n', 1 + ([] : List Char).length⟩ := by
    rw [List.count_replicate_self]
    rfl
  exact ⟨⟨"unexpected token ')'", ⟨10000, 1⟩⟩, hcheck ▸ List.mem_cons_self, _, ht, rfl, nofun, nofun, hline,
    ParseError.picture_of_inLine hline hplace, rfl⟩

end Script

end StrategyScript
