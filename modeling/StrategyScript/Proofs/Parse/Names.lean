/-
Two scripts that declare a word and use it, as a variable and as a parameter. Every identifier can be the word,
and the declaration is read whatever it is. Where the word is used, expressions decide what it is: `not` alone is
refused there, for no operand is behind it.
-/
import StrategyScript.Proofs.Parse.Word
import StrategyScript.Proofs.Parse.Roundtrip

namespace StrategyScript

open StrategyScript.Parser

/-! ## Two scripts -/

/-- A script that gives a variable a value and reads it back. -/
def variableText (w : String) : String := "var probe = 0\nvar " ++ w ++ " = 7\nprobe = " ++ w

/-- A script with a function that gives its argument back. -/
def parameterText (w : String) : String := "function f(" ++ w ++ ") \x7b return " ++ w ++ " \x7d\nvar probe = f(7)"

namespace Lexer

/-- The word is an identifier all by itself. -/
def IsIdentifier (w : String) : Prop := (tokens w).map Token.toLexeme = [⟨.identifier, w⟩, ⟨.endOfInput, ""⟩]

theorem IsIdentifier.isWord {w : String} (h : IsIdentifier w) : IsWord w.toList ∧ Lexeme.word w = ⟨.identifier, w⟩ := by
  have hmem : ⟨.identifier, w⟩ ∈ (tokens w).map Token.toLexeme := by
    rw [show (tokens w).map Token.toLexeme = _ from h]
    exact List.mem_cons_self
  obtain ⟨t, ht, hlexeme⟩ := List.mem_map.1 hmem
  have hproper := proper_tokens w t ht
  rw [hlexeme] at hproper
  obtain ⟨hword, hkind⟩ := hproper.identifier rfl
  exact ⟨hword, congrArg (Lexeme.mk · w) hkind⟩

theorem Spells.whole {cs : List Char} {ls : List Lexeme} (h : Spells cs ls Delimited) : lexemes cs = ls := by
  have hnothing : Delimited [] := fun _ h => absurd h nofun
  have hlexemes := h [] hnothing
  rwa [List.append_nil, show lexemes [] = [] from rfl, List.append_nil] at hlexemes

/-- A declaration up to its value. -/
theorem Spells.declared {x : String} {ds : List Char} {ms : List Lexeme} {F : List Char → Prop} (h : Spells ds ms F)
    (hx : IsWord x.toList) :
    Spells ("var".toList ++ ' ' :: (x.toList ++ ' ' :: '=' :: ' ' :: ds)) (.word "var" :: .word x :: .symbol .assign :: ms) F :=
  (spells_word (isWord_iff.1 (by decide))).before ((spells_word hx).assigned h).spaced rfl

/-- A numeral of one digit, before a delimiter. -/
theorem Spells.digit {c d : Char} {ds : List Char} {ms : List Lexeme} {F : List Char → Prop} (h : Spells (d :: ds) ms F)
    (hc : c.isDigit) (hd : delimits d) : Spells (c :: d :: ds) (⟨.number, String.ofList [c]⟩ :: ms) F := by
  have hnumeral : Number.IsNumeral (String.ofList [c]).toList := by
    rw [String.toList_ofList]
    exact ⟨[c], List.cons_ne_nil _ _, List.forall_mem_singleton.2 hc, .inl rfl⟩
  have hspells := (spells_numeral hnumeral).before h hd
  rwa [String.toList_ofList] at hspells

theorem Spells.below {ds : List Char} {ms : List Lexeme} {F : List Char → Prop} (h : Spells ds ms F) :
    Spells ('\n' :: ds) (.newline :: ms) F := spells_newline.then h

theorem word_var : Lexeme.word "var" = ⟨.keyword .varWord, "var"⟩ := rfl

theorem word_probe : Lexeme.word "probe" = ⟨.identifier, "probe"⟩ := rfl

theorem lexemes_variable {w : String} (h : IsIdentifier w) : lexemes (variableText w).toList =
    [⟨.keyword .varWord, "var"⟩, ⟨.identifier, "probe"⟩, .symbol .assign, ⟨.number, "0"⟩, .newline,
      ⟨.keyword .varWord, "var"⟩, ⟨.identifier, w⟩, .symbol .assign, ⟨.number, "7"⟩, .newline,
      ⟨.identifier, "probe"⟩, .symbol .assign, ⟨.identifier, w⟩] := by
  obtain ⟨hw, hlexeme⟩ := h.isWord
  have hprobe : IsWord "probe".toList := isWord_iff.1 (by decide)
  have hseven : '7'.isDigit := by decide
  have hzero : '0'.isDigit := by decide
  have hlast := (spells_word hprobe).assigned (spells_word hw)
  have hmiddle := (hlast.below.digit hseven (by decide)).declared hw
  have hall := ((hmiddle.below.digit hzero (by decide)).declared hprobe).whole
  rw [hlexeme, word_var, word_probe] at hall
  have htext : (variableText w).toList = "var".toList ++ ' ' :: ("probe".toList ++ ' ' :: '=' :: ' ' :: '0' :: '\n' ::
      ("var".toList ++ ' ' :: (w.toList ++ ' ' :: '=' :: ' ' :: '7' :: '\n' ::
        ("probe".toList ++ ' ' :: '=' :: ' ' :: w.toList)))) := by
    unfold variableText
    rw [String.toList_append, String.toList_append, String.toList_append, List.append_assoc, List.append_assoc]
    rfl
  rw [htext]
  exact hall

theorem lexemes_parameter {w : String} (h : IsIdentifier w) : lexemes (parameterText w).toList =
    [⟨.keyword .functionWord, "function"⟩, ⟨.identifier, "f"⟩, .symbol .leftParen, ⟨.identifier, w⟩, .symbol .rightParen,
      .symbol .leftBrace, ⟨.keyword .returnWord, "return"⟩, ⟨.identifier, w⟩, .symbol .rightBrace, .newline,
      ⟨.keyword .varWord, "var"⟩, ⟨.identifier, "probe"⟩, .symbol .assign, ⟨.identifier, "f"⟩, .symbol .leftParen,
      ⟨.number, "7"⟩, .symbol .rightParen] := by
  obtain ⟨hw, hlexeme⟩ := h.isWord
  have hprobe : IsWord "probe".toList := isWord_iff.1 (by decide)
  have hf : IsWord "f".toList := isWord_iff.1 (by decide)
  have hseven : '7'.isDigit := by decide
  have hcall := (spells_word hf).before (((spells_nil Delimited).behind (s := .rightParen) rfl rfl).digit hseven rfl).opened rfl
  have hbody := (spells_word hw).before (spells_brace.then (hcall.declared hprobe)).spaced rfl
  have hreturn := (spells_word (isWord_iff.1 (by decide) : IsWord "return".toList)).before hbody.spaced rfl
  have hhead := ((spells_word hw).closed hreturn.spaced.braced.spaced).opened
  have hall := ((spells_word (isWord_iff.1 (by decide) : IsWord "function".toList)).before
    ((spells_word hf).before hhead rfl).spaced rfl).whole
  rw [hlexeme, word_var, word_probe] at hall
  have htext : (parameterText w).toList = "function".toList ++ ' ' :: ("f".toList ++ '(' :: (w.toList ++ ')' :: ' ' :: '\x7b' ::
      ' ' :: ("return".toList ++ ' ' :: (w.toList ++ ' ' :: '\x7d' :: '\n' :: ("var".toList ++ ' ' :: ("probe".toList ++
        ' ' :: '=' :: ' ' :: ("f".toList ++ '(' :: '7' :: [')']))))))) := by
    unfold parameterText
    rw [String.toList_append, String.toList_append, String.toList_append, String.toList_append, List.append_assoc,
      List.append_assoc, List.append_assoc]
    rfl
  rw [htext]
  exact hall

/-- The tokens of a source are its lexemes, each at some place. -/
theorem exists_places (source : String) : ∃ place : Nat → Position,
    tokens source = (lexemes source.toList ++ [Lexeme.mk .endOfInput ""]).zipIdx.map fun (l, i) => Token.mk l (place i) := by
  refine ⟨fun i => ((tokens source)[i]?.map (·.position)).getD .start, ?_⟩
  rw [← tokens_toLexeme]
  refine List.ext_getElem? fun i => ?_
  cases h : (tokens source)[i]? with
  | none => simp [h]
  | some t => simp [h]

end Lexer

namespace Parse

open StrategyScript.Lexer

section

variable {w : String} {rest : List Token} {stop p : Position} (place : Nat → Position)

/-- A number before the end of a line. -/
theorem expression_of_numeral {n : String} {v : Float} (hn : Number.readFloat n = .ok v) {k : Lexeme}
    (hk : endsExpr k.kind) (levels : Nat) :
    expression (levels + 1) ⟨⟨⟨.number, n⟩, p⟩ :: ⟨k, q⟩ :: rest, stop⟩ = .ok (.number v p) ⟨⟨k, q⟩ :: rest, stop⟩ := by
  have hkept : Lexeme.KeptAs ⟨.number, n⟩ (Atom.number v).sign := ⟨rfl, hn⟩
  have hstops : Stops 0 ⟨⟨k, q⟩ :: rest, stop⟩ := ⟨ranks_none (.inl hk), ne_of_endsExpr hk rfl, ne_of_endsExpr hk rfl⟩
  exact expression_of_atom (t := ⟨⟨.number, n⟩, p⟩) hkept hstops (ne_of_endsExpr hk rfl) levels

/-- The program of the first script. -/
def variableProgram (w : String) : Program :=
  [.var "probe" (some (.number 0 (place 3))), .var w (some (.number 7 (place 8))),
    .expr (.assign "probe" ((wordAtom w).expr (place 12)) (place 10))]

/-- The program of the second script. -/
def parameterProgram (w : String) : Program :=
  [.function "f" [w] [.ret (some ((wordAtom w).expr (place 7))) (place 6).line],
    .var "probe" (some (.call "f" [.number 7 (place 15)] (place 13)))]

/-- The tokens of the first script, without the end of input. -/
def variableRow (w : String) : List Token :=
  [⟨⟨.keyword .varWord, "var"⟩, place 0⟩, ⟨⟨.identifier, "probe"⟩, place 1⟩, ⟨.symbol .assign, place 2⟩,
    ⟨⟨.number, "0"⟩, place 3⟩, ⟨.newline, place 4⟩, ⟨⟨.keyword .varWord, "var"⟩, place 5⟩,
    ⟨⟨.identifier, w⟩, place 6⟩, ⟨.symbol .assign, place 7⟩, ⟨⟨.number, "7"⟩, place 8⟩, ⟨.newline, place 9⟩,
    ⟨⟨.identifier, "probe"⟩, place 10⟩, ⟨.symbol .assign, place 11⟩, ⟨⟨.identifier, w⟩, place 12⟩]

/-- The tokens of the second script, without the end of input. -/
def parameterRow (w : String) : List Token :=
  [⟨⟨.keyword .functionWord, "function"⟩, place 0⟩, ⟨⟨.identifier, "f"⟩, place 1⟩, ⟨.symbol .leftParen, place 2⟩,
    ⟨⟨.identifier, w⟩, place 3⟩, ⟨.symbol .rightParen, place 4⟩, ⟨.symbol .leftBrace, place 5⟩,
    ⟨⟨.keyword .returnWord, "return"⟩, place 6⟩, ⟨⟨.identifier, w⟩, place 7⟩, ⟨.symbol .rightBrace, place 8⟩,
    ⟨.newline, place 9⟩, ⟨⟨.keyword .varWord, "var"⟩, place 10⟩, ⟨⟨.identifier, "probe"⟩, place 11⟩,
    ⟨.symbol .assign, place 12⟩, ⟨⟨.identifier, "f"⟩, place 13⟩, ⟨.symbol .leftParen, place 14⟩,
    ⟨⟨.number, "7"⟩, place 15⟩, ⟨.symbol .rightParen, place 16⟩]

theorem finds_variable (w : String) (stop : Position) :
    (sameWord w "not" = false → Finds maxNesting ⟨variableRow place w, stop⟩ (variableProgram place w) []) ∧
      (sameWord w "not" → ∃ ss e es, Finds maxNesting ⟨variableRow place w, stop⟩ ss (e :: es)) := by
  have hprobe : Lexeme.KeptAs ⟨.identifier, "probe"⟩ (.name "probe") := kept_of_word rfl rfl
  have hfirst : statement maxNesting ⟨variableRow place w, stop⟩ =
      .ok (.var "probe" (some (.number 0 (place 3)))) ⟨(variableRow place w).drop 5, stop⟩ :=
    statement_declared (expression_of_numeral rfl rfl _) rfl
  have hsecond : statement maxNesting ⟨(variableRow place w).drop 5, stop⟩ =
      .ok (.var w (some (.number 7 (place 8)))) ⟨(variableRow place w).drop 10, stop⟩ :=
    statement_declared (expression_of_numeral rfl rfl _) rfl
  have hthird : statement maxNesting ⟨(variableRow place w).drop 10, stop⟩ =
      (do let e ← expression 63; statementEnd; return .expr e : Parser Stmt) ⟨(variableRow place w).drop 10, stop⟩ :=
    statement_expr rfl 63
  have hvalue : expression 63 ⟨(variableRow place w).drop 10, stop⟩ =
      (do return .assign "probe" (← expression 62) (place 10) : Parser Expr) ⟨(variableRow place w).drop 12, stop⟩ :=
    expression_assigned hprobe 62
  refine ⟨fun hnot => ?_, fun hnot => ?_⟩
  · have hword : expression 62 ⟨(variableRow place w).drop 12, stop⟩ = .ok ((wordAtom w).expr (place 12)) ⟨[], stop⟩ :=
      expression_of_word hnot (EndsRow.stops (.inr rfl)) (by nofun) 61
    rw [bind_ok hword] at hvalue
    rw [ended hvalue rfl] at hthird
    exact .statement nofun hfirst (.statement nofun hsecond (.statement nofun hthird (.stop rfl)))
  · obtain ⟨e, d, hword⟩ : ∃ e d, expression 62 ⟨(variableRow place w).drop 12, stop⟩ = .error e d :=
      expression_of_not (t := ⟨⟨.identifier, w⟩, place 12⟩) hnot (.inl rfl) 60
    rw [bind_error hword] at hvalue
    rw [bind_error hvalue] at hthird
    obtain ⟨ss, es, hrest⟩ := exists_finds maxNesting (resume d)
    have hwrong : Finds maxNesting ⟨(variableRow place w).drop 10, stop⟩ ss (e :: es) := .error nofun hthird hrest
    exact ⟨_, e, es, .statement nofun hfirst (.statement nofun hsecond hwrong)⟩

theorem finds_parameter (w : String) (stop : Position) :
    (sameWord w "not" = false → Finds maxNesting ⟨parameterRow place w, stop⟩ (parameterProgram place w) []) ∧
      (sameWord w "not" → ∃ ss e es, Finds maxNesting ⟨parameterRow place w, stop⟩ ss (e :: es)) := by
  have hfirst : statement maxNesting ⟨parameterRow place w, stop⟩ =
      (do return .function "f" [w] (← blockBody (statement 63)) : Parser Stmt) ⟨(parameterRow place w).drop 6, stop⟩ :=
    statement_function "f" _ _ _ _ _ _
  have hreturn : statement 63 ⟨(parameterRow place w).drop 6, stop⟩ =
      (do let e ← expression 62; statementEnd; return .ret (some e) (place 6).line : Parser Stmt)
        ⟨(parameterRow place w).drop 7, stop⟩ := statement_returned rfl 62
  refine ⟨fun hnot => ?_, fun hnot => ?_⟩
  · have hbrace : ∀ f ∈ ranks, f (.symbol .rightBrace) = none := by decide
    have hstops : Stops 0 ⟨(parameterRow place w).drop 8, stop⟩ := ⟨hbrace, nofun, nofun⟩
    have hword : expression 62 ⟨(parameterRow place w).drop 7, stop⟩ =
        .ok ((wordAtom w).expr (place 7)) ⟨(parameterRow place w).drop 8, stop⟩ :=
      expression_of_word hnot hstops (by nofun) 61
    rw [ended hword rfl] at hreturn
    have hbody : blockBody (statement 63) ⟨(parameterRow place w).drop 6, stop⟩ =
        .ok [.ret (some ((wordAtom w).expr (place 7))) (place 6).line] ⟨(parameterRow place w).drop 9, stop⟩ :=
      blockBody_single (by rintro (h | h) <;> cases h) rfl hreturn rfl rfl
    rw [bind_ok hbody] at hfirst
    have hf : Lexeme.KeptAs ⟨.identifier, "f"⟩ (.name "f") := kept_of_word rfl rfl
    have hcall : expression 63 ⟨(parameterRow place w).drop 13, stop⟩ =
        .ok (.call "f" [.number 7 (place 15)] (place 13)) ⟨[], stop⟩ :=
      expression_called (t := ⟨⟨.identifier, "f"⟩, place 13⟩) hf
        (arguments_single (by nofun) (expression_of_numeral rfl rfl 61) rfl) (EndsRow.stops (.inr rfl)) (by nofun)
    have hsecond : statement maxNesting ⟨(parameterRow place w).drop 10, stop⟩ =
        .ok (.var "probe" (some (.call "f" [.number 7 (place 15)] (place 13)))) ⟨[], stop⟩ :=
      statement_declared hcall rfl
    exact .statement nofun hfirst (.statement nofun hsecond (.stop rfl))
  · obtain ⟨e, d, hword⟩ : ∃ e d, expression 62 ⟨(parameterRow place w).drop 7, stop⟩ = .error e d :=
      expression_of_not (t := ⟨⟨.identifier, w⟩, place 7⟩) hnot (.inr rfl) 60
    rw [bind_error hword] at hreturn
    rw [bind_error (blockBody_error (by rintro (h | h) <;> cases h) rfl hreturn)] at hfirst
    obtain ⟨ss, es, hrest⟩ := exists_finds maxNesting (resume d)
    exact ⟨ss, e, es, .error nofun hfirst hrest⟩

end

/-- What is found in the tokens of a source decides whether it is accepted. -/
theorem source_of_finds {source : String} {c : Cursor} {p : Program} {b : Bool}
    (hc : Cursor.ofTokens (tokens source) = c)
    (h : (b = false → Finds maxNesting c p []) ∧ (b → ∃ ss e es, Finds maxNesting c ss (e :: es))) :
    (b = false → Parse.source source = .ok p) ∧ (b → ∃ e, Parse.source source = .error e) := by
  subst hc
  refine ⟨fun hb => (program_of_accepted (h.1 hb)).1, fun hb => ?_⟩
  obtain ⟨ss, e, es, hfinds⟩ := h.2 hb
  exact ⟨e, (program_of_rejected hfinds).1⟩

theorem source_variable {w : String} (h : IsIdentifier w) : ∃ place : Nat → Position,
    (sameWord w "not" = false → Parse.source (variableText w) = .ok (variableProgram place w)) ∧
      (sameWord w "not" → ∃ e, Parse.source (variableText w) = .error e) := by
  obtain ⟨place, hplace⟩ := exists_places (variableText w)
  rw [lexemes_variable h] at hplace
  have hrow : Cursor.ofTokens (tokens (variableText w)) = ⟨variableRow place w, place 13⟩ := by
    rw [hplace]
    rfl
  exact ⟨place, source_of_finds hrow (finds_variable place w (place 13))⟩

theorem source_parameter {w : String} (h : IsIdentifier w) : ∃ place : Nat → Position,
    (sameWord w "not" = false → Parse.source (parameterText w) = .ok (parameterProgram place w)) ∧
      (sameWord w "not" → ∃ e, Parse.source (parameterText w) = .error e) := by
  obtain ⟨place, hplace⟩ := exists_places (parameterText w)
  rw [lexemes_parameter h] at hplace
  have hrow : Cursor.ofTokens (tokens (parameterText w)) = ⟨parameterRow place w, place 17⟩ := by
    rw [hplace]
    rfl
  exact ⟨place, source_of_finds hrow (finds_parameter place w (place 17))⟩

end Parse

end StrategyScript
