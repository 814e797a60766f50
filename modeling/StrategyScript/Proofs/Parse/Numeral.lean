/-
Complaints about numbers. The grammar complains of a number only if its text cannot be read, whatever the tokens are.
The numbers of a source are numerals, and those can all be read; so no error of a source is about a bad number.
-/
import StrategyScript.Proofs.Number.Numeral
import StrategyScript.Proofs.Parse.Caret
import StrategyScript.Proofs.Parse.Yield

namespace StrategyScript

open StrategyScript.Parser

/-! ## Complaints and their texts -/

namespace Parse

/-- The texts differ in a character that both of them have, whatever is behind it. -/
def Differ (s t : String) : Prop := ∃ (i : Nat) (x y : Char), s.toList[i]? = some x ∧ t.toList[i]? = some y ∧ x ≠ y

theorem Differ.append {s t : String} (h : Differ s t) (u : String) : Differ (s ++ u) t := by
  obtain ⟨i, x, y, hx, hy, hne⟩ := h
  obtain ⟨hi, -⟩ := List.getElem?_eq_some_iff.1 hx
  refine ⟨i, x, y, ?_, hy, hne⟩
  rw [String.toList_append, List.getElem?_append_left hi, hx]

theorem Differ.ne_append {s t : String} (h : Differ s t) (u : String) : s ≠ t ++ u := by
  rintro rfl
  obtain ⟨i, x, y, hx, hy, hne⟩ := h
  obtain ⟨hi, -⟩ := List.getElem?_eq_some_iff.1 hy
  rw [String.toList_append, List.getElem?_append_left hi, hy] at hx
  exact hne (Option.some.inj hx).symm

/-- No other complaint has the message of one about a number. -/
theorem Complaint.eq_badNumber {complaint : Complaint} {text : String}
    (h : complaint.message = (badNumber text).message) : complaint = .badNumber text := by
  suffices hother : (∃ given, complaint = .badNumber given) ∨ Differ complaint.message "invalid number: " by
    obtain ⟨given, rfl⟩ | hother := hother
    · exact congrArg badNumber ((String.append_right_inj _).1 h)
    · exact absurd h (hother.ne_append text)
  cases complaint with
  | badNumber given => exact .inl ⟨given, rfl⟩
  | expected what found =>
    have hfront : Differ "expected " "invalid number: " := ⟨0, 'e', 'i', rfl, rfl, by decide⟩
    exact .inr (((hfront.append _).append _).append _)
  | unended found => exact .inr (.append ⟨0, 'e', 'i', rfl, rfl, by decide⟩ _)
  | unexpected found => exact .inr (.append ⟨0, 'u', 'i', rfl, rfl, by decide⟩ _)
  | tooDeep what => cases what with
    | statement => exact .inr (.append ⟨0, 's', 'i', rfl, rfl, by decide⟩ _)
    | expression => exact .inr (.append ⟨0, 'e', 'i', rfl, rfl, by decide⟩ _)
  | badAssignment => exact .inr ⟨8, 'a', 'n', rfl, rfl, by decide⟩
  | badCall => exact .inr ⟨8, 'f', 'n', rfl, rfl, by decide⟩
  | tooManyTradeArguments => exact .inr ⟨8, 't', 'n', rfl, rfl, by decide⟩
  | badTradeArguments fault => exact .inr (.append ⟨8, 't', 'n', rfl, rfl, by decide⟩ _)

end Parse

/-- The error says that a number is bad. -/
def ParseError.OfNumber (e : ParseError) : Prop := ∃ text, e.message = (Parse.Complaint.badNumber text).message

/-- The error comes of a founded complaint. -/
def ParseError.Founded (e : ParseError) : Prop :=
  ∃ (complaint : Parse.Complaint) (p : Position), complaint.Founded ∧ e = ⟨complaint.message, p⟩

namespace Parse

/-! ## Statements -/

/-- Whatever the tokens are, the parser makes founded complaints only. -/
theorem statement_founded {levels : Nat} {c d : Cursor} {e : ParseError} (h : statement levels c = .error e d) :
    e.Founded := by
  have hended : Sides.same.Ended _ (statement levels c) (statement levels c) :=
    Sides.oneRow_same.statement (R := fun _ _ => True) (S := fun _ _ _ => True) (fun _ _ _ _ => trivial)
      (fun _ _ _ _ _ => trivial) levels (.of c)
  rw [h] at hended
  obtain ⟨complaint, t, -, hc, -, he, -⟩ := hended.of_error
  exact ⟨complaint, t.position, hc, he⟩

/-! ## Sources -/

theorem Finds.founded {levels : Nat} {c : Cursor} {ss : List Stmt} {es : List ParseError} (h : Finds levels c ss es) :
    ∀ e ∈ es, e.Founded := by
  induction h with
  | stop => nofun
  | statement _ _ _ ih => exact ih
  | @error c d e ss es _ hs _ ih =>
    exact List.forall_mem_cons.2 ⟨statement_founded hs, ih⟩

/-- Every number among the tokens of a source is a numeral. -/
theorem isNumeral_of_number {text : String} {t : Token} (ht : t ∈ Lexer.tokens text) (hk : t.kind = .number) :
    Number.IsNumeral t.text.toList := by
  have hend : t.kind ≠ .endOfInput := by
    rw [hk]
    nofun
  obtain ⟨_, cs, rest, -, -, hsays, -⟩ := (Lexer.cuts_tokens text).of_mem ht hend
  generalize t.toLexeme = l at *
  cases hsays with
  | numeral h => rwa [String.toList_ofList]
  | word => rcases Lexer.ofWord_kind (Text.lowercase (String.ofList cs)) with h | ⟨k, h⟩ <;> cases hk.symm.trans h
  | _ => cases hk

theorem founded_of_check {text : String} {e : ParseError} (he : e ∈ Script.check text) : e.Founded := by
  unfold Script.check at he
  split at he
  · cases he
  · rename_i es hes
    obtain ⟨-, ss, hfinds⟩ := finds_of_errors hes
    exact hfinds.founded e he

/-- An error is about a token of the source, so a number that it complains of is one that can be read. -/
theorem not_ofNumber_of_check {text : String} {e : ParseError} (he : e ∈ Script.check text) : ¬ e.OfNumber := by
  rintro ⟨given, hmessage⟩
  obtain ⟨complaint, p, hfounded, rfl⟩ := founded_of_check he
  obtain rfl : complaint = .badNumber given := complaint.eq_badNumber hmessage
  obtain ⟨t, ht, complaint, hconcerns, heq⟩ := Script.about_of_check he
  obtain rfl : complaint = .badNumber given := complaint.eq_badNumber (congrArg ParseError.message heq).symm
  obtain ⟨hk, rfl⟩ := hconcerns
  obtain ⟨fault, hfault⟩ := hfounded
  obtain ⟨x, hx, -⟩ := Number.readFloat_numeral (isNumeral_of_number ht hk)
  rw [hx] at hfault
  cases hfault

theorem mem_check_of_source {text : String} {e : ParseError} (h : source text = .error e) : e ∈ Script.check text := by
  obtain ⟨ss, es, hfinds⟩ := finds_of_error h
  unfold Script.check
  rw [(program_of_rejected hfinds).2]
  exact List.mem_cons_self

theorem source_of_run {fuel : Nat} {text : String} {market : Market} {limits : Limits} {e : ParseError}
    (h : Script.run fuel text market limits = .syntaxError e) : source text = .error e := by
  unfold Script.run at h
  split at h
  · cases h
    assumption
  · split at h <;> cases h

/-! ## Main statement -/

/-- Every number among the tokens of a source is digits, with a point among or behind them or without one, and reads as
a double that is not negative. So neither the reader of the source nor a check nor a run of it says that a number is
bad. -/
theorem numbers_always_read (text : String) :
    (∀ t ∈ Lexer.tokens text, t.kind = .number → Number.IsNumeral t.text.toList ∧
      ∃ x, Number.readFloat t.text = .ok x ∧ 0.0 ≤ x ∧ Number.isNegative x = false) ∧
    (∀ e, source text = .error e → ¬ e.OfNumber) ∧
    (∀ e ∈ Script.check text, ¬ e.OfNumber) ∧
    ∀ fuel market limits e, Script.run fuel text market limits = .syntaxError e → ¬ e.OfNumber := by
  refine ⟨fun t ht hk => ?_, fun e he => ?_, fun e he => not_ofNumber_of_check he, fun fuel market limits e he => ?_⟩
  · have hnumeral := isNumeral_of_number ht hk
    exact ⟨hnumeral, Number.readFloat_numeral hnumeral⟩
  · exact not_ofNumber_of_check (mem_check_of_source he)
  · exact not_ofNumber_of_check (mem_check_of_source (source_of_run he))

/-- In a row that no text has, a number can be bad. -/
example : program [⟨⟨.number, "1.5.25"⟩, ⟨1, 1⟩⟩] = .error ⟨"invalid number: 1.5.25", ⟨1, 1⟩⟩ := rfl

/-- A numeral that ends in its point, and one whose second point and what is behind it are no part of it. The error is
about what is behind. -/
theorem second_point_ends_numeral :
    let text := "var a = 7. + 1.5.25"
    let whole : Token := ⟨⟨.number, "7."⟩, ⟨1, 9⟩⟩
    let half : Token := ⟨⟨.number, "1.5"⟩, ⟨1, 14⟩⟩
    let e : ParseError := ⟨"expected newline or ';' after statement, found '25'", ⟨1, 18⟩⟩
    whole ∈ Lexer.tokens text ∧ half ∈ Lexer.tokens text ∧
      (∃ x, Number.readFloat "7." = .ok x ∧ 0.0 ≤ x) ∧ (∃ x, Number.readFloat "1.5" = .ok x ∧ 0.0 ≤ x) ∧
      source text = .error e ∧ ¬ e.OfNumber := by
  have he : source "var a = 7. + 1.5.25" =
      .error ⟨"expected newline or ';' after statement, found '25'", ⟨1, 18⟩⟩ := rfl
  intro text whole half e
  obtain ⟨hnumbers, hsource, -⟩ := numbers_always_read text
  have hwhole : whole ∈ Lexer.tokens text := by decide +kernel
  have hhalf : half ∈ Lexer.tokens text := by decide +kernel
  obtain ⟨-, x, hx, hzero, -⟩ := hnumbers whole hwhole rfl
  obtain ⟨-, y, hy, hzero', -⟩ := hnumbers half hhalf rfl
  exact ⟨hwhole, hhalf, ⟨x, hx, hzero⟩, ⟨y, hy, hzero'⟩, he, hsource e he⟩

end Parse

end StrategyScript
