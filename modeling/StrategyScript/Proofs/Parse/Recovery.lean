/-
Reading on after errors. The two readers of a row, one that stops at the first error and one that goes
on, make their way statement by statement. `Finds` says what there is to be found on that way, without
loops and bounds; what the two readers give is read off it. So they accept the same rows with the same
programs, and the error of the first is the first error of the second.

Where reading resumes, nothing is left of what was before: the errors behind the first one are those of
the row that begins there.
-/
import StrategyScript.Proofs.Parse.WalkStmt
import StrategyScript.Proofs.Parse.Place
import StrategyScript.Run.Script

namespace StrategyScript

namespace Parser

variable {α : Type} {step : α → Parser (Option α)} {a : α} {c d : Cursor}

theorem iterate_stop (hs : step a c = .ok none d) : iterate step a c = .ok a d := by
  unfold iterate iterateWithin
  rw [hs]

theorem iterate_fail {e : ParseError} (hs : step a c = .error e d) : iterate step a c = .error e d := by
  unfold iterate iterateWithin
  rw [hs]

end Parser

namespace Parse

open StrategyScript.Parser

/-! ## Resuming -/

theorem resumeAfter_suffix (last : Token) (ts : List Token) : resumeAfter last ts <:+ ts := by
  induction ts generalizing last with
  | nil => exact List.suffix_refl []
  | cons t ts ih =>
    unfold resumeAfter
    split
    · exact List.suffix_refl _
    · exact (ih t).trans (List.suffix_cons t ts)

/-- Resuming passes over a token at least, as long as there is one. -/
theorem resume_passes (c : Cursor) : ∃ ts, c.Passes ts (resume c) ∧ (c.rest ≠ [] → ts ≠ []) := by
  obtain ⟨_ | ⟨t, rest⟩, stop⟩ := c
  · exact ⟨[], .refl _, fun h => absurd rfl h⟩
  · obtain ⟨us, hus⟩ := resumeAfter_suffix t rest
    refine ⟨t :: us, ⟨?_, rfl⟩, fun _ => List.cons_ne_nil t us⟩
    show t :: rest = t :: us ++ resumeAfter t rest
    rw [List.cons_append, hus]

/-! ## What there is to be found -/

/-- From `c` on there are the statements `ss` and the errors `es`, both in the order of the row; behind an
error, the way goes on where reading resumes. -/
inductive Finds (levels : Nat) : Cursor → List Stmt → List ParseError → Prop
  | stop {c : Cursor} (hend : (c.skip isTerminator).peek.kind = .endOfInput) : Finds levels c [] []
  | statement {c d : Cursor} {s : Stmt} {ss : List Stmt} {es : List ParseError}
      (hgo : (c.skip isTerminator).peek.kind ≠ .endOfInput)
      (hs : Parse.statement levels (c.skip isTerminator) = .ok s d) (h : Finds levels d ss es) :
    Finds levels c (s :: ss) es
  | error {c d : Cursor} {e : ParseError} {ss : List Stmt} {es : List ParseError}
      (hgo : (c.skip isTerminator).peek.kind ≠ .endOfInput)
      (hs : Parse.statement levels (c.skip isTerminator) = .error e d) (h : Finds levels (resume d) ss es) :
    Finds levels c ss (e :: es)

section

variable {levels : Nat} {c d : Cursor} {s : Stmt} {e : ParseError} {ss : List Stmt} {es : List ParseError}

/-! ### One statement -/

theorem rest_ne_nil (hgo : (c.skip isTerminator).peek.kind ≠ .endOfInput) : c.rest ≠ [] := by
  intro hrest
  refine hgo (Cursor.peek_of_nil ?_)
  show c.rest.dropWhile _ = []
  rw [hrest, List.dropWhile_nil]

/-- The ends of statements before a statement are passed over as if they were part of it. -/
theorem statement_walked (levels : Nat) (c : Cursor) :
    (Parse.statement levels (c.skip isTerminator)).Walked c Stmt.ReadFrom := by
  obtain ⟨ts, hskip, htell⟩ := skipTerminators_keeps c
  refine (statement_walks levels (c.skip isTerminator)).extend hskip ?_
  rintro s us ⟨hne, hs⟩
  exact ⟨List.append_ne_nil_of_right_ne_nil ts hne, htell.append hs⟩

theorem statement_read (hs : Parse.statement levels (c.skip isTerminator) = .ok s d) :
    ∃ ts, c.Passes ts d ∧ s.ReadFrom ts := by
  have hwalk := statement_walked levels c
  rwa [hs] at hwalk

theorem statement_stopped (hs : Parse.statement levels (c.skip isTerminator) = .error e d) :
    ∃ ts, c.Passes ts d ∧ ∃ t ∈ ts ++ [d.peek], e.About t := by
  have hwalk := statement_walked levels c
  rwa [hs] at hwalk

theorem statement_shorter (hs : Parse.statement levels (c.skip isTerminator) = .ok s d) :
    d.rest.length < c.rest.length := by
  obtain ⟨ts, hd, hne, -⟩ := statement_read hs
  have hlength := hd.length
  have hpos := List.length_pos_of_ne_nil hne
  omega

/-- Where the statement stopped at the end of the row, it had read something to get there. -/
theorem resume_shorter (hgo : (c.skip isTerminator).peek.kind ≠ .endOfInput)
    (hs : Parse.statement levels (c.skip isTerminator) = .error e d) : (resume d).rest.length < c.rest.length := by
  obtain ⟨ts, hd, -⟩ := statement_stopped hs
  obtain ⟨us, hresume, hne⟩ := resume_passes d
  have hlength := hd.length
  have hresumed := hresume.length
  have hpos := List.length_pos_of_ne_nil (rest_ne_nil hgo)
  by_cases hend : d.rest = []
  · rw [hend, List.length_nil] at hresumed
    omega
  · have hus := List.length_pos_of_ne_nil (hne hend)
    omega

/-! ### The whole way -/

theorem exists_finds (levels : Nat) (c : Cursor) : ∃ ss es, Finds levels c ss es := by
  induction hn : c.rest.length using Nat.strong_induction_on generalizing c with
  | _ n ih =>
    by_cases hend : (c.skip isTerminator).peek.kind = .endOfInput
    · exact ⟨[], [], .stop hend⟩
    · cases hs : Parse.statement levels (c.skip isTerminator) with
      | ok s d =>
        obtain ⟨ss, es, h⟩ := ih _ (hn ▸ statement_shorter hs) d rfl
        exact ⟨s :: ss, es, .statement hend hs h⟩
      | error e d =>
        obtain ⟨ss, es, h⟩ := ih _ (hn ▸ resume_shorter hend hs) (resume d) rfl
        exact ⟨ss, e :: es, .error hend hs h⟩

/-- At the end of the row there is nothing to be found. -/
theorem Finds.at_end (h : Finds levels c ss es) (hrest : c.rest = []) : ss = [] ∧ es = [] := by
  cases h with
  | stop _ => exact ⟨rfl, rfl⟩
  | statement hgo _ _ | error hgo _ _ => exact absurd hrest (rest_ne_nil hgo)

/-! ## The reader that goes on -/

/-- Both readers pass over ends of statements first, and look at what stands behind them. -/
theorem skip_peek_run {α : Type} (f : Token → Parser α) :
    (do skipTerminators; f (← peek) : Parser α) c = f (c.skip isTerminator).peek (c.skip isTerminator) := rfl

theorem findings_stop {f : Findings} (hend : (c.skip isTerminator).peek.kind = .endOfInput) :
    Findings.step levels f c = .ok none (c.skip isTerminator) := by
  unfold Findings.step
  rw [skip_peek_run]
  exact congrFun (if_pos hend) (c.skip isTerminator)

theorem findings_go (hgo : (c.skip isTerminator).peek.kind ≠ .endOfInput) (f : Findings) :
    Findings.step levels f c =
      match Parse.statement levels (c.skip isTerminator) with
      | .ok s d => .ok (some { f with statements := s :: f.statements }) d
      | .error e d => .ok (some { f with errors := e :: f.errors }) (resume d) := by
  unfold Findings.step
  rw [skip_peek_run]
  exact congrFun (if_neg hgo) (c.skip isTerminator)

theorem findings_statement (hgo : (c.skip isTerminator).peek.kind ≠ .endOfInput)
    (hs : Parse.statement levels (c.skip isTerminator) = .ok s d) (f : Findings) :
    Findings.step levels f c = .ok (some { f with statements := s :: f.statements }) d := by
  rw [findings_go hgo, hs]

theorem findings_error (hgo : (c.skip isTerminator).peek.kind ≠ .endOfInput)
    (hs : Parse.statement levels (c.skip isTerminator) = .error e d) (f : Findings) :
    Findings.step levels f c = .ok (some { f with errors := e :: f.errors }) (resume d) := by
  rw [findings_go hgo, hs]

/-- Every round reads a statement or resumes behind an error, so every round reads a token. -/
theorem findings_ends (levels : Nat) : Ends (Findings.step levels) := by
  refine ends_of_reads ?_
  intro f c g d hround
  by_cases hend : (c.skip isTerminator).peek.kind = .endOfInput
  · rw [findings_stop hend] at hround
    cases hround
  · rw [findings_go hend] at hround
    cases hs : Parse.statement levels (c.skip isTerminator) with
    | ok s d' =>
      rw [hs] at hround
      cases hround
      exact statement_shorter hs
    | error e d' =>
      rw [hs] at hround
      cases hround
      exact resume_shorter hend hs

theorem Finds.findings (h : Finds levels c ss es) (f : Findings) :
    ∃ d, iterate (Findings.step levels) f c = .ok ⟨ss.reverse ++ f.statements, es.reverse ++ f.errors⟩ d := by
  induction h generalizing f with
  | stop hend => exact ⟨_, iterate_stop (findings_stop hend)⟩
  | statement hgo hs _ ih =>
    obtain ⟨d, hd⟩ := ih { f with statements := _ :: f.statements }
    refine ⟨d, ?_⟩
    rw [(findings_ends levels).iterate_go (findings_statement hgo hs f), hd]
    simp
  | error hgo hs _ ih =>
    obtain ⟨d, hd⟩ := ih { f with errors := _ :: f.errors }
    refine ⟨d, ?_⟩
    rw [(findings_ends levels).iterate_go (findings_error hgo hs f), hd]
    simp

/-- A reader comes to the first error, and goes on where it resumes, from where the other errors are found. -/
theorem Finds.first_error (h : Finds levels c ss (e :: es)) (f : Findings) :
    ∃ read b d ts, Reaches (Findings.step levels) f c { f with statements := read } b ∧
      Findings.step levels { f with statements := read } b = .ok (some ⟨read, e :: f.errors⟩) d ∧ c.Passes ts d := by
  generalize herrors : e :: es = errors at h
  induction h generalizing f with
  | stop _ => cases herrors
  | @error c d e' _ _ hgo hs _ _ =>
    cases herrors
    obtain ⟨ts, hd, -⟩ := statement_stopped hs
    obtain ⟨us, hresume, -⟩ := resume_passes d
    exact ⟨f.statements, c, resume d, _, .here, findings_error hgo hs f, hd.trans hresume⟩
  | @statement c d s _ _ hgo hs _ ih =>
    obtain ⟨read, b, d', ts, hreaches, hround, hd'⟩ := ih { f with statements := s :: f.statements } herrors
    obtain ⟨us, hd, -⟩ := statement_read hs
    exact ⟨read, b, d', _, .go (findings_statement hgo hs f) hreaches, hround, hd.trans hd'⟩

/-- What a round finds is the first of what there is to be found. -/
theorem Finds.round {f g : Findings} (h : Finds levels c ss es) (hround : Findings.step levels f c = .ok (some g) d) :
    ∃ more found others, Finds levels d more others ∧ es = found ++ others ∧ g.errors = found.reverse ++ f.errors := by
  cases h with
  | stop hend =>
    rw [findings_stop hend] at hround
    cases hround
  | @statement _ _ s ss es hgo hs h =>
    rw [findings_statement hgo hs] at hround
    cases hround
    exact ⟨ss, [], es, h, rfl, rfl⟩
  | @error _ _ e ss es hgo hs h =>
    rw [findings_error hgo hs] at hround
    cases hround
    exact ⟨ss, [e], es, h, rfl, rfl⟩

/-- What has been found up to some round, and what is to be found from there on, is all there is. -/
theorem Finds.reaches {f g : Findings} (h : Finds levels c ss es) (hreaches : Reaches (Findings.step levels) f c g d) :
    ∃ more found others, Finds levels d more others ∧ es = found ++ others ∧ g.errors = found.reverse ++ f.errors := by
  induction hreaches generalizing ss es with
  | here => exact ⟨ss, [], es, h, rfl, rfl⟩
  | go hround _ ih =>
    obtain ⟨_, found, _, hnext, rfl, hf⟩ := h.round hround
    obtain ⟨more, found', others, hothers, rfl, hg⟩ := ih hnext
    refine ⟨more, found ++ found', others, hothers, (List.append_assoc ..).symm, ?_⟩
    rw [hg, hf, List.reverse_append, List.append_assoc]

/-! ## The reader that stops at the first error -/

theorem nextStatement_stop {read : List Stmt} (hend : (c.skip isTerminator).peek.kind = .endOfInput) :
    nextStatement (fun k => k = .endOfInput) (Parse.statement levels) read c = .ok none (c.skip isTerminator) := by
  unfold nextStatement
  rw [skip_peek_run]
  dsimp only
  rw [if_pos hend]
  rfl

theorem nextStatement_go (hgo : (c.skip isTerminator).peek.kind ≠ .endOfInput) (read : List Stmt) :
    nextStatement (fun k => k = .endOfInput) (Parse.statement levels) read c =
      (do return some ((← Parse.statement levels) :: read) : Parser _) (c.skip isTerminator) := by
  unfold nextStatement
  rw [skip_peek_run]
  dsimp only
  rw [if_neg hgo]

theorem nextStatement_statement (hgo : (c.skip isTerminator).peek.kind ≠ .endOfInput)
    (hs : Parse.statement levels (c.skip isTerminator) = .ok s d) (read : List Stmt) :
    nextStatement (fun k => k = .endOfInput) (Parse.statement levels) read c = .ok (some (s :: read)) d := by
  rw [nextStatement_go hgo, bind_ok hs, pure_run]

theorem nextStatement_error (hgo : (c.skip isTerminator).peek.kind ≠ .endOfInput)
    (hs : Parse.statement levels (c.skip isTerminator) = .error e d) (read : List Stmt) :
    nextStatement (fun k => k = .endOfInput) (Parse.statement levels) read c = .error e d := by
  rw [nextStatement_go hgo, bind_error hs]

theorem nextStatement_ends (levels : Nat) :
    Ends (nextStatement (fun k => k = .endOfInput) (Parse.statement levels)) :=
  (nextStatement_adds (statement_walks levels)).ends

theorem Finds.accepted (h : Finds levels c ss []) : ∃ d, statements levels c = .ok ss d := by
  have hloop : ∀ read, ∃ d, iterate (nextStatement (fun k => k = .endOfInput) (Parse.statement levels)) read c =
      .ok (ss.reverse ++ read) d := by
    generalize herrors : ([] : List ParseError) = errors at h
    induction h with
    | stop hend => exact fun read => ⟨_, iterate_stop (nextStatement_stop hend)⟩
    | error _ _ _ _ => cases herrors
    | @statement c d s _ _ hgo hs _ ih =>
      intro read
      obtain ⟨d, hd⟩ := ih herrors (s :: read)
      refine ⟨d, ?_⟩
      rw [(nextStatement_ends levels).iterate_go (nextStatement_statement hgo hs read), hd]
      simp
  obtain ⟨d, hd⟩ := hloop []
  refine ⟨d, ?_⟩
  rw [statements_eq, bind_ok hd, pure_run]
  simp

theorem Finds.rejected (h : Finds levels c ss (e :: es)) : ∃ d, statements levels c = .error e d := by
  have hloop : ∀ read, ∃ d,
      iterate (nextStatement (fun k => k = .endOfInput) (Parse.statement levels)) read c = .error e d := by
    generalize herrors : e :: es = errors at h
    induction h with
    | stop _ => cases herrors
    | @error c d e' _ _ hgo hs _ _ =>
      cases herrors
      exact fun read => ⟨_, iterate_fail (nextStatement_error hgo hs read)⟩
    | @statement c d s _ _ hgo hs _ ih =>
      intro read
      obtain ⟨d, hd⟩ := ih herrors (s :: read)
      refine ⟨d, ?_⟩
      rw [(nextStatement_ends levels).iterate_go (nextStatement_statement hgo hs read), hd]
  obtain ⟨d, hd⟩ := hloop []
  refine ⟨d, ?_⟩
  rw [statements_eq, bind_error hd]

end

/-! ## Both readers -/

section

variable {tokens : List Token} {p : Program} {ss : List Stmt} {e : ParseError} {es : List ParseError}

theorem program_of_accepted (h : Finds maxNesting (.ofTokens tokens) p []) :
    program tokens = .ok p ∧ programOrErrors tokens = .ok p := by
  obtain ⟨d, hd⟩ := h.accepted
  obtain ⟨d', hd'⟩ := h.findings ⟨[], []⟩
  unfold program programOrErrors
  rw [hd, hd']
  simp

theorem program_of_rejected (h : Finds maxNesting (.ofTokens tokens) ss (e :: es)) :
    program tokens = .error e ∧ programOrErrors tokens = .error (e :: es) := by
  obtain ⟨d, hd⟩ := h.rejected
  obtain ⟨d', hd'⟩ := h.findings ⟨[], []⟩
  unfold program programOrErrors
  rw [hd, hd']
  refine ⟨rfl, ?_⟩
  have hne : (e :: es).reverse ++ [] ≠ [] := by simp
  generalize hfound : (e :: es).reverse ++ [] = found at hne
  cases found with
  | nil => exact absurd rfl hne
  | cons g found =>
    simp only
    rw [← hfound]
    simp

theorem finds_of_ok (h : program tokens = .ok p) : Finds maxNesting (.ofTokens tokens) p [] := by
  obtain ⟨ss, _ | ⟨e, es⟩, hfinds⟩ := exists_finds maxNesting (.ofTokens tokens)
  · rw [(program_of_accepted hfinds).1] at h
    cases h
    exact hfinds
  · rw [(program_of_rejected hfinds).1] at h
    cases h

theorem finds_of_error (h : program tokens = .error e) : ∃ ss es, Finds maxNesting (.ofTokens tokens) ss (e :: es) := by
  obtain ⟨ss, _ | ⟨e', es⟩, hfinds⟩ := exists_finds maxNesting (.ofTokens tokens)
  · rw [(program_of_accepted hfinds).1] at h
    cases h
  · rw [(program_of_rejected hfinds).1] at h
    cases h
    exact ⟨ss, es, hfinds⟩

theorem finds_of_errors (h : programOrErrors tokens = .error es) :
    es ≠ [] ∧ ∃ ss, Finds maxNesting (.ofTokens tokens) ss es := by
  obtain ⟨ss, _ | ⟨e, others⟩, hfinds⟩ := exists_finds maxNesting (.ofTokens tokens)
  · rw [(program_of_accepted hfinds).2] at h
    cases h
  · rw [(program_of_rejected hfinds).2] at h
    cases h
    exact ⟨List.cons_ne_nil e others, ss, hfinds⟩

/-- Both readers accept the same rows with the same programs, and the one that stops at an error stops at the
first of those that the other one reports. So a script has nothing to be reported exactly if it can be read,
and what a run of it reports is the first of its reports. -/
theorem readers_agree (tokens : List Token) :
    (∀ p, program tokens = .ok p ↔ programOrErrors tokens = .ok p) ∧
    (∀ e, program tokens = .error e ↔ ∃ es, programOrErrors tokens = .error (e :: es)) ∧
    ∀ text, (Script.check text = [] ↔ ∃ p, source text = .ok p) ∧
      ∀ fuel market limits e, Script.run fuel text market limits = .syntaxError e ↔ (Script.check text).head? = some e := by
  refine ⟨?_, ?_, ?_⟩
  · intro p
    obtain ⟨ss, _ | ⟨e, es⟩, hfinds⟩ := exists_finds maxNesting (.ofTokens tokens)
    · obtain ⟨hfirst, hall⟩ := program_of_accepted hfinds
      rw [hfirst, hall]
      simp
    · obtain ⟨hfirst, hall⟩ := program_of_rejected hfinds
      rw [hfirst, hall]
      simp
  · intro e
    obtain ⟨ss, _ | ⟨e', es⟩, hfinds⟩ := exists_finds maxNesting (.ofTokens tokens)
    · obtain ⟨hfirst, hall⟩ := program_of_accepted hfinds
      rw [hfirst, hall]
      simp
    · obtain ⟨hfirst, hall⟩ := program_of_rejected hfinds
      rw [hfirst, hall]
      simp [eq_comm]
  · intro text
    unfold Script.check Script.run source
    obtain ⟨ss, _ | ⟨e', es⟩, hfinds⟩ := exists_finds maxNesting (.ofTokens (Lexer.tokens text))
    · obtain ⟨hfirst, hall⟩ := program_of_accepted hfinds
      rw [hfirst, hall]
      refine ⟨by simp, ?_⟩
      intro fuel market limits e
      dsimp only
      split <;> simp
    · obtain ⟨hfirst, hall⟩ := program_of_rejected hfinds
      rw [hfirst, hall]
      simp

/-- A reader has come to the error `e` first, and goes on at index `j`. -/
def ResumesAt (tokens : List Token) (e : ParseError) (j : Nat) : Prop :=
  ∃ read b d, Reaches (Findings.step maxNesting) ⟨[], []⟩ (.ofTokens tokens) ⟨read, []⟩ b ∧
    Findings.step maxNesting ⟨read, []⟩ b = .ok (some ⟨read, [e]⟩) d ∧ d.At tokens j

/-- Behind the first error, the errors of a row are those of the row that begins where reading resumes, as
if nothing had been before. -/
theorem errors_behind_first (h : programOrErrors tokens = .error (e :: es)) :
    (∃ j, ResumesAt tokens e j) ∧ ∀ j, ResumesAt tokens e j →
      (es = [] ∧ ∃ p, programOrErrors (tokens.drop j) = .ok p) ∨
        (es ≠ [] ∧ programOrErrors (tokens.drop j) = .error es) := by
  obtain ⟨-, ss, hfinds⟩ := finds_of_errors h
  constructor
  · obtain ⟨read, b, d, ts, hreaches, hround, hpasses⟩ := hfinds.first_error ⟨[], []⟩
    exact ⟨ts.length, read, b, d, hreaches, hround, .of_passes hpasses⟩
  · rintro j ⟨read, b, d, hreaches, hround, hat⟩
    -- no error has been found up to the round at `b`, and `e` in that round
    obtain ⟨_, found, _, hb, hes, hnone⟩ := hfinds.reaches hreaches
    obtain rfl : found = [] := by simpa using hnone.symm
    obtain ⟨more, found, others, hd, rfl, hone⟩ := hb.round hround
    obtain rfl : found = [e] := by simpa [List.reverse_eq_cons_iff] using hone.symm
    obtain rfl : es = others := by simpa using hes
    -- what is found from the cursor there is found in the row that begins there
    have hfresh : Finds maxNesting (.ofTokens (tokens.drop j)) more es := by
      rcases hat.drop with hsame | ⟨hnil, hrest⟩
      · rw [hsame]
        exact hd
      · obtain ⟨rfl, rfl⟩ := hd.at_end hrest
        rw [hnil]
        exact .stop rfl
    cases es with
    | nil => exact .inl ⟨rfl, more, (program_of_accepted hfresh).2⟩
    | cons f es => exact .inr ⟨List.cons_ne_nil f es, (program_of_rejected hfresh).2⟩

/-- The first error stands in the middle of an expression; reading resumes behind the semicolon. -/
theorem second_assignment_resumes :
    let tokens := Lexer.tokens "a = (b = = 1); var c\n)"
    let first : ParseError := ⟨"unexpected token '='", ⟨1, 10⟩⟩
    let second : ParseError := ⟨"unexpected token ')'", ⟨2, 1⟩⟩
    programOrErrors tokens = .error [first, second] ∧ programOrErrors (tokens.drop 9) = .error [second] ∧
      (∃ j, ResumesAt tokens first j) ∧ ∀ j, ResumesAt tokens first j →
        ([second] = [] ∧ ∃ p, programOrErrors (tokens.drop j) = .ok p) ∨
          ([second] ≠ [] ∧ programOrErrors (tokens.drop j) = .error [second]) := by
  have herrors : programOrErrors (Lexer.tokens "a = (b = = 1); var c\n)") =
      .error [⟨"unexpected token '='", ⟨1, 10⟩⟩, ⟨"unexpected token ')'", ⟨2, 1⟩⟩] := rfl
  exact ⟨herrors, rfl, errors_behind_first herrors⟩

end

end Parse

end StrategyScript
