/-
Runs do not look at positions. A session holds positions only inside the declarations of its
functions; moving them there and in the program alike moves them in what the run leaves behind, and
moves the line of an error, and nothing else happens. So programs that are the same but for positions
do the same, and the layout of a source never changes what it means.
-/
import StrategyScript.Proofs.Run.Fuel
import StrategyScript.Proofs.Scope.Forest
import StrategyScript.Proofs.Parse.Layout

namespace StrategyScript

open Eval

/-! ## Sessions with their positions moved -/

section

variable (ρ : Relocation)

namespace Value

theorem relocateFields_insertAbove {bound : Option String} (d : Dictionary Value bound) (key : String) (value : Value)
    (above : ∀ k ∈ bound, k < key) :
    relocateFields ρ (d.insertAbove key value above) = (relocateFields ρ d).insertAbove key (value.relocate ρ) above := by
  induction d with
  | nil => rfl
  | cons k v hk d ih =>
    simp only [relocateFields, Dictionary.insertAbove]
    split
    · rfl
    · split
      · rfl
      · rw [relocateFields, ih]

theorem relocateFields_insert (d : Dictionary Value) (key : String) (value : Value) :
    relocateFields ρ (d.insert key value) = (relocateFields ρ d).insert key (value.relocate ρ) :=
  relocateFields_insertAbove ρ d key value (Dictionary.above_none key)

theorem contains_relocateFields (d : Dictionary Value) (key : String) :
    (relocateFields ρ d).contains key = d.contains key := by
  unfold Dictionary.contains
  rw [get?_relocateFields, Option.isSome_map]

theorem relocateFields_lower {bound : Option String} {key : String} (above : ∀ k ∈ bound, k < key)
    (d : Dictionary Value (some key)) : relocateFields ρ (d.lower above) = (relocateFields ρ d).lower above := by
  cases d <;> rfl

theorem filter_relocateFields {bound : Option String} (d : Dictionary Value bound) (p : ValueKind → Bool) :
    (relocateFields ρ d).filter (fun (_, v) => p v.kind) = relocateFields ρ (d.filter fun (_, v) => p v.kind) := by
  induction d with
  | nil => rfl
  | cons k v hk d ih =>
    simp only [relocateFields, Dictionary.filter, kind_relocate]
    split
    · rw [relocateFields, ih]
    · rw [relocateFields_lower, ih]

end Value

theorem bindParameters_relocate (ps : List String) (args : List Value) (d : Dictionary Value) :
    bindParameters ps (args.map (Value.relocate ρ)) (Value.relocateFields ρ d) =
      Value.relocateFields ρ (bindParameters ps args d) := by
  induction ps generalizing args d with
  | nil => rfl
  | cons p ps ih =>
    cases args with
    | nil =>
      rw [List.map_nil, bindParameters, bindParameters, ← ih, Value.relocateFields_insert]
      rfl
    | cons a args => rw [List.map_cons, bindParameters, bindParameters, ← ih, Value.relocateFields_insert]

namespace Forest

def relocate (f : Forest) : Forest :=
  ⟨f.scopes.map fun s => { s with bindings := Value.relocateFields ρ s.bindings }⟩

theorem size_relocate (f : Forest) : (f.relocate ρ).size = f.size := Array.size_map ..

theorem bindings_relocate (f : Forest) (i : ScopeId) :
    (f.relocate ρ).bindings i = Value.relocateFields ρ (f.bindings i) := by
  unfold bindings scope? relocate
  rw [Array.getElem?_map]
  cases f.scopes[i]? <;> rfl

theorem chain_relocate (f : Forest) (i : ScopeId) : (f.relocate ρ).chain i = f.chain i := by
  unfold chain scope? relocate
  rw [Array.getElem?_map]
  cases f.scopes[i]? <;> rfl

theorem resolve_relocate (f : Forest) (i : ScopeId) (x : String) :
    (f.relocate ρ).resolve i x = f.resolve i x := by
  unfold resolve
  simp only [chain_relocate, bindings_relocate, Value.contains_relocateFields]

theorem lookup_relocate (f : Forest) (i : ScopeId) (x : String) :
    (f.relocate ρ).lookup i x = (f.lookup i x).map (Value.relocate ρ) := by
  unfold lookup
  rw [resolve_relocate]
  cases f.resolve i x with
  | none => rfl
  | some j => simp only [Option.bind_some, bindings_relocate, Value.get?_relocateFields]

theorem addChild_relocate (f : Forest) (parent : ScopeId) (bindings : Dictionary Value) :
    (f.relocate ρ).addChild parent (Value.relocateFields ρ bindings) = (f.addChild parent bindings).relocate ρ := by
  unfold addChild
  rw [chain_relocate]
  simp only [relocate, Array.map_push]

theorem define_relocate (f : Forest) (i : ScopeId) (x : String) (v : Value) :
    (f.relocate ρ).define i x (v.relocate ρ) = (f.define i x v).relocate ρ := by
  unfold define relocate
  congr 1
  refine Array.ext_getElem? fun j => ?_
  simp only [Array.getElem?_modify, Array.getElem?_map]
  split
  · cases f.scopes[j]? with
    | none => rfl
    | some s => simp only [Option.map_some, Value.relocateFields_insert]
  · rfl

end Forest

/-- The positions inside a session are those of its functions. -/
def Session.relocate (s : Session) : Session := { s with scopes := s.scopes.relocate ρ }

/-- The second computation ends as the first does, with everything moved. -/
def Outcome.MovesTo {α β : Type} (R : α → β → Prop) : Outcome α → Outcome β → Prop
  | .done a s, o => ∃ b, o = .done b (s.relocate ρ) ∧ R a b
  | .failed e s, o => o = .failed (e.relocate ρ) (s.relocate ρ)
  | .unfinished s, o => o = .unfinished (s.relocate ρ)

variable {ρ}

theorem Outcome.movesTo_restoring {α β : Type} {R : α → β → Prop} {o : Outcome α} {o' : Outcome β}
    (h : o.MovesTo ρ R o') (current : ScopeId) (adjust : Nat → Nat) :
    (restoring current adjust o).MovesTo ρ R (restoring current adjust o') := by
  cases o with
  | done a s => obtain ⟨b, rfl, hab⟩ := h; exact ⟨b, rfl, hab⟩
  | failed e s => rw [show o' = _ from h]; rfl
  | unfinished s => rw [show o' = _ from h]; rfl

/-- A step that gives a result on both sides. -/
theorem Outcome.movesTo_done {α β : Type} {R : α → β → Prop} {a : α} {b : β} {s t : Session} (hab : R a b)
    (ht : t = s.relocate ρ) : (Outcome.done a s).MovesTo ρ R (.done b t) := ⟨b, by rw [ht], hab⟩

end

/-! ## Runs -/

/-- The tree moved on the right, in a session that is moved alike. -/
def moved (ρ : Relocation) : Simulation where
  moves := ρ
  slack := 0
  allows _ := True
  fits _ := True
  Rel R m n := ∀ s, (m s).MovesTo ρ R (n (s.relocate ρ))
  fits_plain _ _ := trivial
  fits_at _ _ := trivial
  allows_decl _ _ _ := trivial
  pure h s := ⟨_, rfl, h⟩
  bind {α β γ δ R T m n f g} h hf s := by
    have h := h s
    cases hm : m s with
    | done a t =>
      rw [hm] at h
      obtain ⟨b, hn, hab⟩ := h
      rw [bind_done f hm, bind_done g hn]
      exact hf a b hab t
    | failed e t =>
      rw [hm] at h
      rw [bind_failed f hm, bind_failed g h]
      rfl
    | unfinished t =>
      rw [hm] at h
      rw [bind_unfinished f hm, bind_unfinished g h]
      rfl
  outOfFuel h s := by rw [h rfl]; rfl
  fault s := rfl
  tick s := by
    -- the budget is no matter of positions: both sides have it left or neither has
    by_cases hb : s.limits.Affords (s.steps + 1)
    · rw [tick_within hb, tick_within (s := s.relocate ρ) hb]
      exact ⟨(), rfl, rfl⟩
    · obtain ⟨limit, hl, hlt⟩ := Limits.not_affords hb
      rw [tick_beyond hl hlt, tick_beyond (s := s.relocate ρ) hl hlt]
      rfl
  lookup {x line} _ s := by
    rw [lookup_eq, lookup_eq, Session.relocate, Forest.lookup_relocate]
    cases s.scopes.lookup s.current x with
    | some v => exact ⟨_, rfl, trivial, rfl⟩
    | none => rfl
  assign {x v line} _ _ s := by
    simp only [Eval.assign, Session.relocate, Forest.resolve_relocate]
    cases s.scopes.resolve s.current x with
    | some owner => exact Outcome.movesTo_done rfl (by rw [Forest.define_relocate]; rfl)
    | none => rfl
  define _ _ s := Outcome.movesTo_done rfl (by rw [Session.relocate, Forest.define_relocate]; rfl)
  newFunction decl _ s := Outcome.movesTo_done ⟨trivial, rfl⟩ rfl
  inBlock {α β R m n} h s := by
    have h := h { s with scopes := s.scopes.addChild s.current [], current := s.scopes.size }
    simp only [Eval.inBlock, Session.relocate, Forest.size_relocate] at h ⊢
    rw [← Forest.addChild_relocate] at h
    exact Outcome.movesTo_restoring h _ _
  inCall {α β R m n f args} line _ _ h s := by
    rw [call_eq, call_eq]
    by_cases hdepth : s.limits.maxCallDepth ≤ s.depth
    · rw [if_pos hdepth, if_pos (show (s.relocate ρ).limits.maxCallDepth ≤ (s.relocate ρ).depth from hdepth)]
      rfl
    · rw [if_neg hdepth, if_neg (show ¬ (s.relocate ρ).limits.maxCallDepth ≤ (s.relocate ρ).depth from hdepth)]
      have h := h { s with
        scopes := s.scopes.addChild f.closure (bindParameters f.decl.params args []), current := s.scopes.size,
        depth := s.depth + 1 }
      simp only [Eval.inCall, Session.relocate, Forest.size_relocate] at h ⊢
      rw [← Forest.addChild_relocate, ← bindParameters_relocate] at h
      exact Outcome.movesTo_restoring h _ _
  trade s := ⟨(), rfl, rfl⟩
  callBuiltin {b args line} _ _ s := by
    simp only [Eval.callBuiltin, Session.relocate, Builtin.apply_relocate_args]
    cases h : b.apply s.market s.trades args with
    | ok r =>
      obtain ⟨v, log⟩ := r
      exact Outcome.movesTo_done ⟨trivial, ((Builtin.apply_data h).relocate_eq ρ).symm⟩ rfl
    | error fault => rfl

def Ending.relocate (ρ : Relocation) : Ending → Ending
  | .failure e => .failure (e.relocate ρ)
  | e => e

namespace Session

/-- The run of a moved program in a moved session is the moved run. -/
theorem run_relocate (ρ : Relocation) (s : Session) (fuel : Nat) (p : Program) (market : Market) :
    (s.relocate ρ).run fuel (Stmt.relocateAll ρ p) market =
      ((s.run fuel p market).1.relocate ρ, (s.run fuel p market).2.relocate ρ) := by
  have hmoves : (executeProgram fuel p (s.prepare market)).MovesTo ρ Eq
      (executeProgram fuel (Stmt.relocateAll ρ p) ((s.relocate ρ).prepare market)) :=
    (moved ρ).keeps_program fuel p (fun _ _ => trivial) (s.prepare market)
  rw [run_eq, run_eq]
  cases ho : executeProgram fuel p (s.prepare market) with
  | done a t =>
    rw [ho] at hmoves
    obtain ⟨b, hb, -⟩ := hmoves
    rw [hb]
    rfl
  | failed e t =>
    rw [ho] at hmoves
    rw [show executeProgram fuel _ _ = _ from hmoves]
    rfl
  | unfinished t =>
    rw [ho] at hmoves
    rw [show executeProgram fuel _ _ = _ from hmoves]
    rfl

theorem globals_relocate (ρ : Relocation) (s : Session) :
    (s.relocate ρ).globals = Value.relocateFields ρ s.globals := by
  unfold globals relocate
  rw [Forest.bindings_relocate]
  exact Value.filter_relocateFields ρ _ fun k => k != .builtin

/-- Programs that are the same but for positions end alike, and leave sessions behind that are the
same but for positions. -/
theorem ends_of_alike {p q : Program} (hpq : Stmt.relocateAll .erase p = Stmt.relocateAll .erase q) {s t : Session}
    {market : Market} {e : Ending} (h : s.Ends p market e t) :
    ∃ f u, s.Ends q market f u ∧ f.relocate .erase = e.relocate .erase ∧ u.relocate .erase = t.relocate .erase := by
  obtain ⟨he, fuel, hrun⟩ := h
  have hp := run_relocate .erase s fuel p market
  rw [hpq, run_relocate .erase s fuel q market, hrun] at hp
  generalize hq : s.run fuel q market = r at hp
  obtain ⟨f, u⟩ := r
  obtain ⟨hending, hsession⟩ := Prod.mk.inj hp
  refine ⟨f, u, ⟨?_, fuel, hq⟩, hending, hsession⟩
  rintro rfl
  refine he ?_
  cases e with
  | unfinished => rfl
  | success | failure _ => cases hending

end Session

/-- Layout never changes meaning. Sources whose tokens say the same are the same program but for
positions, or fail with one message at one token; and programs that are the same but for positions
make the same trades, leave the same globals behind, and fail with the same error on another line. -/
theorem layout_has_no_meaning :
    (∀ source source' : String,
      (Lexer.tokens source).map Token.toLexeme = (Lexer.tokens source').map Token.toLexeme →
      (∃ p q, Parse.source source = .ok p ∧ Parse.source source' = .ok q ∧
          Stmt.relocateAll .erase p = Stmt.relocateAll .erase q) ∨
        ∃ e f, Parse.source source = .error e ∧ Parse.source source' = .error f ∧ e.message = f.message ∧
          Parse.SameIndex (Lexer.tokens source) (Lexer.tokens source') e.position f.position) ∧
    ∀ p q : Program, Stmt.relocateAll .erase p = Stmt.relocateAll .erase q →
      ∀ (s t : Session) (market : Market) (e : Ending), s.Ends p market e t →
        ∃ f u, s.Ends q market f u ∧ f.relocate .erase = e.relocate .erase ∧ u.trades = t.trades ∧
          Value.relocateFields .erase u.globals = Value.relocateFields .erase t.globals := by
  refine ⟨fun source source' h => Parse.source_alike h, fun p q hpq s t market e h => ?_⟩
  obtain ⟨f, u, hu, hf, hs⟩ := Session.ends_of_alike hpq h
  refine ⟨f, u, hu, hf, ?_, ?_⟩
  · show (u.relocate .erase).trades = (t.relocate .erase).trades
    rw [hs]
  · rw [← Session.globals_relocate, ← Session.globals_relocate, hs]

/-- A space before a parenthesis, and a `return` on another line. -/
theorem space_and_line_have_no_meaning :
    (Lexer.tokens "(;").map Token.toLexeme = (Lexer.tokens " (  ;").map Token.toLexeme ∧
      ((∃ p q, Parse.source "(;" = .ok p ∧ Parse.source " (  ;" = .ok q ∧
          Stmt.relocateAll .erase p = Stmt.relocateAll .erase q) ∨
        ∃ e f, Parse.source "(;" = .error e ∧ Parse.source " (  ;" = .error f ∧ e.message = f.message ∧
          Parse.SameIndex (Lexer.tokens "(;") (Lexer.tokens " (  ;") e.position f.position) ∧
      Stmt.relocateAll .erase [.ret none 1] = Stmt.relocateAll .erase [.ret none 7] ∧
      ∃ f u, (Session.new {}).Ends [.ret none 7] .empty f u ∧
        f.relocate .erase = .failure (.fault .returnOutsideFunction 0) := by
  have htokens : (Lexer.tokens "(;").map Token.toLexeme = (Lexer.tokens " (  ;").map Token.toLexeme := by decide
  have herase : Stmt.relocateAll .erase [.ret none 1] = Stmt.relocateAll .erase [.ret none 7] := rfl
  have hends : (Session.new {}).Ends [.ret none 1] .empty (.failure (.fault .returnOutsideFunction 1))
      ((Session.new {}).run 5 [.ret none 1] .empty).2 := ⟨nofun, 5, rfl⟩
  obtain ⟨f, u, hu, hf, -⟩ := layout_has_no_meaning.2 _ _ herase _ _ _ _ hends
  exact ⟨htokens, layout_has_no_meaning.1 _ _ htokens, herase, f, u, hu, hf⟩

end StrategyScript
