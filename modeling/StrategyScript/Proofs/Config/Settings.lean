/-
A configuration that is in order does not fail later. The settings of a run are made from the same values
that are validated, so once they are well formed only a value that must be given can be missing; and
whatever limits are found leave room for a step and for a call.
-/
import StrategyScript.Config.Settings
import StrategyScript.Proofs.Fault
import Mathlib.Tactic

namespace StrategyScript.Config

variable {config : Option Document}

/-! ## Values that are read in a type -/

/-- Every value that a run reads as a number or as a truth value is one. -/
structure Document.Readable (d : Document) : Prop where
  maxSteps : ∃ n, d.count? "interpreter" "max_steps" = .ok n
  maxCallDepth : ∃ n, d.count? "interpreter" "max_call_depth" = .ok n
  printGlobals : ∃ b, d.bool? "output" "print_globals" = .ok b

theorem Document.readable_of_validate {d : Document} (h : d.validate = .ok ()) : d.Readable := by
  obtain ⟨steps, hsteps, h⟩ := bind_eq_ok h
  obtain ⟨_, hcheck, h⟩ := bind_eq_ok h
  obtain ⟨depth, hdepth, -⟩ := bind_eq_ok hcheck
  obtain ⟨globals, hglobals, -⟩ := bind_eq_ok h
  exact ⟨⟨steps, hsteps⟩, ⟨depth, hdepth⟩, ⟨globals, hglobals⟩⟩

theorem countIn_ok {s key : String} (h : ∀ d ∈ config, ∃ n, d.count? s key = .ok n) : ∃ n, countIn config s key = .ok n := by
  cases config with
  | none => exact ⟨none, rfl⟩
  | some d => exact h d rfl

theorem printsGlobals_ok (h : ∀ d ∈ config, d.Readable) (asked : Bool) : ∃ b, printsGlobals config asked = .ok b := by
  unfold printsGlobals
  cases config with
  | none => exact ⟨asked, rfl⟩
  | some d =>
    obtain ⟨b, hb⟩ := (h d rfl).printGlobals
    dsimp only
    rw [hb]
    cases asked with
    | true => exact ⟨true, rfl⟩
    | false => exact ⟨b.getD false, rfl⟩

/-! ## Limits -/

/-- The limits for a step budget and, where one is given, a depth of calls. -/
def limitsOf (steps : Nat) (depth : Option Nat) : Limits where
  maxSteps := if 0 < steps then some steps else none
  maxCallDepth := (depth.map (max · 1)).getD defaultCallDepth

/-- The step budget; the configuration is asked only where the command line gives none. -/
def stepBudget (config : Option Document) : Option Nat → Except ConfigFault Nat
  | some n => .ok n
  | none => do return (← countIn config "interpreter" "max_steps").getD 0

theorem limits_eq (config : Option Document) (maxSteps : Option Nat) :
    limits config maxSteps = (do
      let steps ← stepBudget config maxSteps
      return limitsOf steps (← countIn config "interpreter" "max_call_depth")) := by
  cases maxSteps with
  | some n => rfl
  | none =>
    unfold limits stepBudget
    cases countIn config "interpreter" "max_steps" <;> rfl

theorem limits_ok (h : ∀ d ∈ config, d.Readable) (maxSteps : Option Nat) : ∃ l, limits config maxSteps = .ok l := by
  obtain ⟨steps, hsteps⟩ := countIn_ok fun d hd => (h d hd).maxSteps
  obtain ⟨depth, hdepth⟩ := countIn_ok fun d hd => (h d hd).maxCallDepth
  rw [limits_eq, hdepth]
  cases maxSteps with
  | some n => exact ⟨limitsOf n depth, rfl⟩
  | none =>
    refine ⟨limitsOf (steps.getD 0) depth, ?_⟩
    unfold stepBudget
    rw [hsteps]
    rfl

theorem one_le_maxCallDepth (steps : Nat) (depth : Option Nat) : 1 ≤ (limitsOf steps depth).maxCallDepth := by
  cases depth with
  | none => exact (by decide : 1 ≤ defaultCallDepth)
  | some n => exact Nat.le_max_right n 1

theorem maxSteps_ne_zero (steps : Nat) (depth : Option Nat) : (limitsOf steps depth).maxSteps ≠ some 0 := by
  unfold limitsOf
  dsimp only
  split
  · rename_i hpos
    intro hzero
    exact hpos.ne' (Option.some.inj hzero)
  · nofun

/-! ## Settings -/

/-- What is missing is told before anything is read in a type, and it is all that can go wrong where those values
are well formed. -/
theorem settings_cases (h : ∀ d ∈ config, d.Readable) (o : Overrides) :
    match o.script <|> stringIn config "script" "path", o.symbol <|> stringIn config "data" "symbol" with
    | none, _ => settings config o = .error (.missing "script" "path")
    | some _, none => settings config o = .error (.missing "data" "symbol")
    | some _, some _ => ∃ s, settings config o = .ok s := by
  obtain ⟨globals, hglobals⟩ := printsGlobals_ok h o.printGlobals
  obtain ⟨l, hl⟩ := limits_ok h o.maxSteps
  unfold settings
  rw [hglobals, hl]
  cases o.script <|> stringIn config "script" "path" with
  | none => rfl
  | some script =>
    cases o.symbol <|> stringIn config "data" "symbol" with
    | none => rfl
    | some symbol => exact ⟨_, rfl⟩

theorem limits_of_settings {o : Overrides} {s : Settings} (h : settings config o = .ok s) :
    ∃ steps depth, s.limits = limitsOf steps depth := by
  obtain ⟨script, -, h⟩ := bind_eq_ok h
  obtain ⟨symbol, -, h⟩ := bind_eq_ok h
  obtain ⟨globals, -, h⟩ := bind_eq_ok h
  obtain ⟨l, hl, h⟩ := bind_eq_ok h
  cases h
  rw [limits_eq] at hl
  obtain ⟨steps, -, hl⟩ := bind_eq_ok hl
  obtain ⟨depth, -, hl⟩ := bind_eq_ok hl
  cases hl
  exact ⟨steps, depth, rfl⟩

/-- With a configuration that is in order, or with none, the settings of a run are found, or one of two values is
missing: the script if nothing gives one, and otherwise the symbol if nothing gives one. Whatever the configuration
is, the limits that are found leave room for a step and for a call. -/
theorem settings_of_validated (config : Option Document) (o : Overrides) :
    ((∀ d ∈ config, d.validate = .ok ()) →
      ((∃ s, settings config o = .ok s) ∨ settings config o = .error (.missing "script" "path") ∨
        settings config o = .error (.missing "data" "symbol")) ∧
      (settings config o = .error (.missing "script" "path") ↔
        o.script = none ∧ stringIn config "script" "path" = none) ∧
      (settings config o = .error (.missing "data" "symbol") ↔
        ¬ (o.script = none ∧ stringIn config "script" "path" = none) ∧
          o.symbol = none ∧ stringIn config "data" "symbol" = none)) ∧
    ∀ s, settings config o = .ok s → 1 ≤ s.limits.maxCallDepth ∧ s.limits.maxSteps ≠ some 0 := by
  constructor
  · intro hvalid
    have hcases := settings_cases (fun d hd => Document.readable_of_validate (hvalid d hd)) o
    rw [← Option.orElse_eq_none, ← Option.orElse_eq_none]
    cases hscript : o.script <|> stringIn config "script" "path" with
    | none =>
      rw [hscript] at hcases
      rw [show settings config o = _ from hcases]
      exact ⟨.inr (.inl rfl), by simp, by simp⟩
    | some script =>
      rw [hscript] at hcases
      cases hsymbol : o.symbol <|> stringIn config "data" "symbol" with
      | none =>
        rw [hsymbol] at hcases
        rw [show settings config o = _ from hcases]
        exact ⟨.inr (.inr rfl), by simp, by simp⟩
      | some symbol =>
        rw [hsymbol] at hcases
        obtain ⟨s, hs⟩ := hcases
        rw [hs]
        exact ⟨.inl ⟨s, rfl⟩, by simp, by simp⟩
  · intro s hs
    obtain ⟨steps, depth, hlimits⟩ := limits_of_settings hs
    rw [hlimits]
    exact ⟨one_le_maxCallDepth steps depth, maxSteps_ne_zero steps depth⟩

/-- A configuration that sets a step budget of zero and a depth of calls, but names no symbol. -/
theorem settings_without_symbol :
    let d : Document := ⟨.ofList [("interpreter", .ofList [("max_call_depth", some "3"), ("max_steps", some "0")]),
      ("script", .ofList [("path", some "s.vs")])]⟩
    Document.read "[script]\npath = s.vs\n[interpreter]\nmax_steps = 0\nmax_call_depth = 3\n" = .ok d ∧
      d.validate = .ok () ∧ settings (some d) {} = .error (.missing "data" "symbol") ∧
      ∃ s, settings (some d) { symbol := some "BHP" } = .ok s ∧ s.limits = ⟨none, 3⟩ ∧ 1 ≤ s.limits.maxCallDepth := by
  intro d
  have hvalid : d.validate = .ok () := rfl
  have hconfig : ∀ e ∈ some d, e.validate = .ok () := by
    rintro _ ⟨⟩
    exact hvalid
  obtain ⟨-, -, hmissing⟩ := (settings_of_validated (some d) {}).1 hconfig
  obtain ⟨hfound, hlimits⟩ := settings_of_validated (some d) { symbol := some "BHP" }
  have hs : settings (some d) { symbol := some "BHP" } =
      .ok ⟨"s.vs", ".", "BHP", none, ⟨none, 3⟩, false⟩ := rfl
  exact ⟨rfl, hvalid, hmissing.2 ⟨nofun, rfl, rfl⟩, _, hs, rfl, (hlimits _ hs).1⟩

end StrategyScript.Config
