/-
The listing of the globals. After any runs it is in ascending order of the names and gives each global
with its present value, unless the value is a built-in. So a built-in name that a script has given
another meaning is listed, but a built-in under a name that is not its own is not.
-/
import StrategyScript.Proofs.Run.Rooted

namespace StrategyScript

open Session (globalScope)

/-- The value is the built-in that a new session binds the name to. -/
def Value.IsStandard (x : String) (v : Value) : Prop := ∃ b : Builtin, b.name = x ∧ v = .builtin b

theorem Value.kind_eq_builtin {v : Value} : v.kind = .builtin ↔ ∃ b, v = .builtin b := by
  refine ⟨fun h => ?_, ?_⟩
  · cases v <;> cases h
    exact ⟨_, rfl⟩
  · rintro ⟨b, rfl⟩
    rfl

namespace Session

/-- Nothing is around the global scope, so a global means what that scope binds it to. -/
theorem global_eq {s : Session} (h : s.scopes.chain globalScope = [globalScope]) (x : String) :
    s.global x = (s.scopes.bindings globalScope).get? x := by
  unfold global Forest.lookup Forest.resolve
  rw [h, List.find?_cons]
  cases hx : (s.scopes.bindings globalScope).contains x with
  | true => rfl
  | false => exact (Option.not_isSome_iff_eq_none.1 (Bool.eq_false_iff.1 hx)).symm

theorem mem_globals_iff {s : Session} (hs : s.Reachable) (x : String) (v : Value) :
    (x, v) ∈ s.globals ↔ s.global x = some v ∧ v.kind ≠ .builtin := by
  have hglobal := global_eq (Discipline.sound_of_reachable rooted_lasts hs).good.scopes.global
  rw [hglobal, globals, Dictionary.mem_filter, Dictionary.mem_iff, bne_iff_ne]

/-- The listing is in strictly ascending order and has all globals but those whose value is a built-in.
Of the globals that are not the built-in of their own name, it misses the built-ins of other names. -/
theorem globals_listing {s : Session} (hs : s.Reachable) :
    s.globals.keys.Pairwise (· < ·) ∧ (∀ x v, (x, v) ∈ s.globals ↔ s.global x = some v ∧ v.kind ≠ .builtin) ∧
      ∀ x v, s.global x = some v →
        ((x, v) ∉ s.globals ∧ ¬ v.IsStandard x ↔ ∃ b : Builtin, b.name ≠ x ∧ v = .builtin b) := by
  have hmem := mem_globals_iff hs
  refine ⟨s.globals.keys_ascend, hmem, fun x v hv => ⟨?_, ?_⟩⟩
  · rintro ⟨hmissed, hown⟩
    have hkind : v.kind = .builtin := by
      by_contra hne
      exact hmissed ((hmem x v).2 ⟨hv, hne⟩)
    obtain ⟨b, rfl⟩ := Value.kind_eq_builtin.1 hkind
    exact ⟨b, fun hname => hown ⟨b, hname, rfl⟩, rfl⟩
  · rintro ⟨b, hname, rfl⟩
    refine ⟨fun h => ((hmem x _).1 h).2 rfl, ?_⟩
    rintro ⟨b', hname', hb⟩
    cases hb
    exact hname hname'

/-- A built-in name with another value, and a built-in under a name of the script. -/
theorem rebound_listed_renamed_missed :
    let p : Program := [.expr (.assign "abs" (.number 3.0 ⟨1, 7⟩) ⟨1, 1⟩),
      .var "f" (some (.identifier "sma" ⟨2, 9⟩))]
    let s := ((new {}).run 6 p .empty).2
    s.Reachable ∧ s.globals.keys.Pairwise (· < ·) ∧ (∃ v, s.global "abs" = some v ∧ ("abs", v) ∈ s.globals) ∧
      ∃ w, s.global "f" = some w ∧ ("f", w) ∉ s.globals ∧ ¬ w.IsStandard "f" := by
  intro p s
  have hs : s.Reachable := (History.new.run (by decide +kernel)).reachable
  obtain ⟨v, hv, hnumber⟩ : ∃ v, s.global "abs" = some v ∧ v.kind = .number :=
    Option.map_eq_some_iff.1 (by decide +kernel)
  obtain ⟨w, hw, hbuiltin⟩ : ∃ w, s.global "f" = some w ∧ w.kind = .builtin :=
    Option.map_eq_some_iff.1 (by decide +kernel)
  obtain ⟨b, rfl⟩ := Value.kind_eq_builtin.1 hbuiltin
  have hname : ∀ b ∈ Builtin.all, b.name ≠ "f" := by decide
  obtain ⟨hsorted, hmem, hmissed⟩ := globals_listing hs
  exact ⟨hs, hsorted, ⟨v, hv, (hmem "abs" v).2 ⟨hv, by rw [hnumber]; nofun⟩⟩, _, hw,
    (hmissed "f" _ hw).2 ⟨b, hname b b.mem_all, rfl⟩⟩

/-- So the listing lacks globals that are not the built-in of their own name. -/
theorem listing_incomplete : ¬ ∀ c past s, History c past s →
    s.globals.keys.Pairwise (· < ·) ∧ ∀ x v, (x, v) ∈ s.globals ↔ s.global x = some v ∧ ¬ v.IsStandard x := by
  intro h
  let p : Program := [.var "f" (some (.identifier "sma" ⟨1, 9⟩)),
    .expr (.assign "sma" (.identifier "ema" ⟨2, 7⟩) ⟨2, 1⟩)]
  let s := ((new {}).run 6 p .empty).2
  have hist : History {} _ s := History.new.run (by decide +kernel)
  obtain ⟨w, hw, hbuiltin⟩ : ∃ w, s.global "f" = some w ∧ w.kind = .builtin :=
    Option.map_eq_some_iff.1 (by decide +kernel)
  have hname : ∀ b ∈ Builtin.all, b.name ≠ "f" := by decide
  have hlisted : ("f", w) ∈ s.globals :=
    ((h _ _ s hist).2 "f" w).2 ⟨hw, fun ⟨b, hb, _⟩ => hname b b.mem_all hb⟩
  have hkind : (w.kind != .builtin) = true := (Dictionary.mem_filter.1 hlisted).2
  rw [hbuiltin] at hkind
  cases hkind

end Session

end StrategyScript
