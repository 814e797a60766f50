/-
What values there are in the course of any runs: lists and records hold numbers and nothing else, so a
function is only ever a value of its own, and whether two lists or two records are equal is settled
without the question whether two functions are.
-/
import StrategyScript.Proofs.Run.Hygiene

namespace StrategyScript

open Eval

namespace Value

/-! ## Equality without functions -/

mutual

/-- Equality that leaves the comparison of functions to `same`, which may have no answer. -/
def equalBy (same : Function → Function → Option Bool) : Value → Value → Option Bool
  | .null, .null => some true
  | .boolean a, .boolean b => some (a == b)
  | .number x, .number y => some (x == y)
  | .string s, .string t => some (s == t)
  | .function f, .function g => same f g
  | .builtin a, .builtin b => some (a == b)
  | .record fs, .record gs => equalFieldsBy same fs gs
  | .list xs, .list ys => equalItemsBy same xs ys
  | _, _ => some false

def equalItemsBy (same : Function → Function → Option Bool) : List Value → List Value → Option Bool
  | [], [] => some true
  | x :: xs, y :: ys => (equalBy same x y).bind fun b => if b then equalItemsBy same xs ys else some false
  | _, _ => some false

def equalFieldsBy (same : Function → Function → Option Bool) {bound bound' : Option String} :
    Dictionary Value bound → Dictionary Value bound' → Option Bool
  | .nil, .nil => some true
  | .cons j x _ fs, .cons k y _ gs =>
    if j == k then (equalBy same x y).bind fun b => if b then equalFieldsBy same fs gs else some false
    else some false
  | _, _ => some false

end

mutual

/-- With functions told apart by their numbers it is the equality of values. -/
theorem equalBy_id : ∀ v w : Value, v.equalBy (fun f g => some (f.id == g.id)) w = some (v.equal w) := by
  intro v w
  cases v with
  | record fs =>
    cases w with
    | record gs => exact equalFieldsBy_id fs gs
    | _ => rfl
  | list xs =>
    cases w with
    | list ys => exact equalItemsBy_id xs ys
    | _ => rfl
  | _ => cases w <;> rfl

theorem equalItemsBy_id : ∀ vs ws : List Value,
    equalItemsBy (fun f g => some (f.id == g.id)) vs ws = some (equalItems vs ws)
  | [], [] | [], _ :: _ | _ :: _, [] => rfl
  | v :: vs, w :: ws => by
    rw [equalItemsBy, equalItems, equalBy_id v w, equalItemsBy_id vs ws]
    cases v.equal w <;> rfl

theorem equalFieldsBy_id {bound bound' : Option String} : ∀ (fs : Dictionary Value bound)
    (gs : Dictionary Value bound'), equalFieldsBy (fun f g => some (f.id == g.id)) fs gs = some (equalFields fs gs)
  | .nil, .nil | .nil, .cons .. | .cons .., .nil => rfl
  | .cons j v _ fs, .cons k w _ gs => by
    rw [equalFieldsBy, equalFields, equalBy_id v w, equalFieldsBy_id fs gs]
    cases j == k <;> cases v.equal w <;> rfl

end

section

variable (same : Function → Function → Option Bool)

mutual

/-- Without a function on the left none is compared. -/
theorem equalBy_of_not_has : ∀ v w : Value, (∀ f, ¬ v.Has f) → v.equalBy same w = some (v.equal w) := by
  intro v w hv
  cases v with
  | function f => exact absurd .self (hv f)
  | record fs =>
    cases w with
    | record gs => exact equalFieldsBy_of_not_has fs gs fun e he f hf => hv f (.field he hf)
    | _ => rfl
  | list xs =>
    cases w with
    | list ys => exact equalItemsBy_of_not_has xs ys fun x hx f hf => hv f (.item hx hf)
    | _ => rfl
  | _ => cases w <;> rfl

theorem equalItemsBy_of_not_has : ∀ vs ws : List Value, (∀ v ∈ vs, ∀ f, ¬ v.Has f) →
    equalItemsBy same vs ws = some (equalItems vs ws)
  | [], [], _ | [], _ :: _, _ | _ :: _, [], _ => rfl
  | v :: vs, w :: ws, h => by
    obtain ⟨hv, hvs⟩ := List.forall_mem_cons.1 h
    rw [equalItemsBy, equalItems, equalBy_of_not_has v w hv, equalItemsBy_of_not_has vs ws hvs]
    cases v.equal w <;> rfl

theorem equalFieldsBy_of_not_has {bound bound' : Option String} : ∀ (fs : Dictionary Value bound)
    (gs : Dictionary Value bound'), (∀ e ∈ fs, ∀ f, ¬ e.2.Has f) → equalFieldsBy same fs gs = some (equalFields fs gs)
  | .nil, .nil, _ | .nil, .cons .., _ | .cons .., .nil, _ => rfl
  | .cons j v _ fs, .cons k w _ gs, h => by
    obtain ⟨hv, hfs⟩ := Dictionary.forall_mem_cons.1 h
    rw [equalFieldsBy, equalFields, equalBy_of_not_has v w hv, equalFieldsBy_of_not_has fs gs hfs]
    cases j == k <;> cases v.equal w <;> rfl

end

end

/-! ## Containers -/

def IsContainer (v : Value) : Prop := v.kind = .list ∨ v.kind = .record

/-- A function is not inside the value, but the value itself. -/
def HoldsNoFunction (v : Value) : Prop := ∀ f, v.Has f → v = .function f

section

variable {v w : Value}

theorem Simple.holdsNoFunction (h : v.Simple) : v.HoldsNoFunction := fun _ => h.eq_of_has

theorem IsContainer.not_function (h : v.IsContainer) (f : Function) : v ≠ .function f := by
  rintro rfl
  rcases h with h | h <;> cases h

/-- One container is enough: on its own side it holds no function to be compared. -/
theorem equalBy_of_container (hv : v.HoldsNoFunction) (h : v.IsContainer ∨ w.IsContainer)
    (same : Function → Function → Option Bool) : v.equalBy same w = some (v == w) := by
  by_cases hhas : ∃ f, v.Has f
  · obtain ⟨f, hf⟩ := hhas
    obtain rfl : v = .function f := hv f hf
    have hw : w.IsContainer := h.resolve_left fun h => h.not_function f rfl
    cases w with
    | function g => exact absurd rfl (hw.not_function g)
    | _ => rfl
  · exact equalBy_of_not_has same v w (not_exists.1 hhas)

end

end Value

/-! ## Comparisons -/

/-- What `==` and `!=` come to, once the operands are known. -/
theorem evaluate_comparison {op : BinaryOp} (hop : op = .equal ∨ op = .notEqual) {n : Nat} {left right : Expr}
    {q : Position} {s t u : Session} {v w : Value} (hl : evaluate n left s = .done v t)
    (hr : evaluate n right t = .done w u) :
    evaluate (n + 1) (.binary op left right q) s = .done (.boolean (if op = .equal then v == w else v != w)) u := by
  rcases hop with rfl | rfl <;> exact (bind_done _ hl).trans (bind_done _ hr)

namespace Session

/-- In the course of any runs of one interpreter, what any scope binds a name to and what any
expression comes to is one of the simple values, lists and records of numbers among them, and holds no
function. A comparison with a list or a record does not depend on how functions compare. -/
theorem containers_hold_no_functions {c : Limits} {past : List Session} {s : Session} (hist : History c past s)
    (fuel : Nat) (p : Program) (market : Market) :
    (∀ u ∈ past ++ s :: (s.start fuel p market).trace, ∀ i x v, (u.scopes.bindings i).get? x = some v →
      v.Simple ∧ v.HoldsNoFunction) ∧
    (∀ n e t v u, ⟨n, .evaluate e, t⟩ ∈ (s.start fuel p market).moments → evaluate n e t = .done v u →
      v.Simple ∧ v.HoldsNoFunction) ∧
    ∀ n op left right q t v u w u', op = .equal ∨ op = .notEqual →
      ⟨n + 1, .evaluate (.binary op left right q), t⟩ ∈ (s.start fuel p market).moments →
      evaluate n left t = .done v u → evaluate n right u = .done w u' → v.IsContainer ∨ w.IsContainer →
      evaluate (n + 1) (.binary op left right q) t = .done (.boolean (if op = .equal then v == w else v != w)) u' ∧
        ∀ same, v.equalBy same w = some (v == w) := by
  obtain ⟨hsound, -⟩ := (Discipline.lax_lasts c).course (.mk hist fuel p market)
  have hr := (Discipline.lax_lasts c).start (hsound s (by simp)) fuel p market
  have hvalue : ∀ n e t v u, ⟨n, .evaluate e, t⟩ ∈ (s.start fuel p market).moments → evaluate n e t = .done v u →
      v.Simple ∧ v.HoldsNoFunction := by
    intro n e t v u hm he
    have hfits := ((Discipline.lax.keeps n).evaluate e t (hr.moments _ hm)).gives v u he
    exact ⟨hfits.simple, hfits.simple.holdsNoFunction⟩
  refine ⟨fun u hu i x v hv => ?_, hvalue, fun n op left right q t v u w u' hop hm hl hright hcontainer => ?_⟩
  · have hsimple := ((hsound u hu).holds i x v hv).simple
    exact ⟨hsimple, hsimple.holdsNoFunction⟩
  · have hleft : ⟨n, .evaluate left, t⟩ ∈ (s.start fuel p market).moments :=
      Task.mem_moments_part hm List.mem_cons_self
    exact ⟨evaluate_comparison hop hl hright,
      Value.equalBy_of_container (hvalue n left t v u hleft hl).2 hcontainer⟩

/-- A run of a single expression comes to it, if steps are free. -/
theorem start_expression (s : Session) (h : s.limits.maxSteps = none) (n : Nat) (e : Expr) (market : Market) :
    ⟨n, .evaluate e, (s.prepare market).counted⟩ ∈ (s.start (n + 2) [.expr e] market).moments := by
  have htick : tick (s.prepare market) = .done () (s.prepare market).counted :=
    tick_within fun limit hlimit => nomatch h.symm.trans hlimit
  refine Task.mem_moments_part (Task.mem_moments_part (Task.mem_moments_self ..) List.mem_cons_self) ?_
  show _ ∈ (tick (s.prepare market)).next _
  rw [htick]
  exact List.mem_cons_self

/-- A function under two names and a list under two others, which a second run compares. -/
theorem lists_compared_without_functions :
    let series : Expr := .call "series" [.string "close" ⟨3, 17⟩] ⟨3, 10⟩
    let p : Program := [.function "f" [] [], .var "g" (some (.identifier "f" ⟨2, 9⟩)), .var "xs" (some series),
      .var "ys" (some series)]
    let equation : Expr := .binary .equal (.identifier "xs" ⟨1, 1⟩) (.identifier "ys" ⟨1, 7⟩) ⟨1, 4⟩
    let s := ((new {}).run 8 p ⟨.ofList [("close", [1.0, 2.0])]⟩).2
    let t := (s.prepare .empty).counted
    ∃ past, History {} past s ∧ ⟨3, .evaluate equation, t⟩ ∈ (s.start 5 [.expr equation] .empty).moments ∧
      ∃ v w, evaluate 2 (.identifier "xs" ⟨1, 1⟩) t = .done v t ∧ evaluate 2 (.identifier "ys" ⟨1, 7⟩) t = .done w t ∧
        v.kind = .list ∧ v.Simple ∧ evaluate 3 equation t = .done (.boolean true) t ∧
        ∀ same, v.equalBy same w = some true := by
  intro series p equation s t
  have hist : History {} _ s := History.new.run (by decide +kernel)
  have hlimits : s.limits.maxSteps = none := by decide +kernel
  obtain ⟨v, hv, hkind⟩ : ∃ v, t.scopes.lookup t.current "xs" = some v ∧ v.kind = .list :=
    Option.map_eq_some_iff.1 (by decide +kernel)
  obtain ⟨w, hw, hequal⟩ : ∃ w, t.scopes.lookup t.current "ys" = some w ∧ (v == w) = true := by
    have hboth : ((t.scopes.lookup t.current "xs").bind fun v => (t.scopes.lookup t.current "ys").map (v == ·)) =
        some true := by decide +kernel
    rw [hv, Option.bind_some] at hboth
    exact Option.map_eq_some_iff.1 hboth
  have hm : ⟨3, .evaluate equation, t⟩ ∈ (s.start 5 [.expr equation] .empty).moments :=
    s.start_expression hlimits 3 equation .empty
  -- what follows holds of any such session, and is not to be computed
  clear_value s t
  have hleft : evaluate 2 (.identifier "xs" ⟨1, 1⟩) t = .done v t := (lookup_eq ..).trans (by rw [hv])
  have hright : evaluate 2 (.identifier "ys" ⟨1, 7⟩) t = .done w t := (lookup_eq ..).trans (by rw [hw])
  have hall := containers_hold_no_functions hist 5 [.expr equation] .empty
  have hxs := (hall.2.1 2 _ t v t (Task.mem_moments_part hm List.mem_cons_self) hleft).1
  obtain ⟨heval, hsame⟩ := hall.2.2 2 .equal _ _ ⟨1, 4⟩ t v t w t (.inl rfl) hm hleft hright (.inl (.inl hkind))
  rw [if_pos rfl, hequal] at heval
  rw [hequal] at hsame
  exact ⟨_, hist, hm, v, w, hleft, hright, hkind, hxs, heval, hsame⟩

end Session

end StrategyScript
