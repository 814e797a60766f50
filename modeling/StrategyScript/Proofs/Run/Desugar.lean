/-
A `for` loop is short for a `while` loop in a block. The block holds what comes first, and the increment
stands behind the body, in a block with it. Each turn of the `while` loop so takes place in a scope more than
a turn of the `for` loop, in which nothing is ever bound. Apart from these scopes the loops do the same,
turn by turn, whichever of the two one begins with.
-/
import StrategyScript.Proofs.Run.Mirror
import StrategyScript.Proofs.Run.Returning
import StrategyScript.Proofs.Run.Rooted

namespace StrategyScript

open Eval

/-! ## The `while` loop -/

/-- The body and the increment in one block. -/
def Stmt.withIncrement (body : List Stmt) (increment : Option Expr) : Stmt :=
  .block (.block body :: (increment.map Stmt.expr).toList)

/-- The `while` loop in a block that a `for` loop stands for; a missing condition is read as true. -/
def Stmt.asWhile (start : Option LoopStart) (condition increment : Option Expr) (body : List Stmt) (p : Position) :
    Stmt :=
  .block ((start.map LoopStart.toStmt).toList ++
    [.whileLoop (condition.getD (.boolean true p)) (.withIncrement body increment)])

theorem bind_onward_normal (m : Eval Flow) : m >>= Flow.onward (pure .normal) = m := by
  rw [← Eval.bind_pure m]
  refine (Eval.bind_assoc ..).trans (bind_congr fun flow => ?_)
  cases flow <;> rfl

theorem loopTurn_none (n : Nat) (body : Stmt) : loopTurn n none body = execute n body := bind_onward_normal _

theorem executeAll_while (n : Nat) (condition : Expr) (body : Stmt) :
    executeAll (n + 2) [.whileLoop condition body] = (do tick; loop n (some condition) none body) :=
  bind_onward_normal _

theorem executeAll_increment (n : Nat) (i : Expr) :
    executeAll (n + 2) [.expr i] = (do tick; increase n (some i)) := bind_onward_normal _

section

variable {w : Pairing}

theorem follows_block (k n : Nat) (body : List Stmt) :
    Follows w Pairing.apart Flow.Alike (execute n (.block body)) (execute (n + k) (.block body)) := by
  cases n with
  | zero => exact .outOfFuel
  | succ n => exact (copies k n).block w body

/-! ## From `for` to `while` -/

theorem whileGoesOn_follows (k n : Nat) (condition : Option Expr) (p : Position) :
    Follows w Pairing.young (fun _ => Eq) (goesOn n condition)
      (goesOn (n + (k + 4)) (some (condition.getD (.boolean true p)))) := by
  cases condition with
  | none => exact .pure fun _ _ => rfl
  | some c => exact ((copies (k + 4) n).goesOn w (some c)).anywhere

theorem whileTurn_follows (k n : Nat) (increment : Option Expr) (body : List Stmt) :
    Follows w Pairing.young Flow.Alike (loopTurn n increment (.block body))
      (loopTurn (n + (k + 4)) none (.withIncrement body increment)) := by
  rw [loopTurn_none]
  -- of the four units that the outer block costs, two are used up before the body
  refine .tickRight (.inRight fun w₁ _ => (follows_block (k + 2) n body).onward fun w₂ _ => ?_)
  cases increment with
  | none => exact .normal
  | some i =>
    show Follows w₂ _ _ _ (executeAll (n + k + 2) [.expr i])
    rw [executeAll_increment]
    exact .tickRight ((copies k n).increase w₂ (some i))

theorem start_follows (k n : Nat) (start : LoopStart) :
    Follows w Pairing.mates (fun w flow flow' => flow.Alike w flow' ∧ flow = .normal) (execute n start.toStmt)
      (execute (n + k) start.toStmt) := by
  refine ((copies k n).execute w start.toStmt).given fun s flow t hflow => ?_
  cases flow with
  | normal => rfl
  | returned v line =>
    have hline := (disclosed n).execute start.toStmt s v line t hflow
    rw [start.openReturns_toStmt] at hline
    cases hline

theorem asWhile_follows (n : Nat) (start : Option LoopStart) (condition increment : Option Expr) (body : List Stmt)
    (p : Position) :
    Follows w Pairing.apart Flow.Alike (execute (n + 1) (.forLoop start condition increment (.block body)))
      (execute (n + 8) (.asWhile start condition increment body p)) := by
  have hloop : ∀ k w, Follows w Pairing.young Flow.Alike (loop n condition increment (.block body))
      (loop (n + (k + 4)) (some (condition.getD (.boolean true p))) none (.withIncrement body increment)) := fun k =>
    Follows.loop (fun n _ => whileGoesOn_follows k n condition p) (fun n _ => whileTurn_follows k n increment body) n
  cases start with
  | none =>
    -- nothing comes first, so the loop begins with one unit more than it needs
    refine .tick (.inBlock fun w' _ => ?_)
    show Follows w' _ _ _ (executeAll (n + 5 + 2) [.whileLoop _ _])
    rw [executeAll_while]
    exact .tickRight (hloop 1 w')
  | some start =>
    refine .tick (.inBlock fun w' _ => (start_follows 6 n start).young.bind fun w₁ flow flow' _ hflow => ?_)
    obtain ⟨halike, rfl⟩ := hflow
    cases halike
    show Follows w₁ _ _ _ (executeAll (n + 4 + 2) [.whileLoop _ _])
    rw [executeAll_while]
    exact .tickRight (hloop 0 w₁)

/-! ## From `while` to `for` -/

theorem forGoesOn_follows (k n : Nat) (condition : Option Expr) (p : Position) :
    Follows w Pairing.young (fun _ => Eq) (goesOn n (some (condition.getD (.boolean true p))))
      (goesOn (n + (k + 4)) condition) := by
  cases condition with
  | some c => exact ((copies (k + 4) n).goesOn w (some c)).anywhere
  | none =>
    cases n with
    | zero => exact .outOfFuel
    | succ n => exact .pure fun _ _ => rfl

theorem forTurn_follows (k n : Nat) (increment : Option Expr) (body : List Stmt) :
    Follows w Pairing.young Flow.Alike (loopTurn n none (.withIncrement body increment))
      (loopTurn (n + (k + 4)) increment (.block body)) := by
  rw [loopTurn_none]
  refine .lessFuel (forces_execute 4 n _) (.tickLeft (.inLeft fun w₁ _ => ?_))
  have hbody := follows_block (w := w₁) (k + 2) (n + 2) body
  rw [show n + 2 + (k + 2) = n + (k + 4) by omega] at hbody
  refine hbody.onward fun w₂ _ => ?_
  cases increment with
  | none => exact .normal
  | some i =>
    show Follows w₂ _ _ (executeAll (n + 2) [.expr i]) _
    rw [executeAll_increment]
    exact .tickLeft ((copies (k + 4) n).increase w₂ (some i))

theorem forLoop_follows (n : Nat) (start : Option LoopStart) (condition increment : Option Expr) (body : List Stmt)
    (p : Position) :
    Follows w Pairing.apart Flow.Alike (execute n (.asWhile start condition increment body p))
      (execute (n + 10) (.forLoop start condition increment (.block body))) := by
  have hloop : ∀ k n w, Follows w Pairing.young Flow.Alike
      (loop n (some (condition.getD (.boolean true p))) none (.withIncrement body increment))
      (loop (n + (k + 4)) condition increment (.block body)) := fun k =>
    Follows.loop (fun n _ => forGoesOn_follows k n condition p) (fun n _ => forTurn_follows k n increment body)
  refine .lessFuel (forces_execute 8 n _) ?_
  cases start with
  | none =>
    refine .tick (.inBlock fun w' _ => ?_)
    show Follows w' _ _ (executeAll (n + 5 + 2) [.whileLoop _ _]) _
    rw [executeAll_while]
    exact .tickLeft (hloop 0 (n + 5) w')
  | some start =>
    refine .tick (.inBlock fun w' _ => (start_follows 3 (n + 6) start).young.bind fun w₁ flow flow' _ hflow => ?_)
    obtain ⟨halike, rfl⟩ := hflow
    cases halike
    show Follows w₁ _ _ (executeAll (n + 4 + 2) [.whileLoop _ _]) _
    rw [executeAll_while]
    exact .tickLeft (hloop 1 (n + 4) w₁)

end

/-! ## Reachable sessions -/

theorem comesTo_of_execute {n : Nat} {stmt : Stmt} {s : Session} (h : (execute n stmt s).ended? ≠ none) :
    ComesTo (fun n => execute n stmt) s (execute n stmt s) := by
  refine ⟨n, fun m hm => ?_⟩
  obtain ⟨k, rfl⟩ := Nat.exists_eq_add_of_le hm
  have hforces := forces_execute k n stmt s
  generalize execute n stmt s = o at h hforces
  cases o with
  | done flow t =>
    obtain ⟨flow', hdone, rfl⟩ := hforces
    exact hdone
  | failed e t => exact hforces
  | unfinished t => exact absurd rfl h

/-- Whoever follows a computation that ends comes to an end, too. -/
theorem Follows.settles {w : Pairing} {R : Pairing → Flow → Flow → Prop} {m n : Nat} {stmt stmt' : Stmt}
    {s s' : Session} (h : Follows w Pairing.apart R (execute m stmt) (execute n stmt')) (hs : s.Mirrors w s')
    (hended : (execute m stmt s).ended? ≠ none) : Settles (fun n => execute n stmt') s' := by
  have h := h w s s' (.refl w) hs fun _ _ => trivial
  have hended' : (execute n stmt' s').ended? ≠ none := by
    generalize execute m stmt s = o at h hended
    generalize execute n stmt' s' = o' at h
    cases h with
    | done _ _ _ _ _ | failed _ _ _ _ _ => exact Option.some_ne_none _
    | unfinished t => exact absurd rfl hended
  exact ⟨_, hended', comesTo_of_execute hended'⟩

namespace Session

theorem Reachable.mirrors_self {s : Session} (hs : s.Reachable) (hbudget : s.limits.maxSteps = none) :
    s.Mirrors (.self s.scopes.size) s := by
  obtain ⟨hgood, hholds⟩ := Discipline.sound_of_reachable rooted_lasts hs
  have hscopes := Forest.mirrors_self (fun i hi j hj => hgood.scopes.lt_size_of_mem_chain hi hj) hholds
  exact ⟨hscopes, ⟨rfl, hgood.current⟩, rfl, rfl, rfl, rfl, rfl, hbudget⟩

/-- In a reachable session without a step budget, a `for` loop over a block comes to an end if and only if
the `while` loop does that it stands for. Then both end in the same way, with the same error if there is
one, and leave the same trades behind; and the scopes that there were before, each of which belongs to itself,
bind the same names to the same values, up to empty scopes around the functions that have been declared on the
way. -/
theorem for_is_while {s : Session} (hs : s.Reachable) (hbudget : s.limits.maxSteps = none) (start : Option LoopStart)
    (condition increment : Option Expr) (body : List Stmt) (p : Position) :
    (Settles (fun n => execute n (.forLoop start condition increment (.block body))) s ↔
      Settles (fun n => execute n (.asWhile start condition increment body p)) s) ∧
    ∀ o o', ComesTo (fun n => execute n (.forLoop start condition increment (.block body))) s o →
      ComesTo (fun n => execute n (.asWhile start condition increment body p)) s o' →
      Outcome.Mirrored (.self s.scopes.size) Flow.Alike s s o o' := by
  have hself := hs.mirrors_self hbudget
  refine ⟨⟨fun hfor => ?_, fun hwhile => ?_⟩, fun o o' hfor hwhile => ?_⟩
  · obtain ⟨o, ho, enough, hfor⟩ := hfor
    have hended : (execute (enough + 1) (.forLoop start condition increment (.block body)) s).ended? ≠ none :=
      (congrArg Outcome.ended? (hfor _ (Nat.le_succ enough))).trans_ne ho
    exact (asWhile_follows enough start condition increment body p).settles hself hended
  · obtain ⟨o, ho, enough, hwhile⟩ := hwhile
    have hended : (execute enough (.asWhile start condition increment body p) s).ended? ≠ none :=
      (congrArg Outcome.ended? (hwhile enough le_rfl)).trans_ne ho
    exact (forLoop_follows enough start condition increment body p).settles hself hended
  · obtain ⟨enough, hfor⟩ := hfor
    obtain ⟨enough', hwhile⟩ := hwhile
    rw [← hfor (max enough enough' + 1) (by omega), ← hwhile (max enough enough' + 8) (by omega)]
    exact asWhile_follows _ start condition increment body p _ s s (.refl _) hself fun _ _ => trivial

/-- A loop whose body declares a function and keeps it in a global variable: behind the `while` loop there is a
scope more around that function. -/
theorem for_is_while_around_function :
    let s := new {}
    let start := LoopStart.var "go" (some (.boolean true ⟨1, 15⟩))
    let go := Expr.identifier "go" ⟨1, 21⟩
    let stop := Expr.assign "go" (.boolean false ⟨1, 30⟩) ⟨1, 25⟩
    let body := [Stmt.function "f" [] [], .expr (.assign "len" (.identifier "f" ⟨2, 9⟩) ⟨2, 3⟩)]
    let loop := Stmt.forLoop (some start) (some go) (some stop) (.block body)
    let written := Stmt.asWhile (some start) (some go) (some stop) body ⟨1, 1⟩
    let kept (o : Outcome Flow) := o.ended?.bind fun t => (t.global "len").bind Value.closure?
    s.Reachable ∧ s.limits.maxSteps = none ∧ s.scopes.size = 1 ∧
      Outcome.Mirrored (.self 1) Flow.Alike s s (execute 16 loop s) (execute 16 written s) ∧
      kept (execute 16 loop s) = some 2 ∧ kept (execute 16 written s) = some 3 := by
  intro s start go stop body loop written kept
  have hloop : kept (execute 16 loop s) = some 2 := by decide +kernel
  have hwritten : kept (execute 16 written s) = some 3 := by decide +kernel
  have hended : ∀ {o j}, kept o = some j → o.ended? ≠ none := fun hkept hnone => by
    simp only [kept, hnone, Option.bind_none, reduceCtorEq] at hkept
  have hreachable : s.Reachable := History.new.reachable
  have hsame := (for_is_while hreachable rfl (some start) (some go) (some stop) body ⟨1, 1⟩).2
  exact ⟨hreachable, rfl, rfl, hsame _ _ (comesTo_of_execute (hended hloop)) (comesTo_of_execute (hended hwritten)),
    hloop, hwritten⟩

end Session

end StrategyScript
