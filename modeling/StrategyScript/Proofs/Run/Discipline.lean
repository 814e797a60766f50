/-
What a run keeps up. A discipline consists of a property of sessions, one of the functions in a
session and one of the moments of a run, and of why every single step keeps them. Then they hold at
all times: in each session that is met, of each function that is bound or called, at each moment. What
a step can do to a session is said once, for all disciplines, by `Grows` and `Returns`.

The proof is one induction on the fuel. It goes through the parts of each task in the order in which
they begin, so it also shows that the evaluator starts nothing but these.
-/
import StrategyScript.Proofs.Run.Growth
import StrategyScript.Proofs.Run.Invariant
import StrategyScript.Proofs.Scope.Holding
import StrategyScript.Proofs.Syntax.Declared

namespace StrategyScript

open Eval Value

namespace Task

/-- The names that a task may bind in the scope that it begins in. -/
def declaredHere : Task → List String
  | .execute stmt => stmt.declaredHere
  | .executeAll stmts => stmts.flatMap Stmt.declaredHere
  | .loop _ _ body => body.declaredHere
  | .evaluate _ | .evaluateAll _ | .call _ _ _ => []

/-- The function that a task calls, and those among its arguments, are some of these. -/
def Suits (F : Function → Prop) : Task → Prop
  | .call f args _ => F f ∧ ∀ v ∈ args, v.Fits F
  | .evaluate _ | .evaluateAll _ | .execute _ | .executeAll _ | .loop _ _ _ => True

end Task

/-- Properties of sessions, functions and moments, and why the steps of evaluation keep them. -/
structure Discipline where
  /-- What holds of every session. -/
  Good : Session → Prop
  /-- What holds of every function in a session. -/
  Fits : Session → Function → Prop
  /-- What holds of every moment. -/
  Admits : Moment → Prop
  admits_part : ∀ {n task task' s s'}, Admits ⟨n + 1, task, s⟩ → (task', s') ∈ task.parts n s → Good s' →
    task'.Suits (Fits s') → Admits ⟨n, task', s'⟩
  fits_grows : ∀ {s t f}, s.Grows t → Fits s f → Fits t f
  fits_new : ∀ {n name params body s₀} {s : Session}, Admits ⟨n, .execute (.function name params body), s₀⟩ →
    Good s → Fits s ⟨s.nextFunction, ⟨name, params, body⟩, s.current⟩
  counted : ∀ {s}, Good s → Good s.counted
  numbered : ∀ {s}, Good s → Good s.numbered
  traded : ∀ {s action order}, Good s → Good (s.logged (s.trades.trade s.market action order))
  assigned : ∀ {n x e p s₀ s owner v}, Admits ⟨n, .evaluate (.assign x e p), s₀⟩ → Good s →
    s.scopes.resolve s.current x = some owner → v.Fits (Fits s) → Good (s.binding owner x v)
  defined : ∀ {n stmt s₀ s x v}, Admits ⟨n, .execute stmt, s₀⟩ → Good s → x ∈ stmt.declaredHere →
    v.Fits (Fits s) → Good (s.binding s.current x v)
  entered : ∀ {s}, Good s → Good s.enterBlock
  called : ∀ {s f args}, Good s → Fits s f → s.depth < s.limits.maxCallDepth → Good (s.enterCall f args)
  left : ∀ {s t adjust}, Good s → Good t → s.Returns [] (s.leave t adjust) → Good (s.leave t adjust)

namespace Discipline

variable (X : Discipline)

/-- A session that the discipline holds in. -/
structure Sound (s : Session) : Prop where
  good : X.Good s
  holds : s.scopes.Holds (X.Fits s)

/-- A moment that the discipline holds at. -/
structure Right (m : Moment) : Prop where
  admits : X.Admits m
  sound : X.Sound m.session
  suits : m.task.Suits (X.Fits m.session)

def FitsValue (s : Session) (v : Value) : Prop := v.Fits (X.Fits s)

def FitsAll (s : Session) (vs : List Value) : Prop := ∀ v ∈ vs, v.Fits (X.Fits s)

def FitsFlow (s : Session) (flow : Flow) : Prop := flow.Carries (X.FitsValue s)

/-- A computation that begins in `s`, has these parts with fuel `n` for each, and comes to `o`. Its
results satisfy `P`. -/
structure Scene {α : Type} (n : Nat) (names : List String) (P : Session → α → Prop) (s : Session)
    (parts : List (Task × Session)) (o : Outcome α) : Prop where
  gives : ∀ a t, o = .done a t → P t a
  sound : ∀ t, o.ended? = some t → X.Sound t
  returns : ∀ t, o.ended? = some t → s.Returns names t
  /-- A name was undefined in some session that the discipline holds in. -/
  undefined : ∀ x line t, o = .failed (.fault (.undefinedVariable x) line) t →
    ∃ u, X.Sound u ∧ u.scopes.resolve u.current x = none
  right : ∀ p ∈ parts, X.Right ⟨n, p.1, p.2⟩
  met : ∀ u ∈ Task.traces n parts, X.Sound u
  ordered : (s :: Task.traces n parts).Pairwise Session.Grows
  before : ∀ t, o.ended? = some t → ∀ u ∈ Task.traces n parts, u.Grows t

/-- The same for parts that are only admitted as far as the discipline holds when they begin. -/
def Shows {α : Type} (n : Nat) (names : List String) (P : Session → α → Prop) (s : Session)
    (parts : List (Task × Session)) (o : Outcome α) : Prop :=
  (∀ p ∈ parts, X.Good p.2 → p.1.Suits (X.Fits p.2) → X.Admits ⟨n, p.1, p.2⟩) → X.Scene n names P s parts o

section

variable {X} {α β : Type} {n : Nat} {names names' : List String} {P : Session → α → Prop} {Q : Session → β → Prop}
  {s t : Session} {parts : List (Task × Session)} {o : Outcome α}

/-! ## Composition -/

theorem Shows.mono (h : X.Shows n names P s parts o) (hsub : names ⊆ names') : X.Shows n names' P s parts o :=
  fun ha => { h ha with returns := fun t ht => ((h ha).returns t ht).mono hsub }

theorem shows_done {a : α} (ht : X.Sound t) (hr : s.Returns names t) (ha : P t a) :
    X.Shows n names P s [] (.done a t) := by
  intro _
  refine ⟨fun b u hu => ?_, fun u hu => ?_, fun u hu => ?_, nofun, nofun, nofun, List.pairwise_singleton _ _, nofun⟩
  · cases hu; exact ha
  · cases hu; exact ht
  · cases hu; exact hr

theorem shows_failed {e : RuntimeError} (ht : X.Sound t) (hr : s.Returns names t)
    (he : ∀ x line, e = .fault (.undefinedVariable x) line → t.scopes.resolve t.current x = none) :
    X.Shows n names P s [] (.failed e t) := by
  intro _
  refine ⟨nofun, fun u hu => ?_, fun u hu => ?_, fun x line u hu => ?_, nofun, nofun,
    List.pairwise_singleton _ _, nofun⟩
  · cases hu; exact ht
  · cases hu; exact hr
  · cases hu; exact ⟨t, ht, he x line rfl⟩

/-- An outcome without a result, for a computation that goes on no further. -/
theorem Scene.stop {o' : Outcome β} (h : X.Scene n names P s parts o) (hd : ∀ b t, o' ≠ .done b t)
    (he : o'.ended? = o.ended?) (hf : ∀ e t, o' = .failed e t → o = .failed e t) : X.Scene n names Q s parts o' where
  gives b t ho := absurd ho (hd b t)
  sound t ht := h.sound t (he ▸ ht)
  returns t ht := h.returns t (he ▸ ht)
  undefined x line t ho := h.undefined x line t (hf _ t ho)
  right := h.right
  met := h.met
  ordered := h.ordered
  before t ht := h.before t (he ▸ ht)

/-- One computation after another: the parts of the second begin when the first is done. -/
theorem Scene.append {a : α} {parts' : List (Task × Session)} {o' : Outcome β}
    (h : X.Scene n names P s parts (.done a t)) (h' : X.Scene n names Q t parts' o') :
    X.Scene n names Q s (parts ++ parts') o' where
  gives := h'.gives
  sound := h'.sound
  returns u hu := (h.returns t rfl).trans (h'.returns u hu)
  undefined := h'.undefined
  right m hm := (List.mem_append.1 hm).elim (h.right m) (h'.right m)
  met u hu := by
    rw [Task.traces_append] at hu
    exact (List.mem_append.1 hu).elim (h.met u) (h'.met u)
  ordered := by
    rw [Task.traces_append, ← List.cons_append]
    refine List.pairwise_append.2 ⟨h.ordered, (List.pairwise_cons.1 h'.ordered).2, fun u hu v hv => ?_⟩
    have htv : t.Grows v := (List.pairwise_cons.1 h'.ordered).1 v hv
    rcases List.mem_cons.1 hu with rfl | hu
    · exact (h.returns t rfl).toGrows.trans htv
    · exact (h.before t rfl u hu).trans htv
  before v hv u hu := by
    rw [Task.traces_append] at hu
    rcases List.mem_append.1 hu with hu | hu
    · exact (h.before t rfl u hu).trans (h'.returns v hv).toGrows
    · exact h'.before v hv u hu

theorem Shows.bind {m : Eval α} {f : α → Eval β} {follows : α → Session → List (Task × Session)}
    (h : X.Shows n names P s parts (m s))
    (hf : ∀ a t, X.Sound t → s.Returns names t → P t a → X.Shows n names Q t (follows a t) (f a t)) :
    X.Shows n names Q s (parts ++ (m s).next follows) ((m >>= f) s) := by
  intro ha
  have hm := h fun m hm => ha m (List.mem_append_left _ hm)
  cases ho : m s with
  | done a t =>
    rw [ho] at hm
    rw [bind_done f ho]
    refine hm.append (hf a t (hm.sound t rfl) (hm.returns t rfl) (hm.gives a t rfl) fun m hm => ha m ?_)
    rw [ho]
    exact List.mem_append_right _ hm
  | failed e t =>
    rw [ho] at hm
    rw [bind_failed f ho, Outcome.next, List.append_nil]
    exact hm.stop (fun b u h => by cases h) rfl fun e' u h => by cases h; rfl
  | unfinished t =>
    rw [ho] at hm
    rw [bind_unfinished f ho, Outcome.next, List.append_nil]
    exact hm.stop (fun b u h => by cases h) rfl fun e' u h => by cases h

/-- What follows has no parts of its own. -/
theorem Shows.then {m : Eval α} {f : α → Eval β} (h : X.Shows n names P s parts (m s))
    (hf : ∀ a t, X.Sound t → s.Returns names t → P t a → X.Shows n names Q t [] (f a t)) :
    X.Shows n names Q s parts ((m >>= f) s) := by
  have hbind := h.bind hf
  rwa [Outcome.next_nil, List.append_nil] at hbind

/-! ## Parts -/

/-- A task without fuel is met where it begins, and nowhere else. -/
theorem scene_zero {task : Task} (hr : X.Right ⟨0, task, s⟩) :
    X.Scene 0 names P s [(task, s)] (.unfinished t) where
  gives := nofun
  sound := nofun
  returns := nofun
  undefined := nofun
  right p hp := by rw [List.mem_singleton.1 hp]; exact hr
  met u hu := by rw [List.mem_singleton.1 hu]; exact hr.sound
  ordered := List.pairwise_pair.2 (.refl s)
  before := nofun

/-- From the parts of a task to the task as a part. -/
theorem Scene.whole {task : Task} (h : X.Scene n names P s (task.parts n s) o) (hr : X.Right ⟨n + 1, task, s⟩)
    (ho : task.ended? (n + 1) s = o.ended?) : X.Scene (n + 1) names P s [(task, s)] o := by
  have htrace : Task.traces (n + 1) [(task, s)] = s :: Task.traces n (task.parts n s) ++ o.ended?.toList := by
    rw [Task.traces_singleton, ← ho]
    rfl
  have hfirst : ∀ u ∈ s :: Task.traces n (task.parts n s), s.Grows u := by
    intro u hu
    rcases List.mem_cons.1 hu with rfl | hu
    · exact .refl u
    · exact (List.pairwise_cons.1 h.ordered).1 u hu
  have hlast : ∀ t, o.ended? = some t → ∀ u ∈ s :: Task.traces n (task.parts n s), u.Grows t := by
    intro t ht u hu
    rcases List.mem_cons.1 hu with rfl | hu
    · exact (h.returns t ht).toGrows
    · exact h.before t ht u hu
  refine ⟨h.gives, h.sound, h.returns, h.undefined, fun p hp => ?_, fun u hu => ?_, ?_, fun t ht u hu => ?_⟩
  · rw [List.mem_singleton.1 hp]
    exact hr
  · rw [htrace] at hu
    rcases List.mem_append.1 hu with hu | hu
    · rcases List.mem_cons.1 hu with rfl | hu
      · exact hr.sound
      · exact h.met u hu
    · exact h.sound u (Option.mem_toList.1 hu)
  · rw [htrace]
    refine List.pairwise_cons.2 ⟨fun u hu => ?_, List.pairwise_append.2 ⟨h.ordered, ?_, fun u hu t ht => ?_⟩⟩
    · rcases List.mem_append.1 hu with hu | hu
      · exact hfirst u hu
      · exact (h.returns u (Option.mem_toList.1 hu)).toGrows
    · cases o.ended? with
      | none => exact .nil
      | some t => exact List.pairwise_singleton _ t
    · exact hlast t (Option.mem_toList.1 ht) u hu
  · rw [htrace] at hu
    rcases List.mem_append.1 hu with hu | hu
    · exact hlast t ht u hu
    · rw [Option.mem_toList.1 hu] at ht
      cases ht
      exact .refl _

/-! ## Scopes -/

theorem sound_of_grows (hg : s.Grows t) (hgood : X.Good t) (hh : t.scopes.Holds (X.Fits s)) : X.Sound t :=
  ⟨hgood, hh.mono fun _ => X.fits_grows hg⟩

theorem ended?_restoring {adjust : Nat → Nat} (h : (restoring s.current adjust o).ended? = some t) :
    ∃ u, o.ended? = some u ∧ t = s.leave u adjust := by
  cases o with
  | done a u | failed e u => cases h; exact ⟨u, rfl, rfl⟩
  | unfinished u => cases h

/-- A computation in a new scope. -/
theorem Shows.within {parent : ScopeId} {bindings : Dictionary Value} {depth : Nat} (adjust : Nat → Nat)
    (h : X.Shows n names P (s.enter parent bindings depth) parts o) (hs : X.Sound s) (hdepth : adjust depth = s.depth)
    (hP : ∀ {t u a}, t.Grows u → P t a → P u a) : X.Shows n [] P s parts (restoring s.current adjust o) := by
  intro ha
  have h := h ha
  have hreturns : ∀ u, o.ended? = some u → s.Returns [] (s.leave u adjust) := fun u hu => (h.returns u hu).leave hdepth
  refine ⟨fun a t ho => ?_, fun t ht => ?_, fun t ht => ?_, fun x line t ho => ?_, h.right, h.met, ?_,
    fun t ht u hu => ?_⟩
  · obtain ⟨u, hu, rfl⟩ := restoring_done ho
    exact hP (s.grows_leave u adjust) (h.gives a u hu)
  · obtain ⟨u, hu, rfl⟩ := ended?_restoring ht
    have hsound := h.sound u hu
    exact sound_of_grows (s.grows_leave u adjust) (X.left hs.good hsound.good (hreturns u hu)) hsound.holds
  · obtain ⟨u, hu, rfl⟩ := ended?_restoring ht
    exact hreturns u hu
  · obtain ⟨u, hu, -⟩ := restoring_failed ho
    exact h.undefined x line u hu
  · obtain ⟨hfirst, hrest⟩ := List.pairwise_cons.1 h.ordered
    exact List.pairwise_cons.2 ⟨fun u hu => (s.grows_enter parent bindings depth).trans (hfirst u hu), hrest⟩
  · obtain ⟨v, hv, rfl⟩ := ended?_restoring ht
    exact (h.before v hv u hu).trans (s.grows_leave v adjust)

end

end Discipline

end StrategyScript
