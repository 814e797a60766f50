/-
What one interpreter comes through: run after run, each in the session that the one before it has left
behind, whether that one succeeded or failed, and the last of them perhaps still under way. A session
is reachable when some interpreter comes through it. A discipline that new sessions satisfy, and that
the start of a run does not break, holds in all reachable sessions.
-/
import StrategyScript.Proofs.Run.Upkeep

namespace StrategyScript

open Eval

instance (e : Ending) : Decidable (e = .unfinished) :=
  match e with
  | .unfinished => isTrue rfl
  | .success | .failure _ => isFalse nofun

namespace Session

/-- The first moment of a run. -/
def start (s : Session) (fuel : Nat) (p : Program) (market : Market) : Moment :=
  ⟨fuel, .executeAll p, s.prepare market⟩

/-- The sessions that an interpreter has come through, in order, until it waits for its next run. -/
inductive History (c : Limits) : List Session → Session → Prop
  | new : History c [] (new c)
  | run {past : List Session} {s : Session} {fuel : Nat} {p : Program} {market : Market} (h : History c past s)
      (he : (s.run fuel p market).1 ≠ .unfinished) :
      History c (past ++ s :: (s.start fuel p market).trace) (s.run fuel p market).2

/-- The same with one more run, as far as it has come. -/
inductive Course (c : Limits) : List Session → Prop
  | mk {past : List Session} {s : Session} (h : History c past s) (fuel : Nat) (p : Program) (market : Market) :
      Course c (past ++ s :: (s.start fuel p market).trace)

/-- Some interpreter comes through the session. -/
def Reachable (s : Session) : Prop := ∃ c course, Course c course ∧ s ∈ course

/-- The second session knows all scopes and names of the first. -/
def Precedes (s t : Session) : Prop := s.scopes.Extends t.scopes

theorem History.reachable {c : Limits} {past : List Session} {s : Session} (h : History c past s) : s.Reachable :=
  ⟨c, _, ⟨h, 0, [], .empty⟩, by simp⟩

end Session

namespace Discipline

open Session

variable {X : Discipline}

/-! ## One run -/

section

variable {s : Session} {fuel : Nat} {p : Program} {market : Market}

/-- An ended run leaves the session behind in which its statements have ended: they end in the global
scope, where they began. -/
theorem ended?_of_run (hr : X.Right (s.start fuel p market)) (he : (s.run fuel p market).1 ≠ .unfinished) :
    (s.start fuel p market).ended? = some (s.run fuel p market).2 := by
  have hcurrent : ∀ u, (executeAll fuel p (s.prepare market)).ended? = some u → u.current = globalScope :=
    fun u hu => (hr.ended hu).2.current
  unfold run executeProgram at he ⊢
  cases ho : executeAll fuel p (s.prepare market) with
  | unfinished u =>
    rw [bind_unfinished _ ho] at he
    exact absurd rfl he
  | failed f u =>
    rw [ho] at hcurrent
    have hstays : some u = some { u with current := globalScope } := by rw [← hcurrent u rfl]
    rw [bind_failed _ ho]
    exact (congrArg Outcome.ended? ho).trans hstays
  | done flow u =>
    rw [ho] at hcurrent
    have hstays : some u = some { u with current := globalScope } := by rw [← hcurrent u rfl]
    rw [bind_done _ ho]
    cases flow with
    | normal => exact congrArg Outcome.ended? ho
    | returned v line => exact (congrArg Outcome.ended? ho).trans hstays

/-- A run fails over an undefined name only where the name has no meaning. -/
theorem unresolved_of_run (hr : X.Right (s.start fuel p market)) {x : String} {line : Nat}
    (hrun : (s.run fuel p market).1 = .failure (.fault (.undefinedVariable x) line)) :
    ∃ u, X.Sound u ∧ u.scopes.resolve u.current x = none := by
  unfold run executeProgram at hrun
  cases ho : executeAll fuel p (s.prepare market) with
  | unfinished u => rw [bind_unfinished _ ho] at hrun; cases hrun
  | failed f u =>
    rw [bind_failed _ ho] at hrun
    cases hrun
    exact ((X.keeps fuel).executeAll p _ hr).undefined x line u ho
  | done flow u =>
    rw [bind_done _ ho] at hrun
    cases flow <;> cases hrun

end

/-! ## Run after run -/

/-- The discipline concerns no moment in particular, and holds whenever a run begins. -/
structure Lasts (X : Discipline) (c : Limits) : Prop where
  admits : ∀ m, X.Admits m
  new : X.Good (.new c)
  prepare : ∀ {s market}, X.Good s → X.Good (s.prepare market)
  fits_prepare : ∀ {s market f}, X.Fits s f → X.Fits (s.prepare market) f

section

variable {c : Limits} {past us : List Session} {s : Session}

theorem Lasts.sound_new (h : X.Lasts c) : X.Sound (.new c) := ⟨h.new, Forest.holds_builtins _ _⟩

theorem Lasts.start (h : X.Lasts c) (hs : X.Sound s) (fuel : Nat) (p : Program) (market : Market) :
    X.Right (s.start fuel p market) :=
  ⟨h.admits _, ⟨h.prepare hs.good, hs.holds.mono fun _ => h.fits_prepare⟩, trivial⟩

/-- What a run adds to the sessions before it. -/
theorem Right.pairwise_append {fuel : Nat} {p : Program} {market : Market} (hr : X.Right (s.start fuel p market))
    (hpast : (past ++ [s]).Pairwise Precedes) : (past ++ s :: (s.start fuel p market).trace).Pairwise Precedes := by
  have hafter : ∀ u ∈ (s.start fuel p market).trace, s.Precedes u := fun u hu => (hr.grows u hu).scopes
  obtain ⟨hbefore, -, hlast⟩ := List.pairwise_append.1 hpast
  refine List.pairwise_append.2 ⟨hbefore, List.pairwise_cons.2 ⟨hafter, hr.ordered.imp (·.scopes)⟩, fun u hu v hv => ?_⟩
  have hus : u.Precedes s := hlast u hu s (List.mem_singleton_self s)
  rcases List.mem_cons.1 hv with rfl | hv
  · exact hus
  · exact hus.trans (hafter v hv)

theorem Lasts.history (h : X.Lasts c) (hist : History c past s) :
    (∀ u ∈ past ++ [s], X.Sound u) ∧ (past ++ [s]).Pairwise Precedes := by
  induction hist with
  | new => exact ⟨fun u hu => List.mem_singleton.1 hu ▸ h.sound_new, List.pairwise_singleton _ _⟩
  | @run past s fuel p market hist he ih =>
    obtain ⟨hsound, hpast⟩ := ih
    have hr := h.start (hsound s (by simp)) fuel p market
    have hended := ended?_of_run hr he
    refine ⟨fun u hu => ?_, ?_⟩
    · simp only [List.mem_append, List.mem_cons, List.not_mem_nil, or_false] at hu hsound
      rcases hu with (hu | rfl | hu) | rfl
      · exact hsound u (.inl hu)
      · exact hsound u (.inr rfl)
      · exact hr.trace u hu
      · exact (hr.ended hended).1
    · refine List.pairwise_append.2 ⟨hr.pairwise_append hpast, List.pairwise_singleton _ _, fun u hu v hv => ?_⟩
      rw [List.mem_singleton.1 hv]
      have hlast : s.Precedes (s.run fuel p market).2 := (hr.ended hended).2.scopes
      rcases List.mem_append.1 hu with hu | hu
      · exact ((List.pairwise_append.1 hpast).2.2 u hu s (List.mem_singleton_self s)).trans hlast
      · rcases List.mem_cons.1 hu with rfl | hu
        · exact hlast
        · exact (hr.before hended u hu).scopes

theorem Lasts.course (h : X.Lasts c) (hus : Course c us) : (∀ u ∈ us, X.Sound u) ∧ us.Pairwise Precedes := by
  obtain @⟨past, s, hist, fuel, p, market⟩ := hus
  obtain ⟨hsound, hpast⟩ := h.history hist
  have hr := h.start (hsound s (by simp)) fuel p market
  refine ⟨fun u hu => ?_, hr.pairwise_append hpast⟩
  rcases List.mem_append.1 hu with hu | hu
  · exact hsound u (List.mem_append_left _ hu)
  · rcases List.mem_cons.1 hu with rfl | hu
    · exact hsound u (by simp)
    · exact hr.trace u hu

theorem sound_of_reachable (h : ∀ c, X.Lasts c) (hs : s.Reachable) : X.Sound s := by
  obtain ⟨c, us, hus, hmem⟩ := hs
  exact ((h c).course hus).1 s hmem

theorem right_evaluate (h : ∀ c, X.Lasts c) (hs : s.Reachable) (fuel : Nat) (e : Expr) :
    X.Right ⟨fuel, .evaluate e, s⟩ := ⟨(h s.limits).admits _, sound_of_reachable h hs, trivial⟩

theorem right_execute (h : ∀ c, X.Lasts c) (hs : s.Reachable) (fuel : Nat) (stmt : Stmt) :
    X.Right ⟨fuel, .execute stmt, s⟩ := ⟨(h s.limits).admits _, sound_of_reachable h hs, trivial⟩

end

/-- Nothing is asked of the sessions; what a step can do to them remains. -/
def lax : Discipline where
  Good _ := True
  Fits _ _ := True
  Admits _ := True
  admits_part _ _ _ _ := trivial
  fits_grows _ _ := trivial
  fits_new _ _ := trivial
  counted _ := trivial
  numbered _ := trivial
  traded _ := trivial
  assigned _ _ _ _ := trivial
  defined _ _ _ _ := trivial
  entered _ := trivial
  called _ _ _ := trivial
  left _ _ _ := trivial

theorem lax_lasts (c : Limits) : lax.Lasts c :=
  ⟨fun _ => trivial, trivial, fun _ => trivial, fun _ => trivial⟩

end Discipline

end StrategyScript
