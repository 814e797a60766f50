/-
Commands on a file tree. An operation of the host, and every step made of such operations, is read as a
passage: from these files it comes to this result and leaves those files behind, whatever has been
written to the two streams. Nothing but making a file and writing to it changes the tree.
-/
import StrategyScript.Command.Basic
import StrategyScript.Proofs.Host.Tree

namespace StrategyScript.Command

/-- From these files the operation comes to `a` and leaves those files behind. -/
def Acts {α : Type} (op : StateM World α) (files : FileTree) (a : α) (files' : FileTree) : Prop :=
  ∀ w : World, w.files = files → ∃ w' : World, op w = (a, w') ∧ w'.files = files'

/-- The same for steps, which may end the command. -/
def Yields {α : Type} (step : Steps (StateM World) α) (files : FileTree) (r : Except Stop α) (files' : FileTree) :
    Prop :=
  Acts step.run files r files'

section

variable {α β : Type} {files files₁ files₂ : FileTree}

/-! ## Operations -/

theorem acts_pure (a : α) : Acts (pure a) files a files := fun w h => ⟨w, rfl, h⟩

theorem Acts.bind {op : StateM World α} {f : α → StateM World β} {a : α} {b : β} (h : Acts op files a files₁)
    (hf : Acts (f a) files₁ b files₂) : Acts (op >>= f) files b files₂ := by
  intro w hw
  obtain ⟨w₁, hop, hw₁⟩ := h w hw
  obtain ⟨w₂, hf, hw₂⟩ := hf w₁ hw₁
  refine ⟨w₂, ?_, hw₂⟩
  show (op w >>= fun r => f r.1 r.2) = _
  rw [hop]
  exact hf

theorem acts_readText (files : FileTree) (path : String) :
    Acts (World.host.readText path) files (files.readText path) files :=
  fun w h => ⟨w, by subst h; rfl, h⟩

theorem acts_report (text : String) : Acts (World.host.report text) files () files :=
  fun w h => ⟨{ w with stderr := w.stderr ++ text }, rfl, h⟩

theorem acts_print {text : String} (h : files.refusals.print = none) :
    Acts (World.host.print text) files (.ok ()) files := by
  rintro w rfl
  refine ⟨{ w with stdout := w.stdout ++ text }, ?_, rfl⟩
  simp only [World.host, bind, StateT.bind, get, getThe, MonadStateOf.get, StateT.get, pure, h]
  rfl

theorem acts_print_error {text : String} {fault : FileFault} (h : files.refusals.print = some fault) :
    Acts (World.host.print text) files (.error fault) files := by
  rintro w rfl
  refine ⟨w, ?_, rfl⟩
  simp only [World.host, bind, StateT.bind, get, getThe, MonadStateOf.get, StateT.get, pure, h]
  rfl

theorem acts_createFile {path : String} {place : List String} (h : files.create path = .ok (files₁, place)) :
    Acts (World.host.createFile path) files (.ok (World.write place)) files₁ := by
  rintro w rfl
  refine ⟨{ w with files := files₁ }, ?_, rfl⟩
  simp only [World.host, bind, StateT.bind, get, getThe, MonadStateOf.get, StateT.get, pure, h]
  rfl

theorem acts_createFile_error {path : String} {fault : FileFault} (h : files.create path = .error fault) :
    Acts (World.host.createFile path) files (.error fault) files := by
  rintro w rfl
  refine ⟨w, ?_, rfl⟩
  simp only [World.host, bind, StateT.bind, get, getThe, MonadStateOf.get, StateT.get, pure, h]
  rfl

theorem acts_write {place : List String} {text : String} {bytes : List UInt8} {r : Except FileFault Unit}
    (h : files.accept place text.toUTF8.data.toList = (bytes, r)) :
    Acts (World.write place text) files r (files.put place (.file bytes)) := by
  rintro w rfl
  refine ⟨{ w with files := w.files.put place (.file bytes) }, ?_, rfl⟩
  simp only [World.write, bind, StateT.bind, get, getThe, MonadStateOf.get, StateT.get, pure, h]
  rfl

/-! ## Steps -/

theorem yields_pure (a : α) : Yields (pure a) files (.ok a) files := acts_pure _

theorem yields_throw (e : Stop) : Yields (throw e : Steps (StateM World) α) files (.error e) files := acts_pure _

theorem Yields.bind {step : Steps (StateM World) α} {f : α → Steps (StateM World) β} {a : α} {r : Except Stop β}
    (h : Yields step files (.ok a) files₁) (hf : Yields (f a) files₁ r files₂) :
    Yields (step >>= f) files r files₂ := by
  unfold Yields
  rw [ExceptT.run_bind]
  exact Acts.bind h hf

theorem Yields.stop {step : Steps (StateM World) α} {f : α → Steps (StateM World) β} {e : Stop}
    (h : Yields step files (.error e) files₁) : Yields (step >>= f) files (.error e) files₁ := by
  unfold Yields
  rw [ExceptT.run_bind]
  exact Acts.bind h (acts_pure _)

theorem Acts.ask {op : StateM World α} {a : α} (h : Acts op files a files₁) : Yields (ask op) files (.ok a) files₁ := by
  intro w hw
  obtain ⟨w₁, hop, hw₁⟩ := h w hw
  refine ⟨w₁, ?_, hw₁⟩
  show (op w >>= fun r => (pure (Except.ok r.1, r.2) : Id _)) = _
  rw [hop]
  rfl

theorem yields_reportLine (line : String) : Yields (reportLine World.host line) files (.ok ()) files :=
  (acts_report _).ask

theorem yields_stop (fault : Fault) (words : String) :
    Yields (Command.stop World.host fault words : Steps (StateM World) α) files (.error (.exit fault.exitCode)) files :=
  (yields_reportLine _).bind (yields_throw _)

theorem yields_orStop_ok (a : α) : Yields (orStop World.host (.ok a)) files (.ok a) files := yields_pure a

theorem yields_orStop_error (fault : Fault) :
    Yields (orStop World.host (.error fault) : Steps (StateM World) α) files (.error (.exit fault.exitCode)) files :=
  yields_stop fault _

theorem yields_forIn {γ : Type} (items : List γ) {f : γ → Steps (StateM World) Unit}
    (hf : ∀ c, Yields (f c) files (.ok ()) files) :
    Yields (forIn items PUnit.unit fun c _ => do f c; pure (ForInStep.yield PUnit.unit)) files (.ok PUnit.unit)
      files := by
  induction items with
  | nil => exact yields_pure _
  | cons c items ih =>
    rw [List.forIn_cons]
    exact Yields.bind (a := ForInStep.yield PUnit.unit) ((hf c).bind (yields_pure _)) ih

end

end StrategyScript.Command
