/-
What making a file and writing to it do to a tree. A path leads to a place where a file can be made, or
making it fails and the tree stays as it is. The new file has the bytes written to it, up to as many as
it keeps; everywhere else there is what was there.
-/
import StrategyScript.Host.Tree
import StrategyScript.Proofs.Fault
import Mathlib.Tactic

namespace StrategyScript.FileTree

variable {t t' : FileTree} {path : String} {place other : List String} {e : FileEntry} {bytes : List UInt8}

/-! ## Entries -/

theorem entry?_put_self (hp : place ≠ []) : entry? (t.put place e) place = some e := by
  unfold entry? put
  rw [if_neg hp, List.lookup_cons_self]

theorem lookup_filter_ne (entries : List (List String × FileEntry)) (h : other ≠ place) :
    (entries.filter (·.1 ≠ place)).lookup other = entries.lookup other := by
  induction entries with
  | nil => rfl
  | cons entry entries ih =>
    obtain ⟨p, e⟩ := entry
    by_cases hp : p = place
    · rw [List.filter_cons_of_neg (by simpa using hp), ih, List.lookup_cons, beq_false_of_ne (hp ▸ h)]
    · rw [List.filter_cons_of_pos (by simpa using hp), List.lookup_cons, List.lookup_cons, ih]

theorem entry?_put_of_ne (h : other ≠ place) : entry? (t.put place e) other = t.entry? other := by
  unfold entry? put
  rw [List.lookup_cons, beq_false_of_ne h]
  exact congrArg _ (lookup_filter_ne t.entries h)

/-! ## Making a file -/

/-- A file can be made here, at the end of the path: what is here is not a directory, and the machine
does not refuse. -/
structure CanCreate (t : FileTree) (path : String) (place : List String) : Prop where
  resolved : t.resolveNew path = .ok place
  vacant : t.entry? place ≠ some .directory
  granted : t.refusals.create place = none

/-- The second tree has these bytes in the place, and is the first one everywhere else. -/
structure Replaces (t t' : FileTree) (place : List String) (bytes : List UInt8) : Prop where
  here : t'.entry? place = some (.file bytes)
  elsewhere : ∀ other, other ≠ place → t'.entry? other = t.entry? other

theorem resolveNew_ne_nil (h : t.resolveNew path = .ok place) : place ≠ [] := by
  unfold resolveNew at h
  split at h
  · cases h
  · obtain ⟨above, -, h⟩ := bind_eq_ok h
    obtain ⟨_, -, h⟩ := bind_eq_ok h
    -- the name comes last
    have hname : ∀ name, (.ok (above ++ [name]) : Except FileFault (List String)) = .ok place → place ≠ [] := by
      intro name hplace
      cases hplace
      simp
    dsimp only at h
    split at h
    · cases h
    · exact hname _ h

theorem replaces_put (hp : place ≠ []) (bytes : List UInt8) : t.Replaces (t.put place (.file bytes)) place bytes where
  here := entry?_put_self hp
  elsewhere _ h := entry?_put_of_ne h

/-- Two changes in one place are the last of them. -/
theorem Replaces.put {old : List UInt8} (h : t.Replaces t' place old) (hp : place ≠ []) (bytes : List UInt8) :
    t.Replaces (t'.put place (.file bytes)) place bytes where
  here := entry?_put_self hp
  elsewhere other hne := (entry?_put_of_ne hne).trans (h.elsewhere other hne)

theorem create_of_canCreate (h : t.CanCreate path place) : t.create path = .ok (t.put place (.file []), place) := by
  unfold create
  rw [h.resolved]
  have hvacant := h.vacant
  simp only [bind, Except.bind, h.granted]
  cases he : t.entry? place with
  | none => rfl
  | some entry =>
    cases entry with
    | file _ => rfl
    | directory => exact absurd he hvacant

theorem canCreate_of_create {r : FileTree × List String} (h : t.create path = .ok r) : t.CanCreate path r.2 := by
  obtain ⟨place, hplace, h⟩ := bind_eq_ok h
  split at h
  · cases h
  · cases h
  · rename_i entry hgranted hvacant
    cases h
    exact ⟨hplace, hvacant, hgranted⟩

theorem create_of_not_canCreate (h : ∀ place, ¬ t.CanCreate path place) : ∃ fault, t.create path = .error fault := by
  cases hc : t.create path with
  | error fault => exact ⟨fault, rfl⟩
  | ok r => exact absurd (canCreate_of_create hc) (h r.2)

/-! ## Writing -/

/-- A file in the place keeps all of these bytes. -/
def Keeps (t : FileTree) (place : List String) (bytes : List UInt8) : Prop :=
  ∀ n r, t.refusals.write place = some (n, r) → bytes.length ≤ n

/-- Writing these bytes to a file in the place does not break off. -/
def Takes (t : FileTree) (place : List String) (bytes : List UInt8) : Prop :=
  ∀ n fault, t.refusals.write place = some (n, .error fault) → bytes.length ≤ n

section

variable {n : Nat} {r : Except FileFault Unit} {fault : FileFault}

theorem Keeps.takes (h : t.Keeps place bytes) : t.Takes place bytes := fun n fault hw => h n (.error fault) hw

theorem not_keeps (hw : t.refusals.write place = some (n, r)) (hn : n < bytes.length) : ¬ t.Keeps place bytes :=
  fun hk => Nat.not_lt.2 (hk n r hw) hn

theorem takes_of_ok (hw : t.refusals.write place = some (n, .ok ())) : t.Takes place bytes := by
  intro m fault hfault
  cases hw.symm.trans hfault

theorem not_takes (hw : t.refusals.write place = some (n, .error fault)) (hn : n < bytes.length) :
    ¬ t.Takes place bytes :=
  fun ht => Nat.not_lt.2 (ht n fault hw) hn

theorem accept_of_keeps (h : t.Keeps place bytes) : t.accept place bytes = (bytes, .ok ()) := by
  unfold accept
  split
  · rfl
  · rename_i n r hw
    exact if_pos (h n r hw)

theorem accept_of_not_keeps (h : ¬ t.Keeps place bytes) :
    ∃ n r, t.refusals.write place = some (n, r) ∧ n < bytes.length ∧ t.accept place bytes = (bytes.take n, r) := by
  unfold Keeps at h
  push Not at h
  obtain ⟨n, r, hw, hn⟩ := h
  exact ⟨n, r, hw, hn, by simp only [accept, hw, if_neg (Nat.not_le.2 hn)]⟩

end

end StrategyScript.FileTree
