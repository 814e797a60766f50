/-
Relocation of what a session holds. A function value remembers its declaration, so its positions move
with those of the program; nothing else in a session knows a position. Operators, indexing and
built-ins look at kinds and contents only: on relocated values they do the same, and an error of
theirs moves with its line.
-/
import StrategyScript.Proofs.Syntax.Relocate
import StrategyScript.Proofs.Run.Outline
import StrategyScript.Run.Session
import StrategyScript.Run.Operator
import Mathlib.Tactic

namespace StrategyScript

/-! ## Values -/

def Function.relocate (ρ : Relocation) (f : Function) : Function :=
  { f with decl := f.decl.relocate ρ }

namespace Value

mutual

def relocate (ρ : Relocation) : Value → Value
  | .function f => .function (f.relocate ρ)
  | .record fields => .record (relocateFields ρ fields)
  | .list items => .list (relocateItems ρ items)
  | .null => .null
  | .boolean b => .boolean b
  | .number x => .number x
  | .string s => .string s
  | .builtin b => .builtin b

def relocateItems (ρ : Relocation) : List Value → List Value
  | [] => []
  | v :: vs => relocate ρ v :: relocateItems ρ vs

def relocateFields (ρ : Relocation) {bound : Option String} : Dictionary Value bound → Dictionary Value bound
  | .nil => .nil
  | .cons k v hk fs => .cons k (relocate ρ v) hk (relocateFields ρ fs)

end

variable (ρ : Relocation)

theorem relocateItems_eq_map (vs : List Value) : relocateItems ρ vs = vs.map (relocate ρ) := by
  induction vs with
  | nil => rfl
  | cons v vs ih => simp [relocateItems, ih]

theorem get?_relocateFields {bound : Option String} (fs : Dictionary Value bound) (key : String) :
    (relocateFields ρ fs).get? key = (fs.get? key).map (relocate ρ) := by
  induction fs with
  | nil => rfl
  | cons k v hk fs ih =>
    simp only [relocateFields, Dictionary.get?]
    split
    · rfl
    · exact ih

@[simp] theorem kind_relocate (v : Value) : (v.relocate ρ).kind = v.kind := by
  cases v <;> rfl

@[simp] theorem isTruthy_relocate (v : Value) : (v.relocate ρ).isTruthy = v.isTruthy := by
  cases v <;> rfl

mutual

@[simp] theorem equal_relocate : ∀ v w : Value, equal (v.relocate ρ) (w.relocate ρ) = equal v w
  | .record fs, .record gs => by simp only [relocate, equal, equalFields_relocate fs gs]
  | .list vs, .list ws => by simp only [relocate, equal, equalItems_relocate vs ws]
  | .null, w | .boolean _, w | .number _, w | .string _, w | .function _, w | .builtin _, w => by
    cases w <;> rfl
  | .record _, .null | .record _, .boolean _ | .record _, .number _ | .record _, .string _
  | .record _, .function _ | .record _, .builtin _ | .record _, .list _ => rfl
  | .list _, .null | .list _, .boolean _ | .list _, .number _ | .list _, .string _
  | .list _, .function _ | .list _, .builtin _ | .list _, .record _ => rfl

theorem equalItems_relocate : ∀ vs ws : List Value,
    equalItems (relocateItems ρ vs) (relocateItems ρ ws) = equalItems vs ws
  | [], [] | [], _ :: _ | _ :: _, [] => rfl
  | v :: vs, w :: ws => by
    simp only [relocateItems, equalItems, equal_relocate v w, equalItems_relocate vs ws]

theorem equalFields_relocate {bound bound' : Option String} : ∀ (fs : Dictionary Value bound)
    (gs : Dictionary Value bound'), equalFields (relocateFields ρ fs) (relocateFields ρ gs) = equalFields fs gs
  | .nil, .nil | .nil, .cons .. | .cons .., .nil => rfl
  | .cons _ v _ fs, .cons _ w _ gs => by
    simp only [relocateFields, equalFields, equal_relocate v w, equalFields_relocate fs gs]

end

mutual

@[simp] theorem relocate_stay : ∀ v : Value, v.relocate .stay = v
  | .function _ => by simp only [relocate, Function.relocate, FunctionDecl.relocate_stay]
  | .record fields => by simp only [relocate, relocateFields_stay fields]
  | .list items => by simp only [relocate, relocateItems_stay items]
  | .null | .boolean _ | .number _ | .string _ | .builtin _ => rfl

theorem relocateItems_stay : ∀ vs : List Value, relocateItems .stay vs = vs
  | [] => rfl
  | v :: vs => by rw [relocateItems, relocate_stay v, relocateItems_stay vs]

theorem relocateFields_stay {bound : Option String} : ∀ fs : Dictionary Value bound, relocateFields .stay fs = fs
  | .nil => rfl
  | .cons _ v _ fs => by rw [relocateFields, relocate_stay v, relocateFields_stay fs]

end

@[simp] theorem map_relocate_stay (vs : List Value) : vs.map (relocate .stay) = vs := by
  rw [← relocateItems_eq_map, relocateItems_stay]

end Value

@[simp] theorem Function.relocate_stay (f : Function) : f.relocate .stay = f := by
  simp [Function.relocate]

/-! ## Errors, operators and indexing -/

def RuntimeError.relocate (ρ : Relocation) : RuntimeError → RuntimeError
  | .fault cause line => .fault cause (ρ.line line)
  | .stepLimitExceeded limit => .stepLimitExceeded limit

/-- What an operation answers, moved. -/
def relocateAnswer (ρ : Relocation) (r : Except RuntimeError Value) : Except RuntimeError Value :=
  (r.map (Value.relocate ρ)).mapError (RuntimeError.relocate ρ)

section

variable (ρ : Relocation)

theorem dividesByZero_relocate (op : BinaryOp) (left right : Value) :
    dividesByZero op (left.relocate ρ) (right.relocate ρ) = dividesByZero op left right := by
  cases op <;> cases left <;> cases right <;> rfl

/-- The value of an operation is never a function, so it stays the same. -/
theorem operate_relocate (op : BinaryOp) (left right : Value) :
    op.operate (left.relocate ρ) (right.relocate ρ) = (op.operate left right).map (Value.relocate ρ) := by
  have hbeq : ((left.relocate ρ) == (right.relocate ρ)) = (left == right) := Value.equal_relocate ρ left right
  have hbne : ((left.relocate ρ) != (right.relocate ρ)) = (left != right) := by simp only [bne, hbeq]
  cases op
  case equal => simp only [BinaryOp.operate, hbeq]; rfl
  case notEqual => simp only [BinaryOp.operate, hbne]; rfl
  case and | or => simp only [BinaryOp.operate, Value.isTruthy_relocate]; rfl
  all_goals cases left <;> cases right <;> rfl

theorem BinaryOp.apply_relocate (op : BinaryOp) (left right : Value) (line : Nat) :
    op.apply (left.relocate ρ) (right.relocate ρ) (ρ.line line) = relocateAnswer ρ (op.apply left right line) := by
  unfold BinaryOp.apply
  rw [dividesByZero_relocate, operate_relocate]
  split
  · rfl
  · cases op.operate left right <;> rfl

theorem UnaryOp.apply_relocate (op : UnaryOp) (operand : Value) (line : Nat) :
    op.apply (operand.relocate ρ) (ρ.line line) = relocateAnswer ρ (op.apply operand line) := by
  cases op <;> cases operand <;> rfl

theorem itemAt?_relocate (items : List Value) (x : Float) :
    itemAt? (items.map (Value.relocate ρ)) x = (itemAt? items x).map (Value.relocate ρ) := by
  unfold itemAt?
  simp only
  split
  · exact List.getElem?_map ..
  · rfl

theorem Value.at_relocate (target index : Value) (line : Nat) :
    (target.relocate ρ).at (index.relocate ρ) (ρ.line line) = relocateAnswer ρ (target.at index line) := by
  match target, index with
  | .list items, .number x =>
    simp only [Value.relocate, Value.at, Value.relocateItems_eq_map, itemAt?_relocate, List.length_map]
    cases itemAt? items x <;> rfl
  | .record fields, .string key =>
    simp only [Value.relocate, Value.at, Value.get?_relocateFields]
    cases fields.get? key <;> rfl
  | .list _, .null | .list _, .boolean _ | .list _, .string _ | .list _, .function _
  | .list _, .builtin _ | .list _, .record _ | .list _, .list _ => rfl
  | .record _, .null | .record _, .boolean _ | .record _, .number _ | .record _, .function _
  | .record _, .builtin _ | .record _, .record _ | .record _, .list _ => rfl
  | .null, _ | .boolean _, _ | .number _, _ | .string _, _ | .function _, _ | .builtin _, _ => rfl

/-! ## Built-ins -/

theorem Value.outline_relocate (v : Value) : v.Outline (v.relocate ρ) := by
  cases v with
  | function f => exact .function f _
  | record fields => exact .record fields _
  | list items => exact .list (by rw [relocateItems_eq_map, List.length_map])
  | null | boolean _ | number _ | string _ | builtin _ => exact .same _

theorem outline_relocate_args (args : List Value) : List.Forall₂ Value.Outline args (args.map (Value.relocate ρ)) :=
  List.forall₂_map_right_iff.2 (List.forall₂_same.2 fun v _ => v.outline_relocate ρ)

theorem Argument.classify_relocate (args : List Value) : classify (args.map (Value.relocate ρ)) = classify args :=
  (classify_outline (outline_relocate_args ρ args)).symm

/-- A built-in does not look at the positions inside its arguments. -/
theorem Builtin.apply_relocate_args (b : Builtin) (market : Market) (log : TradeLog) (args : List Value) :
    b.apply market log (args.map (Value.relocate ρ)) = b.apply market log args :=
  (apply_outline (outline_relocate_args ρ args) b market log).symm

end

end StrategyScript
