/-
Dictionaries with text keys. The keys ascend strictly, in the order of their characters' code points,
and each entry carries the proof that it stands in its place: a dictionary that is out of order, or has a
key twice, cannot be built.
-/

namespace StrategyScript

/-- Entries in ascending order of the keys. What follows a key is a dictionary with that key as its
bound, and a whole dictionary has none. -/
inductive Dictionary (α : Type) : (bound : Option String := none) → Type
  | nil {bound : Option String} : Dictionary α bound
  | cons {bound : Option String} (key : String) (value : α) (above : ∀ k ∈ bound, k < key)
      (rest : Dictionary α (some key)) : Dictionary α bound
deriving Repr

namespace Dictionary

variable {α β : Type} {bound : Option String}

instance : Inhabited (Dictionary α bound) := ⟨nil⟩

/-- The empty list stands for the dictionary without entries. -/
instance : CoeDep (List β) [] (Dictionary α bound) := ⟨nil⟩

/-! ## Reading -/

/-- What a key is bound to. -/
def get? {bound : Option String} : Dictionary α bound → String → Option α
  | nil, _ => none
  | cons k v _ d, key => if key = k then some v else d.get? key

def contains (d : Dictionary α bound) (key : String) : Bool :=
  (d.get? key).isSome

/-- The entries in ascending order of the keys. -/
def toList {bound : Option String} : Dictionary α bound → List (String × α)
  | nil => []
  | cons k v _ d => (k, v) :: d.toList

/-- What the entries give, one after another. -/
def map (f : String × α → β) (d : Dictionary α bound) : List β :=
  d.toList.map f

def keys (d : Dictionary α bound) : List String := d.map (·.1)

def values (d : Dictionary α bound) : List α := d.map (·.2)

instance : Membership (String × α) (Dictionary α bound) := ⟨fun d e => e ∈ d.toList⟩

/-! ## Building -/

/-- Binds a key that is above the bound, in place of what it was bound to before. -/
def insertAbove (key : String) (value : α) {bound : Option String} (above : ∀ k ∈ bound, k < key) :
    Dictionary α bound → Dictionary α bound
  | nil => cons key value above nil
  | cons k v hk d =>
    if heq : key = k then cons k value hk d
    else if hlt : key < k then cons key value above (cons k v (fun _ h => Option.mem_some.1 h ▸ hlt) d)
    else cons k v hk (insertAbove key value
      (fun _ h => Option.mem_some.1 h ▸ Std.lt_of_le_of_ne (String.not_lt.1 hlt) (Ne.symm heq)) d)

theorem above_none (key : String) : ∀ k ∈ (none : Option String), k < key := nofun

/-- Binds a key, in place of what it was bound to before. -/
def insert (key : String) (value : α) (d : Dictionary α) : Dictionary α :=
  d.insertAbove key value (above_none key)

def ofList (entries : List (String × α)) : Dictionary α :=
  entries.foldl (fun d (k, v) => d.insert k v) nil

/-- Lowers the bound. -/
def lower {key : String} (above : ∀ k ∈ bound, k < key) : Dictionary α (some key) → Dictionary α bound
  | nil => nil
  | cons k v hk d => cons k v (fun j hj => String.lt_trans (above j hj) (hk key rfl)) d

/-- The entries that pass a test. -/
def filter (p : String × α → Bool) {bound : Option String} : Dictionary α bound → Dictionary α bound
  | nil => nil
  | cons k v hk d => if p (k, v) then cons k v hk (filter p d) else (filter p d).lower hk

end Dictionary

end StrategyScript
