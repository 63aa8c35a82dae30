import KeyDispensary.Proofs.Keys.Uploads
import KeyDispensary.Proofs.Labels

/-!
What a pool stands for: a map from ids to keys of which the key with the smallest id is taken first. Main
statements: `Shelf.get?_of` and `Shelf.get?_take`, which give the map after each change.
-/

namespace KeyDispensary

/-- A finite map from ids to keys, as the list of its keys in ascending order of their ids. -/
structure Shelf (κ : Type) [Record κ] where
  keys : List κ
  ascending : keys.Pairwise fun a b => Record.keyId a < Record.keyId b

variable {κ : Type} [Record κ]

/-- A key comes no later than another if its id is not greater. -/
def precedes (first second : κ) : Bool :=
  Record.keyId first ≤ Record.keyId second

/-- Keys with different ids are in ascending order once they are sorted. -/
theorem sorted_ascending {keys : List κ}
    (apart : keys.Pairwise fun a b => Record.keyId a ≠ Record.keyId b) :
    (keys.mergeSort precedes).Pairwise fun a b => Record.keyId a < Record.keyId b := by
  -- The sort needs an order of ids that is transitive and total.
  have trans (a b c : κ) (first : precedes a b) (second : precedes b c) : precedes a c :=
    decide_eq_true (UInt64.le_trans (of_decide_eq_true first) (of_decide_eq_true second))
  have total (a b : κ) : precedes a b || precedes b a := by
    simp [precedes, UInt64.le_total]
  have sorted := List.pairwise_mergeSort trans total keys
  have distinct : (keys.mergeSort precedes).Pairwise fun a b => Record.keyId a ≠ Record.keyId b :=
    (List.mergeSort_perm keys precedes).symm.pairwise apart fun differs => differs.symm
  -- What is not greater and differs is less.
  refine sorted.imp₂ (fun a b notGreater differs => ?_) distinct
  exact UInt64.lt_of_le_of_ne (of_decide_eq_true notGreater) differs

namespace Shelf

/-- No keys. -/
def empty : Shelf κ :=
  ⟨[], .nil⟩

/-- The map of given keys, of which the last with each id counts. -/
def of (keys : List κ) : Shelf κ :=
  ⟨(lastOfEach Record.keyId keys).mergeSort precedes,
    sorted_ascending (lastOfEach_apart Record.keyId keys)⟩

/-- The key with an id. -/
def get? (shelf : Shelf κ) (id : UInt64) : Option κ :=
  shelf.keys.find? fun key => Record.keyId key = id

/-- The number of keys. -/
def size (shelf : Shelf κ) : Nat :=
  shelf.keys.length

/-- Takes out the key with the smallest id. -/
def take (shelf : Shelf κ) : Option κ × Shelf κ :=
  match shelf with
  | ⟨[], _⟩ => (none, empty)
  | ⟨key :: rest, ascending⟩ => (some key, ⟨rest, (List.pairwise_cons.1 ascending).2⟩)

/-- A key is found under its id exactly if it is one of the keys. -/
theorem get?_eq_some_iff {shelf : Shelf κ} {id : UInt64} {key : κ} :
    shelf.get? id = some key ↔ key ∈ shelf.keys ∧ Record.keyId key = id := by
  constructor
  · intro found
    exact ⟨List.mem_of_find?_eq_some found, by simpa using List.find?_some found⟩
  · rintro ⟨member, rfl⟩
    -- Ids ascend, so no other key has this id.
    obtain ⟨keys, ascending⟩ := shelf
    induction keys with
    | nil => cases member
    | cons first rest ih =>
      obtain ⟨lower, tail⟩ := List.pairwise_cons.1 ascending
      rcases List.mem_cons.1 member with rfl | later
      · exact List.find?_cons_of_pos (by simp)
      · have apart : Record.keyId first ≠ Record.keyId key := UInt64.ne_of_lt (lower key later)
        exact (List.find?_cons_of_neg (by simpa using apart)).trans (ih tail later)

/-- The keys of a map of given keys are the last with each id. -/
theorem mem_of {keys : List κ} {key : κ} :
    key ∈ (of keys).keys ↔ Pool.keyFor? keys (Record.keyId key) = some key :=
  List.mem_mergeSort.trans mem_lastOfEach

/-- The map of given keys has for each id the last key with it. -/
theorem get?_of (keys : List κ) (id : UInt64) : (of keys).get? id = Pool.keyFor? keys id := by
  -- Both sides give the same keys.
  apply Option.ext
  intro key
  rw [get?_eq_some_iff, mem_of]
  constructor
  · rintro ⟨last, rfl⟩
    exact last
  · intro last
    have same : Record.keyId key = id := by simpa using List.find?_some last
    exact ⟨same.symm ▸ last, same⟩

/-- The key that is taken has the smallest id of all, and nothing is taken only when there are no keys. -/
theorem get?_take (shelf : Shelf κ) :
    match shelf.take with
    | (none, left) => left = shelf ∧ ∀ id, shelf.get? id = none
    | (some key, left) => shelf.get? (Record.keyId key) = some key ∧
      (∀ id, (shelf.get? id).isSome → Record.keyId key ≤ id) ∧
      ∀ id, left.get? id = if id = Record.keyId key then none else shelf.get? id := by
  obtain ⟨keys, ascending⟩ := shelf
  cases keys with
  | nil => exact ⟨rfl, fun _ => rfl⟩
  | cons key rest =>
    -- The first key has the smallest id.
    obtain ⟨lower, tail⟩ := List.pairwise_cons.1 ascending
    refine ⟨get?_eq_some_iff.2 ⟨.head _, rfl⟩, fun id present => ?_, fun id => ?_⟩
    · obtain ⟨other, found⟩ := Option.isSome_iff_exists.1 present
      obtain ⟨member, rfl⟩ := get?_eq_some_iff.1 found
      rcases List.mem_cons.1 member with rfl | later
      · exact UInt64.le_refl _
      · exact UInt64.le_of_lt (lower other later)
    · by_cases same : id = Record.keyId key
      · -- All other ids are greater.
        rw [if_pos same, get?, List.find?_eq_none]
        intro other member
        simpa [same] using (UInt64.ne_of_lt (lower other member)).symm
      · rw [if_neg same]
        exact (List.find?_cons_of_neg (by simpa [eq_comm] using same)).symm

/-- The rows in which a pool keeps the keys of a device. -/
def rows (pool : Pool κ) (identity : Identity) (device : Device) (shelf : Shelf κ) : List Row :=
  shelf.keys.map fun key => Row.of pool.table (Pool.item identity device key)

end Shelf

end KeyDispensary
