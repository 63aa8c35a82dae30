import KeyDispensary.Store.Item

/-!
Rows: the items of all tables, in ascending order of table, partition and sort key, one for each key.

Rows carry the proof of their order, so that no two of them differ in it alone.
-/

namespace KeyDispensary

/-- The place of a row among the rows of all tables. -/
structure RowKey where
  table : String
  partition : Bytes
  sort : Bytes
deriving DecidableEq

namespace RowKey

/-- Rows come in the order of tables, within a table of partitions, and there of sort keys. -/
instance : LT RowKey where
  lt a b := a.table < b.table ∨ (a.table = b.table ∧
    (a.partition < b.partition ∨ (a.partition = b.partition ∧ a.sort < b.sort)))

instance (a b : RowKey) : Decidable (a < b) :=
  inferInstanceAs (Decidable (a.table < b.table ∨ (a.table = b.table ∧
    (a.partition < b.partition ∨ (a.partition = b.partition ∧ a.sort < b.sort)))))

/-- The place of an item in a table. -/
def of (table : String) (key : Key) : RowKey :=
  ⟨table, key.partition, key.sort⟩

/-- No key comes before itself. -/
theorem lt_irrefl (a : RowKey) : ¬ a < a := by
  -- No part of a key comes before itself.
  rintro (less | ⟨_, less | ⟨_, less⟩⟩)
  · exact String.lt_irrefl _ less
  · exact List.lt_irrefl _ less
  · exact List.lt_irrefl _ less

/-- What comes before a key comes before all that the key precedes. -/
theorem lt_trans {a b c : RowKey} (first : a < b) (second : b < c) : a < c := by
  -- The first part on which either pair differs decides for both.
  rcases first with tables | ⟨tables, first⟩ <;> rcases second with tables' | ⟨tables', second⟩
  · exact .inl (String.lt_trans tables tables')
  · exact .inl (tables' ▸ tables)
  · exact .inl (tables ▸ tables')
  · refine .inr ⟨tables.trans tables', ?_⟩
    rcases first with less | ⟨same, less⟩ <;> rcases second with less' | ⟨same', less'⟩
    · exact .inl (List.lt_trans less less')
    · exact .inl (same' ▸ less)
    · exact .inl (same ▸ less')
    · exact .inr ⟨same.trans same', List.lt_trans less less'⟩

/-- Two keys of which neither comes before the other are one key. -/
theorem eq_of_not_lt {a b : RowKey} (left : ¬ a < b) (right : ¬ b < a) : a = b := by
  obtain ⟨table, partition, sort⟩ := a
  obtain ⟨table', partition', sort'⟩ := b
  -- Each part is settled by the order of its own type.
  have tables : table = table' :=
    String.le_antisymm (String.not_lt.1 fun less => right (.inl less))
      (String.not_lt.1 fun less => left (.inl less))
  subst tables
  have partitions : partition = partition' :=
    List.le_antisymm (List.not_lt.1 fun less => right (.inr ⟨rfl, .inl less⟩))
      (List.not_lt.1 fun less => left (.inr ⟨rfl, .inl less⟩))
  subst partitions
  have sorts : sort = sort' :=
    List.le_antisymm (List.not_lt.1 fun less => right (.inr ⟨rfl, .inr ⟨rfl, less⟩⟩))
      (List.not_lt.1 fun less => left (.inr ⟨rfl, .inr ⟨rfl, less⟩⟩))
  subst sorts
  rfl

end RowKey

/-- One row. -/
structure Row where
  key : RowKey
  value : Bytes
deriving DecidableEq

/-- The item of a row. -/
def Row.item (row : Row) : Item :=
  ⟨⟨row.key.partition, row.key.sort⟩, row.value⟩

/-- The row of an item in a table. -/
def Row.of (table : String) (item : Item) : Row :=
  ⟨RowKey.of table item.key, item.value⟩

/-- Whether a row lies in a partition of a table. -/
def Row.within (row : Row) (table : String) (partition : Bytes) : Bool :=
  row.key.table = table && row.key.partition = partition

/-- Places a row into an ascending list, in place of a row with its key. -/
def placeRow (row : Row) : List Row → List Row
  | [] => [row]
  | first :: rest =>
    if row.key < first.key then row :: first :: rest
    else if row.key = first.key then row :: rest
    else first :: placeRow row rest

/-- Placing a row adds no row but this one. -/
theorem mem_placeRow {row other : Row} {rows : List Row} (member : other ∈ placeRow row rows) :
    other = row ∨ other ∈ rows := by
  -- Each branch keeps rows of the list or puts in the new one.
  induction rows with
  | nil => simpa [placeRow] using member
  | cons first rest ih =>
    simp only [placeRow] at member
    split at member
    · simpa using member
    · split at member
      · simp only [List.mem_cons] at member ⊢
        rcases member with same | later
        · exact .inl same
        · exact .inr (.inr later)
      · simp only [List.mem_cons] at member ⊢
        rcases member with same | later
        · exact .inr (.inl same)
        · rcases ih later with same | earlier
          · exact .inl same
          · exact .inr (.inr earlier)

/-- Placing a row keeps the order. -/
theorem placeRow_ascending (row : Row) {rows : List Row}
    (ascending : rows.Pairwise fun a b => a.key < b.key) :
    (placeRow row rows).Pairwise fun a b => a.key < b.key := by
  induction rows with
  | nil => simp [placeRow]
  | cons first rest ih =>
    have ⟨lower, tail⟩ := List.pairwise_cons.1 ascending
    simp only [placeRow]
    split
    · -- The new row comes first, and so before all that the first row precedes.
      rename_i before
      refine List.pairwise_cons.2 ⟨fun other member => ?_, ascending⟩
      rcases List.mem_cons.1 member with same | later
      · exact same ▸ before
      · exact RowKey.lt_trans before (lower other later)
    · split
      · -- The new row takes the place of one with its key.
        rename_i same
        exact List.pairwise_cons.2 ⟨fun other member => same ▸ lower other member, tail⟩
      · -- The new row goes further down, and it does not precede the first row.
        rename_i notBefore notSame
        refine List.pairwise_cons.2 ⟨fun other member => ?_, ih tail⟩
        rcases mem_placeRow member with same | later
        · subst same
          by_cases after : first.key < other.key
          · exact after
          · exact absurd (RowKey.eq_of_not_lt notBefore after) notSame
        · exact lower other later

/-- The rows of all tables. -/
structure Rows where
  /-- The rows in ascending order of their keys. -/
  toList : List Row
  ascending : toList.Pairwise fun a b => a.key < b.key
deriving DecidableEq

namespace Rows

/-- No rows. -/
def empty : Rows :=
  ⟨[], .nil⟩

/-- The value under a key. -/
def get? (rows : Rows) (key : RowKey) : Option Bytes :=
  (rows.toList.find? fun row => row.key = key).map Row.value

/-- Puts a row in place of any row with its key. -/
def insert (rows : Rows) (row : Row) : Rows :=
  ⟨placeRow row rows.toList, placeRow_ascending row rows.ascending⟩

/-- Keeps the rows of which a test holds. -/
def filter (rows : Rows) (keep : Row → Bool) : Rows :=
  ⟨rows.toList.filter keep, rows.ascending.filter keep⟩

/-- Removes the row under a key, if there is one. -/
def erase (rows : Rows) (key : RowKey) : Rows :=
  rows.filter fun row => row.key ≠ key

/-- The number of rows. -/
def size (rows : Rows) : Nat :=
  rows.toList.length

end Rows

end KeyDispensary
