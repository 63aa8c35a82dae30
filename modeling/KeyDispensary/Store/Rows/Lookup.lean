import KeyDispensary.Store.Rows

/-!
What is found under a key after each change of the rows. Main statements: `Rows.get?_insert`,
`Rows.get?_filter`, and `Rows.ext_get?`, by which rows are known from their values alone.
-/

namespace KeyDispensary

/-- Two rows of an ascending list that have one key are one row. -/
theorem eq_of_ascending {rows : List Row} (ascending : rows.Pairwise fun a b => a.key < b.key)
    {a b : Row} (left : a ∈ rows) (right : b ∈ rows) (same : a.key = b.key) : a = b := by
  -- The two rows are searched for along the list.
  induction rows with
  | nil => cases left
  | cons first rest ih =>
    obtain ⟨lower, tail⟩ := List.pairwise_cons.1 ascending
    -- The first row precedes all others, so it shares its key with none of them.
    rcases List.mem_cons.1 left with head | later <;> rcases List.mem_cons.1 right with head' | later'
    · rw [head, head']
    · exact absurd (same ▸ head ▸ lower b later') (RowKey.lt_irrefl _)
    · exact absurd (same ▸ head' ▸ lower a later) (RowKey.lt_irrefl _)
    · exact ih tail later later'

/-- Placing a row keeps the rows with other keys and no others. -/
theorem mem_placeRow_iff {row other : Row} {rows : List Row}
    (ascending : rows.Pairwise fun a b => a.key < b.key) :
    other ∈ placeRow row rows ↔ other = row ∨ (other ∈ rows ∧ other.key ≠ row.key) := by
  induction rows with
  | nil => simp [placeRow]
  | cons first rest ih =>
    obtain ⟨lower, tail⟩ := List.pairwise_cons.1 ascending
    -- A row that follows the new one has another key.
    have later (before : ∀ next ∈ rest, row.key < next.key) (member : other ∈ rest) :
        other.key ≠ row.key :=
      fun same => RowKey.lt_irrefl _ (same ▸ before other member)
    simp only [placeRow]
    split
    · -- The new row precedes all rows, which keep their keys.
      rename_i before
      have all : other ∈ first :: rest → other.key ≠ row.key := by
        intro member
        rcases List.mem_cons.1 member with head | member
        · exact fun same => RowKey.lt_irrefl _ (same ▸ head ▸ before)
        · exact later (fun next found => RowKey.lt_trans before (lower next found)) member
      rw [List.mem_cons]
      exact or_congr_right ⟨fun member => ⟨member, all member⟩, And.left⟩
    · split
      · -- The new row takes the place of the first one.
        rename_i same
        rw [List.mem_cons]
        refine or_congr_right ⟨fun member => ?_, fun kept => ?_⟩
        · exact ⟨.tail _ member, later (fun next found => same ▸ lower next found) member⟩
        · obtain ⟨member, apart⟩ := kept
          rcases List.mem_cons.1 member with head | member
          · exact absurd (head ▸ same.symm) apart
          · exact member
      · -- The first row stays, and it has another key.
        rename_i apart
        rw [List.mem_cons, ih tail]
        constructor
        · rintro (head | new | ⟨member, other⟩)
          · exact .inr ⟨head ▸ List.mem_cons_self, head ▸ fun same => apart same.symm⟩
          · exact .inl new
          · exact .inr ⟨.tail _ member, other⟩
        · rintro (new | ⟨member, other⟩)
          · exact .inr (.inl new)
          · rcases List.mem_cons.1 member with head | member
            · exact .inl head
            · exact .inr (.inr ⟨member, other⟩)

namespace Rows

/-- A value is found under a key exactly if the two make a row. -/
theorem get?_eq_some_iff {rows : Rows} {key : RowKey} {value : Bytes} :
    rows.get? key = some value ↔ ⟨key, value⟩ ∈ rows.toList := by
  constructor
  · intro found
    -- The search finds a row of the list with the key.
    obtain ⟨row, search, same⟩ := Option.map_eq_some_iff.1 found
    have holds : row.key = key := by simpa using List.find?_some search
    exact holds ▸ same ▸ List.mem_of_find?_eq_some search
  · intro member
    -- The search stops at some row with this key, and there is only one.
    cases search : rows.toList.find? fun row => row.key = key with
    | none => simpa using List.find?_eq_none.1 search _ member
    | some row =>
      have holds : row.key = key := by simpa using List.find?_some search
      have one := eq_of_ascending rows.ascending (List.mem_of_find?_eq_some search) member holds
      simp [get?, search, one]

/-- Nothing is found where there are no rows. -/
theorem get?_empty (key : RowKey) : empty.get? key = none := rfl

/-- A row that is inserted is found under its key, and no other key is touched. -/
theorem get?_insert (rows : Rows) (row : Row) (key : RowKey) :
    (rows.insert row).get? key = if key = row.key then some row.value else rows.get? key := by
  -- Both sides are compared by the values that they find.
  apply Option.ext
  intro value
  rw [get?_eq_some_iff]
  simp only [insert, mem_placeRow_iff rows.ascending]
  split
  · -- Under the key of the row only the row itself is left.
    rename_i same
    obtain ⟨place, content⟩ := row
    simp only at same
    simp [same, eq_comm]
  · rename_i apart
    have other : (⟨key, value⟩ : Row) ≠ row := fun same => apart (same ▸ rfl)
    simp [other, apart, get?_eq_some_iff]

/-- Of the rows that are kept, each is found as before. -/
theorem get?_filter (rows : Rows) (keep : Row → Bool) (key : RowKey) :
    (rows.filter keep).get? key = (rows.get? key).filter fun value => keep ⟨key, value⟩ := by
  -- A row is kept with its key and its value.
  apply Option.ext
  intro value
  rw [get?_eq_some_iff, Option.filter_eq_some_iff, get?_eq_some_iff]
  simp [filter]

/-- Nothing is found under a key that is erased, and no other key is touched. -/
theorem get?_erase (rows : Rows) (erased key : RowKey) :
    (rows.erase erased).get? key = if key = erased then none else rows.get? key := by
  rw [erase, get?_filter]
  by_cases same : key = erased
  · simp [same]
  · -- A row under another key is kept.
    cases rows.get? key <;> simp [same]

/-- Ascending lists with the same rows are one list. -/
theorem eq_of_mem_iff {left right : List Row} (ascending : left.Pairwise fun a b => a.key < b.key)
    (ascending' : right.Pairwise fun a b => a.key < b.key)
    (same : ∀ row, row ∈ left ↔ row ∈ right) : left = right := by
  -- The lists are compared from their first rows on.
  induction left generalizing right with
  | nil =>
    cases right with
    | nil => rfl
    | cons first rest => exact absurd ((same first).2 List.mem_cons_self) List.not_mem_nil
  | cons first rest ih =>
    cases right with
    | nil => exact absurd ((same first).1 List.mem_cons_self) List.not_mem_nil
    | cons first' rest' =>
      obtain ⟨lower, tail⟩ := List.pairwise_cons.1 ascending
      obtain ⟨lower', tail'⟩ := List.pairwise_cons.1 ascending'
      -- Each first row is in the other list, and neither can precede the other.
      have heads : first = first' := by
        rcases List.mem_cons.1 ((same first).1 List.mem_cons_self) with head | later
        · exact head
        · rcases List.mem_cons.1 ((same first').2 List.mem_cons_self) with head' | later'
          · exact head'.symm
          · exact absurd (RowKey.lt_trans (lower _ later') (lower' _ later)) (RowKey.lt_irrefl _)
      subst heads
      -- What remains of the two lists has the same rows again.
      refine congrArg _ (ih tail tail' fun row => ⟨fun member => ?_, fun member => ?_⟩)
      · rcases List.mem_cons.1 ((same row).1 (.tail _ member)) with head | later
        · exact absurd (head ▸ lower row member) (RowKey.lt_irrefl _)
        · exact later
      · rcases List.mem_cons.1 ((same row).2 (.tail _ member)) with head | later
        · exact absurd (head ▸ lower' row member) (RowKey.lt_irrefl _)
        · exact later

/-- Rows with the same values under all keys are the same rows. -/
theorem ext_get? {left right : Rows} (same : ∀ key, left.get? key = right.get? key) :
    left = right := by
  -- Values and keys make the rows, and their order makes the list.
  have rows : left.toList = right.toList :=
    eq_of_mem_iff left.ascending right.ascending fun row => by
      rw [← get?_eq_some_iff, ← get?_eq_some_iff, same row.key]
  cases left
  cases right
  simpa using rows

end Rows

end KeyDispensary
