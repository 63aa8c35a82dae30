import KeyDispensary.Proofs.Store.Paging

/-! What the change of one table leaves alone, and what the removal of a whole partition removes. -/

namespace KeyDispensary

/-- Whether the second rows are the first ones in all tables but one. -/
def Rows.SameBeside (table : String) (rows left : Rows) : Prop :=
  ∀ key : RowKey, key.table ≠ table → left.get? key = rows.get? key

namespace Rows.SameBeside

variable {table : String} {rows left : Rows}

/-- Rows are the same as themselves in all tables. -/
theorem refl (table : String) (rows : Rows) : SameBeside table rows rows :=
  fun _ _ => rfl

/-- A row of another table is there before and after. -/
theorem mem_iff (same : SameBeside table rows left) {row : Row} (apart : row.key.table ≠ table) :
    row ∈ left.toList ↔ row ∈ rows.toList := by
  -- A row is there exactly if its value is found under its key.
  obtain ⟨key, value⟩ := row
  rw [← get?_eq_some_iff, ← get?_eq_some_iff, same key apart]

/-- Putting a row changes no other table. -/
theorem insert (rows : Rows) (row : Row) : SameBeside row.key.table rows (rows.insert row) := by
  -- A key of another table is not that of the row.
  intro key apart
  rw [get?_insert, if_neg fun same => apart (congrArg RowKey.table same)]

/-- Erasing a key changes no other table. -/
theorem erase (rows : Rows) (key : RowKey) : SameBeside key.table rows (rows.erase key) := by
  -- A key of another table is not the one that is erased.
  intro other apart
  rw [get?_erase, if_neg fun same => apart (congrArg RowKey.table same)]

end Rows.SameBeside

namespace Engine

variable {engine : Engine} {rows : Rows} {table : String} {partition lead : Bytes} {row : Row}

/-- What is left of the rows when a range is cleared. -/
theorem mem_clear : row ∈ (engine.clear rows table partition lead).toList ↔
    row ∈ rows.toList ∧ ¬ engine.covers table partition lead row := by
  -- Clearing keeps the rows that the range does not cover.
  simp [clear, Rows.filter]

/-- What is found under a key when a range is cleared. -/
theorem get?_clear (rows : Rows) (key : RowKey) :
    (engine.clear rows table partition lead).get? key =
      if engine.covers table partition lead ⟨key, []⟩ then none else rows.get? key := by
  -- Whether a row is covered depends on its key alone.
  have same (value : Bytes) : engine.covers table partition lead ⟨key, value⟩ =
      engine.covers table partition lead ⟨key, []⟩ := rfl
  rw [clear, Rows.get?_filter]
  cases rows.get? key with
  | none => simp
  | some value => by_cases covered : engine.covers table partition lead ⟨key, []⟩ <;> simp [same, covered]

/-- Clearing a range changes no other table. -/
theorem sameBeside_clear (engine : Engine) (rows : Rows) (table : String) (partition lead : Bytes) :
    Rows.SameBeside table rows (engine.clear rows table partition lead) := by
  -- The range covers no row of another table.
  intro key apart
  rw [get?_clear, if_neg fun covered => apart (covers_within covered).1]

/-- The range of a whole partition holds every row of the partition that has a sort key. -/
theorem covers_partition (engine : Engine) (sorted : row.key.sort ≠ []) :
    engine.covers table partition [] row = row.within table partition := by
  -- Every sort key begins with nothing, and this one is not empty.
  simp [covers, Row.begins, sorted]

/-- A transaction that removes a range does so. -/
theorem run_deleteRange (engine : Engine) (rows : Rows) (table : String) (partition lead : Bytes) :
    engine.answer rows (.transact [.deleteRange table partition lead]) =
      (.ok (), engine.clear rows table partition lead) := rfl

end Engine

end KeyDispensary
