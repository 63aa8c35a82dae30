import KeyDispensary.Proofs.Store.Following
import KeyDispensary.Store.OpenDatabase

/-!
What reaching, opening and using a database changes on a disk: nothing but the file of the database, and
the rows in it only by calls. Main statements: `OpenDatabase.sameRows_opened`,
`OpenDatabase.sameRows_refusedOn` and `OpenDatabase.run_eq`.
-/

namespace KeyDispensary

variable {α : Type}

/-- The rows of a database; without a table there are none. -/
def Database.rows (database : Database) : Rows :=
  database.table.getD Rows.empty

/-- Opening a database leaves its rows as they are. -/
theorem Database.rows_opened {database next : Database} (opened : database.opened = .ok next) :
    next.rows = database.rows := by
  -- A table that is there is kept, and one that is made has no rows.
  rw [Database.opened] at opened
  split at opened
  · cases opened
    rfl
  · split at opened
    · cases opened
      rfl
    · cases opened

namespace Disk

variable {disk : Disk} {place other : Place} {file : DatabaseFile}

/-- What is put at a place is found there, unless the place is the root. -/
theorem get?_put_same (disk : Disk) (below : place ≠ []) (content : FileContent) :
    (disk.put place content).get? place = some content := by
  rw [get?, if_neg below, put, List.lookup_cons_self]

/-- Removing what stands at a place removes nothing else. -/
theorem get?_remove_other (disk : Disk) (apart : other ≠ place) :
    (disk.remove place).get? other = disk.get? other := by
  rw [get?, get?, remove]
  split
  · rfl
  · induction disk.files with
    | nil => rfl
    | cons first files ih =>
      obtain ⟨here, content⟩ := first
      by_cases same : here = place
      · -- What is removed would not have been found.
        rw [List.filter_cons_of_neg (by simp [same]), ih, List.lookup_cons,
          beq_eq_false_iff_ne.2 (same ▸ apart)]
      · rw [List.filter_cons_of_pos (by simp [same]), List.lookup_cons, List.lookup_cons, ih]

/-- What is put at a place is found at no other. -/
theorem get?_put_other (disk : Disk) (apart : other ≠ place) (content : FileContent) :
    (disk.put place content).get? other = disk.get? other := by
  rw [← disk.get?_remove_other apart, get?, get?, put, List.lookup_cons,
    beq_eq_false_iff_ne.2 apart]

/-- A database that is put at a place is found there, unless the place is the root. -/
theorem database_put (disk : Disk) (below : place ≠ []) (file : DatabaseFile) :
    (disk.put place (.database file)).database place = .ok file := by
  rw [database, get?_put_same disk below]

/-- No database is found at the root. -/
theorem below_of_database (found : disk.database place = .ok file) : place ≠ [] := by
  -- The root is a directory.
  rintro rfl
  simp [database, get?] at found

/-- The rows in the file at a place; where no database stands there are none. -/
def rowsAt (disk : Disk) (place : Place) : Rows :=
  match disk.get? place with
  | some (.database file) => file.database.rows
  | _ => Rows.empty

/-- Whether no row changes from one disk to another. -/
def SameRows (before after : Disk) : Prop :=
  ∀ place, after.rowsAt place = before.rowsAt place

/-- The rows of a database that is found are those in its file. -/
theorem rowsAt_of_database (found : disk.database place = .ok file) :
    disk.rowsAt place = file.database.rows := by
  -- A file that is missing or empty stands for a database without a table.
  rw [database] at found
  rw [rowsAt]
  cases stands : disk.get? place with
  | none =>
    rw [stands] at found
    simp only at found
    split at found <;> cases found
    rfl
  | some content =>
    -- Of other files only an empty one stands for a database.
    rw [stands] at found
    cases content with
    | database => cases found; rfl
    | bytes content => cases content <;> cases found; rfl
    | directory => cases found

/-- Rows depend on what stands at the place alone. -/
theorem rowsAt_congr {next : Disk} (same : next.get? place = disk.get? place) :
    next.rowsAt place = disk.rowsAt place := by
  rw [rowsAt, rowsAt, same]

end Disk

namespace OpenDatabase

variable {disk : Disk} {name : String} {place : Place} {reached opened : OpenDatabase}

/-! ### What is left on a disk -/

/-- A database that may only be read leaves the disk as it is. -/
theorem keptOn_of_read (only : opened.access = .read) (disk : Disk) : opened.keptOn disk = disk := by
  rw [keptOn]
  split
  · rfl
  · exact if_pos only

/-- What a database leaves on a disk is in its own file, and that only if it may be written. -/
theorem get?_keptOn (opened : OpenDatabase) (disk : Disk)
    (apart : opened.place = some place → opened.access = .read) :
    (opened.keptOn disk).get? place = disk.get? place := by
  by_cases only : opened.access = .read
  · rw [keptOn_of_read only]
  · -- A database in memory leaves nothing, and another one is written to its own file.
    rw [keptOn]
    split
    · rfl
    · next filed =>
      rw [if_neg only]
      exact disk.get?_put_other (fun same => only (apart (filed.trans (congrArg some same.symm)))) _

/-- The rows of a database that may be written are left in its file. -/
theorem rowsAt_keptOn (filed : opened.place = some place) (below : place ≠ [])
    (writes : opened.access ≠ .read) (disk : Disk) :
    (opened.keptOn disk).rowsAt place = opened.database.rows := by
  -- What is left is what is found.
  simp only [keptOn, filed, if_neg writes, Disk.rowsAt, Disk.get?_put_same disk below]

/-! ### Reaching and opening -/

/-- A database that is reached and may be written is the one that stands in its file. -/
theorem database_of_reach (reaches : reach disk name = .ok reached) (filed : reached.place = some place)
    (writes : reached.access ≠ .read) :
    ∃ file, disk.database place = .ok file ∧ reached.database = file.database := by
  -- The ways to reach a database are gone through, and most of them end with an error.
  rw [reach] at reaches
  split at reaches
  · cases reaches
  · -- A database that no file holds has no place.
    cases reaches
    cases filed
  · next path use _ =>
    rw [ofPath] at reaches
    split at reaches
    · cases reaches
    · next found _ =>
      split at reaches
      · split at reaches
        · cases reaches
        · next file stands =>
          -- Only what is taken for unchanging is not read from the file as it stands.
          have ahead {access : Access} (taken : ofFileAhead file found access = .ok reached) :
              reached.place = some found ∧ reached.database = file.database := by
            rw [ofFileAhead] at taken
            split at taken
            · cases taken
            · cases taken
              exact ⟨rfl, rfl⟩
          have held : reached.place = some found ∧ reached.database = file.database := by
            cases shared : use.sharing with
            | guarded =>
              rw [shared] at reaches
              exact ahead reaches
            | alone =>
              rw [shared, ofPlace] at reaches
              split at reaches
              · cases reaches
              · exact ahead reaches
            | unguarded =>
              rw [shared, ofPlace] at reaches
              split at reaches
              · cases reaches
              · cases reaches
                exact ⟨rfl, rfl⟩
            | frozen =>
              -- What is taken for unchanging may only be read.
              rw [shared] at reaches
              cases reaches
              exact absurd rfl writes
          obtain rfl := Option.some.inj (held.1.symm.trans filed)
          exact ⟨file, stands, held.2⟩
      · cases reaches

/-- A database that is opened is used as it was reached, and its rows are the same. -/
theorem rows_begun (begins : reached.begun = .ok opened) :
    opened.place = reached.place ∧ opened.access = reached.access ∧
      opened.database.rows = reached.database.rows := by
  -- Only the table may be new, and a new table has no rows.
  rw [begun] at begins
  split at begins
  · cases begins
  · cases made : reached.database.opened with
    | error error =>
      rw [made] at begins
      cases begins
    | ok database =>
      rw [made] at begins
      cases begins
      exact ⟨rfl, rfl, Database.rows_opened made⟩

/-- A database of a version that is not known is not opened. -/
theorem ofName_of_version (reaches : reach disk name = .ok reached)
    (old : reached.database.version ≠ 0) (other : reached.database.version ≠ tableVersion) :
    ofName disk name = .error (.unavailable (.version reached.database.version)) := by
  -- A version that is not zero is not refused for lack of a right to write.
  have refused : reached.database.opened =
      .error (.unavailable (.version reached.database.version)) := by
    rw [Database.opened, if_neg old, if_neg other]
  have begins : reached.begun = reached.database.opened.map _ := if_neg fun only => old only.2
  rw [ofName, reaches]
  exact begins.trans (by rw [refused]; rfl)

/-- The name of a database that was opened reaches a database. -/
theorem reach_of_ofName (opens : ofName disk name = .ok opened) :
    ∃ reached, reach disk name = .ok reached ∧ reached.begun = .ok opened := by
  -- A database that is opened was reached before.
  rw [ofName] at opens
  cases reaches : reach disk name with
  | error error =>
    rw [reaches] at opens
    cases opens
  | ok reached =>
    rw [reaches] at opens
    exact ⟨reached, rfl, opens⟩

/-- The rows of an open database that may be written are those in its file. -/
theorem rows_of_ofName (opens : ofName disk name = .ok opened) (filed : opened.place = some place)
    (writes : opened.access ≠ .read) :
    place ≠ [] ∧ opened.database.rows = disk.rowsAt place := by
  -- What was opened was reached, and what was reached stands in the file.
  obtain ⟨reached, reaches, begins⟩ := reach_of_ofName opens
  obtain ⟨places, accesses, rows⟩ := rows_begun begins
  obtain ⟨file, stands, same⟩ := database_of_reach reaches (places ▸ filed) (accesses ▸ writes)
  exact ⟨Disk.below_of_database stands,
    rows.trans (same ▸ (Disk.rowsAt_of_database stands).symm)⟩

/-- A database that holds the rows of its file changes no row when it is left on the disk. -/
theorem sameRows_keptOn (holds : ∀ place, opened.place = some place → opened.access ≠ .read →
      place ≠ [] ∧ opened.database.rows = disk.rowsAt place) :
    disk.SameRows (opened.keptOn disk) := by
  -- Other files are not touched, and the own file holds the same rows as before.
  intro place
  by_cases only : opened.access = .read
  · rw [keptOn_of_read only]
  · -- The place is that of the file or another one.
    by_cases filed : opened.place = some place
    · obtain ⟨below, rows⟩ := holds place filed only
      rw [rowsAt_keptOn filed below only, rows]
    · exact Disk.rowsAt_congr (get?_keptOn opened disk fun named => absurd named filed)

/-- Opening a database changes no row. -/
theorem sameRows_opened (opens : ofName disk name = .ok opened) :
    disk.SameRows (opened.keptOn disk) :=
  sameRows_keptOn fun _ => rows_of_ofName opens

/-- A database that is not opened loses no row. -/
theorem sameRows_refusedOn (disk : Disk) (name : String) : disk.SameRows (refusedOn disk name) := by
  rw [refusedOn]
  split
  · exact fun _ => rfl
  · next reached reaches =>
    -- What was reached is the database of its file, and is written back as such.
    refine sameRows_keptOn fun place filed writes => ?_
    obtain ⟨file, stands, same⟩ := database_of_reach reaches filed writes
    exact ⟨Disk.below_of_database stands, same ▸ (Disk.rowsAt_of_database stands).symm⟩

/-! ### Calls -/

/-- A call to a database that may be written is answered as the database answers it. -/
theorem perform_eq (writes : opened.access ≠ .read) (call : Call) :
    opened.perform call = ((opened.database.perform call).1,
      { opened with database := (opened.database.perform call).2 }) := by
  exact if_neg fun only => writes only.1

/-- A call changes neither the file of a database nor how it is used. -/
theorem perform_place (opened : OpenDatabase) (call : Call) :
    (opened.perform call).2.place = opened.place ∧ (opened.perform call).2.access = opened.access := by
  -- A call changes the rows at most.
  simp only [perform]
  split
  · split <;> exact ⟨rfl, rfl⟩
  · exact ⟨rfl, rfl⟩

/-- A program changes neither the file of a database nor how it is used. -/
theorem run_place (program : Program α) (opened : OpenDatabase) :
    (program.run opened).2.place = opened.place ∧ (program.run opened).2.access = opened.access := by
  -- Each call keeps both.
  induction program generalizing opened with
  | done answer => exact ⟨rfl, rfl⟩
  | ask call resume ih =>
    obtain ⟨place, access⟩ := perform_place opened call
    obtain ⟨places, accesses⟩ := ih (opened.perform call).1 (opened.perform call).2
    exact ⟨places.trans place, accesses.trans access⟩

/-- A program on a database that may be written does what it does on the database itself. -/
theorem run_eq (writes : opened.access ≠ .read) (program : Program α) :
    program.run opened = ((program.run opened.database).1,
      { opened with database := (program.run opened.database).2 }) := by
  -- Whether the database may be written is not changed by a call.
  induction program generalizing opened with
  | done answer => rfl
  | ask call resume ih =>
    rw [Program.run, Program.run, show Store.perform opened call = _ from perform_eq writes call]
    exact ih _ writes

end OpenDatabase

end KeyDispensary
