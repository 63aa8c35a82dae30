import KeyDispensary.Proofs.Labels
import KeyDispensary.Proofs.Store.Crew
import KeyDispensary.Proofs.Store.Engine

/-!
What becomes of the rows of a table. A row carries the stamp of the call that wrote it, and the calls show
which rows were written, which were removed by key and which were dropped with a range. Main statement:
`Balanced.after`, by which no call loses or doubles a row.
-/

namespace KeyDispensary

variable {σ : Type}

/-- The rows that a replacement puts, one under each key. -/
def Call.puts : Call → List Row
  | .replace table _ _ items => lastOfEach Row.key (items.map (Row.of table))
  | _ => []

/-- The row that a call removed by key. -/
def Event.removed (event : Event σ) : List Row :=
  event.removal?.toList.map Prod.snd

/-- The rows that a call dropped with a range. -/
def Event.drops {engine : Engine} (event : Event engine.State) : List Row :=
  let rows := engine.rows event.store
  match event.call with
  | .replace table partition lead _ => engine.range rows table partition lead
  | .transact [.deleteRange table partition lead] => engine.range rows table partition lead
  | _ => []

/-- A row and who wrote it. -/
structure Stamp where
  writer : Option Nat
  row : Row
deriving DecidableEq

/-- Who wrote what is under a key: the last to put a row there. -/
def writer? (log : List (Event σ)) (key : RowKey) : Option Nat :=
  (log.find? fun event => event.call.puts.any fun row => row.key = key).map Event.who

/-- Rows with the stamps of who wrote them. -/
def stamped (log : List (Event σ)) (rows : List Row) : List Stamp :=
  rows.map fun row => ⟨writer? log row.key, row⟩

/-- All rows that were written. -/
def written : List (Event σ) → List Stamp
  | [] => []
  | event :: earlier => event.call.puts.map (⟨some event.who, ·⟩) ++ written earlier

/-- All rows that were removed by key. -/
def dispensed : List (Event σ) → List Stamp
  | [] => []
  | event :: earlier => stamped earlier event.removed ++ dispensed earlier

/-- All rows that were dropped with a range. -/
def dropped {engine : Engine} : List (Event engine.State) → List Stamp
  | [] => []
  | event :: earlier => stamped earlier event.drops ++ dropped earlier

/-- The rows of a table. -/
def Rows.listed (rows : Rows) (table : String) : List Row :=
  rows.toList.filter fun row => row.key.table = table

/-- Whether the rows that were written to a table are those that left it and those in it. -/
def Balanced {engine : Engine} (table : String) (log : List (Event engine.State)) (rows : Rows) :
    Prop :=
  (written log).Perm (dispensed log ++ dropped log ++ stamped log (rows.listed table))

/-- How a call splits the rows of a table: some left, some stayed, and some are new. -/
structure Event.Splits {engine : Engine} (table : String) (event : Event engine.State)
    (left : Rows) (stayed : List Row) : Prop where
  before : ((engine.rows event.store).listed table).Perm (event.removed ++ event.drops ++ stayed)
  after : (left.listed table).Perm (event.call.puts ++ stayed)
  apart : ∀ row ∈ stayed, ∀ put ∈ event.call.puts, put.key ≠ row.key

/-! ### Rows that are put -/

/-- What is under a key after items were put is the row that was put there, or what was there. -/
theorem Rows.mem_putAll {rows : Rows} {table : String} {items : List Item} {row : Row}
    (fresh : ∀ item ∈ items, rows.get? (RowKey.of table item.key) = none) :
    row ∈ (rows.putAll table items).toList ↔
      row ∈ lastOfEach Row.key (items.map (Row.of table)) ∨ row ∈ rows.toList := by
  -- Searching the rows that are made of the items is searching the items.
  have search : ((items.map (Row.of table)).reverse.find? fun other => other.key = row.key) =
      (items.reverse.find? fun item => RowKey.of table item.key = row.key).map (Row.of table) := by
    rw [← List.map_reverse, List.find?_map]
    rfl
  obtain ⟨key, value⟩ := row
  rw [← get?_eq_some_iff, ← get?_eq_some_iff, get?_putAll, mem_lastOfEach, search]
  cases found : items.reverse.find? fun item => RowKey.of table item.key = key with
  | none => simp
  | some item =>
    -- Under the key of an item that is put, nothing was found before.
    have same : RowKey.of table item.key = key := by simpa using List.find?_some found
    have absent := fresh item (List.mem_reverse.1 (List.mem_of_find?_eq_some found))
    rw [same] at absent
    simp [absent, Row.of, same]

/-! ### Stamps -/

/-- Rows are stamped one by one, so lists of them may be joined before or after. -/
theorem stamped_append (log : List (Event σ)) (first second : List Row) :
    stamped log (first ++ second) = stamped log first ++ stamped log second :=
  List.map_append

/-- A call does not change the stamps of rows under keys that it did not put. -/
theorem stamped_cons_of_apart {event : Event σ} {rows : List Row}
    (apart : ∀ row ∈ rows, ∀ put ∈ event.call.puts, put.key ≠ row.key) (log : List (Event σ)) :
    stamped (event :: log) rows = stamped log rows := by
  -- The search for the writer of a row passes over the call.
  refine List.map_congr_left fun row member => ?_
  have other : (event.call.puts.any fun put => put.key = row.key) = false := by
    simpa using apart row member
  rw [writer?, writer?, List.find?_cons_of_neg (by simp [other])]

/-- The rows that a call puts carry the stamp of who made it. -/
theorem stamped_puts (event : Event σ) (log : List (Event σ)) :
    stamped (event :: log) event.call.puts = event.call.puts.map (⟨some event.who, ·⟩) := by
  -- The search for the writer of a row ends at the call that put it.
  refine List.map_congr_left fun row member => ?_
  have here : (event.call.puts.any fun put => put.key = row.key) = true :=
    List.any_eq_true.2 ⟨row, member, by simp⟩
  rw [writer?, List.find?_cons_of_pos (by simp [here])]
  rfl

/-- What was written was put by a call. -/
theorem mem_written {log : List (Event σ)} {stamp : Stamp} :
    stamp ∈ written log ↔
      ∃ event ∈ log, stamp.writer = some event.who ∧ stamp.row ∈ event.call.puts := by
  induction log with
  | nil => simp [written]
  | cons event earlier ih =>
    -- The rows of the latest call carry the name of its caller.
    have here : stamp ∈ event.call.puts.map (Stamp.mk (some event.who)) ↔
        stamp.writer = some event.who ∧ stamp.row ∈ event.call.puts := by
      constructor
      · intro member
        obtain ⟨row, put, rfl⟩ := List.mem_map.1 member
        exact ⟨rfl, put⟩
      · rintro ⟨who, put⟩
        exact List.mem_map.2 ⟨stamp.row, put, who ▸ rfl⟩
    simp only [written, List.mem_append, here, ih, List.mem_cons, exists_eq_or_imp]

/-- A call puts at most one row under each key. -/
theorem Call.nodup_puts (call : Call) : call.puts.Nodup := by
  -- Only a replacement puts several rows, and of those under one key the last.
  cases call with
  | replace table partition lead items =>
    exact (lastOfEach_apart Row.key _).imp fun apart same => apart (congrArg Row.key same)
  | _ => exact .nil

/-- No row is written twice as long as nobody who has made a call puts rows. -/
theorem nodup_written_cons {event : Event σ} {log : List (Event σ)} (once : (written log).Nodup)
    (first : event.call.puts = [] ∨ ∀ earlier ∈ log, earlier.who ≠ event.who) :
    (written (event :: log)).Nodup := by
  -- The rows of one call have different keys.
  have stamps : (event.call.puts.map (Stamp.mk (some event.who))).Nodup :=
    List.pairwise_map.2 (event.call.nodup_puts.imp fun apart same => apart (Stamp.mk.inj same).2)
  -- A row of this call with the name of its caller could only come from an earlier call of the same one.
  refine List.nodup_append.2 ⟨stamps, once, ?_⟩
  rintro stamp new other old rfl
  obtain ⟨row, put, rfl⟩ := List.mem_map.1 new
  obtain ⟨earlier, member, who, _⟩ := mem_written.1 old
  -- Somebody who puts rows has made no call before.
  rcases first with nothing | first
  · rw [nothing] at put
    cases put
  · exact first earlier member (Option.some.inj who).symm

/-! ### The balance -/

/-- A ledger stays balanced when a call splits the rows of the table. -/
theorem Balanced.after {engine : Engine} {table : String} {log : List (Event engine.State)}
    {event : Event engine.State} {left : Rows} {stayed : List Row}
    (balanced : Balanced table log (engine.rows event.store))
    (splits : event.Splits table left stayed) : Balanced table (event :: log) left := by
  -- What was in the table is split by the call, and what is in it now carries old or new stamps.
  have before := splits.before.map fun row => (⟨writer? log row.key, row⟩ : Stamp)
  have after := splits.after.map fun row => (⟨writer? (event :: log) row.key, row⟩ : Stamp)
  change (stamped log _).Perm (stamped log _) at before
  change (stamped (event :: log) _).Perm (stamped (event :: log) _) at after
  rw [stamped_append, stamped_append] at before
  rw [stamped_append, stamped_puts, stamped_cons_of_apart splits.apart] at after
  -- Every stamp is counted as often on one side as on the other.
  refine List.perm_iff_count.2 fun stamp => ?_
  have total := List.perm_iff_count.1 balanced stamp
  have out := List.perm_iff_count.1 before stamp
  have within := List.perm_iff_count.1 after stamp
  simp only [written, dispensed, dropped, List.count_append] at total out within ⊢
  omega

/-! ### What calls split -/

namespace Rows

/-- A row is listed for its table. -/
theorem mem_listed {rows : Rows} {table : String} {row : Row} :
    row ∈ rows.listed table ↔ row ∈ rows.toList ∧ row.key.table = table := by
  simp [listed]

/-- No row is listed twice. -/
theorem nodup_listed (rows : Rows) (table : String) : (rows.listed table).Nodup := by
  -- Rows in ascending order are different.
  have ascending : (rows.listed table).Pairwise fun a b => a.key < b.key := rows.ascending.filter _
  refine ascending.imp fun {a b} less => ?_
  rintro rfl
  exact RowKey.lt_irrefl _ less

/-- The rows of a table are the one under a key and those that stay when it is erased. -/
theorem listed_erase_perm (rows : Rows) (key : RowKey) :
    (rows.listed key.table).Perm
      ((rows.get? key).toList.map (Row.mk key) ++ (rows.erase key).listed key.table) := by
  -- What stays are the rows with another key.
  have erased {row : Row} : row ∈ (rows.erase key).listed key.table ↔
      row ∈ rows.listed key.table ∧ row.key ≠ key := by
    simp only [mem_listed, erase, filter, List.mem_filter, decide_eq_true_eq]
    exact and_right_comm
  cases found : rows.get? key with
  | none => rw [erase_of_absent found]; exact .refl _
  | some value =>
    have member := get?_eq_some_iff.1 found
    have fresh : ⟨key, value⟩ ∉ (rows.erase key).listed key.table := fun kept => (erased.1 kept).2 rfl
    -- No row is listed twice, so it is enough to compare members.
    refine (List.perm_ext_iff_of_nodup (nodup_listed _ _)
      (List.nodup_cons.2 ⟨fresh, nodup_listed _ _⟩)).2 fun row => ?_
    rw [List.mem_cons, erased]
    constructor
    · -- A row with the key is the one that was found.
      intro listed
      by_cases same : row.key = key
      · exact .inl (eq_of_ascending rows.ascending (mem_listed.1 listed).1 member same)
      · exact .inr ⟨listed, same⟩
    · rintro (rfl | kept)
      · exact mem_listed.2 ⟨member, rfl⟩
      · exact kept.1

/-- The rows of a table are those of a range of it and those that stay when the range is cleared. -/
theorem listed_clear_perm (engine : Engine) (rows : Rows) (table : String) (partition lead : Bytes) :
    (rows.listed table).Perm (engine.range rows table partition lead ++
      (engine.clear rows table partition lead).listed table) := by
  -- A range lies in its table.
  have range : engine.range rows table partition lead =
      (rows.listed table).filter (engine.covers table partition lead) := by
    rw [Engine.range, listed, List.filter_filter]
    refine List.filter_congr fun row _ => ?_
    cases covered : engine.covers table partition lead row with
    | false => rfl
    | true =>
      simp only [Engine.covers, Row.begins, Row.within, Bool.and_eq_true, decide_eq_true_eq] at covered
      simp [covered]
  have cleared : (engine.clear rows table partition lead).listed table =
      (rows.listed table).filter fun row => !engine.covers table partition lead row := by
    simp only [listed, Engine.clear, filter, List.filter_filter, Bool.and_comm]
  -- A list is made of what a filter keeps and what it drops.
  rw [range, cleared]
  exact (List.filter_append_perm _ _).symm

end Rows

namespace Event

variable {engine : Engine} {table : String} {who : Nat} {rows : Rows}

/-- A query leaves the rows as they are. -/
theorem splits_query (query : Query) (reply : Reply (.query query)) :
    Splits table (⟨who, engine.holding rows, .query query, reply⟩ : Event engine.State) rows
      (rows.listed table) where
  before := by
    rw [Engine.rows_holding]
    exact .refl _
  after := .refl _
  apart _ _ _ put := by cases put

/-- A removal by key takes out the row that it found. -/
theorem splits_delete (key : Key) :
    Splits table (⟨who, engine.holding rows, .delete table key,
        .ok (rows.get? (RowKey.of table key))⟩ : Event engine.State)
      (rows.erase (RowKey.of table key)) ((rows.erase (RowKey.of table key)).listed table) where
  before := by
    -- The row under the key is what the call removes, if there is one.
    have split := rows.listed_erase_perm (RowKey.of table key)
    rw [Engine.rows_holding]
    cases found : rows.get? (RowKey.of table key) <;> rw [found] at split <;> exact split
  after := .refl _
  apart _ _ _ put := by cases put

/-- A removal of a range drops the rows in it. -/
theorem splits_deleteRange (partition lead : Bytes)
    (reply : Reply (.transact [.deleteRange table partition lead])) :
    Splits table (⟨who, engine.holding rows, .transact [.deleteRange table partition lead], reply⟩ :
        Event engine.State)
      (engine.clear rows table partition lead)
      ((engine.clear rows table partition lead).listed table) where
  before := by
    -- The rows of the range are what the call drops.
    change ((engine.rows (engine.holding rows)).listed table).Perm
      (engine.range (engine.rows (engine.holding rows)) table partition lead ++ _)
    rw [Engine.rows_holding]
    exact rows.listed_clear_perm engine table partition lead
  after := .refl _
  apart _ _ _ put := by cases put

/-- A replacement drops the rows in its range and puts others there. -/
theorem splits_replace {partition lead : Bytes} {items : List Item}
    (reply : Reply (.replace table partition lead items))
    (inside : ∀ item ∈ items, engine.covers table partition lead (Row.of table item)) :
    Splits table (⟨who, engine.holding rows, .replace table partition lead items, reply⟩ :
        Event engine.State)
      ((engine.clear rows table partition lead).putAll table items)
      ((engine.clear rows table partition lead).listed table) := by
  -- Nothing is left under the keys of the items when they are put.
  have fresh : ∀ item ∈ items,
      (engine.clear rows table partition lead).get? (RowKey.of table item.key) = none := by
    intro item member
    rw [Engine.clear, Rows.get?_filter, Option.filter_eq_none_iff]
    intro value _
    have covered : engine.covers table partition lead ⟨RowKey.of table item.key, value⟩ = true :=
      inside item member
    simp [covered]
  have puts {put : Row} (member : put ∈ Call.puts (.replace table partition lead items)) :
      ∃ item ∈ items, Row.of table item = put :=
    List.mem_map.1 (lastOfEach_subset _ _ member)
  -- A row that stayed has none of the keys under which items are put.
  have apart : ∀ row ∈ (engine.clear rows table partition lead).listed table,
      ∀ put ∈ Call.puts (.replace table partition lead items), put.key ≠ row.key := by
    intro row stayed put new same
    obtain ⟨item, member, rfl⟩ := puts new
    have found := Rows.get?_eq_some_iff.2 (Rows.mem_listed.1 stayed).1
    rw [← same] at found
    exact absurd (found.symm.trans (fresh item member)) (Option.some_ne_none _)
  refine ⟨?_, ?_, apart⟩
  · change ((engine.rows (engine.holding rows)).listed table).Perm
      (engine.range (engine.rows (engine.holding rows)) table partition lead ++ _)
    rw [Engine.rows_holding]
    exact rows.listed_clear_perm engine table partition lead
  · -- The two lists share no row, so they are compared by their members.
    have distinct : (Call.puts (.replace table partition lead items) ++
        (engine.clear rows table partition lead).listed table).Nodup := by
      refine List.nodup_append.2 ⟨Call.nodup_puts _, Rows.nodup_listed _ _, ?_⟩
      rintro put new row old rfl
      exact apart put old put new rfl
    refine (List.perm_ext_iff_of_nodup (Rows.nodup_listed _ _) distinct).2 fun row => ?_
    rw [Rows.mem_listed, Rows.mem_putAll fresh, List.mem_append, Rows.mem_listed, or_and_right]
    -- The items are put into the table.
    refine or_congr_left (and_iff_left_of_imp fun member => ?_)
    obtain ⟨item, _, rfl⟩ := puts member
    rfl

end Event

end KeyDispensary
