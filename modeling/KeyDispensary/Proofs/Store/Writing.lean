import KeyDispensary.Proofs.Store.Engine

/-!
What calls write. A call leaves no row but those that it met and those of the items that it puts, and as
long as every row has a sort key both engines do the same. Main statements: `Engine.mem_answer` and
`Engine.answer_alike`.
-/

namespace KeyDispensary

/-- The item that a write puts, if it puts one. -/
def Write.item? : Write → Option Item
  | .put _ item => some item
  | .delete _ _ | .deleteRange _ _ _ | .check _ _ _ => none

/-- The items that a call puts when it succeeds. -/
def Call.items : Call → List Item
  | .put _ item => [item]
  | .transact writes => writes.filterMap Write.item?
  | .replace _ _ _ items => items
  | .get _ _ | .delete _ _ | .query _ | .count _ _ _ => []

/-- The items that a call has put, which are none if it failed. -/
def Call.written (call : Call) : Reply call → List Item
  | .ok _ => call.items
  | .error _ => []

/-- What a call has put is among what it puts when it succeeds. -/
theorem Call.mem_items {call : Call} {reply : Reply call} {item : Item}
    (put : item ∈ call.written reply) : item ∈ call.items := by
  cases reply with
  | ok answer => exact put
  | error error => cases put

/-- What holds of the items of all writes holds of the first one's and of the others'. -/
theorem Write.forall_items_cons {holds : Item → Prop} {write : Write} {rest : List Write}
    (all : ∀ item ∈ (write :: rest).filterMap Write.item?, holds item) :
    (∀ item ∈ write.item?, holds item) ∧ ∀ item ∈ rest.filterMap Write.item?, holds item := by
  -- The items of the first write stand in front of those of the others.
  constructor
  · intro item first
    exact all item (List.mem_filterMap.2 ⟨write, List.mem_cons_self, first⟩)
  · intro item later
    obtain ⟨other, member, put⟩ := List.mem_filterMap.1 later
    exact all item (List.mem_filterMap.2 ⟨other, .tail _ member, put⟩)

/-! ### Transactions, case by case -/

namespace Engine

variable {engine : Engine} {rows : Rows} {row : Row}

/-- How a transaction ends. -/
inductive Settled (engine : Engine) (rows : Rows) (writes : List Write) :
    Reply (.transact writes) → Rows → Prop where
  /-- It has too many writes. -/
  | refused (many : transactionLimit < writes.length) :
    Settled engine rows writes (.error (.tooLarge writes.length transactionLimit)) rows
  /-- A check among its writes does not hold. -/
  | failed {reason : Conflict} (few : writes.length ≤ transactionLimit)
    (unmet : writes.findSome? (Write.unmet? rows) = some reason) :
    Settled engine rows writes (.error (.conflict reason)) rows
  /-- It is carried out. -/
  | carriedOut (few : writes.length ≤ transactionLimit)
    (met : writes.findSome? (Write.unmet? rows) = none) :
    Settled engine rows writes (.ok ()) (writes.foldl (Write.apply engine.clear) rows)

/-- A transaction ends in one of three ways. -/
theorem settled (engine : Engine) (rows : Rows) (writes : List Write) :
    Settled engine rows writes (engine.answer rows (.transact writes)).1
      (engine.answer rows (.transact writes)).2 := by
  -- The size is looked at first, and the checks next.
  by_cases many : transactionLimit < writes.length
  · have refused : checkSize writes = .error (.tooLarge writes.length transactionLimit) :=
      if_pos many
    simp only [answer, refused]
    exact .refused many
  · have few : checkSize writes = .ok () := if_neg many
    cases unmet : writes.findSome? (Write.unmet? rows) with
    -- The first reason that is found is the error.
    | some reason =>
      simp only [answer, few, applyWrites, unmet]
      exact .failed (Nat.le_of_not_lt many) unmet
    | none =>
      simp only [answer, few, applyWrites, unmet]
      exact .carriedOut (Nat.le_of_not_lt many) unmet

/-! ### Rows that a call leaves -/

/-- A row that is left when a row was put was there or is the one that was put. -/
theorem mem_insert {item : Item} {table : String}
    (member : row ∈ (rows.insert (Row.of table item)).toList) :
    row ∈ rows.toList ∨ row.item = item := by
  rcases mem_placeRow member with rfl | before
  · exact .inr rfl
  · exact .inl before

/-- A row that is left when items were put was there or is the row of an item. -/
theorem mem_putAll {items : List Item} {table : String}
    (member : row ∈ (rows.putAll table items).toList) :
    row ∈ rows.toList ∨ row.item ∈ items := by
  -- The items are put one after another.
  induction items generalizing rows with
  | nil => exact .inl member
  | cons item rest ih =>
    rcases ih member with before | later
    · rcases mem_insert before with before | same
      · exact .inl before
      · exact .inr (same ▸ List.mem_cons_self)
    · exact .inr (.tail _ later)

/-- A row that a write leaves was there or is the row of the item that the write puts. -/
theorem mem_apply {write : Write} (member : row ∈ (write.apply engine.clear rows).toList) :
    row ∈ rows.toList ∨ write.item? = some row.item := by
  -- Only a write that puts an item leaves a row that was not there.
  cases write with
  | put table item =>
    rcases mem_insert member with before | same
    · exact .inl before
    · exact .inr (congrArg some same.symm)
  | delete table key => exact .inl (List.mem_filter.1 member).1
  | deleteRange table partition lead => exact .inl (List.mem_filter.1 member).1
  | check table key condition => exact .inl member

/-- A row that writes leave was there or is the row of an item that one of them puts. -/
theorem mem_writes {writes : List Write}
    (member : row ∈ (writes.foldl (Write.apply engine.clear) rows).toList) :
    row ∈ rows.toList ∨ row.item ∈ writes.filterMap Write.item? := by
  -- What the later writes met was left by the first one.
  induction writes generalizing rows with
  | nil => exact .inl member
  | cons write rest ih =>
    rcases ih member with before | later
    · rcases mem_apply before with before | put
      · exact .inl before
      · exact .inr (List.mem_filterMap.2 ⟨write, List.mem_cons_self, put⟩)
    · obtain ⟨other, present, put⟩ := List.mem_filterMap.1 later
      exact .inr (List.mem_filterMap.2 ⟨other, .tail _ present, put⟩)

/-- A row that a call leaves was there or is the row of an item that the call has put. -/
theorem mem_answer {call : Call} (member : row ∈ (engine.answer rows call).2.toList) :
    row ∈ rows.toList ∨ row.item ∈ call.written (engine.answer rows call).1 := by
  -- Calls that read leave the rows as they are, and those that take away leave some of them.
  cases call with
  | get | query | count => exact .inl member
  | put table item =>
    rcases mem_insert member with before | same
    · exact .inl before
    · exact .inr (List.mem_singleton.2 same)
  | delete table key => exact .inl (List.mem_filter.1 member).1
  -- What a replacement leaves of its range are the items that it puts.
  | replace table partition lead items =>
    rcases mem_putAll member with before | put
    · exact .inl (List.mem_filter.1 before).1
    · exact .inr put
  | transact writes =>
    -- A transaction that is not carried out leaves the rows as they are.
    have settled := engine.settled rows writes
    generalize engine.answer rows (.transact writes) = outcome at settled member
    obtain ⟨reply, left⟩ := outcome
    cases settled with
    | refused => exact .inl member
    | failed => exact .inl member
    | carriedOut => exact mem_writes member

/-! ### Rows that all have sort keys -/

end Engine

/-- Whether every row has a sort key. -/
def Rows.Keyed (rows : Rows) : Prop :=
  ∀ row ∈ rows.toList, row.key.sort ≠ []

namespace Engine

variable {rows : Rows}

/-- Both engines count a row that has a sort key to the same ranges. -/
theorem covers_alike (engine : Engine) {row : Row} (sorted : row.key.sort ≠ []) (table : String)
    (partition lead : Bytes) :
    engine.covers table partition lead row = Engine.memory.covers table partition lead row := by
  simp [covers, sorted]

/-- Both engines find the same rows in a range. -/
theorem range_alike (engine : Engine) (keyed : rows.Keyed) (table : String)
    (partition lead : Bytes) :
    engine.range rows table partition lead = Engine.memory.range rows table partition lead :=
  List.filter_congr fun row member => covers_alike engine (keyed row member) table partition lead

/-- Both engines clear a range alike. -/
theorem clear_alike (engine : Engine) (keyed : rows.Keyed) (table : String)
    (partition lead : Bytes) :
    engine.clear rows table partition lead = Engine.memory.clear rows table partition lead := by
  -- The engines clear the same rows, as all of them have sort keys.
  have kept : rows.toList.filter (fun row => !engine.covers table partition lead row) =
      rows.toList.filter fun row => !Engine.memory.covers table partition lead row :=
    List.filter_congr fun row member => by
      rw [covers_alike engine (keyed row member) table partition lead]
  simp only [clear, Rows.filter, kept]

/-- Both engines carry out a write alike. -/
theorem apply_alike (engine : Engine) (keyed : rows.Keyed) (write : Write) :
    write.apply engine.clear rows = write.apply Engine.memory.clear rows := by
  -- The engines differ in what a range covers and in nothing else.
  cases write with
  | deleteRange table partition lead => exact clear_alike engine keyed table partition lead
  | put | delete | check => rfl

/-- Both engines carry out writes alike, as long as these put no item without a sort key. -/
theorem writes_alike (engine : Engine) (keyed : rows.Keyed) {writes : List Write}
    (sorted : ∀ item ∈ writes.filterMap Write.item?, item.key.sort ≠ []) :
    writes.foldl (Write.apply engine.clear) rows =
      writes.foldl (Write.apply Engine.memory.clear) rows := by
  -- The invariant is that every row has a sort key.
  induction writes generalizing rows with
  | nil => rfl
  | cons write rest ih =>
    obtain ⟨first, later⟩ := Write.forall_items_cons sorted
    -- The first write leaves rows that all have sort keys again.
    have next : (write.apply Engine.memory.clear rows).Keyed := by
      intro row member
      rcases mem_apply member with before | put
      · exact keyed row before
      · exact first row.item put
    rw [List.foldl_cons, List.foldl_cons, apply_alike engine keyed write]
    exact ih next later

/-- Both engines answer a call alike and leave the same rows, if what it puts has sort keys. -/
theorem answer_alike (engine : Engine) (keyed : rows.Keyed) {call : Call}
    (sorted : ∀ item ∈ call.written (Engine.memory.answer rows call).1, item.key.sort ≠ []) :
    engine.answer rows call = Engine.memory.answer rows call := by
  -- Calls about one key do not depend on ranges, and the other calls go by ranges that agree.
  cases call with
  | get | put | delete => rfl
  | query query => simp only [answer, found, range_alike engine keyed]
  | count => simp only [answer, range_alike engine keyed]
  | replace => simp only [answer, clear_alike engine keyed]
  | transact writes =>
    -- Size and checks are the same for both, so only what is carried out matters.
    simp only [answer, applyWrites] at sorted ⊢
    cases size : checkSize writes with
    | error error => rfl
    | ok =>
      cases unmet : writes.findSome? (Write.unmet? rows) with
      -- A transaction with an unmet check leaves the rows as they are on both engines.
      | some reason => rfl
      | none =>
        simp only [size, unmet] at sorted
        simp only [writes_alike engine keyed sorted]

/-- A call that puts no item without a sort key leaves no row without one. -/
theorem keyed_answer (engine : Engine) (keyed : rows.Keyed) {call : Call}
    (sorted : ∀ item ∈ call.written (engine.answer rows call).1, item.key.sort ≠ []) :
    (engine.answer rows call).2.Keyed := by
  -- A row that is left was there or has just been put.
  intro row member
  rcases mem_answer member with before | put
  · exact keyed row before
  · exact sorted row.item put

end Engine

end KeyDispensary
