import KeyDispensary.Proofs.Store.Frames
import KeyDispensary.Proofs.Store.Writing

/-!
Transactions as single calls. A transaction is refused, or fails at a check, and changes nothing, or it
leaves what its writes leave when each is carried out by calls of its own. Main statement:
`Engine.transact_exact`.
-/

namespace KeyDispensary

section Single

variable {σ : Type} [Store σ]

/-- The items that a store lists in a range, with no start and no limit that the store could reach. -/
def listing (store : σ) (table : String) (partition lead : Bytes) : List Item :=
  let limit := max Query.unlimited (Store.rounds store)
  match (Store.perform store (.query ⟨table, partition, lead, none, limit⟩)).1 with
  | .ok page => Page.items page
  | .error _ => []

/-- Removes items from a table one by one. -/
def removeAll (table : String) (items : List Item) (store : σ) : σ :=
  items.foldl (fun store item => (Store.perform store (.delete table item.key)).2) store

/-- Carries out a write by single calls: a range is listed, and what is listed is removed. -/
def Write.alone (store : σ) : Write → σ
  | .put table item => (Store.perform store (.put table item)).2
  | .delete table key => (Store.perform store (.delete table key)).2
  | .deleteRange table partition lead =>
    removeAll table (listing store table partition lead) store
  | .check _ _ _ => store

/--
Whether a store meets what a write requires.

A check for presence requires that a value is found, one for absence that none is. Others require nothing.
-/
def Write.Met (store : σ) : Write → Prop
  | .check table key .present =>
    ∃ value : Bytes, (Store.perform store (.get table key)).1 = .ok (some value)
  | .check table key .absent => (Store.perform store (.get table key)).1 = .ok none
  | .put _ _ | .delete _ _ | .deleteRange _ _ _ => True

end Single

/-- What a write makes of the values under all keys: it puts one, or takes away one or a range of them. -/
def Write.edit (engine : Engine) (values : RowKey → Option Bytes) (write : Write) (key : RowKey) :
    Option Bytes :=
  match write with
  | .put table item => if key = RowKey.of table item.key then some item.value else values key
  | .delete table erased => if key = RowKey.of table erased then none else values key
  | .deleteRange table partition lead =>
    if engine.covers table partition lead ⟨key, []⟩ then none else values key
  | .check _ _ _ => values key

namespace Engine

variable {engine : Engine} {rows : Rows}

/-- What an engine lists in a range is the range. -/
theorem listing_holding (engine : Engine) (rows : Rows) (table : String) (partition lead : Bytes) :
    listing (engine.holding rows) table partition lead =
      (engine.range rows table partition lead).map Row.item := by
  have all : engine.found rows ⟨table, partition, lead, none,
      max Query.unlimited (Store.rounds (engine.holding rows))⟩ =
        engine.range rows table partition lead :=
    List.filter_eq_self.2 fun _ _ => rfl
  -- The limit is above the number of rows, so the page shows all of them.
  have few : ((engine.range rows table partition lead).map Row.item).length ≤
      max Query.unlimited (Store.rounds (engine.holding rows)) := by
    have most : (engine.range rows table partition lead).length ≤ rows.size :=
      List.length_filter_le ..
    rw [List.length_map, rounds_holding]
    omega
  simp only [listing, perform_holding, answer, all, page_items, List.take_of_length_le few]

/-- Removing rows of a table one by one erases their keys. -/
theorem removeAll_holding (engine : Engine) {table : String} {listed : List Row}
    (within : ∀ row ∈ listed, row.key.table = table) (rows : Rows) :
    removeAll table (listed.map Row.item) (engine.holding rows) =
      engine.holding (listed.foldl (fun rows row => rows.erase row.key) rows) := by
  -- The key of an item and its table are the key of the row that the item was made of.
  induction listed generalizing rows with
  | nil => rfl
  | cons row rest ih =>
    have key : RowKey.of table row.item.key = row.key := by
      rw [← within row List.mem_cons_self]
      rfl
    have first : (Store.perform (engine.holding rows) (.delete table row.item.key)).2 =
        engine.holding (rows.erase row.key) := by
      rw [perform_holding, ← key]
      rfl
    rw [List.map_cons, removeAll, List.foldl_cons, first]
    exact ih (fun other member => within other (.tail _ member)) (rows.erase row.key)

/-- Clearing a range is removing one by one what is listed in it. -/
theorem removeAll_listing (engine : Engine) (rows : Rows) (table : String)
    (partition lead : Bytes) :
    removeAll table (listing (engine.holding rows) table partition lead) (engine.holding rows) =
      engine.holding (engine.clear rows table partition lead) := by
  -- What is listed is all that the test of the range accepts, and clearing keeps what it rejects.
  have within : ∀ row ∈ engine.range rows table partition lead, row.key.table = table :=
    fun row member => (covers_within (List.mem_filter.1 member).2).1
  rw [listing_holding, removeAll_holding engine within, range, Rows.erase_all_filter, clear]

/-- A write within a transaction does what it does alone. -/
theorem alone_holding (engine : Engine) (rows : Rows) (write : Write) :
    write.alone (engine.holding rows) = engine.holding (write.apply engine.clear rows) := by
  -- Only the removal of a range takes more than one call.
  cases write with
  | put table item => rw [Write.alone, perform_holding]; rfl
  | delete table key => rw [Write.alone, perform_holding]; rfl
  | deleteRange table partition lead => exact removeAll_listing engine rows table partition lead
  | check table key condition => rfl

/-- Writes within a transaction do what they do one after another. -/
theorem foldl_alone_holding (engine : Engine) (writes : List Write) (rows : Rows) :
    writes.foldl Write.alone (engine.holding rows) =
      engine.holding (writes.foldl (Write.apply engine.clear) rows) := by
  -- One write after another leaves rows.
  induction writes generalizing rows with
  | nil => rfl
  | cons write rest ih => rw [List.foldl_cons, List.foldl_cons, alone_holding, ih]

/-- A write changes the value under each key as its kind says. -/
theorem get?_apply (engine : Engine) (rows : Rows) (write : Write) :
    (write.apply engine.clear rows).get? = write.edit engine rows.get? := by
  -- Each kind of write has a law of its own for lookups.
  funext key
  cases write with
  | put table item => exact Rows.get?_insert rows (Row.of table item) key
  | delete table erased => exact Rows.get?_erase rows (RowKey.of table erased) key
  | deleteRange table partition lead => exact get?_clear rows key
  | check => rfl

/-- Writes change the values under all keys one after another. -/
theorem get?_writes (engine : Engine) (writes : List Write) (rows : Rows) :
    (writes.foldl (Write.apply engine.clear) rows).get? =
      writes.foldl (Write.edit engine) rows.get? := by
  -- What is under a key after the first write is what the others edit.
  induction writes generalizing rows with
  | nil => rfl
  | cons write rest ih => rw [List.foldl_cons, List.foldl_cons, ← get?_apply, ih]

/-- A write reports no conflict exactly if the store meets what it requires. -/
theorem met_holding_iff (engine : Engine) (rows : Rows) (write : Write) :
    write.Met (engine.holding rows) ↔ write.unmet? rows = none := by
  cases write with
  -- Only a check requires anything.
  | put | delete | deleteRange => exact iff_of_true trivial rfl
  | check table key condition =>
    have asked : Store.perform (engine.holding rows) (.get table key) =
        (.ok (rows.get? (RowKey.of table key)), engine.holding rows) := perform_holding engine rows _
    -- What is found under the key decides about either condition.
    cases condition <;> cases found : rows.get? (RowKey.of table key) <;>
      simp [Write.Met, Write.unmet?, Condition.holds, asked, found]

/-- A check that does not hold reports its condition and its table. -/
theorem unmet_check {table : String} {key : Key} {condition : Condition}
    (unmet : ¬ (Write.check table key condition).Met (engine.holding rows)) :
    (Write.check table key condition).unmet? rows = some (.unmet condition table) := by
  -- A check that is not met has its condition as the reason.
  rw [met_holding_iff, Write.unmet?] at unmet
  rw [Write.unmet?]
  split at unmet
  · exact absurd rfl unmet
  · rename_i fails
    rw [if_neg fails]

/--
A transaction is carried out as a whole or not at all, and its checks see what was there before it.

One with too many writes is refused. Otherwise the first check that does not hold makes it fail, wherever
that check stands. If all hold, the writes leave what they leave when each is carried out alone, which is
what each of them in turn makes of the values under all keys.
-/
theorem transact_exact (engine : Engine) (rows : Rows) (writes : List Write) :
    let store := engine.holding rows
    let outcome := Store.perform store (.transact writes)
    (transactionLimit < writes.length →
      outcome = (.error (.tooLarge writes.length transactionLimit), store)) ∧
    (writes.length ≤ transactionLimit → ∀ before table key condition after,
      writes = before ++ .check table key condition :: after →
      (∀ write ∈ before, write.Met store) → ¬ (Write.check table key condition).Met store →
      outcome = (.error (.conflict (.unmet condition table)), store)) ∧
    (writes.length ≤ transactionLimit → (∀ write ∈ writes, write.Met store) →
      ∃ left, outcome = (.ok (), engine.holding left) ∧
        engine.holding left = writes.foldl Write.alone store ∧
        left.get? = writes.foldl (Write.edit engine) rows.get?) := by
  intro store outcome
  -- What the engine does is known from how it settles the writes.
  have performed : outcome = ((engine.answer rows (.transact writes)).1,
      engine.holding (engine.answer rows (.transact writes)).2) :=
    perform_holding engine rows (.transact writes)
  have settled := engine.settled rows writes
  rw [performed]
  generalize engine.answer rows (.transact writes) = answered at settled
  obtain ⟨reply, left⟩ := answered
  -- Of the three ways in which it may end, each of the three cases leaves one.
  refine ⟨fun many => ?_, fun few before table key condition after split met unmet => ?_,
    fun few met => ?_⟩
  · -- Too many writes are refused before any check is looked at.
    cases settled with
    | refused => rfl
    | failed few => omega
    | carriedOut few => omega
  · -- The writes before the check have nothing unmet, so its reason is the first that is found.
    have first : writes.findSome? (Write.unmet? rows) = some (.unmet condition table) := by
      have earlier : before.findSome? (Write.unmet? rows) = none :=
        List.findSome?_eq_none_iff.2 fun write member =>
          (met_holding_iff engine rows write).1 (met write member)
      rw [split, List.findSome?_append, earlier, List.findSome?_cons, unmet_check unmet]
      rfl
    cases settled with
    | refused many => omega
    | failed few found =>
      obtain rfl := Option.some.inj (found.symm.trans first)
      rfl
    | carriedOut few found => cases found.symm.trans first
  · -- Every write is met, so the search for a reason ends with none.
    have none : writes.findSome? (Write.unmet? rows) = none :=
      List.findSome?_eq_none_iff.2 fun write member =>
        (met_holding_iff engine rows write).1 (met write member)
    cases settled with
    | refused many => omega
    | failed few found => cases found.symm.trans none
    | carriedOut =>
      exact ⟨_, rfl, (foldl_alone_holding engine writes rows).symm, get?_writes engine writes rows⟩

end Engine

end KeyDispensary
