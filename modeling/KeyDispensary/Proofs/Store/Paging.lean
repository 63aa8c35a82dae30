import KeyDispensary.Proofs.Store.Engine

/-!
Pages of a range. A query that starts after the last key of a page finds what the page left out. Main
statement: `Engine.found_next`.
-/

namespace KeyDispensary

/-- Rows of a range lie in one partition of one table. -/
theorem Engine.covers_within {engine : Engine} {table : String} {partition lead : Bytes} {row : Row}
    (covered : engine.covers table partition lead row) :
    row.key.table = table ∧ row.key.partition = partition := by
  -- The other parts of the test concern the sort key.
  simp only [covers, Row.begins, Row.within, Bool.and_eq_true, decide_eq_true_eq] at covered
  exact covered.1.1

namespace Engine

variable {engine : Engine} {rows : Rows} {table : String} {partition lead : Bytes} {query : Query}

/-- The rows of a range have ascending sort keys. -/
theorem range_ascending (engine : Engine) (rows : Rows) (table : String) (partition lead : Bytes) :
    (engine.range rows table partition lead).Pairwise fun a b => a.key.sort < b.key.sort := by
  have ordered : (engine.range rows table partition lead).Pairwise fun a b => a.key < b.key :=
    rows.ascending.filter _
  -- Rows are in the order of their keys, which differ in nothing but the sort key.
  refine ordered.imp_of_mem fun {a b} left right less => ?_
  obtain ⟨tables, partitions⟩ := covers_within (List.mem_filter.1 left).2
  obtain ⟨tables', partitions'⟩ := covers_within (List.mem_filter.1 right).2
  rcases less with less | ⟨_, less | ⟨_, less⟩⟩
  · exact absurd (tables ▸ tables' ▸ less) (String.lt_irrefl _)
  · exact absurd (partitions ▸ partitions' ▸ less) (List.lt_irrefl _)
  · exact less

/-- The rows that a query finds have ascending sort keys. -/
theorem found_ascending (engine : Engine) (rows : Rows) (query : Query) :
    (engine.found rows query).Pairwise fun a b => a.key.sort < b.key.sort :=
  -- A query finds rows of its range in their order.
  (range_ascending ..).filter _

/-- Of rows in ascending order, those after one of them are the rest of the list. -/
theorem filter_past_eq_drop {listed : List Row}
    (ascending : listed.Pairwise fun a b => a.key.sort < b.key.sort) {place : Nat} {row : Row}
    (located : listed[place]? = some row) :
    (listed.filter fun other => Memory.isPast (some row.key.sort) other.key.sort) =
      listed.drop (place + 1) := by
  -- The row is searched for from the front, and no row before it comes after it.
  induction listed generalizing place with
  | nil => cases located
  | cons first rest ih =>
    obtain ⟨lower, tail⟩ := List.pairwise_cons.1 ascending
    cases place with
    | zero =>
      -- The first row does not come after itself, and all others do.
      obtain rfl := Option.some.inj located
      rw [List.filter_cons_of_neg (by simp [Memory.isPast, List.lt_irrefl])]
      exact List.filter_eq_self.2 fun other member => decide_eq_true (lower other member)
    | succ place =>
      have later := lower row (List.mem_of_getElem? located)
      have before : ¬ row.key.sort < first.key.sort := List.lt_asymm later
      rw [List.filter_cons_of_neg (by simpa [Memory.isPast] using before)]
      exact ih tail located

/-- Whatever comes after a row comes after all that the row comes after. -/
theorem filter_past_of_past {after : Option Bytes} {row : Row}
    (late : Memory.isPast after row.key.sort) (listed : List Row) :
    (listed.filter fun other => Memory.isPast (some row.key.sort) other.key.sort) =
      (listed.filter fun other => Memory.isPast after other.key.sort).filter
        fun other => Memory.isPast (some row.key.sort) other.key.sort := by
  -- What comes after the row comes after the start as well.
  rw [List.filter_filter]
  refine List.filter_congr fun other _ => ?_
  cases after with
  | none => simp [Memory.isPast]
  | some start =>
    by_cases less : row.key.sort < other.key.sort
    · have both : start < other.key.sort := List.lt_trans (of_decide_eq_true late) less
      simp [Memory.isPast, less, both]
    · simp [Memory.isPast, less]

/-- A query that starts after a row which another has found goes on from there. -/
theorem found_after {place : Nat} {row : Row}
    (located : (engine.found rows query)[place]? = some row) :
    engine.found rows { query with after := some row.key.sort } =
      (engine.found rows query).drop (place + 1) := by
  -- Whatever comes after the row comes after the start of the query.
  have late := (List.mem_filter.1 (List.mem_of_getElem? located)).2
  rw [← filter_past_eq_drop (found_ascending engine rows query) located]
  exact filter_past_of_past late _

/-- A page shows the first items, as many as its limit allows. -/
theorem page_items (limit : Nat) (items : List Item) :
    (Memory.page limit items).items = items.take limit := by
  -- Whether there is a last key does not matter for the items.
  simp only [Memory.page]
  split <;> rfl

/-- A page with a last key leaves something out. -/
theorem page_partial {limit : Nat} {items : List Item} {last : Bytes}
    (shown : (Memory.page limit items).last = some last) : limit < items.length := by
  -- The last key is given only if something is left.
  simp only [Memory.page] at shown
  split at shown
  · cases shown
  · rename_i next more rest
    have size := congrArg List.length rest
    rw [List.length_drop, List.length_cons] at size
    omega

/-- The last key of a page is that of the last item it shows. -/
theorem page_last {limit : Nat} {items : List Item} {last : Bytes}
    (shown : (Memory.page limit items).last = some last) :
    ∃ item, (items.take limit).getLast? = some item ∧ item.key.sort = last := by
  -- Only a page that leaves something out has a last key.
  simp only [Memory.page] at shown
  split at shown
  · cases shown
  · exact Option.map_eq_some_iff.1 shown

/-- A page without a last key shows all that the query finds. -/
theorem page_complete {limit : Nat} {items : List Item} (positive : 0 < limit)
    (shown : (Memory.page limit items).last = none) : items.drop limit = [] := by
  simp only [Memory.page] at shown
  split at shown
  · assumption
  · rename_i next more rest
    -- A page that leaves something out is full.
    have few := congrArg List.length rest
    rw [List.length_drop, List.length_cons] at few
    have empty := congrArg List.length (List.getLast?_eq_none_iff.1 (Option.map_eq_none_iff.1 shown))
    rw [List.length_take, List.length_nil] at empty
    omega

/-- A page that all items fit on shows them and has no last key. -/
theorem page_of_few {limit : Nat} {items : List Item} (few : items.length ≤ limit) :
    Memory.page limit items = ⟨items, none⟩ := by
  -- Nothing is left out.
  simp only [Memory.page, List.drop_eq_nil_of_le few, List.take_of_length_le few]

/-- A page that leaves items out is full, and its last key is that of its last item. -/
theorem page_of_many {limit : Nat} {items : List Item} (positive : 0 < limit)
    (many : limit < items.length) : ∃ item, (items.take limit).getLast? = some item ∧
      Memory.page limit items = ⟨items.take limit, some item.key.sort⟩ := by
  -- Such a page has a last key, since otherwise it would show all.
  cases last : (Memory.page limit items).last with
  | none =>
    have whole := List.drop_eq_nil_iff.1 (page_complete positive last)
    omega
  | some key =>
    obtain ⟨item, shown, rfl⟩ := page_last last
    exact ⟨item, shown, by rw [← page_items, ← last]⟩

/-- A query that starts after the last key of a page finds what the page left out. -/
theorem found_next {last : Bytes}
    (shown : (Memory.page query.limit ((engine.found rows query).map Row.item)).last = some last) :
    engine.found rows { query with after := some last } =
      (engine.found rows query).drop query.limit := by
  have few := page_partial shown
  rw [List.length_map] at few
  obtain ⟨item, shownLast, rfl⟩ := page_last shown
  rw [← List.map_take, List.getLast?_map] at shownLast
  obtain ⟨row, final, rfl⟩ := Option.map_eq_some_iff.1 shownLast
  -- The last row of the page is the one at the place before the limit.
  rw [List.getLast?_eq_getElem?, List.length_take, Nat.min_eq_left (by omega)] at final
  have positive : query.limit ≠ 0 := by
    intro none
    simp [none] at final
  rw [List.getElem?_take_of_lt (by omega)] at final
  have next := found_after final
  rwa [Nat.sub_add_cancel (by omega)] at next

end Engine

end KeyDispensary
