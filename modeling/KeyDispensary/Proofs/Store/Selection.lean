import KeyDispensary.Proofs.Store.Frames

/-!
Which rows the calls about a range concern: those whose sort keys begin as asked, but a database passes
over a row without a sort key. Main statement: `Engine.range_calls_exact`.
-/

namespace KeyDispensary.Engine

/-- Whether all calls about a range concern exactly the rows of which a test holds. -/
structure Concerns (engine : Engine) (rows : Rows) (table : String) (partition lead : Bytes)
    (chosen : Row → Bool) : Prop where
  /-- A query without a start, and with a limit that they do not exceed, lists them. -/
  listed : ∀ limit, (rows.filter chosen).size ≤ limit →
    Store.perform (engine.holding rows) (.query ⟨table, partition, lead, none, limit⟩) =
      (.ok ⟨(rows.filter chosen).toList.map Row.item, none⟩, engine.holding rows)
  /-- They are listed in ascending order. -/
  ascending : ((rows.filter chosen).toList.map Row.item).Pairwise fun a b => a.key.sort < b.key.sort
  /-- Their number is counted. -/
  counted : Store.perform (engine.holding rows) (.count table partition lead) =
    (.ok (rows.filter chosen).size, engine.holding rows)
  /-- A transaction that deletes the range leaves all rows but them. -/
  deleted : Store.perform (engine.holding rows) (.transact [.deleteRange table partition lead]) =
    (.ok (), engine.holding (rows.filter fun row => !chosen row))
  /-- A replacement leaves all rows but them, with the items put over these, the last of each key. -/
  replaced : ∀ items, ∃ left,
    Store.perform (engine.holding rows) (.replace table partition lead items) =
      (.ok (), engine.holding left) ∧
    ∀ key, left.get? key =
      ((items.reverse.find? fun item => RowKey.of table item.key = key).map Item.value).or
        ((rows.filter fun row => !chosen row).get? key)

variable {engine : Engine} {rows : Rows} {table : String} {partition lead : Bytes}

/-- The calls about a range concern the rows that the engine counts to it. -/
theorem concerns_covered (engine : Engine) (rows : Rows) (table : String) (partition lead : Bytes) :
    Concerns engine rows table partition lead (engine.covers table partition lead) where
  listed limit few := by
    have all : engine.found rows ⟨table, partition, lead, none, limit⟩ =
        engine.range rows table partition lead := List.filter_eq_self.2 fun _ _ => rfl
    -- The page has room for all rows of the range.
    have fits : ((engine.range rows table partition lead).map Row.item).length ≤ limit := by
      rw [List.length_map]
      exact few
    rw [perform_holding]
    simp only [answer, all, page_of_few fits]
    rfl
  ascending := List.pairwise_map.2 (range_ascending engine rows table partition lead)
  counted := perform_holding engine rows _
  deleted := by
    rw [perform_holding, run_deleteRange]
    rfl
  replaced items := ⟨_, perform_holding engine rows _, Rows.get?_putAll _ table items⟩

/-- Whether calls concern the rows of which a test holds depends on the rows that are there. -/
theorem Concerns.congr {chosen chosen' : Row → Bool}
    (concerns : Concerns engine rows table partition lead chosen)
    (same : ∀ row ∈ rows.toList, chosen row = chosen' row) :
    Concerns engine rows table partition lead chosen' := by
  -- All calls see the rows that are chosen, or those that are not.
  have inside : rows.filter chosen = rows.filter chosen' := by
    simp only [Rows.filter, List.filter_congr same]
  have outside : (rows.filter fun row => !chosen row) = rows.filter fun row => !chosen' row := by
    have tests : ∀ row ∈ rows.toList, (!chosen row) = !chosen' row :=
      fun row member => congrArg _ (same row member)
    simp only [Rows.filter, List.filter_congr tests]
  obtain ⟨listed, ascending, counted, deleted, replaced⟩ := concerns
  rw [inside] at listed ascending counted
  rw [outside] at deleted replaced
  exact ⟨listed, ascending, counted, deleted, replaced⟩

/-- Tests that tell the rows which all calls about a range concern agree on the rows that are there. -/
theorem Concerns.unique {chosen chosen' : Row → Bool}
    (concerns : Concerns engine rows table partition lead chosen)
    (concerns' : Concerns engine rows table partition lead chosen') {row : Row}
    (member : row ∈ rows.toList) : chosen row = chosen' row := by
  -- What is left when the range is deleted shows which rows went.
  have left : (rows.filter fun row => !chosen row) = rows.filter fun row => !chosen' row := by
    rw [← engine.rows_holding (rows.filter fun row => !chosen row),
      ← engine.rows_holding (rows.filter fun row => !chosen' row)]
    exact congrArg engine.rows (congrArg Prod.snd (concerns.deleted.symm.trans concerns'.deleted))
  -- A row is left exactly if it was not chosen.
  have stays : (!chosen row) = true ↔ (!chosen' row) = true := by
    have listed : row ∈ (rows.filter fun row => !chosen row).toList ↔
        row ∈ (rows.filter fun row => !chosen' row).toList := by rw [left]
    simpa only [Rows.filter, List.mem_filter, member, true_and] using listed
  simpa using Bool.eq_iff_iff.2 stays

/-- An engine counts a row to a range if its sort key begins as asked, with one exception. -/
theorem covers_eq_begins_iff {row : Row} :
    engine.covers table partition lead row = row.begins table partition lead ↔
      (engine = .database → lead = [] → row.within table partition → row.key.sort ≠ []) := by
  -- An empty sort key begins with nothing but the empty string.
  cases engine with
  | memory => simp [covers]
  | database =>
    cases sort : row.key.sort with
    | nil => cases lead <;> simp [covers, Row.begins, sort]
    | cons first rest => simp [covers, sort]

/--
The calls about a range concern the rows of the table and the partition whose sort keys begin as asked.

A store in memory leaves out none of them. A database leaves out a row whose sort key is empty, so that
its range of all sort keys is the whole partition only where every row has a sort key.
-/
theorem range_calls_exact (engine : Engine) (rows : Rows) (table : String)
    (partition lead : Bytes) :
    Concerns engine rows table partition lead (fun row =>
      row.begins table partition lead && (engine = .memory || !row.key.sort.isEmpty)) ∧
    (Concerns engine rows table partition lead (fun row => row.begins table partition lead) ↔
      (engine = .database → lead = [] →
        ∀ row ∈ rows.toList, row.within table partition → row.key.sort ≠ [])) := by
  -- Two tests of the same calls agree on the rows, so that the second one has to be the test of the engine.
  have covered := concerns_covered engine rows table partition lead
  refine ⟨covered, fun concerns database all row member => ?_, fun sorted => covered.congr ?_⟩
  · exact covers_eq_begins_iff.1 (covered.unique concerns member) database all
  · exact fun row member => covers_eq_begins_iff.2 fun database all => sorted database all row member

/-- A database passes over a row whose sort key is empty, although that begins with the empty string. -/
theorem unsorted_row_passed_over :
    let rows := Rows.empty.insert ⟨⟨"keys", [1], []⟩, [7]⟩
    let store := Engine.database.holding rows
    (Store.perform (Engine.database.holding Rows.empty) (.put "keys" ⟨⟨[1], []⟩, [7]⟩)).2 = store ∧
    (Store.perform store (.get "keys" ⟨[1], []⟩)).1 = .ok (some [7]) ∧
    (Store.perform store (.query ⟨"keys", [1], [], none, Query.unlimited⟩)).1 = .ok ⟨[], none⟩ ∧
    (Store.perform store (.count "keys" [1] [])).1 = .ok 0 ∧
    Store.perform store (.transact [.deleteRange "keys" [1] []]) = (.ok (), store) ∧
    Store.perform store (.replace "keys" [1] [] []) = (.ok (), store) ∧
    ¬ Concerns .database rows "keys" [1] [] fun row => row.begins "keys" [1] [] := by
  intro rows store
  have count : (Store.perform store (.count "keys" [1] [])).1 = .ok 0 := rfl
  refine ⟨rfl, rfl, rfl, count, rfl, rfl, fun concerns => ?_⟩
  -- The row is one whose sort key begins as asked, so it would be counted.
  have counted : (.ok 0 : Reply (.count "keys" [1] [])) = .ok 1 :=
    count.symm.trans (congrArg Prod.fst concerns.counted)
  cases counted

end KeyDispensary.Engine
