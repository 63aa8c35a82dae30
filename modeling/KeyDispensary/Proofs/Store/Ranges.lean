import KeyDispensary.Store.Memory
import KeyDispensary.Store.Rows.Lookup

/-!
Rows of a partition whose sort keys begin with the same bytes stand together, so that a walk from the
first possible key on finds them all. Main statements: `Memory.range_eq` and `Memory.clear_eq`.
-/

namespace KeyDispensary

/-- Whether the sort key of a row begins with the given bytes, in a partition of a table. -/
def Row.begins (row : Row) (table : String) (partition lead : Bytes) : Bool :=
  row.within table partition && lead.isPrefixOf row.key.sort

/-- Bytes that begin with others do not come before them. -/
theorem not_lt_of_begins {lead sort : Bytes} (begins : lead.isPrefixOf sort) : ¬ sort < lead := by
  -- The two agree on every byte of the shorter one.
  induction lead generalizing sort with
  | nil => exact List.not_lt_nil sort
  | cons first lead ih =>
    cases sort with
    | nil => simp at begins
    | cons next sort =>
      simp only [List.isPrefixOf_cons_cons, Bool.and_eq_true, beq_iff_eq] at begins
      obtain ⟨same, begins⟩ := begins
      subst same
      rw [List.cons_lt_cons_iff]
      -- Neither the first byte nor the rest of the longer one is less.
      rintro (less | ⟨_, less⟩)
      · exact UInt8.lt_irrefl _ less
      · exact ih begins less

/-- What lies between some bytes and bytes that begin with them begins with them too. -/
theorem begins_of_between {lead lower upper : Bytes} (notBefore : ¬ lower < lead)
    (less : lower < upper) (begins : lead.isPrefixOf upper) : lead.isPrefixOf lower := by
  -- The first byte on which the lower one could leave the beginning would order them otherwise.
  induction lead generalizing lower upper with
  | nil => rfl
  | cons first lead ih =>
    cases upper with
    | nil => simp at begins
    | cons next upper =>
      cases lower with
      | nil => exact absurd (List.nil_lt_cons first lead) notBefore
      | cons last lower =>
        simp only [List.isPrefixOf_cons_cons, Bool.and_eq_true, beq_iff_eq] at begins ⊢
        obtain ⟨same, begins⟩ := begins
        subst same
        rw [List.cons_lt_cons_iff] at less notBefore
        -- A first byte below that of the upper one would lie before the beginning.
        have equal : first = last := by
          rcases less with less | ⟨same, _⟩
          · exact absurd (Or.inl less) notBefore
          · exact same.symm
        subst equal
        refine ⟨rfl, ih (fun before => notBefore (.inr ⟨rfl, before⟩)) ?_ begins⟩
        rcases less with less | ⟨_, less⟩
        · exact absurd less (UInt8.lt_irrefl _)
        · exact less

/-- A range starts no earlier than at the key of its leading bytes. -/
theorem Row.not_lt_of_begins {row : Row} {table : String} {partition lead : Bytes}
    (begins : row.begins table partition lead) : ¬ row.key < ⟨table, partition, lead⟩ := by
  -- Table and partition are the same, so the sort keys decide.
  simp only [Row.begins, Row.within, Bool.and_eq_true, decide_eq_true_eq] at begins
  obtain ⟨⟨tables, partitions⟩, leads⟩ := begins
  rintro (less | ⟨_, less | ⟨_, less⟩⟩)
  · exact String.lt_irrefl _ (tables ▸ less)
  · exact List.lt_irrefl _ (partitions ▸ less)
  · exact KeyDispensary.not_lt_of_begins leads less

/-- From the key of its leading bytes on, a range has no gap. -/
theorem Row.begins_of_between {lower upper : Row} {table : String} {partition lead : Bytes}
    (notBefore : ¬ lower.key < ⟨table, partition, lead⟩) (less : lower.key < upper.key)
    (begins : upper.begins table partition lead) : lower.begins table partition lead := by
  -- The lower key is squeezed part by part between the start of the range and the upper key.
  simp only [Row.begins, Row.within, Bool.and_eq_true, decide_eq_true_eq] at begins ⊢
  obtain ⟨⟨tables, partitions⟩, leads⟩ := begins
  -- A later table would be above the upper key, an earlier one below the start.
  have sameTable : lower.key.table = table := by
    refine String.le_antisymm (String.not_lt.1 fun after => ?_)
      (String.not_lt.1 fun before => notBefore (.inl before))
    rcases less with less | ⟨same, _⟩
    · exact String.lt_irrefl _ (String.lt_trans (tables ▸ less) after)
    · exact String.lt_irrefl _ (same.trans tables ▸ after)
  have partitionsLess : lower.key.partition < partition ∨
      (lower.key.partition = partition ∧ lower.key.sort < upper.key.sort) := by
    rcases less with less | ⟨_, less⟩
    · exact absurd (sameTable ▸ tables ▸ less) (String.lt_irrefl _)
    · exact partitions ▸ less
  have samePartition : lower.key.partition = partition := by
    rcases partitionsLess with before | ⟨same, _⟩
    · exact absurd (.inr ⟨sameTable, .inl before⟩) notBefore
    · exact same
  -- In one partition the sort keys are compared alone.
  have sorts : lower.key.sort < upper.key.sort := by
    rcases partitionsLess with before | ⟨_, less⟩
    · exact absurd (samePartition ▸ before) (List.lt_irrefl _)
    · exact less
  refine ⟨⟨sameTable, samePartition⟩, KeyDispensary.begins_of_between (fun before => ?_) sorts leads⟩
  exact notBefore (.inr ⟨sameTable, .inr ⟨samePartition, before⟩⟩)

/-- A test that holds of all rows before one of which it holds keeps a first part of the rows. -/
theorem takeWhile_eq_filter {rows : List Row} (ascending : rows.Pairwise fun a b => a.key < b.key)
    {keep : Row → Bool}
    (closed : ∀ lower ∈ rows, ∀ upper ∈ rows, lower.key < upper.key → keep upper → keep lower) :
    rows.takeWhile keep = rows.filter keep := by
  -- After the first row that fails the test, no row can pass it.
  induction rows with
  | nil => rfl
  | cons first rest ih =>
    obtain ⟨lower, tail⟩ := List.pairwise_cons.1 ascending
    have rest_eq := ih tail fun a member b member' =>
      closed a (.tail _ member) b (.tail _ member')
    by_cases kept : keep first
    · -- A row that passes is kept on both sides.
      rw [List.takeWhile_cons_of_pos kept, List.filter_cons_of_pos kept, rest_eq]
    · rw [List.takeWhile_cons_of_neg kept, List.filter_cons_of_neg kept]
      refine (List.filter_eq_nil_iff.2 fun row member passes => kept ?_).symm
      exact closed first List.mem_cons_self row (.tail _ member) (lower row member) passes

/-- A walk from the first possible key on finds exactly the rows of a range. -/
theorem range_walk_eq {rows : List Row} (ascending : rows.Pairwise fun a b => a.key < b.key)
    (table : String) (partition lead : Bytes) :
    ((rows.dropWhile fun row => row.key < ⟨table, partition, lead⟩).takeWhile fun row =>
      row.begins table partition lead) = rows.filter fun row => row.begins table partition lead := by
  -- Rows before the first possible key are in no range, and from there on the range has no gap.
  induction rows with
  | nil => rfl
  | cons first rest ih =>
    obtain ⟨lower, tail⟩ := List.pairwise_cons.1 ascending
    by_cases before : first.key < ⟨table, partition, lead⟩
    · -- A row before the start is dropped by the walk and is not in the range.
      rw [List.dropWhile_cons_of_pos (by simpa using before), ih tail, List.filter_cons_of_neg]
      exact fun begins => Row.not_lt_of_begins begins before
    · rw [List.dropWhile_cons_of_neg (by simpa using before)]
      -- From the start on, a row before one of the range is in the range itself.
      refine takeWhile_eq_filter ascending fun a member b _ less begins => ?_
      refine Row.begins_of_between (fun early => ?_) less begins
      rcases List.mem_cons.1 member with head | later
      · exact before (head ▸ early)
      · exact before (RowKey.lt_trans (lower a later) early)

/-- Erasing a key under which nothing is found changes nothing. -/
theorem Rows.erase_of_absent {rows : Rows} {key : RowKey} (absent : rows.get? key = none) :
    rows.erase key = rows := by
  -- Every other key keeps its value, and this one had none.
  apply ext_get?
  intro other
  rw [get?_erase]
  split
  · rename_i same
    rw [same, absent]
  · rfl

/-- Of items that are put under one key, the last is found there. -/
theorem Rows.get?_putAll (rows : Rows) (table : String) (items : List Item) (key : RowKey) :
    (rows.putAll table items).get? key =
      ((items.reverse.find? fun item => RowKey.of table item.key = key).map Item.value).or
        (rows.get? key) := by
  -- Each item is put in front of those that were put before it.
  induction items generalizing rows with
  | nil => rfl
  | cons item items ih =>
    change ((rows.insert (Row.of table item)).putAll table items).get? key = _
    rw [ih, get?_insert, List.reverse_cons, List.find?_append]
    cases List.find? (fun item => RowKey.of table item.key = key) items.reverse with
    -- A later item hides the first one.
    | some last => rfl
    | none =>
      -- Without a later one, the first is found under its own key only.
      by_cases same : RowKey.of table item.key = key
      · simp [same, Row.of]
      · simp [same, Row.of, Ne.symm same]

/-- Erasing the rows of a list one by one leaves what is under other keys. -/
theorem Rows.get?_erase_all (erased : List Row) (rows : Rows) (key : RowKey) :
    (erased.foldl (fun rows row => rows.erase row.key) rows).get? key =
      if ∃ row ∈ erased, row.key = key then none else rows.get? key := by
  -- Each step removes one key and touches no other.
  induction erased generalizing rows with
  | nil => simp
  | cons first rest ih =>
    rw [List.foldl_cons, ih, get?_erase]
    by_cases later : ∃ row ∈ rest, row.key = key
    · simp [later]
    · simp only [later, if_false, List.mem_cons, exists_eq_or_imp, or_false]
      simp [eq_comm]

/-- Erasing one by one the rows of which a test holds leaves those of which it does not hold. -/
theorem Rows.erase_all_filter (rows : Rows) (test : Row → Bool) :
    (rows.toList.filter test).foldl (fun rows row => rows.erase row.key) rows =
      rows.filter fun row => !test row := by
  -- Rows are known from what is found in them.
  apply ext_get?
  intro key
  rw [get?_erase_all, get?_filter]
  cases held : rows.get? key with
  | none => simp
  | some value =>
    have member := get?_eq_some_iff.1 held
    -- The row under the key is the only one that the test could be asked about.
    have same : (∃ row ∈ rows.toList.filter test, row.key = key) ↔ test ⟨key, value⟩ := by
      constructor
      · rintro ⟨row, inside, here⟩
        obtain ⟨listed, holds⟩ := List.mem_filter.1 inside
        exact eq_of_ascending rows.ascending listed member here ▸ holds
      · exact fun holds => ⟨_, List.mem_filter.2 ⟨member, holds⟩, rfl⟩
    by_cases holds : test ⟨key, value⟩
    · rw [if_pos (same.2 holds), Option.filter_some, if_neg (by simp [holds])]
    · rw [if_neg (mt same.1 holds), Option.filter_some, if_pos (by simp [holds])]

namespace Memory

/-- The range of a walk holds exactly the rows whose sort keys begin as asked. -/
theorem range_eq (rows : Rows) (table : String) (partition lead : Bytes) :
    range rows table partition lead =
      rows.toList.filter fun row => row.begins table partition lead :=
  range_walk_eq rows.ascending table partition lead

/-- Erasing a range one by one leaves exactly the rows outside it. -/
theorem clear_eq (rows : Rows) (table : String) (partition lead : Bytes) :
    clear rows table partition lead = rows.filter fun row => !row.begins table partition lead := by
  -- The range holds the rows whose sort keys begin as asked.
  rw [clear, range_eq]
  exact rows.erase_all_filter fun row => row.begins table partition lead

end Memory

end KeyDispensary
