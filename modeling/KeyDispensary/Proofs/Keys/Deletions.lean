import KeyDispensary.Dispensary
import KeyDispensary.Proofs.Store.Following
import KeyDispensary.Proofs.Store.Frames

/-!
Deletions while some tables are out of reach. Each part of a deletion is done or not by itself, and what
was missed is made up for when the deletion is repeated. Main statement: `Deletion.partly_done`.
-/

namespace KeyDispensary

variable {σ α : Type}

/-! ### Tables out of reach -/

/-- A store some tables of which are out of reach: a call to one of them fails and changes nothing. -/
structure Hampered (σ : Type) where
  store : σ
  /-- The error with which calls to a table fail, if they do. -/
  error? : String → Option StoreError

namespace Hampered

/-- Answers a call if its table is in reach. -/
def perform [Store σ] (hampered : Hampered σ) (call : Call) : Reply call × Hampered σ :=
  match call.table?.bind hampered.error? with
  | some error => (.error error, hampered)
  | none =>
    let (reply, store) := Store.perform hampered.store call
    (reply, { hampered with store := store })

instance [Store σ] : Store (Hampered σ) :=
  ⟨perform, fun hampered => Store.rounds hampered.store⟩

/-- With all tables in reach, a program runs as it does on the store itself. -/
theorem run_unhampered [Store σ] (program : Program α) (store : σ) :
    program.run (Hampered.mk store fun _ => none) =
      ((program.run store).1, ⟨(program.run store).2, fun _ => none⟩) := by
  -- The program is followed call by call.
  induction program generalizing store with
  | done answer => rfl
  | ask call resume ih =>
    -- No call fails, whichever table it concerns.
    have passed : Store.perform (Hampered.mk store fun _ => none) call =
        ((Store.perform store call).1, ⟨(Store.perform store call).2, fun _ => none⟩) := by
      change perform _ _ = _
      have reach : (call.table?.bind fun _ => (none : Option StoreError)) = none := by
        cases call.table? <;> rfl
      simp only [perform, reach]
    rw [Program.run, passed]
    exact ih _ _

end Hampered

/-! ### Ranges of several tables -/

/-- Clears one range in each of some tables. -/
def Engine.clearAll (engine : Engine) (partition lead : Bytes) (tables : List String)
    (rows : Rows) : Rows :=
  tables.foldl (fun rows table => engine.clear rows table partition lead) rows

/-- What is found under a key when ranges of some tables were cleared. -/
theorem Engine.get?_clearAll (engine : Engine) (partition lead : Bytes) (tables : List String)
    (rows : Rows) (key : RowKey) :
    (engine.clearAll partition lead tables rows).get? key =
      if ∃ table ∈ tables, engine.covers table partition lead ⟨key, []⟩ then none
      else rows.get? key := by
  -- One range is cleared after the other.
  induction tables generalizing rows with
  | nil => simp [clearAll]
  | cons table rest ih =>
    -- Clearing the first range takes away what it covers, and the others take away the rest.
    have first := ih (engine.clear rows table partition lead)
    rw [get?_clear] at first
    refine first.trans ?_
    by_cases covered : engine.covers table partition lead ⟨key, []⟩
    · simp [covered]
    · simp [covered]

/-- The outcome of a deletion whose first failure is known. -/
def outcomeOf : Option StoreError → Except KeyError Unit
  | none => .ok ()
  | some error => .error (.store error)

/--
Whether a program clears the range of an identity in each of some tables, whichever of them are in
reach, and reports the error of the first one that is not.
-/
structure Sweeps (identity : Identity) (lead : Bytes) (tables : List String)
    (program : Program (Except KeyError Unit)) : Prop where
  hampered : ∀ (engine : Engine) (rows : Rows) (error? : String → Option StoreError),
    program.run (Hampered.mk (engine.holding rows) error?) =
      (outcomeOf (tables.findSome? error?), ⟨engine.holding (engine.clearAll identity.partition lead
        (tables.filter fun table => (error? table).isNone) rows), error?⟩)

namespace Sweeps

variable {identity : Identity} {lead : Bytes} {first second : Program (Except KeyError Unit)}

/-- A single deletion clears its range, or fails with the error of its table. -/
theorem single (identity : Identity) (lead : Bytes) (table : String) :
    Sweeps identity lead [table]
      (.ask (.transact [.deleteRange table identity.partition lead]) Pool.settled) := by
  refine ⟨fun engine rows error? => ?_⟩
  -- The only call of the deletion is made in that table.
  have performed : Store.perform (Hampered.mk (engine.holding rows) error?)
      (.transact [.deleteRange table identity.partition lead]) =
      match error? table with
      | some error => (.error error, ⟨engine.holding rows, error?⟩)
      | none => (.ok (), ⟨engine.holding (engine.clear rows table identity.partition lead), error?⟩) := by
    change Hampered.perform _ _ = _
    rw [Hampered.perform, Engine.perform_holding, Engine.run_deleteRange]
    rfl
  rw [Program.run, performed]
  -- Either the table is out of reach, or nothing stands in the way.
  cases failed : error? table with
  | some error =>
    simp only [List.findSome?_cons, List.filter_cons, failed]
    rfl
  | none =>
    simp only [List.findSome?_cons, List.filter_cons, failed]
    rfl

/-- A deletion of nothing succeeds. -/
theorem nothing (identity : Identity) (lead : Bytes) :
    Sweeps identity lead [] (.done (.ok ())) :=
  ⟨fun _ _ _ => rfl⟩

/-- Of two deletions, the second is made also when the first fails, whose error then comes first. -/
theorem both {tables tables' : List String} (sweeps : Sweeps identity lead tables first)
    (sweeps' : Sweeps identity lead tables' second) :
    Sweeps identity lead (tables ++ tables') (Dispensary.both first second) := by
  refine ⟨fun engine rows error? => ?_⟩
  rw [Dispensary.both, Program.run_bind, sweeps.hampered, Program.run_map, sweeps'.hampered]
  refine Prod.ext ?_ ?_
  · rw [List.findSome?_append]
    -- The second outcome counts only if the first is a success.
    cases tables.findSome? error? <;> rfl
  · simp only [Engine.clearAll, List.filter_append, List.foldl_append]

/-- With all tables in reach, all ranges are cleared. -/
theorem run {tables : List String} (sweeps : Sweeps identity lead tables first) (engine : Engine)
    (rows : Rows) : first.run (engine.holding rows) =
      (.ok (), engine.holding (engine.clearAll identity.partition lead tables rows)) := by
  -- This is the case of a store none of whose tables is out of reach.
  have swept := sweeps.hampered engine rows fun _ => none
  rw [Hampered.run_unhampered] at swept
  have none : (tables.findSome? fun _ => (none : Option StoreError)) = none :=
    List.findSome?_eq_none_iff.2 fun _ _ => rfl
  have all : (tables.filter fun _ => (Option.none : Option StoreError).isNone) = tables :=
    List.filter_eq_self.2 fun _ _ => rfl
  rw [none, all] at swept
  obtain ⟨answer, left⟩ := Prod.mk.inj swept
  exact Prod.ext answer (congrArg Hampered.store left)

end Sweeps

/-! ### Deletions and their parts -/

/-- A deletion of the keys of an identity. -/
inductive Deletion where
  | pools (identity : Identity)
  | devicePools (identity : Identity) (device : Device)
  | account (policy : Policy) (identity : Identity)

namespace Deletion

/-- A deletion from one table. -/
structure Part where
  table : String
  program : Program (Except KeyError Unit)

/-- The identity whose keys are deleted. -/
def identity : Deletion → Identity
  | .pools identity | .devicePools identity _ | .account _ identity => identity

/-- What the sort keys of the deleted keys begin with. -/
def lead : Deletion → Bytes
  | .pools _ | .account _ _ => []
  | .devicePools _ device => device.lead

variable (dispensary : Dispensary)

/-- The program of a deletion. -/
def program : Deletion → Program (Except KeyError Unit)
  | .pools identity => dispensary.deletePools identity
  | .devicePools identity device => dispensary.deleteDevicePools identity device
  | .account policy identity => dispensary.deleteAccount policy identity

/-- The parts of a deletion; that of legacy keys is one only if the policy is to delete them. -/
def parts : Deletion → List Part
  | .pools identity =>
    [⟨dispensary.tables.ecPool, dispensary.ecPool.delete identity⟩,
      ⟨dispensary.tables.pqPool, dispensary.pqPool.delete identity⟩]
  | .devicePools identity device =>
    [⟨dispensary.tables.ecPool, dispensary.ecPool.deleteDevice identity device⟩,
      ⟨dispensary.tables.pqPool, dispensary.pqPool.deleteDevice identity device⟩]
  | .account policy identity =>
    [⟨dispensary.tables.ecPool, dispensary.ecPool.delete identity⟩,
      ⟨dispensary.tables.pqPool, dispensary.pqPool.delete identity⟩,
      ⟨dispensary.tables.lastResort, dispensary.lastResort.delete identity⟩] ++
    if policy.deletesLegacy then
      [⟨dispensary.tables.legacy, dispensary.legacy.delete identity⟩]
    else []

/-- The tables of the parts. -/
def tables (deletion : Deletion) : List String :=
  (deletion.parts dispensary).map Part.table

/-- Every part clears the range of the deletion in its table. -/
theorem sweeps_part (deletion : Deletion) {part : Part}
    (member : part ∈ deletion.parts dispensary) :
    Sweeps deletion.identity deletion.lead [part.table] part.program := by
  -- Pools and slots are deleted by one and the same call, each in its own table.
  cases deletion with
  | pools identity =>
    simp only [parts, List.mem_cons, List.not_mem_nil, or_false] at member
    rcases member with rfl | rfl <;> exact .single ..
  -- The range of a device is that of its first byte.
  | devicePools identity device =>
    simp only [parts, List.mem_cons, List.not_mem_nil, or_false] at member
    rcases member with rfl | rfl <;> exact .single ..
  | account policy identity =>
    simp only [parts, List.mem_append, List.mem_cons, List.not_mem_nil, or_false] at member
    rcases member with (rfl | rfl | rfl) | legacy
    · exact .single ..
    · exact .single ..
    · exact .single ..
    · split at legacy
      · obtain rfl := List.mem_singleton.1 legacy
        exact .single ..
      · cases legacy

/-- A deletion clears its range in the tables of all its parts. -/
theorem sweeps (deletion : Deletion) :
    Sweeps deletion.identity deletion.lead (deletion.tables dispensary)
      (deletion.program dispensary) := by
  -- The pools of an identity are cleared in two tables, one after the other.
  have pools (identity : Identity) : Sweeps identity []
      [dispensary.tables.ecPool, dispensary.tables.pqPool] (dispensary.deletePools identity) :=
    .both (.single ..) (.single ..)
  cases deletion with
  | pools identity => exact pools identity
  | devicePools identity device => exact .both (.single ..) (.single ..)
  | account policy identity =>
    -- The parts are joined in the order pools, last-resort keys, legacy keys.
    have legacy : Sweeps identity [] (if policy.deletesLegacy then [dispensary.tables.legacy] else [])
        (dispensary.deleteLegacy policy identity) := by
      unfold Dispensary.deleteLegacy
      split
      · exact .single ..
      · exact .nothing ..
    have all := ((pools identity).both (.single identity [] dispensary.tables.lastResort)).both legacy
    have tables : (account policy identity).tables dispensary =
        [dispensary.tables.ecPool, dispensary.tables.pqPool] ++ [dispensary.tables.lastResort] ++
          if policy.deletesLegacy then [dispensary.tables.legacy] else [] := by
      simp only [Deletion.tables, parts, List.map_append]
      split <;> rfl
    rw [tables]
    exact all

/-- What a deletion leaves of rows when calls to some tables fail. -/
structure PartlyDone (engine : Engine) (deletion : Deletion)
    (error? : String → Option StoreError) (rows left : Rows) : Prop where
  /-- A part that does not fail leaves of its table what it leaves when it is run alone. -/
  done : ∀ part ∈ deletion.parts dispensary, error? part.table = none → ∃ alone,
    part.program.run (engine.holding rows) = (.ok (), engine.holding alone) ∧
      ∀ key : RowKey, key.table = part.table → left.get? key = alone.get? key
  /-- A part that fails leaves its table as it was. -/
  missed : ∀ part ∈ deletion.parts dispensary, error? part.table ≠ none →
    ∀ key : RowKey, key.table = part.table → left.get? key = rows.get? key
  /-- Tables that no part concerns are as they were. -/
  otherTables : ∀ key : RowKey, (∀ part ∈ deletion.parts dispensary, part.table ≠ key.table) →
    left.get? key = rows.get? key
  /-- The rows of other identities are as they were. -/
  otherIdentities : ∀ key : RowKey, key.partition ≠ deletion.identity.partition →
    left.get? key = rows.get? key
  /-- Repeated with all tables in reach, the deletion leaves what it would have left at once. -/
  again : ∃ finished,
    (deletion.program dispensary).run (engine.holding rows) = (.ok (), engine.holding finished) ∧
      (deletion.program dispensary).run (engine.holding left) = (.ok (), engine.holding finished)

variable {dispensary}

/-- A deletion leaves nothing but what it misses, and that is as it was. -/
theorem PartlyDone.cleared (engine : Engine) (deletion : Deletion)
    (error? : String → Option StoreError) (rows : Rows) :
    PartlyDone dispensary engine deletion error? rows (engine.clearAll deletion.identity.partition
      deletion.lead ((deletion.tables dispensary).filter fun table => (error? table).isNone) rows) where
  done part member reached := by
    -- Of all ranges that are cleared, only that of the part itself lies in its table.
    refine ⟨_, (deletion.sweeps_part dispensary member).run engine rows, fun key within => ?_⟩
    have listed : part.table ∈ (deletion.tables dispensary).filter fun table => (error? table).isNone :=
      List.mem_filter.2 ⟨List.mem_map.2 ⟨part, member, rfl⟩, by rw [reached]; rfl⟩
    have same : (∃ table ∈ (deletion.tables dispensary).filter fun table => (error? table).isNone,
        engine.covers table deletion.identity.partition deletion.lead ⟨key, []⟩) ↔
          ∃ table ∈ [part.table],
            engine.covers table deletion.identity.partition deletion.lead ⟨key, []⟩ := by
      constructor
      · rintro ⟨table, _, covered⟩
        obtain rfl : part.table = table := within.symm.trans (Engine.covers_within covered).1
        exact ⟨_, List.mem_singleton.2 rfl, covered⟩
      · rintro ⟨table, single, covered⟩
        exact ⟨part.table, listed, List.mem_singleton.1 single ▸ covered⟩
    simp only [Engine.get?_clearAll, same]
  missed part member failed key within := by
    rw [Engine.get?_clearAll, if_neg]
    rintro ⟨table, reached, covered⟩
    -- A table whose range is cleared is in reach.
    obtain rfl : part.table = table := within.symm.trans (Engine.covers_within covered).1
    exact failed (Option.isNone_iff_eq_none.1 (List.mem_filter.1 reached).2)
  otherTables key apart := by
    -- No range in another table covers the key.
    rw [Engine.get?_clearAll, if_neg]
    rintro ⟨table, reached, covered⟩
    obtain ⟨part, member, rfl⟩ := List.mem_map.1 (List.mem_filter.1 reached).1
    exact apart part member (Engine.covers_within covered).1.symm
  otherIdentities key apart := by
    -- No range of the identity covers a key of another one.
    rw [Engine.get?_clearAll, if_neg]
    rintro ⟨table, _, covered⟩
    exact apart (Engine.covers_within covered).2
  again := by
    refine ⟨_, (deletion.sweeps dispensary).run engine rows, ?_⟩
    rw [(deletion.sweeps dispensary).run engine]
    -- What the first run has cleared, the second would have cleared too.
    refine Prod.ext rfl (congrArg engine.holding (Rows.ext_get? fun key => ?_))
    rw [Engine.get?_clearAll, Engine.get?_clearAll, Engine.get?_clearAll]
    by_cases covered : ∃ table ∈ deletion.tables dispensary,
        engine.covers table deletion.identity.partition deletion.lead ⟨key, []⟩
    · rw [if_pos covered, if_pos covered]
    · rw [if_neg covered, if_neg covered, if_neg]
      rintro ⟨table, reached, here⟩
      exact covered ⟨table, (List.mem_filter.1 reached).1, here⟩

/--
A deletion during which calls to any tables fail with any errors does all its other parts in full, and
repeating it makes up for those that failed. It succeeds if no part fails, and otherwise reports the
error of the first part that does.
-/
theorem partly_done (engine : Engine) (dispensary : Dispensary) (deletion : Deletion)
    (error? : String → Option StoreError) (rows : Rows) :
    ∃ left, (deletion.program dispensary).run (Hampered.mk (engine.holding rows) error?) =
        (outcomeOf ((deletion.parts dispensary).findSome? fun part => error? part.table),
          ⟨engine.holding left, error?⟩) ∧
      PartlyDone dispensary engine deletion error? rows left := by
  -- The deletion sweeps the tables of its parts, whichever of them fail.
  refine ⟨_, ?_, .cleared engine deletion error? rows⟩
  rw [(deletion.sweeps dispensary).hampered, tables, List.findSome?_map]
  rfl

end Deletion

end KeyDispensary
