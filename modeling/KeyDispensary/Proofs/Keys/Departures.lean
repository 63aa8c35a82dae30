import KeyDispensary.Proofs.Keys.Deletions
import KeyDispensary.Proofs.Keys.Filled
import KeyDispensary.Proofs.Keys.Membership

/-!
Accounts whose keys are deleted at once, or one device after another. The steps for the devices may come
in any order, as each of them removes what it finds under keys of its own. Main statement:
`Dispensary.account_by_devices`.
-/

namespace KeyDispensary

/-! ### What programs remove -/

/-- Whether all that is gone from rows is what was found under some keys. -/
structure Rows.Shed (rows : Rows) (gone : RowKey → Prop) (left : Rows) : Prop where
  removed : ∀ key, gone key → left.get? key = none
  kept : ∀ key, ¬ gone key → left.get? key = rows.get? key

namespace Rows.Shed

variable {gone gone' : RowKey → Prop} {rows middle left left' : Rows}

/-- What is gone is known from what is found. -/
theorem of_found [DecidablePred gone]
    (found : ∀ key, left.get? key = if gone key then none else rows.get? key) :
    rows.Shed gone left where
  removed key removed := by rw [found, if_pos removed]
  kept key kept := by rw [found, if_neg kept]

/-- Only keys under which there is a row matter. -/
theorem congr (shed : rows.Shed gone left)
    (same : ∀ row ∈ rows.toList, (gone row.key ↔ gone' row.key)) : rows.Shed gone' left := by
  -- A row that is found tells that both sets of keys have its key or neither has.
  have found (key : RowKey) : rows.get? key = none ∨ (gone key ↔ gone' key) := by
    cases value : rows.get? key with
    | none => exact .inl rfl
    | some value' => exact .inr (same _ (get?_eq_some_iff.1 value))
  constructor
  · intro key removed
    -- Where there is no row, both say that there is none afterwards.
    rcases found key with missing | same
    · by_cases listed : gone key
      · exact shed.removed key listed
      · exact (shed.kept key listed).trans missing
    · exact shed.removed key (same.2 removed)
  · intro key kept
    rcases found key with missing | same
    · by_cases listed : gone key
      · exact (shed.removed key listed).trans missing.symm
      · exact shed.kept key listed
    · exact shed.kept key fun removed => kept (same.1 removed)

/-- What is left is known from the keys that are gone. -/
theorem unique (shed : rows.Shed gone left) (shed' : rows.Shed gone left') : left = left' := by
  -- What is left under every key is told by whether the key was removed.
  refine ext_get? fun key => ?_
  by_cases removed : gone key
  · rw [shed.removed key removed, shed'.removed key removed]
  · rw [shed.kept key removed, shed'.kept key removed]

/-- When nothing is removed, all is left. -/
theorem nothing (rows : Rows) : rows.Shed (fun _ => False) rows :=
  ⟨fun _ none => none.elim, fun _ _ => rfl⟩

/-- What is removed in two steps is what either of them removes. -/
theorem trans (first : rows.Shed gone middle) (second : middle.Shed gone' left) :
    rows.Shed (fun key => gone key ∨ gone' key) left := by
  -- A key keeps its value if neither step is about it, and else the one that is takes it away.
  constructor
  · intro key removed
    by_cases late : gone' key
    · exact second.removed key late
    · exact (second.kept key late).trans (first.removed key (removed.resolve_right late))
  · intro key kept
    have kept := not_or.1 kept
    exact (second.kept key kept.2).trans (first.kept key kept.1)

end Rows.Shed

/-- Whether a program succeeds on any rows and removes what it finds under some keys. -/
def Removes (engine : Engine) (program : Program (Except KeyError Unit)) (gone : RowKey → Prop) : Prop :=
  ∀ rows : Rows, ∃ left,
    program.run (engine.holding rows) = (.ok (), engine.holding left) ∧ rows.Shed gone left

namespace Removes

variable {engine : Engine}

/-- The keys may be described in other words. -/
theorem congr {program : Program (Except KeyError Unit)} {gone gone' : RowKey → Prop}
    (removes : Removes engine program gone) (same : ∀ key, gone key ↔ gone' key) :
    Removes engine program gone' := by
  intro rows
  obtain ⟨left, ran, shed⟩ := removes rows
  exact ⟨left, ran, shed.congr fun row _ => same row.key⟩

/-- A program that clears ranges removes what they cover. -/
theorem of_sweeps {identity : Identity} {lead : Bytes} {tables : List String}
    {program : Program (Except KeyError Unit)} (sweeps : Sweeps identity lead tables program) :
    Removes engine program fun key =>
      ∃ table ∈ tables, engine.covers table identity.partition lead ⟨key, []⟩ :=
  fun rows => ⟨_, sweeps.run engine rows, .of_found (Engine.get?_clearAll engine _ _ _ rows)⟩

/-- Programs that run one after another remove what any of them removes. -/
theorem runAll {ι : Type} {program : ι → Program (Except KeyError Unit)} {gone : ι → RowKey → Prop}
    (removes : ∀ step, Removes engine (program step) (gone step)) (steps : List ι) (rows : Rows) :
    ∃ left, Program.runAll (steps.map program) (engine.holding rows) =
        (steps.map fun _ => .ok (), engine.holding left) ∧
      rows.Shed (fun key => ∃ step ∈ steps, gone step key) left := by
  -- The induction is on the programs, and the rows they meet are those that the earlier ones have left.
  induction steps generalizing rows with
  | nil => exact ⟨rows, rfl, (Rows.Shed.nothing rows).congr fun row _ => by simp⟩
  | cons step rest ih =>
    -- The others remove their part of what the first has left.
    obtain ⟨middle, first, early⟩ := removes step rows
    obtain ⟨left, others, late⟩ := ih middle
    refine ⟨left, ?_, (early.trans late).congr fun row _ => by simp⟩
    simp only [List.map_cons, Program.runAll, first, others]

end Removes

/-! ### Rows of an account -/

namespace Dispensary

variable (dispensary : Dispensary)

/-- The tables of one-time keys. -/
def poolTables : List String :=
  [dispensary.tables.ecPool, dispensary.tables.pqPool]

/-- The tables of the slots of devices; that of legacy keys is left out unless they count. -/
def slotTables (legacyCounts : Bool) : List String :=
  [dispensary.tables.lastResort] ++ if legacyCounts then [dispensary.tables.legacy] else []

/-- Whether rows of some identities have sort keys of the lengths that the dispensary gives them. -/
structure LaidOut (identities : List Identity) (rows : Rows) : Prop where
  /-- The sort key of a one-time key is a device and the eight bytes of an id. -/
  pools : ∀ row ∈ rows.toList, row.key.table ∈ dispensary.poolTables →
    row.key.partition ∈ identities.map Identity.partition → row.key.sort.length = 9
  /-- The sort key of a slot is a device. -/
  slots : ∀ row ∈ rows.toList, row.key.table ∈ dispensary.slotTables true →
    row.key.partition ∈ identities.map Identity.partition → row.key.sort.length = 1

/-- Whether a key is one of those that are deleted along with some identities. -/
def Owned (policy : Policy) (identities : List Identity) (key : RowKey) : Prop :=
  key.table ∈ dispensary.poolTables ++ dispensary.slotTables policy.deletesLegacy ∧
    key.partition ∈ identities.map Identity.partition

variable {dispensary} {engine : Engine} {policy : Policy} {identities : List Identity}
  {account phone : Identity} {device : Device} {rows : Rows} {row : Row}

/-- The table of slots that count is among those of all slots. -/
theorem slotTables_subset (legacyCounts : Bool) :
    dispensary.slotTables legacyCounts ⊆ dispensary.slotTables true := by
  cases legacyCounts with
  | true => exact List.Subset.refl _
  | false => exact List.append_subset.2 ⟨List.subset_append_left .., List.nil_subset _⟩

/-- A slot is one of a device by its table, its identity and its sort key. -/
theorem mem_deviceSlots {legacyCounts : Bool} {key : RowKey} :
    key ∈ dispensary.deviceSlots legacyCounts account phone device ↔
      key.table ∈ dispensary.slotTables legacyCounts ∧
      key.partition ∈ [account, phone].map Identity.partition ∧ key.sort = device.lead := by
  -- There are two tables and two identities, or one table with two identities.
  obtain ⟨table, partition, sort⟩ := key
  cases legacyCounts <;>
    simp [deviceSlots, slotTables, lastResortSlot, legacySlot, RowKey.of, slotKey] <;> tauto

/-- The row of a key that is deleted along with its identity has a sort key. -/
theorem LaidOut.sorted (laidOut : dispensary.LaidOut identities rows) (member : row ∈ rows.toList)
    (owned : dispensary.Owned policy identities row.key) : row.key.sort ≠ [] := by
  -- An empty sort key has neither of the two lengths.
  intro empty
  rcases List.mem_append.1 owned.1 with inPools | inSlots
  · simpa [empty] using laidOut.pools row member inPools owned.2
  · simpa [empty] using laidOut.slots row member (slotTables_subset _ inSlots) owned.2

/-! ### Steps of a departure -/

/-- Whether a key belongs to the pools of a device. -/
def InPools (dispensary : Dispensary) (identity : Identity) (device : Device) (key : RowKey) : Prop :=
  key.table ∈ dispensary.poolTables ∧ key.partition = identity.partition ∧
    ∃ rest, key.sort = device.id :: rest

/-- The deletion of the pools of a device removes what begins with the device, in two tables. -/
theorem removes_devicePools (engine : Engine) (dispensary : Dispensary) (identity : Identity)
    (device : Device) : Removes engine (dispensary.deleteDevicePools identity device)
      (dispensary.InPools identity device) := by
  refine (Removes.of_sweeps ((Deletion.devicePools identity device).sweeps dispensary)).congr
    fun key => ?_
  -- A range of a device is its pool in that table.
  have covered (table : String) :
      engine.covers table identity.partition device.lead ⟨key, []⟩ ↔ key.table = table ∧
        key.partition = identity.partition ∧ ∃ rest, key.sort = device.id :: rest := by
    rw [Pool.covers_lead engine (⟨table⟩ : Pool EcKey), Pool.owns_iff]
  change (∃ table ∈ dispensary.poolTables,
    engine.covers table identity.partition device.lead ⟨key, []⟩) ↔ _
  simp [covered, InPools]

/-- The deletion of an account removes the ranges of the identity in all its tables. -/
theorem removes_account (engine : Engine) (dispensary : Dispensary) (policy : Policy)
    (identity : Identity) : Removes engine (dispensary.deleteAccount policy identity) fun key =>
      ∃ table ∈ dispensary.poolTables ++ dispensary.slotTables policy.deletesLegacy,
        engine.covers table identity.partition [] ⟨key, []⟩ := by
  -- The tables of the deletion are those of pools and slots.
  have tables : (Deletion.account policy identity).tables dispensary =
      dispensary.poolTables ++ dispensary.slotTables policy.deletesLegacy := by
    simp only [Deletion.tables, Deletion.parts, poolTables, slotTables]
    split <;> rfl
  rw [← tables]
  exact .of_sweeps ((Deletion.account policy identity).sweeps dispensary)

end Dispensary

/-- A step by which a device leaves: its pools under one of two identities, or its slots. -/
inductive Departure where
  | accountPools (device : Device)
  | phonePools (device : Device)
  | slots (device : Device)
deriving DecidableEq

namespace Departure

/-- All steps by which all devices leave. -/
def all : List Departure :=
  Device.all.flatMap fun device => [accountPools device, phonePools device, slots device]

/-- Every step is one of them. -/
theorem mem_all (step : Departure) : step ∈ all := by
  -- Its device is one of all devices.
  cases step with
  | accountPools device => exact List.mem_flatMap.2 ⟨device, device.mem_all, .head _⟩
  | phonePools device => exact List.mem_flatMap.2 ⟨device, device.mem_all, .tail _ (.head _)⟩
  | slots device => exact List.mem_flatMap.2 ⟨device, device.mem_all, .tail _ (.tail _ (.head _))⟩

variable (dispensary : Dispensary) (policy : Policy) (account phone : Identity)

/-- The program of a step; the slots are emptied by one transaction. -/
def program : Departure → Program (Except KeyError Unit)
  | .accountPools device => dispensary.deleteDevicePools account device
  | .phonePools device => dispensary.deleteDevicePools phone device
  | .slots device =>
    .ask (.transact (dispensary.removedDeviceWrites policy account phone device)) Pool.settled

/-- The keys under which a step removes what it finds. -/
def Concerns : Departure → RowKey → Prop
  | .accountPools device => dispensary.InPools account device
  | .phonePools device => dispensary.InPools phone device
  | .slots device => (· ∈ dispensary.deviceSlots policy.deletesLegacy account phone device)

/-- A step removes nothing but what it concerns. -/
theorem removes (engine : Engine) (step : Departure) :
    Removes engine (step.program dispensary policy account phone)
      (step.Concerns dispensary policy account phone) := by
  cases step with
  | accountPools device => exact Dispensary.removes_devicePools engine dispensary account device
  | phonePools device => exact Dispensary.removes_devicePools engine dispensary phone device
  -- The slots are deleted by the writes of one transaction.
  | slots device =>
    intro rows
    obtain ⟨left, removed, found⟩ :=
      Dispensary.removedDevice_answer engine dispensary policy account phone device rows
    have emptied : rows.Shed
        (· ∈ dispensary.deviceSlots policy.deletesLegacy account phone device) left := .of_found found
    refine ⟨left, ?_, emptied⟩
    rw [program, Program.run, Engine.perform_holding, removed]
    rfl

end Departure

namespace Dispensary

variable {dispensary : Dispensary} {engine : Engine} {policy : Policy} {identities : List Identity}
  {account phone : Identity} {rows : Rows} {row : Row}

/-- The ranges of identities hold exactly their rows. -/
theorem LaidOut.covered_iff (laidOut : dispensary.LaidOut identities rows)
    (member : row ∈ rows.toList) : (∃ identity ∈ identities,
        ∃ table ∈ dispensary.poolTables ++ dispensary.slotTables policy.deletesLegacy,
          engine.covers table identity.partition [] ⟨row.key, []⟩) ↔
      dispensary.Owned policy identities row.key := by
  constructor
  · rintro ⟨identity, one, table, listed, covered⟩
    obtain ⟨rfl, partition⟩ := Engine.covers_within covered
    exact ⟨listed, List.mem_map.2 ⟨identity, one, partition.symm⟩⟩
  · -- A row with a sort key lies in the range of its whole partition.
    intro owned
    have sorted := laidOut.sorted member owned
    obtain ⟨identity, one, partition⟩ := List.mem_map.1 owned.2
    have whole : engine.covers row.key.table identity.partition [] row := by
      rw [Engine.covers_partition engine sorted, Row.within]
      simp [partition]
    exact ⟨identity, one, row.key.table, owned.1, whole⟩

/-- All steps together concern exactly the rows of both identities. -/
theorem LaidOut.concerns_iff (laidOut : dispensary.LaidOut [account, phone] rows)
    (member : row ∈ rows.toList) {steps : List Departure} (complete : ∀ step, step ∈ steps) :
    (∃ step ∈ steps, step.Concerns dispensary policy account phone row.key) ↔
      dispensary.Owned policy [account, phone] row.key := by
  constructor
  · -- Every step is about one of the two identities.
    rintro ⟨device | device | device, -, concerns⟩
    · exact ⟨List.mem_append_left _ concerns.1, concerns.2.1 ▸ .head _⟩
    · exact ⟨List.mem_append_left _ concerns.1, concerns.2.1 ▸ .tail _ (.head _)⟩
    · obtain ⟨table, partition, -⟩ := mem_deviceSlots.1 concerns
      exact ⟨List.mem_append_right _ table, partition⟩
  · rintro ⟨table, partition⟩
    rcases List.mem_append.1 table with inPools | inSlots
    · -- The first of nine bytes is the device, and the pools of all devices are deleted.
      obtain ⟨id, rest, sort⟩ := List.exists_cons_of_length_eq_add_one
        (laidOut.pools row member inPools partition)
      simp only [List.map_cons, List.map_nil, List.mem_cons, List.not_mem_nil, or_false] at partition
      rcases partition with ofAccount | ofPhone
      · exact ⟨.accountPools ⟨id⟩, complete _, inPools, ofAccount, rest, sort⟩
      · exact ⟨.phonePools ⟨id⟩, complete _, inPools, ofPhone, rest, sort⟩
    · -- The only byte is the device, and the slots of all devices are emptied.
      obtain ⟨id, sort⟩ := List.length_eq_one_iff.1
        (laidOut.slots row member (slotTables_subset _ inSlots) partition)
      exact ⟨.slots ⟨id⟩, complete _, mem_deviceSlots.2 ⟨inSlots, partition, sort⟩⟩

/--
Deleting the keys of an account leaves what is left when every device is removed, whatever the order of
the steps is: nothing of the identities of its account and its phone number, and all else as it was.
Legacy keys are deleted in both ways or in neither.
-/
theorem account_by_devices (engine : Engine) (dispensary : Dispensary) (policy : Policy)
    (account phone : Identity) (rows : Rows) (laidOut : dispensary.LaidOut [account, phone] rows)
    (steps : List Departure) (complete : ∀ step, step ∈ steps) : ∃ left,
      Program.runAll [dispensary.deleteAccount policy account, dispensary.deleteAccount policy phone]
        (engine.holding rows) = ([.ok (), .ok ()], engine.holding left) ∧
      Program.runAll (steps.map (Departure.program dispensary policy account phone))
        (engine.holding rows) = (steps.map fun _ => .ok (), engine.holding left) ∧
      rows.Shed (dispensary.Owned policy [account, phone]) left := by
  obtain ⟨left, atOnce, shed⟩ :=
    Removes.runAll (removes_account engine dispensary policy) [account, phone] rows
  obtain ⟨left', stepwise, shed'⟩ :=
    Removes.runAll (Departure.removes dispensary policy account phone engine) steps rows
  -- The ranges and the steps concern other keys, but the same rows.
  have owned := shed.congr fun row member => laidOut.covered_iff member
  have owned' := shed'.congr fun row member => laidOut.concerns_iff member complete
  obtain rfl := owned.unique owned'
  exact ⟨left, atOnce, stepwise, owned⟩

/-- An account with a key in a pool and one in a slot is deleted, and the row of another partition stays. -/
theorem account_by_devices_mixed :
    let account : Identity := ⟨List.replicate 16 0, rfl⟩
    let phone : Identity := ⟨List.replicate 16 1, rfl⟩
    let dispensary : Dispensary := ⟨{}⟩
    let rows := (Rows.empty.putAll dispensary.tables.ecPool
        [⟨poolKey account .primary 7, [1]⟩, ⟨⟨[9], []⟩, [2]⟩]).putAll dispensary.tables.lastResort
      [⟨slotKey phone .primary, [3]⟩]
    (dispensary.LaidOut [account, phone] rows ∧ ∀ step, step ∈ Departure.all) ∧
    ∃ left,
      Program.runAll [dispensary.deleteAccount {} account, dispensary.deleteAccount {} phone]
        (Engine.database.holding rows) = ([.ok (), .ok ()], Engine.database.holding left) ∧
      Program.runAll (Departure.all.map (Departure.program dispensary {} account phone))
        (Engine.database.holding rows) =
          (Departure.all.map fun _ => .ok (), Engine.database.holding left) ∧
      left.get? (RowKey.of dispensary.tables.ecPool (poolKey account .primary 7)) = none ∧
      left.get? ⟨dispensary.tables.ecPool, [9], []⟩ = some [2] := by
  intro account phone dispensary rows
  have laidOut : dispensary.LaidOut [account, phone] rows :=
    ⟨by decide +kernel, by decide +kernel⟩
  obtain ⟨left, atOnce, stepwise, shed⟩ := account_by_devices .database dispensary {} account phone
    rows laidOut Departure.all Departure.mem_all
  refine ⟨⟨laidOut, Departure.mem_all⟩, left, atOnce, stepwise, shed.removed _ ?_, ?_⟩
  · -- The key in the pool is one of the account.
    exact ⟨.head _, .head _⟩
  · -- The row of the other partition belongs to neither identity.
    rw [shed.kept _ fun owned => absurd owned.2 (by decide)]
    decide +kernel

end Dispensary

end KeyDispensary
