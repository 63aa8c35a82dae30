import KeyDispensary.Dispensary
import KeyDispensary.Proofs.Keys.Slots
import KeyDispensary.Proofs.Store.Following
import KeyDispensary.Proofs.Store.Merging

/-!
Devices that are added and removed within transactions of the caller's. The built writes do what the
operations on single slots do, whatever else the transaction holds and wherever they stand in it. Main
statement: `Dispensary.membership_exact`.
-/

namespace KeyDispensary

variable {σ α : Type}

/-- Runs programs one after another. -/
def Program.runAll [Store σ] : List (Program α) → σ → List α × σ
  | [], store => ([], store)
  | program :: rest, store =>
    let (answer, store) := program.run store
    let (answers, store) := runAll rest store
    (answer :: answers, store)

namespace Dispensary

variable (dispensary : Dispensary)

/-- The slot of a last-resort key. -/
def lastResortSlot (identity : Identity) (device : Device) : RowKey :=
  RowKey.of dispensary.lastResort.table (slotKey identity device)

/-- The slot of a legacy key. -/
def legacySlot (identity : Identity) (device : Device) : RowKey :=
  RowKey.of dispensary.legacy.table (slotKey identity device)

/-- The slots of a device under two identities; those of legacy keys are left out unless they count. -/
def deviceSlots (legacyCounts : Bool) (account phone : Identity) (device : Device) : List RowKey :=
  [dispensary.lastResortSlot account device, dispensary.lastResortSlot phone device] ++
  if legacyCounts then [dispensary.legacySlot account device, dispensary.legacySlot phone device]
  else []

/-- The operations that store the keys of a new device one by one. -/
def newDeviceStores (policy : Policy) (account phone : Identity) (device : Device)
    (keys : NewDevice) : List (Program (Except KeyError Unit)) :=
  [dispensary.lastResort.store account device keys.accountLastResort,
    dispensary.lastResort.store phone device keys.phoneLastResort,
    dispensary.storeLegacy policy account device keys.accountSigned,
    dispensary.storeLegacy policy phone device keys.phoneSigned]

variable {dispensary} {engine : Engine} {policy : Policy} {account phone : Identity}
  {device : Device} {keys : NewDevice} {rows : Rows}

/-- Storing the keys of a new device one by one leaves what the built writes leave. -/
theorem runAll_newDeviceStores (engine : Engine) (dispensary : Dispensary) (policy : Policy)
    (account phone : Identity) (device : Device) (keys : NewDevice) (rows : Rows) :
    Program.runAll (dispensary.newDeviceStores policy account phone device keys)
        (engine.holding rows) =
      ((dispensary.newDeviceStores policy account phone device keys).map fun _ => .ok (),
        engine.holding ((dispensary.newDeviceWrites policy account phone device keys).foldl
          (Write.apply engine.clear) rows)) := by
  -- Legacy keys are stored by both or by neither.
  cases stores : policy.storesLegacy <;>
    simp [newDeviceStores, newDeviceWrites, storeLegacy, Program.runAll, Program.run,
      Slots.store_run, stores]

/-- The writes for a new device put items, each into a slot of the device. -/
theorem newDeviceWrites_puts {write : Write}
    (member : write ∈ dispensary.newDeviceWrites policy account phone device keys) :
    ∃ table item, write = .put table item ∧
      RowKey.of table item.key ∈ dispensary.deviceSlots policy.storesLegacy account phone device := by
  -- The writes of last-resort keys come first, and those of legacy keys may follow.
  rcases List.mem_append.1 member with lastResort | legacy
  · simp only [List.mem_cons, List.not_mem_nil, or_false] at lastResort
    rcases lastResort with rfl | rfl
    · exact ⟨_, _, rfl, List.mem_append_left _ (.head _)⟩
    · exact ⟨_, _, rfl, List.mem_append_left _ (.tail _ (.head _))⟩
  · -- There are writes of legacy keys only if the policy is to store such keys.
    split at legacy
    · rename_i stores
      rw [deviceSlots, if_pos stores]
      simp only [List.mem_cons, List.not_mem_nil, or_false] at legacy
      rcases legacy with rfl | rfl
      · exact ⟨_, _, rfl, List.mem_append_right _ (.head _)⟩
      · exact ⟨_, _, rfl, List.mem_append_right _ (.tail _ (.head _))⟩
    · cases legacy

/-- The writes that remove a device delete its slots. -/
theorem removedDeviceWrites_eq (dispensary : Dispensary) (policy : Policy)
    (account phone : Identity) (device : Device) :
    dispensary.removedDeviceWrites policy account phone device =
      (dispensary.deviceSlots policy.deletesLegacy account phone device).map RowKey.deletion := by
  -- Legacy keys are deleted for both identities or for neither.
  rw [removedDeviceWrites, deviceSlots]
  split <;> rfl

/-- A transaction that removes a device succeeds and empties its slots. -/
theorem removedDevice_answer (engine : Engine) (dispensary : Dispensary) (policy : Policy)
    (account phone : Identity) (device : Device) (rows : Rows) : ∃ left,
      engine.answer rows (.transact (dispensary.removedDeviceWrites policy account phone device)) =
        (.ok (), left) ∧
      ∀ key, left.get? key =
        if key ∈ dispensary.deviceSlots policy.deletesLegacy account phone device then none
        else rows.get? key := by
  -- The writes delete the slots of the device, which are at most four.
  have few : (dispensary.deviceSlots policy.deletesLegacy account phone device).length ≤
      transactionLimit := by
    cases policy.deletesLegacy <;> exact Nat.le_of_ble_eq_true rfl
  rw [removedDeviceWrites_eq]
  exact engine.answer_deletions rows few

/-- A transaction of items of the caller's and of the writes for a new device. -/
structure Joined (dispensary : Dispensary) (engine : Engine) (policy : Policy)
    (account phone : Identity) (device : Device) (keys : NewDevice) (extra writes : List Write)
    (rows : Rows) : Prop where
  /-- If a check of the caller's fails, it fails alike in both transactions, and nothing changes. -/
  failed : (∃ write ∈ extra, ¬ write.Met (engine.holding rows)) → ∃ reason,
    Store.perform (engine.holding rows) (.transact extra) =
      (.error (.conflict reason), engine.holding rows) ∧
    Store.perform (engine.holding rows) (.transact writes) =
      (.error (.conflict reason), engine.holding rows)
  /-- Otherwise it leaves what storing the keys one by one leaves after the caller's own items. -/
  carriedOut : (∀ write ∈ extra, write.Met (engine.holding rows)) →
    (Store.perform (engine.holding rows) (.transact extra)).1 = .ok () ∧
    (Store.perform (engine.holding rows) (.transact writes)).1 = .ok () ∧
    Program.runAll (dispensary.newDeviceStores policy account phone device keys)
        (Store.perform (engine.holding rows) (.transact extra)).2 =
      ((dispensary.newDeviceStores policy account phone device keys).map fun _ => .ok (),
        (Store.perform (engine.holding rows) (.transact writes)).2)

/-- A removal of a device that empties its slots, those of legacy keys only if the policy is so. -/
structure Parted (dispensary : Dispensary) (policy : Policy) (account phone : Identity)
    (device : Device) (rows left : Rows) : Prop where
  lastResort : ∀ identity ∈ [account, phone],
    left.get? (dispensary.lastResortSlot identity device) = none
  legacy : ∀ identity ∈ [account, phone], left.get? (dispensary.legacySlot identity device) =
    if policy.deletesLegacy then none else rows.get? (dispensary.legacySlot identity device)
  others : ∀ key ∉ dispensary.deviceSlots true account phone device, left.get? key = rows.get? key

/-- With tables of their own, the legacy slots of a device are among its slots only if they count. -/
theorem legacySlot_mem_iff (apart : dispensary.tables.legacy ≠ dispensary.tables.lastResort)
    {legacyCounts : Bool} {identity : Identity} (one : identity ∈ [account, phone]) :
    dispensary.legacySlot identity device ∈ dispensary.deviceSlots legacyCounts account phone device ↔
      legacyCounts := by
  -- A slot in another table is another slot.
  have other (owner : Identity) :
      dispensary.legacySlot identity device ≠ dispensary.lastResortSlot owner device :=
    fun same => apart (congrArg RowKey.table same)
  simp only [List.mem_cons, List.not_mem_nil, or_false] at one
  rcases one with rfl | rfl <;> cases legacyCounts <;> simp [deviceSlots, other]

/-- The slots of a device are among them also when its legacy keys count. -/
theorem deviceSlots_subset (legacyCounts : Bool) :
    dispensary.deviceSlots legacyCounts account phone device ⊆
      dispensary.deviceSlots true account phone device := by
  cases legacyCounts with
  | true => exact List.Subset.refl _
  | false => exact List.append_subset.2 ⟨List.subset_append_left .., List.nil_subset _⟩

/-- The writes for a new device spare every key that is none of its slots. -/
theorem newDeviceWrites_spare {key : RowKey}
    (outside : key ∉ dispensary.deviceSlots true account phone device) :
    ∀ write ∈ dispensary.newDeviceWrites policy account phone device keys, write.Spares key := by
  -- Every write puts one of the slots.
  intro write member
  obtain ⟨table, item, rfl, slot⟩ := newDeviceWrites_puts member
  rintro rfl
  exact outside (deviceSlots_subset _ slot)

section
variable {extra writes : List Write}
  (merges : Merges extra (dispensary.newDeviceWrites policy account phone device keys) writes)
  (few : writes.length ≤ transactionLimit)
  (spares : ∀ write ∈ extra, ∀ slot ∈ dispensary.deviceSlots policy.storesLegacy account phone device,
    write.Spares slot)
include merges few spares

/-- The writes for a new device are carried out after the caller's, or none are carried out. -/
theorem newDevice_answer (engine : Engine) (rows : Rows) :
    engine.answer rows (.transact writes) =
      match engine.answer rows (.transact extra) with
      | (.error error, left) => (.error error, left)
      | (.ok (), left) => (.ok (), (dispensary.newDeviceWrites policy account phone device keys).foldl
        (Write.apply engine.clear) left) :=
  engine.answer_merged rows merges few fun write member => by
    obtain ⟨table, item, rfl, slot⟩ := newDeviceWrites_puts member
    exact ⟨table, item, rfl, fun other member' => spares other member' _ slot⟩

/-- A new device is added as the operations on single slots add it, or nothing changes. -/
theorem joined (engine : Engine) (rows : Rows) :
    Joined dispensary engine policy account phone device keys extra writes rows := by
  -- Whether the caller's checks hold decides about both transactions.
  have fewer : extra.length ≤ transactionLimit := by
    have size := merges.length_eq
    omega
  have added := newDevice_answer merges few spares engine rows
  have alone := engine.answer_transact rows fewer
  have met : (∀ write ∈ extra, write.Met (engine.holding rows)) ↔
      extra.findSome? (Write.unmet? rows) = none := by
    rw [List.findSome?_eq_none_iff]
    exact forall₂_congr fun write _ => Engine.met_holding_iff engine rows write
  constructor
  · -- A check of the caller does not hold, so neither transaction is carried out.
    rintro ⟨write, member, unmet⟩
    cases checks : extra.findSome? (Write.unmet? rows) with
    | none => exact absurd (met.2 checks write member) unmet
    | some reason =>
      simp only [checks] at alone
      rw [alone] at added
      refine ⟨reason, ?_, ?_⟩
      · rw [Engine.perform_holding, alone]
      · rw [Engine.perform_holding, added]
  · -- All of them hold, and what the device's writes leave is what its operations leave.
    intro all
    simp only [met.1 all] at alone
    rw [alone] at added
    rw [Engine.perform_holding, Engine.perform_holding, alone, added]
    exact ⟨rfl, rfl, runAll_newDeviceStores engine dispensary policy account phone device keys _⟩

/-- Emptying all slots of a device takes back that it was added, if they were empty at first. -/
theorem removed_of_added {left : Rows}
    (clear : ∀ write ∈ extra, ∀ slot ∈ dispensary.deviceSlots true account phone device,
      write.Spares slot)
    (empty : ∀ slot ∈ dispensary.deviceSlots true account phone device, rows.get? slot = none)
    (emptied : ∀ key, left.get? key =
      if key ∈ dispensary.deviceSlots true account phone device then none
      else (engine.answer rows (.transact writes)).2.get? key) :
    left = (engine.answer rows (.transact extra)).2 := by
  -- Key by key: a slot is emptied, and any other key is as the caller's items leave it.
  have added := newDevice_answer merges few spares engine rows
  apply Rows.ext_get?
  intro key
  rw [emptied]
  split
  · -- The caller's items leave a slot as it was.
    rename_i slot
    rw [Engine.get?_transact_of_spares fun write member => clear write member key slot, empty key slot]
  · rename_i outside
    rw [added]
    rcases engine.answer rows (.transact extra) with ⟨error | _, middle⟩
    · rfl
    · rw [Engine.get?_writes]
      exact Engine.edits_of_spares (newDeviceWrites_spare outside) _

end

/--
Adding a device within a transaction of the caller's, and removing it later.

The built writes may stand anywhere among the caller's items, which spare the slots that are written.
Either a check of the caller's fails and nothing changes, or all is done that the caller's items and the
single operations do. A removal under any later policy empties the slots and changes nothing else. It
takes back all that was added, and nothing more, if it empties all slots of the device, these were empty at
first, and the caller's items spare every one of them.
-/
theorem membership_exact (engine : Engine) (dispensary : Dispensary)
    (apart : dispensary.tables.legacy ≠ dispensary.tables.lastResort) (policy later : Policy)
    (account phone : Identity) (device : Device) (keys : NewDevice) (extra writes : List Write)
    (rows : Rows)
    (merges : Merges extra (dispensary.newDeviceWrites policy account phone device keys) writes)
    (few : writes.length ≤ transactionLimit)
    (spares : ∀ write ∈ extra, ∀ slot ∈ dispensary.deviceSlots policy.storesLegacy account phone device,
      write.Spares slot) :
    Joined dispensary engine policy account phone device keys extra writes rows ∧
    ∃ added left,
      (Store.perform (engine.holding rows) (.transact writes)).2 = engine.holding added ∧
      Store.perform (engine.holding added)
        (.transact (dispensary.removedDeviceWrites later account phone device)) =
          (.ok (), engine.holding left) ∧
      Parted dispensary later account phone device added left ∧
      (later.deletesLegacy →
        (∀ write ∈ extra, ∀ slot ∈ dispensary.deviceSlots true account phone device,
          write.Spares slot) →
        (∀ slot ∈ dispensary.deviceSlots true account phone device, rows.get? slot = none) →
        engine.holding left = (Store.perform (engine.holding rows) (.transact extra)).2) := by
  -- The removal is a transaction of its own, on whatever the first one has left.
  obtain ⟨left, removed, found⟩ := removedDevice_answer engine dispensary later account phone device
    (engine.answer rows (.transact writes)).2
  refine ⟨joined merges few spares engine rows, _, left, by rw [Engine.perform_holding],
    by rw [Engine.perform_holding, removed], ?_, fun deletes clear empty => ?_⟩
  · -- What is found under a slot after the removal is nothing, and under other keys what was there.
    exact {
      lastResort := fun identity one => by
        rw [found, if_pos]
        simp only [List.mem_cons, List.not_mem_nil, or_false] at one
        rcases one with rfl | rfl
        · exact List.mem_append_left _ (.head _)
        · exact List.mem_append_left _ (.tail _ (.head _))
      legacy := fun identity one => by
        rw [found]
        simp only [legacySlot_mem_iff apart one]
      others := fun key outside => by
        rw [found, if_neg fun inside => outside (deviceSlots_subset _ inside)] }
  · -- All four slots are emptied, which were empty to begin with.
    rw [deletes] at found
    rw [Engine.perform_holding, removed_of_added merges few spares clear empty found]

/-- A device with one identity is added beside a check and another item, and removed without trace. -/
theorem membership_traceless :
    let identity : Identity := ⟨List.replicate 16 0, rfl⟩
    let dispensary : Dispensary := ⟨{}⟩
    let keys : NewDevice := ⟨⟨1, [], []⟩, ⟨2, [], []⟩, ⟨3, [], []⟩, ⟨4, [], []⟩⟩
    let check : Write := .check "accounts" ⟨[7], [8]⟩ .absent
    let put : Write := .put "accounts" ⟨⟨[7], [8]⟩, [9]⟩
    let writes := check :: (dispensary.newDeviceWrites {} identity identity .primary keys ++ [put])
    (dispensary.tables.legacy ≠ dispensary.tables.lastResort ∧
      Merges [check, put] (dispensary.newDeviceWrites {} identity identity .primary keys) writes ∧
      writes.length ≤ transactionLimit ∧
      ∀ write ∈ [check, put], ∀ slot ∈ dispensary.deviceSlots true identity identity .primary,
        write.Spares slot) ∧
    Joined dispensary .memory {} identity identity .primary keys [check, put] writes Rows.empty ∧
    ∃ added left,
      (Store.perform (Engine.memory.holding Rows.empty) (.transact writes)).2 =
        Engine.memory.holding added ∧
      Parted dispensary {} identity identity .primary added left ∧
      Engine.memory.holding left =
        (Store.perform (Engine.memory.holding Rows.empty) (.transact [check, put])).2 := by
  intro identity dispensary keys check put writes
  have apart : dispensary.tables.legacy ≠ dispensary.tables.lastResort := by decide
  have merges : Merges [check, put]
      (dispensary.newDeviceWrites {} identity identity .primary keys) writes :=
    .left (.right (.right (.right (.right (.left .nil)))))
  have few : writes.length ≤ transactionLimit := by decide
  have spares : ∀ write ∈ [check, put],
      ∀ slot ∈ dispensary.deviceSlots true identity identity .primary, write.Spares slot := by
    intro write member slot inside
    simp only [List.mem_cons, List.not_mem_nil, or_false] at member
    rcases member with rfl | rfl
    · trivial
    · -- The slots are in other tables.
      rintro rfl
      revert inside
      decide
  obtain ⟨joined, added, left, holds, _, parted, traceless⟩ := membership_exact .memory dispensary apart
    {} {} identity identity .primary keys [check, put] writes Rows.empty merges few spares
  exact ⟨⟨apart, merges, few, spares⟩, joined, added, left, holds, parted,
    traceless rfl spares fun _ _ => rfl⟩

/--
Slots that the caller's items may still touch are emptied with the others: under a policy that stores no
legacy keys the caller puts one, and removing the device takes it away.
-/
theorem membership_leaves_less :
    let account : Identity := ⟨List.replicate 16 0, rfl⟩
    let phone : Identity := ⟨List.replicate 16 1, rfl⟩
    let dispensary : Dispensary := ⟨{}⟩
    let policy : Policy := ⟨false, true⟩
    let keys : NewDevice := ⟨⟨1, [], []⟩, ⟨2, [], []⟩, ⟨3, [], []⟩, ⟨4, [], []⟩⟩
    let slot := dispensary.legacySlot account .primary
    let put : Write := .put dispensary.tables.legacy ⟨slotKey account .primary, [9]⟩
    let writes := put :: dispensary.newDeviceWrites policy account phone .primary keys
    let added := (Store.perform (Engine.memory.holding Rows.empty) (.transact writes)).2
    let removed := Store.perform added
      (.transact (dispensary.removedDeviceWrites policy account phone .primary))
    let alone := (Store.perform (Engine.memory.holding Rows.empty) (.transact [put])).2
    (Merges [put] (dispensary.newDeviceWrites policy account phone .primary keys) writes ∧
      writes.length ≤ transactionLimit ∧
      (∀ slot ∈ dispensary.deviceSlots policy.storesLegacy account phone .primary, put.Spares slot) ∧
      (∀ slot ∈ dispensary.deviceSlots true account phone .primary, Rows.empty.get? slot = none) ∧
      policy.deletesLegacy) ∧
    removed.1 = .ok () ∧ (Engine.memory.rows removed.2).get? slot = none ∧
    (Engine.memory.rows alone).get? slot = some [9] ∧ removed.2 ≠ alone := by
  intro account phone dispensary policy keys slot put writes added removed alone
  have merges : Merges [put] (dispensary.newDeviceWrites policy account phone .primary keys) writes :=
    .left (.right (.right .nil))
  -- Only the slots of last-resort keys are written, and those are in another table.
  have spares : ∀ slot ∈ dispensary.deviceSlots policy.storesLegacy account phone .primary,
      put.Spares slot := by
    intro slot inside same
    subst same
    revert inside
    decide
  have gone : (Engine.memory.rows removed.2).get? slot = none := by decide +kernel
  have kept : (Engine.memory.rows alone).get? slot = some [9] := by decide +kernel
  refine ⟨⟨merges, by decide, spares, fun _ _ => rfl, rfl⟩, rfl, gone, kept, ?_⟩
  -- What the two leave differs in that slot.
  intro same
  rw [same, kept] at gone
  cases gone

end Dispensary

end KeyDispensary
