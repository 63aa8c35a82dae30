import KeyDispensary.Proofs.Keys.Listings
import KeyDispensary.Proofs.Keys.Shelves

/-!
The slots of a table as maps from devices to keys. Each operation on a slot changes the map at its device
and answers from it. Main statement: `Slots.Keeps.devices`, by which the pages of a listing add up.
-/

namespace KeyDispensary

/-- All devices in ascending order. -/
def Device.all : List Device :=
  (List.range 256).map fun id => ⟨UInt8.ofNat id⟩

/-- Every device is one of them. -/
theorem Device.mem_all (device : Device) : device ∈ Device.all := by
  -- The number of a device is a byte.
  refine List.mem_map.2 ⟨device.id.toNat, List.mem_range.2 device.id.toNat_lt, ?_⟩
  rw [UInt8.ofNat_toNat]

/-- The sort keys of devices are in the order of the devices. -/
theorem Device.all_ascending : Device.all.Pairwise fun a b => a.lead < b.lead := by
  -- The devices are counted up to the largest byte, and a byte keeps the order of the numbers it can hold.
  refine List.pairwise_map.2 (List.pairwise_lt_range.imp_of_mem fun {a b} left right less => ?_)
  have small := List.mem_range.1 left
  have small' := List.mem_range.1 right
  have bytes : UInt8.ofNat a < UInt8.ofNat b := by
    rw [UInt8.lt_iff_toNat_lt, UInt8.toNat_ofNat', UInt8.toNat_ofNat']
    omega
  exact List.cons_lt_cons_iff.2 (.inl bytes)

/-- Different devices have different sort keys. -/
theorem Device.eq_of_lead {a b : Device} (same : a.lead = b.lead) : a = b := by
  cases a
  cases b
  exact congrArg Device.mk (List.cons.inj same).1

/-- Devices are known from their sort keys. -/
theorem Device.eq_of_leads {left right : List Device}
    (same : left.map Device.lead = right.map Device.lead) : left = right :=
  (List.map_inj_right fun _ _ => Device.eq_of_lead).1 same

/-- The devices of sort keys that consist of a device each. -/
theorem devicesOf_eq (table : String) {items : List Item} {devices : List Device}
    (sorts : items.map (fun item => item.key.sort) = devices.map Device.lead) :
    devicesOf table items = .ok devices := by
  -- Item by item, the sort key is that of the next device.
  induction items generalizing devices with
  | nil =>
    obtain rfl := List.map_eq_nil_iff.1 sorts.symm
    rfl
  | cons item rest ih =>
    cases devices with
    | nil => cases sorts
    | cons device others =>
      obtain ⟨sort, sorts⟩ := List.cons.inj sorts
      have first : deviceOf table item.key.sort = .ok device := congrArg (deviceOf table) sort
      rw [devicesOf, first, ih sorts]
      rfl

variable {κ : Type}

/-- Different devices have different slots. -/
theorem slotKey_injective {table : String} {identity identity' : Identity} {device device' : Device}
    (same : RowKey.of table (slotKey identity device) = RowKey.of table (slotKey identity' device')) :
    identity = identity' ∧ device = device' := by
  -- The partition tells the identity, and the sort key the device.
  obtain ⟨partitions, sorts⟩ : identity.partition = identity'.partition ∧
      device.lead = device'.lead := by simpa [RowKey.of, slotKey] using same
  exact ⟨Identity.eq_of_partition partitions, Device.eq_of_lead sorts⟩

namespace Slots

variable [Record κ]

/-- Whether rows keep the keys of devices in the slots of a table, where nothing else is. -/
structure Keeps (slots : Slots κ) (rows : Rows) (filled : Identity → Device → Option κ) : Prop where
  found : ∀ identity device, rows.get? (RowKey.of slots.table (slotKey identity device)) =
    (filled identity device).map Record.encode
  shaped : ∀ row ∈ rows.toList, row.key.table = slots.table →
    ∃ identity device, row.key = RowKey.of slots.table (slotKey identity device)

variable {slots : Slots κ} {rows left : Rows} {filled : Identity → Device → Option κ}

section
omit [Record κ]

/-- The range of an identity covers its own slots and those of no other identity. -/
theorem covers_slot_iff (engine : Engine) (slots : Slots κ) {identity other : Identity}
    {device : Device} {value : Bytes} :
    engine.covers slots.table identity.partition []
      ⟨RowKey.of slots.table (slotKey other device), value⟩ ↔ other = identity := by
  -- Slots have sort keys, so both engines cover the partition of the identity.
  rw [Engine.covers_partition engine (by simp [RowKey.of, slotKey, Device.lead]), Row.within,
    Bool.and_eq_true, decide_eq_true_iff, decide_eq_true_iff]
  exact ⟨fun within => Identity.eq_of_partition within.2,
    fun same => ⟨rfl, congrArg Identity.partition same⟩⟩

section
variable {engine : Engine} {identity : Identity} {after : Option Bytes} {devices : List Device}
  (sorts : (engine.found rows (slots.asked identity after)).map (fun row => row.key.sort) =
    devices.map Device.lead)
include sorts

/-- A page shows the first of the devices that are found. -/
theorem devicesOf_pageAfter :
    devicesOf slots.table (slots.pageAfter engine identity rows after).items =
      .ok (devices.take pageSize) := by
  -- The page shows the first sort keys, which are those of the first devices.
  refine devicesOf_eq slots.table ?_
  rw [pageAfter, Engine.page_items, List.map_take, List.map_take, List.map_map, ← sorts]
  rfl

/-- A page without a last key shows all devices that are found. -/
theorem pageAfter_complete (ends : (slots.pageAfter engine identity rows after).last = none) :
    devices.length ≤ pageSize := by
  -- Without a last key nothing is left after the page.
  have size := congrArg List.length sorts
  have rest := congrArg List.length (Engine.page_complete (by decide) ends)
  simp only [List.length_map, List.length_drop, List.length_nil] at size rest
  omega

/-- The last key of a page is that of the last device it shows, and more devices are found. -/
theorem pageAfter_partial {last : Bytes}
    (goesOn : (slots.pageAfter engine identity rows after).last = some last) :
    pageSize < devices.length ∧
      ∃ final, (devices.take pageSize).getLast? = some final ∧ final.lead = last := by
  constructor
  · -- There are as many sort keys as devices, and more than the page shows.
    have size := congrArg List.length sorts
    have few := Engine.page_partial goesOn
    simp only [List.length_map] at size few
    omega
  · obtain ⟨item, final, rfl⟩ := Engine.page_last goesOn
    -- The keys of the items shown are those of the devices shown.
    have keys := congrArg (fun keys => (keys.take pageSize).getLast?) sorts
    simp only [← List.map_take, List.getLast?_map] at keys final
    obtain ⟨row, here, rfl⟩ := Option.map_eq_some_iff.1 final
    rw [here] at keys
    exact Option.map_eq_some_iff.1 keys.symm

end

end

namespace Keeps

/-- No rows keep no keys. -/
theorem empty (slots : Slots κ) : slots.Keeps Rows.empty fun _ _ => none where
  found _ _ := rfl
  shaped _ member := absurd member List.not_mem_nil

/-- What another table holds does not matter. -/
theorem beside {table : String} (keeps : slots.Keeps rows filled)
    (same : Rows.SameBeside table rows left) (apart : slots.table ≠ table) :
    slots.Keeps left filled where
  found identity device := (same _ apart).trans (keeps.found identity device)
  shaped row member within := keeps.shaped row ((same.mem_iff (within ▸ apart)).1 member) within

/-- A key that is put into a slot is the key of its device. -/
theorem put (keeps : slots.Keeps rows filled) (identity : Identity) (device : Device) (key : κ) :
    slots.Keeps (rows.insert (Row.of slots.table (item identity device key)))
      (amend filled identity device (some key)) where
  found other place := by
    have stored : (Row.of slots.table (item identity device key)).key =
        RowKey.of slots.table (slotKey identity device) := rfl
    -- Another device has its key in another row.
    rw [Rows.get?_insert, stored, keeps.found, amend]
    by_cases same : other = identity ∧ place = device
    · obtain ⟨rfl, rfl⟩ := same
      rw [if_pos rfl, if_pos ⟨rfl, rfl⟩]
      rfl
    · rw [if_neg fun here => same (slotKey_injective here), if_neg same]
  shaped row member within := by
    rcases (mem_placeRow_iff rows.ascending).1 member with rfl | ⟨before, _⟩
    · -- The new row is shaped as a slot, and the others were there.
      exact ⟨identity, device, rfl⟩
    · exact keeps.shaped row before within

/-- A slot that is emptied leaves its device without a key. -/
theorem erased (keeps : slots.Keeps rows filled) (identity : Identity) (device : Device) :
    slots.Keeps (rows.erase (RowKey.of slots.table (slotKey identity device)))
      (amend filled identity device none) where
  found other place := by
    rw [Rows.get?_erase, keeps.found, amend]
    -- Only the slot of the device loses its row.
    by_cases same : other = identity ∧ place = device
    · obtain ⟨rfl, rfl⟩ := same
      rw [if_pos rfl, if_pos ⟨rfl, rfl⟩]
      rfl
    · rw [if_neg fun here => same (slotKey_injective here), if_neg same]
  shaped row member within := keeps.shaped row (List.mem_filter.1 member).1 within

/-- Storing a key makes it the key of the device. -/
theorem store (keeps : slots.Keeps rows filled) (engine : Engine) (identity : Identity)
    (device : Device) (key : κ) : ∃ left,
      (slots.store identity device key).run (engine.holding rows) = (.ok (), engine.holding left) ∧
      slots.Keeps left (amend filled identity device (some key)) ∧
      Rows.SameBeside slots.table rows left := by
  -- The call puts the row of the slot.
  refine ⟨_, ?_, keeps.put identity device key,
    Rows.SameBeside.insert rows (Row.of slots.table (item identity device key))⟩
  rw [Slots.store, Program.run, Engine.perform_holding]
  rfl

/-- Finding a key answers the key of the device. -/
theorem find [LawfulRecord κ] (keeps : slots.Keeps rows filled) (engine : Engine)
    (identity : Identity) (device : Device) :
    (slots.find identity device).run (engine.holding rows) =
      (.ok (filled identity device), engine.holding rows) := by
  -- The row of the slot holds what was encoded, which is decoded again.
  rw [Slots.find, Program.run, Engine.perform_holding]
  simp only [Engine.answer, keeps.found]
  cases filled identity device with
  | none => rfl
  | some key =>
    simp only [Option.map_some, recordOf_encode]
    rfl

/-- Deleting the slots of an identity leaves all its devices without a key. -/
theorem delete (keeps : slots.Keeps rows filled) (engine : Engine) (identity : Identity) : ∃ left,
      (slots.delete identity).run (engine.holding rows) = (.ok (), engine.holding left) ∧
      slots.Keeps left (amendAll filled identity none) ∧
      Rows.SameBeside slots.table rows left := by
  refine ⟨engine.clear rows slots.table identity.partition [], ?_, ⟨?_, ?_⟩,
    engine.sameBeside_clear _ _ _ _⟩
  · rw [Slots.delete, Program.run, Engine.perform_holding, Engine.run_deleteRange]
    rfl
  · intro other device
    -- The range that is deleted is that of the identity.
    rw [Engine.get?_clear, keeps.found, amendAll]
    by_cases same : other = identity
    · rw [if_pos ((covers_slot_iff engine slots).2 same), if_pos same]
      rfl
    · rw [if_neg (mt (covers_slot_iff engine slots).1 same), if_neg same]
  · exact fun row member => keeps.shaped row (Engine.mem_clear.1 member).1

/-- The range of an identity holds a row for each device with a key, in the order of the devices. -/
theorem range_sorts (keeps : slots.Keeps rows filled) (engine : Engine) (identity : Identity) :
    (engine.range rows slots.table identity.partition []).map (fun row => row.key.sort) =
      (Device.all.filter fun device => (filled identity device).isSome).map Device.lead := by
  have left : ((engine.range rows slots.table identity.partition []).map
      fun row => row.key.sort).Pairwise (· < ·) :=
    List.pairwise_map.2 (engine.range_ascending rows slots.table identity.partition [])
  have right : ((Device.all.filter fun device => (filled identity device).isSome).map
      Device.lead).Pairwise (· < ·) := List.pairwise_map.2 (Device.all_ascending.filter _)
  have nodup {sorts : List Bytes} (ascending : sorts.Pairwise (· < ·)) : sorts.Nodup :=
    ascending.imp fun {a b} less => fun same => List.lt_irrefl b (same ▸ less)
  -- Both lists ascend, so it is enough that they have the same sort keys.
  refine List.Perm.eq_of_pairwise (fun _ _ _ _ less more => absurd more (List.lt_asymm less))
    left right ((List.perm_ext_iff_of_nodup (nodup left) (nodup right)).2 fun sort => ?_)
  rw [List.mem_map, List.mem_map]
  constructor
  · -- A row of the range is the slot of a device, which has the key that the row holds.
    rintro ⟨row, member, rfl⟩
    obtain ⟨listed, covered⟩ := List.mem_filter.1 member
    obtain ⟨tables, partitions⟩ := Engine.covers_within covered
    obtain ⟨other, device, key⟩ := keeps.shaped row listed tables
    obtain rfl : other = identity :=
      Identity.eq_of_partition ((congrArg RowKey.partition key).symm.trans partitions)
    have found := keeps.found other device
    rw [← key, Rows.get?_of_mem listed] at found
    refine ⟨device, List.mem_filter.2 ⟨device.mem_all, ?_⟩, (congrArg RowKey.sort key).symm⟩
    simpa using congrArg Option.isSome found.symm
  · -- A device with a key has its row, and the range covers it.
    rintro ⟨device, member, rfl⟩
    obtain ⟨key, holds⟩ := Option.isSome_iff_exists.1 (List.mem_filter.1 member).2
    have found := keeps.found identity device
    rw [holds] at found
    exact ⟨_, List.mem_filter.2 ⟨Rows.get?_eq_some_iff.1 found, (covers_slot_iff engine slots).2 rfl⟩,
      rfl⟩

/-- A listing of all devices answers those with a key, in their order. -/
theorem devices (keeps : slots.Keeps rows filled) (engine : Engine) (identity : Identity) :
    (slots.devices identity).run (engine.holding rows) =
      (some (.ok (Device.all.filter fun device => (filled identity device).isSome)),
        engine.holding rows) := by
  obtain ⟨listing, ran, lists⟩ := devices_run engine slots identity rows
  have sorts : slots.sortsOf engine identity rows = _ := keeps.range_sorts engine identity
  rw [sorts] at lists
  -- The listing goes to the end, as it wants all devices and no sort key is foreign.
  rw [ran]
  cases lists with
  | enough wants => cases wants
  | exhausted leads =>
    obtain rfl := Device.eq_of_leads leads
    rfl
  | failed spoils =>
    -- Every sort key is that of a device.
    have late := spoils.not_before List.take_length.symm
    exact absurd (List.getElem?_eq_none late ▸ spoils.here) nofun

end Keeps

end Slots

end KeyDispensary
