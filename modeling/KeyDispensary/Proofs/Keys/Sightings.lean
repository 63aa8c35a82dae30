import KeyDispensary.Proofs.Keys.Filled
import Mathlib.Data.List.Perm.Subperm

/-!
Pages of devices, each read from rows of its own. Main statement: `Slots.Reading.page`, by which pages
that go on from one another list every device once that is there throughout.
-/

namespace KeyDispensary

/-! ### Devices in ascending order -/

/-- The sort keys of devices are in the order of the bytes of the devices. -/
theorem Device.lead_lt_iff {a b : Device} : a.lead < b.lead ↔ a.id < b.id := by
  simp [Device.lead, List.cons_lt_cons_iff]

/-- There are no more devices than bytes. -/
theorem Device.length_le {devices : List Device}
    (ascending : devices.Pairwise fun a b => a.id < b.id) : devices.length ≤ 256 := by
  -- No device is listed twice, and all of them are among all devices.
  have distinct : devices.Nodup := by
    refine List.Pairwise.imp (fun {a b} less => ?_) ascending
    rintro rfl
    exact UInt8.lt_irrefl a.id less
  have inside : devices ⊆ Device.all := fun device _ => device.mem_all
  have few := (List.subperm_of_subset distinct inside).length_le
  simpa [Device.all] using few

/-- The last of devices in ascending order comes after all others. -/
theorem Device.before_last {devices : List Device}
    (ascending : devices.Pairwise fun a b => a.id < b.id) {final : Device}
    (last : devices.getLast? = some final) {device : Device} (member : device ∈ devices) :
    device = final ∨ device.id < final.id := by
  -- Either the device is the last one, or it stands before it.
  obtain ⟨others, rfl⟩ := List.getLast?_eq_some_iff.1 last
  rcases List.mem_append.1 member with before | same
  · exact .inr ((List.pairwise_append.1 ascending).2.2 device before final List.mem_cons_self)
  · exact .inl (List.mem_singleton.1 same)

/-- Sort keys of one byte each are those of devices. -/
theorem exists_leads {sorts : List Bytes} (single : ∀ sort ∈ sorts, sort.length = 1) :
    ∃ devices : List Device, sorts = devices.map Device.lead := by
  -- The byte of each sort key is the number of a device.
  induction sorts with
  | nil => exact ⟨[], rfl⟩
  | cons sort rest ih =>
    obtain ⟨devices, rfl⟩ := ih fun other member => single other (.tail _ member)
    obtain ⟨id, rfl⟩ := List.length_eq_one_iff.1 (single sort List.mem_cons_self)
    exact ⟨⟨id⟩ :: devices, rfl⟩

/-! ### Pages -/

/-- The rows that a page of devices was read from, and the devices that it shows. -/
structure Sighting where
  rows : Rows
  devices : List Device

/-- The devices of all pages, in the order in which they were read. -/
def sighted (sightings : List Sighting) : List Device :=
  sightings.flatMap Sighting.devices

/-- Another page adds its devices behind the others. -/
theorem sighted_append (sightings : List Sighting) (sighting : Sighting) :
    sighted (sightings ++ [sighting]) = sighted sightings ++ sighting.devices := by
  simp [sighted]

namespace Slots

variable {κ : Type}

/-- Whether the slot of a device is filled. -/
def Holds (slots : Slots κ) (identity : Identity) (device : Device) (rows : Rows) : Prop :=
  (rows.get? (RowKey.of slots.table (slotKey identity device))).isSome

/-- Whether the sort keys of all rows of an identity have one byte. -/
def Shaped (slots : Slots κ) (identity : Identity) (rows : Rows) : Prop :=
  ∀ row ∈ rows.toList, row.key.table = slots.table → row.key.partition = identity.partition →
    row.key.sort.length = 1

/-- What holds of the pages of a listing, also of one under way. -/
structure Sound (slots : Slots κ) (identity : Identity) (sightings : List Sighting) : Prop where
  ascending : (sighted sightings).Pairwise fun a b => a.id < b.id
  /-- A device that is listed was there when its page was read. -/
  held : ∀ sighting ∈ sightings, ∀ device ∈ sighting.devices,
    slots.Holds identity device sighting.rows

/-- What holds of the pages of a listing that goes on after a place. -/
structure Reading (slots : Slots κ) (identity : Identity) (sightings : List Sighting)
    (after : Option Bytes) : Prop extends slots.Sound identity sightings where
  /-- A device is past the place exactly if it comes after all that were listed. -/
  past : ∀ device : Device, Memory.isPast after device.lead ↔
    ∀ other ∈ sighted sightings, other.id < device.id
  /-- A device that was there at each page is listed, or the listing has yet to come to it. -/
  complete : ∀ device, (∀ sighting ∈ sightings, slots.Holds identity device sighting.rows) →
    device ∈ sighted sightings ∨ Memory.isPast after device.lead
  full : ∀ sighting ∈ sightings, sighting.devices.length = pageSize
  unfinished : sightings.length < 16

/-- What holds of the pages of a listing that has ended. -/
structure Enumerates (slots : Slots κ) (identity : Identity) (sightings : List Sighting) : Prop
    extends slots.Sound identity sightings where
  /-- A device that was there at each page is listed. -/
  complete : ∀ device, (∀ sighting ∈ sightings, slots.Holds identity device sighting.rows) →
    device ∈ sighted sightings
  few : sightings.length ≤ 16

variable {slots : Slots κ} {identity : Identity} {rows : Rows} {sightings : List Sighting}
  {after : Option Bytes}

/-- A query for devices finds the rows of the slots that are filled, after its place. -/
theorem mem_found_iff (engine : Engine) (device : Device) :
    device.lead ∈ (engine.found rows (slots.asked identity after)).map (fun row => row.key.sort) ↔
      slots.Holds identity device rows ∧ Memory.isPast after device.lead := by
  -- The row of a slot is known by its sort key, since table and partition are those of the query.
  rw [List.mem_map]
  constructor
  · rintro ⟨row, member, sort⟩
    obtain ⟨inRange, past⟩ := List.mem_filter.1 member
    obtain ⟨listed, covered⟩ := List.mem_filter.1 inRange
    obtain ⟨table, partition⟩ := Engine.covers_within covered
    -- Table, partition and sort key are those of the slot.
    have key : row.key = RowKey.of slots.table (slotKey identity device) := by
      obtain ⟨⟨table', partition', sort'⟩, value⟩ := row
      simp_all [RowKey.of, slotKey, asked]
    refine ⟨?_, sort ▸ past⟩
    rw [Holds, ← key, Rows.get?_of_mem listed]
    rfl
  · -- A filled slot has its row in the range of the identity.
    rintro ⟨holds, past⟩
    obtain ⟨value, found⟩ := Option.isSome_iff_exists.1 holds
    have inRange := List.mem_filter.2
      ⟨Rows.get?_eq_some_iff.1 found, (covers_slot_iff engine slots).2 rfl⟩
    exact ⟨_, List.mem_filter.2 ⟨inRange, past⟩, rfl⟩

/-- Whether devices are those that a query after a place finds among rows, in ascending order. -/
structure Finds (slots : Slots κ) (identity : Identity) (rows : Rows) (after : Option Bytes)
    (devices : List Device) : Prop where
  ascending : devices.Pairwise fun a b => a.id < b.id
  mem_iff : ∀ device, device ∈ devices ↔
    slots.Holds identity device rows ∧ Memory.isPast after device.lead

/-- Where all sort keys have one byte, a query finds devices. -/
theorem exists_finds (shaped : slots.Shaped identity rows) (engine : Engine)
    (after : Option Bytes) : ∃ devices, slots.Finds identity rows after devices ∧
      (engine.found rows (slots.asked identity after)).map (fun row => row.key.sort) =
        devices.map Device.lead := by
  -- What the query finds is in the range of the identity.
  have single : ∀ sort ∈ (engine.found rows (slots.asked identity after)).map
      (fun row => row.key.sort), sort.length = 1 := by
    intro sort member
    obtain ⟨row, found, rfl⟩ := List.mem_map.1 member
    obtain ⟨listed, covered⟩ := List.mem_filter.1 (List.mem_filter.1 found).1
    obtain ⟨table, partition⟩ := Engine.covers_within covered
    exact shaped row listed table partition
  obtain ⟨devices, sorts⟩ := exists_leads single
  refine ⟨devices, ⟨?_, fun device => ?_⟩, sorts⟩
  · -- The order of the rows is that of the devices.
    have ordered := List.pairwise_map.2 (engine.found_ascending rows (slots.asked identity after))
    rw [sorts] at ordered
    exact (List.pairwise_map.1 ordered).imp Device.lead_lt_iff.1
  · rw [← mem_found_iff engine, sorts, List.mem_map]
    constructor
    · exact fun member => ⟨device, member, rfl⟩
    · rintro ⟨other, member, same⟩
      exact Device.eq_of_lead same ▸ member

/-! ### One page after another -/

/-- Devices that a query finds after a place come after all that were listed. -/
theorem Reading.ascending_append (reading : slots.Reading identity sightings after)
    {devices : List Device} (finds : slots.Finds identity rows after devices) :
    (sighted sightings ++ devices).Pairwise fun a b => a.id < b.id := by
  -- What the query finds is past the place, which is behind all that was listed.
  refine List.pairwise_append.2
    ⟨reading.ascending, finds.ascending, fun earlier listed later found => ?_⟩
  exact (reading.past later).1 ((finds.mem_iff later).1 found).2 earlier listed

/-- A page of what a query finds keeps a listing sound. -/
theorem Reading.sound (reading : slots.Reading identity sightings after) {devices : List Device}
    (finds : slots.Finds identity rows after devices) (limit : Nat) :
    slots.Sound identity (sightings ++ [⟨rows, devices.take limit⟩]) where
  ascending := by
    rw [sighted_append]
    exact (reading.ascending_append finds).sublist
      (List.Sublist.append_left (List.take_sublist ..) _)
  held sighting member device shown := by
    rcases List.mem_append.1 member with before | last
    · -- A device of an earlier page was held then.
      exact reading.held sighting before device shown
    · obtain rfl := List.mem_singleton.1 last
      exact ((finds.mem_iff device).1 (List.mem_of_mem_take shown)).1

/-- A device that was there at each page, the next included, is listed or found now. -/
theorem Reading.listed_or_found (reading : slots.Reading identity sightings after)
    {devices shown : List Device} (finds : slots.Finds identity rows after devices)
    {device : Device}
    (there : ∀ sighting ∈ sightings ++ [⟨rows, shown⟩], slots.Holds identity device sighting.rows) :
    device ∈ sighted sightings ∨ device ∈ devices := by
  -- Up to now it was listed or not come to, and in the latter case the query finds it.
  rcases reading.complete device fun sighting member =>
    there sighting (List.mem_append_left _ member) with listed | past
  · exact .inl listed
  · have holds := there ⟨rows, shown⟩ (List.mem_append_right _ List.mem_cons_self)
    exact .inr ((finds.mem_iff device).2 ⟨holds, past⟩)

/-- A listing that has made full pages only has listed that many devices. -/
theorem length_sighted (full : ∀ sighting ∈ sightings, sighting.devices.length = pageSize) :
    (sighted sightings).length = pageSize * sightings.length := by
  -- Each page adds as many devices as it can show.
  induction sightings with
  | nil => rfl
  | cons sighting rest ih =>
    have first := full sighting List.mem_cons_self
    have others := ih fun other member => full other (.tail _ member)
    simp only [sighted] at others ⊢
    rw [List.flatMap_cons, List.length_append, first, others, List.length_cons, Nat.mul_succ,
      Nat.add_comm]

/-- A listing that has not begun has read no page. -/
theorem reading_nil (slots : Slots κ) (identity : Identity) : slots.Reading identity [] none where
  ascending := .nil
  held _ member := absurd member List.not_mem_nil
  past _ := ⟨fun _ _ member => absurd member List.not_mem_nil, fun _ => rfl⟩
  complete _ _ := .inr rfl
  full _ member := absurd member List.not_mem_nil
  unfinished := by decide

/-- A listing ends with a page that shows all that its query finds. -/
theorem Reading.finish (reading : slots.Reading identity sightings after) {devices : List Device}
    (finds : slots.Finds identity rows after devices) (few : devices.length ≤ pageSize) :
    slots.Enumerates identity (sightings ++ [⟨rows, devices.take pageSize⟩]) where
  toSound := reading.sound finds pageSize
  complete device there := by
    rw [sighted_append, List.take_of_length_le few]
    exact List.mem_append.2 (reading.listed_or_found finds there)
  few := by
    have before := reading.unfinished
    rw [List.length_append, List.length_singleton]
    omega

/-- A listing goes on after the last device of a page that leaves something out. -/
theorem Reading.next (reading : slots.Reading identity sightings after) {devices : List Device}
    (finds : slots.Finds identity rows after devices) (more : pageSize < devices.length)
    {final : Device} (last : (devices.take pageSize).getLast? = some final) :
    slots.Reading identity (sightings ++ [⟨rows, devices.take pageSize⟩]) (some final.lead) where
  toSound := reading.sound finds pageSize
  past device := by
    -- The last device of the page is the last of all that were listed.
    have behind := (reading.sound finds pageSize).ascending
    rw [sighted_append] at behind ⊢
    have ending : (sighted sightings ++ devices.take pageSize).getLast? = some final := by
      rw [List.getLast?_append, last, Option.some_or]
    have here : final ∈ sighted sightings ++ devices.take pageSize := List.mem_of_getLast? ending
    simp only [Memory.isPast, decide_eq_true_eq, Device.lead_lt_iff]
    constructor
    · -- What comes after the last device comes after all of them.
      intro later other listed
      rcases Device.before_last behind ending listed with rfl | less
      · exact later
      · exact UInt8.lt_trans less later
    · exact fun all => all final here
  complete device there := by
    -- What the page leaves out comes after its last device.
    rw [sighted_append]
    rcases reading.listed_or_found finds there with listed | found
    · exact .inl (List.mem_append_left _ listed)
    · have cut := finds.ascending
      rw [← List.take_append_drop pageSize devices] at cut found
      rcases List.mem_append.1 found with shown | out
      · exact .inl (List.mem_append_right _ shown)
      · have later := (List.pairwise_append.1 cut).2.2 final (List.mem_of_getLast? last) device out
        exact .inr (decide_eq_true (Device.lead_lt_iff.2 later))
  full sighting member := by
    rcases List.mem_append.1 member with before | this
    · exact reading.full sighting before
    · obtain rfl := List.mem_singleton.1 this
      exact List.length_take_of_le (Nat.le_of_lt more)
  unfinished := by
    -- The devices listed and found are no more than there are bytes.
    have most := Device.length_le (reading.ascending_append finds)
    rw [List.length_append, length_sighted reading.full] at most
    rw [List.length_append, List.length_singleton]
    simp only [pageSize] at most more
    omega

/-- How a listing goes on when it has read the page after its place. -/
inductive Continues (slots : Slots κ) (identity : Identity) (sightings : List Sighting) :
    Progress ListingPlace Listing → Prop where
  /-- The page was the last one. -/
  | ends (enumerates : slots.Enumerates identity sightings) :
    Continues slots identity sightings (.finished ⟨sighted sightings, .exhausted⟩)
  /-- Another page follows. -/
  | goesOn {after : Option Bytes} (reading : slots.Reading identity sightings after) :
    Continues slots identity sightings (.more ⟨sighted sightings, after⟩)

/-- The page after the place of a listing shows devices, by which the listing ends or goes on. -/
theorem Reading.page (reading : slots.Reading identity sightings after)
    (shaped : slots.Shaped identity rows) (engine : Engine) : ∃ shown,
      devicesOf slots.table (slots.pageAfter engine identity rows after).items = .ok shown ∧
      slots.Continues identity (sightings ++ [⟨rows, shown⟩])
        (slots.afterPage none (sighted sightings) (slots.pageAfter engine identity rows after)) := by
  -- A page with a last key leaves devices out, and a page without one shows all that were found.
  obtain ⟨devices, finds, sorts⟩ := exists_finds shaped engine after
  have shown : devicesOf slots.table (slots.pageAfter engine identity rows after).items =
      .ok (devices.take pageSize) := devicesOf_pageAfter sorts
  refine ⟨devices.take pageSize, shown, ?_⟩
  have listed := sighted_append sightings ⟨rows, devices.take pageSize⟩
  have more : isEnough none (sighted sightings ++ devices.take pageSize) = false := rfl
  simp only [afterPage, shown, more, Bool.false_eq_true, if_false]
  cases last : (slots.pageAfter engine identity rows after).last with
  | none =>
    have ends := Continues.ends (reading.finish finds (pageAfter_complete sorts last))
    rwa [listed] at ends
  | some place =>
    -- The page has a last key, so there is more, and the listing goes on.
    obtain ⟨many, final, here, rfl⟩ := pageAfter_partial sorts last
    have goesOn := Continues.goesOn (reading.next finds many here)
    rwa [listed] at goesOn

end Slots

end KeyDispensary
