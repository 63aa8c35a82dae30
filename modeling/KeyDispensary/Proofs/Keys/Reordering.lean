import KeyDispensary.Proofs.Keys.Enumeration
import KeyDispensary.Proofs.Keys.Filled
import KeyDispensary.Proofs.Keys.Membership

/-!
The order of the writes in a transaction. Writes that have no key in common may come in any order, and so
may those of changes to different devices among other writes. Main statement:
`Dispensary.transact_in_any_order`.
-/

namespace KeyDispensary

/-! ### Writes in any order -/

/-- The key that a write of a single item is about. -/
def Write.named? : Write → Option RowKey
  | .put table item => some (RowKey.of table item.key)
  | .delete table erased => some (RowKey.of table erased)
  | .deleteRange _ _ _ | .check _ _ _ => none

/-- Whether two writes have no key in common; checks have none with anything. -/
def Write.Apart (first second : Write) : Prop :=
  ∀ key, first.Spares key ∨ second.Spares key

/-- How two transactions end that make the same of the same rows. -/
inductive Engine.Alike (engine : Engine) (rows : Rows) (writes writes' : List Write) : Prop where
  /-- Both are carried out and leave the same. -/
  | carriedOut {left : Rows}
    (first : Store.perform (engine.holding rows) (.transact writes) = (.ok (), engine.holding left))
    (second : Store.perform (engine.holding rows) (.transact writes') = (.ok (), engine.holding left))
  /-- Both meet a check that does not hold, not always the same one, and change nothing. -/
  | failed {reason reason' : Conflict}
    (first : Store.perform (engine.holding rows) (.transact writes) =
      (.error (.conflict reason), engine.holding rows))
    (second : Store.perform (engine.holding rows) (.transact writes') =
      (.error (.conflict reason'), engine.holding rows))

namespace Write

/-- A check is apart from everything, also from writes of the key that it looks at. -/
theorem apart_check (table : String) (key : Key) (condition : Condition) (other : Write) :
    (check table key condition).Apart other :=
  fun _ => .inl trivial

/-- Being apart does not depend on which write comes first. -/
instance : Std.Symm Apart :=
  ⟨fun _ _ apart key => (apart key).symm⟩

instance (key : RowKey) : (write : Write) → Decidable (write.Spares key)
  | .put _ _ | .delete _ _ | .deleteRange _ _ _ => inferInstanceAs (Decidable (¬ _))
  | .check _ _ _ => inferInstanceAs (Decidable True)

/-- A write of a single item spares the keys of all others. -/
theorem spares_of_named {write : Write} {key other : RowKey} (named : write.named? = some key)
    (differs : key ≠ other) : write.Spares other := by
  -- A write of one item edits what is under its key only.
  cases write with
  | put | delete =>
    obtain rfl := Option.some.inj named
    exact differs
  | deleteRange | check => cases named

/-- A write of a single item is apart from those that spare its key. -/
theorem apart_of_named {first second : Write} {key : RowKey} (named : first.named? = some key)
    (spares : second.Spares key) : first.Apart second := by
  -- Under the key of the first write the second spares it, and the first spares all others.
  intro other
  by_cases same : key = other
  · subst same
    exact .inr spares
  · exact .inl (spares_of_named named same)

/-- Writes of single items are apart from each other if no key comes twice. -/
theorem pairwise_apart {writes : List Write} {keys : List RowKey}
    (named : writes.map named? = keys.map some) (once : keys.Nodup) : writes.Pairwise Apart := by
  -- The keys are compared in the order of the writes.
  induction writes generalizing keys with
  | nil => exact .nil
  | cons write rest ih =>
    obtain ⟨key, others, rfl, first, later⟩ := List.map_eq_cons_iff.1 named.symm
    obtain ⟨fresh, once⟩ := List.nodup_cons.1 once
    refine .cons (fun other member => ?_) (ih later.symm once)
    obtain ⟨key', listed, same⟩ := List.mem_map.1 (later ▸ List.mem_map_of_mem member)
    refine apart_of_named first.symm (spares_of_named same.symm ?_)
    -- Two writes about one key would have it twice in the list.
    rintro rfl
    exact fresh listed

end Write

namespace Engine

variable {engine : Engine} {rows : Rows} {writes writes' : List Write}

/-- Writes that are apart may change places. -/
theorem edit_comm {first second : Write} (apart : first.Apart second)
    (values : RowKey → Option Bytes) :
    second.edit engine (first.edit engine values) = first.edit engine (second.edit engine values) := by
  -- Under each key one of the two changes nothing, neither before the other nor after it.
  funext key
  rcases apart key with spares | spares
  · rw [edit_of_spares spares, edit_congr second (edit_of_spares spares values)]
  · rw [edit_of_spares spares, edit_congr first (edit_of_spares spares values)]

/-- Writes that are apart from each other come to the same in any order. -/
theorem edits_of_perm (engine : Engine) (apart : writes.Pairwise Write.Apart)
    (reordered : writes.Perm writes') (values : RowKey → Option Bytes) :
    writes.foldl (Write.edit engine) values = writes'.foldl (Write.edit engine) values := by
  refine reordered.foldl_eq' (fun first member second member' values => ?_) values
  -- A write also changes places with itself, so it does with every write of the list.
  by_cases same : first = second
  · rw [same]
  · exact edit_comm (apart.forall member member' same) values

/-- Transactions of the same writes that come to the same under every key end alike. -/
theorem Alike.of_edits (few : writes.length ≤ transactionLimit) (reordered : writes.Perm writes')
    (same : writes.foldl (Write.edit engine) rows.get? = writes'.foldl (Write.edit engine) rows.get?) :
    engine.Alike rows writes writes' := by
  have few' : writes'.length ≤ transactionLimit := reordered.length_eq ▸ few
  have answer := engine.answer_transact rows few
  have answer' := engine.answer_transact rows few'
  -- Where the checks stand does not matter, for they all see the rows as they were.
  have checks : writes.findSome? (Write.unmet? rows) = none ↔
      writes'.findSome? (Write.unmet? rows) = none := by
    rw [List.findSome?_eq_none_iff, List.findSome?_eq_none_iff]
    exact forall_congr' fun write => imp_congr_left reordered.mem_iff
  cases first : writes.findSome? (Write.unmet? rows) with
  | none =>
    rw [checks.1 first] at answer'
    rw [first] at answer
    -- Both lists are carried out, and what they leave has the same values under all keys.
    have left : writes.foldl (Write.apply engine.clear) rows =
        writes'.foldl (Write.apply engine.clear) rows := by
      refine Rows.ext_get? fun key => ?_
      rw [get?_writes, get?_writes, same]
    exact .carriedOut (by rw [perform_holding, answer]) (by rw [perform_holding, answer', left])
  | some reason =>
    cases second : writes'.findSome? (Write.unmet? rows) with
    | none => cases first.symm.trans (checks.2 second)
    | some reason' =>
      rw [first] at answer
      rw [second] at answer'
      exact .failed (by rw [perform_holding, answer]) (by rw [perform_holding, answer'])

/-- Transactions of writes that are apart from each other end alike whatever their order. -/
theorem Alike.of_perm (engine : Engine) (rows : Rows) (few : writes.length ≤ transactionLimit)
    (apart : writes.Pairwise Write.Apart) (reordered : writes.Perm writes') :
    engine.Alike rows writes writes' :=
  .of_edits few reordered (edits_of_perm engine apart reordered rows.get?)

end Engine

/-- A merged list has the elements of both lists in another order. -/
theorem Merges.perm {α : Type} {first second merged : List α} (merges : Merges first second merged) :
    merged.Perm (first ++ second) := by
  -- An element of the second list has to move behind what is left of the first.
  induction merges with
  | nil => exact .nil
  | left rest ih => exact ih.cons _
  | right rest ih => exact (ih.cons _).trans List.perm_middle.symm

/--
Transactions end alike into which the same writes are merged in any order, if these are apart from each
other and from all others, whose order is kept.
-/
theorem Engine.Alike.of_merges (engine : Engine) (rows : Rows)
    {extra own own' writes writes' : List Write} (few : writes.length ≤ transactionLimit)
    (apart : own.Pairwise Write.Apart) (beside : ∀ write ∈ own, ∀ other ∈ extra, write.Apart other)
    (reordered : own.Perm own') (merges : Merges extra own writes)
    (merges' : Merges extra own' writes') : engine.Alike rows writes writes' := by
  -- Both lists are made of the same writes.
  have reordered' : writes.Perm writes' :=
    merges.perm.trans ((reordered.append_left extra).trans merges'.perm.symm)
  refine .of_edits few reordered' ?_
  -- Either transaction comes to what its own writes make of what the others leave.
  rw [merges.foldl_eq (Write.edit engine) fun write member other member' state =>
      edit_comm (beside write member other member') state,
    merges'.foldl_eq (Write.edit engine) fun write member other member' state =>
      edit_comm (beside write (reordered.mem_iff.2 member) other member') state,
    edits_of_perm engine apart reordered]

/-! ### Changes in any order -/

namespace DeviceChange

variable (dispensary : Dispensary)

/-- The device that a change is about. -/
def device : DeviceChange → Device
  | .added _ _ _ device _ | .removed _ _ _ device => device

/-- The identities of the account that a device is added to or removed from. -/
def identities : DeviceChange → List Identity
  | .added _ account phone _ _ | .removed _ account phone _ => [account, phone]

/-- The slots that a change writes, in the order of its writes. -/
def slots : DeviceChange → List RowKey
  | .added policy account phone device _ =>
    dispensary.deviceSlots policy.storesLegacy account phone device
  | .removed policy account phone device =>
    dispensary.deviceSlots policy.deletesLegacy account phone device

/-- Each write of a change is about one of its slots. -/
theorem named_writes (change : DeviceChange) :
    (change.writes dispensary).map Write.named? = (change.slots dispensary).map some := by
  -- The policy decides about legacy keys in the writes and in the slots.
  cases change with
  | added policy account phone device keys =>
    rw [writes, slots, Dispensary.newDeviceWrites, Dispensary.deviceSlots]
    split <;> rfl
  | removed policy account phone device =>
    rw [writes, slots, Dispensary.removedDeviceWrites, Dispensary.deviceSlots]
    split <;> rfl

/-- The slots of a change are those of its device under its identities. -/
theorem of_mem_slots {dispensary : Dispensary} {change : DeviceChange} {slot : RowKey}
    (member : slot ∈ change.slots dispensary) : ∃ table, ∃ identity ∈ change.identities,
      slot = RowKey.of table (slotKey identity change.device) := by
  -- Even with legacy keys a change has four slots only.
  have listed (account phone : Identity) (device : Device)
      (member : slot ∈ dispensary.deviceSlots true account phone device) :
      ∃ table, ∃ identity ∈ [account, phone], slot = RowKey.of table (slotKey identity device) := by
    simp only [Dispensary.deviceSlots, if_true, List.mem_append, List.mem_cons, List.not_mem_nil,
      or_false] at member
    rcases member with (rfl | rfl) | (rfl | rfl)
    · exact ⟨_, account, .head _, rfl⟩
    · exact ⟨_, phone, .tail _ (.head _), rfl⟩
    · exact ⟨_, account, .head _, rfl⟩
    · exact ⟨_, phone, .tail _ (.head _), rfl⟩
  cases change with
  | added => exact listed _ _ _ (Dispensary.deviceSlots_subset _ member)
  | removed => exact listed _ _ _ (Dispensary.deviceSlots_subset _ member)

end DeviceChange

namespace Dispensary

variable {dispensary : Dispensary} {changes : List DeviceChange} {extra : List Write}

/-- The slots of a device under two identities are different, as its tables are. -/
theorem deviceSlots_nodup (apart : dispensary.tables.legacy ≠ dispensary.tables.lastResort)
    (legacyCounts : Bool) {account phone : Identity} (two : account ≠ phone) (device : Device) :
    (dispensary.deviceSlots legacyCounts account phone device).Nodup := by
  -- In one table, the slots of the two identities are different.
  have lastResort : dispensary.lastResortSlot account device ≠ dispensary.lastResortSlot phone device :=
    fun same => two (slotKey_injective same).1
  have legacy : dispensary.legacySlot account device ≠ dispensary.legacySlot phone device :=
    fun same => two (slotKey_injective same).1
  have tables (identity identity' : Identity) :
      dispensary.lastResortSlot identity device ≠ dispensary.legacySlot identity' device :=
    fun same => apart (congrArg RowKey.table same).symm
  -- Two slots differ in their tables or in their identities.
  cases legacyCounts <;> simp [deviceSlots, lastResort, legacy, tables]

/-- Whether changes have no slot in common with each other or with other writes. -/
structure Unrelated (dispensary : Dispensary) (changes : List DeviceChange) (extra : List Write) :
    Prop where
  /-- Legacy keys and last-resort keys are in different tables. -/
  tables : dispensary.tables.legacy ≠ dispensary.tables.lastResort
  /-- Each device has two different identities. -/
  identities : ∀ change ∈ changes, change.identities.Nodup
  /-- Any two changes are about different devices or about different identities. -/
  differ : changes.Pairwise fun first second =>
    first.device ≠ second.device ∨ ∀ identity ∈ first.identities, identity ∉ second.identities
  others : ∀ write ∈ extra, ∀ change ∈ changes, ∀ slot ∈ change.slots dispensary, write.Spares slot

namespace Unrelated

/-- No slot comes twice among those of unrelated changes. -/
theorem slots_nodup (unrelated : dispensary.Unrelated changes extra) :
    (changes.flatMap (DeviceChange.slots dispensary)).Nodup := by
  refine List.pairwise_flatMap.2 ⟨fun change member => ?_, unrelated.differ.imp fun differ => ?_⟩
  · -- The slots of one change differ, as its two identities do.
    have two := unrelated.identities change member
    cases change with
    | added policy account phone device keys =>
      exact deviceSlots_nodup unrelated.tables _ (by simpa [DeviceChange.identities] using two) _
    | removed policy account phone device =>
      exact deviceSlots_nodup unrelated.tables _ (by simpa [DeviceChange.identities] using two) _
  · intro slot member slot' member' same
    obtain ⟨table, identity, owner, rfl⟩ := DeviceChange.of_mem_slots member
    obtain ⟨table', identity', owner', rfl⟩ := DeviceChange.of_mem_slots member'
    -- Slots that are the same have the same table, and then the same identity and device.
    obtain rfl : table = table' := congrArg RowKey.table same
    obtain ⟨rfl, devices⟩ := slotKey_injective same
    rcases differ with different | disjoint
    · exact different devices
    · exact disjoint identity owner owner'

/-- The writes of unrelated changes are apart from each other. -/
theorem apart (unrelated : dispensary.Unrelated changes extra) :
    (changes.flatMap (DeviceChange.writes dispensary)).Pairwise Write.Apart := by
  -- The writes are about the slots of the changes, of which none comes twice.
  refine Write.pairwise_apart ?_ unrelated.slots_nodup
  rw [List.map_flatMap, List.map_flatMap]
  exact congrArg (changes.flatMap ·) (funext (DeviceChange.named_writes dispensary))

/-- The writes of unrelated changes are apart from the other writes. -/
theorem beside (unrelated : dispensary.Unrelated changes extra) :
    ∀ write ∈ changes.flatMap (DeviceChange.writes dispensary), ∀ other ∈ extra,
      write.Apart other := by
  -- A write of a change is about one of its slots, and the others spare all of them.
  intro write member other member'
  obtain ⟨change, listed, member⟩ := List.mem_flatMap.1 member
  have named : write.named? ∈ (change.slots dispensary).map some := by
    rw [← change.named_writes dispensary]
    exact List.mem_map_of_mem member
  obtain ⟨slot, owned, same⟩ := List.mem_map.1 named
  exact Write.apart_of_named same.symm (unrelated.others other member' change listed slot owned)

end Unrelated

/--
The order of the writes in a transaction of few enough of them.

Writes that have no key in common, and checks of whatever keys, may be reordered: either both
transactions leave the same, or both meet a check that does not hold and nothing changes. In particular
the writes of unrelated changes to devices may be mixed with other writes in any order; the others may be
reordered as well if they have no key in common, and need not if they keep their own order.
-/
theorem transact_in_any_order (engine : Engine) (rows : Rows) :
    (∀ writes writes' : List Write, writes.length ≤ transactionLimit →
      writes.Pairwise Write.Apart → writes.Perm writes' → engine.Alike rows writes writes') ∧
    (∀ (dispensary : Dispensary) (changes : List DeviceChange) (extra : List Write),
      dispensary.Unrelated changes extra →
      let own := changes.flatMap (DeviceChange.writes dispensary)
      (own ++ extra).length ≤ transactionLimit →
        (extra.Pairwise Write.Apart → ∀ mixed mixed' : List Write,
          mixed.Perm (own ++ extra) → mixed'.Perm (own ++ extra) →
          engine.Alike rows mixed mixed') ∧
        (∀ ordered ordered' mixed mixed' : List Write,
          ordered.Perm own → ordered'.Perm own →
          Merges extra ordered mixed → Merges extra ordered' mixed' →
          engine.Alike rows mixed mixed')) := by
  refine ⟨fun writes writes' few apart => .of_perm engine rows few apart, ?_⟩
  intro dispensary changes extra unrelated own few
  -- First the others are apart too, and then they keep their order.
  constructor
  · intro others mixed mixed' order order'
    have apart : (own ++ extra).Pairwise Write.Apart :=
      List.pairwise_append.2 ⟨unrelated.apart, others, unrelated.beside⟩
    exact .of_perm engine rows (order.length_eq ▸ few)
      (order.symm.pairwise apart fun apart => symm apart) (order.trans order'.symm)
  · intro ordered ordered' mixed mixed' order order' merges merges'
    have size := merges.length_eq
    rw [order.length_eq, Nat.add_comm, ← List.length_append] at size
    exact .of_merges engine rows (size ▸ few)
      (order.symm.pairwise unrelated.apart fun apart => symm apart)
      (fun write member => unrelated.beside write (order.mem_iff.1 member))
      (order.trans order'.symm) merges merges'

/-- A device is added and one with its number is removed, beside an item that is checked and put. -/
theorem transact_in_any_order_two_devices :
    let dispensary : Dispensary := ⟨{}⟩
    let identity (byte : UInt8) : Identity := ⟨List.replicate 16 byte, rfl⟩
    let keys : NewDevice := ⟨⟨1, [], []⟩, ⟨2, [], []⟩, ⟨3, [], []⟩, ⟨4, [], []⟩⟩
    let changes : List DeviceChange := [.added {} (identity 0) (identity 1) ⟨1⟩ keys,
      .removed { deletesLegacy := false } (identity 2) (identity 3) ⟨1⟩]
    let extra : List Write :=
      [.put "Accounts" ⟨⟨[7], []⟩, [1]⟩, .check "Accounts" ⟨[7], []⟩ .absent]
    let own := changes.flatMap (DeviceChange.writes dispensary)
    ((own ++ extra).length ≤ transactionLimit ∧ (own ++ extra).Pairwise Write.Apart ∧
      dispensary.Unrelated changes extra ∧ extra.Pairwise Write.Apart) ∧
    Engine.memory.Alike Rows.empty (own ++ extra) (own ++ extra).reverse ∧
    Engine.database.Alike Rows.empty (extra ++ own) (own.reverse ++ extra) ∧
    ∃ mixed mixed', Merges extra own mixed ∧ Merges extra own.reverse mixed' ∧
      Engine.database.Alike Rows.empty mixed mixed' := by
  intro dispensary identity keys changes extra own
  have few : (own ++ extra).length ≤ transactionLimit := by decide
  have unrelated : dispensary.Unrelated changes extra :=
    ⟨by decide, by decide, by decide, by decide⟩
  -- One of the two others is a check.
  have others : extra.Pairwise Write.Apart := by
    simp [extra, Write.Apart, Write.Spares]
  have apart : (own ++ extra).Pairwise Write.Apart :=
    List.pairwise_append.2 ⟨unrelated.apart, others, unrelated.beside⟩
  -- The writes of the devices stand around the others, in both of their orders.
  have merged : Merges extra own _ :=
    .right (.right (.left (.right (.right (.right (.left (.right .nil)))))))
  have merged' : Merges extra own.reverse _ :=
    .left (.right (.right (.right (.right (.right (.right (.left .nil)))))))
  refine ⟨⟨few, apart, unrelated, others⟩, ?_, ?_, _, _, merged, merged', ?_⟩
  · exact (transact_in_any_order .memory Rows.empty).1 _ _ few apart (List.reverse_perm _).symm
  · exact ((transact_in_any_order .database Rows.empty).2 dispensary changes extra unrelated few).1
      others _ _ List.perm_append_comm ((List.reverse_perm own).append_right extra)
  · exact ((transact_in_any_order .database Rows.empty).2 dispensary changes extra unrelated few).2
      own own.reverse _ _ (.refl own) (List.reverse_perm own) merged merged'

end Dispensary

end KeyDispensary
