import KeyDispensary.Keys.Layout
import KeyDispensary.Proofs.Bytes
import KeyDispensary.Proofs.Store.Ranges

/-!
Where one-time keys stand among the rows of a table. Main statement: `layout_embeds_order`, by which their
places are in the order of identities, devices and ids, and nothing else comes between those of a device.
-/

namespace KeyDispensary

variable {identity identity' : Identity} {device device' : Device} {keyId keyId' : UInt64}

/-- Keys come in the order of their partitions, and in one partition of their sort keys. -/
instance : LT Key where
  lt a b := a.partition < b.partition ∨ (a.partition = b.partition ∧ a.sort < b.sort)

/-- The rows of a table come in the order of their keys. -/
theorem RowKey.of_lt_of_iff {table : String} {a b : Key} :
    RowKey.of table a < RowKey.of table b ↔ a < b := by
  -- The table is the same, so it decides nothing.
  have apart : ¬ table < table := String.lt_irrefl table
  change table < table ∨ (table = table ∧ a < b) ↔ a < b
  simp only [apart, true_and, false_or]

/-- Different identities have different partitions. -/
theorem Identity.eq_of_partition {first second : Identity}
    (same : first.partition = second.partition) : first = second := by
  -- An identity is its bytes.
  cases first
  cases second
  simpa [partition] using same

/-- Sort keys of one-time keys come in the order of devices, and for one device in the order of ids. -/
theorem poolKey_sort_lt_iff :
    (poolKey identity device keyId).sort < (poolKey identity' device' keyId').sort ↔
      device.id < device'.id ∨ device = device' ∧ keyId.toNat < keyId'.toNat := by
  -- Ids fit into their eight bytes, so they are in the order of these.
  have ids : Bytes.bigEndian 8 keyId.toNat < Bytes.bigEndian 8 keyId'.toNat ↔
      keyId.toNat < keyId'.toNat :=
    Bytes.bigEndian_lt_iff keyId.toNat_lt keyId'.toNat_lt
  rw [← ids]
  -- The first byte is the device, and the id decides only where that is the same.
  cases device
  cases device'
  rw [Device.mk.injEq]
  exact List.cons_lt_cons_iff

/-- Different one-time keys have different places. -/
theorem poolKey_eq_iff : poolKey identity device keyId = poolKey identity' device' keyId' ↔
    identity = identity' ∧ device = device' ∧ keyId = keyId' := by
  constructor
  · intro same
    simp only [poolKey, Key.mk.injEq, List.cons.injEq] at same
    obtain ⟨partitions, ids, digits⟩ := same
    -- The id is within the width of its bytes.
    have numbers := Bytes.bigEndian_injective keyId.toNat_lt keyId'.toNat_lt digits
    -- The partition gives identity and device, and the sort key the id.
    cases device
    cases device'
    exact ⟨Identity.eq_of_partition partitions, congrArg Device.mk ids, UInt64.toNat_inj.1 numbers⟩
  · rintro ⟨rfl, rfl, rfl⟩
    rfl

/-- The places of one-time keys come in the order of identities, then of devices, then of ids. -/
theorem poolKey_lt_iff : poolKey identity device keyId < poolKey identity' device' keyId' ↔
    identity.octets < identity'.octets ∨ identity = identity' ∧
      (device.id < device'.id ∨ device = device' ∧ keyId.toNat < keyId'.toNat) := by
  -- The partition is the bytes of the identity, and so it tells the identity.
  have partitions : identity.partition = identity'.partition ↔ identity = identity' :=
    ⟨Identity.eq_of_partition, congrArg Identity.partition⟩
  have sorts : (poolKey identity device keyId).sort < (poolKey identity' device' keyId').sort ↔ _ :=
    poolKey_sort_lt_iff
  rw [← sorts, ← partitions]
  rfl

/-- The sort key of a one-time key begins with its device and with no other. -/
theorem lead_prefix_poolKey_iff : device'.lead <+: (poolKey identity device keyId).sort ↔
    device = device' := by
  cases device
  cases device'
  -- What a device begins with is one byte, the first of the sort key.
  simp [Device.lead, poolKey, List.cons_prefix_cons, eq_comm]

/-- What lies between bytes that begin alike begins as they do. -/
theorem prefix_of_between {lead lower sort upper : Bytes} (low : lead <+: lower)
    (high : lead <+: upper) (above : lower ≤ sort) (below : sort ≤ upper) : lead <+: sort := by
  rw [← List.isPrefixOf_iff_prefix] at low high ⊢
  -- The lower end does not come before the beginning, so neither does what lies above it.
  have notBefore : ¬ sort < lead :=
    List.not_lt.2 (List.le_trans (List.not_lt.1 (not_lt_of_begins low)) above)
  by_cases less : sort < upper
  · exact begins_of_between notBefore less high
  · exact List.le_antisymm below (List.not_lt.1 less) ▸ high

/--
The place of a one-time key tells the identity, the device and the id, and places are in the order of the
three, which is the order of the rows in any table. Of a device are exactly the sort keys that begin with
it, and so does whatever lies between two of them.
-/
theorem layout_embeds_order (table : String) (identity identity' : Identity)
    (device device' : Device) (keyId keyId' : UInt64) :
    (poolKey identity device keyId = poolKey identity' device' keyId' ↔
      identity = identity' ∧ device = device' ∧ keyId = keyId') ∧
    (poolKey identity device keyId < poolKey identity' device' keyId' ↔
      identity.octets < identity'.octets ∨ identity = identity' ∧
        (device.id < device'.id ∨ device = device' ∧ keyId.toNat < keyId'.toNat)) ∧
    (RowKey.of table (poolKey identity device keyId) <
        RowKey.of table (poolKey identity' device' keyId') ↔
      poolKey identity device keyId < poolKey identity' device' keyId') ∧
    (device'.lead <+: (poolKey identity device keyId).sort ↔ device = device') ∧
    ∀ sort : Bytes, (poolKey identity device keyId).sort ≤ sort →
      sort ≤ (poolKey identity' device keyId').sort → device.lead <+: sort := by
  refine ⟨poolKey_eq_iff, poolKey_lt_iff, RowKey.of_lt_of_iff, lead_prefix_poolKey_iff, ?_⟩
  -- What lies between two sort keys of a device begins as both do.
  intro sort above below
  exact prefix_of_between (lead_prefix_poolKey_iff.2 rfl) (lead_prefix_poolKey_iff.2 rfl) above below

/-- A sort key of ten bytes between the ids 1 and 300 begins with their device. -/
theorem layout_embeds_order_foreign :
    let identity : Identity := ⟨List.replicate 16 7, rfl⟩
    let other : Identity := ⟨List.replicate 16 9, rfl⟩
    let sort : Bytes := [2, 0, 0, 0, 0, 0, 0, 0, 255, 3]
    ((poolKey identity ⟨2⟩ 1).sort ≤ sort ∧ sort ≤ (poolKey other ⟨2⟩ 300).sort) ∧
      (⟨2⟩ : Device).lead <+: sort := by
  intro identity other sort
  have above : (poolKey identity ⟨2⟩ 1).sort ≤ sort := by decide
  have below : sort ≤ (poolKey other ⟨2⟩ 300).sort := by decide
  exact ⟨⟨above, below⟩,
    (layout_embeds_order "keys" identity other ⟨2⟩ ⟨2⟩ 1 300).2.2.2.2 sort above below⟩

end KeyDispensary
