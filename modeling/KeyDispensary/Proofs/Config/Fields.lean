import KeyDispensary.Config
import KeyDispensary.Proofs.Json.Repeats

/-!
The fields of a configuration are read as a whole and once each, and each of them into its own part of
what was read so far. Main statements: `Tables.lawfulFields`, `Policy.lawfulFields` and
`Config.lawfulFields`.
-/

namespace KeyDispensary

namespace Json

variable {β δ : Type}

/-- Whether a field puts what its reader reads into one part of a draft. -/
structure Field.Stores (field : Field δ) (read : Reader β) (get : δ → Option β)
    (set : δ → β → δ) : Prop where
  isGiven_eq : ∀ draft, field.isGiven draft = (get draft).isSome
  fill_eq : ∀ draft text, field.fill draft text =
    (read text).map fun (value, rest) => (set draft value, rest)
  get_set : ∀ draft value, get (set draft value) = some value

section

variable {field : Field δ} {read : Reader β} {get : δ → Option β} {set : δ → β → δ}

/-- What a field was filled with is what its reader read. -/
theorem Field.Stores.of_fill (stores : field.Stores read get set) {draft next : δ} {text rest : Bytes}
    (filled : field.fill draft text = .ok (next, rest)) :
    ∃ value, read text = .ok (value, rest) ∧ next = set draft value := by
  -- The field adds to the draft what its reader reads, and nothing else.
  rw [stores.fill_eq] at filled
  obtain ⟨⟨value, left⟩, passed, same⟩ := exists_of_map filled
  obtain ⟨rfl, rfl⟩ := Prod.mk.inj same
  exact ⟨value, passed, rfl⟩

/-- A field is read once and as a whole if its reader reads so and its part is its own. -/
theorem Field.Stores.lawful (stores : field.Stores read get set) (drops : DropsBlank read)
    (whole : ReadsWhole read) {fields : List (Field δ)} (keeps : ∀ other ∈ fields, ∀ draft value,
      other.isGiven draft = true → other.isGiven (set draft value) = true) :
    LawfulField fields field where
  -- The reader passes over blanks, and the field hands it the text as it is.
  drops draft text := by rw [stores.fill_eq, stores.fill_eq, drops]
  whole draft := by
    have same : field.fill draft = fun text =>
      (read text).map fun (value, rest) => (set draft value, rest) := funext (stores.fill_eq draft)
    rw [same]
    exact whole.map (set draft)
  -- What was set is found again.
  marks draft text next rest filled := by
    obtain ⟨value, _, rfl⟩ := stores.of_fill filled
    rw [stores.isGiven_eq, stores.get_set]
    rfl
  -- Filling the field sets its own part only.
  keeps other member draft text next rest filled given := by
    obtain ⟨value, _, rfl⟩ := stores.of_fill filled
    exact keeps other member draft value given

/-- What its reader reads is put into the part of the field. -/
theorem Field.Stores.fill (stores : field.Stores read get set) {draft : δ} {text rest : Bytes}
    {value : β} (passed : read text = .ok (value, rest)) :
    field.fill draft text = .ok (set draft value, rest) := by
  -- The field changes nothing about what is left of the text.
  rw [stores.fill_eq, passed]
  rfl

/-- What its reader refuses the field refuses alike. -/
theorem Field.Stores.refused (stores : field.Stores read get set) (draft : δ) {text : Bytes}
    {fault : Fault} (refused : read text = .error fault) : field.fill draft text = .error fault := by
  -- There is no value to put into the draft.
  rw [stores.fill_eq, refused]
  rfl

/-- A field whose part is missing has not been given. -/
theorem Field.Stores.missing (stores : field.Stores read get set) {draft : δ}
    (none : get draft = none) : field.isGiven draft = false := by
  -- Being given is having a value in that part.
  rw [stores.isGiven_eq, none]
  rfl

end

end Json

open Json

namespace Tables

/-- The name of the table of elliptic-curve pools has a part of its own. -/
theorem stores_ecPool : ecPoolField.Stores readText (·.ecPool)
    fun draft value => { draft with ecPool := some value } :=
  ⟨fun _ => rfl, fun _ _ => rfl, fun _ _ => rfl⟩

/-- The name of the table of post-quantum pools has a part of its own. -/
theorem stores_pqPool : pqPoolField.Stores readText (·.pqPool)
    fun draft value => { draft with pqPool := some value } :=
  ⟨fun _ => rfl, fun _ _ => rfl, fun _ _ => rfl⟩

/-- The name of the table of legacy keys has a part of its own. -/
theorem stores_legacy : legacyField.Stores readText (·.legacy)
    fun draft value => { draft with legacy := some value } :=
  ⟨fun _ => rfl, fun _ _ => rfl, fun _ _ => rfl⟩

/-- The name of the table of last-resort keys has a part of its own. -/
theorem stores_lastResort : lastResortField.Stores readText (·.lastResort)
    fun draft value => { draft with lastResort := some value } :=
  ⟨fun _ => rfl, fun _ _ => rfl, fun _ _ => rfl⟩

/-- The names of tables are read as a whole and once each. -/
theorem lawfulFields : LawfulFields shape.fields := by
  -- Filling one of the four fields leaves the others as they were given.
  change @LawfulFields Draft [ecPoolField, pqPoolField, legacyField, lastResortField]
  intro field member
  simp only [List.mem_cons, List.not_mem_nil, or_false] at member
  rcases member with rfl | rfl | rfl | rfl
  · refine stores_ecPool.lawful dropsBlank_readText readsWhole_readText ?_
    simp [ecPoolField, pqPoolField, legacyField, lastResortField]
  · refine stores_pqPool.lawful dropsBlank_readText readsWhole_readText ?_
    simp [ecPoolField, pqPoolField, legacyField, lastResortField]
  · refine stores_legacy.lawful dropsBlank_readText readsWhole_readText ?_
    simp [ecPoolField, pqPoolField, legacyField, lastResortField]
  · refine stores_lastResort.lawful dropsBlank_readText readsWhole_readText ?_
    simp [ecPoolField, pqPoolField, legacyField, lastResortField]

end Tables

namespace Policy

/-- Whether legacy keys are stored has a part of its own. -/
theorem stores_stores : storesField.Stores readFlag (·.stores)
    fun draft value => { draft with stores := some value } :=
  ⟨fun _ => rfl, fun _ _ => rfl, fun _ _ => rfl⟩

/-- Whether legacy keys are deleted has a part of its own. -/
theorem stores_deletes : deletesField.Stores readFlag (·.deletes)
    fun draft value => { draft with deletes := some value } :=
  ⟨fun _ => rfl, fun _ _ => rfl, fun _ _ => rfl⟩

/-- The flags of a policy are read as a whole and once each. -/
theorem lawfulFields : LawfulFields shape.fields := by
  -- Filling one of the two fields leaves the other as it was given.
  change @LawfulFields Draft [storesField, deletesField]
  intro field member
  simp only [List.mem_cons, List.not_mem_nil, or_false] at member
  rcases member with rfl | rfl
  · refine stores_stores.lawful dropsBlank_readFlag readsWhole_readFlag ?_
    simp [storesField, deletesField]
  · refine stores_deletes.lawful dropsBlank_readFlag readsWhole_readFlag ?_
    simp [storesField, deletesField]

end Policy

namespace Config

/-- The names of tables have one part of a configuration. -/
theorem stores_tables : tablesField.Stores Tables.shape.read (·.tables)
    fun draft value => { draft with tables := some value } :=
  ⟨fun _ => rfl, fun _ _ => rfl, fun _ _ => rfl⟩

/-- The policy has the other part of a configuration. -/
theorem stores_policy : policyField.Stores Policy.shape.read (·.policy)
    fun draft value => { draft with policy := some value } :=
  ⟨fun _ => rfl, fun _ _ => rfl, fun _ _ => rfl⟩

/-- The parts of a configuration are read as a whole and once each. -/
theorem lawfulFields : LawfulFields shape.fields := by
  -- Each part is an object with lawful fields of its own.
  change @LawfulFields Draft [tablesField, policyField]
  intro field member
  simp only [List.mem_cons, List.not_mem_nil, or_false] at member
  rcases member with rfl | rfl
  · refine stores_tables.lawful Tables.shape.dropsBlank_read
      (Shape.readsWhole Tables.lawfulFields) ?_
    simp [tablesField, policyField]
  · refine stores_policy.lawful Policy.shape.dropsBlank_read
      (Shape.readsWhole Policy.lawfulFields) ?_
    simp [tablesField, policyField]

end Config

/-! ### Names of tables -/

/-- Names that are not empty and all different are sound. -/
theorem Tables.validate_eq_ok {tables : Tables} (named : ∀ name ∈ tables.names, name ≠ "")
    (distinct : tables.names.Nodup) : tables.validate = .ok () := by
  -- The two tests are made one after the other, and both are passed.
  have noneEmpty : tables.names.any String.isEmpty = false := by
    rw [List.any_eq_false]
    intro name member isEmpty
    exact named name member (String.isEmpty_iff.1 isEmpty)
  rw [Tables.validate, noneEmpty, if_neg Bool.false_ne_true, if_pos distinct]

end KeyDispensary
