import KeyDispensary.Proofs.Config.Fields
import KeyDispensary.Session

/-!
A document of settings overrides the usual ones leaf by leaf, however it is written and whatever else it
holds; a setting that is given twice is refused. Main statement: `overrides_merge`.
-/

namespace KeyDispensary

namespace Json

variable {β : Type}

/-- Whether members give a value under a name, once, or none at all. -/
inductive Gives (members : List (String × List Char)) (name : String)
    (Spells : β → List Char → Prop) : Option β → Prop where
  | absent (missing : name ∉ members.map Prod.fst) : Gives members name Spells none
  | once {before after : List (String × List Char)} {text : List Char} {value : β}
    (split : members = before ++ (name, text) :: after)
    (alone : name ∉ (before ++ after).map Prod.fst) (spells : Spells value text) :
    Gives members name Spells (some value)

/-- How a flag is written. -/
inductive SpellsFlag : Bool → List Char → Prop where
  | yes : SpellsFlag true "true".toList
  | no : SpellsFlag false "false".toList

end Json

open Json

/-- The table names that a section gives. -/
structure TableOverrides where
  ecPool : Option String := none
  pqPool : Option String := none
  legacy : Option String := none
  lastResort : Option String := none

/-- The names that are given, and the usual ones for the others. -/
def TableOverrides.tables (names : TableOverrides) : Tables where
  ecPool := names.ecPool.getD "Keys"
  pqPool := names.pqPool.getD "PqKeys"
  legacy := names.legacy.getD "EcSignedPreKeys"
  lastResort := names.lastResort.getD "PqLastResortKeys"

/-- Whether members give these table names and no others. -/
structure TableOverrides.GivenBy (names : TableOverrides) (members : List (String × List Char)) :
    Prop where
  ecPool : Gives members "ec_pre_keys" SpellsText names.ecPool
  pqPool : Gives members "pq_pre_keys" SpellsText names.pqPool
  legacy : Gives members "ec_signed_pre_keys" SpellsText names.legacy
  lastResort : Gives members "pq_last_resort_keys" SpellsText names.lastResort

/-- The flags that a section gives. -/
structure PolicyOverrides where
  stores : Option Bool := none
  deletes : Option Bool := none

/-- The flags that are given, and those that are not are on. -/
def PolicyOverrides.policy (flags : PolicyOverrides) : Policy where
  storesLegacy := flags.stores.getD true
  deletesLegacy := flags.deletes.getD true

/-- Whether members give these flags and no others. -/
structure PolicyOverrides.GivenBy (flags : PolicyOverrides) (members : List (String × List Char)) :
    Prop where
  stores : Gives members "store_legacy_signed_keys" SpellsFlag flags.stores
  deletes : Gives members "delete_legacy_signed_keys" SpellsFlag flags.deletes

/-- How a section of table names may be written. -/
def TableOverrides.SpelledAs (names : TableOverrides) (text : List Char) : Prop :=
  ∃ members, SpellsObject members text ∧ names.GivenBy members

/-- How a section of flags may be written. -/
def PolicyOverrides.SpelledAs (flags : PolicyOverrides) (text : List Char) : Prop :=
  ∃ members, SpellsObject members text ∧ flags.GivenBy members

/-- The settings that a document gives, in two sections that may be absent. -/
structure Overrides where
  tables : Option TableOverrides := none
  policy : Option PolicyOverrides := none

/-- The settings that are given, and the usual ones for the others. -/
def Overrides.config (overrides : Overrides) : Config where
  tables := (overrides.tables.getD {}).tables
  policy := (overrides.policy.getD {}).policy

/-- Whether members give these sections and no others. -/
structure Overrides.GivenBy (overrides : Overrides) (members : List (String × List Char)) : Prop where
  tables : Gives members "tables" TableOverrides.SpelledAs overrides.tables
  policy : Gives members "migration" PolicyOverrides.SpelledAs overrides.policy

/-! ### Settings that are still to be read -/

namespace Json

section

variable {δ : Type} {name other : String} {text : List Char} {members : List (String × List Char)}
  {Spells : β → List Char → Prop} {given result : Option β}

/-- A member of another name gives nothing. -/
theorem Gives.later (apart : other ≠ name)
    (gives : Gives ((other, text) :: members) name Spells result) : Gives members name Spells result := by
  -- The member that gives the value is not the first.
  cases gives with
  | absent missing => exact .absent fun listed => missing (.tail _ listed)
  | @once before after inner value split alone spells =>
    cases before with
    -- Nothing stands before the member that gives the value, which is the other one then.
    | nil => exact absurd (congrArg Prod.fst (List.cons.inj split).1) apart
    | cons first before =>
      exact .once (List.cons.inj split).2 (fun listed => alone (.tail _ listed)) spells

/-- A member of the name gives its value, and no later member gives another. -/
theorem Gives.here (gives : Gives ((name, text) :: members) name Spells result) :
    ∃ value, result = some value ∧ Spells value text ∧ name ∉ members.map Prod.fst := by
  cases gives with
  | absent missing => exact absurd List.mem_cons_self missing
  | @once before after inner value split alone spells =>
    cases before with
    | nil =>
      -- The first member is the one that gives the value.
      obtain ⟨same, rfl⟩ := List.cons.inj split
      cases same
      exact ⟨value, rfl, spells, alone⟩
    | cons first before =>
      -- A member of the name stands before the one that gives the value.
      obtain ⟨rfl, _⟩ := List.cons.inj split
      exact absurd List.mem_cons_self alone

/-- Whether members complete what is given under a name: they give it, or it was given before. -/
def Completes (members : List (String × List Char)) (name : String) (Spells : β → List Char → Prop)
    (given result : Option β) : Prop :=
  (given = none ∧ Gives members name Spells result) ∨
    (given = result ∧ name ∉ members.map Prod.fst)

/-- What members give they complete as long as nothing was given before. -/
theorem Gives.completes (gives : Gives members name Spells result) :
    Completes members name Spells none result :=
  .inl ⟨rfl, gives⟩

/-- Without members what was given before is all. -/
theorem Completes.done (completes : Completes [] name Spells given result) : given = result := by
  -- No member is left that could give the value.
  rcases completes with ⟨rfl, gives⟩ | ⟨same, _⟩
  · cases gives with
    | absent => rfl
    | once split => exact absurd split (by simp)
  · exact same

/-- A member of another name completes nothing. -/
theorem Completes.later (apart : other ≠ name)
    (completes : Completes ((other, text) :: members) name Spells given result) :
    Completes members name Spells given result := by
  -- The members behind it do what all of them do.
  rcases completes with ⟨missing, gives⟩ | ⟨same, missing⟩
  · exact .inl ⟨missing, gives.later apart⟩
  · exact .inr ⟨same, fun listed => missing (.tail _ listed)⟩

/-- A member of the name gives the value, which was not given before and is not given again. -/
theorem Completes.here (completes : Completes ((name, text) :: members) name Spells given result) :
    given = none ∧ ∃ value, Spells value text ∧ Completes members name Spells (some value) result := by
  rcases completes with ⟨missing, gives⟩ | ⟨_, missing⟩
  · obtain ⟨value, rfl, spells, alone⟩ := gives.here
    exact ⟨missing, value, spells, .inr ⟨rfl, alone⟩⟩
  · -- The value was given before, so that no member of the name is left.
    exact absurd List.mem_cons_self missing

/-- A member that gives the value of a field is read into the field's part. -/
theorem Field.Stores.fills {fields : List (Field δ)} {field : Field δ} {read : Reader β}
    {get : δ → Option β} {set : δ → β → δ} (stores : field.Stores read get set)
    (named : fields.find? (fun field => field.name = name) = some field)
    (reads : ∀ {value text}, Spells value text → ∀ rest,
      read (Bytes.ofChars text ++ rest) = .ok (value, rest)) {draft ends : δ}
    (completes : Completes ((name, text) :: members) name Spells (get draft) result)
    (others : ∀ value, Completes members name Spells (get (set draft value)) result →
      Fills fields members (set draft value) ends) :
    Fills fields ((name, text) :: members) draft ends := by
  -- The field is missing until the member is read, and then has the value of the member.
  obtain ⟨missing, value, spells, completes⟩ := completes.here
  refine .cons named (stores.missing missing) (fun rest _ => stores.fill (reads spells rest))
    (others value ?_)
  rw [stores.get_set]
  exact completes

end

/-- A flag is read as it is spelled. -/
theorem readFlag_spelled {value : Bool} {text : List Char} (spells : SpellsFlag value text)
    (rest : Bytes) : readFlag (Bytes.ofChars text ++ rest) = .ok (value, rest) := by
  -- Both flags are words, of which no byte is left.
  cases spells <;> rfl

end Json

/-! ### Sections -/

/-- Members that give table names fill the draft of these. -/
theorem Tables.fills {names : TableOverrides} {members : List (String × List Char)}
    {draft : Tables.Draft}
    (ecPool : Completes members "ec_pre_keys" SpellsText draft.ecPool names.ecPool)
    (pqPool : Completes members "pq_pre_keys" SpellsText draft.pqPool names.pqPool)
    (legacy : Completes members "ec_signed_pre_keys" SpellsText draft.legacy names.legacy)
    (lastResort : Completes members "pq_last_resort_keys" SpellsText draft.lastResort
      names.lastResort) :
    Fills [ecPoolField, pqPoolField, legacyField, lastResortField] members draft
      ⟨names.ecPool, names.pqPool, names.legacy, names.lastResort⟩ := by
  -- Each member is one of the four names or none of them.
  induction members generalizing draft with
  | nil =>
    -- All that is given was given by then.
    rw [← ecPool.done, ← pqPool.done, ← legacy.done, ← lastResort.done]
    exact .nil draft
  | cons member members ih =>
    obtain ⟨name, text⟩ := member
    by_cases first : name = "ec_pre_keys"
    · subst first
      exact stores_ecPool.fills rfl readText_spelled ecPool fun value completes =>
        ih completes (pqPool.later (by decide)) (legacy.later (by decide))
          (lastResort.later (by decide))
    by_cases second : name = "pq_pre_keys"
    · subst second
      exact stores_pqPool.fills rfl readText_spelled pqPool fun value completes =>
        ih (ecPool.later (by decide)) completes (legacy.later (by decide))
          (lastResort.later (by decide))
    by_cases third : name = "ec_signed_pre_keys"
    · subst third
      exact stores_legacy.fills rfl readText_spelled legacy fun value completes =>
        ih (ecPool.later (by decide)) (pqPool.later (by decide)) completes
          (lastResort.later (by decide))
    by_cases fourth : name = "pq_last_resort_keys"
    · subst fourth
      exact stores_lastResort.fills rfl readText_spelled lastResort fun value completes =>
        ih (ecPool.later (by decide)) (pqPool.later (by decide)) (legacy.later (by decide)) completes
    · -- A member of another name is passed over.
      refine .other ?_ (ih (ecPool.later first) (pqPool.later second) (legacy.later third)
        (lastResort.later fourth))
      simp [ecPoolField, pqPoolField, legacyField, lastResortField, Ne.symm first, Ne.symm second,
        Ne.symm third, Ne.symm fourth]

/-- Members that give flags fill the draft of these. -/
theorem Policy.fills {flags : PolicyOverrides} {members : List (String × List Char)}
    {draft : Policy.Draft}
    (stores : Completes members "store_legacy_signed_keys" SpellsFlag draft.stores flags.stores)
    (deletes : Completes members "delete_legacy_signed_keys" SpellsFlag draft.deletes flags.deletes) :
    Fills [storesField, deletesField] members draft ⟨flags.stores, flags.deletes⟩ := by
  -- As for table names, with two names.
  induction members generalizing draft with
  | nil =>
    rw [← stores.done, ← deletes.done]
    exact .nil draft
  | cons member members ih =>
    obtain ⟨name, text⟩ := member
    by_cases first : name = "store_legacy_signed_keys"
    · subst first
      exact stores_stores.fills rfl readFlag_spelled stores fun value completes =>
        ih completes (deletes.later (by decide))
    by_cases second : name = "delete_legacy_signed_keys"
    · subst second
      exact stores_deletes.fills rfl readFlag_spelled deletes fun value completes =>
        ih (stores.later (by decide)) completes
    · -- A member of another name is passed over.
      refine .other ?_ (ih (stores.later first) (deletes.later second))
      simp [storesField, deletesField, Ne.symm first, Ne.symm second]

/-- Members that give table names give the tables with these names. -/
theorem TableOverrides.GivenBy.takes {names : TableOverrides} {members : List (String × List Char)}
    (given : names.GivenBy members) : Tables.shape.Takes members names.tables where
  drops field member := (Tables.lawfulFields field member).drops
  -- Nothing is required, and what is missing is the usual name.
  fills := ⟨_, Tables.fills given.ecPool.completes given.pqPool.completes given.legacy.completes
    given.lastResort.completes, rfl⟩

/-- Members that give flags give the policy with these flags. -/
theorem PolicyOverrides.GivenBy.takes {flags : PolicyOverrides} {members : List (String × List Char)}
    (given : flags.GivenBy members) : Policy.shape.Takes members flags.policy where
  drops field member := (Policy.lawfulFields field member).drops
  -- Nothing is required, and a flag that is missing is on.
  fills := ⟨_, Policy.fills given.stores.completes given.deletes.completes, rfl⟩

/-! ### Documents -/

/-- What gives a value gives what is made of it. -/
theorem Json.Gives.map {β γ : Type} {members : List (String × List Char)} {name : String}
    {Spells : β → List Char → Prop} {result : Option β} (gives : Gives members name Spells result)
    (make : β → γ) : Gives members name
      (fun value text => ∃ source, Spells source text ∧ make source = value) (result.map make) := by
  -- The member that gives the value stays the same.
  cases gives with
  | absent missing => exact .absent missing
  | once split alone spells => exact .once split alone ⟨_, spells, rfl⟩

/-- Members that give sections fill the draft of a configuration. -/
theorem Config.fills {tables : Option Tables} {policy : Option Policy}
    {members : List (String × List Char)} {draft : Config.Draft}
    (givesTables : Completes members "tables" (fun tables text => ∃ names : TableOverrides,
      names.SpelledAs text ∧ names.tables = tables) draft.tables tables)
    (givesPolicy : Completes members "migration" (fun policy text => ∃ flags : PolicyOverrides,
      flags.SpelledAs text ∧ flags.policy = policy) draft.policy policy) :
    Fills [tablesField, policyField] members draft ⟨tables, policy⟩ := by
  -- The value of a section is an object of its own, which is read by its own members.
  induction members generalizing draft with
  | nil =>
    rw [← givesTables.done, ← givesPolicy.done]
    exact .nil draft
  | cons member members ih =>
    obtain ⟨name, text⟩ := member
    by_cases first : name = "tables"
    · -- The names of the section are those that its own members give.
      subst first
      refine stores_tables.fills rfl ?_ givesTables fun value completes =>
        ih completes (givesPolicy.later (by decide))
      rintro _ _ ⟨names, ⟨inner, spells, given⟩, rfl⟩ rest
      exact given.takes.read spells rest
    by_cases second : name = "migration"
    · -- The flags of the section are those that its own members give.
      subst second
      refine stores_policy.fills rfl ?_ givesPolicy fun value completes =>
        ih (givesTables.later (by decide)) completes
      rintro _ _ ⟨flags, ⟨inner, spells, given⟩, rfl⟩ rest
      exact given.takes.read spells rest
    · -- A member of another name is passed over.
      refine .other ?_ (ih (givesTables.later first) (givesPolicy.later second))
      simp [tablesField, policyField, Ne.symm first, Ne.symm second]

/-- Members that give sections give the configuration with their settings. -/
theorem Overrides.GivenBy.takes {overrides : Overrides} {members : List (String × List Char)}
    (given : overrides.GivenBy members) : Config.shape.Takes members overrides.config where
  drops field member := (Config.lawfulFields field member).drops
  fills := by
    refine ⟨_, Config.fills (given.tables.map _).completes (given.policy.map _).completes, ?_⟩
    -- The settings of a section that is absent are the usual ones.
    obtain ⟨tables, policy⟩ := overrides
    cases tables <;> cases policy <;> rfl

/-- What becomes of a configuration that was read, by its table names. -/
theorem Config.checked (config : Config) : (config.tables.validate.map fun _ => config) =
    if "" ∈ config.tables.names then .error (.misconfigured .emptyTableName)
    else if config.tables.names.Nodup then .ok config
    else .error (.misconfigured .sharedTableName) := by
  -- The test for empty names is one for membership.
  have empty : config.tables.names.any String.isEmpty = true ↔ "" ∈ config.tables.names := by
    simp [List.any_eq_true]
  -- Empty names are found before shared ones.
  rw [Tables.validate]
  by_cases some : "" ∈ config.tables.names
  · rw [if_pos (empty.2 some), if_pos some]
    rfl
  · rw [if_neg (empty.not.2 some), if_neg some]
    split <;> rfl

/-- A document overrides the settings that it gives, and the names that result are checked. -/
theorem Config.parse_overrides {overrides : Overrides} {members : List (String × List Char)}
    {text : String} (spells : SpellsDocument members text.toList)
    (given : overrides.GivenBy members) : Config.parse text =
      if "" ∈ overrides.config.tables.names then .error (.misconfigured .emptyTableName)
      else if overrides.config.tables.names.Nodup then .ok overrides.config
      else .error (.misconfigured .sharedTableName) := by
  -- The document is decoded, and then its table names are checked.
  rw [← Config.checked, Config.parse, Bytes.ofText, given.takes.decode spells]

/-- A document overrides the flags that it gives. -/
theorem Policy.parse_overrides {flags : PolicyOverrides} {members : List (String × List Char)}
    {text : String} (spells : SpellsDocument members text.toList) (given : flags.GivenBy members) :
    Policy.parse text = .ok flags.policy := by
  -- Flags are not checked any further.
  rw [Policy.parse, Bytes.ofText, given.takes.decode spells]
  rfl

/-! ### Settings that are given twice -/

/-- Whether a name occurs more than once among members. -/
def Twice (members : List (String × List Char)) (name : String) : Prop :=
  1 < (members.map Prod.fst).count name

/-- Whether one of the table names is given twice. -/
def RepeatsName (members : List (String × List Char)) : Prop :=
  ∃ name ∈ ["ec_pre_keys", "pq_pre_keys", "ec_signed_pre_keys", "pq_last_resort_keys"],
    Twice members name

/-- Whether one of the flags is given twice. -/
def RepeatsFlag (members : List (String × List Char)) : Prop :=
  ∃ name ∈ ["store_legacy_signed_keys", "delete_legacy_signed_keys"], Twice members name

/-- Whether a section is given twice, or a setting within a section. -/
inductive RepeatsSetting (members : List (String × List Char)) : Prop where
  | part {name : String} (known : name = "tables" ∨ name = "migration")
    (twice : Twice members name)
  | name {text : List Char} {inner : List (String × List Char)} (listed : ("tables", text) ∈ members)
    (spells : SpellsObject inner text) (repeats : RepeatsName inner)
  | flag {text : List Char} {inner : List (String × List Char)}
    (listed : ("migration", text) ∈ members) (spells : SpellsObject inner text)
    (repeats : RepeatsFlag inner)

/-- A section of table names with a name that is given twice is not read. -/
theorem RepeatsName.refused {members : List (String × List Char)} (repeats : RepeatsName members)
    {text : List Char} (spells : SpellsObject members text) (rest : Bytes) :
    ∃ fault, Tables.shape.read (Bytes.ofChars text ++ rest) = .error fault := by
  obtain ⟨name, known, twice⟩ := repeats
  have named : ∀ name ∈ ["ec_pre_keys", "pq_pre_keys", "ec_signed_pre_keys", "pq_last_resort_keys"],
      ∃ field, Tables.shape.fields.find? (fun field => field.name = name) = some field := by
    simp only [List.forall_mem_cons]
    exact ⟨⟨_, rfl⟩, ⟨_, rfl⟩, ⟨_, rfl⟩, ⟨_, rfl⟩, by simp⟩
  -- The name is one of a field, which is read once at most.
  obtain ⟨field, found⟩ := named name known
  exact Shape.refuses_repeated Tables.lawfulFields spells found twice rest

/-- Each of the names is that of a field. -/
theorem Policy.named : ∀ name ∈ ["store_legacy_signed_keys", "delete_legacy_signed_keys"],
    ∃ field, Policy.shape.fields.find? (fun field => field.name = name) = some field := by
  simp only [List.forall_mem_cons]
  exact ⟨⟨_, rfl⟩, ⟨_, rfl⟩, by simp⟩

/-- A section of flags with a flag that is given twice is not read. -/
theorem RepeatsFlag.refused {members : List (String × List Char)} (repeats : RepeatsFlag members)
    {text : List Char} (spells : SpellsObject members text) (rest : Bytes) :
    ∃ fault, Policy.shape.read (Bytes.ofChars text ++ rest) = .error fault := by
  obtain ⟨name, known, twice⟩ := repeats
  obtain ⟨field, found⟩ := Policy.named name known
  exact Shape.refuses_repeated Policy.lawfulFields spells found twice rest

/-- A document with a setting that is given twice is refused, whatever values it gives. -/
theorem Config.parse_repeats {members : List (String × List Char)} {text : String}
    (spells : SpellsDocument members text.toList) (repeats : RepeatsSetting members) :
    ∃ error, Config.parse text = .error (.misconfigured (.badConfig error)) := by
  -- A section is not read if it repeats a setting, and so neither is the document.
  have refused : ∃ error, decode Config.shape.read (Bytes.ofChars text.toList) = .error error := by
    have tables : Config.shape.fields.find? (fun field => field.name = "tables") =
      some tablesField := rfl
    have policy : Config.shape.fields.find? (fun field => field.name = "migration") =
      some policyField := rfl
    cases repeats with
    | part known twice =>
      -- A section is a field of the document.
      rcases known with rfl | rfl
      · exact Shape.refuses_document lawfulFields spells tables (.inl twice)
      · exact Shape.refuses_document lawfulFields spells policy (.inl twice)
    | name listed inner repeats =>
      -- The section of table names is refused, and so the field that it is read into.
      refine Shape.refuses_document lawfulFields spells tables (.inr ⟨_, listed, fun draft rest => ?_⟩)
      obtain ⟨fault, refused⟩ := repeats.refused inner rest
      exact ⟨fault, stores_tables.refused draft refused⟩
    | flag listed inner repeats =>
      -- The section of flags is refused in the same way.
      refine Shape.refuses_document lawfulFields spells policy (.inr ⟨_, listed, fun draft rest => ?_⟩)
      obtain ⟨fault, refused⟩ := repeats.refused inner rest
      exact ⟨fault, stores_policy.refused draft refused⟩
  obtain ⟨error, refused⟩ := refused
  exact ⟨error, by rw [Config.parse, Bytes.ofText, refused]⟩

/-- A policy with a flag that is given twice is refused, whatever values it gives. -/
theorem Policy.parse_repeats {members : List (String × List Char)} {text : String}
    (spells : SpellsDocument members text.toList) (repeats : RepeatsFlag members) :
    ∃ error, Policy.parse text = .error (.misconfigured (.badPolicy error)) := by
  obtain ⟨name, known, twice⟩ := repeats
  obtain ⟨field, found⟩ := Policy.named name known
  obtain ⟨error, refused⟩ := Shape.refuses_document lawfulFields spells found (.inl twice)
  exact ⟨error, by rw [Policy.parse, Bytes.ofText, refused]; rfl⟩

/--
Settings override the usual ones one by one, in a configuration as in a policy that is set again.

What is not given is the usual one, also where another policy was in force. A setting that is given twice
is refused, and after an error everything is as it was.
-/
theorem overrides_merge :
    (∀ {text : String} {members : List (String × List Char)} {overrides : Overrides},
      SpellsDocument members text.toList → overrides.GivenBy members → Config.parse text =
        if "" ∈ overrides.config.tables.names then .error (.misconfigured .emptyTableName)
        else if overrides.config.tables.names.Nodup then .ok overrides.config
        else .error (.misconfigured .sharedTableName)) ∧
    (∀ {text : String} {members : List (String × List Char)},
      SpellsDocument members text.toList → RepeatsSetting members →
        ∃ error, Config.parse text = .error (.misconfigured (.badConfig error))) ∧
    (∀ (session : Session) {text : String} {members : List (String × List Char)}
      {flags : PolicyOverrides}, SpellsDocument members text.toList → flags.GivenBy members →
        session.reloadPolicy text =
          (.ok flags.policy, { session with current := flags.policy })) ∧
    (∀ (session : Session) {text : String} {members : List (String × List Char)},
      SpellsDocument members text.toList → RepeatsFlag members →
        ∃ error, session.reloadPolicy text =
          (.error (.misconfigured (.badPolicy error)), session)) ∧
    (∀ (session : Session) (text : String) (error : KeyError),
      (session.reloadPolicy text).1 = .error error → (session.reloadPolicy text).2 = session) := by
  -- A policy is set only when the text was read without an error.
  refine ⟨Config.parse_overrides, Config.parse_repeats, fun session text members flags spells given => ?_,
    fun session text members spells repeats => ?_, fun session text error refused => ?_⟩
  · rw [Session.reloadPolicy, Policy.parse_overrides spells given]
    rfl
  · obtain ⟨error, refused⟩ := Policy.parse_repeats spells repeats
    exact ⟨error, by rw [Session.reloadPolicy, refused]⟩
  · rw [Session.reloadPolicy] at refused ⊢
    -- The policy is set where there was no error.
    split
    · rfl
    · rename_i set
      rw [set] at refused
      cases refused

/--
An override that is the usual name of another table, a table that is named twice, and a policy of which
only one flag is given where the other was off.
-/
theorem overrides_merge_documents :
    Config.parse "\x7b\"x\":[1],\"tables\":\x7b\"pq_pre_keys\":\"Keys\"\x7d\x7d" =
      .error (.misconfigured .sharedTableName) ∧
    (∃ error, Config.parse
      "\x7b\"tables\":\x7b\"pq_pre_keys\":\"A\",\"pq_pre_keys\":\"B\"\x7d\x7d" =
        .error (.misconfigured (.badConfig error))) ∧
    ∃ session : Session, session.current = ⟨true, false⟩ ∧
      session.reloadPolicy "\x7b\"store_legacy_signed_keys\":false\x7d" =
        (.ok ⟨false, true⟩, { session with current := ⟨false, true⟩ }) := by
  -- What is written on one line is a document.
  have document (text : String) {members : List (String × List Char)}
      (written : text.toList = writeObject members)
      (values : ∀ member ∈ members, IsValue member.2) : SpellsDocument members text.toList := by
    have spells := SpellsDocument.blanks blank_nil (spellsObject_writeObject values) blank_nil
    rwa [List.nil_append, List.append_nil, ← written] at spells
  have written {name value : String} :
      SpellsObject [(name, writeString value)] (writeObject [(name, writeString value)]) :=
    spellsObject_writeObject (by simp [isValue_writeString])
  -- The override makes two tables have the name of the usual pool.
  have shared : Config.parse
      "\x7b\"x\":[1],\"tables\":\x7b\"pq_pre_keys\":\"Keys\"\x7d\x7d" =
        .error (.misconfigured .sharedTableName) := by
    have name : Gives [("pq_pre_keys", writeString "Keys")] "pq_pre_keys" SpellsText (some "Keys") :=
      .once (List.nil_append _).symm (by decide) (spellsText_writeString "Keys")
    have names : TableOverrides.GivenBy { pqPool := some "Keys" }
        [("pq_pre_keys", writeString "Keys")] :=
      ⟨.absent (by decide), name, .absent (by decide), .absent (by decide)⟩
    have part : Gives [("x", writeOctets [1]),
        ("tables", writeObject [("pq_pre_keys", writeString "Keys")])] "tables"
          TableOverrides.SpelledAs (some { pqPool := some "Keys" }) :=
      .once (List.singleton_append).symm (by decide) ⟨_, written, names⟩
    have values : ∀ member ∈ [("x", writeOctets [1]),
        ("tables", writeObject [("pq_pre_keys", writeString "Keys")])], IsValue member.2 := by
      simp [isValue_writeOctets, written.isValue]
    have spells := document "\x7b\"x\":[1],\"tables\":\x7b\"pq_pre_keys\":\"Keys\"\x7d\x7d" rfl
      values
    have given : Overrides.GivenBy ⟨some { pqPool := some "Keys" }, none⟩ _ :=
      ⟨part, .absent (by decide)⟩
    exact (overrides_merge.1 spells given).trans rfl
  -- The name is given twice within its section.
  have repeated : ∃ error, Config.parse
      "\x7b\"tables\":\x7b\"pq_pre_keys\":\"A\",\"pq_pre_keys\":\"B\"\x7d\x7d" =
        .error (.misconfigured (.badConfig error)) := by
    have inner : SpellsObject [("pq_pre_keys", writeString "A"), ("pq_pre_keys", writeString "B")]
        (writeObject [("pq_pre_keys", writeString "A"), ("pq_pre_keys", writeString "B")]) :=
      spellsObject_writeObject (by simp [isValue_writeString])
    have values : ∀ member ∈ [("tables", writeObject [("pq_pre_keys", writeString "A"),
        ("pq_pre_keys", writeString "B")])], IsValue member.2 := by
      simp [inner.isValue]
    have twice : Twice [("pq_pre_keys", writeString "A"), ("pq_pre_keys", writeString "B")]
        "pq_pre_keys" := by
      simp [Twice]
    exact overrides_merge.2.1 (document _ rfl values)
      (.name List.mem_cons_self inner ⟨"pq_pre_keys", by simp, twice⟩)
  refine ⟨shared, repeated, ?_⟩
  -- The flag that is missing is on, also in the place of one that was off.
  have flag : Gives [("store_legacy_signed_keys", writeFlag false)] "store_legacy_signed_keys"
      SpellsFlag (some false) :=
    .once (List.nil_append _).symm (by decide) .no
  obtain ⟨session, started⟩ : ∃ session, Session.start
      ⟨⟨[], [], none⟩, .database Database.fresh⟩ {} ⟨true, false⟩ false [] = .ok session := ⟨_, rfl⟩
  refine ⟨session, by cases started; rfl, ?_⟩
  have given : PolicyOverrides.GivenBy ⟨some false, none⟩ _ := ⟨flag, .absent (by decide)⟩
  exact overrides_merge.2.2.1 session (document _ rfl (by simp [isValue_writeFlag])) given

end KeyDispensary
