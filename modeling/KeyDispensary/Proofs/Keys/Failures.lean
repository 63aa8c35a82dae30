import KeyDispensary.Proofs.Keys.Exhaustion
import KeyDispensary.Proofs.Keys.Listings
import KeyDispensary.Proofs.Keys.Slots
import KeyDispensary.Proofs.Keys.Uploads
import KeyDispensary.Proofs.Store.Reach
import KeyDispensary.Proofs.Store.Recording

/-!
How operations fail. A call that fails ends the operation with its error, and nothing has changed by
then; a stored key that cannot be read is reported, and only a take has removed it. Main statement:
`Operation.fails_exact`.
-/

namespace KeyDispensary

variable {π α β κ : Type} {engine : Engine} {identity : Identity} {device : Device}

/-! ### Careful operations -/

/-- A program of one careful round is a careful walk. -/
theorem Walk.careful_once {failure? : α → Option KeyError} {program : Program α}
    (careful : (program.map .finished : Program (Progress Unit α)).Careful engine failure?) :
    (Walk.once program).Careful engine failure? :=
  ⟨fun _ => careful⟩

/-- A round that is over makes no call when the answer of the walk is only changed. -/
theorem Walk.careful_following {failure? : β → Option KeyError} (change : α → β)
    (progress : Progress π α) :
    (Walk.following (fun answer => .done (change answer)) progress).Careful engine failure? := by
  cases progress <;> trivial

/-- A program that hands on the reply to its one call is careful. -/
theorem Pool.careful_settled (engine : Engine) (call : Call) :
    ((Program.ask call settled).map .finished : Program (Progress π _)).Careful engine failureOf? :=
  ⟨fun error => ⟨.error (.store error), rfl, rfl⟩, fun _ => ⟨.inr ⟨_, rfl⟩, trivial⟩⟩

/-- Storing keys is careful. -/
theorem Pool.store_careful [Record κ] (engine : Engine) (pool : Pool κ) (identity : Identity)
    (device : Device) (keys : List κ) :
    ((pool.store identity device keys).map .finished : Program (Progress π _)).Careful engine
      failureOf? :=
  careful_settled engine (.replace ..)

/-- Counting keys is careful. -/
theorem Pool.count_careful (engine : Engine) (pool : Pool κ) (identity : Identity) (device : Device) :
    ((pool.count identity device).map .finished : Program (Progress π _)).Careful engine failureOf? :=
  careful_settled engine (.count ..)

/-- Filling a slot is careful. -/
theorem Slots.store_careful [Record κ] (engine : Engine) (slots : Slots κ) (identity : Identity)
    (device : Device) (key : κ) :
    ((slots.store identity device key).map .finished : Program (Progress π _)).Careful engine
      failureOf? :=
  Pool.careful_settled engine (.put ..)

/-- Reading a slot is careful. -/
theorem Slots.find_careful [Record κ] (engine : Engine) (slots : Slots κ) (identity : Identity)
    (device : Device) :
    ((slots.find identity device).map .finished : Program (Progress π _)).Careful engine
      failureOf? := by
  -- The one call of the program changes nothing.
  refine ⟨fun error => ⟨_, rfl, rfl⟩, fun rows => ⟨.inl rfl, ?_⟩⟩
  simp only [Engine.answer]
  cases rows.get? (RowKey.of slots.table (slotKey identity device)) <;> trivial

namespace Slots

variable {slots : Slots κ}

/-- A listing is careful. -/
theorem list_careful (engine : Engine) (slots : Slots κ) (identity : Identity) (wanted : Option Nat) :
    (slots.list identity wanted).Careful engine Listing.failure? := by
  -- Each round makes one query, after which nothing has changed.
  refine ⟨fun place => ?_⟩
  have round : (slots.list identity wanted).round place = slots.listFrom identity wanted place := rfl
  rw [round, listFrom]
  split
  · trivial
  · exact ⟨fun error => ⟨_, rfl, rfl⟩, fun rows => ⟨.inl rfl, trivial⟩⟩

/-- A listing of all devices is careful. -/
theorem devices_careful (engine : Engine) (slots : Slots κ) (identity : Identity) :
    (slots.devices identity).Careful engine failureOf? := by
  -- A listing only queries, so every round leaves the rows as they are.
  refine ⟨fun place => ?_⟩
  have round : (slots.devices identity).round place =
      (slots.listFrom identity none place).bind
        (Walk.following fun listing => .done (allOf listing)) := rfl
  rw [round, listFrom, if_neg (by simp [isEnough])]
  refine ⟨fun error => ⟨_, rfl, rfl⟩, fun rows => ⟨.inl rfl, ?_⟩⟩
  exact Walk.careful_following allOf (slots.afterPage none place.listed
    (slots.pageAfter engine identity rows place.after))

end Slots

namespace Pool

variable [Record κ] {pool : Pool κ} {next : Except KeyError (Option κ) → Program β}
  {failure? : β → Option KeyError}

/-- Whether what follows a take reports its failures, and makes calls only if the pool is empty. -/
structure Heeds (engine : Engine) (failure? : β → Option KeyError)
    (next : Except KeyError (Option κ) → Program β) : Prop where
  reports : ∀ error, ∃ answer, next (.error error) = .done answer ∧ failure? answer = some error
  ends : ∀ key, ∃ answer, next (.ok (some key)) = .done answer
  careful : ((next (.ok none)).map .finished : Program (Progress (Option Bytes) β)).Careful engine
    failure?

omit [Record κ] in
/-- What follows the answer of a take that has found a value makes no calls. -/
theorem Heeds.of_value (heeds : Heeds engine failure? next) (answer : Except KeyError κ) :
    ∃ result, next (answer.map some) = .done result := by
  -- The value is a key or it is not.
  cases answer with
  | error error =>
    obtain ⟨result, ends, _⟩ := heeds.reports error
    exact ⟨result, ends⟩
  | ok key => exact heeds.ends key

/-- Claiming candidates is careful: a claim that is won is the last call. -/
theorem claim_careful (heeds : Heeds engine failure? next) (candidates : List Item)
    (last : Option Bytes) :
    ((pool.claim candidates last).bind (Walk.following next)).Careful engine failure? := by
  -- The candidates are claimed one by one, and a claim that is lost has changed nothing.
  induction candidates with
  | nil =>
    cases last with
    | none => exact heeds.careful
    | some place => trivial
  | cons candidate rest ih =>
    refine ⟨fun error => ?_, fun rows => ?_⟩
    · -- A claim that fails ends the take with that error.
      obtain ⟨result, ends, reports⟩ := heeds.reports (.store error)
      refine ⟨result, ?_, reports⟩
      change (next (.error (.store error))).map Progress.finished = _
      rw [ends]
      rfl
    · simp only [Engine.answer]
      cases found : rows.get? (RowKey.of pool.table candidate.key) with
      | none => exact ⟨.inl (Rows.erase_of_absent found), ih⟩
      | some value =>
        -- A value that was removed is all that the take changes.
        obtain ⟨result, ends⟩ := heeds.of_value (recordOf κ pool.table value)
        have ending : ((Program.done (.finished ((recordOf κ pool.table value).map some)) :
            Program (Taking κ)).bind (Walk.following next)) = .done (.finished result) := by
          change (next ((recordOf κ pool.table value).map some)).map Progress.finished = _
          rw [ends]
          rfl
        exact ⟨.inr ⟨result, ending⟩, by rw [ending]; trivial⟩

/-- A take is careful if what follows it heeds its answer. -/
theorem takeThen_careful (heeds : Heeds engine failure? next) :
    (pool.takeThen identity device next).Careful engine failure? := by
  -- A round begins with a query, which changes nothing.
  refine ⟨fun after => ⟨fun error => ?_, fun rows => ⟨.inl rfl, claim_careful heeds _ _⟩⟩⟩
  obtain ⟨result, ends, reports⟩ := heeds.reports (.store error)
  refine ⟨result, ?_, reports⟩
  change (next (.error (.store error))).map Progress.finished = _
  rw [ends]
  rfl

/-- A take that nothing follows is careful. -/
theorem take_careful (engine : Engine) (pool : Pool κ) (identity : Identity) (device : Device) :
    (pool.take identity device).Careful engine failureOf? := by
  rw [← takeThen_done]
  exact takeThen_careful ⟨fun error => ⟨_, rfl, rfl⟩, fun key => ⟨_, rfl⟩, trivial⟩

end Pool

namespace Operation

variable {dispensary : Dispensary} {policy : Policy}

/-- Every operation that is no deletion is careful. -/
theorem careful (engine : Engine) (dispensary : Dispensary) (policy : Policy) {operation : Operation}
    (keeps : ¬ operation.isDeletion) :
    (operation.walk dispensary policy).Careful engine operation.failure? := by
  -- Each operation that is no deletion makes calls of which only the last may change anything.
  cases operation with
  | storeEc | storePq => exact Walk.careful_once (Pool.store_careful ..)
  | countEc | countPq => exact Walk.careful_once (Pool.count_careful ..)
  | storeLastResort => exact Walk.careful_once (Slots.store_careful ..)
  | storeLegacy identity device key =>
    refine Walk.careful_once ?_
    rw [Dispensary.storeLegacy]
    split
    · exact Slots.store_careful ..
    · trivial
  | takeEc => exact Pool.take_careful ..
  -- A take that falls back reads the slot, which changes nothing.
  | takePq =>
    refine Pool.takeThen_careful ⟨fun error => ⟨_, rfl, rfl⟩, fun key => ⟨_, rfl⟩, ?_⟩
    exact Slots.find_careful engine dispensary.lastResort _ _
  | findLegacy | findLastResort => exact Walk.careful_once (Slots.find_careful ..)
  | listDevices => exact Slots.devices_careful ..
  | streamDevices => exact Slots.list_careful ..
  | deletePools | deleteDevicePools | deleteAccount => exact absurd rfl keeps
  | legacyWrite | lastResortWrite | newDeviceWrites | removedDeviceWrites =>
    exact Walk.careful_once trivial

/-! ### Keys that cannot be read -/

/--
What an operation comes to that cannot be read: the table, what is wrong, and the rows that are left when
that is found out. A take has removed the row by then, and nothing else changes anything.
-/
inductive Spoiled (engine : Engine) (dispensary : Dispensary) (rows : Rows) :
    Operation → String → Malformed → Rows → Prop where
  | findLegacy {identity : Identity} {device : Device} {value : Bytes} {error : Json.Error}
    (found : rows.get? (RowKey.of dispensary.legacy.table (slotKey identity device)) = some value)
    (bad : (Record.decode value : Except Json.Error SignedEcKey) = .error error) :
    Spoiled engine dispensary rows (.findLegacy identity device) dispensary.tables.legacy
      (.value error) rows
  | findLastResort {identity : Identity} {device : Device} {value : Bytes} {error : Json.Error}
    (found : rows.get? (RowKey.of dispensary.lastResort.table (slotKey identity device)) = some value)
    (bad : (Record.decode value : Except Json.Error SignedKemKey) = .error error) :
    Spoiled engine dispensary rows (.findLastResort identity device) dispensary.tables.lastResort
      (.value error) rows
  /-- The first row of the pool goes out and cannot be read. -/
  | takeEc {identity : Identity} {device : Device} {row : Row} {rest : List Row} {error : Json.Error}
    (holds : dispensary.ecPool.contents identity device rows = row :: rest)
    (bad : (Record.decode row.value : Except Json.Error EcKey) = .error error) :
    Spoiled engine dispensary rows (.takeEc identity device) dispensary.tables.ecPool
      (.value error) (rows.erase row.key)
  | takePq {identity : Identity} {device : Device} {row : Row} {rest : List Row} {error : Json.Error}
    (holds : dispensary.pqPool.contents identity device rows = row :: rest)
    (bad : (Record.decode row.value : Except Json.Error SignedKemKey) = .error error) :
    Spoiled engine dispensary rows (.takePq identity device) dispensary.tables.pqPool
      (.value error) (rows.erase row.key)
  /-- The pool is empty, and the last-resort key cannot be read. -/
  | fallBack {identity : Identity} {device : Device} {value : Bytes} {error : Json.Error}
    (empty : dispensary.pqPool.contents identity device rows = [])
    (found : rows.get? (RowKey.of dispensary.lastResort.table (slotKey identity device)) = some value)
    (bad : (Record.decode value : Except Json.Error SignedKemKey) = .error error) :
    Spoiled engine dispensary rows (.takePq identity device) dispensary.tables.lastResort
      (.value error) rows
  | listDevices {identity : Identity} {place : Nat} {sort : Bytes}
    (spoils : Spoils (dispensary.lastResort.sortsOf engine identity rows) place sort) :
    Spoiled engine dispensary rows (.listDevices identity) dispensary.tables.lastResort
      (.sortKey sort.length) rows
  /-- The pages before the one with the bad sort key do not show as many devices as are wanted. -/
  | streamDevices {identity : Identity} {wanted : Option Nat} {place : Nat} {sort : Bytes}
    (spoils : Spoils (dispensary.lastResort.sortsOf engine identity rows) place sort)
    (reached : ∀ count, wanted = some count →
      Slots.pageSize * (place / Slots.pageSize) < count) :
    Spoiled engine dispensary rows (.streamDevices identity wanted) dispensary.tables.lastResort
      (.sortKey sort.length) rows

/-- How an operation ends that meets no failure of the store. -/
structure Decoded (engine : Engine) (dispensary : Dispensary) (rows : Rows) (operation : Operation)
    (answer : operation.Answer) (left : Rows) : Prop where
  spoiled : ∀ table reason spoilt, Spoiled engine dispensary rows operation table reason spoilt →
    operation.failure? answer = some (.malformed table reason) ∧ left = spoilt
  sound : (¬ ∃ table reason spoilt, Spoiled engine dispensary rows operation table reason spoilt) →
    operation.failure? answer = none

/-- Whether an operation reads keys or sort keys that are stored. -/
def decodes : Operation → Bool
  | .findLegacy _ _ | .findLastResort _ _ | .takeEc _ _ | .takePq _ _ | .listDevices _
  | .streamDevices _ _ => true
  | _ => false

/-- Only what is read can turn out not to be readable. -/
theorem Spoiled.decodes {engine : Engine} {dispensary : Dispensary} {rows spoilt : Rows}
    {operation : Operation} {table : String} {reason : Malformed}
    (spoiled : Spoiled engine dispensary rows operation table reason spoilt) : operation.decodes := by
  cases spoiled <;> rfl

/-- An operation that reads nothing need only succeed. -/
theorem Decoded.of_unread {engine : Engine} {dispensary : Dispensary} {rows left : Rows}
    {operation : Operation} {answer : operation.Answer} (unread : operation.decodes = false)
    (sound : operation.failure? answer = none) :
    Decoded engine dispensary rows operation answer left :=
  ⟨fun _ _ _ spoiled => absurd (unread.symm.trans spoiled.decodes) Bool.false_ne_true, fun _ => sound⟩

/-- A take of a post-quantum key that nobody disturbs, with the last-resort key when the pool is empty. -/
theorem takePq_run (engine : Engine) (dispensary : Dispensary) (identity : Identity) (device : Device)
    (rows : Rows) : (dispensary.takePq identity device).run (engine.holding rows) =
      match dispensary.pqPool.contents identity device rows with
      | [] => (some (dispensary.lastResort.held identity device rows), engine.holding rows)
      | row :: _ => (some ((recordOf SignedKemKey dispensary.pqPool.table row.value).map some),
          engine.holding (rows.erase row.key)) := by
  -- The slot is read exactly if the pool is empty.
  have taken := Pool.take_run engine dispensary.pqPool identity device rows
  rw [Dispensary.takePq_eq, Pool.takeThen]
  cases holds : dispensary.pqPool.contents identity device rows with
  | nil =>
    rw [holds] at taken
    refine (Walk.runFrom_andThen taken).trans ?_
    simp only [Dispensary.afterTake, Slots.find_run]
  | cons row rest =>
    rw [holds] at taken
    refine (Walk.runFrom_andThen taken).trans ?_
    -- A key or an error is handed on without a call.
    cases read : recordOf SignedKemKey dispensary.pqPool.table row.value <;> simp only [read] <;> rfl

section
variable (κ) [Record κ] (table : String)

/-- A value that cannot be read is reported with its table. -/
theorem failure_of_bad {value : Bytes} {error : Json.Error}
    (bad : (Record.decode value : Except Json.Error κ) = .error error) :
    failureOf? ((recordOf κ table value).map some) = some (.malformed table (.value error)) := by
  rw [recordOf, bad]
  rfl

/-- A value that can be read is no failure. -/
theorem failure_of_good {value : Bytes}
    (good : ¬ ∃ error, (Record.decode value : Except Json.Error κ) = .error error) :
    failureOf? ((recordOf κ table value).map some) = none := by
  rw [recordOf]
  cases read : (Record.decode value : Except Json.Error κ) with
  | ok key => rfl
  | error error => exact absurd ⟨error, read⟩ good

end

section
variable [Record κ] {slots : Slots κ} {rows : Rows}

/-- A slot whose value cannot be read is reported with its table. -/
theorem held_of_bad {value : Bytes} {error : Json.Error}
    (found : rows.get? (RowKey.of slots.table (slotKey identity device)) = some value)
    (bad : (Record.decode value : Except Json.Error κ) = .error error) :
    failureOf? (slots.held identity device rows) = some (.malformed slots.table (.value error)) := by
  rw [Slots.held, found]
  exact failure_of_bad κ slots.table bad

/-- A slot that is empty or whose value can be read is no failure. -/
theorem held_of_good (good : ¬ ∃ value error,
      rows.get? (RowKey.of slots.table (slotKey identity device)) = some value ∧
      (Record.decode value : Except Json.Error κ) = .error error) :
    failureOf? (slots.held identity device rows) = none := by
  -- Either the slot is empty, or its value is read.
  rw [Slots.held]
  cases found : rows.get? (RowKey.of slots.table (slotKey identity device)) with
  | none => rfl
  | some value =>
    refine failure_of_good κ slots.table ?_
    rintro ⟨error, bad⟩
    exact good ⟨value, error, found, bad⟩

end

/-- Whether an operation comes to an end that is right, where no call fails. -/
def EndsDecoded (engine : Engine) (dispensary : Dispensary) (policy : Policy) (rows : Rows)
    (operation : Operation) : Prop :=
  ∃ answer left, (operation.walk dispensary policy).run (engine.holding rows) =
      (some answer, engine.holding left) ∧ Decoded engine dispensary rows operation answer left

section
variable (engine : Engine) (dispensary : Dispensary) (policy : Policy) (rows : Rows)
  (identity : Identity) (device : Device)

/-- A take reports the row that it has removed, if that cannot be read. -/
theorem ends_takeEc : EndsDecoded engine dispensary policy rows (.takeEc identity device) := by
  -- Only the first row of the pool is ever read.
  have taken := Pool.take_run engine dispensary.ecPool identity device rows
  cases holds : dispensary.ecPool.contents identity device rows with
  | nil =>
    rw [holds] at taken
    refine ⟨.ok none, rows, taken, ?_, fun _ => rfl⟩
    intro table reason spoilt spoiled
    cases spoiled with
    | takeEc holds' bad => cases holds.symm.trans holds'
  | cons row rest =>
    rw [holds] at taken
    refine ⟨_, _, taken, ?_, fun clean => ?_⟩
    · intro table reason spoilt spoiled
      cases spoiled with
      | takeEc holds' bad =>
        obtain ⟨rfl, rfl⟩ := List.cons.inj (holds.symm.trans holds')
        exact ⟨failure_of_bad EcKey _ bad, rfl⟩
    · exact failure_of_good EcKey _ fun ⟨error, bad⟩ => clean ⟨_, _, _, .takeEc holds bad⟩

/-- A take of a post-quantum key reports what it cannot read, in the pool or in the slot. -/
theorem ends_takePq : EndsDecoded engine dispensary policy rows (.takePq identity device) := by
  -- The first row of the pool is read, or the slot if there is none.
  have taken := takePq_run engine dispensary identity device rows
  cases holds : dispensary.pqPool.contents identity device rows with
  | nil =>
    rw [holds] at taken
    refine ⟨_, rows, taken, ?_, fun clean => ?_⟩
    · intro table reason spoilt spoiled
      cases spoiled with
      | takePq holds' bad => cases holds.symm.trans holds'
      | fallBack empty found bad => exact ⟨held_of_bad found bad, rfl⟩
    · exact held_of_good fun ⟨value, error, found, bad⟩ =>
        clean ⟨_, _, _, .fallBack holds found bad⟩
  | cons row rest =>
    -- The pool has a row, so the slot is not read.
    rw [holds] at taken
    refine ⟨_, _, taken, ?_, fun clean => ?_⟩
    · intro table reason spoilt spoiled
      cases spoiled with
      | takePq holds' bad =>
        obtain ⟨rfl, rfl⟩ := List.cons.inj (holds.symm.trans holds')
        exact ⟨failure_of_bad SignedKemKey _ bad, rfl⟩
      | fallBack empty => cases holds.symm.trans empty
    · exact failure_of_good SignedKemKey _ fun ⟨error, bad⟩ =>
        clean ⟨_, _, _, .takePq holds bad⟩

/-- Reading a legacy key reports one that cannot be read. -/
theorem ends_findLegacy : EndsDecoded engine dispensary policy rows (.findLegacy identity device) := by
  -- What is found is answered, or what is wrong with it.
  refine ⟨_, rows, Walk.run_once_eq (dispensary.legacy.find_run engine identity device rows), ?_,
    fun clean => ?_⟩
  · intro table reason spoilt spoiled
    cases spoiled with
    | findLegacy found bad => exact ⟨held_of_bad found bad, rfl⟩
  · exact held_of_good fun ⟨value, error, found, bad⟩ => clean ⟨_, _, _, .findLegacy found bad⟩

/-- Reading a last-resort key reports one that cannot be read. -/
theorem ends_findLastResort :
    EndsDecoded engine dispensary policy rows (.findLastResort identity device) := by
  -- What is found is answered, or what is wrong with it.
  refine ⟨_, rows, Walk.run_once_eq (dispensary.lastResort.find_run engine identity device rows), ?_,
    fun clean => ?_⟩
  · intro table reason spoilt spoiled
    cases spoiled with
    | findLastResort found bad => exact ⟨held_of_bad found bad, rfl⟩
  · exact held_of_good fun ⟨value, error, found, bad⟩ => clean ⟨_, _, _, .findLastResort found bad⟩

/-- A listing reports the first sort key that is no device. -/
theorem ends_listDevices : EndsDecoded engine dispensary policy rows (.listDevices identity) := by
  -- The listing says itself which sort key it has come to.
  obtain ⟨listing, ran, lists⟩ := dispensary.lastResort.devices_run engine identity rows
  have reports := Slots.failureOf?_allOf listing
  refine ⟨_, rows, ran, ?_, fun clean => ?_⟩
  · intro table reason spoilt spoiled
    cases spoiled with
    | listDevices spoils => exact ⟨reports.trans (lists.failure_of_spoils spoils nofun), rfl⟩
  · refine reports.trans (lists.failure_of_clean ?_)
    rintro ⟨place, sort, spoils, _⟩
    exact clean ⟨_, _, _, .listDevices spoils⟩

/-- A listing of some devices reports the first sort key that is no device, if it comes to it. -/
theorem ends_streamDevices (wanted : Option Nat) :
    EndsDecoded engine dispensary policy rows (.streamDevices identity wanted) := by
  -- The listing says itself which sort key it has come to, if any.
  obtain ⟨listing, ran, lists⟩ := dispensary.lastResort.list_run engine identity wanted rows
  refine ⟨listing, rows, ran, ?_, fun clean => ?_⟩
  · intro table reason spoilt spoiled
    cases spoiled with
    | streamDevices spoils reached => exact ⟨lists.failure_of_spoils spoils reached, rfl⟩
  · refine lists.failure_of_clean ?_
    rintro ⟨place, sort, spoils, reached⟩
    exact clean ⟨_, _, _, .streamDevices spoils reached⟩

end

/-- What an operation ends with that meets no failure of the store is right. -/
theorem ends_decoded (engine : Engine) (dispensary : Dispensary) (policy : Policy)
    {operation : Operation} (keeps : ¬ operation.isDeletion) (rows : Rows) :
    EndsDecoded engine dispensary policy rows operation := by
  -- The operations that read anything are settled above.
  cases operation with
  | storeEc identity device keys =>
    exact ⟨.ok (), _,
      Walk.run_once_eq (Pool.store_run engine dispensary.ecPool identity device keys rows),
      .of_unread rfl rfl⟩
  | storePq identity device keys =>
    exact ⟨.ok (), _,
      Walk.run_once_eq (Pool.store_run engine dispensary.pqPool identity device keys rows),
      .of_unread rfl rfl⟩
  | storeLastResort identity device key =>
    exact ⟨.ok (), _, Walk.run_once_eq (dispensary.lastResort.store_run engine identity device key rows),
      .of_unread rfl rfl⟩
  | storeLegacy identity device key =>
    change ∃ answer left, (Walk.once (dispensary.storeLegacy policy identity device key)).run _ = _ ∧ _
    rw [Dispensary.storeLegacy]
    split
    · exact ⟨.ok (), _, Walk.run_once_eq (dispensary.legacy.store_run engine identity device key rows),
        .of_unread rfl rfl⟩
    · exact ⟨.ok (), rows, Walk.run_once_eq rfl, .of_unread rfl rfl⟩
  | countEc identity device =>
    exact ⟨_, rows, Walk.run_once_eq (dispensary.ecPool.count_run engine identity device rows),
      .of_unread rfl rfl⟩
  | countPq identity device =>
    exact ⟨_, rows, Walk.run_once_eq (dispensary.pqPool.count_run engine identity device rows),
      .of_unread rfl rfl⟩
  | takeEc => exact ends_takeEc ..
  | takePq => exact ends_takePq ..
  | findLegacy => exact ends_findLegacy ..
  | findLastResort => exact ends_findLastResort ..
  | listDevices => exact ends_listDevices ..
  | streamDevices => exact ends_streamDevices ..
  | deletePools | deleteDevicePools | deleteAccount => exact absurd rfl keeps
  | legacyWrite | lastResortWrite | newDeviceWrites | removedDeviceWrites =>
    exact ⟨_, rows, Walk.run_once_eq rfl, .of_unread rfl rfl⟩

/-- How an operation ends on a store that may fail its calls, which are given with their replies. -/
structure Handled (engine : Engine) (dispensary : Dispensary) (rows : Rows) (operation : Operation)
    (answer : operation.Answer) (log : List Exchange) (left : Rows) : Prop where
  /-- A call that fails is the last one. Its error is reported as it is, and nothing has changed. -/
  failed : ∀ before call error later, log = before ++ ⟨call, .error error⟩ :: later →
    later = [] ∧ (∀ exchange ∈ before, exchange.Succeeded) ∧ left = rows ∧
    ∃ reported, operation.failure? answer = some reported ∧ reported = .store error ∧
      reported.message = error.message ∧ reported.isConflict = error.isConflict
  decoded : (∀ exchange ∈ log, exchange.Succeeded) →
    Decoded engine dispensary rows operation answer left

/--
How the operations that are no deletions fail, whatever calls of theirs are scripted to fail with whatever
errors. The first call that fails is the last, its error is reported, and nothing has changed. If no call
fails, a stored key that cannot be read is reported, and only a take has changed anything, by removing it.
With a policy not to store legacy keys, storing one and building the write for it make no call.
-/
theorem fails_exact (engine : Engine) (dispensary : Dispensary) (policy : Policy)
    (operation : Operation) (keeps : ¬ operation.isDeletion) (rows : Rows)
    (faults : List ScriptedFault) (script : ∀ fault ∈ faults, ∃ error, fault.deed = .fail error) :
    let store := Recorder.mk (Probe.mk (engine.holding rows) faults []) []
    (∃ answer log left faults' calls,
      (operation.walk dispensary policy).run store =
        (some answer, ⟨⟨engine.holding left, faults', calls⟩, log⟩) ∧
      Handled engine dispensary rows operation answer log left) ∧
    (policy.storesLegacy = false → ∀ identity device key,
      ((storeLegacy identity device key).walk dispensary policy).run store = (some (.ok ()), store) ∧
      ((legacyWrite identity device key).walk dispensary policy).run store = (some none, store)) := by
  -- The operation is careful, and its end on the engine is known.
  intro store
  refine ⟨?_, fun off identity device key => ?_⟩
  · obtain ⟨answer, left, ended, decoded⟩ := ends_decoded engine dispensary policy keeps rows
    -- The scripted faults are the only failures, and the recorder sees all calls.
    obtain ⟨answer?, log, ⟨held, faults', calls⟩, ran, recorded⟩ :=
      (operation.careful engine dispensary policy keeps).run (Falters.holding engine).probe
        (Probe.mk (engine.holding rows) faults []) ⟨script, rfl⟩ ended
    cases recorded with
    | failed succeeded reports standing =>
      obtain ⟨_, rfl⟩ := standing
      refine ⟨_, _, rows, faults', calls, ran, ?_, fun all => ?_⟩
      · intro before call error later split
        -- Only the last call has failed, so the failure is that one.
        obtain ⟨nothing, rfl, rfl⟩ := Exchange.failed_unique succeeded split
        exact ⟨nothing, succeeded, rfl, _, reports, rfl, rfl, rfl⟩
      · exact absurd (all _ (List.mem_append_right _ (.head _))) Exchange.not_succeeded
    | succeeded all ended standing =>
      obtain ⟨rfl, rfl⟩ := ended
      obtain ⟨_, rfl⟩ := standing
      refine ⟨answer, log, _, faults', calls, ran, ?_, fun _ => decoded⟩
      rintro before call error later rfl
      exact absurd (all _ (List.mem_append_right _ (.head _))) Exchange.not_succeeded
  · have positive : 0 < Store.rounds store :=
      Nat.mul_pos (Nat.succ_pos _) (Nat.succ_pos (Store.rounds (engine.holding rows)))
    -- Neither program makes a call.
    simp only [walk, Dispensary.storeLegacy, Dispensary.legacyWrite?, off, Bool.false_eq_true, if_false,
      Walk.run_once _ positive]
    exact ⟨rfl, rfl⟩

/-- A take whose removal meets a conflict reports it, and the key is still there. -/
theorem fails_exact_conflict :
    let identity : Identity := ⟨List.replicate 16 0, rfl⟩
    let dispensary : Dispensary := ⟨{}⟩
    let key : EcKey := ⟨5, [6]⟩
    let rows := Rows.empty.insert (Row.of dispensary.ecPool.table (Pool.item identity .primary key))
    let error : StoreError := .conflict (.reported "busy")
    let faults : List ScriptedFault := [⟨.delete, none, 1, 1, .fail error, 0⟩]
    (¬ (takeEc identity .primary).isDeletion ∧ ∀ fault ∈ faults, ∃ error, fault.deed = .fail error) ∧
    ∃ answer log left faults' calls,
      ((takeEc identity .primary).walk dispensary {}).run
          (Recorder.mk (Probe.mk (Engine.memory.holding rows) faults []) []) =
        (some answer, ⟨⟨Engine.memory.holding left, faults', calls⟩, log⟩) ∧
      Handled .memory dispensary rows (takeEc identity .primary) answer log left := by
  intro identity dispensary key rows error faults
  -- The script has one fault, which is a failure.
  have script : ∀ fault ∈ faults, ∃ error, fault.deed = .fail error := by
    intro fault member
    obtain rfl := List.mem_singleton.1 member
    exact ⟨error, rfl⟩
  exact ⟨⟨Bool.false_ne_true, script⟩, (fails_exact .memory dispensary {} (takeEc identity .primary)
    Bool.false_ne_true rows faults script).1⟩

end Operation

end KeyDispensary
