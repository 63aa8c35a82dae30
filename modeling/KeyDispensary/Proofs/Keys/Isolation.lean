import KeyDispensary.Proofs.Keys.Exhaustion
import KeyDispensary.Proofs.Keys.Listings
import KeyDispensary.Proofs.Store.Reach
import Mathlib.Data.List.Nodup
import Mathlib.Tactic.Tauto

/-!
Operations keep to the keys that they are about, on any content. Whatever lies elsewhere is neither
changed nor noticed, and dispensaries with tables of their own do not notice each other. Main statement:
`Operation.isolated`.
-/

namespace KeyDispensary

/-- Whether a key is one of an identity's, in a table. -/
def RowKey.InPartition (table : String) (identity : Identity) (key : RowKey) : Prop :=
  key.table = table ∧ key.partition = identity.partition

/-- Whether a key is one of a device's pool: its sort key begins with the byte of the device. -/
def RowKey.InPool (table : String) (identity : Identity) (device : Device) (key : RowKey) : Prop :=
  key.InPartition table identity ∧ ∃ rest, key.sort = device.id :: rest

/-- Whether a key is a device's slot: its sort key is the byte of the device. -/
def RowKey.IsSlot (table : String) (identity : Identity) (device : Device) (key : RowKey) : Prop :=
  key.InPartition table identity ∧ key.sort = [device.id]

namespace Operation

/-- Whether a key is one that an operation is about. -/
def Reaches (dispensary : Dispensary) (policy : Policy) : Operation → RowKey → Prop
  | .storeEc identity device _, key | .takeEc identity device, key | .countEc identity device, key =>
    key.InPool dispensary.tables.ecPool identity device
  | .storePq identity device _, key | .countPq identity device, key =>
    key.InPool dispensary.tables.pqPool identity device
  | .takePq identity device, key => key.InPool dispensary.tables.pqPool identity device ∨
    key.IsSlot dispensary.tables.lastResort identity device
  | .storeLegacy identity device _, key =>
    policy.storesLegacy ∧ key.IsSlot dispensary.tables.legacy identity device
  | .findLegacy identity device, key => key.IsSlot dispensary.tables.legacy identity device
  | .storeLastResort identity device _, key | .findLastResort identity device, key =>
    key.IsSlot dispensary.tables.lastResort identity device
  | .listDevices identity, key | .streamDevices identity _, key =>
    key.InPartition dispensary.tables.lastResort identity
  | .deletePools identity, key => key.InPartition dispensary.tables.ecPool identity ∨
    key.InPartition dispensary.tables.pqPool identity
  | .deleteDevicePools identity device, key => key.InPool dispensary.tables.ecPool identity device ∨
    key.InPool dispensary.tables.pqPool identity device
  | .deleteAccount identity, key => key.InPartition dispensary.tables.ecPool identity ∨
    key.InPartition dispensary.tables.pqPool identity ∨
    key.InPartition dispensary.tables.lastResort identity ∨
    policy.deletesLegacy ∧ key.InPartition dispensary.tables.legacy identity
  | .legacyWrite _ _ _, _ | .lastResortWrite _ _ _, _ | .newDeviceWrites _ _ _ _, _
  | .removedDeviceWrites _ _ _, _ => False

end Operation

variable {κ : Type} {engine : Engine} {reach : RowKey → Prop} {identity : Identity} {device : Device}

/-! ### Pools -/

namespace Pool

variable {pool : Pool κ}

/-- A pool owns the rows whose keys are in it. -/
theorem inPool_iff {row : Row} :
    row.key.InPool pool.table identity device ↔ pool.owns identity device row :=
  and_assoc.trans owns_iff.symm

/-- The range of a device is its pool. -/
theorem rangeWithin (within : ∀ key : RowKey, key.InPool pool.table identity device → reach key) :
    RangeWithin reach pool.table identity.partition device.lead :=
  fun key begins => within key (inPool_iff.2 begins)

section
variable [Record κ]

/-- Storing keys keeps to the pool. -/
theorem store_staysWithin (keys : List κ)
    (within : ∀ key : RowKey, key.InPool pool.table identity device → reach key) :
    (pool.store identity device keys).StaysWithin engine reach := by
  -- The range is that of the pool, and so is every item that is put.
  refine ⟨⟨rangeWithin within, fun item member => ?_⟩, fun _ => trivial⟩
  obtain ⟨key, _, rfl⟩ := List.mem_map.1 member
  exact within _ ⟨⟨rfl, rfl⟩, _, rfl⟩

/-- Claiming candidates keeps to their keys. -/
theorem claim_staysWithin {candidates : List Item} (last : Option Bytes)
    (within : ∀ candidate ∈ candidates, reach (RowKey.of pool.table candidate.key)) :
    (pool.claim candidates last).StaysWithin engine reach := by
  -- The candidates are claimed one by one, each by its own key.
  induction candidates with
  | nil => cases last <;> trivial
  | cons candidate rest ih =>
    have later := ih fun other member => within other (.tail _ member)
    refine ⟨within candidate (.head _), fun rows => ?_⟩
    simp only [Engine.answer]
    -- The take goes on only if the candidate was lost.
    cases rows.get? (RowKey.of pool.table candidate.key) with
    | none => exact later
    | some value => trivial

/-- A take keeps to the pool, since its candidates are rows of the pool. -/
theorem take_confined
    (within : ∀ key : RowKey, key.InPool pool.table identity device → reach key) :
    (pool.take identity device).Confined engine reach := by
  refine ⟨fun after => ⟨rangeWithin within, fun rows => claim_staysWithin _ fun item member => ?_⟩⟩
  have shown : item ∈ ((engine.found rows (pool.asked identity device after)).map Row.item) :=
    List.mem_of_mem_take (Engine.page_items 1 _ ▸ member)
  obtain ⟨row, found, rfl⟩ := List.mem_map.1 shown
  rw [found_asked] at found
  -- A candidate was found by the query, so it is a row of the pool.
  have owned := (mem_contents.1 (List.mem_filter.1 found).1).2
  rw [rowKey_of_owned owned]
  exact within row.key (inPool_iff.2 owned)

/-- A take comes to its end. -/
theorem take_ends (engine : Engine) (pool : Pool κ) (identity : Identity) (device : Device) :
    (pool.take identity device).Ends engine := by
  -- The first candidate is won, since nobody else is at work.
  refine ⟨fun rows => ?_⟩
  rw [take_run]
  cases pool.contents identity device rows with
  | nil => exact ⟨_, _, rfl⟩
  | cons row rest => exact ⟨_, _, rfl⟩

end

/-- Counting keys keeps to the pool. -/
theorem count_staysWithin
    (within : ∀ key : RowKey, key.InPool pool.table identity device → reach key) :
    (pool.count identity device).StaysWithin engine reach :=
  ⟨rangeWithin within, fun _ => trivial⟩

/-- Deleting the pool of a device keeps to it. -/
theorem deleteDevice_staysWithin
    (within : ∀ key : RowKey, key.InPool pool.table identity device → reach key) :
    (pool.deleteDevice identity device).StaysWithin engine reach := by
  refine ⟨fun write member => ?_, fun _ => trivial⟩
  obtain rfl := List.mem_singleton.1 member
  exact rangeWithin within

end Pool

/-- The range of all sort keys of an identity is its partition. -/
theorem rangeWithin_partition {table : String}
    (within : ∀ key : RowKey, key.InPartition table identity → reach key) :
    RangeWithin reach table identity.partition [] := by
  intro key begins
  have inside := (Bool.and_eq_true_iff.1 begins).1
  simp only [Row.within, Bool.and_eq_true, decide_eq_true_eq] at inside
  exact within key inside

/-- Deleting all rows of an identity in a table keeps to its partition. -/
theorem deletePartition_staysWithin {table : String}
    (within : ∀ key : RowKey, key.InPartition table identity → reach key) :
    Program.StaysWithin engine reach (.ask (.transact [.deleteRange table identity.partition []])
      Pool.settled) := by
  refine ⟨fun write member => ?_, fun _ => trivial⟩
  obtain rfl := List.mem_singleton.1 member
  exact rangeWithin_partition within

/-! ### Slots -/

namespace Slots

variable {slots : Slots κ}

section
variable [Record κ]

/-- Filling a slot keeps to it. -/
theorem store_staysWithin (key : κ)
    (within : ∀ key : RowKey, key.IsSlot slots.table identity device → reach key) :
    (slots.store identity device key).StaysWithin engine reach :=
  ⟨within _ ⟨⟨rfl, rfl⟩, rfl⟩, fun _ => trivial⟩

/-- Reading a slot keeps to it. -/
theorem find_staysWithin
    (within : ∀ key : RowKey, key.IsSlot slots.table identity device → reach key) :
    (slots.find identity device).StaysWithin engine reach := by
  -- One key is read, and then no further call is made.
  refine ⟨within _ ⟨⟨rfl, rfl⟩, rfl⟩, fun rows => ?_⟩
  simp only [Engine.answer]
  cases rows.get? (RowKey.of slots.table (slotKey identity device)) <;> trivial

end

/-- A listing keeps to the partition of its identity. -/
theorem list_confined (wanted : Option Nat)
    (within : ∀ key : RowKey, key.InPartition slots.table identity → reach key) :
    (slots.list identity wanted).Confined engine reach := by
  -- A round makes one query at most, for the partition of the identity.
  refine ⟨fun place => ?_⟩
  have round : (slots.list identity wanted).round place = slots.listFrom identity wanted place := rfl
  rw [round, listFrom]
  split
  · trivial
  · exact ⟨rangeWithin_partition within, fun _ => trivial⟩

/-- A listing comes to its end. -/
theorem list_ends (engine : Engine) (slots : Slots κ) (identity : Identity) (wanted : Option Nat) :
    (slots.list identity wanted).Ends engine := by
  refine ⟨fun rows => ?_⟩
  obtain ⟨listing, ran, _⟩ := list_run engine slots identity wanted rows
  exact ⟨listing, rows, ran⟩

end Slots

/-- Two programs one after another stay where both stay. -/
theorem Dispensary.both_staysWithin {first second : Program (Except KeyError Unit)}
    (stays : first.StaysWithin engine reach) (stays' : second.StaysWithin engine reach) :
    (both first second).StaysWithin engine reach :=
  stays.bind fun _ => stays'.map _

/-! ### Operations -/

namespace Operation

variable {dispensary : Dispensary} {policy : Policy}

/-- Every operation keeps to the keys that it is about. -/
theorem confined (engine : Engine) (dispensary : Dispensary) (policy : Policy)
    (operation : Operation) :
    (operation.walk dispensary policy).Confined engine (operation.Reaches dispensary policy) := by
  -- Each operation is put together of parts whose reach is known.
  cases operation with
  | storeEc | storePq => exact Walk.confined_once (Pool.store_staysWithin _ fun _ inside => inside)
  | takeEc => exact Pool.take_confined fun _ inside => inside
  | takePq identity device =>
    change (dispensary.takePq identity device).Confined _ _
    rw [Dispensary.takePq_eq]
    refine (Pool.take_confined fun _ inside => .inl inside).andThen fun answer => ?_
    -- Only a take that finds the pool empty reads the last-resort key.
    rcases answer with error | none | key
    · trivial
    · exact Slots.find_staysWithin fun _ slot => .inr slot
    · trivial
  | countEc | countPq => exact Walk.confined_once (Pool.count_staysWithin fun _ inside => inside)
  | storeLegacy identity device key =>
    refine Walk.confined_once ?_
    rw [Dispensary.storeLegacy]
    split
    · rename_i stores
      exact Slots.store_staysWithin key fun _ slot => ⟨stores, slot⟩
    · trivial
  | storeLastResort identity device key =>
    exact Walk.confined_once (Slots.store_staysWithin key fun _ slot => slot)
  | findLegacy | findLastResort =>
    exact Walk.confined_once (Slots.find_staysWithin fun _ slot => slot)
  | listDevices identity =>
    exact Walk.Confined.andThen (Slots.list_confined none fun _ inside => inside) fun _ => trivial
  | streamDevices => exact Slots.list_confined _ fun _ inside => inside
  -- Deletions keep to the partition of their identity, in each of their tables.
  | deletePools =>
    exact Walk.confined_once (Dispensary.both_staysWithin
      (deletePartition_staysWithin fun _ inside => .inl inside)
      (deletePartition_staysWithin fun _ inside => .inr inside))
  | deleteDevicePools =>
    exact Walk.confined_once (Dispensary.both_staysWithin
      (Pool.deleteDevice_staysWithin fun _ inside => .inl inside)
      (Pool.deleteDevice_staysWithin fun _ inside => .inr inside))
  | deleteAccount identity =>
    refine Walk.confined_once (Dispensary.both_staysWithin (Dispensary.both_staysWithin
      (Dispensary.both_staysWithin (deletePartition_staysWithin fun _ inside => .inl inside)
        (deletePartition_staysWithin fun _ inside => .inr (.inl inside)))
      (deletePartition_staysWithin fun _ inside => .inr (.inr (.inl inside)))) ?_)
    rw [Dispensary.deleteLegacy]
    split
    · rename_i deletes
      exact deletePartition_staysWithin fun _ inside => .inr (.inr (.inr ⟨deletes, inside⟩))
    · trivial
  | legacyWrite | lastResortWrite | newDeviceWrites | removedDeviceWrites =>
    exact Walk.confined_once trivial

/-- Every operation comes to its end. -/
theorem ends (engine : Engine) (dispensary : Dispensary) (policy : Policy) (operation : Operation) :
    (operation.walk dispensary policy).Ends engine := by
  -- Takes and listings end on every content, and the others have one round.
  cases operation with
  | takeEc => exact Pool.take_ends ..
  | takePq => exact (Pool.take_ends engine dispensary.pqPool _ _).andThen
  | listDevices => exact (Slots.list_ends engine dispensary.lastResort _ none).andThen
  | streamDevices => exact Slots.list_ends ..
  | _ => exact Walk.ends_once ..

/-- What an operation is about lies in the tables of its dispensary. -/
theorem table_of_reaches {operation : Operation} {key : RowKey}
    (reaches : operation.Reaches dispensary policy key) : key.table ∈ dispensary.tables.names := by
  -- An operation reaches keys of the tables of its dispensary only.
  obtain ⟨table, partition, sort⟩ := key
  cases operation <;>
    simp only [Reaches, RowKey.InPool, RowKey.IsSlot, RowKey.InPartition] at reaches <;>
    simp only [Tables.names, List.mem_cons] <;> tauto

/-- What an operation changes, and what its answer depends on. -/
structure Isolated (engine : Engine) (dispensary : Dispensary) (policy : Policy)
    (operation : Operation) : Prop where
  /-- Every row is as it was, except for those that the operation is about. -/
  unchanged : ∀ rows, ∃ answer left,
    (operation.walk dispensary policy).run (engine.holding rows) =
      (some answer, engine.holding left) ∧
    ∀ key, ¬ operation.Reaches dispensary policy key → left.get? key = rows.get? key
  /-- Contents that agree on what it is about give the same answer and the same new rows. -/
  unnoticed : ∀ rows rows' : Rows, rows.AgreeOn (operation.Reaches dispensary policy) rows' →
    ∃ answer left left',
      (operation.walk dispensary policy).run (engine.holding rows) =
        (some answer, engine.holding left) ∧
      (operation.walk dispensary policy).run (engine.holding rows') =
        (some answer, engine.holding left') ∧
      left.AgreeOn (operation.Reaches dispensary policy) left'

/-- An operation of some dispensary, under a policy of its own. -/
structure Job where
  dispensary : Dispensary
  policy : Policy
  operation : Operation

/-- A job that has made no call yet. -/
def Job.task (job : Job) : Task :=
  job.operation.task job.dispensary job.policy

/-- Whether somebody's job is one of a dispensary. -/
def Job.isOf (jobs : List Job) (dispensary : Dispensary) (who : Nat) : Bool :=
  (jobs[who]?.map Job.dispensary) = some dispensary

/-- Jobs of a dispensary ignore those of dispensaries with tables of their own. -/
theorem ignores (engine : Engine) {jobs : List Job}
    (apart : ∀ job ∈ jobs, job.dispensary = dispensary ∨
      job.dispensary.tables.names.Disjoint dispensary.tables.names) (rows : Rows) :
    Crew.Ignores engine (fun key => key.table ∈ dispensary.tables.names) (Job.isOf jobs dispensary)
      (Crew.begun (engine.holding rows) (jobs.map Job.task))
      (Crew.begun (engine.holding rows) (jobs.map Job.task)) := by
  -- A job of the dispensary reaches its tables only, and one of another reaches none of them.
  have confined (job : Job) : job.task.Confined engine
      (job.operation.Reaches job.dispensary job.policy) :=
    (job.operation.confined engine job.dispensary job.policy).begun
  have holds : engine.holding rows = engine.holding (engine.rows (engine.holding rows)) := by
    rw [Engine.rows_holding]
  refine ⟨holds, holds, fun _ _ => rfl, fun _ _ => rfl, fun who task mine found => ?_,
    fun who task theirs found => ?_⟩
  · obtain ⟨job, present, rfl⟩ := Option.map_eq_some_iff.1 (List.getElem?_map.symm.trans found)
    have own : job.dispensary = dispensary := by simpa [Job.isOf, present] using mine
    exact (confined job).mono fun key reaches => own ▸ table_of_reaches reaches
  · obtain ⟨job, present, rfl⟩ := Option.map_eq_some_iff.1 (List.getElem?_map.symm.trans found)
    have other : job.dispensary ≠ dispensary := by simpa [Job.isOf, present] using theirs
    -- The tables of another dispensary are none of this one's.
    have disjoint := (apart job (List.mem_of_getElem? present)).resolve_left other
    exact (confined job).mono fun key reaches inside => disjoint (table_of_reaches reaches) inside

/--
Operations on any content keep to what they are about: nothing else changes, and nothing else matters.

In particular, whatever operations of dispensaries with tables of their own go on at the same time, and
however their calls are interleaved, those of one dispensary go on as if the others had no turns, and its
tables hold what they would hold without the others.
-/
theorem isolated (engine : Engine) (dispensary : Dispensary) :
    (∀ policy operation, Isolated engine dispensary policy operation) ∧
    ∀ (jobs : List Job) (rows : Rows) (schedule : List Nat),
      (∀ job ∈ jobs, job.dispensary = dispensary ∨
        job.dispensary.tables.names.Disjoint dispensary.tables.names) →
      let own := Job.isOf jobs dispensary
      let crew := Crew.begun (engine.holding rows) (jobs.map Job.task)
      (∀ who, own who →
        (crew.run schedule).tasks[who]? = (crew.run (schedule.filter own)).tasks[who]?) ∧
      ∀ key : RowKey, key.table ∈ dispensary.tables.names →
        (engine.rows (crew.run schedule).store).get? key =
          (engine.rows (crew.run (schedule.filter own)).store).get? key := by
  -- One operation by itself is confined; among others, those elsewhere are ignored.
  refine ⟨fun policy operation => ?_, fun jobs rows schedule apart => ?_⟩
  · have confined := operation.confined engine dispensary policy
    have ends := operation.ends engine dispensary policy
    exact ⟨confined.run ends, fun rows rows' agree => confined.run_alike ends agree⟩
  · have ran := (ignores engine apart rows).run schedule
    exact ⟨ran.same, ran.agree⟩

/--
A take removes its key as if a dispensary with other tables did not delete the keys of the same device
meanwhile, which are gone in the end.
-/
theorem isolated_deletion :
    let identity : Identity := ⟨List.replicate 16 0, rfl⟩
    let dispensary : Dispensary := ⟨⟨"a", "b", "c", "d"⟩⟩
    let other : Dispensary := ⟨⟨"e", "f", "g", "h"⟩⟩
    let place := poolKey identity .primary 5
    let value := Record.encode (⟨5, [1]⟩ : EcKey)
    let rows := (Rows.empty.putAll "a" [⟨place, value⟩]).putAll "e" [⟨place, value⟩]
    let jobs : List Job := [⟨dispensary, {}, .takeEc identity .primary⟩,
      ⟨other, {}, .deleteAccount identity⟩]
    let crew := Crew.begun (Engine.memory.holding rows) (jobs.map Job.task)
    let schedule := [1, 0, 1, 0, 1, 1]
    let left := Engine.memory.rows (crew.run schedule).store
    (∀ job ∈ jobs, job.dispensary = dispensary ∨
      job.dispensary.tables.names.Disjoint dispensary.tables.names) ∧
    (crew.run schedule).tasks[0]? = (crew.run [0, 0]).tasks[0]? ∧
    left.get? (RowKey.of "a" place) =
      (Engine.memory.rows (crew.run [0, 0]).store).get? (RowKey.of "a" place) ∧
    removals (crew.run schedule).log = [(0, ⟨RowKey.of "a" place, value⟩)] ∧
    left.get? (RowKey.of "e" place) = none := by
  intro identity dispensary other place value rows jobs crew schedule left
  have apart : ∀ job ∈ jobs, job.dispensary = dispensary ∨
      job.dispensary.tables.names.Disjoint dispensary.tables.names := by
    simp [jobs, other, dispensary, Tables.names, List.Disjoint]
  obtain ⟨same, agree⟩ := (isolated .memory dispensary).2 jobs rows schedule apart
  -- The first job is the only one of the dispensary, and its table is one of the dispensary's.
  exact ⟨apart, same 0 rfl, agree _ (.head _), by decide +kernel, by decide +kernel⟩

end Operation

end KeyDispensary
