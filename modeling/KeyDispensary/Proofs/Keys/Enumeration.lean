import KeyDispensary.Dispensary
import KeyDispensary.Proofs.Keys.Sightings
import KeyDispensary.Proofs.Store.Restraint
import KeyDispensary.Proofs.Store.Writing

/-!
A listing of devices while others store, add, remove and delete keys. Main statement:
`Dispensary.lists_amid_changes`, what the pages of the listing add up to.
-/

namespace KeyDispensary

variable {κ : Type}

/-! ### The pages of a listing in a log -/

section Log
variable {engine : Engine}

/-- The devices that a call showed, if it asked for devices. -/
def Event.devices : Event engine.State → List Device
  | ⟨_, _, .query query, .ok page⟩ =>
    match devicesOf query.table page.items with
    | .ok devices => devices
    | .error _ => []
  | _ => []

/-- The pages that a caller has read, the first first. -/
def sightings (who : Nat) (log : List (Event engine.State)) : List Sighting :=
  (log.reverse.filter fun event => event.who = who).map fun event =>
    ⟨engine.rows event.store, event.devices⟩

/-- A call of another is none of the caller's. -/
theorem sightings_other {who : Nat} {event : Event engine.State} (apart : event.who ≠ who)
    (log : List (Event engine.State)) : sightings who (event :: log) = sightings who log := by
  simp [sightings, apart]

end Log

/-! ### Changes made by others -/

/-- Whether a call puts items under no sort keys but those of devices. -/
def Call.PutsSlots (call : Call) : Prop :=
  ∀ item ∈ call.items, item.key.sort.length = 1

/-- Where all sort keys have one byte, they do so after a call that puts no others. -/
theorem Slots.Shaped.answer {slots : Slots κ} {identity : Identity} {rows : Rows}
    (shaped : slots.Shaped identity rows) (engine : Engine) {call : Call} (puts : call.PutsSlots) :
    slots.Shaped identity (engine.answer rows call).2 := by
  -- A row that is left was there before, or its item was put by the call.
  intro row member table partition
  rcases Engine.mem_answer member with before | written
  · exact shaped row before table partition
  · exact puts row.item (Call.mem_items written)

/-- Two programs of which one is run after the other make the calls of both. -/
theorem Dispensary.makesOnly_both {allowed : Call → Prop}
    {first second : Program (Except KeyError Unit)} (makes : first.MakesOnly allowed)
    (makes' : second.MakesOnly allowed) : (both first second).MakesOnly allowed :=
  makes.bind fun _ => makes'.map _

/-- A device that is added to an account or removed from it. -/
inductive DeviceChange where
  | added (policy : Policy) (account phone : Identity) (device : Device)
    (keys : Dispensary.NewDevice)
  | removed (policy : Policy) (account phone : Identity) (device : Device)

/-- The writes that make a change. -/
def DeviceChange.writes (dispensary : Dispensary) : DeviceChange → List Write
  | .added policy account phone device keys =>
    dispensary.newDeviceWrites policy account phone device keys
  | .removed policy account phone device =>
    dispensary.removedDeviceWrites policy account phone device

/-- What a caller may do that changes which devices have a last-resort key. -/
inductive Turnover where
  | storeLastResort (identity : Identity) (device : Device) (key : SignedKemKey)
  | commit (changes : List DeviceChange)
  | deleteAccount (policy : Policy) (identity : Identity)

/-- The program of a caller; several changes are committed in one transaction. -/
def Turnover.program (dispensary : Dispensary) : Turnover → Program (Except KeyError Unit)
  | .storeLastResort identity device key => dispensary.lastResort.store identity device key
  | .commit changes => .ask (.transact (changes.flatMap (DeviceChange.writes dispensary))) Pool.settled
  | .deleteAccount policy identity => dispensary.deleteAccount policy identity

/-- A listing of all devices of an identity and callers beside it, none of whom has had a turn. -/
def Dispensary.listingAmid (dispensary : Dispensary) (engine : Engine) (identity : Identity)
    (rows : Rows) (others : List Turnover) : Crew engine.State :=
  .begun (engine.holding rows) (.begun (dispensary.lastResort.list identity none) ::
    others.map fun turnover => .begun (.once (turnover.program dispensary)))

/-- Whether a write puts no item but under the sort key of a device. -/
def Write.PutsSlot (write : Write) : Prop :=
  ∀ item ∈ write.item?, item.key.sort.length = 1

/-- The write that fills a slot puts its item. -/
theorem Slots.putsSlot_put [Record κ] (slots : Slots κ) (identity : Identity) (device : Device)
    (key : κ) : (slots.putWrite identity device key).PutsSlot := by
  rintro item ⟨⟩
  rfl

/-- The write that empties a slot puts nothing. -/
theorem Slots.putsSlot_delete (slots : Slots κ) (identity : Identity) (device : Device) :
    (slots.deleteWrite identity device).PutsSlot := by
  rintro item ⟨⟩

/-- The writes of a change put items into slots only. -/
theorem DeviceChange.putsSlot (dispensary : Dispensary) (change : DeviceChange) :
    ∀ write ∈ change.writes dispensary, write.PutsSlot := by
  -- The policy decides whether legacy keys are written as well.
  cases change with
  | added policy account phone device keys =>
    cases legacy : policy.storesLegacy <;>
      simp [writes, Dispensary.newDeviceWrites, legacy, Slots.putsSlot_put]
  | removed policy account phone device =>
    cases legacy : policy.deletesLegacy <;>
      simp [writes, Dispensary.removedDeviceWrites, legacy, Slots.putsSlot_delete]

/-- Deleting a range puts nothing. -/
theorem Pool.makesOnly_deletion (table : String) (partition lead : Bytes) :
    Program.MakesOnly Call.PutsSlots (.ask (.transact [.deleteRange table partition lead]) settled) :=
  ⟨fun _ member => absurd member List.not_mem_nil, fun _ => trivial⟩

/-- A caller puts items into slots only. -/
theorem Turnover.makesOnly (dispensary : Dispensary) (turnover : Turnover) :
    (turnover.program dispensary).MakesOnly Call.PutsSlots := by
  cases turnover with
  | storeLastResort identity device key =>
    refine ⟨fun item member => ?_, fun _ => trivial⟩
    obtain rfl := List.mem_singleton.1 member
    rfl
  | commit changes =>
    refine ⟨fun item member => ?_, fun _ => trivial⟩
    -- Every item of the transaction is put by a write of one of its changes.
    obtain ⟨write, member, puts⟩ := List.mem_filterMap.1 member
    obtain ⟨change, _, member⟩ := List.mem_flatMap.1 member
    exact change.putsSlot dispensary write member item puts
  | deleteAccount policy identity =>
    -- Each of the four tables has its range deleted, the legacy one if the policy is to do so.
    have legacy : (dispensary.deleteLegacy policy identity).MakesOnly Call.PutsSlots := by
      unfold Dispensary.deleteLegacy
      split
      · exact Pool.makesOnly_deletion ..
      · exact trivial
    exact Dispensary.makesOnly_both (Dispensary.makesOnly_both (Dispensary.makesOnly_both
      (Pool.makesOnly_deletion ..) (Pool.makesOnly_deletion ..)) (Pool.makesOnly_deletion ..)) legacy

/-! ### Turn by turn -/

namespace Slots

variable {engine : Engine} {slots : Slots κ} {identity : Identity} {rows : Rows} {turns : Nat}
  {crew : Crew engine.State} {who : Nat}

/-- A turn of a listing reads the page after its place. -/
theorem step_list {place : ListingPlace} {tasks : List Task} {log : List (Event engine.State)}
    (found : tasks[who]? =
      some ⟨_, _, slots.list identity none, slots.listFrom identity none place⟩) :
    Crew.step ⟨engine.holding rows, tasks, log⟩ who =
      ⟨engine.holding rows, tasks.set who ⟨_, _, slots.list identity none,
          (slots.list identity none).onward
            (.done (slots.afterPage none place.listed
              (slots.pageAfter engine identity rows place.after)))⟩,
        ⟨who, engine.holding rows, .query (slots.asked identity place.after),
          .ok (slots.pageAfter engine identity rows place.after)⟩ :: log⟩ := by
  -- No number of devices is enough for a listing of all, so it asks for a page.
  rw [listFrom, if_neg (by simp [isEnough])] at found
  rw [Crew.step_ask found]
  simp only [Engine.perform_holding]
  rfl

/-- Where a listing may stand after a number of turns, by the pages that it has read. -/
inductive Stands (slots : Slots κ) (identity : Identity) (turns : Nat) :
    List Sighting → Task → Prop where
  /-- Each turn has read a page, and another one is to be read. -/
  | reading {pages : List Sighting} {after : Option Bytes}
    (reading : slots.Reading identity pages after) (each : pages.length = turns) :
    Stands slots identity turns pages ⟨_, _, slots.list identity none,
      slots.listFrom identity none ⟨sighted pages, after⟩⟩
  | ended {pages : List Sighting} (enumerates : slots.Enumerates identity pages) :
    Stands slots identity turns pages
      (.ended (slots.list identity none) ⟨sighted pages, .exhausted⟩)

/-- What holds of a listing and the callers beside it at all times. -/
structure Amid (engine : Engine) (slots : Slots κ) (identity : Identity) (turns : Nat)
    (crew : Crew engine.State) : Prop where
  holds : crew.store = engine.holding (engine.rows crew.store)
  shaped : slots.Shaped identity (engine.rows crew.store)
  stands : ∃ task, crew.tasks[0]? = some task ∧
    slots.Stands identity turns (sightings 0 crew.log) task
  others : ∀ (who : Nat) (task : Task), who ≠ 0 → crew.tasks[who]? = some task →
    task.MakesOnly Call.PutsSlots

/-- A listing that reads on has a place to go on from, and one that does not has ended. -/
theorem Continues.stands {pages : List Sighting} {progress : Progress ListingPlace Listing}
    (continues : slots.Continues identity pages progress) (each : pages.length = turns) :
    slots.Stands identity turns pages
      ⟨_, _, slots.list identity none, (slots.list identity none).onward (.done progress)⟩ := by
  cases continues with
  | ends enumerates => exact .ended enumerates
  | goesOn reading => exact .reading reading each

/-- A call that showed the page after a place showed the devices of the page. -/
theorem sightings_page {after : Option Bytes} {shown : List Device} {log : List (Event engine.State)}
    (devices : devicesOf slots.table (slots.pageAfter engine identity rows after).items = .ok shown) :
    sightings who (⟨who, engine.holding rows, .query (slots.asked identity after),
      .ok (slots.pageAfter engine identity rows after)⟩ :: log) =
        sightings who log ++ [⟨rows, shown⟩] := by
  simp [sightings, Event.devices, asked, devices]

/-- A turn of the listing reads a page or changes nothing. -/
theorem Amid.own (amid : Amid engine slots identity turns crew) :
    Amid engine slots identity (turns + 1) (crew.step 0) := by
  obtain ⟨store, tasks, log⟩ := crew
  obtain ⟨task, found, stands⟩ := amid.stands
  generalize pages : sightings 0 log = read at stands
  cases stands with
  | ended enumerates =>
    -- What has ended stays as it is, and the number of its turns does not matter.
    rw [Crew.step_ended found]
    refine ⟨amid.holds, amid.shaped, ⟨_, found, ?_⟩, amid.others⟩
    rw [← pages] at enumerates ⊢
    exact .ended enumerates
  | reading reading each =>
    obtain ⟨shown, devices, continues⟩ := reading.page amid.shaped engine
    have holds : store = engine.holding (engine.rows store) := amid.holds
    have shaped : slots.Shaped identity (engine.rows store) := amid.shaped
    have others := amid.others
    generalize engine.rows store = rows at holds shaped devices continues
    subst holds
    -- The turn queries the rows as they are now.
    rw [step_list found]
    have present := (List.getElem?_eq_some_iff.1 found).1
    refine ⟨by rw [Engine.rows_holding], by rwa [Engine.rows_holding],
      ⟨_, List.getElem?_set_self present, ?_⟩, ?_⟩
    · -- The query leaves the rows as they are, and its page is the next one of the listing.
      rw [sightings_page devices, pages]
      exact continues.stands (by rw [List.length_append, each]; rfl)
    · intro who task apart present
      exact others who task apart ((List.getElem?_set_ne apart.symm).symm.trans present)

/-- A turn of another makes at most one call, which puts items into slots only. -/
theorem Amid.other (amid : Amid engine slots identity turns crew) (apart : who ≠ 0) :
    Amid engine slots identity turns (crew.step who) := by
  cases found : crew.tasks[who]? with
  | none => rwa [Crew.step_nobody found]
  | some task =>
    have restrained := Crew.step_restrained found (amid.others who task apart found)
    -- The listing stands where it stood, for neither its task nor its calls change.
    obtain ⟨first, here, placed⟩ := amid.stands
    generalize crew.step who = next at restrained
    have stays (task : Task) : (crew.tasks.set who task)[0]? = some first :=
      (List.getElem?_set_ne apart).trans here
    have others {next : Task} (makes : next.MakesOnly Call.PutsSlots) (other : Nat) (task : Task)
        (apart : other ≠ 0) (present : (crew.tasks.set who next)[other]? = some task) :
        task.MakesOnly Call.PutsSlots := by
      by_cases same : who = other
      · subst same
        rw [List.getElem?_set_self (List.getElem?_eq_some_iff.1 found).1] at present
        exact Option.some.inj present ▸ makes
      · exact amid.others other task apart ((List.getElem?_set_ne same).symm.trans present)
    cases restrained with
    | idle makes => exact ⟨amid.holds, amid.shaped, ⟨first, stays _, placed⟩, others makes⟩
    -- A call that puts slots only leaves the sort keys of devices as short as they were.
    | made puts makes =>
      rw [amid.holds, Engine.perform_holding]
      refine ⟨by rw [Engine.rows_holding], ?_, ⟨first, stays _, ?_⟩, others makes⟩
      · rw [Engine.rows_holding]
        exact amid.shaped.answer engine puts
      · rwa [sightings_other apart]

/-- Whatever the schedule, the listing has had its turns and the others theirs. -/
theorem Amid.run (amid : Amid engine slots identity turns crew) (schedule : List Nat) :
    Amid engine slots identity (turns + schedule.count 0) (crew.run schedule) := by
  -- The schedule is followed turn by turn, and only the turns of the listing are counted.
  induction schedule generalizing crew turns with
  | nil => exact amid
  | cons who rest ih =>
    by_cases own : who = 0
    · subst own
      -- The turn of the listing counts once.
      have after := ih amid.own
      rwa [List.count_cons_self, Nat.add_comm (rest.count 0), ← Nat.add_assoc]
    · have after := ih (amid.other own)
      rwa [List.count_cons_of_ne own]

/-- The pages of a listing are sound at all times, and they are no more than sixteen. -/
theorem Stands.sound {pages : List Sighting} {task : Task}
    (stands : slots.Stands identity turns pages task) :
    slots.Sound identity pages ∧ pages.length ≤ 16 := by
  cases stands with
  | reading reading => exact ⟨reading.toSound, Nat.le_of_lt reading.unfinished⟩
  | ended enumerates => exact ⟨enumerates.toSound, enumerates.few⟩

/-- A listing that has ended has listed the devices of its pages. -/
theorem Stands.of_ended {pages : List Sighting} {listing : Listing}
    (stands : slots.Stands identity turns pages (.ended (slots.list identity none) listing)) :
    listing = ⟨sighted pages, .exhausted⟩ ∧ slots.Enumerates identity pages := by
  generalize same : Task.ended (slots.list identity none) listing = task at stands
  cases stands with
  | reading =>
    -- A listing that has a page to ask for has not ended.
    simp [Task.ended, listFrom, isEnough] at same
  | ended enumerates => exact ⟨by simpa [Task.ended] using same, enumerates⟩

/-- A listing that has had sixteen turns has ended. -/
theorem Stands.of_turns {pages : List Sighting} {task : Task}
    (stands : slots.Stands identity turns pages task) (enough : 16 ≤ turns) :
    ∃ listing, task = .ended (slots.list identity none) listing := by
  cases stands with
  | reading reading each =>
    -- Each turn has read a page, and there is no room for another one.
    have unfinished := reading.unfinished
    omega
  | ended => exact ⟨_, rfl⟩

/-- What holds of a listing that has had a number of turns, by the pages that it has read. -/
structure ListedAmid {engine : Engine} (slots : Slots κ) (identity : Identity) (turns : Nat)
    (crew : Crew engine.State) : Prop where
  /-- The devices of its pages ascend, and each of them had a key when its page was read. -/
  sound : slots.Sound identity (sightings 0 crew.log)
  few : (sightings 0 crew.log).length ≤ 16
  /-- It ends with these devices, and every device that had a key at each page is among them. -/
  listed : ∀ listing, crew.tasks[0]? = some (.ended (slots.list identity none) listing) →
    listing = ⟨sighted (sightings 0 crew.log), .exhausted⟩ ∧
      slots.Enumerates identity (sightings 0 crew.log)
  ends : 16 ≤ turns → ∃ listing,
    crew.tasks[0]? = some (.ended (slots.list identity none) listing)

/-- Where the listing stands tells what its pages add up to. -/
theorem Amid.listedAmid (amid : Amid engine slots identity turns crew) :
    slots.ListedAmid identity turns crew := by
  obtain ⟨task, found, stands⟩ := amid.stands
  refine ⟨stands.sound.1, stands.sound.2, fun listing ended => ?_, fun enough => ?_⟩
  · -- The listing has ended where it stands.
    obtain rfl := Option.some.inj (found.symm.trans ended)
    exact stands.of_ended
  · -- With sixteen turns it cannot still be reading.
    obtain ⟨listing, rfl⟩ := stands.of_turns enough
    exact ⟨listing, found⟩

end Slots

namespace Dispensary

/-- Before anybody has had a turn, the listing has read no page. -/
theorem amid_begun (dispensary : Dispensary) (engine : Engine) {identity : Identity} {rows : Rows}
    (shaped : dispensary.lastResort.Shaped identity rows) (others : List Turnover) :
    Slots.Amid engine dispensary.lastResort identity 0
      (dispensary.listingAmid engine identity rows others) where
  holds := by rw [listingAmid, Crew.begun, Engine.rows_holding]
  shaped := by rwa [listingAmid, Crew.begun, Engine.rows_holding]
  stands := ⟨_, rfl, .reading (Slots.reading_nil dispensary.lastResort identity) rfl⟩
  others who task apart present := by
    -- Whoever is not the listing is one of the others, who stand behind it.
    obtain ⟨other, rfl⟩ := Nat.exists_eq_succ_of_ne_zero apart
    obtain ⟨turnover, _, rfl⟩ := List.mem_map.1 (List.mem_of_getElem? present)
    exact Task.makesOnly_once (turnover.makesOnly dispensary)

/--
A listing of all devices of an identity, beside others who store last-resort keys, add and remove devices
and delete accounts, whatever the order of their calls.

At all times the devices of the pages that it has read ascend, and each of them had a key when its page
was read. After at most sixteen pages it ends with these devices, among which is every device that had a
key whenever a page was read.
-/
theorem lists_amid_changes (engine : Engine) (dispensary : Dispensary) (identity : Identity)
    (rows : Rows) (shaped : dispensary.lastResort.Shaped identity rows) (others : List Turnover)
    (schedule : List Nat) :
    dispensary.lastResort.ListedAmid identity (schedule.count 0)
      ((dispensary.listingAmid engine identity rows others).run schedule) := by
  -- The count of turns begins at zero.
  have amid := (dispensary.amid_begun engine shaped others).run schedule
  rw [Nat.zero_add] at amid
  exact amid.listedAmid

/-- Of seventeen devices one is removed, another one comes and all are deleted after a first page. -/
theorem lists_amid_changes_seventeen :
    let dispensary : Dispensary := ⟨{}⟩
    let identity : Identity := ⟨List.replicate 16 0, rfl⟩
    let other : Identity := ⟨List.replicate 16 1, rfl⟩
    let slots := dispensary.lastResort
    let rows := Rows.empty.putAll slots.table
      ((Device.all.take 17).map fun device => Slots.item identity device (⟨1, [], []⟩ : SignedKemKey))
    let others : List Turnover := [.commit [.removed {} identity other ⟨16⟩],
      .storeLastResort identity ⟨200⟩ ⟨1, [], []⟩, .deleteAccount {} identity]
    let schedule := [0, 1, 2, 3, 3, 3, 3] ++ List.replicate 16 0
    (slots.Shaped identity rows ∧ 16 ≤ schedule.count 0) ∧
      slots.ListedAmid identity (schedule.count 0)
        ((dispensary.listingAmid .memory identity rows others).run schedule) := by
  intro dispensary identity other slots rows others schedule
  have shaped : slots.Shaped identity rows := by
    intro row member _ _
    -- Every row was put there as the slot of a device.
    rcases Engine.mem_putAll member with before | put
    · exact absurd before List.not_mem_nil
    · obtain ⟨device, _, same⟩ := List.mem_map.1 put
      exact congrArg (fun item => item.key.sort.length) same.symm
  exact ⟨⟨shaped, by decide⟩,
    lists_amid_changes .memory dispensary identity rows shaped others schedule⟩

end Dispensary

end KeyDispensary
