import KeyDispensary.Proofs.Keys.Enumeration
import KeyDispensary.Proofs.Keys.Falling

/-!
How takes of post-quantum keys fall back to the last-resort key, while others store and remove last-resort
keys. Main statement: `Dispensary.fallback_sound`, also for a pool that fails.
-/

namespace KeyDispensary

variable {σ : Type}

namespace Dispensary

variable {dispensary : Dispensary} {identity : Identity} {device : Device}

/-! ### A pool that fails -/

/-- Why the pool failed a take of a post-quantum key, if the reply to a call of the take says so. -/
def poolFailure? : (call : Call) → Reply call → Option KeyError
  | .query _, .error error => some (.store error)
  | .delete _ _, .error error => some (.store error)
  | .delete table _, .ok (some value) => failureOf? (recordOf SignedKemKey table value)
  | _, _ => none

/-- The rounds of takes of post-quantum keys. -/
abbrev PqRound := Program (Progress (Option Bytes) (Except KeyError (Option SignedKemKey)))

/--
Whether what is left of a round calls the pool until it fails, which it then reports.

Once it reads the slot of the last-resort key, it does nothing else.
-/
def Tries (dispensary : Dispensary) : PqRound → Prop
  | .done _ => True
  | .ask call resume =>
    (call.table? = some dispensary.tables.pqPool ∧
      ∀ reply, (∀ error, poolFailure? call reply = some error →
          resume reply = .done (.finished (.error error))) ∧
        (poolFailure? call reply = none → dispensary.Tries (resume reply))) ∨
    (∀ reply, poolFailure? call reply = none ∧ ∃ answer, resume reply = .done (.finished answer))

/-- What follows a take from the pool tries no more once it has failed or has a key. -/
theorem tries_following (dispensary : Dispensary) (identity : Identity) (device : Device)
    (progress : Pool.Taking SignedKemKey) :
    dispensary.Tries (Walk.following (dispensary.afterTake identity device) progress) := by
  -- Only an empty pool makes a take go on.
  rcases progress with place | (error | none | key)
  · trivial
  · trivial
  · -- The pool is empty, and the slot is read.
    refine .inr fun reply => ⟨rfl, ?_⟩
    rcases reply with error | none | value <;> exact ⟨_, rfl⟩
  · trivial

/-- Claims of candidates call the pool until it fails. -/
theorem tries_claim (dispensary : Dispensary) (identity : Identity) (device : Device)
    (candidates : List Item) (last : Option Bytes) :
    dispensary.Tries ((dispensary.pqPool.claim candidates last).bind
      (Walk.following (dispensary.afterTake identity device))) := by
  -- The candidates are claimed one by one, until a claim is won or fails.
  induction candidates with
  | nil => cases last <;> exact tries_following ..
  | cons candidate rest ih =>
    refine .inl ⟨rfl, fun reply => ?_⟩
    rcases reply with error | none | value
    · -- The claim has failed, and the take ends with its error.
      refine ⟨fun error failed => ?_, fun none => nomatch none⟩
      obtain rfl := Option.some.inj failed
      rfl
    · -- The claim was lost, and the next candidate is claimed.
      exact ⟨nofun, fun _ => ih⟩
    · refine ⟨fun error failed => ?_, fun _ => tries_following ..⟩
      -- A value that is no key is handed on as the failure that it is.
      change failureOf? (recordOf SignedKemKey dispensary.pqPool.table value) = some error at failed
      change Walk.following (dispensary.afterTake identity device)
        (.finished ((recordOf SignedKemKey dispensary.pqPool.table value).map some)) = _
      cases read : recordOf SignedKemKey dispensary.pqPool.table value with
      | error reason =>
        rw [read] at failed
        obtain rfl := Option.some.inj failed
        rfl
      | ok key =>
        rw [read] at failed
        cases failed

/-- Every round of a take of a post-quantum key calls the pool until it fails. -/
theorem tries_round (dispensary : Dispensary) (identity : Identity) (device : Device)
    (after : Option Bytes) : dispensary.Tries ((dispensary.takePq identity device).round after) := by
  -- A round begins with a query, which shows candidates or fails.
  refine .inl ⟨rfl, fun reply => ?_⟩
  cases reply with
  | error error =>
    -- A query that fails ends the take with its error.
    refine ⟨fun error failed => ?_, fun none => nomatch none⟩
    obtain rfl := Option.some.inj failed
    rfl
  | ok page => exact ⟨nofun, fun _ => tries_claim ..⟩

/-- A take that goes on to its next round calls the pool until it fails. -/
theorem tries_onward {left : PqRound} (tries : dispensary.Tries left) :
    dispensary.Tries ((dispensary.takePq identity device).onward left) := by
  -- Between two rounds no call is made.
  unfold Walk.onward
  split
  · exact tries_round ..
  · exact tries

/-- What is left of a take of a post-quantum key, by what it has been replied so far. -/
inductive Tried (dispensary : Dispensary) (who : Nat) (log : List (Event σ)) : PqRound → Prop where
  /-- It has called the pool alone, which has not failed. -/
  | trying {left : PqRound}
    (calls : ∀ event ∈ log, event.who = who → event.call.table? = some dispensary.tables.pqPool)
    (sound : ∀ event ∈ log, event.who = who → poolFailure? event.call event.reply = none)
    (tries : dispensary.Tries left) : Tried dispensary who log left
  /-- It has called the pool alone, and has ended with its failure. -/
  | failed {error : KeyError}
    (calls : ∀ event ∈ log, event.who = who → event.call.table? = some dispensary.tables.pqPool)
    (reports : ∀ event ∈ log, event.who = who → ∀ failure,
      poolFailure? event.call event.reply = some failure → failure = error) :
    Tried dispensary who log (.done (.finished (.error error)))
  /-- It has ended with what it read in the slot, and the pool has not failed. -/
  | past {answer : Except KeyError (Option SignedKemKey)}
    (sound : ∀ event ∈ log, event.who = who → poolFailure? event.call event.reply = none) :
    Tried dispensary who log (.done (.finished answer))

/-- Calls of others do not matter to a take. -/
theorem Tried.other {who : Nat} {log : List (Event σ)} {left : PqRound}
    (tried : dispensary.Tried who log left) {event : Event σ} (apart : event.who ≠ who) :
    dispensary.Tried who (event :: log) left := by
  -- What is known of the calls of the take is not about this call.
  have own {holds : Event σ → Prop} (all : ∀ event ∈ log, event.who = who → holds event) :
      ∀ other ∈ event :: log, other.who = who → holds other :=
    List.forall_mem_cons.2 ⟨fun same => absurd same apart, all⟩
  cases tried with
  | trying calls sound tries => exact .trying (own calls) (own sound) tries
  | failed calls reports => exact .failed (own calls) (own reports)
  | past sound => exact .past (own sound)

/-- A turn of a take that has called the pool alone, which has not failed. -/
theorem tried_step [Store σ] {crew : Crew σ} {who : Nat} {left : PqRound}
    (found : crew.tasks[who]? = some ⟨_, _, dispensary.takePq identity device, left⟩)
    (calls : ∀ event ∈ crew.log, event.who = who →
      event.call.table? = some dispensary.tables.pqPool)
    (sound : ∀ event ∈ crew.log, event.who = who → poolFailure? event.call event.reply = none)
    (tries : dispensary.Tries left) : ∃ left,
      (crew.step who).tasks[who]? = some ⟨_, _, dispensary.takePq identity device, left⟩ ∧
      dispensary.Tried who (crew.step who).log left := by
  -- The next call is one to the pool, or it reads the slot.
  have inside := (List.getElem?_eq_some_iff.1 found).1
  cases left with
  | done progress =>
    cases progress with
    | finished answer =>
      rw [Crew.step_ended found]
      exact ⟨_, found, .past sound⟩
    | more place =>
      simp only [Crew.step, found]
      exact ⟨_, List.getElem?_set_self inside, .trying calls sound (tries_round ..)⟩
  | ask call resume =>
    rw [Crew.step_ask found]
    generalize Store.perform crew.store call = outcome
    obtain ⟨reply, store⟩ := outcome
    refine ⟨_, List.getElem?_set_self inside, ?_⟩
    -- What held of the earlier calls of the take and holds of this one holds of all.
    have next {holds : Event σ → Prop} (all : ∀ event ∈ crew.log, event.who = who → holds event)
        (now : holds ⟨who, crew.store, call, reply⟩) :
        ∀ event ∈ ⟨who, crew.store, call, reply⟩ :: crew.log, event.who = who → holds event :=
      List.forall_mem_cons.2 ⟨fun _ => now, all⟩
    rcases tries with ⟨table, further⟩ | reads
    · cases failed : poolFailure? call reply with
      | none =>
        have clean := next sound failed
        exact .trying (next calls table) clean (tries_onward ((further reply).2 failed))
      -- The call has failed, which is what the take reports.
      | some error =>
        simp only [(further reply).1 error failed, Walk.onward]
        refine .failed (next calls table) (next ?_ ?_)
        · intro event member own failure
          simp [sound event member own]
        · intro failure reported
          exact Option.some.inj (reported.symm.trans failed)
    · obtain ⟨clean, answer, ends⟩ := reads reply
      simp only [ends, Walk.onward]
      exact .past (next sound clean)

/-- A take of a post-quantum key goes on as far as its pool does not fail it. -/
theorem tried_run [Store σ] (store : σ) (tasks : List Task) (schedule : List Nat) {who : Nat}
    (begins : tasks[who]? = some (.begun (dispensary.takePq identity device))) :
    let crew := (Crew.begun store tasks).run schedule
    ∃ left, crew.tasks[who]? = some ⟨_, _, dispensary.takePq identity device, left⟩ ∧
      dispensary.Tried who crew.log left := by
  -- The schedule is followed turn by turn, and the calls of others say nothing of the take.
  refine Crew.run_induction (fun crew => ∃ left,
      crew.tasks[who]? = some ⟨_, _, dispensary.takePq identity device, left⟩ ∧
      dispensary.Tried who crew.log left)
    ⟨_, begins, .trying (fun _ member => absurd member List.not_mem_nil)
      (fun _ member => absurd member List.not_mem_nil) (tries_round ..)⟩
    (fun crew turn state => ?_) schedule
  obtain ⟨left, found, tried⟩ := state
  by_cases here : turn = who
  · subst here
    cases tried with
    | failed calls reports =>
      -- A take that has ended makes no more calls.
      rw [Crew.step_ended found]
      exact ⟨_, found, .failed calls reports⟩
    | past sound =>
      rw [Crew.step_ended found]
      exact ⟨_, found, .past sound⟩
    | trying calls sound tries => exact tried_step found calls sound tries
  · refine ⟨left, (Crew.step_other crew here).trans found, ?_⟩
    rcases crew.log_step turn with same | ⟨event, rfl, more⟩
    · rwa [same]
    · rw [more]
      exact tried.other here

/-! ### Takes beside rotations -/

/-- A write in another table is out of a pool. -/
theorem within_of_table {write : Write} {table : String} (apart : write.table ≠ table) :
    write.Within fun key => ¬ key.InPool table identity device := by
  -- A key of the pool has the table of the pool.
  cases write with
  | put | delete | check => exact fun inside => apart inside.1.1
  | deleteRange table' partition lead =>
    intro key begins inside
    have within := (Bool.and_eq_true_iff.1 begins).1
    simp only [Row.within, Bool.and_eq_true, decide_eq_true_eq] at within
    exact apart (within.1.symm.trans inside.1.1)

/-- The writes that add or remove a device are in the tables of legacy and of last-resort keys. -/
theorem table_of_change (dispensary : Dispensary) (change : DeviceChange) :
    ∀ write ∈ change.writes dispensary,
      write.table = dispensary.tables.lastResort ∨ write.table = dispensary.tables.legacy := by
  -- The policy decides whether legacy keys are written as well.
  cases change with
  | added policy account phone device keys =>
    cases stores : policy.storesLegacy <;>
      simp [DeviceChange.writes, newDeviceWrites, stores, Slots.putWrite, Write.table, legacy, lastResort]
  | removed policy account phone device =>
    cases deletes : policy.deletesLegacy <;>
      simp [DeviceChange.writes, removedDeviceWrites, deletes, Slots.deleteWrite, Write.table, legacy,
        lastResort]

/-- Storing last-resort keys, and adding and removing devices, is out of all pools of one-time keys. -/
theorem confined_turnover (engine : Engine) (sound : dispensary.tables.names.Nodup)
    {turnover : Turnover} (keeps : ∀ policy identity, turnover ≠ .deleteAccount policy identity) :
    (Task.begun (.once (turnover.program dispensary))).Confined engine
      fun key => ¬ key.InPool dispensary.tables.pqPool identity device := by
  -- All that is written is in the tables of legacy and of last-resort keys.
  simp only [Tables.names, List.nodup_cons, List.mem_cons, List.not_mem_nil, or_false, not_or] at sound
  -- The names of the tables differ.
  obtain ⟨_, ⟨legacy, lastResort⟩, _⟩ := sound
  refine (Walk.confined_once ?_).begun
  cases turnover with
  | storeLastResort other device key =>
    exact ⟨fun inside => lastResort inside.1.1.symm, fun _ => trivial⟩
  | commit changes =>
    refine ⟨fun write member => ?_, fun _ => trivial⟩
    obtain ⟨change, _, inside⟩ := List.mem_flatMap.1 member
    rcases table_of_change dispensary change write inside with table | table
    · exact within_of_table fun same => lastResort (same.symm.trans table)
    · exact within_of_table fun same => legacy (same.symm.trans table)
  | deleteAccount policy identity => exact absurd rfl (keeps policy identity)

/-- Takes of post-quantum keys and other tasks beside them, none of which has made a call. -/
def takersAmid (dispensary : Dispensary) (engine : Engine) (identity : Identity) (device : Device)
    (rows : Rows) (takers : Nat) (others : List Task) : Crew engine.State :=
  .begun (engine.holding rows)
    (List.replicate takers (.begun (dispensary.takePq identity device)) ++ others)

/--
Takes of post-quantum keys fall back soundly, whatever others do meanwhile that is out of their pool.

When they have returned, which they do when they have had enough turns, the one-time keys have gone to
as many of them as could have one, and every other take has what the slot held at an instant when the
pool was empty. No take changes the table of last-resort keys. On any store, whatever it replies, a take
whose pool has failed has returned that failure and has called the pool alone.
-/
theorem fallback_sound (engine : Engine) (dispensary : Dispensary) (identity : Identity)
    (device : Device) (rows : Rows) (keys : List SignedKemKey)
    (apart : dispensary.tables.pqPool ≠ dispensary.tables.lastResort)
    (decoded : (dispensary.pqPool.contents identity device rows).map
      (fun row => recordOf SignedKemKey dispensary.pqPool.table row.value) = keys.map .ok)
    (takers : Nat) (others : List Task) (confined : ∀ task ∈ others,
      task.Confined engine fun key => ¬ key.InPool dispensary.tables.pqPool identity device)
    (schedule : List Nat) :
    let crew := (dispensary.takersAmid engine identity device rows takers others).run schedule
    (∀ answers, PqReturned dispensary identity device crew takers answers →
      ∃ winners, PqShared dispensary identity device rows keys crew takers answers winners) ∧
    ((∀ who < takers, 2 * keys.length + 2 ≤ schedule.count who) →
      ∃ answers, PqReturned dispensary identity device crew takers answers) ∧
    (∀ who < takers, ∀ key : RowKey, key.table = dispensary.tables.lastResort →
      (engine.rows (crew.step who).store).get? key = (engine.rows crew.store).get? key) ∧
    ∀ (σ : Type) [Store σ] (store : σ) (tasks : List Task) (turns : List Nat) (who : Nat),
      tasks[who]? = some (.begun (dispensary.takePq identity device)) →
      let crew := (Crew.begun store tasks).run turns
      ∀ event ∈ crew.log, event.who = who → ∀ error,
        poolFailure? event.call event.reply = some error →
        crew.tasks[who]? = some (.ended (dispensary.takePq identity device) (.error error)) ∧
        ∀ event ∈ crew.log, event.who = who → event.call.table? = some dispensary.tables.pqPool := by
  -- The takes are followed together with their shadow, from the start to the end of the schedule.
  intro crew
  obtain ⟨ends, ⟨shadow, winners, state⟩, same, nearer⟩ :=
    (Falling.begun engine dispensary identity device rows takers confined).run schedule
  rw [List.length_replicate] at same
  subst same
  have size : keys.length = (dispensary.pqPool.contents identity device rows).length := by
    simpa using (congrArg List.length decoded).symm
  refine ⟨fun answers ended => ⟨winners, state.shared ended decoded⟩, fun enough => ?_,
    fun who present key table => ?_, ?_⟩
  · refine state.all_returned fun place member => ?_
    obtain ⟨who, found⟩ := List.mem_iff_getElem?.1 member
    have present : who < ends.length := (List.getElem?_eq_some_iff.1 found).1
    -- Every take has had the turns that it needed.
    have bound := nearer who _ _ (List.getElem?_replicate_of_lt present) found
    have needed : (PqStage.taking (.asking none)).turns
        (dispensary.pqPool.contents identity device rows) = 2 * keys.length + 1 + 1 := by
      rw [size]
      exact congrArg (· + 1) (Pool.Stage.turns_begun _)
    have spent := enough who present
    omega
  · -- A turn of a take changes nothing outside the pool, let alone in another table.
    have found := List.getElem?_eq_getElem present
    exact (state.step_own found).2 key (table.trans_ne apart.symm)
  · -- A call that failed is one after which the take has ended.
    intro σ _ store tasks turns who begins crew event member own error failed
    obtain ⟨left, found, tried⟩ := tried_run store tasks turns begins
    cases tried with
    | trying calls sound tries => cases (sound event member own).symm.trans failed
    | failed calls reports =>
      obtain rfl := reports event member own error failed
      exact ⟨found, calls⟩
    | past sound => cases (sound event member own).symm.trans failed

/-- Two takes share one key while the last-resort key is stored, which the other take may then have. -/
theorem fallback_sound_rotated :
    let identity : Identity := ⟨List.replicate 16 0, rfl⟩
    let dispensary : Dispensary := ⟨{}⟩
    let key : SignedKemKey := ⟨5, [6], [7]⟩
    let rows := Rows.empty.insert (Row.of dispensary.pqPool.table (Pool.item identity .primary key))
    let others := [Task.begun (.once
      ((Turnover.storeLastResort identity .primary ⟨9, [10], [11]⟩).program dispensary))]
    let crew := (dispensary.takersAmid .memory identity .primary rows 2 others).run
      [0, 1, 0, 1, 2, 0, 1, 0, 1]
    (dispensary.tables.pqPool ≠ dispensary.tables.lastResort ∧
      (dispensary.pqPool.contents identity .primary rows).map
        (fun row => recordOf SignedKemKey dispensary.pqPool.table row.value) = [key].map .ok ∧
      ∀ task ∈ others, task.Confined .memory
        fun key => ¬ key.InPool dispensary.tables.pqPool identity .primary) ∧
    ∃ answers, PqReturned dispensary identity .primary crew 2 answers ∧
      ∃ winners, PqShared dispensary identity .primary rows [key] crew 2 answers winners := by
  intro identity dispensary key rows others crew
  have apart : dispensary.tables.pqPool ≠ dispensary.tables.lastResort := by decide
  have decoded : (dispensary.pqPool.contents identity .primary rows).map
      (fun row => recordOf SignedKemKey dispensary.pqPool.table row.value) = [key].map .ok :=
    Pool.decoded_lone dispensary.pqPool identity .primary key
  -- Storing a last-resort key is out of the pool.
  have confined : ∀ task ∈ others, task.Confined .memory
      fun key => ¬ key.InPool dispensary.tables.pqPool identity .primary := by
    intro task member
    obtain rfl := List.mem_singleton.1 member
    exact confined_turnover .memory (by decide) nofun
  obtain ⟨shared, returned, _⟩ := fallback_sound .memory dispensary identity .primary rows [key] apart
    decoded 2 others confined [0, 1, 0, 1, 2, 0, 1, 0, 1]
  -- Each take has its four turns.
  obtain ⟨answers, ended⟩ := returned (by decide)
  exact ⟨⟨apart, decoded, confined⟩, answers, ended, shared answers ended⟩

end Dispensary

end KeyDispensary
