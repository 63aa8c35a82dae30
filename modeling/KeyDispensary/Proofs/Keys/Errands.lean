import KeyDispensary.Proofs.Keys.Records
import KeyDispensary.Proofs.Keys.Uploads
import KeyDispensary.Proofs.Store.Ledger

/-!
Callers that take keys out of the pools of a table while others replace and delete these pools. Main
statement: `Pool.Kept.step`, by which every row that a store wrote is accounted for after every call.
-/

namespace KeyDispensary.Pool

variable {κ : Type}

/-- A change of the pools of a table that is made by one call. -/
inductive Change (κ : Type) where
  | store (identity : Identity) (device : Device) (keys : List κ)
  | delete (identity : Identity)
  | deleteDevice (identity : Identity) (device : Device)

/-- What a caller wants of the pools of a table. -/
inductive Errand (κ : Type) where
  | take (identity : Identity) (device : Device)
  | alter (change : Change κ)

variable [Record κ]

/-- The program of a change. -/
def Change.program (pool : Pool κ) : Change κ → Program (Except KeyError Unit)
  | .store identity device keys => pool.store identity device keys
  | .delete identity => pool.delete identity
  | .deleteDevice identity device => pool.deleteDevice identity device

/-- The call of a change. -/
def Change.call (pool : Pool κ) : Change κ → Call
  | .store identity device keys =>
    .replace pool.table identity.partition device.lead (keys.map (item identity device))
  | .delete identity => .transact [.deleteRange pool.table identity.partition []]
  | .deleteDevice identity device =>
    .transact [.deleteRange pool.table identity.partition device.lead]

/-- The task of a caller. -/
def Errand.task (pool : Pool κ) : Errand κ → Task
  | .take identity device => .begun (pool.take identity device)
  | .alter change => .begun (.once (change.program pool))

/-- Callers none of whom has made a call. -/
def callers (engine : Engine) (pool : Pool κ) (rows : Rows) (errands : List (Errand κ)) :
    Crew engine.State :=
  .begun (engine.holding rows) (errands.map (Errand.task pool))

/-- Whether a row is what the store of a caller writes for a key, the last one with its id. -/
def Stored (pool : Pool κ) (errands : List (Errand κ)) (identity : Identity) (device : Device)
    (writer : Nat) (row : Row) (key : κ) : Prop :=
  ∃ keys, errands[writer]? = some (.alter (.store identity device keys)) ∧
    keyFor? keys (Record.keyId key) = some key ∧ row = Row.of pool.table (item identity device key)

/-- A removal by which a take has come to a key, with the calls that came later and earlier. -/
structure Won {engine : Engine} (pool : Pool κ) (errands : List (Errand κ)) (identity : Identity)
    (device : Device) (who : Nat) (key : κ) (later : List (Event engine.State))
    (event : Event engine.State) (earlier : List (Event engine.State)) (row : Row) : Prop where
  removed : event.removal? = some (who, row)
  /-- It is the last call of the take. -/
  last : ∀ other ∈ later, other.who ≠ who
  /-- It is the only removal of the take. -/
  only : ∀ other ∈ earlier, other.who = who → other.removal? = none
  /-- The row was in the pool when it was removed. -/
  inside : row ∈ pool.contents identity device (engine.rows event.store)
  /-- Whoever had written the row last had written it for the key. -/
  wrote : ∃ writer, writer? earlier row.key = some writer ∧
    Stored pool errands identity device writer row key

/-- Where a caller may stand after the calls of a log. -/
inductive Stands {engine : Engine} (pool : Pool κ) (errands : List (Errand κ)) (who : Nat)
    (log : List (Event engine.State)) : Errand κ → Task → Prop where
  | asking {identity : Identity} {device : Device} {after : Option Bytes}
    (quiet : ∀ event ∈ log, event.who = who → event.removal? = none) :
    Stands pool errands who log (.take identity device)
      ((Stage.asking after).task pool identity device .done)
  | claiming {identity : Identity} {device : Device} {row : Row} {last : Option Bytes}
    (owned : pool.owns identity device row)
    (quiet : ∀ event ∈ log, event.who = who → event.removal? = none) :
    Stands pool errands who log (.take identity device)
      ((Stage.claiming row.item last).task pool identity device .done)
  | missed {identity : Identity} {device : Device}
    (quiet : ∀ event ∈ log, event.who = who → event.removal? = none) :
    Stands pool errands who log (.take identity device)
      ((Stage.answered (.ok none)).task pool identity device .done)
  | won {identity : Identity} {device : Device} {key : κ} {later : List (Event engine.State)}
    {event : Event engine.State} {earlier : List (Event engine.State)} {row : Row}
    (split : log = later ++ event :: earlier)
    (won : Won pool errands identity device who key later event earlier row) :
    Stands pool errands who log (.take identity device)
      ((Stage.answered (.ok (some key))).task pool identity device .done)
  | waiting {change : Change κ} (silent : ∀ event ∈ log, event.who ≠ who) :
    Stands pool errands who log (.alter change) (.begun (.once (change.program pool)))
  | made {change : Change κ} {answer : Except KeyError Unit}
    (quiet : ∀ event ∈ log, event.who = who → event.removal? = none)
    (made : ∃ event ∈ log, event.who = who ∧ event.call = change.call pool) :
    Stands pool errands who log (.alter change) (.ended (.once (change.program pool)) answer)

/-- What holds of callers at all times when the table was empty at first. -/
structure Kept (engine : Engine) (pool : Pool κ) (errands : List (Errand κ))
    (crew : Crew engine.State) : Prop where
  holds : crew.store = engine.holding (engine.rows crew.store)
  stands : ∀ (who : Nat) (errand : Errand κ), errands[who]? = some errand →
    ∃ task, crew.tasks[who]? = some task ∧ Stands pool errands who crew.log errand task
  nobody : ∀ who : Nat, errands[who]? = none →
    crew.tasks[who]? = none ∧ ∀ event ∈ crew.log, event.who ≠ who
  stored : ∀ event ∈ crew.log, ∀ row ∈ event.call.puts, ∃ identity device key,
    Stored pool errands identity device event.who row key
  balanced : Balanced pool.table crew.log (engine.rows crew.store)
  once : (written crew.log).Nodup

section Invariant

variable {engine : Engine} {pool : Pool κ} {errands : List (Errand κ)} {crew : Crew engine.State}
  {who : Nat} {log : List (Event engine.State)} {event : Event engine.State}

omit [Record κ] in
/-- A call that removes nothing by key leaves a caller quiet. -/
theorem quiet_cons (nothing : event.removal? = none)
    (quiet : ∀ earlier ∈ log, earlier.who = who → earlier.removal? = none) :
    ∀ earlier ∈ event :: log, earlier.who = who → earlier.removal? = none := by
  intro earlier member same
  rcases List.mem_cons.1 member with rfl | member
  · exact nothing
  · exact quiet earlier member same

/-- A caller still stands where it stood when another has made a call. -/
theorem Stands.cons {errand : Errand κ} {task : Task}
    (stands : Stands pool errands who log errand task) (apart : event.who ≠ who) :
    Stands pool errands who (event :: log) errand task := by
  -- The call is not one of the caller.
  have quieter (quiet : ∀ earlier ∈ log, earlier.who = who → earlier.removal? = none) :
      ∀ earlier ∈ event :: log, earlier.who = who → earlier.removal? = none := by
    intro earlier member same
    rcases List.mem_cons.1 member with rfl | member
    · exact absurd same apart
    · exact quiet earlier member same
  cases stands with
  | asking quiet => exact .asking (quieter quiet)
  | claiming owned quiet => exact .claiming owned (quieter quiet)
  | missed quiet => exact .missed (quieter quiet)
  -- The winning call still has the calls of others alone after it.
  | won split won =>
    refine .won (split ▸ (List.cons_append ..).symm) { won with last := ?_ }
    intro other member
    rcases List.mem_cons.1 member with rfl | member
    · exact apart
    · exact won.last other member
  | waiting silent =>
    refine .waiting fun earlier member => ?_
    rcases List.mem_cons.1 member with rfl | member
    · exact apart
    · exact silent earlier member
  | made quiet made =>
    obtain ⟨earlier, member, rest⟩ := made
    exact .made (quieter quiet) ⟨earlier, .tail _ member, rest⟩

/-- A call of a caller that comes to stand elsewhere keeps what holds. -/
theorem Kept.turn (kept : Kept engine pool errands crew) {left : Rows} {stayed : List Row}
    {errand : Errand κ} {task : Task} (found : errands[event.who]? = some errand)
    (met : event.store = crew.store) (splits : event.Splits pool.table left stayed)
    (stored : ∀ row ∈ event.call.puts, ∃ identity device key,
      Stored pool errands identity device event.who row key)
    (first : event.call.puts = [] ∨ ∀ earlier ∈ crew.log, earlier.who ≠ event.who)
    (stands : Stands pool errands event.who (event :: crew.log) errand task) :
    Kept engine pool errands
      ⟨engine.holding left, crew.tasks.set event.who task, event :: crew.log⟩ where
  holds := by rw [Engine.rows_holding]
  stands := by
    -- The other callers stand where they stood, and the call is not theirs.
    intro who other found'
    obtain ⟨former, present, stood⟩ := kept.stands who other found'
    by_cases same : event.who = who
    · subst same
      obtain rfl := Option.some.inj (found.symm.trans found')
      exact ⟨task, List.getElem?_set_self (List.getElem?_eq_some_iff.1 present).1, stands⟩
    · exact ⟨former, (List.getElem?_set_ne same).trans present, stood.cons same⟩
  nobody := by
    intro who absent
    -- The caller of this call has an errand.
    have apart : event.who ≠ who := by
      rintro rfl
      rw [found] at absent
      cases absent
    obtain ⟨present, silent⟩ := kept.nobody who absent
    refine ⟨(List.getElem?_set_ne apart).trans present, fun other member => ?_⟩
    rcases List.mem_cons.1 member with rfl | member
    · exact apart
    · exact silent other member
  stored := by
    intro other member
    rcases List.mem_cons.1 member with rfl | member
    · exact stored
    · exact kept.stored other member
  balanced := by
    rw [Engine.rows_holding]
    exact Balanced.after (met ▸ kept.balanced) splits
  once := nodup_written_cons kept.once first

/-- Whatever is in the table was written by the store that its stamp names. -/
theorem Kept.written_by (kept : Kept engine pool errands crew) {row : Row}
    (member : row ∈ (engine.rows crew.store).toList) (table : row.key.table = pool.table) :
    ∃ writer identity device key, writer? crew.log row.key = some writer ∧
      Stored pool errands identity device writer row key := by
  -- The stamp of the row is one of those that were written.
  have listed : (⟨writer? crew.log row.key, row⟩ : Stamp) ∈
      stamped crew.log ((engine.rows crew.store).listed pool.table) :=
    List.mem_map.2 ⟨row, Rows.mem_listed.2 ⟨member, table⟩, rfl⟩
  have present := kept.balanced.mem_iff.2 (List.mem_append_right _ listed)
  obtain ⟨event, made, writer, put⟩ := mem_written.1 present
  obtain ⟨identity, device, key, stored⟩ := kept.stored event made row put
  exact ⟨event.who, identity, device, key, writer, stored⟩

/-! ### What turns do -/

/-- A row that a store writes for a key lies in the pool of that store alone. -/
theorem Stored.of_owns {identity identity' : Identity} {device device' : Device} {writer : Nat}
    {row : Row} {key : κ} (stored : Stored pool errands identity' device' writer row key)
    (owned : pool.owns identity device row) : Stored pool errands identity device writer row key := by
  -- A row is in one pool only.
  obtain ⟨keys, found, last, rfl⟩ := stored
  obtain ⟨identities, devices⟩ := owns_unique owned (owns_item pool identity' device' key)
  subst identities devices
  exact ⟨keys, found, last, rfl⟩

/-- A take that asks for a key comes to claim a row of its pool or finds the pool empty. -/
theorem Kept.ask (kept : Kept engine pool errands crew) {identity : Identity} {device : Device}
    {after : Option Bytes} (found : errands[who]? = some (.take identity device))
    (task : crew.tasks[who]? = some ((Stage.asking after).task pool identity device .done))
    (quiet : ∀ event ∈ crew.log, event.who = who → event.removal? = none) :
    Kept engine pool errands (crew.step who) := by
  have stands (event : Event engine.State) (nothing : event.removal? = none) :
      Stands pool errands who (event :: crew.log) (.take identity device) ((Stage.seen
        (engine.found (engine.rows crew.store) (pool.asked identity device after))).task pool
          identity device .done) := by
    cases shown : engine.found (engine.rows crew.store) (pool.asked identity device after) with
    | nil => exact .missed (quiet_cons nothing quiet)
    | cons row rest =>
      -- Whatever the query finds lies in the pool.
      have member : row ∈ engine.found (engine.rows crew.store) (pool.asked identity device after) :=
        shown ▸ List.mem_cons_self
      rw [found_asked] at member
      exact .claiming (mem_contents.1 (List.mem_filter.1 member).1).2 (quiet_cons nothing quiet)
  -- A query moves no row, so what was stored and written is the same.
  rw [step_asking kept.holds task]
  exact kept.turn found kept.holds.symm (Event.splits_query ..) (fun _ put => by cases put)
    (.inl rfl) (stands _ rfl)

/-- What a store puts are the rows of the keys that stay. -/
theorem mem_puts_store {identity : Identity} {device : Device} {keys : List κ} {row : Row} :
    row ∈ ((Change.store identity device keys).call pool).puts ↔
      ∃ key, keyFor? keys (Record.keyId key) = some key ∧
        row = Row.of pool.table (item identity device key) := by
  change row ∈ lastOfEach Row.key ((keys.map (item identity device)).map (Row.of pool.table)) ↔ _
  -- Of items under one key the last stays, and it is searched for among the keys.
  rw [mem_lastOfEach, List.map_map, ← List.map_reverse, List.find?_map, Option.map_eq_some_iff]
  -- The rows of two keys have one place exactly if the keys have one id.
  have search (key : κ) (same : row = Row.of pool.table (item identity device key)) :
      (keys.reverse.find? ((fun other : Row => decide (other.key = row.key)) ∘
        Row.of pool.table ∘ item identity device)) = keyFor? keys (Record.keyId key) := by
    refine congrArg (keys.reverse.find? ·) (funext fun other => ?_)
    rw [same]
    exact decide_eq_decide.2 key_of_item_eq_iff
  constructor
  · rintro ⟨key, found, rfl⟩
    exact ⟨key, (search key rfl).symm.trans found, rfl⟩
  · rintro ⟨key, found, same⟩
    exact ⟨key, (search key same).trans found, same.symm⟩

/-- A change is made in one turn, and of the calls that are made only a store puts rows. -/
theorem Kept.alter (kept : Kept engine pool errands crew) {change : Change κ}
    (found : errands[who]? = some (.alter change))
    (task : crew.tasks[who]? = some (.begun (.once (change.program pool))))
    (silent : ∀ event ∈ crew.log, event.who ≠ who) : Kept engine pool errands (crew.step who) := by
  have quiet : ∀ event ∈ crew.log, event.who = who → event.removal? = none :=
    fun event member same => absurd same (silent event member)
  cases change with
  | store identity device keys =>
    -- What a store puts lies in the range that it replaces.
    have covered : ∀ stored ∈ keys.map (item identity device),
        engine.covers pool.table identity.partition device.lead (Row.of pool.table stored) := by
      intro stored member
      obtain ⟨key, _, rfl⟩ := List.mem_map.1 member
      rw [covers_lead]
      exact owns_item pool identity device key
    rw [Crew.step_once task, kept.holds, Engine.perform_holding]
    refine kept.turn found kept.holds.symm (Event.splits_replace (.ok ()) covered) ?_ (.inr silent)
      (.made (quiet_cons rfl quiet) ⟨_, List.mem_cons_self, rfl, rfl⟩)
    intro row put
    obtain ⟨key, last, same⟩ := mem_puts_store.1 put
    exact ⟨identity, device, key, keys, found, last, same⟩
  -- A deletion puts nothing.
  | delete identity =>
    rw [Crew.step_once task, kept.holds, Engine.perform_holding]
    exact kept.turn found kept.holds.symm (Event.splits_deleteRange identity.partition [] (.ok ()))
      (fun _ put => by cases put) (.inl rfl)
      (.made (quiet_cons rfl quiet) ⟨_, List.mem_cons_self, rfl, rfl⟩)
  | deleteDevice identity device =>
    rw [Crew.step_once task, kept.holds, Engine.perform_holding]
    exact kept.turn found kept.holds.symm
      (Event.splits_deleteRange identity.partition device.lead (.ok ()))
      (fun _ put => by cases put) (.inl rfl)
      (.made (quiet_cons rfl quiet) ⟨_, List.mem_cons_self, rfl, rfl⟩)

variable [LawfulRecord κ]

/-- A take that claims a candidate wins the row that is there now, or goes on without one. -/
theorem Kept.claim (kept : Kept engine pool errands crew) {identity : Identity} {device : Device}
    {row : Row} {last : Option Bytes} (found : errands[who]? = some (.take identity device))
    (task : crew.tasks[who]? = some ((Stage.claiming row.item last).task pool identity device .done))
    (owned : pool.owns identity device row)
    (quiet : ∀ event ∈ crew.log, event.who = who → event.removal? = none) :
    Kept engine pool errands (crew.step who) := by
  rw [step_claiming kept.holds task]
  refine kept.turn found kept.holds.symm (Event.splits_delete row.item.key)
    (fun _ put => by cases put) (.inl rfl) ?_
  rw [rowKey_of_owned owned]
  cases held : (engine.rows crew.store).get? row.key with
  | none =>
    cases last with
    -- The claim is lost, and there may be a place to go on from.
    | none => exact .missed (quiet_cons rfl quiet)
    | some place => exact .asking (quiet_cons rfl quiet)
  | some value =>
    -- The row that is there need not be the candidate, but a store of this pool has written it.
    have member := Rows.get?_eq_some_iff.1 held
    have inside : pool.owns identity device ⟨row.key, value⟩ := (owns_congr rfl).trans owned
    obtain ⟨writer, _, _, key, wrote, stored⟩ := kept.written_by member (owns_iff.1 inside).1
    have stored := stored.of_owns inside
    -- A store has put an encoded key there, so the value is read back.
    have decoded : recordOf κ pool.table value = .ok key := by
      obtain ⟨keys, _, _, same⟩ := stored
      have encoded : value = Record.encode key := congrArg Row.value same
      rw [encoded, recordOf_encode]
    simp only [Stage.claimed, decoded]
    refine Stands.won (rfl : _ = [] ++ _ :: _)
      ⟨?_, fun _ member => absurd member List.not_mem_nil, quiet, ?_, writer, wrote, stored⟩
    · simp only [Event.removal?, rowKey_of_owned owned]
    · rw [Engine.rows_holding]
      exact mem_contents.2 ⟨member, inside⟩

/-- Every turn keeps what holds of callers. -/
theorem Kept.step (kept : Kept engine pool errands crew) (who : Nat) :
    Kept engine pool errands (crew.step who) := by
  -- Each place where a caller can stand has a lemma for its turn, if it has one left.
  cases found : errands[who]? with
  | none => exact (Crew.step_nobody (kept.nobody who found).1).symm ▸ kept
  | some errand =>
    obtain ⟨task, present, stands⟩ := kept.stands who errand found
    cases stands with
    | asking quiet => exact kept.ask found present quiet
    | claiming owned quiet => exact kept.claim found present owned quiet
    | missed => exact (Crew.step_ended present).symm ▸ kept
    | won => exact (Crew.step_ended present).symm ▸ kept
    | waiting silent => exact kept.alter found present silent
    | made => exact (Crew.step_ended present).symm ▸ kept

omit [LawfulRecord κ] in
/-- Before the first call, nothing was written to an empty table. -/
theorem Kept.start (engine : Engine) (errands : List (Errand κ)) {rows : Rows}
    (empty : ∀ row ∈ rows.toList, row.key.table ≠ pool.table) :
    Kept engine pool errands (callers engine pool rows errands) where
  holds := by rw [callers, Crew.begun, Engine.rows_holding]
  stands := by
    intro who errand found
    refine ⟨errand.task pool, by simp [callers, Crew.begun, found], ?_⟩
    cases errand with
    | take identity device =>
      rw [Errand.task, ← takeThen_done]
      exact .asking fun _ member => absurd member List.not_mem_nil
    | alter change => exact .waiting fun _ member => absurd member List.not_mem_nil
  nobody := by
    intro who absent
    exact ⟨by simp [callers, Crew.begun, absent], fun _ member => absurd member List.not_mem_nil⟩
  stored := fun _ member => absurd member List.not_mem_nil
  balanced := by
    -- No row of the table is there that would have to be accounted for.
    have nothing : rows.listed pool.table = [] :=
      List.filter_eq_nil_iff.2 fun row member => by simpa using empty row member
    rw [Balanced, callers, Crew.begun, Engine.rows_holding, nothing]
    exact .refl _
  once := .nil

end Invariant

end KeyDispensary.Pool
