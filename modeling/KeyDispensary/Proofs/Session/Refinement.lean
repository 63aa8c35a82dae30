import KeyDispensary.Proofs.Config.Fields
import KeyDispensary.Proofs.Session.Standing
import KeyDispensary.Proofs.Session.Stock

/-!
A session answers as the four maps do that it stands for. Main statements: `Represents.serve`, for one
request, and `Session.refines_stock`, for all requests to a session that starts without rows.
-/

namespace KeyDispensary

variable {π α : Type}

/-- Whether rows keep the keys of a stock in the tables of a dispensary. -/
structure Stocked (dispensary : Dispensary) (rows : Rows) (stock : Stock) : Prop where
  ecPool : dispensary.ecPool.Keeps rows stock.ecPool
  pqPool : dispensary.pqPool.Keeps rows stock.pqPool
  legacy : dispensary.legacy.Keeps rows stock.legacy
  lastResort : dispensary.lastResort.Keeps rows stock.lastResort

namespace Dispensary

/-- The names of the four tables differ. -/
structure Sound (dispensary : Dispensary) : Prop where
  ec_pq : dispensary.ecPool.table ≠ dispensary.pqPool.table
  ec_legacy : dispensary.ecPool.table ≠ dispensary.legacy.table
  ec_lastResort : dispensary.ecPool.table ≠ dispensary.lastResort.table
  pq_legacy : dispensary.pqPool.table ≠ dispensary.legacy.table
  pq_lastResort : dispensary.pqPool.table ≠ dispensary.lastResort.table
  legacy_lastResort : dispensary.legacy.table ≠ dispensary.lastResort.table

/-- Names that are all different differ in pairs. -/
theorem sound_of_nodup {tables : Tables} (distinct : tables.names.Nodup) : Sound ⟨tables⟩ := by
  simp only [Tables.names, List.nodup_cons, List.mem_cons, not_or] at distinct
  obtain ⟨⟨ec_pq, ec_legacy, ec_lastResort, _⟩, ⟨pq_legacy, pq_lastResort, _⟩,
    ⟨legacy_lastResort, _⟩, _⟩ := distinct
  exact ⟨ec_pq, ec_legacy, ec_lastResort, pq_legacy, pq_lastResort, legacy_lastResort⟩

/-- Both programs succeed if each does where it comes. -/
theorem both_run {σ : Type} [Store σ] {first second : Program (Except KeyError Unit)}
    {store middle left : σ} (ran : first.run store = (.ok (), middle))
    (ran' : second.run middle = (.ok (), left)) : (both first second).run store = (.ok (), left) := by
  rw [both, Program.run_bind, ran, Program.run_map, ran']
  rfl

end Dispensary

namespace Stocked

variable {engine : Engine} {dispensary : Dispensary} {rows left : Rows} {stock : Stock}

/-- No rows keep an empty stock. -/
theorem empty (dispensary : Dispensary) (policy : Policy) :
    Stocked dispensary Rows.empty (.empty policy) :=
  ⟨.empty _, .empty _, .empty _, .empty _⟩

/-- A change of the pools of elliptic-curve keys changes nothing else. -/
theorem withEc (stocked : Stocked dispensary rows stock) (sound : dispensary.Sound)
    {shelves : Identity → Device → Shelf EcKey} (keeps : dispensary.ecPool.Keeps left shelves)
    (same : Rows.SameBeside dispensary.ecPool.table rows left) :
    Stocked dispensary left { stock with ecPool := shelves } where
  ecPool := keeps
  pqPool := stocked.pqPool.beside same sound.ec_pq.symm
  legacy := stocked.legacy.beside same sound.ec_legacy.symm
  lastResort := stocked.lastResort.beside same sound.ec_lastResort.symm

/-- A change of the pools of post-quantum keys changes nothing else. -/
theorem withPq (stocked : Stocked dispensary rows stock) (sound : dispensary.Sound)
    {shelves : Identity → Device → Shelf SignedKemKey}
    (keeps : dispensary.pqPool.Keeps left shelves)
    (same : Rows.SameBeside dispensary.pqPool.table rows left) :
    Stocked dispensary left { stock with pqPool := shelves } where
  ecPool := stocked.ecPool.beside same sound.ec_pq
  pqPool := keeps
  legacy := stocked.legacy.beside same sound.pq_legacy.symm
  lastResort := stocked.lastResort.beside same sound.pq_lastResort.symm

/-- A change of the slots of legacy keys changes nothing else. -/
theorem withLegacy (stocked : Stocked dispensary rows stock) (sound : dispensary.Sound)
    {filled : Identity → Device → Option SignedEcKey}
    (keeps : dispensary.legacy.Keeps left filled)
    (same : Rows.SameBeside dispensary.legacy.table rows left) :
    Stocked dispensary left { stock with legacy := filled } where
  ecPool := stocked.ecPool.beside same sound.ec_legacy
  pqPool := stocked.pqPool.beside same sound.pq_legacy
  legacy := keeps
  lastResort := stocked.lastResort.beside same sound.legacy_lastResort.symm

/-- A change of the slots of last-resort keys changes nothing else. -/
theorem withLastResort (stocked : Stocked dispensary rows stock) (sound : dispensary.Sound)
    {filled : Identity → Device → Option SignedKemKey}
    (keeps : dispensary.lastResort.Keeps left filled)
    (same : Rows.SameBeside dispensary.lastResort.table rows left) :
    Stocked dispensary left { stock with lastResort := filled } where
  ecPool := stocked.ecPool.beside same sound.ec_lastResort
  pqPool := stocked.pqPool.beside same sound.pq_lastResort
  legacy := stocked.legacy.beside same sound.legacy_lastResort
  lastResort := keeps

/-! ### Programs of the dispensary -/

/-- Storing elliptic-curve keys replaces the pool of a device. -/
theorem storeEc (stocked : Stocked dispensary rows stock) (sound : dispensary.Sound)
    (engine : Engine) (identity : Identity) (device : Device) (keys : List EcKey) : ∃ left,
      (dispensary.ecPool.store identity device keys).run (engine.holding rows) =
        (.ok (), engine.holding left) ∧
      Stocked dispensary left
        { stock with ecPool := amend stock.ecPool identity device (.of keys) } := by
  obtain ⟨left, ran, keeps, same⟩ := stocked.ecPool.store engine identity device keys
  exact ⟨left, ran, stocked.withEc sound keeps same⟩

/-- Storing post-quantum keys replaces the pool of a device. -/
theorem storePq (stocked : Stocked dispensary rows stock) (sound : dispensary.Sound)
    (engine : Engine) (identity : Identity) (device : Device) (keys : List SignedKemKey) : ∃ left,
      (dispensary.pqPool.store identity device keys).run (engine.holding rows) =
        (.ok (), engine.holding left) ∧
      Stocked dispensary left
        { stock with pqPool := amend stock.pqPool identity device (.of keys) } := by
  obtain ⟨left, ran, keeps, same⟩ := stocked.pqPool.store engine identity device keys
  exact ⟨left, ran, stocked.withPq sound keeps same⟩

/-- Taking an elliptic-curve key takes the one with the smallest id. -/
theorem takeEc (stocked : Stocked dispensary rows stock) (sound : dispensary.Sound)
    (engine : Engine) (identity : Identity) (device : Device) : ∃ left,
      (dispensary.takeEc identity device).run (engine.holding rows) =
        (some (.ok (stock.ecPool identity device).take.1), engine.holding left) ∧
      Stocked dispensary left { stock with
        ecPool := amend stock.ecPool identity device (stock.ecPool identity device).take.2 } := by
  obtain ⟨left, ran, keeps, same⟩ := stocked.ecPool.take engine identity device
  exact ⟨left, ran, stocked.withEc sound keeps same⟩

/-- Taking a post-quantum key turns to the last-resort key when no other is left, and leaves it. -/
theorem takePq (stocked : Stocked dispensary rows stock) (sound : dispensary.Sound)
    (engine : Engine) (identity : Identity) (device : Device) : ∃ left,
      (dispensary.takePq identity device).run (engine.holding rows) =
        (some (.ok ((stock.pqPool identity device).take.1.or (stock.lastResort identity device))),
          engine.holding left) ∧
      Stocked dispensary left { stock with
        pqPool := amend stock.pqPool identity device (stock.pqPool identity device).take.2 } := by
  obtain ⟨left, ran, keeps, same⟩ := stocked.pqPool.take engine identity device
  have next := stocked.withPq sound keeps same
  refine ⟨left, ?_, next⟩
  rw [Walk.run] at ran ⊢
  refine (Walk.runFrom_andThen ran).trans ?_
  cases taken : (stock.pqPool identity device).take.1 with
  -- The key of the pool is the answer, and the slot is not read.
  | some key => rfl
  | none =>
    -- The last-resort key is read from what the take has left.
    have found := next.lastResort.find engine identity device
    simp only [found]
    rfl

/-- Storing a legacy key changes its slot, unless the policy is not to store any. -/
theorem storeLegacy (stocked : Stocked dispensary rows stock) (sound : dispensary.Sound)
    (engine : Engine) (identity : Identity) (device : Device) (key : SignedEcKey) : ∃ left,
      (dispensary.storeLegacy stock.policy identity device key).run (engine.holding rows) =
        (.ok (), engine.holding left) ∧
      Stocked dispensary left (if stock.policy.storesLegacy then
        stock.edit (.fillLegacy identity device key) else stock) := by
  rw [Dispensary.storeLegacy]
  split
  · obtain ⟨left, ran, keeps, same⟩ := stocked.legacy.store engine identity device key
    exact ⟨left, ran, stocked.withLegacy sound keeps same⟩
  · exact ⟨rows, rfl, stocked⟩

/-- Storing a last-resort key changes its slot. -/
theorem storeLastResort (stocked : Stocked dispensary rows stock) (sound : dispensary.Sound)
    (engine : Engine) (identity : Identity) (device : Device) (key : SignedKemKey) : ∃ left,
      (dispensary.lastResort.store identity device key).run (engine.holding rows) =
        (.ok (), engine.holding left) ∧
      Stocked dispensary left (stock.edit (.fillLastResort identity device key)) := by
  obtain ⟨left, ran, keeps, same⟩ := stocked.lastResort.store engine identity device key
  exact ⟨left, ran, stocked.withLastResort sound keeps same⟩

/-- Deleting the pools of an identity empties those of both kinds. -/
theorem deletePools (stocked : Stocked dispensary rows stock) (sound : dispensary.Sound)
    (engine : Engine) (identity : Identity) : ∃ left,
      (dispensary.deletePools identity).run (engine.holding rows) = (.ok (), engine.holding left) ∧
      Stocked dispensary left { stock with
        ecPool := amendAll stock.ecPool identity .empty
        pqPool := amendAll stock.pqPool identity .empty } := by
  obtain ⟨middle, ran, keeps, same⟩ := stocked.ecPool.delete engine identity
  have half := stocked.withEc sound keeps same
  obtain ⟨left, ran', keeps', same'⟩ := half.pqPool.delete engine identity
  exact ⟨left, Dispensary.both_run ran ran', half.withPq sound keeps' same'⟩

/-- Deleting the pools of a device empties those of both kinds. -/
theorem deleteDevicePools (stocked : Stocked dispensary rows stock) (sound : dispensary.Sound)
    (engine : Engine) (identity : Identity) (device : Device) : ∃ left,
      (dispensary.deleteDevicePools identity device).run (engine.holding rows) =
        (.ok (), engine.holding left) ∧
      Stocked dispensary left { stock with
        ecPool := amend stock.ecPool identity device .empty
        pqPool := amend stock.pqPool identity device .empty } := by
  obtain ⟨middle, ran, keeps, same⟩ := stocked.ecPool.deleteDevice engine identity device
  have half := stocked.withEc sound keeps same
  obtain ⟨left, ran', keeps', same'⟩ := half.pqPool.deleteDevice engine identity device
  exact ⟨left, Dispensary.both_run ran ran', half.withPq sound keeps' same'⟩

/-- Deleting an account empties all its pools and slots; legacy slots only as the policy says. -/
theorem deleteAccount (stocked : Stocked dispensary rows stock) (sound : dispensary.Sound)
    (engine : Engine) (identity : Identity) : ∃ left,
      (dispensary.deleteAccount stock.policy identity).run (engine.holding rows) =
        (.ok (), engine.holding left) ∧
      Stocked dispensary left { stock with
        ecPool := amendAll stock.ecPool identity .empty
        pqPool := amendAll stock.pqPool identity .empty
        lastResort := amendAll stock.lastResort identity none
        legacy :=
          if stock.policy.deletesLegacy then amendAll stock.legacy identity none
          else stock.legacy } := by
  -- The pools go first, then the last-resort keys, then perhaps the legacy keys.
  obtain ⟨pools, ran, stocked⟩ := stocked.deletePools sound engine identity
  obtain ⟨middle, ran', keeps, same⟩ := stocked.lastResort.delete engine identity
  have stocked := stocked.withLastResort sound keeps same
  have first := Dispensary.both_run ran ran'
  rw [Dispensary.deleteAccount, Dispensary.deleteLegacy]
  split
  · -- The policy has the legacy keys deleted too.
    obtain ⟨left, last, keeps, same⟩ := stocked.legacy.delete engine identity
    exact ⟨left, Dispensary.both_run first last, stocked.withLegacy sound keeps same⟩
  · exact ⟨middle, Dispensary.both_run first rfl, stocked⟩

/-! ### Transactions -/

/-- The write of an edit makes it. -/
theorem edit (stocked : Stocked dispensary rows stock) (sound : dispensary.Sound)
    (engine : Engine) (edit : Edit) :
    Stocked dispensary ((edit.write dispensary).apply engine.clear rows) (stock.edit edit) := by
  -- Each write changes one row of one table.
  cases edit with
  | fillLegacy identity device key =>
    exact stocked.withLegacy sound (stocked.legacy.put identity device key) (Rows.SameBeside.insert
      rows (Row.of dispensary.legacy.table (Slots.item identity device key)))
  | clearLegacy identity device =>
    exact stocked.withLegacy sound (stocked.legacy.erased identity device)
      (Rows.SameBeside.erase rows (RowKey.of dispensary.legacy.table (slotKey identity device)))
  | fillLastResort identity device key =>
    exact stocked.withLastResort sound (stocked.lastResort.put identity device key)
      (Rows.SameBeside.insert rows
        (Row.of dispensary.lastResort.table (Slots.item identity device key)))
  | clearLastResort identity device =>
    exact stocked.withLastResort sound (stocked.lastResort.erased identity device)
      (Rows.SameBeside.erase rows (RowKey.of dispensary.lastResort.table (slotKey identity device)))

/-- The writes of edits, one after another, make the edits. -/
theorem edits (stocked : Stocked dispensary rows stock) (sound : dispensary.Sound)
    (engine : Engine) (edits : List Edit) :
    Stocked dispensary ((edits.map (Edit.write dispensary)).foldl (Write.apply engine.clear) rows)
      (edits.foldl Stock.edit stock) := by
  induction edits generalizing rows stock with
  | nil => exact stocked
  | cons edit rest ih => exact ih (stocked.edit sound engine edit)

end Stocked

/-- A transaction of the writes of edits makes all of them, unless they are too many. -/
theorem Edit.answer_transact (dispensary : Dispensary) (engine : Engine) (rows : Rows)
    (edits : List Edit) :
    engine.answer rows (.transact (edits.map (Edit.write dispensary))) =
        (if transactionLimit < edits.length then
          (.error (.tooLarge edits.length transactionLimit), rows)
        else (.ok (), (edits.map (Edit.write dispensary)).foldl (Write.apply engine.clear) rows)) := by
  -- No write of an edit is a check.
  have unchecked : (edits.map (Edit.write dispensary)).findSome? (Write.unmet? rows) = none := by
    rw [List.findSome?_eq_none_iff]
    intro write member
    obtain ⟨edit, _, rfl⟩ := List.mem_map.1 member
    cases edit <;> rfl
  -- The only way in which it can fail is by its size.
  by_cases many : transactionLimit < edits.length
  · simp only [Engine.answer, checkSize, List.length_map, many, if_true]
  · simp only [Engine.answer, checkSize, List.length_map, many, if_false, applyWrites, unchecked]

/-- The writes of a new device are those of its edits. -/
theorem newDeviceWrites_eq (dispensary : Dispensary) (policy : Policy) (account phone : Identity)
    (device : Device) (keys : Dispensary.NewDevice) :
    dispensary.newDeviceWrites policy account phone device keys =
      (newDeviceEdits policy account phone device keys).map (Edit.write dispensary) := by
  rw [Dispensary.newDeviceWrites, newDeviceEdits]
  split <;> rfl

/-- The writes of a removed device are those of its edits. -/
theorem removedDeviceWrites_eq (dispensary : Dispensary) (policy : Policy)
    (account phone : Identity) (device : Device) :
    dispensary.removedDeviceWrites policy account phone device =
      (removedDeviceEdits policy account phone device).map (Edit.write dispensary) := by
  rw [Dispensary.removedDeviceWrites, removedDeviceEdits]
  split <;> rfl

/-! ### Sessions -/

/-- Whether a session stands for a stock. -/
structure Represents (engine : Engine) (session : Session) (stock : Stock) : Prop where
  sound : session.dispensary.Sound
  source : session.source = .current
  policy : session.current = stock.policy
  kept : session.kept = stock.kept.map fun (name, edits) =>
    (name, edits.map (Edit.write session.dispensary))
  stocked : ∃ rows, session.Stands engine rows ∧ Stocked session.dispensary rows stock

/-- Whether a session has answered as its stock does, and stands for what the stock has become. -/
structure Agrees (engine : Engine) (dispensary : Dispensary)
    (outcome : Option (Except KeyError Result) × Session)
    (expected : Except KeyError Result × Stock) : Prop where
  answer : outcome.1 = some expected.1
  dispensary : outcome.2.dispensary = dispensary
  represents : Represents engine outcome.2 expected.2

namespace Stock

/-- Edits change no policy. -/
theorem policy_edits (edits : List Edit) (stock : Stock) :
    (edits.foldl edit stock).policy = stock.policy := by
  induction edits generalizing stock with
  | nil => rfl
  | cons first rest ih => exact (ih _).trans (by cases first <;> rfl)

/-- Edits leave alone what is kept for later. -/
theorem kept_edits (edits : List Edit) (stock : Stock) :
    (edits.foldl edit stock).kept = stock.kept := by
  induction edits generalizing stock with
  | nil => rfl
  | cons first rest ih => exact (ih _).trans (by cases first <;> rfl)

end Stock

namespace Represents

variable {engine : Engine} {session : Session} {stock next : Stock}

/-- The policy in force is that of the stock. -/
theorem policy_eq (represents : Represents engine session stock) : session.policy = stock.policy := by
  rw [Session.policy, represents.source]
  exact represents.policy

/-- The writes that are kept under a name are those of the edits that the stock keeps. -/
theorem keptWrites_eq (represents : Represents engine session stock) (name : String) :
    session.keptWrites name = (stock.keptEdits name).map (Edit.write session.dispensary) := by
  rw [Session.keptWrites, represents.kept, Stock.keptEdits]
  -- Both look for the first entry under the name.
  induction stock.kept with
  | nil => rfl
  | cons entry rest ih =>
    obtain ⟨other, edits⟩ := entry
    by_cases same : name = other
    · subst same
      simp only [List.map_cons, List.lookup_cons_self, Option.getD_some]
    · have apart : (name == other) = false := by simpa using same
      simpa only [List.map_cons, List.lookup_cons, apart] using ih

/-- A session whose store has changed stands for the stock that has changed with it. -/
theorem changed (represents : Represents engine session stock) {probe : Probe Host} {left : Rows}
    (stands : Session.Stands engine left { session with probe := probe })
    (stocked : Stocked session.dispensary left next) (policy : next.policy = stock.policy)
    (kept : next.kept = stock.kept) : Represents engine { session with probe := probe } next where
  sound := represents.sound
  source := represents.source
  policy := represents.policy.trans policy.symm
  kept := represents.kept.trans (by rw [kept])
  stocked := ⟨left, stands, stocked⟩

/-- A request that is answered by a program. -/
theorem byProgram (represents : Represents engine session stock) (result : α → Result)
    {program : Program (Except KeyError α)} {answer : α}
    (ran : ∀ rows, Stocked session.dispensary rows stock → ∃ left,
      program.run (engine.holding rows) = (.ok answer, engine.holding left) ∧
        Stocked session.dispensary left next)
    (policy : next.policy = stock.policy) (kept : next.kept = stock.kept) :
    Agrees engine session.dispensary (session.byProgram result program)
      (.ok (result answer), next) := by
  obtain ⟨rows, stands, stocked⟩ := represents.stocked
  obtain ⟨left, ended, stocked⟩ := ran rows stocked
  obtain ⟨probe, asked, stands⟩ := Session.ask_eq stands ended
  rw [Session.byProgram, asked]
  exact ⟨rfl, rfl, represents.changed stands stocked policy kept⟩

/-- A request that is answered by a walk. -/
theorem byWalk (represents : Represents engine session stock) (result : α → Result)
    {walk : Walk π (Except KeyError α)} {answer : α}
    (ran : ∀ rows, Stocked session.dispensary rows stock → ∃ left,
      walk.run (engine.holding rows) = (some (.ok answer), engine.holding left) ∧
        Stocked session.dispensary left next)
    (policy : next.policy = stock.policy) (kept : next.kept = stock.kept) :
    Agrees engine session.dispensary (session.byWalk result walk) (.ok (result answer), next) := by
  obtain ⟨rows, stands, stocked⟩ := represents.stocked
  obtain ⟨left, ended, stocked⟩ := ran rows stocked
  obtain ⟨probe, walked, stands⟩ := Session.walk_eq stands ended
  rw [Session.byWalk, walked]
  exact ⟨rfl, rfl, represents.changed stands stocked policy kept⟩

/-- Writes that are kept are the writes of the edits that the stock keeps. -/
theorem keeping (represents : Represents engine session stock) (name : String) (edits : List Edit) :
    Agrees engine session.dispensary
      (session.keeping name (edits.map (Edit.write session.dispensary)))
      (stock.keep session.dispensary name edits) := by
  obtain ⟨rows, stands, stocked⟩ := represents.stocked
  have kept := congrArg ((name, edits.map (Edit.write session.dispensary)) :: ·) represents.kept
  exact ⟨rfl, rfl, represents.sound, represents.source, represents.policy, kept, rows, stands,
    stocked.ecPool, stocked.pqPool, stocked.legacy, stocked.lastResort⟩

/-- A policy that is set is the policy in force. -/
theorem setPolicy (represents : Represents engine session stock) (policy : Policy) :
    Represents engine (session.setPolicy policy) { stock with policy := policy } where
  sound := represents.sound
  source := represents.source
  policy := rfl
  kept := represents.kept
  stocked := by
    obtain ⟨rows, stands, stocked⟩ := represents.stocked
    exact ⟨rows, stands, stocked.ecPool, stocked.pqPool, stocked.legacy, stocked.lastResort⟩

/-- Writes that are committed make the edits that the stock keeps, all of them or none. -/
theorem commit (represents : Represents engine session stock) (names : List String) :
    Agrees engine session.dispensary (session.serve (.commit names))
      (stock.serve session.dispensary (.commit names)) := by
  -- The writes under the names are those of the edits under the names.
  have writes : names.flatMap session.keptWrites =
      (names.flatMap stock.keptEdits).map (Edit.write session.dispensary) := by
    rw [funext represents.keptWrites_eq, List.map_flatMap]
  obtain ⟨rows, stands, stocked⟩ := represents.stocked
  obtain ⟨probe, replied, stands⟩ := Session.direct_eq stands
    (.transact ((names.flatMap stock.keptEdits).map (Edit.write session.dispensary)))
  have answered := Edit.answer_transact session.dispensary engine rows
    (names.flatMap stock.keptEdits)
  -- Too many writes are refused as too many edits are, and otherwise all are made.
  rw [Session.serve, writes, replied]
  by_cases many : transactionLimit < (names.flatMap stock.keptEdits).length
  · rw [if_pos many] at answered
    rw [answered] at stands
    simp only [answered, Stock.serve, many, if_true]
    exact ⟨rfl, rfl, represents.changed stands stocked rfl rfl⟩
  · rw [if_neg many] at answered
    rw [answered] at stands
    simp only [answered, Stock.serve, many, if_false]
    have made := stocked.edits represents.sound engine (names.flatMap stock.keptEdits)
    exact ⟨rfl, rfl, represents.changed stands made (Stock.policy_edits ..) (Stock.kept_edits ..)⟩

/-- A session answers every request as its stock does. -/
theorem serve (represents : Represents engine session stock) (request : Request) :
    Agrees engine session.dispensary (session.serve request)
      (stock.serve session.dispensary request) := by
  -- For every request there is a lemma about the four maps, which the session is told to follow.
  have sound := represents.sound
  have policy := represents.policy_eq
  cases request with
  | storeEc identity device keys =>
    exact represents.byProgram (fun _ => .done)
      (fun _ stocked => stocked.storeEc sound engine identity device keys) rfl rfl
  | storePq identity device keys =>
    exact represents.byProgram (fun _ => .done)
      (fun _ stocked => stocked.storePq sound engine identity device keys) rfl rfl
  | takeEc identity device =>
    exact represents.byWalk .ecKey
      (fun _ stocked => stocked.takeEc sound engine identity device) rfl rfl
  | takePq identity device =>
    exact represents.byWalk .kemKey
      (fun _ stocked => stocked.takePq sound engine identity device) rfl rfl
  | countEc identity device =>
    exact represents.byProgram .count
      (fun rows stocked => ⟨rows, stocked.ecPool.count engine identity device, stocked⟩) rfl rfl
  | countPq identity device =>
    exact represents.byProgram .count
      (fun rows stocked => ⟨rows, stocked.pqPool.count engine identity device, stocked⟩) rfl rfl
  | storeLegacy identity device key =>
    -- The session asks the policy that the stock has.
    rw [Session.serve, policy]
    -- Whether or not the key is stored, nothing else changes.
    exact represents.byProgram (fun _ => .done)
      (fun _ stocked => stocked.storeLegacy sound engine identity device key)
      (by split <;> rfl) (by split <;> rfl)
  | findLegacy identity device =>
    exact represents.byProgram .legacyKey
      (fun rows stocked => ⟨rows, stocked.legacy.find engine identity device, stocked⟩) rfl rfl
  | storeLastResort identity device key =>
    exact represents.byProgram (fun _ => .done)
      (fun _ stocked => stocked.storeLastResort sound engine identity device key) rfl rfl
  | findLastResort identity device =>
    exact represents.byProgram .kemKey
      (fun rows stocked => ⟨rows, stocked.lastResort.find engine identity device, stocked⟩) rfl rfl
  | listDevices identity =>
    exact represents.byWalk .devices
      (fun rows stocked => ⟨rows, stocked.lastResort.devices engine identity, stocked⟩) rfl rfl
  | deletePools identity =>
    exact represents.byProgram (fun _ => .done)
      (fun _ stocked => stocked.deletePools sound engine identity) rfl rfl
  | deleteDevicePools identity device =>
    exact represents.byProgram (fun _ => .done)
      (fun _ stocked => stocked.deleteDevicePools sound engine identity device) rfl rfl
  | deleteAccount identity =>
    rw [Session.serve, policy]
    exact represents.byProgram (fun _ => .done)
      (fun _ stocked => stocked.deleteAccount sound engine identity) rfl rfl
  | keepLegacy name identity device key =>
    rw [Session.serve, policy, Dispensary.legacyWrite?, Stock.serve]
    by_cases stores : stock.policy.storesLegacy
    · rw [if_pos stores, if_pos stores]
      exact represents.keeping name [.fillLegacy identity device key]
    · rw [if_neg stores, if_neg stores]
      exact ⟨rfl, rfl, represents⟩
  | keepLastResort name identity device key =>
    exact represents.keeping name [.fillLastResort identity device key]
  | keepNewDevice name account phone device keys =>
    rw [Session.serve, policy, newDeviceWrites_eq]
    exact represents.keeping name _
  | keepRemovedDevice name account phone device =>
    rw [Session.serve, policy, removedDeviceWrites_eq]
    exact represents.keeping name _
  | commit names => exact represents.commit names
  | setPolicy policy =>
    have set := represents.setPolicy policy
    exact ⟨congrArg (fun now => some (Except.ok (Result.policy now))) set.policy_eq, rfl, set⟩
  | reloadPolicy text =>
    rw [Session.serve, Session.reloadPolicy, Stock.serve]
    cases Policy.parse text with
    | error error => exact ⟨rfl, rfl, represents⟩
    | ok policy => exact ⟨rfl, rfl, represents.setPolicy policy⟩

/-- A session answers requests, one after another, as its stock does. -/
theorem serveAll (represents : Represents engine session stock) (requests : List Request) :
    (session.serveAll requests).1 =
        (stock.serveAll session.dispensary requests).1.map some ∧
      Represents engine (session.serveAll requests).2
        (stock.serveAll session.dispensary requests).2 := by
  -- What a request leaves is represented again, so the next one is answered alike.
  induction requests generalizing session stock with
  | nil => exact ⟨rfl, represents⟩
  | cons request rest ih =>
    obtain ⟨answer, same, further⟩ := represents.serve request
    -- The requests that follow meet the same dispensary.
    obtain ⟨answers, ended⟩ := ih further
    rw [same] at answers ended
    rw [Session.serveAll, Stock.serveAll]
    refine ⟨?_, ended⟩
    rw [List.map_cons, ← answer, ← answers]

end Represents

namespace Session

/-- A session that starts without rows answers all requests as four maps without keys do. -/
theorem refines_stock {engine : Engine} {host : Host} (isNew : host.IsNew engine) (tables : Tables)
    (named : ∀ name ∈ tables.names, name ≠ "") (distinct : tables.names.Nodup) (policy : Policy) :
    ∃ session, Session.start host tables policy false [] = .ok session ∧
      ∀ requests,
        (session.serveAll requests).1 =
            ((Stock.empty policy).serveAll ⟨tables⟩ requests).1.map some ∧
          Represents engine (session.serveAll requests).2
            ((Stock.empty policy).serveAll ⟨tables⟩ requests).2 := by
  -- The tables have names and differ, so the session starts.
  have started : Session.start host tables policy false [] =
      .ok ⟨⟨host, [], []⟩, ⟨tables⟩, policy, .current, []⟩ := by
    rw [Session.start, Dispensary.make, Tables.validate_eq_ok named distinct]
    rfl
  refine ⟨_, started, fun requests => Represents.serveAll ?_ requests⟩
  -- At first there are neither rows nor writes that are kept.
  exact {
    sound := Dispensary.sound_of_nodup distinct
    source := rfl
    policy := rfl
    kept := rfl
    stocked := ⟨Rows.empty, ⟨rfl, isNew.stands⟩, .empty _ policy⟩ }

/-- A database with the usual tables, opened for the first time, answers as the maps do. -/
theorem refines_stock_usual :
    let disk : Disk := ⟨[], [], none⟩
    let host : Host := ⟨disk, .database ⟨tableVersion, some Rows.empty⟩⟩
    let tables : Tables := {}
    (host.IsNew .database ∧ (∀ name ∈ tables.names, name ≠ "") ∧ tables.names.Nodup) ∧
    ∃ session, Session.start host tables {} false [] = .ok session ∧
      ∀ requests,
        (session.serveAll requests).1 =
            ((Stock.empty {}).serveAll ⟨tables⟩ requests).1.map some ∧
          Represents .database (session.serveAll requests).2
            ((Stock.empty {}).serveAll ⟨tables⟩ requests).2 := by
  intro disk host tables
  have isNew : host.IsNew .database := .database disk rfl
  have named : ∀ name ∈ tables.names, name ≠ "" := by decide
  have distinct : tables.names.Nodup := by decide
  exact ⟨⟨isNew, named, distinct⟩, refines_stock isNew tables named distinct {}⟩

end Session

end KeyDispensary
