import KeyDispensary.Proofs.Keys.Isolation
import KeyDispensary.Proofs.Keys.Sharing
import KeyDispensary.Proofs.Keys.Slots

/-!
Takes of post-quantum keys that contend for one pool, beside others that are out of it. What they do to
the pool is what takes do that contend for it alone. Main statements: `Dispensary.Falling.run` and
`Dispensary.Falling.shared`.
-/

namespace KeyDispensary

variable {σ : Type} {engine : Engine} {identity : Identity} {device : Device} {rows left : Rows}

/-! ### What is seen of one pool -/

namespace Pool

variable {κ : Type} {pool : Pool κ}

/-- Pools are the same exactly if the same is found under all of their keys. -/
theorem contents_eq_iff : pool.contents identity device left = pool.contents identity device rows ↔
    left.AgreeOn (RowKey.InPool pool.table identity device) rows := by
  -- A row is in the pool exactly if its value is found under its key.
  constructor
  · intro same key inside
    apply Option.ext
    intro value
    have owned : pool.owns identity device ⟨key, value⟩ := inPool_iff.1 inside
    have members : (⟨key, value⟩ : Row) ∈ pool.contents identity device left ↔
        ⟨key, value⟩ ∈ pool.contents identity device rows := by rw [same]
    simpa [mem_contents, owned, Rows.get?_eq_some_iff] using members
  · -- A row is in both pools or in neither.
    refine fun agree => contents_congr fun row owned => ?_
    rw [← Rows.get?_eq_some_iff, ← Rows.get?_eq_some_iff, agree row.key (inPool_iff.2 owned)]

/-- The rows of a pool that were removed by key, the first first, each with who removed it. -/
def removedFrom (pool : Pool κ) (identity : Identity) (device : Device) (log : List (Event σ)) :
    List (Nat × Row) :=
  (removals log).filter fun removal => pool.owns identity device removal.2

/-- Each call adds the row that it removed, if the row was in the pool. -/
theorem removedFrom_cons (event : Event σ) (log : List (Event σ)) :
    pool.removedFrom identity device (event :: log) = pool.removedFrom identity device log ++
      (event.removal?.filter fun removal => pool.owns identity device removal.2).toList := by
  -- The latest call adds one row at most.
  rw [removedFrom, removals_cons, List.filter_append, ← removedFrom]
  cases event.removal? with
  | none => rfl
  | some removal => cases owned : pool.owns identity device removal.2 <;> simp [Option.filter, owned]

/-- A call out of a pool removes none of its rows. -/
theorem removedFrom_outside {events : List (Event σ)}
    (outside : ∀ event ∈ events, event.call.Within fun key => ¬ key.InPool pool.table identity device)
    (log : List (Event σ)) :
    pool.removedFrom identity device (events ++ log) = pool.removedFrom identity device log := by
  -- The calls are left out one by one.
  induction events with
  | nil => rfl
  | cons event rest ih =>
    have quiet : (event.removal?.filter fun removal => pool.owns identity device removal.2) = none := by
      rw [Option.filter_eq_none_iff]
      intro ⟨who, row⟩ removed owned
      -- What was removed had the key of the call.
      unfold Event.removal? at removed
      split at removed
      · obtain ⟨_, rfl⟩ := Prod.mk.inj (Option.some.inj removed)
        exact outside _ (.head _) (inPool_iff.2 owned)
      · cases removed
    rw [List.cons_append, removedFrom_cons, quiet, ih fun other member => outside other (.tail _ member)]
    exact List.append_nil _

variable [Record κ]

/-- The candidate of a take is one of the rows that there were at first. -/
theorem Stage.Fits.candidate {listed : List Row} {winners : List Nat} {who : Nat} {stage : Stage κ}
    (fits : stage.Fits pool listed winners who) {candidate : Item} {last : Option Bytes}
    (claims : stage = .claiming candidate last) : ∃ row ∈ listed, row.item = candidate := by
  -- A take claims the first row that it has seen, and all that it sees was there at first.
  cases fits with
  | asking => cases claims
  | @seen place =>
    cases shown : listed.drop place with
    | nil => rw [shown] at claims; cases claims
    | cons row rest =>
      rw [shown] at claims
      obtain ⟨same, _⟩ := Stage.claiming.inj claims
      exact ⟨row, List.mem_of_mem_drop (shown ▸ List.mem_cons_self), same⟩
  | won => cases claims

end Pool

namespace Dispensary

variable {dispensary : Dispensary}

/-! ### Takes that fall back -/

/-- Where a take of a post-quantum key stands. -/
inductive PqStage where
  /-- It takes a one-time key, or has been answered by the pool and turns to what it does next. -/
  | taking (stage : Pool.Stage SignedKemKey)
  /-- It has read the slot of the last-resort key and has its answer. -/
  | fallen (answer : Except KeyError (Option SignedKemKey))

namespace PqStage

/-- Where the take from the pool stands. -/
def pool : PqStage → Pool.Stage SignedKemKey
  | .taking stage => stage
  | .fallen _ => .answered (.ok none)

/-- The take from the pool alone stands where the take stands. -/
theorem stands {places : List PqStage} {who : Nat} {place : PqStage}
    (found : places[who]? = some place) : (places.map pool)[who]? = some place.pool := by
  rw [List.getElem?_map, found]
  rfl

/-- The take that stands somewhere. -/
def task (dispensary : Dispensary) (identity : Identity) (device : Device) : PqStage → Task
  | .taking stage =>
    stage.task dispensary.pqPool identity device (dispensary.afterTake identity device)
  | .fallen answer => .ended (dispensary.takePq identity device) answer

/-- A bound on the turns that a take still needs while nobody adds to the listed rows. -/
def turns (listed : List Row) : PqStage → Nat
  | .taking (.answered (.ok none)) => 1
  | .taking (.answered _) | .fallen _ => 0
  | .taking stage => stage.turns listed + 1

/-- A take needs one turn at most when the pool has answered it. -/
theorem turns_taking (listed : List Row) (stage : Pool.Stage SignedKemKey) :
    (taking stage).turns listed ≤ stage.turns listed + 1 := by
  unfold turns
  split <;> simp_all

/-- A take that has ended was answered by a pool that was not empty, or it has fallen back. -/
theorem of_ended {place : PqStage} {answer : Except KeyError (Option SignedKemKey)}
    (ended : place.task dispensary identity device =
      .ended (dispensary.takePq identity device) answer) :
    place = .taking (.answered answer) ∧ answer ≠ .ok none ∨ place = .fallen answer := by
  -- A take that is not over has a call left to make.
  cases place with
  | fallen answer' =>
    have same : (Program.done (.finished answer') : Program (Progress (Option Bytes) _)) =
        .done (.finished answer) := by simpa [task, Task.ended] using ended
    cases same
    exact .inr rfl
  -- A take whose pool was empty has its slot left to read.
  | taking stage =>
    have same : stage.left dispensary.pqPool identity device (dispensary.afterTake identity device) =
        .done (.finished answer) := by
      simpa [task, Pool.Stage.task, Task.ended, takePq_eq] using ended
    cases stage with
    | asking after => cases same
    | claiming candidate last => cases same
    | answered reply =>
      rcases reply with error | none | key <;> cases same
      · exact .inl ⟨rfl, by simp⟩
      · exact .inl ⟨rfl, by simp⟩

/-- A take that needs no more turns has ended. -/
theorem ended_of_turns {listed : List Row} {place : PqStage} (spent : place.turns listed = 0) :
    ∃ answer, place.task dispensary identity device =
      .ended (dispensary.takePq identity device) answer := by
  -- Only a take that has its answer needs no turn.
  cases place with
  | fallen answer => exact ⟨answer, rfl⟩
  | taking stage =>
    cases stage with
    | asking after => cases spent
    | claiming candidate last => cases spent
    | answered reply =>
      rcases reply with error | none | key
      · exact ⟨.error error, rfl⟩
      · cases spent
      · exact ⟨.ok (some key), rfl⟩

end PqStage

/-- Whether a call of a take read the slot of the last-resort key while the pool was empty. -/
structure Fell (dispensary : Dispensary) (identity : Identity) (device : Device) (who : Nat)
    (answer : Except KeyError (Option SignedKemKey)) (event : Event engine.State) : Prop where
  own : event.who = who
  reads : event.call = .get dispensary.tables.lastResort (slotKey identity device)
  empty : dispensary.pqPool.contents identity device (engine.rows event.store) = []
  held : answer = dispensary.lastResort.held identity device (engine.rows event.store)

/--
The state that takes of post-quantum keys have come to, with others beside them that are out of the pool.

The shadow is a crew of takes from the pool alone which has met the same pool.
-/
structure Falling (engine : Engine) (dispensary : Dispensary) (identity : Identity) (device : Device)
    (rows : Rows) (crew shadow : Crew engine.State) (winners : List Nat) (places : List PqStage) :
    Prop where
  contended : dispensary.pqPool.Contended engine identity device rows shadow winners
    (places.map PqStage.pool)
  holds : crew.store = engine.holding (engine.rows crew.store)
  same : dispensary.pqPool.contents identity device (engine.rows crew.store) =
    dispensary.pqPool.contents identity device (engine.rows shadow.store)
  takers : ∀ (who : Nat) (place : PqStage), places[who]? = some place →
    crew.tasks[who]? = some (place.task dispensary identity device)
  others : ∀ (who : Nat) (task : Task), places[who]? = none → crew.tasks[who]? = some task →
    task.Confined engine fun key => ¬ key.InPool dispensary.pqPool.table identity device
  removed : dispensary.pqPool.removedFrom identity device crew.log = removals shadow.log
  fallen : ∀ (who : Nat) (answer : Except KeyError (Option SignedKemKey)),
    places[who]? = some (.fallen answer) →
    ∃ event ∈ crew.log, Fell dispensary identity device who answer event

namespace Falling

variable {crew shadow shadow' : Crew engine.State} {winners winners' : List Nat}
  {places : List PqStage} {who : Nat} {place : PqStage}

/-- Takes that have made no call contend for all rows of the pool. -/
theorem begun (engine : Engine) (dispensary : Dispensary) (identity : Identity) (device : Device)
    (rows : Rows) (takers : Nat) {others : List Task} (confined : ∀ task ∈ others,
      task.Confined engine fun key => ¬ key.InPool dispensary.pqPool.table identity device) :
    Falling engine dispensary identity device rows
      (.begun (engine.holding rows)
        (List.replicate takers (.begun (dispensary.takePq identity device)) ++ others))
      (dispensary.pqPool.takers identity device takers (engine.holding rows)) []
      (List.replicate takers (.taking (.asking none))) where
  contended := by
    -- At first the pool is the same in both crews, and nobody has fallen back.
    rw [List.map_replicate]
    exact .begun engine dispensary.pqPool identity device rows takers
  holds := by
    change engine.holding rows = engine.holding (engine.rows (engine.holding rows))
    rw [Engine.rows_holding]
  same := rfl
  takers who place found := by
    obtain rfl := List.eq_of_mem_replicate (List.mem_of_getElem? found)
    have early : who < takers := by simpa using (List.getElem?_eq_some_iff.1 found).1
    simp only [Crew.begun]
    rw [List.getElem?_append_left (by simpa using early), List.getElem?_replicate_of_lt early]
    rfl
  others who task absent found := by
    have late : takers ≤ who := by simpa using List.getElem?_eq_none_iff.1 absent
    simp only [Crew.begun] at found
    rw [List.getElem?_append_right (by simpa using late)] at found
    exact confined task (List.mem_of_getElem? found)
  removed := rfl
  fallen who answer found := by
    cases List.eq_of_mem_replicate (List.mem_of_getElem? found)

/-- A turn of a take in which it makes a call. -/
theorem own (state : Falling engine dispensary identity device rows crew shadow winners places)
    (found : places[who]? = some place) (next : PqStage) {left : Rows} {event : Event engine.State}
    (contended : dispensary.pqPool.Contended engine identity device rows shadow' winners'
      ((places.map PqStage.pool).set who next.pool))
    (same : dispensary.pqPool.contents identity device left =
      dispensary.pqPool.contents identity device (engine.rows shadow'.store))
    (removed : dispensary.pqPool.removedFrom identity device (event :: crew.log) =
      removals shadow'.log)
    (fell : ∀ answer, next = .fallen answer → Fell dispensary identity device who answer event) :
    Falling engine dispensary identity device rows
      ⟨engine.holding left, crew.tasks.set who (next.task dispensary identity device),
        event :: crew.log⟩ shadow' winners' (places.set who next) where
  contended := by rwa [List.map_set]
  holds := by
    change engine.holding left = engine.holding (engine.rows (engine.holding left))
    rw [Engine.rows_holding]
  same := by
    change dispensary.pqPool.contents identity device (engine.rows (engine.holding left)) = _
    rw [Engine.rows_holding, same]
  takers other place' found' := by
    -- Only the take that has the turn stands elsewhere now.
    by_cases here : who = other
    · subst here
      rw [List.getElem?_set_self (List.getElem?_eq_some_iff.1 found).1] at found'
      obtain rfl := Option.some.inj found'
      exact List.getElem?_set_self (List.getElem?_eq_some_iff.1 (state.takers who place found)).1
    · rw [List.getElem?_set_ne here] at found'
      exact (List.getElem?_set_ne here).trans (state.takers other place' found')
  others other task absent found' := by
    -- The others are those that are no takes, and they stand where they stood.
    have absent' : places[other]? = none := by simpa using absent
    have apart : who ≠ other := by
      rintro rfl
      cases found.symm.trans absent'
    exact state.others other task absent' ((List.getElem?_set_ne apart).symm.trans found')
  removed := removed
  fallen other answer found' := by
    by_cases here : who = other
    · subst here
      rw [List.getElem?_set_self (List.getElem?_eq_some_iff.1 found).1] at found'
      exact ⟨event, .head _, fell answer (Option.some.inj found')⟩
    · rw [List.getElem?_set_ne here] at found'
      obtain ⟨earlier, member, was⟩ := state.fallen other answer found'
      exact ⟨earlier, .tail _ member, was⟩

/-- A turn of a take that has ended. -/
theorem stays (state : Falling engine dispensary identity device rows crew shadow winners places)
    (found : places[who]? = some place) {answer : Except KeyError (Option SignedKemKey)}
    (ended : place.task dispensary identity device =
      .ended (dispensary.takePq identity device) answer) :
    Falling engine dispensary identity device rows (crew.step who) shadow winners
      (places.set who place) := by
  -- A take that has ended makes no call, and stands where it stood.
  have task : crew.tasks[who]? = some (.ended (dispensary.takePq identity device) answer) :=
    ended ▸ state.takers who place found
  obtain ⟨inside, rfl⟩ := List.getElem?_eq_some_iff.1 found
  rwa [Crew.step_ended task, List.set_getElem_self]

/-- A turn of a take that asks for a key. -/
theorem ask (state : Falling engine dispensary identity device rows crew shadow winners places)
    {after : Option Bytes} (found : places[who]? = some (.taking (.asking after))) :
    let next := (Pool.Stage.asking after).turned engine dispensary.pqPool identity device
      (engine.rows shadow.store)
    (∃ winners, Falling engine dispensary identity device rows (crew.step who) (shadow.step who) winners
      (places.set who (.taking next))) ∧ next.turns (dispensary.pqPool.contents identity device rows) ≤
        (Pool.Stage.asking after : Pool.Stage SignedKemKey).turns
          (dispensary.pqPool.contents identity device rows) - 1 ∧
      (crew.step who).store = crew.store := by
  -- The take from the pool alone makes the same turn in the shadow.
  have stands : (places.map PqStage.pool)[who]? = some (.asking after) := PqStage.stands found
  obtain ⟨⟨winners', contended⟩, turns⟩ := state.contended.step stands
  have stepped := Pool.step_asking state.contended.holds (state.contended.task stands)
  have stepped' := Pool.step_asking state.holds (state.takers who _ found)
  -- Both crews see the same rows of the pool.
  have shown : engine.found (engine.rows crew.store) (dispensary.pqPool.asked identity device after) =
      engine.found (engine.rows shadow.store) (dispensary.pqPool.asked identity device after) := by
    rw [Pool.found_asked, Pool.found_asked, state.same]
  refine ⟨⟨winners', ?_⟩, turns, by rw [stepped']; exact state.holds.symm⟩
  rw [stepped', shown]
  refine state.own found (.taking _) contended ?_ ?_ (by simp)
  · rw [stepped, state.same]
    exact congrArg _ (Engine.rows_holding engine (engine.rows shadow.store)).symm
  · rw [Pool.removedFrom_cons, state.removed, stepped, removals_cons]
    rfl

/-- A turn of a take that claims a key. -/
theorem claim (state : Falling engine dispensary identity device rows crew shadow winners places)
    {candidate : Item} {last : Option Bytes}
    (found : places[who]? = some (.taking (.claiming candidate last))) :
    let next := (Pool.Stage.claiming candidate last).turned engine dispensary.pqPool identity device
      (engine.rows shadow.store)
    (∃ winners, Falling engine dispensary identity device rows (crew.step who) (shadow.step who) winners
      (places.set who (.taking next))) ∧ next.turns (dispensary.pqPool.contents identity device rows) ≤
        (Pool.Stage.claiming candidate last : Pool.Stage SignedKemKey).turns
          (dispensary.pqPool.contents identity device rows) - 1 ∧
      (engine.rows (crew.step who).store) =
        (engine.rows crew.store).erase (RowKey.of dispensary.pqPool.table candidate.key) := by
  -- The take from the pool alone makes the same turn in the shadow.
  have stands : (places.map PqStage.pool)[who]? = some (.claiming candidate last) := PqStage.stands found
  obtain ⟨⟨winners', contended⟩, turns⟩ := state.contended.step stands
  have stepped := Pool.step_claiming state.contended.holds (state.contended.task stands)
  have stepped' := Pool.step_claiming state.holds (state.takers who _ found)
  -- The candidate is a row of the pool, which is the same in both crews.
  obtain ⟨row, member, rfl⟩ := (state.contended.fits who _ stands).candidate rfl
  have owned := (Pool.mem_contents.1 member).2
  have value := Pool.contents_eq_iff.1 state.same row.key (Pool.inPool_iff.2 owned)
  rw [Pool.rowKey_of_owned owned] at stepped stepped'
  refine ⟨⟨winners', ?_⟩, turns, ?_⟩
  · -- Both crews remove the same row or none.
    rw [stepped', value]
    have key : (Pool.Stage.claiming row.item last : Pool.Stage SignedKemKey).turned engine
        dispensary.pqPool identity device (engine.rows shadow.store) =
          .claimed dispensary.pqPool last ((engine.rows shadow.store).get? row.key) := by
      rw [Pool.Stage.turned, Pool.rowKey_of_owned owned]
    rw [key] at contended ⊢
    refine state.own found (.taking _) contended ?_ ?_ (by simp)
    · rw [stepped, Engine.rows_holding, Pool.contents_erase, Pool.contents_erase, state.same]
    · rw [Pool.removedFrom_cons, state.removed, stepped, removals_cons]
      cases (engine.rows shadow.store).get? row.key with
      | none => rfl
      | some value =>
        have taken : dispensary.pqPool.owns identity device
            ⟨RowKey.of dispensary.pqPool.table row.item.key, value⟩ := by
          rw [Pool.rowKey_of_owned owned, ← owned]
          exact Pool.owns_congr rfl
        simp [Event.removal?, Option.filter, taken]
  · rw [stepped', Engine.rows_holding, Pool.rowKey_of_owned owned]

/-- A turn of a take that has found the pool empty and reads the slot of the last-resort key. -/
theorem fall (state : Falling engine dispensary identity device rows crew shadow winners places)
    (found : places[who]? = some (.taking (.answered (.ok none)))) :
    Falling engine dispensary identity device rows (crew.step who) shadow winners (places.set who
      (.fallen (dispensary.lastResort.held identity device (engine.rows crew.store)))) ∧
      engine.rows (crew.step who).store = engine.rows crew.store := by
  have stands : (places.map PqStage.pool)[who]? = some (.answered (.ok none)) := PqStage.stands found
  -- The take from the pool alone has ended, so that the pool is empty.
  have ended : shadow.tasks[who]? =
      some (.ended (dispensary.pqPool.take identity device) (.ok none)) := by
    rw [state.contended.task stands, Pool.answered_task, Pool.takeThen_done]
  have empty := state.same.trans (state.contended.exhausted ended)
  -- The turn reads the slot, and what it finds is the answer.
  have stepped : crew.step who =
      ⟨engine.holding (engine.rows crew.store), crew.tasks.set who
          ((PqStage.fallen (dispensary.lastResort.held identity device (engine.rows crew.store))).task
            dispensary identity device),
        ⟨who, crew.store, .get dispensary.lastResort.table (slotKey identity device),
          .ok ((engine.rows crew.store).get?
            (RowKey.of dispensary.lastResort.table (slotKey identity device)))⟩ :: crew.log⟩ := by
    rw [Crew.step_ask (state.takers who _ found), state.holds, Engine.perform_holding,
      Engine.rows_holding]
    simp only [Engine.answer, Slots.held]
    cases (engine.rows crew.store).get?
      (RowKey.of dispensary.lastResort.table (slotKey identity device)) <;> rfl
  rw [stepped, Engine.rows_holding]
  refine ⟨state.own found (.fallen _) ?_ state.same ?_ ?_, rfl⟩
  · -- Nothing is new to the take from the pool alone.
    have same : (places.map PqStage.pool).set who (.answered (.ok none)) = places.map PqStage.pool := by
      obtain ⟨inside, here⟩ := List.getElem?_eq_some_iff.1 stands
      rw [← here, List.set_getElem_self]
    rw [PqStage.pool, same]
    exact state.contended
  · rw [Pool.removedFrom_cons, state.removed]
    exact List.append_nil _
  · intro answer same
    obtain rfl := PqStage.fallen.inj same
    exact ⟨rfl, rfl, empty, rfl⟩

/-- A turn of somebody else. -/
theorem step_other (state : Falling engine dispensary identity device rows crew shadow winners places)
    (absent : places[who]? = none) :
    Falling engine dispensary identity device rows (crew.step who) shadow winners places := by
  -- The turn changes nothing in the pool and removes none of its rows.
  cases found : crew.tasks[who]? with
  | none => rwa [Crew.step_nobody found]
  | some task =>
    obtain ⟨left, next, events, stepped, confined, outside, calls⟩ :=
      Crew.step_confined state.holds found (state.others who task absent found)
    rw [stepped]
    exact {
      contended := state.contended
      holds := by
        change engine.holding left = engine.holding (engine.rows (engine.holding left))
        rw [Engine.rows_holding]
      same := by
        change dispensary.pqPool.contents identity device (engine.rows (engine.holding left)) = _
        rw [Engine.rows_holding, ← state.same]
        exact Pool.contents_eq_iff.2 fun key inside => outside key fun out => out inside
      takers := by
        intro other place stands
        -- Whoever has the turn is no take.
        have apart : who ≠ other := by
          rintro rfl
          cases absent.symm.trans stands
        exact (List.getElem?_set_ne apart).trans (state.takers other place stands)
      others := fun other task absent' found' =>
        Task.Confined.set (fun _ => confined) (fun task _ => state.others other task absent') found'
      removed := (Pool.removedFrom_outside (fun event member => (calls event member).2) _).trans
        state.removed
      fallen := by
        intro other answer stands
        obtain ⟨event, member, fell⟩ := state.fallen other answer stands
        exact ⟨event, List.mem_append_right _ member, fell⟩ }

/-- A turn of a take brings it nearer to its answer, and changes its pool alone. -/
theorem step_own (state : Falling engine dispensary identity device rows crew shadow winners places)
    (found : places[who]? = some place) :
    (∃ next, (∃ shadow winners, Falling engine dispensary identity device rows (crew.step who) shadow
        winners (places.set who next)) ∧
      next.turns (dispensary.pqPool.contents identity device rows) ≤
        place.turns (dispensary.pqPool.contents identity device rows) - 1) ∧
    ∀ key : RowKey, key.table ≠ dispensary.tables.pqPool →
      (engine.rows (crew.step who).store).get? key = (engine.rows crew.store).get? key := by
  -- The turn is that of where the take stands.
  have ended {answer : Except KeyError (Option SignedKemKey)} (same : place.task dispensary identity
      device = .ended (dispensary.takePq identity device) answer) : crew.step who = crew :=
    Crew.step_ended (same ▸ state.takers who place found)
  -- While the take is at the pool, reading the slot is one more turn that it may need.
  have nearer {now next : Pool.Stage SignedKemKey} {listed : List Row}
      (less : next.turns listed ≤ now.turns listed - 1) (positive : 0 < now.turns listed) :
      (PqStage.taking next).turns listed ≤ now.turns listed + 1 - 1 := by
    have most := PqStage.turns_taking listed next
    omega
  cases place with
  | fallen answer =>
    exact ⟨⟨_, ⟨_, _, state.stays found rfl⟩, Nat.zero_le _⟩, fun key _ => by rw [ended rfl]⟩
  | taking stage =>
    cases stage with
    | asking after =>
      obtain ⟨⟨winners, further⟩, less, kept⟩ := state.ask found
      exact ⟨⟨_, ⟨_, winners, further⟩, nearer less (Nat.succ_pos _)⟩, fun key _ => by rw [kept]⟩
    | claiming candidate last =>
      obtain ⟨⟨winners, further⟩, less, erased⟩ := state.claim found
      refine ⟨⟨_, ⟨_, winners, further⟩, nearer less ?_⟩, fun key apart => ?_⟩
      · cases last <;> exact Nat.succ_pos _
      · rw [erased, Rows.get?_erase, if_neg]
        rintro rfl
        exact apart rfl
    | answered reply =>
      rcases reply with error | none | key
      · exact ⟨⟨_, ⟨_, _, state.stays found rfl⟩, Nat.zero_le _⟩, fun key _ => by rw [ended rfl]⟩
      · -- The pool was empty, so the turn reads the slot.
        obtain ⟨further, kept⟩ := state.fall found
        exact ⟨⟨_, ⟨_, _, further⟩, Nat.zero_le _⟩, fun key _ => by rw [kept]⟩
      · exact ⟨⟨_, ⟨_, _, state.stays found rfl⟩, Nat.zero_le _⟩, fun key _ => by rw [ended rfl]⟩

/-- A schedule leaves takes falling back, and a take that has had enough turns has ended. -/
theorem run (state : Falling engine dispensary identity device rows crew shadow winners places)
    (schedule : List Nat) : ∃ ends, (∃ shadow winners, Falling engine dispensary identity device rows
        (crew.run schedule) shadow winners ends) ∧ ends.length = places.length ∧
      ∀ (who : Nat) (place next : PqStage), places[who]? = some place → ends[who]? = some next →
        next.turns (dispensary.pqPool.contents identity device rows) ≤
          place.turns (dispensary.pqPool.contents identity device rows) - schedule.count who :=
  Crew.run_nearer
    (fun crew places => ∃ shadow winners,
      Falling engine dispensary identity device rows crew shadow winners places)
    (PqStage.turns (dispensary.pqPool.contents identity device rows))
    (fun _ _ _ _ ⟨_, _, state⟩ found => (state.step_own found).1)
    (fun _ _ _ ⟨_, _, state⟩ absent => ⟨_, _, state.step_other absent⟩)
    ⟨shadow, winners, state⟩ schedule

/-- The takes are the first tasks. -/
theorem tasks_take (state : Falling engine dispensary identity device rows crew shadow winners places) :
    crew.tasks.take places.length = places.map (PqStage.task dispensary identity device) := by
  -- The tasks are compared one by one, and behind the takes come the others.
  apply List.ext_getElem?
  intro who
  rw [List.getElem?_take, List.getElem?_map]
  cases found : places[who]? with
  | none => exact if_neg (Nat.not_lt.2 (List.getElem?_eq_none_iff.1 found))
  | some place =>
    rw [if_pos (List.getElem?_eq_some_iff.1 found).1, state.takers who place found]
    rfl

end Falling

/-- Whether the first tasks of a crew are takes that have all returned, with the given answers. -/
def PqReturned (dispensary : Dispensary) (identity : Identity) (device : Device) (crew : Crew σ)
    (takers : Nat) (answers : List (Except KeyError (Option SignedKemKey))) : Prop :=
  crew.tasks.take takers = answers.map (.ended (dispensary.takePq identity device))

/-- How takes that have returned have shared the rows of a pool, which held the given keys. -/
structure PqShared (dispensary : Dispensary) (identity : Identity) (device : Device) (rows : Rows)
    (keys : List SignedKemKey) (crew : Crew engine.State) (takers : Nat)
    (answers : List (Except KeyError (Option SignedKemKey))) (winners : List Nat) : Prop where
  distinct : winners.Nodup
  many : winners.length = min takers keys.length
  /-- Each of the first rows was removed once, by a take of its own. -/
  removed : dispensary.pqPool.removedFrom identity device crew.log =
    winners.zip (dispensary.pqPool.contents identity device rows)
  /-- That take has returned its key. -/
  won : ∀ place who : Nat, winners[place]? = some who →
    answers[who]? = keys[place]?.map fun key => .ok (some key)
  /-- Every other take has returned what it read in the slot when the pool was empty. -/
  fell : ∀ who < takers, who ∉ winners → ∃ answer, answers[who]? = some answer ∧
    ∃ event ∈ crew.log, Fell dispensary identity device who answer event

namespace Falling

variable {crew shadow : Crew engine.State} {winners : List Nat} {places : List PqStage} {who : Nat}
  {place : PqStage} {answers : List (Except KeyError (Option SignedKemKey))}

/-- Where a take stands when all have returned. -/
theorem returned
    (state : Falling engine dispensary identity device rows crew shadow winners places)
    (ended : PqReturned dispensary identity device crew places.length answers)
    (found : places[who]? = some place) : ∃ answer, answers[who]? = some answer ∧
      (place = .taking (.answered answer) ∧ answer ≠ .ok none ∨ place = .fallen answer) := by
  -- The tasks of the takes are compared one by one.
  have tasks := congrArg (·[who]?) (state.tasks_take.symm.trans ended)
  simp only [List.getElem?_map, found, Option.map_some] at tasks
  obtain ⟨answer, given, ended⟩ := Option.map_eq_some_iff.1 tasks.symm
  exact ⟨answer, given, PqStage.of_ended ended.symm⟩

/-- Takes that need no more turns have all returned. -/
theorem all_returned (state : Falling engine dispensary identity device rows crew shadow winners places)
    (spent : ∀ place ∈ places,
      place.turns (dispensary.pqPool.contents identity device rows) = 0) :
    ∃ answers, PqReturned dispensary identity device crew places.length answers := by
  -- Each take has an answer, and so there is a list of them.
  have lifted : places.map (PqStage.task dispensary identity device) ∈
      Set.range (List.map (Task.ended (dispensary.takePq identity device))) := by
    rw [Set.range_list_map]
    intro task member
    obtain ⟨place, inside, rfl⟩ := List.mem_map.1 member
    obtain ⟨answer, ended⟩ := PqStage.ended_of_turns (spent place inside)
    exact ⟨answer, ended.symm⟩
  obtain ⟨answers, all⟩ := lifted
  exact ⟨answers, state.tasks_take.trans all.symm⟩

/-- When all takes have returned, those from the pool alone have all been answered. -/
theorem exists_replies
    (state : Falling engine dispensary identity device rows crew shadow winners places)
    (ended : PqReturned dispensary identity device crew places.length answers) :
    ∃ replies : List (Except KeyError (Option SignedKemKey)),
      replies.map Pool.Stage.answered = places.map PqStage.pool := by
  have lifted : places.map PqStage.pool ∈
      Set.range (List.map (Pool.Stage.answered : _ → Pool.Stage SignedKemKey)) := by
    rw [Set.range_list_map]
    intro stage member
    obtain ⟨place, inside, rfl⟩ := List.mem_map.1 member
    obtain ⟨who, found⟩ := List.mem_iff_getElem?.1 inside
    obtain ⟨answer, _, ⟨rfl, _⟩ | rfl⟩ := state.returned ended found
    · exact ⟨answer, rfl⟩
    · -- A take that has fallen back has found its pool empty.
      exact ⟨.ok none, rfl⟩
  exact lifted

/-- A take that the pool has given a key has returned that key. -/
theorem answer_of_key
    (state : Falling engine dispensary identity device rows crew shadow winners places)
    (ended : PqReturned dispensary identity device crew places.length answers)
    (found : places[who]? = some place) {key : SignedKemKey}
    (given : place.pool = .answered (.ok (some key))) : answers[who]? = some (.ok (some key)) := by
  obtain ⟨answer, returned, ⟨rfl, _⟩ | rfl⟩ := state.returned ended found
  · rw [returned, Pool.Stage.answered.inj given]
  · -- A take that has fallen back was given none.
    cases given

/-- A take that has won no row has returned what it read in the slot when the pool was empty. -/
theorem fell_of_loser
    (state : Falling engine dispensary identity device rows crew shadow winners places)
    (ended : PqReturned dispensary identity device crew places.length answers)
    (found : places[who]? = some place) (loser : who ∉ winners) :
    ∃ answer, answers[who]? = some answer ∧
      ∃ event ∈ crew.log, Fell dispensary identity device who answer event := by
  obtain ⟨answer, returned, ⟨rfl, apart⟩ | rfl⟩ := state.returned ended found
  · rcases (state.contended.fits who _ (PqStage.stands found)).answered rfl with
      ⟨none, _⟩ | ⟨_, _, winner, _⟩
    · -- A take that has lost in its pool has not returned from there.
      exact absurd none apart
    · exact absurd (List.mem_of_getElem? winner) loser
  · exact ⟨answer, returned, state.fallen who answer found⟩

/-- Takes that have all returned have shared the rows of the pool. -/
theorem shared (state : Falling engine dispensary identity device rows crew shadow winners places)
    (ended : PqReturned dispensary identity device crew places.length answers)
    {keys : List SignedKemKey}
    (decoded : (dispensary.pqPool.contents identity device rows).map
      (fun row => recordOf SignedKemKey dispensary.pqPool.table row.value) = keys.map .ok) :
    PqShared dispensary identity device rows keys crew places.length answers winners := by
  -- The takes from the pool alone have shared its rows, and each take has done as its own has.
  obtain ⟨replies, all⟩ := state.exists_replies ended
  have contended := state.contended
  rw [← all] at contended
  have size : keys.length = (dispensary.pqPool.contents identity device rows).length := by
    simpa using (congrArg List.length decoded).symm
  have count : replies.length = places.length := by simpa using congrArg List.length all
  have many : winners.length = min places.length keys.length := by
    rw [contended.length_winners, size, count]
  refine ⟨contended.distinct, many, state.removed.trans contended.removed,
    fun place who winner => ?_,
    fun who present loser => state.fell_of_loser ended (List.getElem?_eq_getElem present) loser⟩
  -- There are no more winners than keys.
  have early : place < keys.length := by
    have inside := (List.getElem?_eq_some_iff.1 winner).1
    omega
  have present : who < places.length := by
    simpa [count] using contended.present who (List.mem_of_getElem? winner)
  have found := List.getElem?_eq_getElem present
  have key := contended.winner_answer decoded winner
  rw [List.getElem?_eq_getElem early, Option.map_some] at key ⊢
  -- The reply of the pool is where the take from the pool alone stands.
  have reply := PqStage.stands found
  rw [← all, List.getElem?_map, key] at reply
  exact state.answer_of_key ended found (Option.some.inj reply).symm

end Falling

end Dispensary

end KeyDispensary
