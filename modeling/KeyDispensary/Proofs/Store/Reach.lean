import KeyDispensary.Proofs.Store.Crew
import KeyDispensary.Proofs.Store.Following
import KeyDispensary.Proofs.Store.Merging

/-!
What lies within the reach of calls. A program whose calls stay within some keys changes nothing else, and
what is under other keys does not change its answer. Main statements: `Walk.Confined.run` and
`Walk.Confined.run_alike`.
-/

namespace KeyDispensary

variable {π α β : Type} {reach : RowKey → Prop} {engine : Engine} {rows rows' : Rows}

/-- Whether two contents have the same under all keys of which a test holds. -/
def Rows.AgreeOn (reach : RowKey → Prop) (rows rows' : Rows) : Prop :=
  ∀ key, reach key → rows.get? key = rows'.get? key

/-- Whether all keys of a range are within reach. -/
def RangeWithin (reach : RowKey → Prop) (table : String) (partition lead : Bytes) : Prop :=
  ∀ key, Row.begins ⟨key, []⟩ table partition lead → reach key

/-- Whether all keys that a write reads or writes are within reach. -/
def Write.Within (reach : RowKey → Prop) : Write → Prop
  | .put table item => reach (RowKey.of table item.key)
  | .delete table key => reach (RowKey.of table key)
  | .deleteRange table partition lead => RangeWithin reach table partition lead
  | .check table key _ => reach (RowKey.of table key)

/-- Whether all keys that a call reads or writes are within reach. -/
def Call.Within (reach : RowKey → Prop) : Call → Prop
  | .get table key | .delete table key => reach (RowKey.of table key)
  | .put table item => reach (RowKey.of table item.key)
  | .query asked => RangeWithin reach asked.table asked.partition asked.lead
  | .count table partition lead => RangeWithin reach table partition lead
  | .transact writes => ∀ write ∈ writes, write.Within reach
  | .replace table partition lead items => RangeWithin reach table partition lead ∧
    ∀ item ∈ items, reach (RowKey.of table item.key)

/-- A write within reach is within a wider reach. -/
theorem Write.Within.mono {wider : RowKey → Prop} {write : Write} (within : write.Within reach)
    (wide : ∀ key, reach key → wider key) : write.Within wider := by
  cases write with
  | put | delete | check => exact wide _ within
  | deleteRange => exact fun key begins => wide key (within key begins)

/-- A call within reach is within a wider reach. -/
theorem Call.Within.mono {wider : RowKey → Prop} {call : Call} (within : call.Within reach)
    (wide : ∀ key, reach key → wider key) : call.Within wider := by
  -- Every key that a call is about is in the wider reach.
  cases call with
  | get | put | delete => exact wide _ within
  | query | count => exact fun key begins => wide key (within key begins)
  | transact => exact fun write member => (within write member).mono wide
  | replace =>
    exact ⟨fun key begins => wide key (within.1 key begins),
      fun item member => wide _ (within.2 item member)⟩

/-- A write spares every key out of its reach. -/
theorem Write.Within.spares {write : Write} (within : write.Within reach) {key : RowKey}
    (outside : ¬ reach key) : write.Spares key := by
  -- The key that a write names is within reach, and this one is not.
  cases write with
  | put table item => exact fun same => outside (same ▸ within)
  | delete table erased => exact fun same => outside (same ▸ within)
  | deleteRange table partition lead => exact fun begins => outside (within key begins)
  | check => trivial

namespace Engine

/-- Contents that agree within reach have the same rows in a range within reach. -/
theorem range_congr (agree : rows.AgreeOn reach rows') {table : String} {partition lead : Bytes}
    (within : RangeWithin reach table partition lead) :
    engine.range rows table partition lead = engine.range rows' table partition lead := by
  -- Both ranges are in ascending order, so it is enough that they have the same rows.
  refine Rows.eq_of_mem_iff (rows.ascending.filter _) (rows'.ascending.filter _) fun row => ?_
  rw [range, range, List.mem_filter, List.mem_filter]
  refine and_congr_left fun covered => ?_
  -- Whatever the range covers begins as the range does.
  have inside : reach row.key := within row.key (Bool.and_eq_true_iff.1 covered).1
  have found (rows : Rows) : row ∈ rows.toList ↔ rows.get? row.key = some row.value :=
    Rows.get?_eq_some_iff.symm
  rw [found, found, agree row.key inside]

/-- Contents that agree within reach have the same conflict with a write within reach. -/
theorem unmet?_congr (agree : rows.AgreeOn reach rows') {write : Write}
    (within : write.Within reach) : write.unmet? rows = write.unmet? rows' := by
  -- A check looks at one key, which is within reach.
  cases write with
  | put | delete | deleteRange => rfl
  | check table key condition => simp only [Write.unmet?, agree _ within]

/-- Contents that agree within reach have the same first conflict with writes within reach. -/
theorem findSome?_unmet?_congr (agree : rows.AgreeOn reach rows') {writes : List Write}
    (within : ∀ write ∈ writes, write.Within reach) :
    writes.findSome? (Write.unmet? rows) = writes.findSome? (Write.unmet? rows') := by
  -- Each check reads one key, which is within reach.
  induction writes with
  | nil => rfl
  | cons write rest ih =>
    rw [List.findSome?_cons, List.findSome?_cons, unmet?_congr agree (within write List.mem_cons_self),
      ih fun other member => within other (.tail _ member)]

/-- Writes leave contents that agree within reach in agreement there. -/
theorem writes_congr {writes : List Write} {rows rows' : Rows} (agree : rows.AgreeOn reach rows') :
    (writes.foldl (Write.apply engine.clear) rows).AgreeOn reach
      (writes.foldl (Write.apply engine.clear) rows') := by
  -- What a write leaves under a key depends on what was under that key alone.
  induction writes generalizing rows rows' with
  | nil => exact agree
  | cons write rest ih =>
    refine ih fun key inside => ?_
    rw [get?_apply, get?_apply]
    exact edit_congr write (agree key inside)

/-- A call does not change what is out of its reach. -/
theorem get?_answer_outside {call : Call} (within : call.Within reach) {key : RowKey}
    (outside : ¬ reach key) : (engine.answer rows call).2.get? key = rows.get? key := by
  -- Only four kinds of calls write, and each of them only under keys within reach.
  cases call with
  | get | query | count => rfl
  | put table item =>
    have other : key ≠ (Row.of table item).key := fun same => outside (same ▸ within)
    exact (Rows.get?_insert ..).trans (if_neg other)
  | delete table erased =>
    have other : key ≠ RowKey.of table erased := fun same => outside (same ▸ within)
    exact (Rows.get?_erase ..).trans (if_neg other)
  | transact writes =>
    exact get?_transact_of_spares fun write member => (within write member).spares outside
  | replace table partition lead items =>
    -- The key is neither that of an item nor in the range.
    have absent : (items.reverse.find? fun item => RowKey.of table item.key = key) = none := by
      rw [List.find?_eq_none]
      intro item member same
      exact outside (of_decide_eq_true same ▸ within.2 item (List.mem_reverse.1 member))
    refine (Rows.get?_putAll ..).trans ?_
    rw [absent, get?_clear, if_neg fun covered => outside (within.1 key ?_)]
    · rfl
    · exact (Bool.and_eq_true_iff.1 covered).1

/-- A call is answered alike by contents that agree within its reach, and leaves them in agreement. -/
theorem answer_congr (engine : Engine) {call : Call} (within : call.Within reach)
    (agree : rows.AgreeOn reach rows') :
    (engine.answer rows call).1 = (engine.answer rows' call).1 ∧
      (engine.answer rows call).2.AgreeOn reach (engine.answer rows' call).2 := by
  -- The reply is computed from keys within reach, and so is what is left under them.
  cases call with
  | get table key => exact ⟨by simp only [answer, agree _ within], agree⟩
  | query query => exact ⟨by simp only [answer, found, range_congr agree within], agree⟩
  | count table partition lead => exact ⟨by simp only [answer, range_congr agree within], agree⟩
  -- What is written is the same, and every other key keeps the value that both agree on.
  | put table item =>
    refine ⟨rfl, fun key inside => ?_⟩
    change (rows.insert _).get? key = (rows'.insert _).get? key
    rw [Rows.get?_insert, Rows.get?_insert, agree key inside]
  | delete table erased =>
    refine ⟨by simp only [answer, agree _ within], fun key inside => ?_⟩
    change (rows.erase _).get? key = (rows'.erase _).get? key
    rw [Rows.get?_erase, Rows.get?_erase, agree key inside]
  -- The checks see the same values, so both transactions end alike.
  | transact writes =>
    simp only [answer, applyWrites, findSome?_unmet?_congr agree within]
    cases checkSize writes with
    | error error => exact ⟨rfl, agree⟩
    | ok =>
      cases writes.findSome? (Write.unmet? rows') with
      | some reason => exact ⟨rfl, agree⟩
      | none => exact ⟨rfl, writes_congr agree⟩
  | replace table partition lead items =>
    refine ⟨rfl, fun key inside => ?_⟩
    change Rows.get? (Rows.putAll _ _ _) key = Rows.get? (Rows.putAll _ _ _) key
    rw [Rows.get?_putAll, Rows.get?_putAll, get?_clear, get?_clear, agree key inside]

end Engine

/-! ### Programs and walks within reach -/

/-- Whether all calls of a program are within reach, whatever an engine may reply to them. -/
def Program.StaysWithin (engine : Engine) (reach : RowKey → Prop) : Program α → Prop
  | .done _ => True
  | .ask call resume => call.Within reach ∧
    ∀ rows, (resume (engine.answer rows call).1).StaysWithin engine reach

namespace Program.StaysWithin

/-- A program that goes on with another stays where both stay. -/
theorem bind {first : Program α} {next : α → Program β} (stays : first.StaysWithin engine reach)
    (further : ∀ answer, (next answer).StaysWithin engine reach) :
    (first.bind next).StaysWithin engine reach := by
  -- A program is followed call by call, up to where the other one begins.
  induction first with
  | done answer => exact further answer
  | ask call resume ih => exact ⟨stays.1, fun rows => ih _ (stays.2 rows)⟩

/-- Changing the answer of a program changes none of its calls. -/
theorem map {program : Program α} (stays : program.StaysWithin engine reach) (change : α → β) :
    (program.map change).StaysWithin engine reach :=
  stays.bind fun _ => trivial

/-- What is within reach is within a wider reach. -/
theorem mono {wider : RowKey → Prop} {program : Program α} (stays : program.StaysWithin engine reach)
    (wide : ∀ key, reach key → wider key) : program.StaysWithin engine wider := by
  induction program with
  | done answer => trivial
  | ask call resume ih => exact ⟨stays.1.mono wide, fun rows => ih _ (stays.2 rows)⟩

/-- A program run on two contents that agree within its reach: it cannot tell them apart. -/
theorem run {program : Program α} (stays : program.StaysWithin engine reach)
    (agree : rows.AgreeOn reach rows') : ∃ answer left left',
      program.run (engine.holding rows) = (answer, engine.holding left) ∧
      program.run (engine.holding rows') = (answer, engine.holding left') ∧
      left.AgreeOn reach left' ∧
      ∀ key, ¬ reach key → left.get? key = rows.get? key := by
  -- Both runs make the same call and get the same reply, and their contents go on to agree.
  induction program generalizing rows rows' with
  | done answer => exact ⟨answer, rows, rows', rfl, rfl, agree, fun _ _ => rfl⟩
  | ask call resume ih =>
    obtain ⟨replies, agree'⟩ := engine.answer_congr stays.1 agree
    obtain ⟨answer, left, left', ran, ran', same, outside⟩ := ih _ (stays.2 rows) agree'
    refine ⟨answer, left, left', ?_, ?_, same, fun key apart => ?_⟩
    · rw [Program.run, Engine.perform_holding]
      exact ran
    · rw [Program.run, Engine.perform_holding, ← replies]
      exact ran'
    · -- What is out of reach is kept by the call and by all that follow it.
      exact (outside key apart).trans (Engine.get?_answer_outside stays.1 apart)

end Program.StaysWithin

/-- Whether all calls of a walk are within reach, in every round. -/
structure Walk.Confined (engine : Engine) (reach : RowKey → Prop) (walk : Walk π α) : Prop where
  rounds : ∀ place, (walk.round place).StaysWithin engine reach

/-- Whether a walk comes to its end, whatever rows there are. -/
structure Walk.Ends (engine : Engine) (walk : Walk π α) : Prop where
  run : ∀ rows, ∃ answer left,
    walk.run (engine.holding rows) = (some answer, engine.holding left)

namespace Walk

/-- A program as a walk stays where the program stays. -/
theorem confined_once {program : Program α} (stays : program.StaysWithin engine reach) :
    (Walk.once program).Confined engine reach :=
  ⟨fun _ => stays.map _⟩

/-- A program as a walk comes to its end in its one round, if there may be any round. -/
theorem run_once {σ : Type} [Store σ] (program : Program α) {store : σ}
    (positive : 0 < Store.rounds store) :
    (Walk.once program).run store = (some (program.run store).1, (program.run store).2) := by
  -- One round is enough, and there is one.
  have round : ((Walk.once program).round (Walk.once program).start).run store = _ :=
    Program.run_map Progress.finished program store
  obtain ⟨rounds, more⟩ := Nat.exists_eq_succ_of_ne_zero (Nat.ne_of_gt positive)
  rw [Walk.run, more, Walk.runFrom, round]

/-- There is a round for rows of any number. -/
theorem rounds_holding_pos (engine : Engine) (rows : Rows) :
    0 < Store.rounds (engine.holding rows) := by
  rw [Engine.rounds_holding]
  exact Nat.succ_pos _

/-- A program as a walk ends as the program does. -/
theorem run_once_eq {program : Program α} {rows left : Rows} {answer : α}
    (ran : program.run (engine.holding rows) = (answer, engine.holding left)) :
    (Walk.once program).run (engine.holding rows) = (some answer, engine.holding left) := by
  rw [run_once program (rounds_holding_pos engine rows), ran]

/-- A program as a walk comes to its end. -/
theorem ends_once (engine : Engine) (program : Program α) : (Walk.once program).Ends engine := by
  refine ⟨fun rows => ?_⟩
  obtain ⟨left, holds⟩ := Follows.run_holding engine program rows
  exact ⟨_, left, run_once_eq (Prod.ext rfl holds)⟩

variable {walk : Walk π α}

/-- A walk stays where it stays when a program that stays there follows it. -/
theorem Confined.andThen {next : α → Program β} (confined : walk.Confined engine reach)
    (further : ∀ answer, (next answer).StaysWithin engine reach) :
    (walk.andThen next).Confined engine reach := by
  -- The program follows in the last round only.
  refine ⟨fun place => (confined.rounds place).bind fun progress => ?_⟩
  cases progress with
  | more place => trivial
  | finished answer => exact (further answer).map _

/-- A walk that comes to its end does so when a program follows it. -/
theorem Ends.andThen {next : α → Program β} (ends : walk.Ends engine) :
    (walk.andThen next).Ends engine := by
  -- The walk ends, and the program after it is run in the same round.
  refine ⟨fun rows => ?_⟩
  obtain ⟨answer, middle, ran⟩ := ends.run rows
  obtain ⟨left, holds⟩ := Follows.run_holding engine (next answer) middle
  exact ⟨_, left, (Walk.runFrom_andThen ran).trans (by rw [holds])⟩

/-- Some rounds of a walk cannot tell contents apart that agree within its reach. -/
theorem Confined.runFrom (confined : walk.Confined engine reach) (agree : rows.AgreeOn reach rows')
    (rounds : Nat) (place : π) : ∃ answer left left',
      walk.runFrom rounds place (engine.holding rows) = (answer, engine.holding left) ∧
      walk.runFrom rounds place (engine.holding rows') = (answer, engine.holding left') ∧
      left.AgreeOn reach left' ∧
      ∀ key, ¬ reach key → left.get? key = rows.get? key := by
  -- Round by round, both walks stand at the same place.
  induction rounds generalizing rows rows' place with
  | zero => exact ⟨none, rows, rows', rfl, rfl, agree, fun _ _ => rfl⟩
  | succ rounds ih =>
    obtain ⟨progress, left, left', ran, ran', same, outside⟩ := (confined.rounds place).run agree
    rw [Walk.runFrom, Walk.runFrom, ran, ran']
    -- Either both go on from the same place, or both have ended.
    cases progress with
    | finished answer => exact ⟨some answer, left, left', rfl, rfl, same, outside⟩
    | more next =>
      obtain ⟨answer, last, last', ran, ran', same, outside'⟩ := ih same next
      exact ⟨answer, last, last', ran, ran', same, fun key apart =>
        (outside' key apart).trans (outside key apart)⟩

/-- A walk changes nothing out of its reach. -/
theorem Confined.run (confined : walk.Confined engine reach) (ends : walk.Ends engine) (rows : Rows) :
    ∃ answer left, walk.run (engine.holding rows) = (some answer, engine.holding left) ∧
      ∀ key, ¬ reach key → left.get? key = rows.get? key := by
  -- The walk is compared with itself, since any contents agree with themselves.
  obtain ⟨answer, left, ran⟩ := ends.run rows
  have same : rows.AgreeOn reach rows := fun _ _ => rfl
  obtain ⟨_, left', _, ran', _, _, outside⟩ := confined.runFrom same
    (Store.rounds (engine.holding rows)) walk.start
  obtain ⟨rfl, same⟩ := Prod.mk.inj (ran.symm.trans ran')
  exact ⟨answer, left, ran, Follows.holding_injective same ▸ outside⟩

/-- A walk cannot tell contents apart that agree within its reach. -/
theorem Confined.run_alike (confined : walk.Confined engine reach) (ends : walk.Ends engine)
    (agree : rows.AgreeOn reach rows') : ∃ answer left left',
      walk.run (engine.holding rows) = (some answer, engine.holding left) ∧
      walk.run (engine.holding rows') = (some answer, engine.holding left') ∧
      left.AgreeOn reach left' := by
  obtain ⟨answer, left, ran⟩ := ends.run rows
  obtain ⟨answer', left', ran'⟩ := ends.run rows'
  -- With as many rounds as either may need, both walks end as they do.
  obtain ⟨_, last, last', all, all', same, _⟩ := confined.runFrom agree
    (max (Store.rounds (engine.holding rows)) (Store.rounds (engine.holding rows'))) walk.start
  have more := Walk.runFrom_mono (Nat.le_max_left _ (Store.rounds (engine.holding rows'))) ran
  have more' := Walk.runFrom_mono (Nat.le_max_right (Store.rounds (engine.holding rows)) _) ran'
  -- The run with all those rounds is the one with fewer of them.
  obtain ⟨rfl, holds⟩ := Prod.mk.inj (more.symm.trans all)
  obtain ⟨answers, holds'⟩ := Prod.mk.inj (more'.symm.trans all')
  obtain rfl := Option.some.inj answers
  refine ⟨_, left, left', ran, ran', ?_⟩
  rw [Follows.holding_injective holds, Follows.holding_injective holds']
  exact same

end Walk

/-! ### Tasks within reach -/

/-- Whether all calls that a task has yet to make are within reach. -/
structure Task.Confined (engine : Engine) (reach : RowKey → Prop) (task : Task) : Prop where
  left : task.left.StaysWithin engine reach
  walk : task.walk.Confined engine reach

/-- The task of a walk within reach is within reach. -/
theorem Walk.Confined.begun {walk : Walk π α} (confined : walk.Confined engine reach) :
    (Task.begun walk).Confined engine reach :=
  ⟨confined.rounds _, confined⟩

/-- A task within reach is within a wider reach. -/
theorem Task.Confined.mono {wider : RowKey → Prop} {task : Task} (confined : task.Confined engine reach)
    (wide : ∀ key, reach key → wider key) : task.Confined engine wider :=
  ⟨confined.left.mono wide, ⟨fun place => (confined.walk.rounds place).mono wide⟩⟩

/-- A task within reach that has made its next call on an engine is within reach. -/
theorem Task.Confined.onward {walk : Walk π α} {call : Call}
    {resume : Reply call → Program (Progress π α)}
    (confined : Task.Confined engine reach ⟨π, α, walk, .ask call resume⟩) (rows : Rows) :
    Task.Confined engine reach ⟨π, α, walk, walk.onward (resume (engine.answer rows call).1)⟩ := by
  have further := confined.left.2 rows
  refine ⟨?_, confined.walk⟩
  -- Another round begins only where one has ended.
  simp only [Walk.onward]
  split
  · exact confined.walk.rounds _
  · exact further

/-- What the task that has the turn becomes is within reach, and so are the others as before. -/
theorem Task.Confined.set {tasks : List Task} {who other : Nat} {task next : Task}
    (own : other = who → next.Confined engine reach)
    (others : ∀ task, other ≠ who → tasks[other]? = some task → task.Confined engine reach)
    (found : (tasks.set who next)[other]? = some task) : task.Confined engine reach := by
  -- Only the task at that place is another one now.
  by_cases same : who = other
  · subst same
    obtain ⟨inside, here⟩ := List.getElem?_eq_some_iff.1 found
    rw [List.getElem_set_self] at here
    exact here ▸ own rfl
  · exact others task (Ne.symm same) ((List.getElem?_set_ne same).symm.trans found)

/-- A turn of a task within reach makes one call at most, and all that is out of reach stays. -/
theorem Crew.step_confined {crew : Crew engine.State} {who : Nat} {task : Task}
    (holds : crew.store = engine.holding (engine.rows crew.store))
    (found : crew.tasks[who]? = some task) (confined : task.Confined engine reach) :
    ∃ left next events, crew.step who =
        ⟨engine.holding left, crew.tasks.set who next, events ++ crew.log⟩ ∧
      next.Confined engine reach ∧
      (∀ key, ¬ reach key → left.get? key = (engine.rows crew.store).get? key) ∧
      ∀ event ∈ events, event.who = who ∧ event.call.Within reach := by
  obtain ⟨π, α, walk, left⟩ := task
  cases left with
  | done progress =>
    cases progress with
    | finished answer =>
      -- The task has ended and stays as it is.
      obtain ⟨inside, here⟩ := List.getElem?_eq_some_iff.1 found
      refine ⟨_, _, [], ?_, confined, fun _ _ => rfl, nofun⟩
      rw [Crew.step_ended found, ← holds, ← here, List.set_getElem_self]
      rfl
    | more place =>
      -- The next round is begun, and no call is made.
      have next : Task.Confined engine reach ⟨π, α, walk, walk.round place⟩ :=
        ⟨confined.walk.rounds place, confined.walk⟩
      refine ⟨_, _, [], ?_, next, fun _ _ => rfl, nofun⟩
      simp only [Crew.step, found, ← holds, List.nil_append]
  | ask call resume =>
    -- The call is within reach, so it leaves what is out of reach.
    let reply := (engine.answer (engine.rows crew.store) call).1
    refine ⟨(engine.answer (engine.rows crew.store) call).2, _, [⟨who, crew.store, call, reply⟩], ?_,
      confined.onward (engine.rows crew.store),
      fun key outside => Engine.get?_answer_outside confined.left.1 outside, ?_⟩
    · rw [Crew.step_ask found, holds, Engine.perform_holding, Engine.rows_holding]
      rfl
    · intro event member
      obtain rfl := List.mem_singleton.1 member
      exact ⟨rfl, confined.left.1⟩

/--
Whether of two crews the second has the same own tasks as the first, which are within reach of what both
hold alike, while all other tasks of the first are out of that reach.
-/
structure Crew.Ignores (engine : Engine) (reach : RowKey → Prop) (own : Nat → Bool)
    (crew shadow : Crew engine.State) : Prop where
  holds : crew.store = engine.holding (engine.rows crew.store)
  holds' : shadow.store = engine.holding (engine.rows shadow.store)
  agree : (engine.rows crew.store).AgreeOn reach (engine.rows shadow.store)
  same : ∀ who, own who → crew.tasks[who]? = shadow.tasks[who]?
  inside : ∀ who task, own who → crew.tasks[who]? = some task → task.Confined engine reach
  outside : ∀ who task, ¬ own who → crew.tasks[who]? = some task →
    task.Confined engine fun key => ¬ reach key

namespace Crew.Ignores

variable {own : Nat → Bool} {crew shadow : Crew engine.State} {who : Nat}

/-- What two crews make of an own task is the same, and they go on as before. -/
theorem both (ignores : Ignores engine reach own crew shadow) (mine : own who) {next : Task}
    (confined : next.Confined engine reach) {rows rows' : Rows} (agree : rows.AgreeOn reach rows')
    (log log' : List (Event engine.State)) :
    Ignores engine reach own ⟨engine.holding rows, crew.tasks.set who next, log⟩
      ⟨engine.holding rows', shadow.tasks.set who next, log'⟩ where
  holds := by rw [Engine.rows_holding]
  holds' := by rw [Engine.rows_holding]
  agree := by rwa [Engine.rows_holding, Engine.rows_holding]
  same other mine' := by
    -- A task in another place was the same before and is not touched.
    by_cases here : who = other
    · subst here
      rw [List.getElem?_set_self', List.getElem?_set_self', ignores.same who mine]
    · rw [List.getElem?_set_ne here, List.getElem?_set_ne here, ignores.same other mine']
  inside other task mine' found :=
    Task.Confined.set (fun _ => confined) (fun task _ => ignores.inside other task mine') found
  outside other task theirs found :=
    Task.Confined.set (fun here => absurd (here ▸ mine) theirs)
      (fun task _ => ignores.outside other task theirs) found

/-- What one crew makes of another task does not matter to the own ones. -/
theorem one (ignores : Ignores engine reach own crew shadow) (theirs : ¬ own who) {next : Task}
    (confined : next.Confined engine fun key => ¬ reach key) {rows : Rows}
    (agree : rows.AgreeOn reach (engine.rows shadow.store)) (log : List (Event engine.State)) :
    Ignores engine reach own ⟨engine.holding rows, crew.tasks.set who next, log⟩ shadow where
  holds := by rw [Engine.rows_holding]
  holds' := ignores.holds'
  agree := by rwa [Engine.rows_holding]
  same other mine := by
    -- The task that is replaced is none of the own ones.
    have apart : who ≠ other := by
      rintro rfl
      exact theirs mine
    rw [List.getElem?_set_ne apart, ignores.same other mine]
  inside other task mine found :=
    Task.Confined.set (fun here => absurd (here ▸ mine) theirs)
      (fun task _ => ignores.inside other task mine) found
  outside other task theirs' found :=
    Task.Confined.set (fun _ => confined) (fun task _ => ignores.outside other task theirs') found

/-- A turn of an own task is the same in both crews. -/
theorem step_own (ignores : Ignores engine reach own crew shadow) (mine : own who) :
    Ignores engine reach own (crew.step who) (shadow.step who) := by
  -- The own task is the same in both crews, and it meets contents that agree within its reach.
  have same := ignores.same who mine
  cases found : crew.tasks[who]? with
  | none =>
    rwa [Crew.step_nobody found, Crew.step_nobody (same.symm.trans found)]
  | some task =>
    have confined := ignores.inside who task mine found
    have found' := same.symm.trans found
    obtain ⟨π, α, walk, left⟩ := task
    cases left with
    | done progress =>
      cases progress with
      | finished answer => rwa [Crew.step_ended found, Crew.step_ended found']
      -- The next round is the same one in both crews.
      | more place =>
        have next : Task.Confined engine reach ⟨π, α, walk, walk.round place⟩ :=
          ⟨confined.walk.rounds place, confined.walk⟩
        simp only [Crew.step, found, found']
        rw [ignores.holds, ignores.holds']
        exact ignores.both mine next ignores.agree _ _
    | ask call resume =>
      -- Both crews make the same call and get the same reply.
      obtain ⟨replies, agree⟩ := engine.answer_congr confined.left.1 ignores.agree
      rw [Crew.step_ask found, Crew.step_ask found', ignores.holds, ignores.holds',
        Engine.perform_holding, Engine.perform_holding, ← replies]
      exact ignores.both mine (confined.onward _) agree _ _

/-- A turn of another task does not matter. -/
theorem step_other (ignores : Ignores engine reach own crew shadow) (theirs : ¬ own who) :
    Ignores engine reach own (crew.step who) shadow := by
  -- The shadow gives the task no turn.
  cases found : crew.tasks[who]? with
  | none => rwa [Crew.step_nobody found]
  | some task =>
    obtain ⟨left, next, events, stepped, confined, outside, _⟩ :=
      Crew.step_confined ignores.holds found (ignores.outside who task theirs found)
    rw [stepped]
    -- The turn reaches nothing that the own tasks reach.
    exact ignores.one theirs confined (fun key inside =>
      (outside key fun out => out inside).trans (ignores.agree key inside)) _

/-- Under every schedule the own tasks go on as if the others had no turns. -/
theorem run (ignores : Ignores engine reach own crew shadow) (schedule : List Nat) :
    Ignores engine reach own (crew.run schedule) (shadow.run (schedule.filter own)) := by
  -- The turns of the others are left out one by one, as each of them changes nothing for the own tasks.
  induction schedule generalizing crew shadow with
  | nil => exact ignores
  | cons who rest ih =>
    by_cases mine : own who
    · rw [List.filter_cons_of_pos mine]
      exact ih (ignores.step_own mine)
    · rw [List.filter_cons_of_neg mine]
      exact ih (ignores.step_other mine)

end Crew.Ignores

end KeyDispensary
