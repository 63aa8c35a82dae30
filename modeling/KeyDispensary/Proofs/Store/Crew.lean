import KeyDispensary.Store.Program
import KeyDispensary.Store.Rows

/-!
Walks that are under way at the same time. Whoever has a turn makes one call, which the store answers
as a whole, so that a schedule of turns is an order of calls. Main statements: `Crew.step_ask`, what a
turn does, and `Crew.run_induction`, what every schedule keeps.
-/

namespace KeyDispensary

variable {σ π α : Type}

/-- Begins the next round of a walk if one is due. -/
def Walk.onward (walk : Walk π α) : Program (Progress π α) → Program (Progress π α)
  | .done (.more place) => walk.round place
  | left => left

/-- A program as a walk of one round. -/
def Walk.once (program : Program α) : Walk Unit α where
  start := ()
  round _ := program.map .finished

/-- A walk that is under way, with what is left of its present round. -/
structure Task where
  Place : Type
  Answer : Type
  walk : Walk Place Answer
  left : Program (Progress Place Answer)

namespace Task

/-- A walk that has made no call yet. -/
def begun (walk : Walk π α) : Task :=
  ⟨π, α, walk, walk.round walk.start⟩

/-- A walk that has ended with an answer. -/
def ended (walk : Walk π α) (answer : α) : Task :=
  ⟨π, α, walk, .done (.finished answer)⟩

end Task

/-- A call that was made, by whom, and what it met. -/
structure Event (σ : Type) where
  who : Nat
  /-- The store as the call found it. -/
  store : σ
  call : Call
  reply : Reply call

/-- The row that a call removed, and who made the call. -/
def Event.removal? : Event σ → Option (Nat × Row)
  | ⟨who, _, .delete table key, .ok (some value)⟩ => some (who, ⟨RowKey.of table key, value⟩)
  | _ => none

/-- A removal is counted for who made the call. -/
theorem Event.who_of_removal? {event : Event σ} {who : Nat} {row : Row}
    (removed : event.removal? = some (who, row)) : event.who = who := by
  -- Only a removal that found a value is counted.
  unfold removal? at removed
  split at removed
  · exact (Prod.mk.inj (Option.some.inj removed)).1
  · cases removed

/-- The rows that were removed by key, the first first, each with who removed it. -/
def removals (log : List (Event σ)) : List (Nat × Row) :=
  log.reverse.filterMap Event.removal?

/-- Each call adds the row that it removed. -/
theorem removals_cons (event : Event σ) (log : List (Event σ)) :
    removals (event :: log) = removals log ++ event.removal?.toList := by
  -- The latest call is the first of the log and the last of the removals.
  rw [removals, List.reverse_cons, List.filterMap_append, ← removals]
  cases removed : event.removal? <;> simp [removed]

/-- Tasks that work on one store. -/
structure Crew (σ : Type) where
  store : σ
  tasks : List Task
  /-- The calls that were made, the latest first. -/
  log : List (Event σ)

namespace Crew

/-- A crew of which no task has made a call yet. -/
def begun (store : σ) (tasks : List Task) : Crew σ :=
  ⟨store, tasks, []⟩

variable [Store σ]

/-- Gives a task its turn: it makes its next call, if it has not ended. -/
def step (crew : Crew σ) (who : Nat) : Crew σ :=
  match crew.tasks[who]? with
  | none => crew
  | some task =>
    match task.left with
    | .done (.finished _) => crew
    | .done (.more place) =>
      { crew with tasks := crew.tasks.set who { task with left := task.walk.round place } }
    | .ask call resume =>
      let (reply, store) := Store.perform crew.store call
      { store := store
        tasks := crew.tasks.set who { task with left := task.walk.onward (resume reply) }
        log := ⟨who, crew.store, call, reply⟩ :: crew.log }

/-- Gives turns in the order of a schedule. -/
def run (crew : Crew σ) (schedule : List Nat) : Crew σ :=
  schedule.foldl step crew

/-- A schedule may be cut in two. -/
theorem run_append (crew : Crew σ) (first second : List Nat) :
    crew.run (first ++ second) = (crew.run first).run second :=
  -- Turns are given one after another.
  List.foldl_append

/-- What every turn keeps is kept by every schedule. -/
theorem run_induction (holds : Crew σ → Prop) {crew : Crew σ} (first : holds crew)
    (keeps : ∀ crew who, holds crew → holds (crew.step who)) (schedule : List Nat) :
    holds (crew.run schedule) := by
  -- The schedule is followed turn by turn.
  induction schedule generalizing crew with
  | nil => exact first
  | cons who rest ih => exact ih (keeps crew who first)

/-- A turn of a task that wants to make a call makes it. -/
theorem step_ask {crew : Crew σ} {who : Nat} {walk : Walk π α} {call : Call}
    {resume : Reply call → Program (Progress π α)}
    (found : crew.tasks[who]? = some ⟨π, α, walk, .ask call resume⟩) :
    crew.step who =
      { store := (Store.perform crew.store call).2
        tasks := crew.tasks.set who
          ⟨π, α, walk, walk.onward (resume (Store.perform crew.store call).1)⟩
        log := ⟨who, crew.store, call, (Store.perform crew.store call).1⟩ :: crew.log } := by
  -- The definition asks the same question of the task.
  simp only [step, found]

/-- A task of one call makes it and has ended. -/
theorem step_once {crew : Crew σ} {who : Nat} {call : Call} {answer : Reply call → α}
    (found : crew.tasks[who]? =
      some (.begun (.once (.ask call fun reply => .done (answer reply))))) :
    crew.step who =
      { store := (Store.perform crew.store call).2
        tasks := crew.tasks.set who (.ended (.once (.ask call fun reply => .done (answer reply)))
          (answer (Store.perform crew.store call).1))
        log := ⟨who, crew.store, call, (Store.perform crew.store call).1⟩ :: crew.log } :=
  -- The only round of the task ends with its call.
  step_ask found

/-- A turn of a task that has ended changes nothing. -/
theorem step_ended {crew : Crew σ} {who : Nat} {walk : Walk π α} {answer : α}
    (found : crew.tasks[who]? = some (.ended walk answer)) : crew.step who = crew := by
  -- Nothing is left to be done.
  simp only [step, found, Task.ended]

/-- A turn of nobody changes nothing. -/
theorem step_nobody {crew : Crew σ} {who : Nat} (nobody : crew.tasks[who]? = none) :
    crew.step who = crew := by
  -- There is no task to take the turn.
  simp only [step, nobody]

/-- A turn leaves the tasks of all others as they are. -/
theorem step_other (crew : Crew σ) {who other : Nat} (apart : who ≠ other) :
    (crew.step who).tasks[other]? = crew.tasks[other]? := by
  -- At most the task that has the turn is replaced.
  unfold step
  split
  · rfl
  · split
    · rfl
    · exact List.getElem?_set_ne apart
    · exact List.getElem?_set_ne apart

/-- A turn adds one call at most to the log, made by the task that has the turn. -/
theorem log_step (crew : Crew σ) (who : Nat) : (crew.step who).log = crew.log ∨
    ∃ event, event.who = who ∧ (crew.step who).log = event :: crew.log := by
  -- Only a call is logged.
  unfold step
  split
  · exact .inl rfl
  · split
    · exact .inl rfl
    · exact .inl rfl
    · exact .inr ⟨_, rfl, rfl⟩

/-- A turn neither adds nor removes a task. -/
@[simp] theorem length_tasks_step (crew : Crew σ) (who : Nat) :
    (crew.step who).tasks.length = crew.tasks.length := by
  -- A task is at most replaced.
  unfold step
  split
  · rfl
  · split <;> simp

/-- A schedule that gives somebody no turn leaves the task alone. -/
theorem run_other {crew : Crew σ} {schedule : List Nat} {other : Nat} (never : other ∉ schedule) :
    (crew.run schedule).tasks[other]? = crew.tasks[other]? := by
  -- Turn by turn the task stays.
  induction schedule generalizing crew with
  | nil => rfl
  | cons who rest ih =>
    have apart : who ≠ other := fun same => never (same ▸ List.mem_cons_self)
    have later : other ∉ rest := fun member => never (.tail _ member)
    exact (ih later).trans (step_other crew apart)

/-- A task that has ended stays as it is. -/
theorem run_ended {crew : Crew σ} {who : Nat} {walk : Walk π α} {answer : α}
    (found : crew.tasks[who]? = some (.ended walk answer)) (schedule : List Nat) :
    (crew.run schedule).tasks[who]? = some (.ended walk answer) := by
  -- Its own turns change nothing, and the turns of others leave it alone.
  refine run_induction (fun crew => crew.tasks[who]? = some (.ended walk answer)) found
    (fun crew turn found => ?_) schedule
  by_cases same : turn = who
  · rw [same, step_ended found, found]
  · rw [step_other crew same, found]

/--
A crew some of whose tasks stand at places, each of which comes nearer to its end with every turn it has.

Every schedule keeps what every turn keeps, and brings each of these tasks as much nearer as it has turns.
-/
theorem run_nearer {Place : Type} (holds : Crew σ → List Place → Prop) (turns : Place → Nat)
    (own : ∀ crew places who place, holds crew places → places[who]? = some place →
      ∃ next, holds (crew.step who) (places.set who next) ∧ turns next ≤ turns place - 1)
    (other : ∀ crew places who, holds crew places → places[who]? = none →
      holds (crew.step who) places)
    {crew : Crew σ} {places : List Place} (first : holds crew places) (schedule : List Nat) :
    ∃ ends, holds (crew.run schedule) ends ∧ ends.length = places.length ∧
      ∀ (who : Nat) (place next : Place), places[who]? = some place → ends[who]? = some next →
        turns next ≤ turns place - schedule.count who := by
  -- The schedule is followed turn by turn, and each turn counts for the task that has it.
  induction schedule generalizing crew places with
  | nil =>
    refine ⟨places, first, rfl, fun who place next found found' => ?_⟩
    obtain rfl := Option.some.inj (found.symm.trans found')
    exact Nat.le_refl _
  | cons turn rest ih =>
    cases present : places[turn]? with
    | none =>
      obtain ⟨ends, last, same, bound⟩ := ih (other crew places turn first present)
      refine ⟨ends, last, same, fun who place next found found' => ?_⟩
      -- A turn of somebody without a place counts for nobody.
      have apart : turn ≠ who := fun here => by rw [here, found] at present; cases present
      rw [List.count_cons_of_ne apart]
      exact bound who place next found found'
    | some before =>
      obtain ⟨after, further, nearer⟩ := own crew places turn before first present
      obtain ⟨ends, last, same, bound⟩ := ih further
      refine ⟨ends, last, by rw [same, List.length_set], ?_⟩
      intro who place next found found'
      -- The turn brings its own task nearer, and all others stay where they are.
      by_cases here : turn = who
      · subst here
        obtain rfl := Option.some.inj (present.symm.trans found)
        have moved : (places.set turn after)[turn]? = some after :=
          List.getElem?_set_self (List.getElem?_eq_some_iff.1 present).1
        have fewer := bound turn after next moved found'
        rw [List.count_cons_self]
        omega
      · rw [List.count_cons_of_ne here]
        exact bound who place next ((List.getElem?_set_ne here).trans found) found'

/-! ### What one task sees of the others -/

/-- The stores that a crew has, one before each turn of a schedule and one at its end. -/
def stores (crew : Crew σ) : List Nat → List σ
  | [] => [crew.store]
  | who :: rest => crew.store :: (crew.step who).stores rest

/-- The turns of a schedule that others than one task have. -/
def besides (who : Nat) (schedule : List Nat) : List Nat :=
  schedule.filter (· ≠ who)

/-- A turn of the task is left out. -/
theorem besides_own (who : Nat) (rest : List Nat) :
    besides who (who :: rest) = besides who rest :=
  List.filter_cons_of_neg (by simp)

/-- A turn of another task stays. -/
theorem besides_other {who turn : Nat} (apart : turn ≠ who) (rest : List Nat) :
    besides who (turn :: rest) = turn :: besides who rest :=
  List.filter_cons_of_pos (by simpa using apart)

/-- The turns of others in two schedules are those in the first and those in the second. -/
theorem besides_append (who : Nat) (first second : List Nat) :
    besides who (first ++ second) = besides who first ++ besides who second :=
  List.filter_append ..

/-- A schedule that gives a task no turn consists of the turns of others. -/
theorem besides_eq_self {who : Nat} {schedule : List Nat} (never : who ∉ schedule) :
    besides who schedule = schedule := by
  -- No turn is left out.
  refine List.filter_eq_self.2 fun turn member => ?_
  have apart : turn ≠ who := by
    rintro rfl
    exact never member
  simpa using apart

/-- The turns of others are no turns of the task. -/
theorem not_mem_besides (who : Nat) (schedule : List Nat) : who ∉ besides who schedule := by
  -- The turns of the task are left out.
  simp [besides]

/-- Whether two crews have one store and differ in one task and in their logs at most. -/
structure Shadows (who : Nat) (crew shadow : Crew σ) : Prop where
  store : crew.store = shadow.store
  tasks : ∀ other, other ≠ who → crew.tasks[other]? = shadow.tasks[other]?

omit [Store σ] in
/-- A crew differs in nothing from itself. -/
theorem Shadows.refl (who : Nat) (crew : Crew σ) : Shadows who crew crew :=
  ⟨rfl, fun _ _ => rfl⟩

/-- A turn of another task does not tell the crews apart. -/
theorem Shadows.step {who other : Nat} {crew shadow : Crew σ} (same : Shadows who crew shadow)
    (apart : other ≠ who) : Shadows who (crew.step other) (shadow.step other) := by
  have task := same.tasks other apart
  -- The task that has the turn is the same in both, and it meets the same store.
  have others (next : Task) (index : Nat) (differs : index ≠ who) :
      (crew.tasks.set other next)[index]? = (shadow.tasks.set other next)[index]? := by
    by_cases here : other = index
    · subst here
      rw [List.getElem?_set_self', List.getElem?_set_self', task]
    · rw [List.getElem?_set_ne here, List.getElem?_set_ne here, same.tasks index differs]
  -- The turn does the same in both crews, whatever is left of the task.
  cases found : shadow.tasks[other]? with
  | none => rwa [step_nobody (task.trans found), step_nobody found]
  | some present =>
    obtain ⟨π, α, walk, left⟩ := present
    cases left with
    | done progress =>
      cases progress with
      | finished answer => rwa [step_ended (task.trans found), step_ended found]
      | more place =>
        simp only [Crew.step, task.trans found, found]
        exact ⟨same.store, others _⟩
    | ask call resume =>
      rw [step_ask (task.trans found), step_ask found, same.store]
      exact ⟨rfl, others _⟩

/-- Any part of a history that reaches its end is the history of the turns that remain. -/
theorem exists_run_of_suffix {crew : Crew σ} {schedule : List Nat} {instant : σ} {later : List σ}
    (reached : instant :: later <:+ crew.stores schedule) : ∃ first second,
      schedule = first ++ second ∧ (crew.run first).stores second = instant :: later := by
  -- The history is followed until it is the part in question.
  induction schedule generalizing crew with
  | nil =>
    -- A crew without turns has one store in its history, the last.
    obtain ⟨before, split⟩ := reached
    have short := congrArg List.length split
    simp only [stores, List.length_append, List.length_cons, List.length_nil] at short
    obtain rfl := List.eq_nil_of_length_eq_zero (by omega : before.length = 0)
    exact ⟨[], [], rfl, split.symm⟩
  | cons who rest ih =>
    -- The part is the whole history, or a part of what follows the first turn.
    rcases List.suffix_cons_iff.1 reached with all | part
    · exact ⟨[], who :: rest, rfl, all.symm⟩
    · obtain ⟨first, second, rfl, same⟩ := ih part
      exact ⟨who :: first, second, rfl, same⟩

/-- The history of a crew begins with its store. -/
theorem stores_head (crew : Crew σ) (schedule : List Nat) :
    ∃ later, crew.stores schedule = crew.store :: later := by
  -- The store before the first turn is the one that the crew has.
  cases schedule with
  | nil => exact ⟨_, rfl⟩
  | cons who rest => exact ⟨_, rfl⟩

/-- Crews that differ in one task still do when others have had their turns. -/
theorem Shadows.run {who : Nat} {crew shadow : Crew σ} (same : Shadows who crew shadow)
    {schedule : List Nat} (never : who ∉ schedule) :
    Shadows who (crew.run schedule) (shadow.run schedule) := by
  -- The others have their turns one after another.
  induction schedule generalizing crew shadow with
  | nil => exact same
  | cons turn rest ih =>
    have apart : turn ≠ who := fun here => never (here ▸ List.mem_cons_self)
    exact ih (same.step apart) fun member => never (.tail _ member)

end Crew

end KeyDispensary
