import KeyDispensary.Keys.Pool
import KeyDispensary.Proofs.Store.Crew
import KeyDispensary.Proofs.Store.Engine

/-!
A take that is under way stands before a query, before a removal, or at its answer. Main statements:
`Pool.step_asking` and `Pool.step_claiming`, what a turn makes of each, whatever others do between.
-/

namespace KeyDispensary

variable {π α β : Type}

/-- How a walk goes on after a round when a program follows it. -/
def Walk.following (next : α → Program β) : Progress π α → Program (Progress π β)
  | .more place => .done (.more place)
  | .finished answer => (next answer).map .finished

/-- The rounds of a walk that a program follows. -/
theorem Walk.andThen_round (walk : Walk π α) (next : α → Program β) (place : π) :
    (walk.andThen next).round place = (walk.round place).bind (Walk.following next) := rfl

/-- Going on with nothing changes no program. -/
theorem Program.bind_done (program : Program α) : program.bind .done = program := by
  -- The last answer of each branch is kept.
  induction program with
  | done answer => rfl
  | ask call resume ih => exact congrArg (Program.ask call) (funext ih)

/-- Going on with nothing changes no walk. -/
theorem Walk.andThen_done (walk : Walk π α) : walk.andThen .done = walk := by
  -- What follows each round hands on what the round ended with.
  have hands : (Walk.following .done : Progress π α → _) = .done := by
    funext progress
    cases progress <;> rfl
  have rounds : (walk.andThen .done).round = walk.round := by
    funext place
    rw [Walk.andThen_round, hands, Program.bind_done]
  cases walk
  exact congrArg _ rounds

/-- A walk that has ended, or goes on with a program, begins no new round. -/
theorem Walk.onward_finishing (walk : Walk π β) (program : Program β) :
    walk.onward (program.map .finished) = program.map .finished := by
  -- The program ends with an answer and never with a place.
  cases program <;> rfl

/-- Whatever the tasks of a crew are, an engine's state that holds rows goes on to hold rows. -/
theorem Crew.step_holding {engine : Engine} {crew : Crew engine.State}
    (holds : crew.store = engine.holding (engine.rows crew.store)) (who : Nat) :
    (crew.step who).store = engine.holding (engine.rows (crew.step who).store) := by
  -- At most one call is made, which leaves rows.
  unfold Crew.step
  split
  · exact holds
  · split
    · exact holds
    · exact holds
    · rw [holds, Engine.perform_holding, Engine.rows_holding]

/-- Under every schedule, an engine's state that holds rows goes on to hold rows. -/
theorem Crew.run_holding {engine : Engine} {crew : Crew engine.State}
    (holds : crew.store = engine.holding (engine.rows crew.store)) (schedule : List Nat) :
    (crew.run schedule).store = engine.holding (engine.rows (crew.run schedule).store) :=
  run_induction (fun crew : Crew engine.State => crew.store = engine.holding (engine.rows crew.store))
    holds (fun _ turn holds => step_holding holds turn) schedule

namespace Pool

variable {κ : Type}

/-- Where a take stands between two of its calls. -/
inductive Stage (κ : Type) where
  /-- It asks for the first key after a place. -/
  | asking (after : Option Bytes)
  /-- It claims a candidate, and goes on after a place if the claim is lost. -/
  | claiming (candidate : Item) (last : Option Bytes)
  /-- It has its answer. -/
  | answered (answer : Except KeyError (Option κ))

/-- Where a take stands when it has seen the keys after a place. -/
def Stage.seen : List Row → Stage κ
  | [] => .answered (.ok none)
  | row :: rest => .claiming row.item (if rest.isEmpty then none else some row.key.sort)

/-- The query for the first key of a device after a place. -/
def asked (pool : Pool κ) (identity : Identity) (device : Device) (after : Option Bytes) : Query :=
  ⟨pool.table, identity.partition, device.lead, after, 1⟩

variable [Record κ]

/-- Where a take stands when its removal found a value or none. -/
def Stage.claimed (pool : Pool κ) (last : Option Bytes) : Option Bytes → Stage κ
  | some value => .answered ((recordOf κ pool.table value).map some)
  | none =>
    match last with
    | some place => .asking (some place)
    | none => .answered (.ok none)

/-- A take and what is done with its answer. -/
def takeThen (pool : Pool κ) (identity : Identity) (device : Device)
    (next : Except KeyError (Option κ) → Program β) : Walk (Option Bytes) β :=
  (pool.take identity device).andThen next

/-- What is left of the round of a take. -/
def Stage.left (pool : Pool κ) (identity : Identity) (device : Device)
    (next : Except KeyError (Option κ) → Program β) : Stage κ → Program (Progress (Option Bytes) β)
  | .asking after => (pool.takeThen identity device next).round after
  | .claiming candidate last => (pool.claim [candidate] last).bind (Walk.following next)
  | .answered answer => (next answer).map .finished

/-- The take that stands somewhere. -/
def Stage.task (pool : Pool κ) (identity : Identity) (device : Device)
    (next : Except KeyError (Option κ) → Program β) (stage : Stage κ) : Task :=
  ⟨_, _, pool.takeThen identity device next, stage.left pool identity device next⟩

/-- A take begins by asking for the first key of all. -/
theorem begun_takeThen (pool : Pool κ) (identity : Identity) (device : Device)
    (next : Except KeyError (Option κ) → Program β) :
    Task.begun (pool.takeThen identity device next) =
      (Stage.asking none).task pool identity device next := rfl

/-- A take that nothing follows is the take. -/
theorem takeThen_done (pool : Pool κ) (identity : Identity) (device : Device) :
    pool.takeThen identity device .done = pool.take identity device :=
  Walk.andThen_done _

/-- A take that nothing follows has ended when it has its answer. -/
theorem answered_task (pool : Pool κ) (identity : Identity) (device : Device)
    (answer : Except KeyError (Option κ)) :
    (Stage.answered answer).task pool identity device .done =
      .ended (pool.takeThen identity device .done) answer := rfl

/-- A take that has ended with an answer stands at it. -/
theorem eq_answered_of_task {stage : Stage κ} {pool : Pool κ} {identity : Identity}
    {device : Device} {answer : Except KeyError (Option κ)}
    (ended : stage.task pool identity device .done = .ended (pool.take identity device) answer) :
    stage = .answered answer := by
  -- Where a take asks or claims, a call is left.
  rw [← takeThen_done] at ended
  have left : stage.left pool identity device .done = .done (.finished answer) := by
    simpa [Stage.task, Task.ended] using ended
  cases stage with
  | asking after => cases left
  | claiming candidate last => cases left
  | answered answer => cases left; rfl

/-- What is left of a take after it has read a page of at most one item. -/
theorem seen_left (pool : Pool κ) (identity : Identity) (device : Device)
    (next : Except KeyError (Option κ) → Program β) (rows : List Row) :
    (pool.takeThen identity device next).onward
        ((pool.claim (Memory.page 1 (rows.map Row.item)).items
          (Memory.page 1 (rows.map Row.item)).last).bind (Walk.following next)) =
      (Stage.seen rows).left pool identity device next := by
  -- The page shows the first row, and its last key exactly if a second row follows.
  match rows with
  | [] => exact Walk.onward_finishing _ (next (.ok none))
  | [row] => rfl
  | row :: _ :: _ => rfl

/-- What is left of a take after its removal found a value or none. -/
theorem claimed_left (pool : Pool κ) (identity : Identity) (device : Device)
    (next : Except KeyError (Option κ) → Program β) (last value : Option Bytes) :
    (pool.takeThen identity device next).onward
        ((match value with
          | some value => .done (.finished ((recordOf κ pool.table value).map some))
          | none => pool.claim [] last : Program (Taking κ)).bind (Walk.following next)) =
      (Stage.claimed pool last value).left pool identity device next := by
  -- A lost claim leaves nothing of the page, so the next round starts at its last key.
  match value, last with
  | some value, _ => exact Walk.onward_finishing _ _
  | none, none => exact Walk.onward_finishing _ (next (.ok none))
  | none, some place => rfl

variable {engine : Engine} {crew : Crew engine.State} {rows : Rows} {who : Nat} {pool : Pool κ}
  {identity : Identity} {device : Device} {next : Except KeyError (Option κ) → Program β}

/-- A take that asks for a key sees what its pool holds after the place. -/
theorem step_asking {after : Option Bytes} (holds : crew.store = engine.holding rows)
    (found : crew.tasks[who]? = some ((Stage.asking after).task pool identity device next)) :
    crew.step who =
      { store := engine.holding rows
        tasks := crew.tasks.set who ((Stage.seen
          (engine.found rows (pool.asked identity device after))).task pool identity device next)
        log := ⟨who, engine.holding rows, .query (pool.asked identity device after),
          .ok (Memory.page 1 ((engine.found rows (pool.asked identity device after)).map
            Row.item))⟩ :: crew.log } := by
  -- The engine answers the query with a page of one item.
  rw [Crew.step_ask found, holds, Engine.perform_holding]
  exact congrArg (fun left => Crew.mk _ (crew.tasks.set who ⟨_, _, _, left⟩) _)
    (seen_left pool identity device next _)

/-- A take that claims a candidate removes it, or finds that somebody was faster. -/
theorem step_claiming {candidate : Item} {last : Option Bytes}
    (holds : crew.store = engine.holding rows)
    (found : crew.tasks[who]? =
      some ((Stage.claiming candidate last).task pool identity device next)) :
    crew.step who =
      { store := engine.holding (rows.erase (RowKey.of pool.table candidate.key))
        tasks := crew.tasks.set who ((Stage.claimed pool last
          (rows.get? (RowKey.of pool.table candidate.key))).task pool identity device next)
        log := ⟨who, engine.holding rows, .delete pool.table candidate.key,
          .ok (rows.get? (RowKey.of pool.table candidate.key))⟩ :: crew.log } := by
  -- The engine answers the removal with the value it found.
  rw [Crew.step_ask found, holds, Engine.perform_holding]
  refine congrArg (fun left => Crew.mk _ (crew.tasks.set who ⟨_, _, _, left⟩) _) ?_
  rw [← claimed_left]
  simp only [Engine.answer]
  cases rows.get? (RowKey.of pool.table candidate.key) <;> rfl

end Pool

end KeyDispensary
