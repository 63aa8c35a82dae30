import KeyDispensary.Dispensary
import KeyDispensary.Proofs.Keys.Reupload

/-!
When a take finds nothing, whatever happens to its pool meanwhile. Main statement:
`Pool.exhaustion_exact`, also for a take of a post-quantum key, which then turns to the last-resort key.
-/

namespace KeyDispensary

namespace Dispensary

variable {dispensary : Dispensary} {identity : Identity} {device : Device}

/-- What a take of a post-quantum key does with the answer of the pool. -/
def afterTake (dispensary : Dispensary) (identity : Identity) (device : Device) :
    Except KeyError (Option SignedKemKey) → Program (Except KeyError (Option SignedKemKey))
  | .error error => .done (.error error)
  | .ok (some key) => .done (.ok (some key))
  | .ok none => dispensary.lastResort.find identity device

/-- A take of a post-quantum key is a take from its pool and what is done with the answer. -/
theorem takePq_eq (dispensary : Dispensary) (identity : Identity) (device : Device) :
    dispensary.takePq identity device =
      dispensary.pqPool.takeThen identity device (dispensary.afterTake identity device) := rfl

/-- A take of a post-quantum key that has found no one-time key and turns to the last-resort key. -/
def fallingBack (dispensary : Dispensary) (identity : Identity) (device : Device) : Task :=
  ⟨_, _, dispensary.takePq identity device,
    (dispensary.lastResort.find identity device).map .finished⟩

/-- A take of a post-quantum key tells an empty pool from every other answer. -/
theorem tells_afterTake (dispensary : Dispensary) (identity : Identity) (device : Device) :
    dispensary.pqPool.Tells identity device (dispensary.afterTake identity device) where
  ends answer other := by
    rcases answer with error | none | key
    · exact ⟨_, rfl⟩
    · exact absurd rfl other
    · exact ⟨_, rfl⟩
  apart stage same := by
    -- Turning to the last-resort key is a call of another kind than those of the take.
    have left : stage.left dispensary.pqPool identity device (dispensary.afterTake identity device) =
        (Pool.Stage.answered (.ok none)).left dispensary.pqPool identity device
          (dispensary.afterTake identity device) := by
      simpa [Pool.Stage.task] using same
    cases stage with
    | asking after => cases left
    | claiming candidate last => cases left
    | answered answer =>
      rcases answer with error | none | key
      · cases left
      · rfl
      · cases left

end Dispensary

namespace Pool

variable {κ : Type} [Record κ]

/-- A take as the first of tasks that work on the given rows, before it has made a call. -/
def taking (engine : Engine) (pool : Pool κ) (identity : Identity) (device : Device) (rows : Rows)
    (tasks : List Task) : Crew engine.State :=
  .begun (engine.holding rows) (.begun (pool.take identity device) :: tasks)

/--
When a take may find nothing, whatever the other tasks are and whenever they have their turns.

The turns of the others make a history of the pool. Some way to give the take its turns between them
lets it end with nothing exactly if the take can miss that history, and lets it do so with keys in the
pool at all times exactly if the history is never empty besides. A history throughout which some key
stays cannot be missed. A take of a post-quantum key turns to the last-resort key in the same cases.
If one store replaces the keys of an earlier one, the take may find nothing, with keys in the pool at
all times, exactly if there are later keys and it can overlook them.
-/
theorem exhaustion_exact (engine : Engine) (pool : Pool κ) (dispensary : Dispensary)
    (identity : Identity) (device : Device) (rows : Rows) (tasks : List Task) (others : List Nat) :
    let crew := pool.taking engine identity device rows tasks
    let history := pool.history identity device crew (Crew.besides 0 others)
    let pqCrew := Crew.begun (engine.holding rows) (.begun (dispensary.takePq identity device) :: tasks)
    ((∃ schedule, Crew.besides 0 schedule = Crew.besides 0 others ∧
      (crew.run schedule).tasks[0]? = some (.ended (pool.take identity device) (.ok none))) ↔
        Missed none history) ∧
    ((∃ schedule, Crew.besides 0 schedule = Crew.besides 0 others ∧
      (crew.run schedule).tasks[0]? = some (.ended (pool.take identity device) (.ok none)) ∧
      ∀ store ∈ crew.stores schedule, pool.contents identity device (engine.rows store) ≠ []) ↔
        Missed none history ∧ ∀ now ∈ history, now ≠ []) ∧
    ¬ (Missed none history ∧ ∃ key, ∀ now ∈ history, ∃ row ∈ now, row.key = key) ∧
    ((∃ schedule, Crew.besides 0 schedule = Crew.besides 0 others ∧
      (pqCrew.run schedule).tasks[0]? = some (dispensary.fallingBack identity device)) ↔
        Missed none (dispensary.pqPool.history identity device pqCrew (Crew.besides 0 others))) ∧
    ∀ old new : List κ,
      (∃ schedule, ((replacing engine pool identity device rows old new).run schedule).tasks[0]? =
          some (.ended (pool.take identity device) (.ok none)) ∧
        ∀ store ∈ (replacing engine pool identity device rows old new).stores schedule,
          pool.contents identity device (engine.rows store) ≠ []) ↔
        new ≠ [] ∧ Overlooks old new := by
  intro crew history pqCrew
  -- The crew starts on a store of the engine.
  have holds (tasks : List Task) : (Crew.begun (engine.holding rows) tasks).store =
      engine.holding (engine.rows (Crew.begun (engine.holding rows) tasks).store) := by
    change engine.holding rows = engine.holding (engine.rows (engine.holding rows))
    rw [Engine.rows_holding]
  have never := Crew.not_mem_besides 0 others
  have asks : crew.tasks[0]? = some (.begun (pool.takeThen identity device .done)) := by
    rw [takeThen_done]
    rfl
  have asksPq : pqCrew.tasks[0]? = some (.begun (dispensary.pqPool.takeThen identity device
      (dispensary.afterTake identity device))) :=
    congrArg (fun walk => some (Task.begun walk)) (dispensary.takePq_eq identity device)
  have tells := tells_done pool identity device
  -- A take is one that ends with what it has found.
  rw [← takeThen_done]
  -- The general result is applied to the take itself and to the one that falls back.
  refine ⟨gives_up_iff tells (holds _) asks never,
    gives_up_full_iff tells ⟨_, rfl⟩ (holds _) asks never, ?_,
    gives_up_iff (dispensary.tells_afterTake identity device) (holds _) asksPq never, ?_⟩
  · -- A key that stays all the time is met by the queries.
    rintro ⟨missed, key, kept⟩
    refine not_missed_of_kept (fun now member => ?_) kept rfl missed
    -- What is in the pool at an instant is in ascending order.
    obtain ⟨store, _, rfl⟩ := List.mem_map.1 member
    exact contents_ascending pool identity device _
  · rw [takeThen_done]
    exact replacing_exact engine pool identity device rows

/-- A take finds nothing while one upload replaces another, with keys in the pool at all times. -/
theorem overlooked_upload :
    let identity : Identity := ⟨List.replicate 16 0, rfl⟩
    let pool : Pool EcKey := ⟨"ec"⟩
    let crew := replacing .memory pool identity .primary Rows.empty [⟨5, []⟩, ⟨6, []⟩] [⟨1, []⟩]
    ∃ schedule, (crew.run schedule).tasks[0]? =
        some (.ended (pool.take identity .primary) (.ok none)) ∧
      ∀ store ∈ crew.stores schedule,
        pool.contents identity .primary (Engine.memory.rows store) ≠ [] := by
  -- The later upload has only a smaller id.
  intro identity pool crew
  exact (replacing_exact .memory pool identity .primary Rows.empty _ _).2
    ⟨List.cons_ne_nil _ _, ⟨5, []⟩, by decide⟩

end Pool

end KeyDispensary
