import KeyDispensary.Proofs.Store.Engine
import KeyDispensary.Store.Probe
import KeyDispensary.Store.Program

/-!
Stores that answer every call as an engine does, whatever they are made of. Main statements:
`Follows.run` and `Follows.walk`, by which what is known of programs on an engine holds on such a store.
-/

namespace KeyDispensary

variable {σ π α β : Type}

/-! ### Programs one after another -/

/-- A program that goes on with another runs the other on what the first leaves. -/
theorem Program.run_bind [Store σ] (first : Program α) (next : α → Program β) (store : σ) :
    (first.bind next).run store = (next (first.run store).1).run (first.run store).2 := by
  -- The calls of the first program come first.
  induction first generalizing store with
  | done answer => rfl
  | ask call resume ih => exact ih _ _

/-- Changing the answer of a program changes nothing else. -/
theorem Program.run_map [Store σ] (change : α → β) (program : Program α) (store : σ) :
    (program.map change).run store = (change (program.run store).1, (program.run store).2) :=
  run_bind program _ store

/-- A walk that ends within some rounds ends the same when it may make more. -/
theorem Walk.runFrom_mono [Store σ] {walk : Walk π α} {few many : Nat} (more : few ≤ many)
    {place : π} {store next : σ} {answer : α}
    (ended : walk.runFrom few place store = (some answer, next)) :
    walk.runFrom many place store = (some answer, next) := by
  -- The rounds are counted down together.
  induction few generalizing many place store with
  | zero => cases ended
  | succ few ih =>
    obtain ⟨many, rfl⟩ : ∃ rest, many = rest + 1 := ⟨many - 1, by omega⟩
    rw [runFrom] at ended ⊢
    -- Either the first round ends the walk, or fewer rounds remain of both.
    split at ended
    · exact ended
    · exact ih (by omega) ended

/-- A program that follows a walk runs on what the walk leaves. -/
theorem Walk.runFrom_andThen [Store σ] {walk : Walk π α} {next : α → Program β} {rounds : Nat}
    {place : π} {store middle : σ} {answer : α}
    (ended : walk.runFrom rounds place store = (some answer, middle)) :
    (walk.andThen next).runFrom rounds place store =
      (some ((next answer).run middle).1, ((next answer).run middle).2) := by
  induction rounds generalizing place store with
  | zero => cases ended
  | succ rounds ih =>
    -- A round that ends the walk goes on with the program.
    have round : ((walk.andThen next).round place).run store =
        match (walk.round place).run store with
        | (.more place, store) => (.more place, store)
        | (.finished answer, store) =>
          (.finished ((next answer).run store).1, ((next answer).run store).2) := by
      refine (Program.run_bind (walk.round place) _ store).trans ?_
      rcases (walk.round place).run store with ⟨place | answer, store⟩
      · rfl
      · exact Program.run_map _ (next answer) store
    rw [runFrom] at ended ⊢
    rw [round]
    -- The walk goes on as before, until its last round is followed by the program.
    rcases same : (walk.round place).run store with ⟨place | result, left⟩
    · rw [same] at ended
      exact ih ended
    · rw [same] at ended
      obtain ⟨answers, rfl⟩ := Prod.mk.inj ended
      obtain rfl := Option.some.inj answers
      rfl

/-! ### Following an engine -/

/-- Whether a store that stands on some rows answers as an engine does that holds them. -/
structure Follows [Store σ] (engine : Engine) (stands : Rows → σ → Prop) : Prop where
  perform : ∀ {rows : Rows} {store : σ}, stands rows store → ∀ call : Call,
    (Store.perform store call).1 = (engine.answer rows call).1 ∧
      stands (engine.answer rows call).2 (Store.perform store call).2
  rounds : ∀ {rows : Rows} {store : σ}, stands rows store → rows.size < Store.rounds store

namespace Follows

variable [Store σ] {engine : Engine} {stands : Rows → σ → Prop} {rows left : Rows} {store : σ}
  {answer : α}

/-- A program on an engine that holds rows leaves rows. -/
theorem run_holding (engine : Engine) (program : Program α) (rows : Rows) :
    ∃ left, (program.run (engine.holding rows)).2 = engine.holding left := by
  -- A call leaves rows again, whatever it is.
  induction program generalizing rows with
  | done answer => exact ⟨rows, rfl⟩
  | ask call resume ih =>
    rw [Program.run, Engine.perform_holding]
    exact ih _ _

/-- Different rows make different states of an engine. -/
theorem holding_injective (same : engine.holding rows = engine.holding left) : rows = left := by
  -- The rows can be read off the state.
  rw [← engine.rows_holding rows, same, Engine.rows_holding]

/-- A program has the answer that it has on the engine, and leaves the same rows. -/
theorem run (follows : Follows engine stands) (program : Program α) (standing : stands rows store)
    (ended : program.run (engine.holding rows) = (answer, engine.holding left)) :
    ∃ next, program.run store = (answer, next) ∧ stands left next := by
  -- The calls are made one after another, and each is answered alike.
  induction program generalizing rows store with
  | done result =>
    obtain ⟨rfl, same⟩ := Prod.mk.inj ended
    exact ⟨store, rfl, holding_injective same ▸ standing⟩
  | ask call resume ih =>
    obtain ⟨reply, further⟩ := follows.perform standing call
    rw [Program.run, Engine.perform_holding] at ended
    exact ih _ further (reply ▸ ended)

/-- A walk has the answer that it has on the engine within as many rounds. -/
theorem runFrom (follows : Follows engine stands) (walk : Walk π α) {rounds : Nat} {place : π}
    (standing : stands rows store)
    (ended : walk.runFrom rounds place (engine.holding rows) = (some answer, engine.holding left)) :
    ∃ next, walk.runFrom rounds place store = (some answer, next) ∧ stands left next := by
  induction rounds generalizing place rows store with
  | zero => cases ended
  | succ rounds ih =>
    -- The first round ends the same on both stores.
    obtain ⟨middle, holds⟩ := run_holding engine (walk.round place) rows
    obtain ⟨next, ran, further⟩ := follows.run (walk.round place) standing (Prod.ext rfl holds)
    rw [Walk.runFrom] at ended ⊢
    rw [ran]
    rcases round : (walk.round place).run (engine.holding rows) with ⟨place | result, state⟩
    · rw [round] at ended holds
      obtain rfl : state = engine.holding middle := holds
      exact ih further ended
    · rw [round] at ended holds
      obtain ⟨answers, same⟩ := Prod.mk.inj ended
      obtain rfl := Option.some.inj answers
      obtain rfl : state = engine.holding middle := holds
      exact ⟨next, rfl, holding_injective same ▸ further⟩

/-- A walk that ends on an engine ends on a store that follows it, which may give more rounds. -/
theorem walk (follows : Follows engine stands) {walk : Walk π α} (standing : stands rows store)
    (ended : walk.run (engine.holding rows) = (some answer, engine.holding left)) :
    ∃ next, walk.run store = (some answer, next) ∧ stands left next := by
  -- As many rounds as the engine gives are enough.
  rw [Walk.run, Engine.rounds_holding] at ended
  obtain ⟨next, ran, further⟩ := follows.runFrom walk standing ended
  exact ⟨next, Walk.runFrom_mono (follows.rounds standing) ran, further⟩

/-- A probe without faults follows the engine that its store follows. -/
theorem probe (follows : Follows engine stands) :
    Follows engine fun rows (probe : Probe σ) => probe.faults = [] ∧ stands rows probe.store where
  perform := by
    -- Without faults the probe hands each call to its store.
    rintro rows ⟨store, faults, calls⟩ ⟨rfl, standing⟩ call
    obtain ⟨reply, further⟩ := follows.perform standing call
    exact ⟨reply, rfl, further⟩
  rounds := by
    -- Without faults a probe gives at least as many rounds as its store.
    rintro rows ⟨store, faults, calls⟩ ⟨rfl, standing⟩
    have enough : rows.size < Store.rounds store := follows.rounds standing
    change rows.size < (0 + 1) * (Store.rounds store + 1)
    omega

end Follows

end KeyDispensary
