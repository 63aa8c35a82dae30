import KeyDispensary.Proofs.Store.Crew

/-!
Programs that make only calls of some kind, whatever they are replied. Main statement:
`Crew.step_restrained`, what a turn of a task that is restrained in this way may do.
-/

namespace KeyDispensary

variable {σ π α β : Type} {allowed : Call → Prop}

/-- Whether a program makes only calls that are allowed, whatever it is replied. -/
def Program.MakesOnly (allowed : Call → Prop) : Program α → Prop
  | .done _ => True
  | .ask call resume => allowed call ∧ ∀ reply, (resume reply).MakesOnly allowed

/-- A program that goes on with another makes the calls of both. -/
theorem Program.MakesOnly.bind {first : Program α} (makes : first.MakesOnly allowed)
    {next : α → Program β} (further : ∀ answer, (next answer).MakesOnly allowed) :
    (first.bind next).MakesOnly allowed := by
  -- The calls of the first program come before those of the second.
  induction first with
  | done answer => exact further answer
  | ask call resume ih => exact ⟨makes.1, fun reply => ih reply (makes.2 reply)⟩

/-- Changing the answer of a program changes none of its calls. -/
theorem Program.MakesOnly.map {program : Program α} (makes : program.MakesOnly allowed)
    (change : α → β) : (program.map change).MakesOnly allowed :=
  makes.bind fun _ => trivial

/-- Whether a task makes only calls that are allowed, in its present round and in any other. -/
structure Task.MakesOnly (allowed : Call → Prop) (task : Task) : Prop where
  left : task.left.MakesOnly allowed
  rounds : ∀ place, (task.walk.round place).MakesOnly allowed

/-- A task of one round makes the calls of its program. -/
theorem Task.makesOnly_once {program : Program α} (makes : program.MakesOnly allowed) :
    (Task.begun (.once program)).MakesOnly allowed :=
  ⟨makes.map _, fun _ => makes.map _⟩

/-- The next round of a task is as restrained as the one before. -/
theorem Walk.makesOnly_onward {walk : Walk π α}
    (rounds : ∀ place, (walk.round place).MakesOnly allowed) {left : Program (Progress π α)}
    (makes : left.MakesOnly allowed) : (walk.onward left).MakesOnly allowed := by
  -- Another round begins only where one has ended.
  unfold Walk.onward
  split
  · exact rounds _
  · exact makes

namespace Crew

/-- What a turn may do: at most one call, which is allowed. -/
inductive Restrained (allowed : Call → Prop) (who : Nat) [Store σ] (crew : Crew σ) :
    Crew σ → Prop where
  /-- The store and the log stay as they are. -/
  | idle {next : Task} (makes : next.MakesOnly allowed) :
    Restrained allowed who crew ⟨crew.store, crew.tasks.set who next, crew.log⟩
  /-- A call is made. -/
  | made {call : Call} {next : Task} (allows : allowed call) (makes : next.MakesOnly allowed) :
    Restrained allowed who crew ⟨(Store.perform crew.store call).2, crew.tasks.set who next,
      ⟨who, crew.store, call, (Store.perform crew.store call).1⟩ :: crew.log⟩

/-- A turn of a task that makes only calls that are allowed makes one of them at most. -/
theorem step_restrained [Store σ] {crew : Crew σ} {who : Nat} {task : Task}
    (found : crew.tasks[who]? = some task) (makes : task.MakesOnly allowed) :
    Restrained allowed who crew (crew.step who) := by
  obtain ⟨inside, here⟩ := List.getElem?_eq_some_iff.1 found
  -- Putting a task back in its own place changes nothing.
  have same : crew.tasks.set who task = crew.tasks := by rw [← here, List.set_getElem_self]
  obtain ⟨π, α, walk, left⟩ := task
  cases left with
  | done progress =>
    cases progress with
    | finished answer =>
      -- The task has ended and stays as it is.
      rw [step_ended found]
      have idle : Restrained allowed who crew _ := .idle makes
      rwa [same] at idle
    | more place =>
      -- The next round begins without a call.
      simp only [step, found]
      exact .idle ⟨makes.rounds place, makes.rounds⟩
  | ask call resume =>
    -- The call is made, and what is left of the task is restrained again.
    rw [step_ask found]
    have further := Walk.makesOnly_onward makes.rounds (makes.left.2 (Store.perform crew.store call).1)
    exact .made makes.left.1 ⟨further, makes.rounds⟩

end Crew

end KeyDispensary
