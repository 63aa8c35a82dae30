import KeyDispensary.Keys.Error
import KeyDispensary.Proofs.Store.Following
import KeyDispensary.Proofs.Store.Writing

/-!
Stores that fail now and then, and whose calls are recorded. A careful walk ends at the first call that
fails and reports it, and by then it has changed nothing. Main statement: `Walk.Careful.run`.
-/

namespace KeyDispensary

variable {σ π α : Type} {engine : Engine}

/-- A call that was made, and the reply to it. -/
structure Exchange where
  call : Call
  reply : Reply call

/-- Whether a call succeeded. -/
def Exchange.Succeeded (exchange : Exchange) : Prop :=
  ∃ answer, exchange.reply = .ok answer

/-- A call that failed did not succeed. -/
theorem Exchange.not_succeeded {call : Call} {error : StoreError} :
    ¬ (Exchange.mk call (.error error)).Succeeded := nofun

/-- Where none but the last of some entries is of a kind, an entry of the kind is the last one. -/
theorem last_of_split {α : Type} {p : α → Prop} {before before' later : List α} {last entry : α}
    (none : ∀ other ∈ before, ¬ p other) (split : before ++ [last] = before' ++ entry :: later)
    (found : p entry) : later = [] ∧ before' = before ∧ entry = last := by
  -- Either nothing comes after the entry, or something does.
  rcases List.eq_nil_or_concat later with rfl | ⟨others, final, rfl⟩
  · obtain ⟨rfl, same⟩ := List.append_inj' split rfl
    exact ⟨rfl, rfl, (List.cons.inj same).1.symm⟩
  · -- Otherwise the entry would be among those before the last.
    rw [List.concat_eq_append, ← List.cons_append, ← List.append_assoc] at split
    obtain ⟨rfl, _⟩ := List.append_inj' split rfl
    exact absurd found (none entry (List.mem_append_right _ (.head _)))

/-- After calls that succeeded, the one that fails is found where it was made, and nothing after it. -/
theorem Exchange.failed_unique {before before' later : List Exchange} {call call' : Call}
    {error error' : StoreError} (succeeded : ∀ exchange ∈ before, exchange.Succeeded)
    (split : before ++ [⟨call, .error error⟩] = before' ++ ⟨call', .error error'⟩ :: later) :
    later = [] ∧ before' = before ∧ error' = error := by
  -- The call that failed is the only one of its kind, so the list is split there in one way.
  have others : ∀ exchange ∈ before, ¬ ¬ exchange.Succeeded :=
    fun exchange member => not_not_intro (succeeded exchange member)
  obtain ⟨ends, same, failed⟩ := last_of_split others split not_succeeded
  obtain ⟨rfl, replies⟩ := Exchange.mk.inj failed
  exact ⟨ends, same, Except.error.inj (eq_of_heq replies)⟩

/-! ### Recording calls -/

/-- A store and the calls that were made to it, the first first. -/
structure Recorder (σ : Type) where
  store : σ
  log : List Exchange

/-- Passes a call on and records it with its reply. -/
def Recorder.perform [Store σ] (recorder : Recorder σ) (call : Call) : Reply call × Recorder σ :=
  let (reply, store) := Store.perform recorder.store call
  (reply, ⟨store, recorder.log ++ [⟨call, reply⟩]⟩)

instance [Store σ] : Store (Recorder σ) :=
  ⟨Recorder.perform, fun recorder => Store.rounds recorder.store⟩

/-- A call of a program is recorded with its reply, and the program goes on. -/
theorem Recorder.run_ask [Store σ] (call : Call) (resume : Reply call → Program α) (store : σ)
    (log : List Exchange) :
    (Program.ask call resume).run (Recorder.mk store log) =
      (resume (Store.perform store call).1).run ⟨(Store.perform store call).2,
        log ++ [⟨call, (Store.perform store call).1⟩]⟩ := rfl

/-- Recording the calls of a program changes nothing else. -/
theorem Recorder.run_program [Store σ] (program : Program α) (store : σ) (log : List Exchange) :
    ∃ later, program.run (Recorder.mk store log) =
      ((program.run store).1, ⟨(program.run store).2, later⟩) := by
  induction program generalizing store log with
  | done answer => exact ⟨log, rfl⟩
  | ask call resume ih => exact ih _ _ _

/-- Recording the calls of a walk changes nothing else. -/
theorem Recorder.runFrom_walk [Store σ] (walk : Walk π α) (rounds : Nat) (place : π) (store : σ)
    (log : List Exchange) : ∃ later, walk.runFrom rounds place (Recorder.mk store log) =
      ((walk.runFrom rounds place store).1, ⟨(walk.runFrom rounds place store).2, later⟩) := by
  -- Round by round the answers are the same, and so is the store that is left.
  induction rounds generalizing place store log with
  | zero => exact ⟨log, rfl⟩
  | succ rounds ih =>
    obtain ⟨later, ran⟩ := run_program (walk.round place) store log
    rw [Walk.runFrom, Walk.runFrom, ran]
    generalize (walk.round place).run store = outcome
    obtain ⟨next | answer, left⟩ := outcome
    · exact ih _ _ _
    · exact ⟨later, rfl⟩

/-! ### Stores that falter -/

/--
Whether a store that stands on some rows answers a call as an engine does that holds them, or fails and
stands on them still.
-/
structure Falters [Store σ] (engine : Engine) (stands : Rows → σ → Prop) : Prop where
  perform : ∀ {rows : Rows} {store : σ}, stands rows store → ∀ call : Call,
    (∃ error, (Store.perform store call).1 = .error error ∧ stands rows (Store.perform store call).2) ∨
    (∃ answer, (Store.perform store call).1 = .ok answer ∧ (engine.answer rows call).1 = .ok answer ∧
      stands (engine.answer rows call).2 (Store.perform store call).2)
  rounds : ∀ {rows : Rows} {store : σ}, stands rows store → rows.size < Store.rounds store

/-- An engine that fails a call leaves the rows as they were. -/
theorem Engine.answer_error {rows : Rows} {call : Call} {error : StoreError}
    (failed : (engine.answer rows call).1 = .error error) : (engine.answer rows call).2 = rows := by
  -- Only a transaction can fail, and then it is not carried out.
  cases call with
  | transact writes =>
    have settled := engine.settled rows writes
    generalize engine.answer rows (.transact writes) = outcome at settled failed
    obtain ⟨reply, left⟩ := outcome
    cases settled with
    | refused => rfl
    | failed => rfl
    | carriedOut => cases failed
  | get | put | delete | query | count | replace => cases failed

namespace Falters

/-- An engine falters only where it fails by itself. -/
theorem holding (engine : Engine) :
    Falters engine fun rows (store : engine.State) => store = engine.holding rows where
  perform := by
    -- An engine that fails a call has changed nothing, so it stands where it stood.
    rintro rows store rfl call
    rw [Engine.perform_holding]
    cases replied : (engine.answer rows call).1 with
    | error error => exact .inl ⟨error, rfl, by rw [Engine.answer_error replied]⟩
    | ok answer => exact .inr ⟨answer, rfl, rfl, rfl⟩
  rounds := by
    rintro rows store rfl
    rw [Engine.rounds_holding]
    exact Nat.lt_succ_self _

/-- A call that is due to fail does not reach the store, whatever its kind is. -/
theorem meet_fail [Store σ] (probe : Probe σ) (error : StoreError) (call : Call) :
    probe.meet (.fail error) call = (.error error, probe) := by
  cases call <;> rfl

/-- Counting a call does not change what a fault does. -/
theorem count_deed (fault : ScriptedFault) (call : Call) : (fault.count call).deed = fault.deed := by
  rw [ScriptedFault.count]
  split <;> rfl

/-- A probe all of whose faults are failures falters. -/
theorem probe [Store σ] {stands : Rows → σ → Prop} (falters : Falters engine stands) :
    Falters engine fun rows (probe : Probe σ) =>
      (∀ fault ∈ probe.faults, ∃ error, fault.deed = .fail error) ∧ stands rows probe.store where
  perform := by
    -- A fault that is due fails the call before it reaches the store; any other call is passed on.
    rintro rows ⟨store, faults, calls⟩ ⟨fails, standing⟩ call
    have counted : ∀ fault ∈ faults.map fun fault => fault.count call,
        ∃ error, fault.deed = .fail error := by
      intro fault member
      obtain ⟨original, scripted, rfl⟩ := List.mem_map.1 member
      rw [count_deed]
      exact fails original scripted
    have performed : Store.perform (Probe.mk store faults calls) call =
        Probe.perform ⟨store, faults, calls⟩ call := rfl
    rw [performed, Probe.perform]
    cases due : (faults.map fun fault => fault.count call).find? fun fault => fault.isDue call with
    | some fault =>
      obtain ⟨error, deed⟩ := counted fault (List.mem_of_find?_eq_some due)
      simp only [deed, meet_fail]
      exact .inl ⟨error, rfl, counted, standing⟩
    | none =>
      simp only [Probe.pass]
      rcases falters.perform standing call with ⟨error, replied, same⟩ | ⟨answer, replied, answered, next⟩
      · -- The store fails the call by itself.
        exact .inl ⟨error, replied, counted, same⟩
      · exact .inr ⟨answer, replied, answered, counted, next⟩
  rounds := by
    rintro rows probe ⟨_, standing⟩
    -- The script lets the walk read more pages than the store alone, so the rounds suffice.
    have enough := falters.rounds standing
    change rows.size < (probe.pagesLeft + 1) * (Store.rounds probe.store + 1)
    rw [Nat.succ_mul]
    omega

end Falters

/-! ### Careful walks -/

/--
Whether a program that is a round of a walk ends the walk at once with a report when a call fails, and
ends it at once when a call has changed something.
-/
def Program.Careful (engine : Engine) (failure? : α → Option KeyError) :
    Program (Progress π α) → Prop
  | .done _ => True
  | .ask call resume =>
    (∀ error, ∃ answer, resume (.error error) = .done (.finished answer) ∧
      failure? answer = some (.store error)) ∧
    ∀ rows, ((engine.answer rows call).2 = rows ∨
        ∃ answer, resume (engine.answer rows call).1 = .done (.finished answer)) ∧
      (resume (engine.answer rows call).1).Careful engine failure?

/-- Whether all rounds of a walk are careful. -/
structure Walk.Careful (engine : Engine) (failure? : α → Option KeyError) (walk : Walk π α) :
    Prop where
  rounds : ∀ place, (walk.round place).Careful engine failure?

variable {stands : Rows → σ → Prop} {failure? : α → Option KeyError} {rows : Rows}

/-- How recorded calls ended that were made on some rows: the last of them failed, or none did. -/
inductive Recorded (stands : Rows → σ → Prop) (failure? : α → Option KeyError) (rows : Rows)
    (ran : Option α → Rows → Prop) : List Exchange → Option α → σ → Prop where
  /-- The failure is reported, and the rows are as they were. -/
  | failed {before : List Exchange} {call : Call} {error : StoreError} {answer : α} {next : σ}
    (succeeded : ∀ exchange ∈ before, exchange.Succeeded)
    (reports : failure? answer = some (.store error)) (same : stands rows next) :
    Recorded stands failure? rows ran (before ++ [⟨call, .error error⟩]) (some answer) next
  /-- All is as it would have been on the engine. -/
  | succeeded {exchanges : List Exchange} {answer? : Option α} {left : Rows} {next : σ}
    (all : ∀ exchange ∈ exchanges, exchange.Succeeded) (ended : ran answer? left)
    (standing : stands left next) : Recorded stands failure? rows ran exchanges answer? next

/-- What is known of the end when no call failed may be put in other words. -/
theorem Recorded.mono {ran ran' : Option α → Rows → Prop} {exchanges : List Exchange}
    {answer? : Option α} {next : σ}
    (recorded : Recorded stands failure? rows ran exchanges answer? next)
    (further : ∀ answer? left, ran answer? left → ran' answer? left) :
    Recorded stands failure? rows ran' exchanges answer? next := by
  cases recorded with
  | failed succeeded reports same => exact .failed succeeded reports same
  | succeeded all ended standing => exact .succeeded all (further _ _ ended) standing

/-- Calls that succeeded may stand before others that were made on the same rows. -/
theorem Recorded.after {ran : Option α → Rows → Prop} {earlier exchanges : List Exchange}
    {answer? : Option α} {next : σ}
    (recorded : Recorded stands failure? rows ran exchanges answer? next)
    (first : ∀ exchange ∈ earlier, exchange.Succeeded) :
    Recorded stands failure? rows ran (earlier ++ exchanges) answer? next := by
  -- Calls that succeeded may stand before those that were recorded.
  cases recorded with
  | failed succeeded reports same =>
    rw [← List.append_assoc]
    exact .failed (List.forall_mem_append.2 ⟨first, succeeded⟩) reports same
  | succeeded all ended standing =>
    exact .succeeded (List.forall_mem_append.2 ⟨first, all⟩) ended standing

/-- The answer of a walk that has ended after a round. -/
def Progress.answer? : Progress π α → Option α
  | .more _ => none
  | .finished answer => some answer

section
variable [Store σ]

/--
A careful round on a store that falters: it fails at its last call and has changed nothing, or it ends as
on the engine and has changed nothing unless it has ended the walk.
-/
theorem Program.Careful.run (falters : Falters engine stands) {program : Program (Progress π α)}
    (careful : program.Careful engine failure?) {store : σ} (standing : stands rows store)
    (log : List Exchange) : ∃ progress exchanges next,
      program.run (Recorder.mk store log) = (progress, ⟨next, log ++ exchanges⟩) ∧
      Recorded stands failure? rows (fun answer? left => answer? = progress.answer? ∧
        program.run (engine.holding rows) = (progress, engine.holding left) ∧
          (answer? = none → left = rows)) exchanges progress.answer? next := by
  -- The program is followed call by call, until a call fails or has changed something.
  induction program generalizing rows store log with
  | done progress =>
    exact ⟨progress, [], store, by rw [List.append_nil]; rfl,
      .succeeded (fun _ member => absurd member List.not_mem_nil) ⟨rfl, rfl, fun _ => rfl⟩ standing⟩
  | ask call resume ih =>
    have asked : (Program.ask call resume).run (Recorder.mk store log) =
        (resume (Store.perform store call).1).run (Recorder.mk (Store.perform store call).2
          (log ++ [⟨call, (Store.perform store call).1⟩])) := rfl
    -- On the engine the same program makes the same call.
    have alone : (Program.ask call resume).run (engine.holding rows) =
        (resume (engine.answer rows call).1).run (engine.holding (engine.answer rows call).2) := by
      rw [Program.run, Engine.perform_holding]
    rw [asked, alone]
    have performed := falters.perform standing call
    generalize Store.perform store call = outcome at performed
    obtain ⟨reply, next⟩ := outcome
    rcases performed with ⟨error, rfl, same⟩ | ⟨value, rfl, answered, further⟩
    · -- The program ends with its report.
      obtain ⟨answer, ends, reports⟩ := careful.1 error
      simp only [ends]
      exact ⟨_, [] ++ [⟨call, .error error⟩], next, rfl,
        .failed (fun _ member => absurd member List.not_mem_nil) reports same⟩
    · -- The call that got an answer is the first of those that succeed.
      have succeeded : ∀ exchange ∈ [Exchange.mk call (.ok value)], exchange.Succeeded := by
        intro exchange member
        obtain rfl := List.mem_singleton.1 member
        exact ⟨value, rfl⟩
      obtain ⟨changes, goesOn⟩ := careful.2 rows
      rw [answered] at changes goesOn ⊢
      rcases changes with same | ⟨answer, ends⟩
      · -- Nothing has changed, so the rest of the program meets the rows that were there.
        rw [same] at further ⊢
        obtain ⟨progress, exchanges, last, ran, recorded⟩ := ih _ goesOn further
          (log ++ [⟨call, .ok value⟩])
        refine ⟨progress, [⟨call, .ok value⟩] ++ exchanges, last, ?_,
          recorded.after succeeded⟩
        rw [← List.append_assoc]
        exact ran
      · -- Whatever the call has changed, the walk ends here.
        simp only [ends]
        exact ⟨_, _, next, rfl, .succeeded succeeded ⟨rfl, rfl, by simp [Progress.answer?]⟩ further⟩

/-- Some rounds of a careful walk on a store that falters. -/
theorem Walk.Careful.runFrom (falters : Falters engine stands) {walk : Walk π α}
    (careful : walk.Careful engine failure?) {store : σ} (standing : stands rows store)
    (log : List Exchange) (rounds : Nat) (place : π) : ∃ answer? exchanges next,
      walk.runFrom rounds place (Recorder.mk store log) = (answer?, ⟨next, log ++ exchanges⟩) ∧
      Recorded stands failure? rows (fun answer? left =>
        walk.runFrom rounds place (engine.holding rows) = (answer?, engine.holding left))
        exchanges answer? next := by
  -- A round that is followed by another has changed nothing, so the next meets the same rows.
  induction rounds generalizing store log place with
  | zero =>
    exact ⟨none, [], store, by rw [List.append_nil]; rfl,
      .succeeded (fun _ member => absurd member List.not_mem_nil) rfl standing⟩
  | succ rounds ih =>
    obtain ⟨progress, exchanges, next, ran, recorded⟩ :=
      (careful.rounds place).run falters standing log
    rw [Walk.runFrom, Walk.runFrom, ran]
    cases progress with
    -- The walk has its answer, and no round follows.
    | finished answer =>
      refine ⟨some answer, exchanges, next, rfl, ?_⟩
      refine recorded.mono ?_
      rintro _ left ⟨rfl, ended, _⟩
      rw [ended]
      rfl
    | more further =>
      -- Another round follows only if no call has failed and nothing has changed.
      cases recorded with
      | succeeded all ended standing' =>
        obtain ⟨_, ended, unchanged⟩ := ended
        obtain rfl := unchanged rfl
        obtain ⟨answer?, exchanges', last, ran', recorded'⟩ :=
          ih standing' (log ++ exchanges) further
        -- The calls of this round stand before those of the others.
        refine ⟨answer?, exchanges ++ exchanges', last, ?_,
          (recorded'.mono fun _ _ ended' => ?_).after all⟩
        · rw [← List.append_assoc]
          exact ran'
        · rw [ended]
          exact ended'

/--
A careful walk on a store that falters, with all its calls recorded. Either its last call failed, which
is what it reports, and the rows are as they were; or no call failed, and all is as it is on the engine.
-/
theorem Walk.Careful.run (falters : Falters engine stands) {walk : Walk π α}
    (careful : walk.Careful engine failure?) (store : σ) (standing : stands rows store) {answer : α}
    {left : Rows} (ended : walk.run (engine.holding rows) = (some answer, engine.holding left)) :
    ∃ answer? exchanges next,
      walk.run (Recorder.mk store []) = (answer?, ⟨next, exchanges⟩) ∧
      Recorded stands failure? rows (fun answer? middle => answer? = some answer ∧ middle = left)
        exchanges answer? next := by
  -- The recorded walk may have other rounds to spare, but it ends where the one on the engine ends.
  obtain ⟨answer?, exchanges, next, ran, recorded⟩ := careful.runFrom falters standing []
    (Store.rounds store) walk.start
  have enough := falters.rounds standing
  rw [Walk.run, Engine.rounds_holding] at ended
  -- More rounds than the engine needs change nothing about its answer.
  have more := Walk.runFrom_mono (Nat.succ_le_of_lt enough) ended
  refine ⟨answer?, exchanges, next, ran, ?_⟩
  refine recorded.mono ?_
  intro answer? middle ended'
  obtain ⟨rfl, same⟩ := Prod.mk.inj (ended'.symm.trans more)
  exact ⟨rfl, Follows.holding_injective same⟩

end

end KeyDispensary
