import KeyDispensary.Proofs.Keys.Claiming
import KeyDispensary.Proofs.Keys.Contents
import KeyDispensary.Proofs.Store.Restraint
import KeyDispensary.Proofs.Store.Writing
import Mathlib.Data.List.Perm.Subperm

/-!
A take while others remove keys. Whether it wins or loses a key, it never comes back to it, so the keys
ahead bound the calls that are still to come. Main statement: `Pool.take_among_removals`.
-/

namespace KeyDispensary

/-! ### The calls of one caller -/

section Log
variable {σ : Type} {who : Nat}

/-- The calls that a caller has made, the first first. -/
def callsOf (who : Nat) (log : List (Event σ)) : List Call :=
  (log.reverse.filter fun event => event.who = who).map Event.call

/-- The starts of the queries that a caller has made, the first first. -/
def startsOf (who : Nat) (log : List (Event σ)) : List (Option Bytes) :=
  (callsOf who log).filterMap Call.start?

/-- The number of removals that a caller has tried. -/
def removalsOf (who : Nat) (log : List (Event σ)) : Nat :=
  ((callsOf who log).filterMap Call.removed?).length

/-- A query adds its start, and is no removal. -/
theorem startsOf_query {store : σ} {query : Query} {reply : Reply (.query query)}
    (log : List (Event σ)) :
    startsOf who (⟨who, store, .query query, reply⟩ :: log) = startsOf who log ++ [query.after] ∧
      removalsOf who (⟨who, store, .query query, reply⟩ :: log) = removalsOf who log := by
  simp [startsOf, removalsOf, callsOf, Call.start?, Call.removed?]

/-- A removal is counted, and adds no start. -/
theorem startsOf_delete {store : σ} {table : String} {key : Key} {reply : Reply (.delete table key)}
    (log : List (Event σ)) :
    startsOf who (⟨who, store, .delete table key, reply⟩ :: log) = startsOf who log ∧
      removalsOf who (⟨who, store, .delete table key, reply⟩ :: log) = removalsOf who log + 1 := by
  simp [startsOf, removalsOf, callsOf, Call.start?, Call.removed?]

/-- A call of another is none of the caller's. -/
theorem startsOf_other {event : Event σ} (apart : event.who ≠ who) (log : List (Event σ)) :
    startsOf who (event :: log) = startsOf who log ∧
      removalsOf who (event :: log) = removalsOf who log := by
  simp [startsOf, removalsOf, callsOf, apart]

end Log

/-- Whether a call puts no item, whatever it takes away. -/
def Call.PutsNothing (call : Call) : Prop :=
  call.items = []

/-- A call that puts no item leaves no row that was not there. -/
theorem Engine.subset_of_putsNothing {engine : Engine} {rows : Rows} {call : Call}
    (puts : call.PutsNothing) : (engine.answer rows call).2.toList ⊆ rows.toList := by
  -- A row that was not there would be one of the items that the call puts.
  intro row member
  rcases mem_answer member with before | written
  · exact before
  · have none : row.item ∉ call.items := by
      rw [show call.items = [] from puts]
      exact List.not_mem_nil
    exact absurd (Call.mem_items written) none

namespace Pool

variable {κ : Type} {engine : Engine} {pool : Pool κ} {identity : Identity} {device : Device}
  {rows left : Rows} {after : Option Bytes}

/-! ### The keys ahead -/

/-- The number of keys that a pool holds after a place. -/
def ahead (pool : Pool κ) (identity : Identity) (device : Device) (rows : Rows)
    (after : Option Bytes) : Nat :=
  ((pool.contents identity device rows).filter fun row => Memory.isPast after row.key.sort).length

/-- All keys of a pool are ahead of a take that has not asked. -/
theorem ahead_none : pool.ahead identity device rows none =
    (pool.contents identity device rows).length := by
  rw [ahead, List.filter_eq_self.2 (by simp [Memory.isPast])]

/-- No more keys are ahead when rows are taken away. -/
theorem ahead_le (fewer : left.toList ⊆ rows.toList) (after : Option Bytes) :
    pool.ahead identity device left after ≤ pool.ahead identity device rows after := by
  -- The rows of a pool are different, so it is enough that those left were there before.
  have distinct : (pool.contents identity device left).Nodup :=
    (contents_ascending pool identity device left).imp fun {first second} less same => by
      rw [same] at less
      exact List.lt_irrefl _ less
  refine (List.subperm_of_subset (distinct.filter _) fun row member => ?_).length_le
  obtain ⟨listed, late⟩ := List.mem_filter.1 member
  obtain ⟨stays, owned⟩ := mem_contents.1 listed
  exact List.mem_filter.2 ⟨mem_contents.2 ⟨fewer stays, owned⟩, late⟩

/-- A query for the first key after a place finds the keys ahead. -/
theorem length_found_asked (engine : Engine) (pool : Pool κ) (identity : Identity)
    (device : Device) (rows : Rows) (after : Option Bytes) :
    (engine.found rows (pool.asked identity device after)).length =
      pool.ahead identity device rows after := by
  rw [found_asked, ahead]

/-- After the first key that a query finds, the others are ahead. -/
theorem ahead_of_found {row : Row} {rest : List Row}
    (shown : engine.found rows (pool.asked identity device after) = row :: rest) :
    pool.ahead identity device rows (some row.key.sort) = rest.length := by
  -- A query that starts after the first row finds what is left of the others.
  have located : (engine.found rows (pool.asked identity device after))[0]? = some row := by
    rw [shown]
    rfl
  have further := Engine.found_after located
  rw [shown] at further
  rw [← length_found_asked engine]
  exact congrArg List.length further

/-- What a query finds comes after its start. -/
theorem start_lt_of_found {row : Row} {rest : List Row}
    (shown : engine.found rows (pool.asked identity device after) = row :: rest) :
    after < some row.key.sort := by
  -- The first row passes the test of the query.
  have member : row ∈ engine.found rows (pool.asked identity device after) := by
    rw [shown]
    exact .head _
  have late := (List.mem_filter.1 member).2
  cases after with
  | none => trivial
  | some place =>
    have less : place < row.key.sort := of_decide_eq_true late
    exact less

/-- The order of starts is transitive, with the start for all before any other. -/
theorem start_lt_trans {first second third : Option Bytes} (less : first < second)
    (less' : second < third) : first < third := by
  -- The starts are compared as sort keys once there are any.
  cases second with
  | none => cases first <;> exact less.elim
  | some middle =>
    cases third with
    | none => exact less'.elim
    | some last =>
      cases first with
      | none => trivial
      | some place => exact List.lt_trans (less : place < middle) (less' : middle < last)

/-! ### What a take may still do -/

/-- A bound on the queries that a take still makes, by the number of keys after any place. -/
def Stage.queriesLeft (ahead : Option Bytes → Nat) : Stage κ → Nat
  | .asking after => max 1 (ahead after)
  | .claiming _ (some place) => max 1 (ahead (some place))
  | .claiming _ none | .answered _ => 0

/-- A bound on the removals that a take still tries. -/
def Stage.removalsLeft (ahead : Option Bytes → Nat) : Stage κ → Nat
  | .asking after => ahead after
  | .claiming _ (some place) => ahead (some place) + 1
  | .claiming _ none => 1
  | .answered _ => 0

/-- Where the next query of a take starts, if it makes another one. -/
def Stage.upcoming? : Stage κ → Option (Option Bytes)
  | .asking after => some after
  | .claiming _ (some place) => some (some place)
  | .claiming _ none | .answered _ => none

/-- What a take has done and may still do stays within bounds that the number of keys sets. -/
structure Bounded (held : Nat) (starts : List (Option Bytes)) (removals : Nat)
    (ahead : Option Bytes → Nat) (stage : Stage κ) : Prop where
  queries : starts.length + stage.queriesLeft ahead ≤ max 1 held
  removals : removals + stage.removalsLeft ahead ≤ held
  ascending : (starts ++ stage.upcoming?.toList).Pairwise (· < ·)

namespace Bounded

variable {held removals : Nat} {starts : List (Option Bytes)} {ahead fewer : Option Bytes → Nat}
  {stage : Stage κ}

/-- Keys that are taken away leave less to be done. -/
theorem mono (bounded : Bounded held starts removals ahead stage)
    (less : ∀ after, fewer after ≤ ahead after) : Bounded held starts removals fewer stage := by
  obtain ⟨queries, claims, ascending⟩ := bounded
  -- What a take may still do depends on the keys after one place at most.
  have least : stage.queriesLeft fewer ≤ stage.queriesLeft ahead ∧
      stage.removalsLeft fewer ≤ stage.removalsLeft ahead := by
    cases stage with
    | asking after =>
      have some := less after
      simp only [Stage.queriesLeft, Stage.removalsLeft]
      omega
    | claiming candidate last =>
      cases last with
      | none => exact ⟨Nat.le_refl _, Nat.le_refl _⟩
      | some place =>
        have some := less (some place)
        simp only [Stage.queriesLeft, Stage.removalsLeft]
        omega
    | answered answer => exact ⟨Nat.le_refl _, Nat.le_refl _⟩
  exact ⟨by omega, by omega, ascending⟩

/-- A query is counted, and what it finds is all that is left to be done. -/
theorem seen (engine : Engine)
    (bounded : Bounded held starts removals (pool.ahead identity device rows)
      (.asking after : Stage κ)) :
    Bounded held (starts ++ [after]) removals (pool.ahead identity device rows)
      (.seen (engine.found rows (pool.asked identity device after)) : Stage κ) := by
  obtain ⟨queries, claims, ascending⟩ := bounded
  have count := length_found_asked engine pool identity device rows after
  simp only [Stage.queriesLeft, Stage.removalsLeft, ← count] at queries claims
  rw [Stage.upcoming?, Option.toList_some] at ascending
  cases shown : engine.found rows (pool.asked identity device after) with
  | nil =>
    -- Nothing is found, so the take has its answer.
    rw [shown] at queries claims
    simp only [Stage.seen]
    refine ⟨?_, claims, by simpa [Stage.upcoming?] using ascending⟩
    simpa [Stage.queriesLeft] using queries
  | cons row rest =>
    -- The first row is the candidate, and the query is made.
    rw [shown, List.length_cons] at queries claims
    have further := ahead_of_found shown
    have late := start_lt_of_found shown
    cases rest with
    | nil =>
      -- The candidate is the last one, and the take makes no other query.
      simp only [Stage.seen, List.isEmpty_nil, if_true]
      refine ⟨?_, claims, by simpa [Stage.upcoming?] using ascending⟩
      simpa [Stage.queriesLeft] using queries
    | cons next others =>
      simp only [Stage.seen, List.isEmpty_cons, Bool.false_eq_true, if_false]
      rw [List.length_cons] at queries claims further
      refine ⟨?_, ?_, ?_⟩
      · -- What is left to query is what comes after the candidate.
        rw [Stage.queriesLeft, further, List.length_append, List.length_singleton]
        omega
      · rw [Stage.removalsLeft, further]
        omega
      · -- The candidate comes after the start of this query, and so after all starts before.
        rw [Stage.upcoming?, Option.toList_some, List.pairwise_append]
        refine ⟨ascending, List.pairwise_singleton _ _, fun start member place listed => ?_⟩
        rw [List.mem_singleton.1 listed]
        rcases List.mem_append.1 member with earlier | same
        · have before := (List.pairwise_append.1 ascending).2.2 start earlier after (.head _)
          exact start_lt_trans before late
        · rwa [List.mem_singleton.1 same]

/-- A removal is counted, and a lost one leaves the keys after the candidate. -/
theorem claimed {candidate : Item} {last : Option Bytes} [Record κ]
    (bounded : Bounded held starts removals ahead (.claiming candidate last : Stage κ))
    (value : Option Bytes) :
    Bounded held starts (removals + 1) ahead (.claimed pool last value : Stage κ) := by
  obtain ⟨queries, claims, ascending⟩ := bounded
  have shorter : starts.Pairwise (· < ·) := (List.pairwise_append.1 ascending).1
  -- A removal that finds a value ends the take, and a lost one does so on the last page.
  cases value with
  | some value =>
    simp only [Stage.claimed]
    refine ⟨?_, ?_, by simpa [Stage.upcoming?] using shorter⟩
    · exact Nat.le_trans (Nat.le_add_right _ _) queries
    · cases last <;> simp only [Stage.removalsLeft] at claims ⊢ <;> omega
  | none =>
    cases last with
    | none => exact ⟨queries, claims, by simpa [Stage.upcoming?, Stage.claimed] using shorter⟩
    | some place =>
      -- The claim is lost, and the take asks again after its place.
      refine ⟨queries, ?_, ascending⟩
      simp only [Stage.removalsLeft, Stage.claimed] at claims ⊢
      omega

end Bounded

/-! ### Turn by turn -/

variable [Record κ] {held turns : Nat} {crew : Crew engine.State} {stage : Stage κ} {who : Nat}

/-- What holds of a take at all times, and of callers beside it who put nothing. -/
structure Pursues (engine : Engine) (pool : Pool κ) (identity : Identity) (device : Device)
    (held turns : Nat) (crew : Crew engine.State) (stage : Stage κ) : Prop where
  holds : crew.store = engine.holding (engine.rows crew.store)
  task : crew.tasks[0]? = some (stage.task pool identity device .done)
  others : ∀ (who : Nat) (task : Task), who ≠ 0 → crew.tasks[who]? = some task →
    task.MakesOnly Call.PutsNothing
  bounded : Bounded held (startsOf 0 crew.log) (removalsOf 0 crew.log)
    (pool.ahead identity device (engine.rows crew.store)) stage
  /-- Each turn has made a call, until the take had its answer. -/
  counted : (∃ answer, stage = .answered answer) ∨
    turns = (startsOf 0 crew.log).length + removalsOf 0 crew.log

/-- A turn of the take makes the call that is due, or changes nothing. -/
theorem Pursues.own (pursues : Pursues engine pool identity device held turns crew stage) :
    ∃ next : Stage κ, Pursues engine pool identity device held (turns + 1) (crew.step 0) next := by
  obtain ⟨holds, task, others, bounded, counted⟩ := pursues
  have inside := (List.getElem?_eq_some_iff.1 task).1
  have beside {next : Task} (other : Nat) (task : Task) (apart : other ≠ 0)
      (present : (crew.tasks.set 0 next)[other]? = some task) : task.MakesOnly Call.PutsNothing :=
    others other task apart ((List.getElem?_set_ne apart.symm).symm.trans present)
  cases stage with
  | answered answer =>
    -- A take that has its answer stays as it is, and the number of its turns does not matter.
    rw [answered_task] at task
    rw [Crew.step_ended task]
    exact ⟨.answered answer, holds, task, others, bounded, .inl ⟨answer, rfl⟩⟩
  | asking after =>
    have counted := counted.resolve_left (by simp)
    -- The query is counted as a start, and leaves the rows as they are.
    rw [step_asking holds task, ← holds]
    refine ⟨_, holds, List.getElem?_set_self inside, beside, ?_, .inr ?_⟩
    · rw [(startsOf_query _).1, (startsOf_query _).2]
      exact bounded.seen engine
    · rw [(startsOf_query _).1, (startsOf_query _).2, List.length_append, List.length_singleton]
      omega
  | claiming candidate last =>
    have counted := counted.resolve_left (by simp)
    -- The removal is counted, and what it takes away is not ahead any more.
    rw [step_claiming holds task]
    refine ⟨_, by rw [Engine.rows_holding], List.getElem?_set_self inside, beside, ?_, .inr ?_⟩
    · rw [(startsOf_delete _).1, (startsOf_delete _).2, Engine.rows_holding]
      exact (bounded.claimed _).mono (ahead_le (List.filter_subset_self _))
    · rw [(startsOf_delete _).1, (startsOf_delete _).2]
      omega

/-- A turn of another may take keys away from those ahead, and adds none. -/
theorem Pursues.other (pursues : Pursues engine pool identity device held turns crew stage)
    (apart : who ≠ 0) : Pursues engine pool identity device held turns (crew.step who) stage := by
  obtain ⟨holds, task, others, bounded, counted⟩ := pursues
  cases found : crew.tasks[who]? with
  | none =>
    rw [Crew.step_nobody found]
    exact ⟨holds, task, others, bounded, counted⟩
  | some other =>
    have restrained := Crew.step_restrained found (others who other apart found)
    generalize crew.step who = after at restrained
    -- The take stands where it stood, for neither its task nor its calls change.
    have stays (next : Task) : (crew.tasks.set who next)[0]? =
        some (stage.task pool identity device .done) :=
      (List.getElem?_set_ne apart).trans task
    have beside {next : Task} (makes : next.MakesOnly Call.PutsNothing) (place : Nat) (task : Task)
        (apart : place ≠ 0) (present : (crew.tasks.set who next)[place]? = some task) :
        task.MakesOnly Call.PutsNothing := by
      by_cases same : who = place
      · subst same
        rw [List.getElem?_set_self (List.getElem?_eq_some_iff.1 found).1] at present
        exact Option.some.inj present ▸ makes
      · exact others place task apart ((List.getElem?_set_ne same).symm.trans present)
    cases restrained with
    | idle makes => exact ⟨holds, stays _, beside makes, bounded, counted⟩
    | made puts makes =>
      -- The call of the other puts nothing, so no key comes ahead of the take.
      rw [holds, Engine.perform_holding]
      refine ⟨by rw [Engine.rows_holding], stays _, beside makes, ?_, ?_⟩
      · rw [(startsOf_other apart _).1, (startsOf_other apart _).2, Engine.rows_holding]
        exact bounded.mono (ahead_le (Engine.subset_of_putsNothing puts))
      · rwa [(startsOf_other apart _).1, (startsOf_other apart _).2]

/-- Whatever the schedule, the take has had its turns and the others theirs. -/
theorem Pursues.run (pursues : Pursues engine pool identity device held turns crew stage)
    (schedule : List Nat) : ∃ next : Stage κ,
      Pursues engine pool identity device held (turns + schedule.count 0) (crew.run schedule) next := by
  -- The schedule is followed turn by turn, and only the turns of the take are counted.
  induction schedule generalizing crew turns stage with
  | nil => exact ⟨stage, pursues⟩
  | cons who rest ih =>
    by_cases own : who = 0
    · subst own
      -- The turn of the take counts once.
      obtain ⟨next, pursues⟩ := pursues.own
      have after := ih pursues
      rwa [List.count_cons_self, Nat.add_comm (rest.count 0), ← Nat.add_assoc]
    · have after := ih (pursues.other own)
      rwa [List.count_cons_of_ne own]

/-- What holds of a take that had some keys before it when it has had a number of turns. -/
structure EndsAmong (pool : Pool κ) (identity : Identity) (device : Device) (held turns : Nat)
    (crew : Crew engine.State) : Prop where
  queries : (startsOf 0 crew.log).length ≤ max 1 held
  removals : removalsOf 0 crew.log ≤ held
  /-- Each query starts after the one before it. -/
  ascending : (startsOf 0 crew.log).Pairwise (· < ·)
  /-- As many turns as it may need for its calls bring it to its end. -/
  ends : max 1 held + held ≤ turns → ∃ answer,
    crew.tasks[0]? = some (.ended (pool.take identity device) answer)

/-- Where a take stands tells what its calls add up to. -/
theorem Pursues.endsAmong (pursues : Pursues engine pool identity device held turns crew stage) :
    pool.EndsAmong identity device held turns crew := by
  obtain ⟨queries, removals, ascending⟩ := pursues.bounded
  refine ⟨by omega, by omega, (List.pairwise_append.1 ascending).1, fun enough => ?_⟩
  have task := pursues.task
  -- Each turn of an unfinished take has used up one of the calls that it may make.
  cases stage with
  | answered answer =>
    rw [answered_task, takeThen_done] at task
    exact ⟨answer, task⟩
  -- Before the answer a call is left, so not all of them were made.
  | asking after =>
    have counted := pursues.counted.resolve_left (by simp)
    rw [Stage.queriesLeft] at queries
    omega
  | claiming candidate last =>
    have counted := pursues.counted.resolve_left (by simp)
    cases last <;> rw [Stage.removalsLeft] at removals <;> omega

/-- A take and callers beside it, none of whom has had a turn. -/
def takeAmong (pool : Pool κ) (identity : Identity) (device : Device) (engine : Engine)
    (rows : Rows) (others : List Task) : Crew engine.State :=
  .begun (engine.holding rows) (.begun (pool.take identity device) :: others)

/--
A take beside callers who may remove any keys at any time and put none, whatever the order of their calls.

It makes at most one query and one removal for each key that the pool held at first, and one query if the
pool held none. Each query starts after the one before. With as many turns the take ends, whatever the
races that it has lost.
-/
theorem take_among_removals (engine : Engine) (pool : Pool κ) (identity : Identity)
    (device : Device) (rows : Rows) (others : List Task)
    (removing : ∀ task ∈ others, task.MakesOnly Call.PutsNothing) (schedule : List Nat) :
    pool.EndsAmong identity device (pool.contents identity device rows).length (schedule.count 0)
      ((pool.takeAmong identity device engine rows others).run schedule) := by
  -- Before the first turn no call is counted, and all keys of the pool are ahead.
  have first : Pursues engine pool identity device (pool.contents identity device rows).length 0
      (pool.takeAmong identity device engine rows others) (.asking none) := by
    refine ⟨by rw [takeAmong, Crew.begun, Engine.rows_holding], ?_, ?_, ?_, .inr rfl⟩
    · rw [← begun_takeThen, takeThen_done]
      rfl
    · intro who task apart present
      obtain ⟨other, rfl⟩ := Nat.exists_eq_succ_of_ne_zero apart
      exact removing task (List.mem_of_getElem? present)
    · rw [takeAmong, Crew.begun, Engine.rows_holding]
      refine ⟨?_, ?_, List.pairwise_singleton _ _⟩
      · rw [Stage.queriesLeft, ahead_none]
        exact Nat.le_of_eq (Nat.zero_add _)
      · rw [Stage.removalsLeft, ahead_none]
        exact Nat.le_of_eq (Nat.zero_add _)
  obtain ⟨stage, pursues⟩ := first.run schedule
  rw [Nat.zero_add] at pursues
  exact pursues.endsAmong

/-- A take that is robbed of each of three keys between its query and its removal. -/
theorem take_among_removals_robbed :
    let pool : Pool EcKey := ⟨"Keys"⟩
    let identity : Identity := ⟨List.replicate 16 0, rfl⟩
    let items := [1, 2, 3].map fun id => Pool.item identity ⟨1⟩ (⟨id, []⟩ : EcKey)
    let rows := Rows.empty.putAll pool.table items
    let others : List Task := items.map fun item =>
      .begun (.once (.ask (.delete pool.table item.key) fun _ => .done ()))
    let schedule := [0, 1, 0, 0, 2, 0, 0, 3, 0]
    let crew := (pool.takeAmong identity ⟨1⟩ .memory rows others).run schedule
    ((∀ task ∈ others, task.MakesOnly Call.PutsNothing) ∧
      max 1 (pool.contents identity ⟨1⟩ rows).length + (pool.contents identity ⟨1⟩ rows).length ≤
        schedule.count 0) ∧
    pool.EndsAmong identity ⟨1⟩ (pool.contents identity ⟨1⟩ rows).length (schedule.count 0) crew ∧
    (startsOf 0 crew.log).length = 3 ∧ removalsOf 0 crew.log = 3 := by
  intro pool identity items rows others schedule crew
  -- Each of the others deletes one of the keys.
  have removing : ∀ task ∈ others, task.MakesOnly Call.PutsNothing := by
    intro task member
    obtain ⟨item, _, rfl⟩ := List.mem_map.1 member
    exact Task.makesOnly_once ⟨rfl, fun _ => trivial⟩
  exact ⟨⟨removing, by decide +kernel⟩,
    pool.take_among_removals .memory identity ⟨1⟩ rows others removing schedule,
    by decide +kernel, by decide +kernel⟩

end Pool

end KeyDispensary
