import KeyDispensary.Proofs.Keys.Contention
import KeyDispensary.Proofs.Keys.Records
import Mathlib.Data.List.Perm.Basic
import Mathlib.Data.Set.List

/-!
How takes of one pool share its keys when all have returned. Main statement: `Pool.takes_share`.
-/

namespace KeyDispensary

variable {σ π α : Type}

/-- Runs a walk several times, one after another. -/
def Walk.times [Store σ] (walk : Walk π α) : Nat → σ → List (Option α) × σ
  | 0, store => ([], store)
  | count + 1, store =>
    let (answer, store) := walk.run store
    let (answers, store) := walk.times count store
    (answer :: answers, store)

namespace Pool

variable {κ : Type} [Record κ]

/-- The answers of takes that come one after another to the given keys. -/
def shares (keys : List κ) (count : Nat) : List (Except KeyError (Option κ)) :=
  (keys.take count).map (fun key => .ok (some key)) ++
    List.replicate (count - keys.length) (.ok none)

/-- Whether takes of a pool have all returned, with the given answers. -/
def Returned (pool : Pool κ) (identity : Identity) (device : Device) (crew : Crew σ)
    (answers : List (Except KeyError (Option κ))) : Prop :=
  crew.tasks = answers.map (.ended (pool.take identity device))

/-- How takes that have returned have shared the rows of a pool, which held the given keys. -/
structure Shared (engine : Engine) (pool : Pool κ) (identity : Identity) (device : Device)
    (rows : Rows) (keys : List κ) (crew : Crew engine.State)
    (answers : List (Except KeyError (Option κ))) : Prop where
  /-- As many takes as there are keys return one, those of the smallest ids, and the others none. -/
  answered : answers.Perm (shares keys answers.length)
  /-- Each of the first rows was removed once, by a take of its own, which returned its key. -/
  removed : ∃ winners : List Nat, winners.Nodup ∧
    winners.length = min answers.length keys.length ∧
    removals crew.log = winners.zip (pool.contents identity device rows) ∧
    ∀ (place who : Nat), winners[place]? = some who →
      answers[who]? = keys[place]?.map fun key => .ok (some key)
  /-- The pool holds the other rows. -/
  left : pool.contents identity device (engine.rows crew.store) =
    (pool.contents identity device rows).drop answers.length
  /-- The rows outside the pool are as they were. -/
  beyond : ∀ row, ¬ pool.owns identity device row →
    (row ∈ (engine.rows crew.store).toList ↔ row ∈ rows.toList)
  /-- Takes that come one after another have the same answers and leave the same store. -/
  alone : (pool.take identity device).times answers.length (engine.holding rows) =
    ((shares keys answers.length).map some, crew.store)

variable {engine : Engine} {pool : Pool κ} {identity : Identity} {device : Device} {rows : Rows}
  {keys : List κ}

/-- Takes that come one after another remove the rows of a pool in their order, whatever these hold. -/
theorem times_run (engine : Engine) (pool : Pool κ) (identity : Identity) (device : Device)
    (rows : Rows) (count : Nat) : ∃ left : Rows,
    pool.contents identity device left = (pool.contents identity device rows).drop count ∧
    pool.outside identity device left = pool.outside identity device rows ∧
    (pool.take identity device).times count (engine.holding rows) =
      (((pool.contents identity device rows).take count).map (fun row =>
          some ((recordOf κ pool.table row.value).map some)) ++
        List.replicate (count - (pool.contents identity device rows).length) (some (.ok none)),
        engine.holding left) := by
  -- The induction is on the number of takes, each of which meets the rows that the others have left.
  induction count generalizing rows with
  | zero => exact ⟨rows, rfl, rfl, by simp [Walk.times]⟩
  | succ count ih =>
    -- The first take has the first row, and the pool goes on without it.
    have first := take_run engine pool identity device rows
    cases holds : pool.contents identity device rows with
    | nil =>
      obtain ⟨left, inside, beyond, taken⟩ := ih rows
      rw [holds] at first inside taken
      refine ⟨left, by rw [inside, List.drop_nil, List.drop_nil], beyond, ?_⟩
      rw [Walk.times, first]
      simp only [taken]
      simp [List.replicate_succ]
    | cons row rest =>
      obtain ⟨left, inside, beyond, taken⟩ := ih (rows.erase row.key)
      rw [contents_erase_head holds] at inside taken
      rw [holds] at first
      refine ⟨left, inside, beyond.trans (outside_erase (mem_head holds).2 rows), ?_⟩
      rw [Walk.times, first]
      simp only [taken]
      simp

/-- Takes that come one after another share the keys of a pool in the order of their ids. -/
theorem take_times (engine : Engine)
    (decoded : (pool.contents identity device rows).map (fun row => recordOf κ pool.table row.value) =
      keys.map .ok) (count : Nat) : ∃ left : Rows,
    pool.contents identity device left = (pool.contents identity device rows).drop count ∧
    pool.outside identity device left = pool.outside identity device rows ∧
    (pool.take identity device).times count (engine.holding rows) =
      ((shares keys count).map some, engine.holding left) := by
  obtain ⟨left, inside, beyond, taken⟩ := times_run engine pool identity device rows count
  refine ⟨left, inside, beyond, taken.trans (congrArg (·, _) ?_)⟩
  -- Each row stands for the key at its place.
  have answers : (pool.contents identity device rows).map (fun row =>
      some ((recordOf κ pool.table row.value).map some)) = keys.map fun key => some (.ok (some key)) := by
    have each := congrArg (List.map fun answer => some (Except.map some answer)) decoded
    rwa [List.map_map, List.map_map] at each
  have length := congrArg List.length decoded
  rw [List.length_map, List.length_map] at length
  rw [List.map_take, answers, length, shares, List.map_append, List.map_map, List.map_replicate,
    ← List.map_take]
  rfl

/-- The keys of a list by their places. -/
theorem map_range_getElem? (answers : List α) :
    (List.range answers.length).map (answers[·]?) = answers.map some := by
  -- Both lists have an answer at each place that the answers have.
  apply List.ext_getElem?
  intro place
  by_cases inside : place < answers.length
  · simp [List.getElem?_range inside, List.getElem?_eq_getElem inside]
  · simp [inside]

section Returned

variable {crew : Crew engine.State} {winners : List Nat} {stages : List (Stage κ)}
  {answers : List (Except KeyError (Option κ))}

/-- Takes that have all returned stand at their answers. -/
theorem Contended.answered
    (state : Contended engine pool identity device rows crew winners stages)
    (returned : pool.Returned identity device crew answers) :
    stages = answers.map .answered := by
  -- The tasks are compared one by one.
  apply List.ext_getElem?
  intro who
  have task := congrArg (·[who]?) (state.tasks.symm.trans returned)
  simp only [List.getElem?_map] at task ⊢
  cases found : stages[who]? with
  | none =>
    cases answer : answers[who]? with
    | none => rfl
    | some answer => simp [found, answer] at task
  | some stage =>
    cases answer : answers[who]? with
    | none => simp [found, answer] at task
    | some answer =>
      rw [found, answer] at task
      exact congrArg some (eq_answered_of_task (Option.some.inj task))

/-- Of takes that have all returned, as many have won as there were rows or takes. -/
theorem Contended.length_winners
    (state : Contended engine pool identity device rows crew winners (answers.map .answered)) :
    winners.length = min answers.length (pool.contents identity device rows).length := by
  have few : winners.length ≤ answers.length := by
    -- The winners are different takes.
    have inside : winners ⊆ List.range answers.length := fun who member => by
      simpa using state.present who member
    simpa using (List.subperm_of_subset state.distinct inside).length_le
  have many : winners.length < answers.length →
      (pool.contents identity device rows).length ≤ winners.length := by
    -- Some take has not won, so it has found the pool empty.
    intro less
    obtain ⟨who, member, loser⟩ : ∃ who ∈ List.range answers.length, who ∉ winners := by
      by_contra everybody
      have inside : List.range answers.length ⊆ winners := fun who member =>
        by_contra fun loser => everybody ⟨who, member, loser⟩
      have all := (List.subperm_of_subset List.nodup_range inside).length_le
      rw [List.length_range] at all
      omega
    -- The loser has returned, and it has seen that nothing is left.
    have present : who < answers.length := List.mem_range.1 member
    have found : (answers.map Stage.answered)[who]? = some (.answered answers[who]) := by
      simp [present]
    rcases (state.fits who _ found).answered rfl with ⟨_, _, enough⟩ | ⟨place, row, winner, _⟩
    · exact enough
    · exact absurd (List.mem_of_getElem? winner) loser
  have bounded := state.bounded
  omega

/-- A winner has returned the key of the row that it removed. -/
theorem Contended.winner_answer
    (state : Contended engine pool identity device rows crew winners (answers.map .answered))
    (decoded : (pool.contents identity device rows).map (fun row => recordOf κ pool.table row.value) =
      keys.map .ok) {place who : Nat} (winner : winners[place]? = some who) :
    answers[who]? = keys[place]?.map fun key => .ok (some key) := by
  have present : who < answers.length := by
    simpa using state.present who (List.mem_of_getElem? winner)
  have found : (answers.map Stage.answered)[who]? = some (.answered answers[who]) := by
    simp [present]
  -- A take that is answered has lost, or it has won a row.
  rcases (state.fits who _ found).answered rfl with ⟨_, loser, _⟩ | ⟨place', row, winner', prize, won⟩
  · exact absurd (List.mem_of_getElem? winner) loser
  · -- A take wins once, so the row is the one at this place.
    obtain rfl : place = place' :=
      (List.getElem?_inj (List.getElem?_eq_some_iff.1 winner).1 state.distinct).1
        (winner.trans winner'.symm)
    have value := congrArg (·[place]?) decoded
    simp only [List.getElem?_map, prize, Option.map_some] at value
    cases key : keys[place]? with
    | none => simp [key] at value
    | some key' =>
      simp only [key, Option.map_some, Option.some.injEq] at value
      rw [List.getElem?_eq_getElem present, won, value]
      rfl

/-- The takes that have won no row. -/
def losers (winners : List Nat) (count : Nat) : List Nat :=
  (List.range count).filter (· ∉ winners)

/-- Takes that have all returned are the winners in their order and the losers. -/
theorem Contended.winners_losers_perm
    (state : Contended engine pool identity device rows crew winners (answers.map .answered)) :
    (winners ++ losers winners answers.length).Perm (List.range answers.length) := by
  -- Both lists have each take once.
  have once : (winners ++ losers winners answers.length).Nodup := by
    rw [List.nodup_append]
    refine ⟨state.distinct, List.nodup_range.filter _, ?_⟩
    rintro first winner second loser rfl
    simp [losers, winner] at loser
  refine (List.perm_ext_iff_of_nodup once List.nodup_range).2 fun who => ?_
  have present := state.present who
  -- Whoever is no winner is a loser.
  by_cases winner : who ∈ winners
  · simpa [losers, winner] using present winner
  · simp [losers, winner]

/-- The winners have returned the first keys in turn. -/
theorem Contended.winners_answers
    (state : Contended engine pool identity device rows crew winners (answers.map .answered))
    (decoded : (pool.contents identity device rows).map (fun row => recordOf κ pool.table row.value) =
      keys.map .ok) : winners.map (answers[·]?) =
        (keys.take answers.length).map fun key => some (.ok (some key)) := by
  have size : keys.length = (pool.contents identity device rows).length := by
    simpa using (congrArg List.length decoded).symm
  have count := state.length_winners
  -- They are compared place by place.
  apply List.ext_getElem?
  intro place
  rw [List.getElem?_map, List.getElem?_map, List.getElem?_take]
  cases winner : winners[place]? with
  | none =>
    -- Behind the last winner there is no key either.
    have late := List.getElem?_eq_none_iff.1 winner
    split
    · rw [List.getElem?_eq_none (by omega)]
      rfl
    · rfl
  | some who =>
    have early := (List.getElem?_eq_some_iff.1 winner).1
    rw [if_pos (by omega), Option.map_some, state.winner_answer decoded winner,
      List.getElem?_eq_getElem (by omega)]
    rfl

/-- The losers have found the pool empty. -/
theorem Contended.losers_answers
    (state : Contended engine pool identity device rows crew winners (answers.map .answered)) :
    (losers winners answers.length).map (answers[·]?) = List.replicate
      (answers.length - (pool.contents identity device rows).length) (some (.ok none)) := by
  have count := state.length_winners
  refine List.eq_replicate_iff.2 ⟨?_, fun answer member => ?_⟩
  -- As many as are not winners have lost, and each has returned nothing.
  · have all := state.winners_losers_perm.length_eq
    rw [List.length_append, List.length_range] at all
    rw [List.length_map]
    omega
  · obtain ⟨who, loser, rfl⟩ := List.mem_map.1 member
    simp only [losers, List.mem_filter, List.mem_range, decide_eq_true_eq] at loser
    have found : (answers.map Stage.answered)[who]? = some (.answered answers[who]) := by
      simp [loser.1]
    -- A loser has won no row.
    rcases (state.fits who _ found).answered rfl with ⟨none, _⟩ | ⟨place, row, winner, _⟩
    · rw [List.getElem?_eq_getElem loser.1, none]
    · exact absurd (List.mem_of_getElem? winner) loser.2

/-- Takes that have all returned have the answers that they would have one after another. -/
theorem Contended.answers_perm
    (state : Contended engine pool identity device rows crew winners (answers.map .answered))
    (decoded : (pool.contents identity device rows).map (fun row => recordOf κ pool.table row.value) =
      keys.map .ok) : answers.Perm (shares keys answers.length) := by
  have size : keys.length = (pool.contents identity device rows).length := by
    simpa using (congrArg List.length decoded).symm
  -- The answers are compared in the order in which winners and losers come.
  have shared : (answers.map some).Perm ((shares keys answers.length).map some) := by
    rw [← map_range_getElem?, shares, List.map_append, List.map_map, List.map_replicate]
    refine (state.winners_losers_perm.map (answers[·]?)).symm.trans ?_
    rw [List.map_append, state.winners_answers decoded, state.losers_answers, size]
    exact .refl _
  exact (List.map_perm_map_iff fun _ _ same => Option.some.inj same).1 shared

/-- A take that returns nothing has seen that no row is left. -/
theorem Contended.exhausted
    (state : Contended engine pool identity device rows crew winners stages) {who : Nat}
    (found : crew.tasks[who]? = some (.ended (pool.take identity device) (.ok none))) :
    pool.contents identity device (engine.rows crew.store) = [] := by
  -- The answer is read off where the take stands.
  rw [state.left, List.drop_eq_nil_iff]
  rw [state.tasks, List.getElem?_map, Option.map_eq_some_iff] at found
  obtain ⟨stage, stands, ended⟩ := found
  have answered := eq_answered_of_task ended
  rcases (state.fits who stage stands).answered answered with ⟨_, _, enough⟩ | ⟨_, row, _, _, won⟩
  · exact enough
  · cases decode : recordOf κ pool.table row.value <;> simp [decode, Except.map] at won

/-- Takes that have all returned leave the rows after the first ones, as many as there are takes. -/
theorem Contended.left_drop
    (state : Contended engine pool identity device rows crew winners (answers.map .answered)) :
    pool.contents identity device (engine.rows crew.store) =
      (pool.contents identity device rows).drop answers.length := by
  -- As many rows are gone as there are winners, and dropping more than all is dropping all.
  rw [state.left, state.length_winners]
  by_cases few : answers.length ≤ (pool.contents identity device rows).length
  · rw [Nat.min_eq_left few]
  · rw [Nat.min_eq_right (by omega), List.drop_length, List.drop_of_length_le (by omega)]

/-- Takes that have all returned have shared the rows of the pool. -/
theorem Contended.shared
    (state : Contended engine pool identity device rows crew winners (answers.map .answered))
    (decoded : (pool.contents identity device rows).map (fun row => recordOf κ pool.table row.value) =
      keys.map .ok) : Shared engine pool identity device rows keys crew answers := by
  -- There is a key for each row.
  have size : keys.length = (pool.contents identity device rows).length := by
    simpa using (congrArg List.length decoded).symm
  obtain ⟨left, inside, beyond, alone⟩ := take_times engine decoded answers.length
  -- One after another, the takes leave the same rows in the pool and outside it.
  have same := ext_contents (state.left_drop.trans inside.symm) (state.beyond.trans beyond.symm)
  have store : crew.store = engine.holding left := state.holds.trans (congrArg engine.holding same)
  exact {
    answered := state.answers_perm decoded
    removed := ⟨winners, state.distinct, by rw [state.length_winners, size], state.removed,
      fun _ _ winner => state.winner_answer decoded winner⟩
    left := state.left_drop
    beyond := by
      intro row apart
      have members : row ∈ (pool.outside identity device (engine.rows crew.store)).toList ↔
          row ∈ (pool.outside identity device rows).toList := by rw [state.beyond]
      simpa [mem_outside, apart] using members
    alone := store ▸ alone }

/-- Takes that need no more turns have all returned. -/
theorem Contended.returned
    (state : Contended engine pool identity device rows crew winners stages)
    (spent : ∀ stage ∈ stages, stage.turns (pool.contents identity device rows) = 0) :
    ∃ answers, pool.Returned identity device crew answers := by
  -- A take that needs no turn more has its answer.
  have lifted : stages ∈ Set.range (List.map (Stage.answered : _ → Stage κ)) := by
    rw [Set.range_list_map]
    exact fun stage member => Stage.answered_of_turns (spent stage member)
  obtain ⟨answers, rfl⟩ := lifted
  refine ⟨answers, state.tasks.trans ?_⟩
  rw [List.map_map, ← takeThen_done]
  rfl

end Returned

/-- Where a single key is stored, its pool holds that key alone. -/
theorem decoded_lone [LawfulRecord κ] (pool : Pool κ) (identity : Identity) (device : Device)
    (key : κ) : (pool.contents identity device
      (Rows.empty.insert (Row.of pool.table (item identity device key)))).map
        (fun row => recordOf κ pool.table row.value) = [key].map .ok := by
  -- The only row is one of the pool, and its value is the encoded key.
  have owned : pool.owns identity device (Row.of pool.table (item identity device key)) :=
    owns_iff.2 ⟨rfl, rfl, _, rfl⟩
  have holds : pool.contents identity device
      (Rows.empty.insert (Row.of pool.table (item identity device key))) =
        [Row.of pool.table (item identity device key)] := List.filter_cons_of_pos owned
  rw [holds]
  exact congrArg (fun record => [record]) (recordOf_encode pool.table key)

/--
Takes of one pool share its keys exactly, under every schedule of their calls.

A take returns nothing only when the pool is empty, and takes return when they have had enough turns.
-/
theorem takes_share (engine : Engine) (pool : Pool κ) (identity : Identity) (device : Device)
    (rows : Rows) (keys : List κ)
    (decoded : (pool.contents identity device rows).map (fun row => recordOf κ pool.table row.value) =
      keys.map .ok) (takers : Nat) (schedule : List Nat) :
    let crew := (pool.takers identity device takers (engine.holding rows)).run schedule
    (∀ who : Nat, crew.tasks[who]? = some (.ended (pool.take identity device) (.ok none)) →
      pool.contents identity device (engine.rows crew.store) = []) ∧
    (∀ answers, pool.Returned identity device crew answers →
      answers.length = takers ∧ Shared engine pool identity device rows keys crew answers) ∧
    ((∀ who < takers, 2 * keys.length + 1 ≤ schedule.count who) →
      ∃ answers, pool.Returned identity device crew answers) := by
  -- From the start on, every turn keeps what holds of takes that contend for the pool.
  intro crew
  obtain ⟨winners, ends, state, same, nearer⟩ :=
    (Contended.begun engine pool identity device rows takers).run schedule
  rw [List.length_replicate] at same
  refine ⟨fun who found => state.exhausted found, fun answers returned => ?_, fun enough => ?_⟩
  · obtain rfl := state.answered returned
    exact ⟨by simpa using same, state.shared decoded⟩
  · -- Every take has had the turns that it needed.
    refine state.returned fun stage member => ?_
    obtain ⟨who, found⟩ := List.mem_iff_getElem?.1 member
    have present : who < takers := same ▸ (List.getElem?_eq_some_iff.1 found).1
    have first : (List.replicate takers (Stage.asking none : Stage κ))[who]? =
        some (.asking none) := by simp [present]
    have bound := nearer who _ _ first found
    have size : keys.length = (pool.contents identity device rows).length := by
      simpa using (congrArg List.length decoded).symm
    have spent := enough who present
    rw [Stage.turns_begun, ← size] at bound
    omega

/-- Three takes share one key: one of them returns it and two return nothing. -/
theorem takes_share_lone :
    let identity : Identity := ⟨List.replicate 16 0, rfl⟩
    let pool : Pool EcKey := ⟨"ec"⟩
    let key : EcKey := ⟨5, [6]⟩
    let rows := Rows.empty.insert (Row.of pool.table (item identity .primary key))
    let crew := (pool.takers identity .primary 3 (Engine.memory.holding rows)).run
      [0, 1, 2, 0, 1, 2, 0, 1, 2]
    (pool.contents identity .primary rows).map (fun row => recordOf EcKey pool.table row.value) =
      [key].map .ok ∧
    ∃ answers, pool.Returned identity .primary crew answers ∧
      Shared .memory pool identity .primary rows [key] crew answers := by
  intro identity pool key rows crew
  have decoded : (pool.contents identity .primary rows).map
      (fun row => recordOf EcKey pool.table row.value) = [key].map .ok :=
    decoded_lone pool identity .primary key
  obtain ⟨_, shared, returned⟩ := takes_share .memory pool identity .primary rows [key] decoded 3
    [0, 1, 2, 0, 1, 2, 0, 1, 2]
  -- Each take has its three turns.
  obtain ⟨answers, all⟩ := returned (by decide)
  exact ⟨decoded, answers, all, (shared answers all).2⟩

end Pool

end KeyDispensary
