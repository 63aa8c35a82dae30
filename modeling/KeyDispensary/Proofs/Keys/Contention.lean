import KeyDispensary.Proofs.Keys.Contents
import Mathlib.Data.List.Nodup

/-!
Takes that contend for the keys of one pool. Nobody else writes, so the keys go out in ascending order,
each to the take whose turn it is to claim it. Main statement: `Pool.Contended.run`, what every schedule
of takes keeps and how far it brings each of them.
-/

namespace KeyDispensary

/-- Another entry is paired with the element at its place. -/
theorem zip_concat {first : List Nat} {second : List Row} {who : Nat} {row : Row}
    (found : second[first.length]? = some row) :
    (first ++ [who]).zip second = first.zip second ++ [(who, row)] := by
  -- The shorter list is walked to its end.
  induction first generalizing second with
  | nil =>
    cases second with
    | nil => cases found
    | cons head tail =>
      obtain rfl : head = row := by simpa using found
      rfl
  | cons first rest ih =>
    cases second with
    | nil => cases found
    | cons head tail => simpa using ih (by simpa using found)

namespace Pool

variable {σ κ : Type} [Record κ]

/-- Several takes of one pool, none of which has made a call. -/
def takers (pool : Pool κ) (identity : Identity) (device : Device) (count : Nat) (store : σ) :
    Crew σ :=
  .begun store (List.replicate count (.begun (pool.take identity device)))

/-- A bound on the turns that a take still needs while nobody adds to the listed rows. -/
def Stage.turns (listed : List Row) : Stage κ → Nat
  | .asking after => 2 * (listed.filter fun row => Memory.isPast after row.key.sort).length + 1
  | .claiming _ none => 1
  | .claiming _ (some place) =>
    2 * (listed.filter fun row => Memory.isPast (some place) row.key.sort).length + 2
  | .answered _ => 0

/-- Where a turn brings a take that meets the given rows. -/
def Stage.turned (engine : Engine) (pool : Pool κ) (identity : Identity) (device : Device)
    (rows : Rows) : Stage κ → Stage κ
  | .asking after => .seen (engine.found rows (pool.asked identity device after))
  | .claiming candidate last => .claimed pool last (rows.get? (RowKey.of pool.table candidate.key))
  | .answered answer => .answered answer

/-- Where a take may stand once the first of the listed rows have gone to the winners in turn. -/
inductive Stage.Fits (pool : Pool κ) (listed : List Row) (winners : List Nat) (who : Nat) :
    Stage κ → Prop where
  /-- It asks from a place that no row left comes before. -/
  | asking {after : Option Bytes} (loser : who ∉ winners)
    (past : ∀ row ∈ listed.drop winners.length, Memory.isPast after row.key.sort) :
    Fits pool listed winners who (.asking after)
  /-- It has seen the rows that were left at some time. -/
  | seen {place : Nat} (loser : who ∉ winners) (early : place ≤ winners.length) :
    Fits pool listed winners who (.seen (listed.drop place))
  /-- It has won a row. -/
  | won {place : Nat} {row : Row} (winner : winners[place]? = some who)
    (prize : listed[place]? = some row) :
    Fits pool listed winners who (.answered ((recordOf κ pool.table row.value).map some))

/-- The state that takes of one pool have come to when the winners have each removed a row. -/
structure Contended (engine : Engine) (pool : Pool κ) (identity : Identity) (device : Device)
    (rows : Rows) (crew : Crew engine.State) (winners : List Nat) (stages : List (Stage κ)) :
    Prop where
  holds : crew.store = engine.holding (engine.rows crew.store)
  left : pool.contents identity device (engine.rows crew.store) =
    (pool.contents identity device rows).drop winners.length
  beyond : pool.outside identity device (engine.rows crew.store) =
    pool.outside identity device rows
  bounded : winners.length ≤ (pool.contents identity device rows).length
  distinct : winners.Nodup
  present : ∀ who ∈ winners, who < stages.length
  removed : removals crew.log = winners.zip (pool.contents identity device rows)
  tasks : crew.tasks = stages.map (Stage.task pool identity device .done)
  fits : ∀ (who : Nat) (stage : Stage κ), stages[who]? = some stage →
    stage.Fits pool (pool.contents identity device rows) winners who

section Invariant

variable {engine : Engine} {pool : Pool κ} {identity : Identity} {device : Device} {rows : Rows}
  {crew : Crew engine.State} {winners : List Nat} {stages : List (Stage κ)}

/-- Where a take stands is still right when another take has won. -/
theorem Stage.Fits.mono {listed : List Row} {stage : Stage κ} {who other : Nat}
    (fits : stage.Fits pool listed winners who) (apart : who ≠ other) :
    stage.Fits pool listed (winners ++ [other]) who := by
  have loses (loser : who ∉ winners) : who ∉ winners ++ [other] := by
    simp [loser, apart]
  -- Fewer rows are left, and what was won stays won.
  cases fits with
  | asking loser past =>
    -- The rows that are left now were left before.
    refine .asking (loses loser) fun row member => past row ?_
    rw [List.length_append, ← List.drop_drop] at member
    exact List.mem_of_mem_drop member
  | seen loser early =>
    exact .seen (loses loser) (by rw [List.length_append]; omega)
  | won winner prize =>
    obtain ⟨inside, _⟩ := List.getElem?_eq_some_iff.1 winner
    exact .won ((List.getElem?_append_left inside).trans winner) prize

/-- Takes that have made no call contend for all rows. -/
theorem Contended.begun (engine : Engine) (pool : Pool κ) (identity : Identity) (device : Device)
    (rows : Rows) (count : Nat) :
    Contended engine pool identity device rows
      (pool.takers identity device count (engine.holding rows)) []
      (List.replicate count (.asking none)) where
  holds := by
    -- Nobody has won, and all rows are there.
    change engine.holding rows = engine.holding (engine.rows (engine.holding rows))
    rw [Engine.rows_holding]
  left := by
    change pool.contents identity device (engine.rows (engine.holding rows)) = _
    rw [Engine.rows_holding]
    rfl
  beyond := by
    change pool.outside identity device (engine.rows (engine.holding rows)) = _
    rw [Engine.rows_holding]
  bounded := Nat.zero_le _
  distinct := .nil
  present := by simp
  removed := rfl
  tasks := by
    rw [List.map_replicate, ← begun_takeThen, takeThen_done]
    rfl
  fits who stage found := by
    obtain rfl := List.eq_of_mem_replicate (List.mem_of_getElem? found)
    exact .asking List.not_mem_nil fun _ _ => rfl

/-- Each row of an ascending list comes before all that are left when it has been dropped. -/
theorem sort_lt_of_drop {listed : List Row}
    (ascending : listed.Pairwise fun a b => a.key.sort < b.key.sort) {place count : Nat} {row : Row}
    (found : listed[place]? = some row) (early : place < count) :
    ∀ other ∈ listed.drop count, row.key.sort < other.key.sort := by
  -- Whatever is left stands at a later place.
  intro other member
  obtain ⟨further, located⟩ := List.mem_iff_getElem?.1 member
  rw [List.getElem?_drop] at located
  obtain ⟨inside, rfl⟩ := List.getElem?_eq_some_iff.1 found
  obtain ⟨inside', rfl⟩ := List.getElem?_eq_some_iff.1 located
  exact List.pairwise_iff_getElem.1 ascending place (count + further) inside inside' (by omega)

omit [Record κ] in
/-- A take that has not made a call needs two turns for each row and one turn more. -/
theorem Stage.turns_begun (listed : List Row) :
    (Stage.asking none : Stage κ).turns listed = 2 * listed.length + 1 := by
  -- Nothing is behind a take that has seen no row.
  rw [Stage.turns, List.filter_eq_self.2 (by simp [Memory.isPast])]

omit [Record κ] in
/-- A take that needs no more turns has its answer. -/
theorem Stage.answered_of_turns {listed : List Row} {stage : Stage κ}
    (spent : stage.turns listed = 0) : ∃ answer, Stage.answered answer = stage := by
  -- Asking and claiming need a turn at least.
  cases stage with
  | asking after => simp [Stage.turns] at spent
  | claiming candidate last => cases last <;> simp [Stage.turns] at spent
  | answered answer => exact ⟨answer, rfl⟩

omit [Record κ] in
/-- Whatever a take sees, it comes nearer to its answer. -/
theorem Stage.turns_seen {listed : List Row} {after : Option Bytes} {shown : List Row}
    (past : ∀ row ∈ shown, row ∈ listed ∧ Memory.isPast after row.key.sort) :
    (Stage.seen shown : Stage κ).turns listed ≤ (Stage.asking after : Stage κ).turns listed - 1 := by
  cases shown with
  | nil => exact Nat.zero_le _
  | cons row rest =>
    -- The candidate comes after the start of the query, and what comes after the candidate does too.
    obtain ⟨member, late⟩ := past row (.head _)
    have inside : row ∈ listed.filter fun row => Memory.isPast after row.key.sort :=
      List.mem_filter.2 ⟨member, late⟩
    have further := Engine.filter_past_of_past late listed
    -- The candidate itself is not after its own sort key.
    have fewer : (listed.filter fun other =>
        Memory.isPast (some row.key.sort) other.key.sort).length <
          (listed.filter fun row => Memory.isPast after row.key.sort).length := by
      rw [further]
      refine List.length_filter_lt_length_iff_exists.2 ⟨row, inside, ?_⟩
      simp [Memory.isPast, List.lt_irrefl]
    cases rest with
    | nil =>
      change 1 ≤ 2 * _ + 1 - 1
      omega
    | cons next rest =>
      change 2 * _ + 2 ≤ 2 * _ + 1 - 1
      omega

/-- The task of a take is where the take stands. -/
theorem Contended.task (state : Contended engine pool identity device rows crew winners stages)
    {who : Nat} {stage : Stage κ} (found : stages[who]? = some stage) :
    crew.tasks[who]? = some (stage.task pool identity device .done) := by
  rw [state.tasks, List.getElem?_map, found]
  rfl

omit [Record κ] in
/-- What holds of a take where it comes to stand, and of all others, holds of all. -/
theorem Stage.forall_set {holds : Nat → Stage κ → Prop} {who : Nat} {stage : Stage κ}
    (own : holds who stage)
    (others : ∀ (other : Nat) (stage : Stage κ), stages[other]? = some stage → other ≠ who →
      holds other stage) :
    ∀ (other : Nat) (next : Stage κ), (stages.set who stage)[other]? = some next →
      holds other next := by
  -- Only one place of the list is changed.
  intro other next found
  by_cases same : who = other
  · subst same
    rw [List.getElem?_set_self (by simpa using (List.getElem?_eq_some_iff.1 found).1)] at found
    exact Option.some.inj found ▸ own
  · exact others other next ((List.getElem?_set_ne same).symm.trans found) (Ne.symm same)

/-- A turn that removes nothing leaves the takes contending, wherever it brings the take itself. -/
theorem Contended.keep (state : Contended engine pool identity device rows crew winners stages)
    {who : Nat} {stage : Stage κ} {log : List (Event engine.State)}
    (quiet : removals log = removals crew.log)
    (fits : stage.Fits pool (pool.contents identity device rows) winners who) :
    Contended engine pool identity device rows
      ⟨crew.store, crew.tasks.set who (stage.task pool identity device .done), log⟩ winners
      (stages.set who stage) where
  holds := state.holds
  left := state.left
  beyond := state.beyond
  bounded := state.bounded
  distinct := state.distinct
  present other member := by
    rw [List.length_set]
    exact state.present other member
  removed := quiet.trans state.removed
  tasks := by rw [state.tasks, List.map_set]
  fits :=
    -- The other takes stand where they stood.
    Stage.forall_set fits fun other stage found _ => state.fits other stage found

/-- A turn of a take that asks for a key. -/
theorem Contended.ask (state : Contended engine pool identity device rows crew winners stages)
    {who : Nat} {after : Option Bytes} (found : stages[who]? = some (.asking after))
    (loser : who ∉ winners) (past : ∀ row ∈
      (pool.contents identity device rows).drop winners.length, Memory.isPast after row.key.sort) :
    let next := (Stage.asking after).turned engine pool identity device (engine.rows crew.store)
    Contended engine pool identity device rows (crew.step who) winners (stages.set who next) ∧
      next.turns (pool.contents identity device rows) ≤
        (Stage.asking after : Stage κ).turns (pool.contents identity device rows) - 1 := by
  -- The query shows all that is left, since everything left comes after its start.
  have shown : engine.found (engine.rows crew.store) (pool.asked identity device after) =
      (pool.contents identity device rows).drop winners.length := by
    rw [found_asked, state.left]
    exact List.filter_eq_self.2 past
  -- The query changes nothing, and the take stands at what it has seen.
  rw [Stage.turned, Pool.step_asking state.holds (state.task found), shown, ← state.holds]
  exact ⟨state.keep (by simp [removals, Event.removal?]) (.seen loser (Nat.le_refl _)),
    Stage.turns_seen fun row member => ⟨List.mem_of_mem_drop member, past row member⟩⟩

/-- A turn of a take that claims the first row left. -/
theorem Contended.win (state : Contended engine pool identity device rows crew winners stages)
    {who : Nat} {row : Row} {rest : List Row} {last : Option Bytes}
    (found : stages[who]? = some (.claiming row.item last)) (loser : who ∉ winners)
    (next : (pool.contents identity device rows).drop winners.length = row :: rest) :
    let next := (Stage.claiming row.item last).turned engine pool identity device
      (engine.rows crew.store)
    Contended engine pool identity device rows (crew.step who) (winners ++ [who])
        (stages.set who next) ∧ next.turns (pool.contents identity device rows) = 0 := by
  -- The row is found under its key and no other row goes with it.
  have head : pool.contents identity device (engine.rows crew.store) = row :: rest :=
    state.left.trans next
  obtain ⟨listed, owned⟩ := mem_head head
  -- The first row that is left is the next that nobody has won.
  have prize : (pool.contents identity device rows)[winners.length]? = some row := by
    rw [← List.head?_drop, next]
    rfl
  have inside : winners.length < (pool.contents identity device rows).length :=
    (List.getElem?_eq_some_iff.1 prize).1
  -- Once it is won, the rest is left.
  have others : (pool.contents identity device rows).drop (winners.length + 1) = rest := by
    rw [← List.drop_drop, next]
    rfl
  rw [Stage.turned, Pool.step_claiming state.holds (state.task found), rowKey_of_owned owned,
    Rows.get?_of_mem listed]
  refine ⟨?_, rfl⟩
  exact {
    holds := by
      change engine.holding _ = engine.holding (engine.rows (engine.holding _))
      rw [Engine.rows_holding]
    left := by
      change pool.contents identity device (engine.rows (engine.holding _)) = _
      rw [Engine.rows_holding, contents_erase_head head, List.length_append]
      exact others.symm
    beyond := by
      change pool.outside identity device (engine.rows (engine.holding _)) = _
      rw [Engine.rows_holding, outside_erase owned, state.beyond]
    bounded := by
      rw [List.length_append]
      exact inside
    distinct := by
      rw [List.nodup_append]
      refine ⟨state.distinct, List.nodup_singleton who, ?_⟩
      rintro first member second member' rfl
      exact loser (List.mem_singleton.1 member' ▸ member)
    present := by
      intro other member
      rw [List.length_set]
      rcases List.mem_append.1 member with earlier | now
      · exact state.present other earlier
      · exact List.mem_singleton.1 now ▸ (List.getElem?_eq_some_iff.1 found).1
    removed := by
      rw [removals_cons, state.removed, zip_concat prize, Event.removal?, rowKey_of_owned owned]
      rfl
    tasks := by rw [state.tasks, List.map_set]
    -- The others stand where they stood, with one more winner.
    fits := Stage.forall_set (.won List.getElem?_concat_length prize)
      fun other stage stands apart => (state.fits other stage stands).mono apart }

/-- A turn of a take that claims a row which another has won. -/
theorem Contended.lose (state : Contended engine pool identity device rows crew winners stages)
    {who place : Nat} {row : Row} {rest : List Row}
    (found : stages[who]? = some (.seen (row :: rest)))
    (loser : who ∉ winners) (early : place < winners.length)
    (seen : (pool.contents identity device rows).drop place = row :: rest) :
    let next := (Stage.seen (row :: rest)).turned engine pool identity device
      (engine.rows crew.store)
    Contended engine pool identity device rows (crew.step who) winners (stages.set who next) ∧
      next.turns (pool.contents identity device rows) ≤
        (Stage.seen (row :: rest) : Stage κ).turns (pool.contents identity device rows) - 1 := by
  have task : crew.tasks[who]? = some ((Stage.claiming row.item
      (if rest.isEmpty then none else some row.key.sort)).task pool identity device .done) :=
    state.task found
  -- The candidate was the next row when the take saw it.
  have located : (pool.contents identity device rows)[place]? = some row := by
    rw [← List.head?_drop, seen]
    rfl
  have member : row ∈ pool.contents identity device rows := List.mem_of_getElem? located
  have owned := (mem_contents.1 member).2
  -- All rows that are left come after the candidate, so nothing is found under its key.
  have later := sort_lt_of_drop (contents_ascending pool identity device rows) located early
  have gone : (engine.rows crew.store).get? row.key = none := by
    refine (get?_eq_none_iff owned).2 fun other inside same => ?_
    rw [state.left] at inside
    exact absurd (same ▸ later other inside) (List.lt_irrefl _)
  rw [Stage.seen, Stage.turned, Pool.step_claiming state.holds task, rowKey_of_owned owned, gone,
    Rows.erase_of_absent gone, ← state.holds]
  refine ⟨state.keep (by simp [removals, Event.removal?]) ?_, ?_⟩
  rotate_left
  · cases rest <;> simp [Stage.claimed, Stage.turns]
  -- It goes on after the candidate, or has seen that nothing is left.
  cases rest with
  | nil =>
    -- The candidate was the last row, and it is won.
    have none_left : (pool.contents identity device rows).drop winners.length = [] := by
      rw [List.drop_eq_nil_iff]
      have count := congrArg List.length seen
      rw [List.length_drop, List.length_singleton] at count
      omega
    have nothing : (Stage.seen ((pool.contents identity device rows).drop winners.length)).Fits pool
        (pool.contents identity device rows) winners who := .seen loser (Nat.le_refl _)
    rw [none_left] at nothing
    exact nothing
  | cons next rest => exact .asking loser fun other member => decide_eq_true (later other member)

/-- Every turn leaves takes contending and brings a take that has not returned nearer to its answer. -/
theorem Contended.step (state : Contended engine pool identity device rows crew winners stages)
    {who : Nat} {stage : Stage κ} (found : stages[who]? = some stage) :
    let next := stage.turned engine pool identity device (engine.rows crew.store)
    (∃ winners, Contended engine pool identity device rows (crew.step who) winners
      (stages.set who next)) ∧ next.turns (pool.contents identity device rows) ≤
        stage.turns (pool.contents identity device rows) - 1 := by
  -- A take that has its answer does nothing.
  have stays {answer : Except KeyError (Option κ)} (answered : stage = .answered answer) :
      Contended engine pool identity device rows (crew.step who) winners (stages.set who stage) := by
    have same : stages.set who stage = stages := by
      obtain ⟨inside, rfl⟩ := List.getElem?_eq_some_iff.1 found
      exact List.set_getElem_self inside
    rw [same, Crew.step_ended (answered ▸ state.task found)]
    exact state
  cases state.fits who stage found with
  | asking loser past =>
    obtain ⟨kept, turns⟩ := state.ask found loser past
    exact ⟨⟨_, kept⟩, turns⟩
  | @seen place loser early =>
    cases seen : (pool.contents identity device rows).drop place with
    | nil =>
      rw [seen] at stays
      exact ⟨⟨_, stays rfl⟩, Nat.zero_le _⟩
    | cons row rest =>
      rw [seen] at found
      -- The candidate is still there exactly if nobody has won since the take saw it.
      by_cases now : place = winners.length
      · obtain ⟨won, turns⟩ := state.win found loser (now ▸ seen)
        exact ⟨⟨_, won⟩, Nat.le_trans (Nat.le_of_eq turns) (Nat.zero_le _)⟩
      · obtain ⟨kept, turns⟩ := state.lose found loser (by omega) seen
        exact ⟨⟨_, kept⟩, turns⟩
  | won winner prize => exact ⟨⟨_, stays rfl⟩, Nat.zero_le _⟩

/-- A schedule leaves takes contending, and a take that has had enough turns has its answer. -/
theorem Contended.run (state : Contended engine pool identity device rows crew winners stages)
    (schedule : List Nat) : ∃ winners ends,
      Contended engine pool identity device rows (crew.run schedule) winners ends ∧
      ends.length = stages.length ∧
      ∀ (who : Nat) (stage next : Stage κ), stages[who]? = some stage → ends[who]? = some next →
        next.turns (pool.contents identity device rows) ≤
          stage.turns (pool.contents identity device rows) - schedule.count who := by
  -- The induction over turns is the same for all tasks that come nearer to their ends.
  obtain ⟨ends, ⟨winners, state⟩, same, bound⟩ := Crew.run_nearer
    (fun crew stages => ∃ winners, Contended engine pool identity device rows crew winners stages)
    (Stage.turns (pool.contents identity device rows))
    (fun _ _ _ _ ⟨_, state⟩ found => ⟨_, state.step found⟩)
    (fun crew stages who ⟨winners, state⟩ absent => by
      -- There are no tasks but the takes.
      have nobody : crew.tasks[who]? = none := by
        rw [state.tasks, List.getElem?_map, absent]
        rfl
      rw [Crew.step_nobody nobody]
      exact ⟨winners, state⟩)
    ⟨winners, state⟩ schedule
  exact ⟨winners, ends, state, same, bound⟩

/-- A take that has its answer has won a row, or all rows went to others. -/
theorem Stage.Fits.answered {listed : List Row} {who : Nat} {stage : Stage κ}
    {answer : Except KeyError (Option κ)} (fits : stage.Fits pool listed winners who)
    (stands : stage = .answered answer) :
    (answer = .ok none ∧ who ∉ winners ∧ listed.length ≤ winners.length) ∨
      ∃ (place : Nat) (row : Row), winners[place]? = some who ∧ listed[place]? = some row ∧
        answer = (recordOf κ pool.table row.value).map some := by
  -- Where the take stands tells whether it has won.
  cases fits with
  | asking => cases stands
  | @seen place loser early =>
    -- Only a take that has seen nothing has an answer.
    cases shown : listed.drop place with
    | nil =>
      rw [shown] at stands
      cases stands
      have few := List.drop_eq_nil_iff.1 shown
      exact .inl ⟨rfl, loser, by omega⟩
    | cons row rest =>
      rw [shown] at stands
      cases stands
  | won winner prize =>
    cases stands
    exact .inr ⟨_, _, winner, prize, rfl⟩

end Invariant

end Pool

end KeyDispensary
