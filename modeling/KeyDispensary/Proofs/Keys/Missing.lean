import KeyDispensary.Proofs.Keys.Contents

/-!
A take among tasks that may do anything to its pool, such as replacing it. Main statement:
`Pool.gives_up_iff`, by which the contents that the pool goes through decide whether the take may find
nothing.
-/

namespace KeyDispensary.Pool

variable {κ : Type}

/--
Whether a take that goes on after a place may find nothing in a pool that has the given contents
one after another.

The take only looks forward: what a replacement puts before its place is never seen.
-/
inductive Missed : Option Bytes → List (List Row) → Prop where
  /-- The take waits. -/
  | wait {after : Option Bytes} {now : List Row} {later : List (List Row)}
    (missed : Missed after later) : Missed after (now :: later)
  /-- No key comes after the place. -/
  | bare {after : Option Bytes} {now : List Row} {later : List (List Row)}
    (behind : ∀ row ∈ now, Memory.isPast after row.key.sort = false) : Missed after (now :: later)
  /-- A single key comes after the place, and it goes before it is claimed. -/
  | last {after : Option Bytes} {now : List Row} {later : List (List Row)} {row : Row}
    {instant : List Row} {remaining : List (List Row)}
    (single : (now.filter fun row => Memory.isPast after row.key.sort) = [row])
    (reached : instant :: remaining <:+ now :: later)
    (gone : ∀ other ∈ instant, other.key ≠ row.key) : Missed after (now :: later)
  /-- The first of several keys goes before it is claimed, and the take goes on after it. -/
  | skip {after : Option Bytes} {now : List Row} {later : List (List Row)} {row next : Row}
    {rest : List Row} {instant : List Row} {remaining : List (List Row)}
    (first : (now.filter fun row => Memory.isPast after row.key.sort) = row :: next :: rest)
    (reached : instant :: remaining <:+ now :: later)
    (gone : ∀ other ∈ instant, other.key ≠ row.key)
    (missed : Missed (some row.key.sort) (instant :: remaining)) : Missed after (now :: later)

/-- Whether a take that stands somewhere may find nothing. -/
def Stage.Misses : Stage κ → List (List Row) → Prop
  | .asking after, pools => Missed after pools
  | .claiming candidate last, pools => ∃ instant remaining, instant :: remaining <:+ pools ∧
      (∀ other ∈ instant, other.item.key ≠ candidate.key) ∧
      ∀ place ∈ last, Missed (some place) (instant :: remaining)
  | .answered answer, _ => answer = .ok none

/-- A take that may find nothing may also wait first. -/
theorem Stage.Misses.wait {stage : Stage κ} {now : List Row} {later : List (List Row)}
    (misses : stage.Misses later) : stage.Misses (now :: later) := by
  -- An instant that comes first does not matter, since the take may wait.
  cases stage with
  | asking after => exact Missed.wait misses
  | claiming candidate last =>
    obtain ⟨instant, remaining, reached, gone⟩ := misses
    exact ⟨instant, remaining, reached.trans (List.suffix_cons now later), gone⟩
  | answered answer => exact misses

/-- The contents of a pool before each turn of a schedule and at its end. -/
def history {engine : Engine} (pool : Pool κ) (identity : Identity) (device : Device)
    (crew : Crew engine.State) (schedule : List Nat) : List (List Row) :=
  (crew.stores schedule).map fun store => pool.contents identity device (engine.rows store)

section Turns

variable [Record κ] {β : Type} {engine : Engine} {pool : Pool κ} {identity : Identity}
  {device : Device} {next : Except KeyError (Option κ) → Program β} {crew shadow : Crew engine.State}
  {who : Nat}

/-- A turn that leaves the store as it was is not noticed by the others. -/
theorem shadows_of_set (same : Crew.Shadows who crew shadow) {task : Task}
    {log : List (Event engine.State)} {store : engine.State} (unchanged : store = crew.store) :
    Crew.Shadows who ⟨store, crew.tasks.set who task, log⟩ shadow :=
  ⟨unchanged.trans same.store, fun other apart =>
    (List.getElem?_set_ne apart.symm).trans (same.tasks other apart)⟩

/-- A turn of a take that asks is not noticed by the others, and it sees the keys after its place. -/
theorem turn_asking (holds : crew.store = engine.holding (engine.rows crew.store))
    (same : Crew.Shadows who crew shadow) {after : Option Bytes}
    (found : crew.tasks[who]? = some ((Stage.asking after).task pool identity device next)) :
    Crew.Shadows who (crew.step who) shadow ∧ (crew.step who).tasks[who]? =
      some ((Stage.seen ((pool.contents identity device (engine.rows crew.store)).filter
        fun row => Memory.isPast after row.key.sort)).task pool identity device next) := by
  -- A query leaves the rows as they are, and shows those of the pool that come later.
  have present := (List.getElem?_eq_some_iff.1 found).1
  rw [step_asking holds found, found_asked]
  exact ⟨shadows_of_set same holds.symm, List.getElem?_set_self present⟩

/-- A turn of a take that loses its candidate is not noticed by the others. -/
theorem turn_losing (holds : crew.store = engine.holding (engine.rows crew.store))
    (same : Crew.Shadows who crew shadow) {candidate : Item} {last : Option Bytes}
    (found : crew.tasks[who]? =
      some ((Stage.claiming candidate last).task pool identity device next))
    (gone : (engine.rows crew.store).get? (RowKey.of pool.table candidate.key) = none) :
    Crew.Shadows who (crew.step who) shadow ∧ (crew.step who).tasks[who]? =
      some ((Stage.claimed pool last none : Stage κ).task pool identity device next) := by
  have present := (List.getElem?_eq_some_iff.1 found).1
  -- Nothing is removed, so the rows are the same.
  rw [step_claiming holds found, Rows.erase_of_absent gone, gone]
  exact ⟨shadows_of_set same holds.symm, List.getElem?_set_self present⟩

omit [Record κ] in
/-- The history of a pool begins with its contents. -/
theorem history_head (pool : Pool κ) (identity : Identity) (device : Device)
    (crew : Crew engine.State) (schedule : List Nat) : ∃ later,
    pool.history identity device crew schedule =
      pool.contents identity device (engine.rows crew.store) :: later := by
  obtain ⟨later, stores⟩ := crew.stores_head schedule
  exact ⟨_, congrArg (List.map _) stores⟩

omit [Record κ] in
/-- A take that asks may find nothing if what it sees lets it. -/
theorem missed_of_seen {after : Option Bytes} {now : List Row} {later : List (List Row)}
    (misses : (Stage.seen (now.filter fun row => Memory.isPast after row.key.sort) :
      Stage κ).Misses (now :: later)) : Missed after (now :: later) := by
  -- What the take sees is nothing, one row or several.
  cases shown : now.filter fun row => Memory.isPast after row.key.sort with
  | nil =>
    refine .bare fun row member => ?_
    simpa using List.filter_eq_nil_iff.1 shown row member
  | cons row rest =>
    rw [shown] at misses
    obtain ⟨instant, remaining, reached, gone, further⟩ := misses
    have apart : ∀ other ∈ instant, other.key ≠ row.key := fun other member same =>
      gone other member (by rw [Row.item, Row.item, same])
    cases rest with
    | nil => exact .last shown reached apart
    | cons next rest => exact .skip shown reached apart (further _ rfl)

/-- Whether a take has given up: it has found nothing, and what follows that answer is left. -/
def GaveUp (pool : Pool κ) (identity : Identity) (device : Device)
    (next : Except KeyError (Option κ) → Program β) (crew : Crew engine.State) (who : Nat) : Prop :=
  crew.tasks[who]? = some ((Stage.answered (.ok none)).task pool identity device next)

/-- Whether what follows a take tells an empty pool from other answers, which end it. -/
structure Tells (pool : Pool κ) (identity : Identity) (device : Device)
    (next : Except KeyError (Option κ) → Program β) : Prop where
  ends : ∀ answer, answer ≠ .ok none → ∃ result, next answer = .done result
  apart : ∀ stage : Stage κ, stage.task pool identity device next =
    (Stage.answered (.ok none)).task pool identity device next → stage = .answered (.ok none)

/-- A take that has an answer has ended, if what follows the answer makes no call. -/
theorem answered_eq_ended {answer : Except KeyError (Option κ)} {result : β}
    (ends : next answer = .done result) :
    (Stage.answered answer).task pool identity device next =
      .ended (pool.takeThen identity device next) result := by
  rw [Stage.task, Stage.left, ends]
  rfl

/-- A take that has another answer never gives up. -/
theorem not_gaveUp_of_answered (tells : Tells pool identity device next)
    {answer : Except KeyError (Option κ)} (other : answer ≠ .ok none)
    (found : crew.tasks[who]? = some ((Stage.answered answer).task pool identity device next))
    (schedule : List Nat) : ¬ pool.GaveUp identity device next (crew.run schedule) who := by
  intro gaveUp
  obtain ⟨result, ends⟩ := tells.ends answer other
  -- The take has ended, and it stays as it is.
  have stays := Crew.run_ended (found.trans (congrArg some (answered_eq_ended ends))) schedule
  rw [← answered_eq_ended ends, gaveUp] at stays
  exact other (Stage.answered.inj (tells.apart _ (Option.some.inj stays.symm)))

/-- A turn of a take that gives up later is not noticed, and it leaves a chance to find nothing. -/
theorem own_turn (tells : Tells pool identity device next)
    (holds : crew.store = engine.holding (engine.rows crew.store))
    (same : Crew.Shadows who crew shadow) {stage : Stage κ}
    (found : crew.tasks[who]? = some (stage.task pool identity device next))
    (busy : ∀ answer, stage ≠ .answered answer) {rest : List Nat}
    (gaveUp : pool.GaveUp identity device next ((crew.step who).run rest) who) :
    ∃ after : Stage κ, Crew.Shadows who (crew.step who) shadow ∧
      (crew.step who).tasks[who]? = some (after.task pool identity device next) ∧
      ∀ later, after.Misses (pool.contents identity device (engine.rows crew.store) :: later) →
        stage.Misses (pool.contents identity device (engine.rows crew.store) :: later) := by
  cases stage with
  | asking after =>
    -- A query changes nothing that others could notice.
    obtain ⟨shadows, seen⟩ := turn_asking holds same found
    exact ⟨_, shadows, seen, fun later misses => missed_of_seen misses⟩
  | claiming candidate last =>
    cases held : (engine.rows crew.store).get? (RowKey.of pool.table candidate.key) with
    | none =>
      obtain ⟨shadows, claimed⟩ := turn_losing holds same found held
      refine ⟨_, shadows, claimed, fun later misses => ?_⟩
      refine ⟨_, later, List.suffix_rfl, fun other member key => ?_, fun place goes => ?_⟩
      · -- A row of the pool under the key would have been found.
        obtain ⟨listed, owned⟩ := mem_contents.1 member
        have value := Rows.get?_of_mem listed
        rw [← rowKey_of_owned owned, key, held] at value
        cases value
      · obtain rfl : last = some place := goes
        exact misses
    | some value =>
      -- A take that wins its candidate has an answer of its own.
      have wins : (crew.step who).tasks[who]? = some ((Stage.answered
          ((recordOf κ pool.table value).map some)).task pool identity device next) := by
        rw [step_claiming holds found, held]
        exact List.getElem?_set_self (List.getElem?_eq_some_iff.1 found).1
      have other : (recordOf κ pool.table value).map some ≠ .ok none := by
        cases recordOf κ pool.table value <;> simp [Except.map]
      exact absurd gaveUp (not_gaveUp_of_answered tells other wins rest)
  | answered answer => exact absurd rfl (busy answer)

/-- A take that gives up has met contents that let it find nothing. -/
theorem misses_of_gaveUp (tells : Tells pool identity device next)
    (holds : crew.store = engine.holding (engine.rows crew.store))
    (same : Crew.Shadows who crew shadow) {stage : Stage κ}
    (found : crew.tasks[who]? = some (stage.task pool identity device next)) {schedule : List Nat}
    (gaveUp : pool.GaveUp identity device next (crew.run schedule) who) :
    stage.Misses (pool.history identity device shadow (Crew.besides who schedule)) := by
  -- The take's own turns change nothing as long as it wins no key.
  induction schedule generalizing crew shadow stage with
  | nil =>
    obtain rfl := tells.apart stage (Option.some.inj (found.symm.trans gaveUp))
    rfl
  | cons turn rest ih =>
    have later := Crew.step_holding holds turn
    by_cases own : turn = who
    · subst own
      by_cases done : ∃ answer, stage = .answered answer
      · -- A take with another answer would not give up any more.
        obtain ⟨answer, rfl⟩ := done
        exact Classical.byContradiction fun other =>
          not_gaveUp_of_answered tells other found (turn :: rest) gaveUp
      · obtain ⟨after, shadows, task, misses⟩ := own_turn tells holds same found
          (fun answer answered => done ⟨answer, answered⟩) gaveUp
        have further := ih later shadows task gaveUp
        obtain ⟨past, history⟩ := history_head pool identity device shadow (Crew.besides turn rest)
        rw [← same.store] at history
        rw [history] at further
        rw [Crew.besides_own, history]
        exact misses past further
    · rw [Crew.besides_other own]
      have task := (Crew.step_other crew own).trans found
      exact (ih later (same.step own) task gaveUp).wait

/-- A take that gives up has the same stores before it as the others would have without it. -/
theorem mem_stores_of_gaveUp (tells : Tells pool identity device next)
    (rests : ∃ result, next (.ok none) = .done result)
    (holds : crew.store = engine.holding (engine.rows crew.store))
    (same : Crew.Shadows who crew shadow) {stage : Stage κ}
    (found : crew.tasks[who]? = some (stage.task pool identity device next)) {schedule : List Nat}
    (gaveUp : pool.GaveUp identity device next (crew.run schedule) who) {store : engine.State} :
    store ∈ crew.stores schedule ↔ store ∈ shadow.stores (Crew.besides who schedule) := by
  -- The schedule is followed turn by turn, as it is for the contents.
  induction schedule generalizing crew shadow stage with
  | nil => rw [Crew.stores, same.store]; rfl
  | cons turn rest ih =>
    have later := Crew.step_holding holds turn
    -- A turn of the take adds no store that the others do not have.
    by_cases own : turn = who
    · subst own
      obtain ⟨past, first⟩ := shadow.stores_head (Crew.besides turn rest)
      have present : crew.store ∈ shadow.stores (Crew.besides turn rest) := by
        rw [first, same.store]
        exact .head _
      have others : store ∈ (crew.step turn).stores rest ↔
          store ∈ shadow.stores (Crew.besides turn rest) := by
        by_cases done : ∃ answer, stage = .answered answer
        · -- A take that has its answer makes no further call.
          obtain ⟨answer, rfl⟩ := done
          obtain ⟨result, ends⟩ : ∃ result, next answer = .done result := by
            by_cases none : answer = .ok none
            · exact none ▸ rests
            · exact tells.ends answer none
          have idle := Crew.step_ended (found.trans (congrArg some (answered_eq_ended ends)))
          rw [Crew.run, List.foldl_cons, idle] at gaveUp
          rw [idle]
          exact ih holds same found gaveUp
        · obtain ⟨after, shadows, task, _⟩ := own_turn tells holds same found
            (fun answer answered => done ⟨answer, answered⟩) gaveUp
          exact ih later shadows task gaveUp
      rw [Crew.stores, Crew.besides_own, List.mem_cons, others]
      exact ⟨fun either => either.elim (fun head => head ▸ present) id, .inr⟩
    · have task := (Crew.step_other crew own).trans found
      rw [Crew.besides_other own, Crew.stores, Crew.stores, List.mem_cons, List.mem_cons, same.store,
        ih later (same.step own) task gaveUp]

omit [Record κ] in
/-- Nothing is missed where there is no instant left. -/
theorem not_missed_nil (after : Option Bytes) : ¬ Missed after [] := by
  intro missed
  cases missed

omit [Record κ] in
/-- A part of a history that reaches its end is the history of the turns that remain. -/
theorem exists_history_of_suffix {others : List Nat} {instant : List Row}
    {remaining : List (List Row)}
    (reached : instant :: remaining <:+ pool.history identity device shadow others) :
    ∃ first second, others = first ++ second ∧
      pool.history identity device (shadow.run first) second = instant :: remaining := by
  -- The contents belong to stores that the crew has one after another.
  obtain ⟨before, split⟩ := reached
  obtain ⟨early, late, stores, _, contents⟩ := List.map_eq_append_iff.1 split.symm
  obtain ⟨store, more, rfl, _, _⟩ := List.map_eq_cons_iff.1 contents
  obtain ⟨first, second, turns, same⟩ := Crew.exists_run_of_suffix (show store :: more <:+ _ from
    ⟨early, stores.symm⟩)
  exact ⟨first, second, turns, (congrArg (List.map _) same).trans contents⟩

/-- A take that sees the first key after its place may wait for an instant when that key is gone. -/
theorem exists_run_of_gone (holds : crew.store = engine.holding (engine.rows crew.store))
    (same : Crew.Shadows who crew shadow) {others : List Nat} (never : who ∉ others)
    {row : Row} {last : Option Bytes} (owned : pool.owns identity device row)
    (found : crew.tasks[who]? = some ((Stage.claiming row.item last).task pool identity device next))
    {instant : List Row} {remaining : List (List Row)}
    (reached : instant :: remaining <:+ pool.history identity device shadow others)
    (gone : ∀ other ∈ instant, other.key ≠ row.key) : ∃ first second, others = first ++ second ∧
      Crew.Shadows who ((crew.run first).step who) (shadow.run first) ∧
      pool.history identity device (shadow.run first) second = instant :: remaining ∧
      ((crew.run first).step who).tasks[who]? =
        some ((Stage.claimed pool last none : Stage κ).task pool identity device next) := by
  obtain ⟨first, second, rfl, history⟩ := exists_history_of_suffix reached
  -- The others go on to that instant, and the take claims the key in vain.
  have away : who ∉ first := fun member => never (List.mem_append_left _ member)
  have shadows := same.run away
  have task := (Crew.run_other away).trans found
  have held := Crew.run_holding holds first
  obtain ⟨past, head⟩ := history_head pool identity device (shadow.run first) second
  rw [history, ← shadows.store] at head
  obtain ⟨now, _⟩ := List.cons.inj head
  -- The instant is now, so the key is not found.
  have absent : (engine.rows (crew.run first).store).get? (RowKey.of pool.table row.item.key) = none := by
    rw [rowKey_of_owned owned, get?_eq_none_iff owned, ← now]
    exact gone
  obtain ⟨after, claimed⟩ := turn_losing held shadows task absent
  exact ⟨first, second, rfl, after, history, claimed⟩

/-- A take that asks sees the keys after its place that the history begins with. -/
theorem turn_seeing {after : Option Bytes} {now : List Row} {later : List (List Row)}
    {others : List Nat} (history : pool.history identity device shadow others = now :: later)
    (holds : crew.store = engine.holding (engine.rows crew.store))
    (same : Crew.Shadows who crew shadow)
    (found : crew.tasks[who]? = some ((Stage.asking after).task pool identity device next)) :
    Crew.Shadows who (crew.step who) shadow ∧
      (crew.step who).tasks[who]? = some ((Stage.seen (now.filter
        fun row => Memory.isPast after row.key.sort)).task pool identity device next) ∧
      ∀ row ∈ now.filter fun row => Memory.isPast after row.key.sort,
        pool.owns identity device row := by
  obtain ⟨shadows, seen⟩ := turn_asking holds same found
  obtain ⟨past, head⟩ := history_head pool identity device shadow others
  -- The crew has the store with which the history of its shadow begins.
  rw [history, ← same.store] at head
  obtain ⟨rfl, _⟩ := List.cons.inj head
  exact ⟨shadows, seen, fun row member => (mem_contents.1 (List.mem_filter.1 member).1).2⟩

/-- A take may give up where the contents that others bring about let it find nothing. -/
theorem exists_gaveUp_of_missed {after : Option Bytes} {pools : List (List Row)}
    (missed : Missed after pools) {crew shadow : Crew engine.State} {others : List Nat}
    (history : pool.history identity device shadow others = pools)
    (holds : crew.store = engine.holding (engine.rows crew.store))
    (same : Crew.Shadows who crew shadow) (never : who ∉ others)
    (found : crew.tasks[who]? = some ((Stage.asking after).task pool identity device next)) :
    ∃ schedule, Crew.besides who schedule = others ∧
      pool.GaveUp identity device next (crew.run schedule) who := by
  -- Each case says when the take has its next turns.
  induction missed generalizing crew shadow others with
  | wait missed ih =>
    cases others with
    | nil =>
      obtain ⟨_, rfl⟩ := List.cons.inj history
      exact absurd missed (not_missed_nil _)
    | cons turn rest =>
      have apart : turn ≠ who := fun here => never (here ▸ List.mem_cons_self)
      obtain ⟨_, later⟩ := List.cons.inj history
      obtain ⟨schedule, turns, gaveUp⟩ := ih later (Crew.step_holding holds turn) (same.step apart)
        (fun member => never (.tail _ member)) ((Crew.step_other crew apart).trans found)
      exact ⟨turn :: schedule, by rw [Crew.besides_other apart, turns], gaveUp⟩
  -- The take asks at once and finds nothing.
  | bare behind =>
    obtain ⟨shadows, seen, _⟩ := turn_seeing history holds same found
    rw [List.filter_eq_nil_iff.2 fun row member => by simp [behind row member]] at seen
    exact ⟨who :: others, by rw [Crew.besides_own, Crew.besides_eq_self never],
      (Crew.run_other never).trans seen⟩
  | last single reached gone =>
    obtain ⟨shadows, seen, owned⟩ := turn_seeing history holds same found
    rw [single] at seen owned
    obtain ⟨first, second, rfl, _, _, claimed⟩ := exists_run_of_gone (Crew.step_holding holds who)
      shadows never (owned _ (.head _)) seen (history ▸ reached) gone
    -- It has given up then, and the others have their remaining turns.
    have away : who ∉ second := fun member => never (List.mem_append_right _ member)
    refine ⟨who :: (first ++ who :: second), ?_, ?_⟩
    · rw [Crew.besides_own, Crew.besides_append, Crew.besides_own, ← Crew.besides_append,
        Crew.besides_eq_self never]
    · have turns : crew.run (who :: (first ++ who :: second)) =
          (((crew.step who).run first).step who).run second := Crew.run_append _ first _
      rw [GaveUp, turns]
      exact (Crew.run_other away).trans claimed
  | skip shown reached gone missed ih =>
    obtain ⟨shadows, seen, owned⟩ := turn_seeing history holds same found
    rw [shown] at seen owned
    have later := Crew.step_holding holds who
    obtain ⟨first, second, rfl, shadows', remains, claimed⟩ := exists_run_of_gone later
      shadows never (owned _ (.head _)) seen (history ▸ reached) gone
    -- The take asks again, after the key that it lost.
    have held := Crew.run_holding later first
    obtain ⟨schedule, turns, gaveUp⟩ := ih remains (Crew.step_holding held who) shadows'
      (fun member => never (List.mem_append_right _ member)) claimed
    have away : who ∉ first := fun member => never (List.mem_append_left _ member)
    refine ⟨who :: (first ++ who :: schedule), ?_, ?_⟩
    · rw [Crew.besides_own, Crew.besides_append, Crew.besides_own, turns,
        Crew.besides_eq_self away]
    · have all : crew.run (who :: (first ++ who :: schedule)) =
          (((crew.step who).run first).step who).run schedule := Crew.run_append _ first _
      rw [all]
      exact gaveUp

/-- A take that is about to begin may give up exactly if the contents that others bring about let it. -/
theorem gives_up_iff (tells : Tells pool identity device next)
    (holds : crew.store = engine.holding (engine.rows crew.store))
    (found : crew.tasks[who]? = some (.begun (pool.takeThen identity device next)))
    {others : List Nat} (never : who ∉ others) :
    (∃ schedule, Crew.besides who schedule = others ∧
      pool.GaveUp identity device next (crew.run schedule) who) ↔
        Missed none (pool.history identity device crew others) := by
  -- Before the first turn the take has changed nothing.
  have same : Crew.Shadows who crew crew := ⟨rfl, fun _ _ => rfl⟩
  constructor
  · rintro ⟨schedule, rfl, gaveUp⟩
    exact misses_of_gaveUp tells holds same (found.trans (congrArg some
      (begun_takeThen pool identity device next))) gaveUp
  · intro missed
    exact exists_gaveUp_of_missed missed rfl holds same never found

/-- A take may give up with keys there at all times exactly if the others never empty the pool besides. -/
theorem gives_up_full_iff (tells : Tells pool identity device next)
    (rests : ∃ result, next (.ok none) = .done result)
    (holds : crew.store = engine.holding (engine.rows crew.store))
    (found : crew.tasks[who]? = some (.begun (pool.takeThen identity device next)))
    {others : List Nat} (never : who ∉ others) :
    (∃ schedule, Crew.besides who schedule = others ∧
      pool.GaveUp identity device next (crew.run schedule) who ∧
      ∀ store ∈ crew.stores schedule, pool.contents identity device (engine.rows store) ≠ []) ↔
        Missed none (pool.history identity device crew others) ∧
          ∀ now ∈ pool.history identity device crew others, now ≠ [] := by
  have asks := found.trans (congrArg some (begun_takeThen pool identity device next))
  -- The others alone bring about the same stores as they do with the take between them.
  have alike {schedule : List Nat}
      (gaveUp : pool.GaveUp identity device next (crew.run schedule) who) :
      (∀ store ∈ crew.stores schedule, pool.contents identity device (engine.rows store) ≠ []) ↔
        ∀ now ∈ pool.history identity device crew (Crew.besides who schedule), now ≠ [] := by
    rw [history, List.forall_mem_map]
    refine forall_congr' fun store => ?_
    rw [mem_stores_of_gaveUp tells rests holds (.refl who crew) asks gaveUp]
  constructor
  · rintro ⟨schedule, rfl, gaveUp, full⟩
    have missed := (gives_up_iff tells holds found never).1 ⟨schedule, rfl, gaveUp⟩
    exact ⟨missed, (alike gaveUp).1 full⟩
  · -- Any schedule with which it gives up will do.
    rintro ⟨missed, full⟩
    obtain ⟨schedule, rfl, gaveUp⟩ := (gives_up_iff tells holds found never).2 missed
    exact ⟨schedule, rfl, gaveUp, (alike gaveUp).2 full⟩

end Turns

end KeyDispensary.Pool
