import KeyDispensary.Proofs.Keys.Errands

/-!
The account of the rows of each pool, after any calls of callers who take keys, store keys and delete
pools in any order. Main statement: `Pool.each_row_once`.
-/

namespace KeyDispensary.Pool

variable {κ : Type}

/-- The stamps of rows in the pool of a device. -/
def part (pool : Pool κ) (identity : Identity) (device : Device) (stamps : List Stamp) : List Stamp :=
  stamps.filter fun stamp => pool.owns identity device stamp.row

/-- The rows in the pool of a device, each with the stamp of who wrote it. -/
def remaining {engine : Engine} (pool : Pool κ) (identity : Identity) (device : Device)
    (crew : Crew engine.State) : List Stamp :=
  stamped crew.log (pool.contents identity device (engine.rows crew.store))

variable [Record κ]

/-- An account of what callers have done with the rows of the pools of a table. -/
structure Accounted (engine : Engine) (pool : Pool κ) (errands : List (Errand κ))
    (crew : Crew engine.State) : Prop where
  /-- A take has removed one row and returned its key, or has removed and returned nothing. -/
  returned : ∀ (who : Nat) (identity : Identity) (device : Device)
    (answer : Except KeyError (Option κ)), errands[who]? = some (.take identity device) →
    crew.tasks[who]? = some (.ended (pool.take identity device) answer) →
      (answer = .ok none ∧ ∀ event ∈ crew.log, event.who = who → event.removal? = none) ∨
      ∃ key later event earlier row, answer = .ok (some key) ∧
        crew.log = later ++ event :: earlier ∧
        Won pool errands identity device who key later event earlier row
  /-- Whoever has removed a row is a take that has returned the key stored in it. -/
  removed : ∀ event ∈ crew.log, ∀ (who : Nat) (row : Row), event.removal? = some (who, row) →
    ∃ identity device key writer, errands[who]? = some (.take identity device) ∧
      crew.tasks[who]? = some (.ended (pool.take identity device) (.ok (some key))) ∧
      Stored pool errands identity device writer row key
  /-- A store that has returned has written one row for each id of its keys. -/
  uploaded : ∀ (who : Nat) (identity : Identity) (device : Device) (keys : List κ)
    (answer : Except KeyError Unit), errands[who]? = some (.alter (.store identity device keys)) →
    crew.tasks[who]? = some (.ended (.once (pool.store identity device keys)) answer) →
      ∀ row, ⟨some who, row⟩ ∈ written crew.log ↔ ∃ key,
        keyFor? keys (Record.keyId key) = some key ∧
          row = Row.of pool.table (item identity device key)
  /-- Nobody else writes rows. -/
  stored : ∀ stamp ∈ written crew.log, ∃ identity device key writer, stamp.writer = some writer ∧
    Stored pool errands identity device writer stamp.row key
  /-- What was written to a pool was dispensed or dropped, or is still there. -/
  conserved : ∀ (identity : Identity) (device : Device),
    (pool.part identity device (written crew.log)).Perm
      (pool.part identity device (dispensed crew.log) ++
        pool.part identity device (dropped crew.log) ++ pool.remaining identity device crew)
  /-- No row was dispensed twice, nor dispensed and dropped, and what is still there was neither. -/
  apart : ∀ (identity : Identity) (device : Device),
    (pool.part identity device (dispensed crew.log) ++
      pool.part identity device (dropped crew.log) ++ pool.remaining identity device crew).Nodup

variable {engine : Engine} {pool : Pool κ} {errands : List (Errand κ)} {crew : Crew engine.State}

omit [Record κ] in
/-- The rows in a pool are those rows of its table that it owns. -/
theorem part_stamped (pool : Pool κ) (identity : Identity) (device : Device)
    (log : List (Event engine.State)) (rows : Rows) :
    pool.part identity device (stamped log (rows.listed pool.table)) =
      stamped log (pool.contents identity device rows) := by
  have owned : (rows.listed pool.table).filter (pool.owns identity device) =
      pool.contents identity device rows := by
    -- What the pool owns is in its table.
    rw [Rows.listed, List.filter_filter]
    refine List.filter_congr fun row _ => ?_
    cases owned : pool.owns identity device row with
    | false => rfl
    | true => simp [(owns_iff.1 owned).1]
  -- The stamps do not matter for where a row lies.
  rw [part, stamped, List.filter_map, ← owned]
  rfl

/-- The rows of a pool balance as those of its table do. -/
theorem Kept.conserved (kept : Kept engine pool errands crew) (identity : Identity)
    (device : Device) : (pool.part identity device (written crew.log)).Perm
      (pool.part identity device (dispensed crew.log) ++
        pool.part identity device (dropped crew.log) ++ pool.remaining identity device crew) := by
  -- What is balanced for the whole table is balanced for the rows that the pool owns.
  have balanced := kept.balanced.filter fun stamp => pool.owns identity device stamp.row
  rw [List.filter_append, List.filter_append] at balanced
  rw [remaining, ← part_stamped]
  exact balanced

/-- A take that has its answer has removed nothing or has won the key that it returned. -/
theorem Kept.returned (kept : Kept engine pool errands crew) {who : Nat} {identity : Identity}
    {device : Device} {answer : Except KeyError (Option κ)}
    (found : errands[who]? = some (.take identity device))
    (ended : crew.tasks[who]? = some (.ended (pool.take identity device) answer)) :
    (answer = .ok none ∧ ∀ event ∈ crew.log, event.who = who → event.removal? = none) ∨
      ∃ key later event earlier row, answer = .ok (some key) ∧
        crew.log = later ++ event :: earlier ∧
        Won pool errands identity device who key later event earlier row := by
  -- Of the places where a take can stand, two have an answer.
  obtain ⟨task, present, stands⟩ := kept.stands who _ found
  have same := Option.some.inj (present.symm.trans ended)
  cases stands with
  | asking => cases eq_answered_of_task same
  | claiming => cases eq_answered_of_task same
  -- A take that found nothing has removed nothing.
  | missed quiet =>
    cases eq_answered_of_task same
    exact .inl ⟨rfl, quiet⟩
  | won split won =>
    cases eq_answered_of_task same
    exact .inr ⟨_, _, _, _, _, rfl, split, won⟩

/-- Whoever has removed a row has returned the key that was stored in it. -/
theorem Kept.removed (kept : Kept engine pool errands crew) {event : Event engine.State}
    (member : event ∈ crew.log) {who : Nat} {row : Row} (removed : event.removal? = some (who, row)) :
    ∃ identity device key writer, errands[who]? = some (.take identity device) ∧
      crew.tasks[who]? = some (.ended (pool.take identity device) (.ok (some key))) ∧
      Stored pool errands identity device writer row key := by
  have own := Event.who_of_removal? removed
  -- Only a take that has won a key has removed anything.
  have loud (quiet : ∀ event ∈ crew.log, event.who = who → event.removal? = none) : False := by
    have nothing := quiet event member own
    rw [removed] at nothing
    cases nothing
  cases found : errands[who]? with
  | none => exact absurd own ((kept.nobody who found).2 event member)
  | some errand =>
    obtain ⟨task, present, stands⟩ := kept.stands who errand found
    cases stands with
    | asking quiet => exact (loud quiet).elim
    | claiming _ quiet => exact (loud quiet).elim
    | missed quiet => exact (loud quiet).elim
    -- A store that waits has made no call at all.
    | waiting silent => exact absurd own (silent event member)
    | made quiet => exact (loud quiet).elim
    -- The winning call is the only one of the take that removed anything.
    | won split won =>
      obtain ⟨writer, _, stored⟩ := won.wrote
      refine ⟨_, _, _, writer, rfl, by rw [present, answered_task, takeThen_done], ?_⟩
      rw [split] at member
      rcases List.mem_append.1 member with later | member
      · exact absurd own (won.last event later)
      · rcases List.mem_cons.1 member with rfl | earlier
        · have same := won.removed.symm.trans removed
          simp only [Option.some.injEq, Prod.mk.injEq, true_and] at same
          exact same ▸ stored
        · have nothing := won.only event earlier own
          rw [removed] at nothing
          cases nothing

/-- A store that has returned has made its call, which put the rows of the keys that stay. -/
theorem Kept.uploaded (kept : Kept engine pool errands crew) {who : Nat} {identity : Identity}
    {device : Device} {keys : List κ} {answer : Except KeyError Unit}
    (found : errands[who]? = some (.alter (.store identity device keys)))
    (ended : crew.tasks[who]? = some (.ended (.once (pool.store identity device keys)) answer))
    (row : Row) : ⟨some who, row⟩ ∈ written crew.log ↔ ∃ key,
      keyFor? keys (Record.keyId key) = some key ∧
        row = Row.of pool.table (item identity device key) := by
  constructor
  · intro member
    -- The stamp names the caller, so the row is of that caller's keys.
    obtain ⟨event, made, writer, put⟩ := mem_written.1 member
    obtain ⟨_, _, key, stored⟩ := kept.stored event made row put
    obtain ⟨keys', found', last, same⟩ := stored
    obtain rfl := Option.some.inj writer
    cases found.symm.trans found'
    exact ⟨key, last, same⟩
  · intro wrote
    -- The store has returned, so its call is in the log.
    obtain ⟨task, present, stands⟩ := kept.stands who _ found
    cases stands with
    | waiting => cases present.symm.trans ended
    | made _ made =>
      obtain ⟨event, member, rfl, call⟩ := made
      exact mem_written.2 ⟨event, member, rfl, call ▸ mem_puts_store.2 wrote⟩

/--
Callers who take keys, store keys and delete pools of a table that was empty at first, in any order of
their calls, account for every row: each take that returns a key has removed the row in which a store
had put it, and a row that was written is dispensed once, or dropped once, or still there.
-/
theorem each_row_once [LawfulRecord κ] (engine : Engine) (pool : Pool κ) (rows : Rows)
    (empty : ∀ row ∈ rows.toList, row.key.table ≠ pool.table) (errands : List (Errand κ))
    (schedule : List Nat) :
    Accounted engine pool errands ((callers engine pool rows errands).run schedule) := by
  -- All parts are read off what every turn keeps.
  have kept : Kept engine pool errands ((callers engine pool rows errands).run schedule) :=
    Crew.run_induction (Kept engine pool errands) (Kept.start engine errands empty)
      (fun _ who kept => kept.step who) schedule
  exact {
    returned := fun _ _ _ _ found ended => kept.returned found ended
    removed := fun _ member _ _ removed => kept.removed member removed
    uploaded := fun _ _ _ _ _ found ended row => kept.uploaded found ended row
    stored := by
      intro stamp member
      obtain ⟨event, made, writer, put⟩ := mem_written.1 member
      obtain ⟨identity, device, key, stored⟩ := kept.stored event made stamp.row put
      exact ⟨identity, device, key, event.who, writer, stored⟩
    conserved := kept.conserved
    apart := fun identity device => (kept.conserved identity device).nodup_iff.1 (kept.once.filter _) }

/-- The account holds where a take claims a row that was replaced since the take saw it. -/
theorem each_row_once_replaced :
    let identity : Identity := ⟨List.replicate 16 0, rfl⟩
    let pool : Pool EcKey := ⟨"ec"⟩
    let errands : List (Errand EcKey) := [.alter (.store identity .primary [⟨5, [6]⟩]),
      .take identity .primary, .alter (.store identity .primary [⟨5, [7]⟩, ⟨9, [8]⟩])]
    (∀ row ∈ Rows.empty.toList, row.key.table ≠ pool.table) ∧
    Accounted .memory pool errands
      ((callers .memory pool Rows.empty errands).run [0, 1, 2, 1]) := by
  intro identity pool errands
  have empty : ∀ row ∈ Rows.empty.toList, row.key.table ≠ pool.table :=
    fun _ member => absurd member List.not_mem_nil
  exact ⟨empty, each_row_once .memory pool Rows.empty empty errands [0, 1, 2, 1]⟩

end KeyDispensary.Pool
