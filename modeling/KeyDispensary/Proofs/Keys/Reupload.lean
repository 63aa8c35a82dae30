import KeyDispensary.Proofs.Keys.Missing
import KeyDispensary.Proofs.Keys.Uploads

/-!
A take beside stores that replace its pool. Main statements: `Pool.not_missed_of_kept`, by which a key
that stays is not missed, and `Pool.replacing_exact`, which says by the ids of two uploads when a take
may find nothing between them.
-/

namespace KeyDispensary

namespace Pool

variable {κ : Type}

/-- A key that stays in a pool ahead of a take is not missed. -/
theorem not_missed_of_kept {after : Option Bytes} {pools : List (List Row)} {key : RowKey}
    (ascending : ∀ now ∈ pools, now.Pairwise fun a b => a.key.sort < b.key.sort)
    (kept : ∀ now ∈ pools, ∃ row ∈ now, row.key = key) (ahead : Memory.isPast after key.sort) :
    ¬ Missed after pools := by
  intro missed
  -- Whatever the take claims comes no later than that key, so the key is still ahead when it is lost.
  induction missed with
  | wait missed ih =>
    exact ih (fun now member => ascending now (.tail _ member))
      (fun now member => kept now (.tail _ member)) ahead
  | bare behind =>
    obtain ⟨row, member, rfl⟩ := kept _ (.head _)
    simp [behind row member] at ahead
  | @last after now later row instant remaining single reached gone =>
    -- The only row that the take sees is this key, which does not go away.
    obtain ⟨candidate, member, rfl⟩ := kept _ (.head _)
    have shown : candidate ∈ now.filter fun row => Memory.isPast after row.key.sort :=
      List.mem_filter.2 ⟨member, ahead⟩
    rw [single, List.mem_singleton] at shown
    obtain ⟨other, member', same⟩ := kept _ (reached.subset (.head _))
    exact gone other member' (shown ▸ same)
  | @skip after now later row next rest instant remaining first reached gone missed ih =>
    -- The first row that it sees is this key, or the key comes later.
    obtain ⟨candidate, member, rfl⟩ := kept _ (.head _)
    have shown : candidate ∈ now.filter fun row => Memory.isPast after row.key.sort :=
      List.mem_filter.2 ⟨member, ahead⟩
    have order := (ascending now (.head _)).filter fun row => Memory.isPast after row.key.sort
    rw [first] at shown order
    rcases List.mem_cons.1 shown with head | tail
    · obtain ⟨other, member', same⟩ := kept _ (reached.subset (.head _))
      exact gone other member' (head ▸ same)
    · have further := (List.pairwise_cons.1 order).1 candidate tail
      exact ih (fun now member => ascending now (reached.subset member))
        (fun now member => kept now (reached.subset member)) (by simpa [Memory.isPast] using further)

/-- Whether a pool with the contents of an upload comes to have those of another, once for all. -/
def Replaces (old new : List Row) (pools : List (List Row)) : Prop :=
  ∀ instant remaining, instant :: remaining <:+ pools →
    instant = old ∨ ∀ other ∈ instant :: remaining, other = new

/-- A take does not miss both uploads if the later one has a key ahead of the first key of several. -/
theorem not_missed_of_replaced {old new : List Row} {first second later : Row} {rest : List Row}
    (ascending : new.Pairwise fun a b => a.key.sort < b.key.sort)
    (several : old = first :: second :: rest) (member : later ∈ new)
    (ahead : first.key.sort < later.key.sort) {pools : List (List Row)}
    (replaces : Replaces old new pools) (some_left : pools ≠ []) : ¬ Missed none pools := by
  -- Once the later upload is there, its key stays ahead of the take.
  have settled {after : Option Bytes} {instants : List (List Row)}
      (all : ∀ now ∈ instants, now = new) (past : Memory.isPast after later.key.sort) :
      ¬ Missed after instants :=
    not_missed_of_kept (fun now inside => all now inside ▸ ascending)
      (fun now inside => ⟨later, all now inside ▸ member, rfl⟩) past
  induction pools with
  | nil => exact absurd rfl some_left
  | cons now pools ih =>
    rcases replaces now pools List.suffix_rfl with rfl | all
    · intro missed
      have whole : (now.filter fun row => Memory.isPast none row.key.sort) = now :=
        List.filter_eq_self.2 fun _ _ => rfl
      cases missed with
      | wait missed =>
        by_cases none_left : pools = []
        · exact not_missed_nil _ (none_left ▸ missed)
        · exact ih (fun instant remaining reached =>
            replaces instant remaining (reached.trans (List.suffix_cons _ _))) none_left missed
      | bare behind =>
        -- The first key of the earlier upload is still ahead of the take.
        have past := behind first (several ▸ List.mem_cons_self)
        cases past
      | last single =>
        rw [whole, several] at single
        cases single
      | skip shown reached gone missed =>
        rw [whole, several] at shown
        -- The take claims the first key, which is lost only when the later upload is there.
        obtain rfl : first = _ := (List.cons.inj shown).1
        rcases replaces _ _ reached with rfl | all
        · exact gone first (several ▸ List.mem_cons_self) rfl
        · exact settled all (by simpa [Memory.isPast] using ahead) missed
    · exact settled all rfl

/-- A take may miss two uploads if the later one lacks the first key and brings none that it sees. -/
theorem missed_of_replaced {old new : List Row} {first : Row} {rest : List Row}
    (shown : old = first :: rest) (gone : ∀ other ∈ new, other.key ≠ first.key)
    (behind : rest = [] ∨ ∀ other ∈ new, ¬ first.key.sort < other.key.sort) :
    Missed none [old, new] := by
  have whole : (old.filter fun row => Memory.isPast none row.key.sort) = old :=
    List.filter_eq_self.2 fun _ _ => rfl
  -- The later upload is the next instant.
  have reached : [new] <:+ [old, new] := List.suffix_cons old [new]
  cases rest with
  | nil => exact .last (whole.trans shown) reached gone
  | cons next rest =>
    -- The take goes on after the first key, where nothing comes.
    have nothing : Missed (some first.key.sort) [new] := by
      refine .bare fun row member => ?_
      simpa [Memory.isPast] using behind.resolve_left (List.cons_ne_nil _ _) row member
    exact .skip (whole.trans shown) reached gone nothing

/-! ### One take and one replacement -/

section Replacing

variable [Record κ] {engine : Engine} {pool : Pool κ} {identity : Identity} {device : Device}
  {rows : Rows} {old new : List κ}

/-- A take by itself tells an empty pool from every other answer. -/
theorem tells_done (pool : Pool κ) (identity : Identity) (device : Device) :
    pool.Tells identity device .done where
  ends answer _ := ⟨answer, rfl⟩
  apart stage same := by
    refine eq_answered_of_task (same.trans ?_)
    rw [← takeThen_done]
    rfl

/-- A take and a store that replaces the pool, which holds the keys of an earlier store. -/
def replacing (engine : Engine) (pool : Pool κ) (identity : Identity) (device : Device)
    (rows : Rows) (old new : List κ) : Crew engine.State :=
  .begun (engine.holding (pool.uploaded identity device old rows))
    [.begun (pool.take identity device), .begun (.once (pool.store identity device new))]

/-- At first the pool holds the earlier upload. -/
theorem rows_replacing (engine : Engine) (pool : Pool κ) (identity : Identity) (device : Device)
    (rows : Rows) (old new : List κ) :
    engine.rows (replacing engine pool identity device rows old new).store =
      pool.uploaded identity device old rows :=
  engine.rows_holding _

/-- The store replaces the pool in a single turn. -/
theorem step_store {crew : Crew engine.State} {who : Nat} (holds : crew.store = engine.holding rows)
    (found : crew.tasks[who]? = some (.begun (.once (pool.store identity device new)))) :
    (crew.step who).store = engine.holding (pool.uploaded identity device new rows) ∧
      (crew.step who).tasks[who]? =
        some (.ended (.once (pool.store identity device new)) (.ok ())) := by
  -- The store makes one call and has ended.
  have present := (List.getElem?_eq_some_iff.1 found).1
  rw [Crew.step_once found, holds, Engine.perform_holding]
  refine ⟨?_, (List.getElem?_set_self present).trans rfl⟩
  simp only [Engine.answer, clear_eq_outside]
  rfl

/-- Storing keys in a pool twice is storing the later ones. -/
theorem uploaded_uploaded (pool : Pool κ) (identity : Identity) (device : Device)
    (old new : List κ) (rows : Rows) :
    pool.uploaded identity device new (pool.uploaded identity device old rows) =
      pool.uploaded identity device new rows := by
  rw [uploaded, outside_uploaded, uploaded]

/-- When the store has had its turn, it has ended and the pool holds the later upload. -/
theorem stored_replacing (engine : Engine) (pool : Pool κ) (identity : Identity) (device : Device)
    (rows : Rows) (old new : List κ) :
    ((replacing engine pool identity device rows old new).step 1).store =
        engine.holding (pool.uploaded identity device new rows) ∧
      ((replacing engine pool identity device rows old new).step 1).tasks[1]? =
        some (.ended (.once (pool.store identity device new)) (.ok ())) := by
  -- What the first upload has left in the pool is replaced by the second.
  have found : (replacing engine pool identity device rows old new).tasks[1]? =
      some (.begun (.once (pool.store identity device new))) := rfl
  obtain ⟨holds, ended⟩ := step_store rfl found
  exact ⟨holds.trans (congrArg _ (uploaded_uploaded pool identity device old new rows)), ended⟩

omit [Record κ] in
/-- A pool that nobody changes has the same contents at all times. -/
theorem history_of_idle {crew : Crew engine.State} (holds : crew.store = engine.holding rows)
    {others : List Nat} (idle : ∀ who ∈ others, crew.step who = crew) :
    ∀ now ∈ pool.history identity device crew others, now = pool.contents identity device rows := by
  have first : pool.contents identity device (engine.rows crew.store) =
      pool.contents identity device rows := by rw [holds, Engine.rows_holding]
  induction others with
  | nil => exact fun now member => (List.mem_singleton.1 member).trans first
  | cons who rest ih =>
    -- Nothing has changed before the turns that follow.
    intro now member
    rw [history, Crew.stores, idle who List.mem_cons_self] at member
    rcases List.mem_cons.1 member with head | later
    · exact head.trans first
    · exact ih (fun other inside => idle other (.tail _ inside)) now later

/-- Beside the take, the pool goes from the one upload to the other in a single step. -/
theorem replaces_history (engine : Engine) (pool : Pool κ) (identity : Identity) (device : Device)
    (rows : Rows) (old new : List κ) {others : List Nat} (never : 0 ∉ others) :
    Replaces (pool.contents identity device (pool.uploaded identity device old rows))
      (pool.contents identity device (pool.uploaded identity device new rows))
      (pool.history identity device (replacing engine pool identity device rows old new) others) := by
  have first : pool.contents identity device (engine.rows
      (replacing engine pool identity device rows old new).store) =
        pool.contents identity device (pool.uploaded identity device old rows) := by
    rw [rows_replacing]
  -- The first turn of the store is the one that counts.
  induction others with
  | nil =>
    intro instant remaining reached
    rcases List.suffix_cons_iff.1 reached with all | none
    · exact .inl ((List.cons.inj all).1.trans first)
    · cases List.suffix_nil.1 none
  | cons who rest ih =>
    have beside : 0 ∉ rest := fun member => never (.tail _ member)
    have apart : who ≠ 0 := fun here => never (here ▸ List.mem_cons_self)
    intro instant remaining reached
    rcases List.suffix_cons_iff.1 reached with all | later
    · exact .inl ((List.cons.inj all).1.trans first)
    · -- The second of the two is the store, and whoever else has a turn is nobody.
      by_cases stores : who = 1
      · subst stores
        obtain ⟨holds, ended⟩ := stored_replacing engine pool identity device rows old new
        refine .inr fun other member => history_of_idle holds (fun turn inside => ?_) other
          (later.subset member)
        -- Afterwards the store has ended, and there is nobody else.
        by_cases again : turn = 1
        · subst again
          exact Crew.step_ended ended
        · have taker : turn ≠ 0 := fun here => beside (here ▸ inside)
          refine Crew.step_nobody (List.getElem?_eq_none ?_)
          rw [Crew.length_tasks_step]
          change 2 ≤ turn
          omega
      · have nobody : (replacing engine pool identity device rows old new).step who =
            replacing engine pool identity device rows old new := by
          refine Crew.step_nobody (List.getElem?_eq_none ?_)
          change 2 ≤ who
          omega
        rw [nobody] at later
        exact ih beside instant remaining later

/-- The pool holds the earlier upload, and after the turn of the store the later one. -/
theorem history_replacing (engine : Engine) (pool : Pool κ) (identity : Identity) (device : Device)
    (rows : Rows) (old new : List κ) :
    pool.history identity device (replacing engine pool identity device rows old new) [1] =
      [pool.contents identity device (pool.uploaded identity device old rows),
        pool.contents identity device (pool.uploaded identity device new rows)] := by
  obtain ⟨holds, _⟩ := stored_replacing engine pool identity device rows old new
  simp only [history, Crew.stores, List.map_cons, List.map_nil, rows_replacing, holds,
    Engine.rows_holding]

/--
Whether a take may overlook the later of two uploads after having seen the earlier one.

The later upload lacks the smallest id of the earlier one, and it comes too late for a take that has
seen that id as the only one, or has none but smaller ids.
-/
def Overlooks (old new : List κ) : Prop :=
  ∃ first ∈ old, (∀ key ∈ old, Record.keyId first ≤ Record.keyId key) ∧
    (∀ key ∈ new, Record.keyId key ≠ Record.keyId first) ∧
    ((∀ key ∈ old, Record.keyId key = Record.keyId first) ∨
      ∀ key ∈ new, Record.keyId key < Record.keyId first)

/-- A pool in which a single key was stored, perhaps several times, has one row. -/
theorem uploaded_single {first : Row} {rest : List Row} {key : κ}
    (shown : pool.contents identity device (pool.uploaded identity device old rows) = first :: rest)
    (head : first = Row.of pool.table (item identity device key))
    (single : ∀ other ∈ old, Record.keyId other = Record.keyId key) : rest = [] := by
  cases rest with
  | nil => rfl
  | cons second rest =>
    -- A second row would have the same key and yet come later.
    have member : second ∈ pool.contents identity device (pool.uploaded identity device old rows) := by
      rw [shown]
      exact .tail _ (.head _)
    obtain ⟨other, search, rfl⟩ := mem_contents_uploaded.1 member
    have inside := List.mem_reverse.1 (List.mem_of_find?_eq_some search)
    have ascending := contents_ascending pool identity device (pool.uploaded identity device old rows)
    rw [shown, head] at ascending
    have less := (List.pairwise_cons.1 ascending).1 _ List.mem_cons_self
    rw [sort_of_item_lt_iff, single other inside] at less
    exact absurd less (UInt64.lt_irrefl _)

/-- A pool that keys were stored in is empty exactly if there were none. -/
theorem contents_uploaded_eq_nil :
    pool.contents identity device (pool.uploaded identity device old rows) = [] ↔ old = [] := by
  constructor
  · intro empty
    rw [List.eq_nil_iff_forall_not_mem]
    intro key member
    -- Each key that was stored has left a row.
    obtain ⟨row, listed, _⟩ := (exists_mem_contents_uploaded (Record.keyId key)).2 ⟨key, member, rfl⟩
    rw [empty] at listed
    cases listed
  · -- Where nothing was stored, no row can be one of a key.
    rintro rfl
    rw [List.eq_nil_iff_forall_not_mem]
    intro row member
    obtain ⟨key, search, _⟩ := mem_contents_uploaded.1 member
    cases search

omit [Record κ] in
/-- Where one upload replaces another, the pool has the contents of the one or of the other. -/
theorem Replaces.mem {before after : List Row} {pools : List (List Row)}
    (replaces : Replaces before after pools) {now : List Row} (member : now ∈ pools) :
    now = before ∨ now = after := by
  obtain ⟨earlier, later, rfl⟩ := List.append_of_mem member
  exact (replaces now later (List.suffix_append _ _)).imp_right fun all => all now (.head _)

/-- A take that finds nothing beside one replacement of its pool has overlooked the later upload. -/
theorem overlooks_of_missed {others : List Nat} (never : 0 ∉ others)
    (missed : Missed none (pool.history identity device
      (replacing engine pool identity device rows old new) others)) :
    old = [] ∨ Overlooks old new := by
  have replaces := replaces_history engine pool identity device rows old new never
  have ascending (keys : List κ) :=
    contents_ascending pool identity device (pool.uploaded identity device keys rows)
  -- The contents at every instant are those of one of the uploads.
  have ordered : ∀ now ∈ pool.history identity device
      (replacing engine pool identity device rows old new) others,
        now.Pairwise fun a b => a.key.sort < b.key.sort := by
    intro now member
    rcases replaces.mem member with rfl | rfl
    · exact ascending old
    · exact ascending new
  cases shown : pool.contents identity device (pool.uploaded identity device old rows) with
  | nil => exact .inl (contents_uploaded_eq_nil.1 shown)
  | cons first rest =>
    obtain ⟨key, inside, head, least⟩ := uploaded_head shown
    have absent : ∀ other ∈ new, Record.keyId other ≠ Record.keyId key := by
      -- A key with the smallest id is there in both uploads, so it is not missed.
      intro other member same
      have kept : ∀ now ∈ pool.history identity device
          (replacing engine pool identity device rows old new) others, ∃ row ∈ now,
            row.key = RowKey.of pool.table (poolKey identity device (Record.keyId key)) := by
        intro now instant
        rcases replaces.mem instant with rfl | rfl
        · exact (exists_mem_contents_uploaded _).2 ⟨key, inside, rfl⟩
        · exact (exists_mem_contents_uploaded _).2 ⟨other, member, same⟩
      exact not_missed_of_kept ordered kept rfl missed
    -- The smallest id is not in the later upload, and what else is there decides.
    refine .inr ⟨key, inside, least, absent, ?_⟩
    cases rest with
    | nil =>
      -- All keys of the earlier upload are in one row.
      left
      intro other member
      obtain ⟨row, listed, same⟩ := (exists_mem_contents_uploaded (Record.keyId other)).2
        ⟨other, member, rfl⟩
      rw [shown, List.mem_singleton] at listed
      rw [listed, head] at same
      exact (key_of_item_eq_iff.1 same).symm
    | cons second rest =>
      -- A key with a greater id in the later upload would not be missed.
      right
      intro other member
      refine Classical.byContradiction fun notLess => ?_
      have greater : Record.keyId key < Record.keyId other :=
        UInt64.lt_of_le_of_ne (UInt64.not_lt.1 notLess) (absent other member).symm
      obtain ⟨row, listed, same⟩ := (exists_mem_contents_uploaded (Record.keyId other)).2
        ⟨other, member, rfl⟩
      have ahead : first.key.sort < row.key.sort := by
        rw [head, same]
        exact sort_of_item_lt_iff.2 greater
      obtain ⟨later, instants⟩ := history_head pool identity device
        (replacing engine pool identity device rows old new) others
      exact not_missed_of_replaced (ascending new) shown listed ahead replaces
        (by rw [instants]; exact List.cons_ne_nil _ _) missed

/-- A take that finds nothing although there are keys at all times has overlooked later ones. -/
theorem overlooks_of_occupied {others : List Nat} (never : 0 ∉ others)
    (missed : Missed none (pool.history identity device
      (replacing engine pool identity device rows old new) others))
    (occupied : ∀ now ∈ pool.history identity device
      (replacing engine pool identity device rows old new) others, now ≠ []) :
    new ≠ [] ∧ Overlooks old new := by
  have replaces := replaces_history engine pool identity device rows old new never
  obtain ⟨later, instants⟩ := history_head pool identity device
    (replacing engine pool identity device rows old new) others
  rw [rows_replacing] at instants
  have start : pool.contents identity device (pool.uploaded identity device old rows) ≠ [] :=
    occupied _ (instants ▸ List.mem_cons_self)
  refine ⟨fun none => ?_, (overlooks_of_missed never missed).resolve_left fun none =>
    start (contents_uploaded_eq_nil.2 none)⟩
  -- If there are no later keys, the store has not come yet, and the earlier keys have stayed.
  obtain ⟨first, rest, shown⟩ := List.exists_cons_of_ne_nil start
  have kept : ∀ now ∈ pool.history identity device
      (replacing engine pool identity device rows old new) others, now = first :: rest := by
    intro now member
    refine ((replaces.mem member).resolve_right fun after => ?_).trans shown
    exact occupied now member (after.trans (contents_uploaded_eq_nil.2 none))
  have ascending := contents_ascending pool identity device (pool.uploaded identity device old rows)
  exact not_missed_of_kept (fun now member => (shown.trans (kept now member).symm) ▸ ascending)
    (fun now member => ⟨first, kept now member ▸ List.mem_cons_self, rfl⟩) rfl missed

/-- A take may miss both uploads if it can overlook the later one. -/
theorem missed_of_overlooks (overlooks : Overlooks old new) :
    Missed none [pool.contents identity device (pool.uploaded identity device old rows),
      pool.contents identity device (pool.uploaded identity device new rows)] := by
  obtain ⟨key, inside, least, absent, behind⟩ := overlooks
  cases shown : pool.contents identity device (pool.uploaded identity device old rows) with
  | nil => exact absurd (contents_uploaded_eq_nil.1 shown) (List.ne_nil_of_mem inside)
  | cons first rest =>
    -- The first row is that of the smallest id.
    obtain ⟨candidate, stored, head, smallest⟩ := uploaded_head shown
    have same : Record.keyId candidate = Record.keyId key :=
      UInt64.le_antisymm (smallest key inside) (least candidate stored)
    refine missed_of_replaced rfl (fun other member here => ?_) ?_
    · -- A row of the later upload with that key would be one of its id.
      obtain ⟨present, search, rfl⟩ := mem_contents_uploaded.1 member
      rw [head, key_of_item_eq_iff, same] at here
      exact absent present (List.mem_reverse.1 (List.mem_of_find?_eq_some search)) here
    · refine behind.imp (fun single => ?_) fun smaller other member => ?_
      · exact uploaded_single shown head fun other member => (single other member).trans same.symm
      · obtain ⟨present, search, rfl⟩ := mem_contents_uploaded.1 member
        have less := smaller present (List.mem_reverse.1 (List.mem_of_find?_eq_some search))
        rw [head, sort_of_item_lt_iff, same]
        exact UInt64.not_lt.2 (UInt64.le_of_lt less)

/--
In which cases a take beside one replacement may find nothing although there are keys at all times.
-/
theorem replacing_exact (engine : Engine) (pool : Pool κ) (identity : Identity) (device : Device)
    (rows : Rows) (old new : List κ) :
    (∃ schedule, ((replacing engine pool identity device rows old new).run schedule).tasks[0]? =
        some (.ended (pool.take identity device) (.ok none)) ∧
      ∀ store ∈ (replacing engine pool identity device rows old new).stores schedule,
        pool.contents identity device (engine.rows store) ≠ []) ↔ new ≠ [] ∧ Overlooks old new := by
  have asks : (replacing engine pool identity device rows old new).tasks[0]? =
      some (.begun (pool.takeThen identity device .done)) := by
    rw [takeThen_done]
    rfl
  have holds : (replacing engine pool identity device rows old new).store =
      engine.holding (engine.rows (replacing engine pool identity device rows old new).store) := by
    rw [rows_replacing]
    rfl
  -- The general result is applied to the take and this store.
  have exact_for {others : List Nat} (never : 0 ∉ others) := gives_up_full_iff
    (tells_done pool identity device) ⟨_, rfl⟩ holds asks never
  rw [← takeThen_done]
  constructor
  · rintro ⟨schedule, ended, full⟩
    have never := Crew.not_mem_besides 0 schedule
    obtain ⟨missed, occupied⟩ := (exact_for never).1 ⟨schedule, rfl, ended, full⟩
    exact overlooks_of_occupied never missed occupied
  · rintro ⟨some_new, overlooks⟩
    have some_old : old ≠ [] := List.ne_nil_of_mem overlooks.choose_spec.1
    -- The store has one turn, and each upload brings a key.
    obtain ⟨schedule, _, ended, full⟩ := (exact_for (by decide : 0 ∉ [1])).2 <| by
      rw [history_replacing]
      refine ⟨missed_of_overlooks overlooks, fun now member => ?_⟩
      rw [List.mem_cons, List.mem_singleton] at member
      rcases member with rfl | rfl
      · exact fun empty => some_old (contents_uploaded_eq_nil.1 empty)
      · exact fun empty => some_new (contents_uploaded_eq_nil.1 empty)
    exact ⟨schedule, ended, full⟩

end Replacing

end Pool

end KeyDispensary
