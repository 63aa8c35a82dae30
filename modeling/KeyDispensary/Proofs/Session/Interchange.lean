import KeyDispensary.Proofs.Session.Standing
import KeyDispensary.Proofs.Store.Recording

/-!
Calls that are made one after another. Main statement: `Host.interchangeable`, by which a store in memory
and a database answer all calls alike as long as nothing is put without a sort key.
-/

namespace KeyDispensary

variable {σ τ : Type}

/-- The items that the call has put. -/
def Exchange.written (exchange : Exchange) : List Item :=
  exchange.call.written exchange.reply

/-- Makes calls one after another. -/
def performAll [Store σ] : List Call → σ → List Exchange × σ
  | [], store => ([], store)
  | call :: rest, store =>
    let (reply, next) := Store.perform store call
    let (exchanges, last) := performAll rest next
    (⟨call, reply⟩ :: exchanges, last)

/-- Every call is made, in the order of the list. -/
theorem performAll_calls [Store σ] (calls : List Call) (store : σ) :
    (performAll calls store).1.map Exchange.call = calls := by
  -- The reply to a call does not decide whether the next one is made.
  induction calls generalizing store with
  | nil => rfl
  | cons call rest ih => exact congrArg (call :: ·) (ih (Store.perform store call).2)

/-- Calls that put items with sort keys only have put no others. -/
theorem written_performAll [Store σ] {calls : List Call} {holds : Item → Prop}
    (all : ∀ call ∈ calls, ∀ item ∈ call.items, holds item) (store : σ) :
    ∀ exchange ∈ (performAll calls store).1, ∀ item ∈ exchange.written, holds item := by
  intro exchange member item put
  -- The call of the exchange is one of those that were made.
  have made : exchange.call ∈ (performAll calls store).1.map Exchange.call :=
    List.mem_map.2 ⟨exchange, member, rfl⟩
  rw [performAll_calls] at made
  exact all exchange.call made item (Call.mem_items put)

/--
Two stores of which one follows the engine in memory and one any engine, and which stand on the same
rows, answer calls alike and stand on the same rows again.
-/
theorem Follows.performAll_alike [Store σ] [Store τ] {engine : Engine}
    {stands : Rows → σ → Prop} {stands' : Rows → τ → Prop} (memory : Follows .memory stands)
    (other : Follows engine stands') {rows : Rows} (keyed : rows.Keyed) {store : σ} {store' : τ}
    (standing : stands rows store) (standing' : stands' rows store') {calls : List Call}
    (sorted : ∀ exchange ∈ (performAll calls store).1, ∀ item ∈ exchange.written,
      item.key.sort ≠ []) :
    (performAll calls store).1 = (performAll calls store').1 ∧
      ∃ left, stands left (performAll calls store).2 ∧ stands' left (performAll calls store').2 := by
  -- Call by call both stand on the same rows, all of which have sort keys.
  induction calls generalizing rows store store' with
  | nil => exact ⟨rfl, rows, standing, standing'⟩
  | cons call rest ih =>
    obtain ⟨reply, further⟩ := memory.perform standing call
    obtain ⟨reply', further'⟩ := other.perform standing' call
    -- What the first call has put is what its engine says.
    have first : ∀ item ∈ call.written (Engine.memory.answer rows call).1, item.key.sort ≠ [] := by
      rw [← reply]
      exact sorted ⟨call, (Store.perform store call).1⟩ List.mem_cons_self
    have same := Engine.answer_alike engine keyed first
    rw [same] at reply' further'
    -- The rows that it leaves have sort keys again, so the other calls are answered alike too.
    obtain ⟨exchanges, ends⟩ := ih (Engine.keyed_answer .memory keyed first) further further'
      fun exchange member => sorted exchange (.tail _ member)
    refine ⟨?_, ends⟩
    have replies : (Store.perform store call).1 = (Store.perform store' call).1 :=
      reply.trans reply'.symm
    simp only [performAll, replies, exchanges]

namespace Host

/--
A store in memory and a database, both without rows at first, give the same answers to any calls, call by
call, and hold the same rows afterwards, if no call puts an item without a sort key.
-/
theorem interchangeable {memory database : Host} (inMemory : memory.IsNew .memory)
    (inDatabase : database.IsNew .database) (calls : List Call)
    (sorted : ∀ exchange ∈ (performAll calls memory).1, ∀ item ∈ exchange.written,
      item.key.sort ≠ []) :
    (performAll calls memory).1 = (performAll calls database).1 ∧
      ∃ rows, Stands .memory rows (performAll calls memory).2 ∧
        Stands .database rows (performAll calls database).2 := by
  -- Without rows, every row has a sort key.
  have keyed : Rows.empty.Keyed := fun _ member => absurd member List.not_mem_nil
  exact (follows .memory).performAll_alike (follows .database) keyed inMemory.stands
    inDatabase.stands sorted

/--
The two agree where items lie outside the range that is replaced, where a write and a check meet on one
key, and where pages are empty, unlimited or start outside their range.
-/
theorem interchangeable_odd :
    let disk : Disk := ⟨[], [], none⟩
    let memory : Host := ⟨disk, .memory Memory.empty⟩
    let database : Host := ⟨disk, .database ⟨tableVersion, some Rows.empty⟩⟩
    let calls : List Call := [
      .replace "keys" [1] [2] [⟨⟨[1], [2, 7]⟩, [0]⟩, ⟨⟨[9], [3]⟩, []⟩, ⟨⟨[1], [2, 7]⟩, [1]⟩],
      .transact [.put "keys" ⟨⟨[1], [2, 8]⟩, [4]⟩, .deleteRange "keys" [1] [],
        .check "keys" ⟨[1], [2, 8]⟩ .absent, .put "keys" ⟨⟨[1], [2, 9]⟩, [5]⟩],
      .transact [.put "keys" ⟨⟨[1], [3]⟩, [6]⟩, .check "keys" ⟨[1], [3]⟩ .present],
      .query ⟨"keys", [1], [2], some [], 0⟩,
      .query ⟨"keys", [1], [], some [1, 255], Query.unlimited⟩,
      .count "keys" [9] []]
    (memory.IsNew .memory ∧ database.IsNew .database ∧
      ∀ exchange ∈ (performAll calls memory).1, ∀ item ∈ exchange.written, item.key.sort ≠ []) ∧
    (performAll calls memory).1 = (performAll calls database).1 ∧
      ∃ rows, Stands .memory rows (performAll calls memory).2 ∧
        Stands .database rows (performAll calls database).2 := by
  intro disk memory database calls
  have inMemory : memory.IsNew .memory := .memory disk
  have inDatabase : database.IsNew .database := .database disk rfl
  have sorted := written_performAll
    (by decide : ∀ call ∈ calls, ∀ item ∈ call.items, item.key.sort ≠ []) memory
  exact ⟨⟨inMemory, inDatabase, sorted⟩, interchangeable inMemory inDatabase calls sorted⟩

end Host

end KeyDispensary
