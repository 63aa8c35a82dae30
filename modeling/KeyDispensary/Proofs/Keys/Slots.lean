import KeyDispensary.Keys.Slots
import KeyDispensary.Proofs.Store.Engine

/-! What is read from a slot, what is left when one is filled, and the pages of filled slots. -/

namespace KeyDispensary

namespace Slots

variable {κ : Type}

/-- The query for the devices of an identity after a place. -/
def asked (slots : Slots κ) (identity : Identity) (after : Option Bytes) : Query :=
  ⟨slots.table, identity.partition, [], after, pageSize⟩

/-- The page that is read after a place. -/
def pageAfter (slots : Slots κ) (engine : Engine) (identity : Identity) (rows : Rows)
    (after : Option Bytes) : Page :=
  Memory.page pageSize ((engine.found rows (slots.asked identity after)).map Row.item)

/-- A round of a listing reads the page after its place, unless enough have been listed. -/
theorem listFrom_run (engine : Engine) (slots : Slots κ) (identity : Identity) (rows : Rows)
    {wanted : Option Nat} {place : ListingPlace} (more : ¬ isEnough wanted place.listed) :
    (slots.listFrom identity wanted place).run (engine.holding rows) =
      (slots.afterPage wanted place.listed (slots.pageAfter engine identity rows place.after),
        engine.holding rows) := by
  -- A round asks for one page.
  rw [listFrom, if_neg more, Program.run, Engine.perform_holding]
  rfl

variable [Record κ]

/-- What is read from the slot of a device. -/
def held (slots : Slots κ) (identity : Identity) (device : Device) (rows : Rows) :
    Except KeyError (Option κ) :=
  match rows.get? (RowKey.of slots.table (slotKey identity device)) with
  | none => .ok none
  | some value => (recordOf κ slots.table value).map some

/-- Reading a slot answers what it holds and changes nothing. -/
theorem find_run (engine : Engine) (slots : Slots κ) (identity : Identity) (device : Device)
    (rows : Rows) : (slots.find identity device).run (engine.holding rows) =
      (slots.held identity device rows, engine.holding rows) := by
  -- What is found may be no record, which is answered as well.
  rw [find, Program.run, Engine.perform_holding]
  simp only [Engine.answer, held]
  cases rows.get? (RowKey.of slots.table (slotKey identity device)) <;> rfl

/-- Filling a slot succeeds and leaves what the write for it leaves. -/
theorem store_run (engine : Engine) (slots : Slots κ) (identity : Identity) (device : Device) (key : κ)
    (rows : Rows) : (slots.store identity device key).run (engine.holding rows) =
      (.ok (), engine.holding ((slots.putWrite identity device key).apply engine.clear rows)) := by
  -- The call that is made puts what the write would put.
  rw [store, Program.run, Engine.perform_holding]
  rfl

end Slots

end KeyDispensary
