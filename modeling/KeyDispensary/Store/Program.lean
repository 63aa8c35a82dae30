import KeyDispensary.Store.Call

/-!
Programs that ask a store. A program is a tree of calls, each followed by what is done with its reply,
so that the calls of several programs may be interleaved and any reply may be imagined. A computation
with no fixed number of calls is a walk: it makes rounds, and each round is a program.
-/

namespace KeyDispensary

/-- A computation that asks a store and goes on by the replies. -/
inductive Program (α : Type) where
  /-- Ends with an answer. -/
  | done (answer : α)
  /-- Asks for a call and goes on with its reply. -/
  | ask (call : Call) (resume : Reply call → Program α)

namespace Program

variable {α β σ : Type}

/-- Goes on with another program when the first ends. -/
def bind (first : Program α) (next : α → Program β) : Program β :=
  match first with
  | .done answer => next answer
  | .ask call resume => .ask call fun reply => (resume reply).bind next

/-- Changes the answer. -/
def map (change : α → β) (program : Program α) : Program β :=
  program.bind fun answer => .done (change answer)

/-- Runs a program on a store, one call after another. -/
def run [Store σ] : Program α → σ → α × σ
  | .done answer, store => (answer, store)
  | .ask call resume, store =>
    let (reply, store) := Store.perform store call
    (resume reply).run store

end Program

/-- What a round of a walk ends with. -/
inductive Progress (π α : Type) where
  /-- Another round follows, from the given place. -/
  | more (place : π)
  /-- The walk ends. -/
  | finished (answer : α)

/-- A computation in rounds, each of which starts at a place that the one before came to. -/
structure Walk (π α : Type) where
  start : π
  round : π → Program (Progress π α)

namespace Walk

variable {π α β σ : Type}

/-- Makes rounds from a place until the walk ends, but at most the given number. -/
def runFrom [Store σ] (walk : Walk π α) : Nat → π → σ → Option α × σ
  | 0, _, store => (none, store)
  | rounds + 1, place, store =>
    match (walk.round place).run store with
    | (.finished answer, store) => (some answer, store)
    | (.more place, store) => walk.runFrom rounds place store

/-- Runs a walk on a store for as many rounds as the store may give cause for. -/
def run [Store σ] (walk : Walk π α) (store : σ) : Option α × σ :=
  walk.runFrom (Store.rounds store) walk.start store

/-- Goes on with a program when the walk ends, within its last round. -/
def andThen (walk : Walk π α) (next : α → Program β) : Walk π β where
  start := walk.start
  round place := (walk.round place).bind fun
    | .more place => .done (.more place)
    | .finished answer => (next answer).map .finished

end Walk

end KeyDispensary
