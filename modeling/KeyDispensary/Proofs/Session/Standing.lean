import KeyDispensary.Proofs.Store.Openings
import KeyDispensary.Session

/-!
Hosts that hold rows, in memory, in a database or in a database file. Main statement: `Host.follows`, by
which all of them answer as their engines do.
-/

namespace KeyDispensary

variable {π α : Type}

namespace Host

/-- Whether a host holds the given rows, and in which kind of store. -/
inductive Stands : Engine → Rows → Host → Prop where
  | memory (disk : Disk) (rows : Rows) : Stands .memory rows ⟨disk, .memory ⟨rows⟩⟩
  | database (disk : Disk) (rows : Rows) :
    Stands .database rows ⟨disk, .database ⟨tableVersion, some rows⟩⟩
  | file {disk : Disk} {place : Place} {rows : Rows} {journal : Journal}
    (found : disk.database place = .ok ⟨⟨tableVersion, some rows⟩, journal⟩) :
    Stands .database rows ⟨disk, .file place⟩

/-- Whether a host was just started without rows, and in which kind of store. -/
inductive IsNew : Engine → Host → Prop where
  | memory (disk : Disk) : IsNew .memory ⟨disk, .memory Memory.empty⟩
  | database (disk : Disk) {database : Database} (opened : Database.fresh.opened = .ok database) :
    IsNew .database ⟨disk, .database database⟩
  | file {disk : Disk} {place : Place} {host : Host}
    (fresh : disk.database place = .ok DatabaseFile.fresh) (opened : openFile disk place = .ok host) :
    IsNew .database host

/-- A host that was just started holds no rows. -/
theorem IsNew.stands {engine : Engine} {host : Host} (isNew : IsNew engine host) :
    Stands engine Rows.empty host := by
  -- Each kind of host has its store without rows.
  cases isNew with
  | memory disk => exact .memory disk Rows.empty
  | database disk opened =>
    obtain rfl := Except.ok.inj opened
    exact .database disk Rows.empty
  | @file disk place _ fresh opened =>
    have below := Disk.below_of_database fresh
    rw [openFile, fresh] at opened
    obtain rfl := Except.ok.inj opened
    -- Whether the place is held does not matter for what is found there.
    exact .file (disk.database_put below ⟨⟨tableVersion, some Rows.empty⟩, .ahead⟩)

/-- A host answers as the engine of its store does. -/
theorem follows (engine : Engine) : Follows engine (Stands engine) where
  perform := by
    -- What the call leaves stands in the same kind of store.
    intro rows host stands call
    cases stands with
    | memory disk =>
      have same := Memory.perform_eq ⟨rows⟩ call
      change (Host.perform _ call).1 = _ ∧ Stands _ _ (Host.perform _ call).2
      simp only [Host.perform, same]
      exact ⟨trivial, .memory ..⟩
    | database disk =>
      have same := Database.performOn_eq rows call
      change (Host.perform _ call).1 = _ ∧ Stands _ _ (Host.perform _ call).2
      simp only [Host.perform, Database.perform, same]
      exact ⟨trivial, .database ..⟩
    | file found =>
      have same := Database.performOn_eq rows call
      have below := Disk.below_of_database found
      change (Host.perform _ call).1 = _ ∧ Stands _ _ (Host.perform _ call).2
      simp only [Host.perform, found, Database.perform, same]
      exact ⟨trivial, .file (Disk.database_put _ below _)⟩
  rounds := by
    intro rows host stands
    change rows.size < host.size + 1
    cases stands with
    | memory => exact Nat.lt_succ_self _
    | database => exact Nat.lt_succ_self _
    | file found =>
      simp only [Host.size, found]
      exact Nat.lt_succ_self _

end Host

namespace Session

variable {engine : Engine} {session : Session} {rows left : Rows} {answer : α}

/-- Whether a session without faults works on the given rows. -/
def Stands (engine : Engine) (rows : Rows) (session : Session) : Prop :=
  session.probe.faults = [] ∧ Host.Stands engine rows session.probe.store

/-- A session runs a program as its engine does. -/
theorem ask_eq {program : Program α} (stands : session.Stands engine rows)
    (ended : program.run (engine.holding rows) = (answer, engine.holding left)) :
    ∃ probe, session.ask program = (answer, { session with probe := probe }) ∧
      Stands engine left { session with probe := probe } := by
  obtain ⟨probe, ran, further⟩ := (Host.follows engine).probe.run program stands ended
  exact ⟨probe, by rw [ask, ran], further⟩

/-- A session runs a walk as its engine does. -/
theorem walk_eq {walk : Walk π α} (stands : session.Stands engine rows)
    (ended : walk.run (engine.holding rows) = (some answer, engine.holding left)) :
    ∃ probe, session.walk walk = (some answer, { session with probe := probe }) ∧
      Stands engine left { session with probe := probe } := by
  obtain ⟨probe, ran, further⟩ := (Host.follows engine).probe.walk stands ended
  exact ⟨probe, by rw [Session.walk, ran], further⟩

/-- A session passes a call to its store, which answers as its engine does. -/
theorem direct_eq (stands : session.Stands engine rows) (call : Call) :
    ∃ probe, session.direct call =
        ((engine.answer rows call).1, { session with probe := probe }) ∧
      Stands engine (engine.answer rows call).2 { session with probe := probe } := by
  obtain ⟨faultless, holds⟩ := stands
  obtain ⟨reply, further⟩ := (Host.follows engine).perform holds call
  exact ⟨(session.probe.pass call).2, Prod.ext reply rfl, faultless, further⟩

end Session

end KeyDispensary
