import KeyDispensary.Proofs.Config.RoundTrip
import KeyDispensary.Proofs.Keys.Streaming
import KeyDispensary.Proofs.Store.Openings

/-!
What the command line changes. It changes nothing unless it comes to open a database, and then only the
file of that database, in which rows are deleted only by a command that deletes keys. Main statement:
`Admin.run_effects`.
-/

namespace KeyDispensary

variable {κ σ : Type}

/-! ### Counting and listing -/

/-- Counting in an open database leaves it as it is. -/
theorem Pool.run_count (pool : Pool κ) (opened : OpenDatabase) (identity : Identity)
    (device : Device) : ((pool.count identity device).run opened).2 = opened := by
  -- Without a table the call fails, and a count may also be read only.
  obtain ⟨⟨version, table⟩, place, journal, access⟩ := opened
  cases table <;> cases access <;> rfl

namespace Slots

variable [Store σ] {engine : Engine} {rows : Rows} {store : σ}

/-- A listing in a store that shows rows answers as in the engine, and leaves the store as it is. -/
theorem runFrom_of_shows (slots : Slots κ) (identity : Identity) (wanted : Option Nat)
    (shows : Shows engine rows store) (rounds : Nat) (place : ListingPlace) :
    (slots.list identity wanted).runFrom rounds place store =
      (((slots.list identity wanted).runFrom rounds place (engine.holding rows)).1, store) := by
  -- Round by round both read the same page.
  induction rounds generalizing place with
  | zero => rfl
  | succ rounds ih =>
    have round : (slots.listFrom identity wanted place).run store =
        (((slots.listFrom identity wanted place).run (engine.holding rows)).1, store) ∧
        ((slots.listFrom identity wanted place).run (engine.holding rows)).2 =
          engine.holding rows := by
      rw [listFrom]
      split
      · exact ⟨rfl, rfl⟩
      · -- A page is read, which is the same for both.
        rw [Program.run, Program.run, shows.query, Engine.perform_holding]
        exact ⟨rfl, rfl⟩
    rw [Walk.runFrom, Walk.runFrom]
    simp only [list]
    rw [round.1]
    rcases ended : (slots.listFrom identity wanted place).run (engine.holding rows) with
      ⟨place | listing, left⟩
    · rw [ended] at round
      obtain rfl : left = engine.holding rows := round.2
      exact ih place
    · rfl

/-- A listing of all devices in an open database ends, and leaves the database as it is. -/
theorem list_opened (slots : Slots κ) (opened : OpenDatabase) (identity : Identity) :
    ∃ listing, (slots.list identity none).run opened = (some listing, opened) := by
  cases table : opened.database.table with
  | none =>
    -- The first page is refused.
    obtain ⟨⟨version, _⟩, place, journal, access⟩ := opened
    obtain rfl := table
    cases access <;> exact ⟨⟨[], .failed (.store (.database .noTable))⟩, rfl⟩
  | some rows =>
    obtain ⟨listing, ran, -⟩ := list_run .database slots identity none rows
    have shows := Shows.opened table
    -- The engine allows fewer rounds, and they are enough.
    rw [Walk.run, Engine.rounds_holding] at ran
    have same := slots.runFrom_of_shows identity none shows (rows.size + 1)
      (slots.list identity none).start
    rw [ran] at same
    exact ⟨listing, Walk.runFrom_mono shows.rounds same⟩

end Slots

namespace Admin

variable {arguments : List String} {disk : Disk} {invocation : Invocation} {config : Config}
  {dispensary : Dispensary} {opened : OpenDatabase} {command : Command}
  {deletion : Program (Except KeyError Unit)}

/-- The deletion that a command asks of a dispensary, if it asks for one. -/
def Command.deletion? (config : Config) (dispensary : Dispensary) :
    Command → Option (Program (Except KeyError Unit))
  | .deletePools identity none => some (dispensary.deletePools identity)
  | .deletePools identity (some device) => some (dispensary.deleteDevicePools identity device)
  | .deleteAccount identity => some (dispensary.deleteAccount config.policy identity)
  | .count _ _ | .pqDevices _ | .showConfig => none

/-- Whether some step of a command fails on a store. -/
def Command.Fails [Store σ] (config : Config) (dispensary : Dispensary) (store : σ)
    (command : Command) : Prop :=
  match command with
  | .count identity device =>
    (∃ error, ((dispensary.ecPool.count identity device).run store).1 = .error error) ∨
      ∃ error, ((dispensary.pqPool.count identity device).run store).1 = .error error
  | .pqDevices identity =>
    ∃ devices error, ((dispensary.lastResort.list identity none).run store).1 =
      some ⟨devices, .failed error⟩
  | .deletePools _ _ | .deleteAccount _ | .showConfig =>
    ∃ deletion error, command.deletion? config dispensary = some deletion ∧
      (deletion.run store).1 = .error error

/-! ### Commands on an open database -/

/-- Counting both pools of an open database leaves it as it is, and fails if one count fails. -/
theorem run_countPools (dispensary : Dispensary) (opened : OpenDatabase) (identity : Identity)
    (device : Device) : (countPools dispensary identity device).run opened =
      (match ((dispensary.ecPool.count identity device).run opened).1,
          ((dispensary.pqPool.count identity device).run opened).1 with
        | .error error, _ => failure none error.message
        | .ok _, .error error => failure none error.message
        | .ok ec, .ok pq => counted ec pq, opened) := by
  -- The first count leaves the database as it is, so the second runs on the same.
  rw [countPools, Program.run_bind, Pool.run_count]
  cases ((dispensary.ecPool.count identity device).run opened).1 with
  | error error => rfl
  | ok ec =>
    simp only [Program.run_map, Pool.run_count]
    cases ((dispensary.pqPool.count identity device).run opened).1 <;> rfl

/-- A command that asks for a deletion runs it and answers how it ended. -/
theorem carryOut_of_deletion [Store σ] {store : σ}
    (asked : command.deletion? config dispensary = some deletion) :
    carryOut config dispensary store command =
      (finished (deletion.run store).1, (deletion.run store).2) := by
  -- Each deletion is run as it is, and its end is told.
  cases command with
  | count | pqDevices | showConfig => cases asked
  | deletePools identity device =>
    cases device <;> cases asked <;> exact Program.run_map ..
  | deleteAccount identity =>
    cases asked
    exact Program.run_map ..

/-- A command that asks for no deletion leaves an open database as it is. -/
theorem carryOut_of_none (asked : command.deletion? config dispensary = none) :
    (carryOut config dispensary opened command).2 = opened := by
  -- Counting and listing leave the database as it is, and so does showing the configuration.
  cases command with
  | count identity device => rw [carryOut, run_countPools]
  | pqDevices identity =>
    obtain ⟨listing, ran⟩ := dispensary.lastResort.list_opened opened identity
    rw [carryOut, ran]
  | deletePools identity device => cases device <;> cases asked
  | deleteAccount identity => cases asked
  | showConfig => rfl

/-- A command that asks for a deletion fails exactly if the deletion does. -/
theorem fails_of_deletion [Store σ] {store : σ}
    (asked : command.deletion? config dispensary = some deletion) :
    command.Fails config dispensary store ↔ ∃ error, (deletion.run store).1 = .error error := by
  -- The commands that delete are known by their deletion, and they have no other step.
  cases command with
  | count | pqDevices | showConfig => cases asked
  | deletePools | deleteAccount => simp [Command.Fails, asked]

/-- The exit code after an operation that answers nothing is zero exactly if it did not fail. -/
theorem finished_code (result : Except KeyError Unit) :
    (finished result).code = 0 ↔ ¬ ∃ error, result = .error error := by
  cases result <;> simp [finished, failure]

/-- The exit code of a listing that ended is zero exactly if it did not fail. -/
theorem listed_code (listing : Listing) :
    (listed (some listing)).code = 0 ↔ ¬ ∃ error, listing.ending = .failed error := by
  obtain ⟨devices, ending⟩ := listing
  cases ending <;> simp [listed, failure]

/-- The exit code of a command that is carried out is zero exactly if none of its steps fails. -/
theorem carryOut_code (config : Config) (dispensary : Dispensary) (opened : OpenDatabase)
    (command : Command) : (carryOut config dispensary opened command).1.code = 0 ↔
      ¬ command.Fails config dispensary opened := by
  cases asked : command.deletion? config dispensary with
  | some deletion =>
    -- A deletion fails or not, and the code says so.
    rw [carryOut_of_deletion asked, fails_of_deletion asked]
    exact finished_code _
  | none =>
    cases command with
    | deletePools identity device => cases device <;> cases asked
    | deleteAccount identity => cases asked
    | showConfig => simp [carryOut, Command.Fails, asked]
    | pqDevices identity =>
      -- The listing ends, in one way or another.
      obtain ⟨⟨devices, ending⟩, ran⟩ := dispensary.lastResort.list_opened opened identity
      rw [carryOut, Command.Fails, ran, listed_code]
      simp
    | count identity device =>
      -- Each of the two counts may fail or not.
      rw [carryOut, run_countPools, Command.Fails]
      cases ((dispensary.ecPool.count identity device).run opened).1 <;>
        cases ((dispensary.pqPool.count identity device).run opened).1 <;>
          simp [failure, counted]

/-! ### Runs -/

/-- Whether some step of a run fails. Asking for help is no step that fails. -/
inductive StepFails (arguments : List String) (disk : Disk) : Prop where
  /-- The arguments fit no command. -/
  | usage (refused : interpret arguments = .error .usage)
  /-- The configuration cannot be read, or it is unsound. -/
  | configuration {invocation : Invocation} {error : KeyError}
    (parsed : parse arguments = some invocation)
    (failed : configOf disk invocation = .error error)
  /-- The database is not opened. -/
  | opening {invocation : Invocation} {config : Config} {error : StoreError}
    (parsed : parse arguments = some invocation)
    (configured : configOf disk invocation = .ok config) (acts : invocation.command ≠ .showConfig)
    (failed : OpenDatabase.ofName disk invocation.database = .error error)
  /-- The tables of the configuration make no dispensary. -/
  | making {invocation : Invocation} {config : Config} {opened : OpenDatabase} {error : KeyError}
    (parsed : parse arguments = some invocation)
    (configured : configOf disk invocation = .ok config) (acts : invocation.command ≠ .showConfig)
    (opens : OpenDatabase.ofName disk invocation.database = .ok opened)
    (failed : Dispensary.make config.tables = .error error)
  /-- A step of the command fails. -/
  | command {invocation : Invocation} {config : Config} {dispensary : Dispensary}
    {opened : OpenDatabase} (reaches : Reaches arguments disk invocation config dispensary opened)
    (acts : invocation.command ≠ .showConfig)
    (failed : invocation.command.Fails config dispensary opened)

/-- The tables of a configuration that was read make a dispensary. -/
theorem make_of_configOf (configured : configOf disk invocation = .ok config) :
    Dispensary.make config.tables = .ok ⟨config.tables⟩ := by
  -- The names were checked when the configuration was read.
  obtain ⟨named, apart⟩ := sound_of_configOf configured
  have valid := Tables.validate_eq_ok (fun name member empty => named (empty ▸ member)) apart
  rw [Dispensary.make, valid]
  rfl

/-- The ways in which a run may go, each with its outcome and with the disk that it leaves. -/
inductive Goes (arguments : List String) (disk : Disk) : Outcome × Disk → Prop where
  | refused {refusal : Refusal} (refused : interpret arguments = .error refusal) :
    Goes arguments disk (answerTo refusal, disk)
  | unconfigured {invocation : Invocation} {error : KeyError} {doing : Option String}
    (parsed : parse arguments = some invocation)
    (failed : configOf disk invocation = .error error) :
    Goes arguments disk (failure doing error.message, disk)
  | shown {invocation : Invocation} {config : Config} (parsed : parse arguments = some invocation)
    (configured : configOf disk invocation = .ok config)
    (shows : invocation.command = .showConfig) :
    Goes arguments disk ({ code := 0, out := config.text ++ "\n" }, disk)
  | unopened {invocation : Invocation} {config : Config} {error : StoreError}
    {doing : Option String} (parsed : parse arguments = some invocation)
    (configured : configOf disk invocation = .ok config) (acts : invocation.command ≠ .showConfig)
    (failed : OpenDatabase.ofName disk invocation.database = .error error) :
    Goes arguments disk
      (failure doing error.message, OpenDatabase.refusedOn disk invocation.database)
  | carriedOut {invocation : Invocation} {config : Config} {opened : OpenDatabase}
    (reaches : Reaches arguments disk invocation config ⟨config.tables⟩ opened)
    (acts : invocation.command ≠ .showConfig) : Goes arguments disk
      ((carryOut config ⟨config.tables⟩ opened invocation.command).1,
        (carryOut config ⟨config.tables⟩ opened invocation.command).2.keptOn (opened.keptOn disk))

/-- A database that is not opened ends the run. -/
theorem run_of_unopened {error : StoreError} (parsed : parse arguments = some invocation)
    (configured : configOf disk invocation = .ok config) (acts : invocation.command ≠ .showConfig)
    (failed : OpenDatabase.ofName disk invocation.database = .error error) : run arguments disk =
      (failure (some s!"opening {invocation.database}") error.message,
        OpenDatabase.refusedOn disk invocation.database) := by
  simp only [run, interpret_of_parse parsed, configured, if_neg acts, onDatabase, failed]

/-- Every run goes in one of these ways. -/
theorem run_goes (arguments : List String) (disk : Disk) :
    Goes arguments disk (run arguments disk) := by
  -- The stages are followed in their order, and each of them may end the run.
  cases read : interpret arguments with
  | error refusal =>
    rw [run, read]
    exact .refused read
  | ok invocation =>
    have parsed : parse arguments = some invocation := by rw [parse, read]; rfl
    cases configured : configOf disk invocation with
    | error error =>
      simp only [run, read, configured]
      exact .unconfigured parsed configured
    | ok config =>
      by_cases shows : invocation.command = .showConfig
      · -- The configuration is shown before any database is opened.
        rw [run_showConfig parsed shows configured]
        exact .shown parsed configured shows
      · cases opens : OpenDatabase.ofName disk invocation.database with
        | error error =>
          rw [run_of_unopened parsed configured shows opens]
          exact .unopened parsed configured shows opens
        | ok opened =>
          -- The tables are sound, since the configuration was checked before.
          have reaches : Reaches arguments disk invocation config ⟨config.tables⟩ opened :=
            ⟨parsed, configured, opens, make_of_configOf configured⟩
          rw [reaches.run shows]
          exact .carriedOut reaches shows

/-- Whether a command that is carried out fails in some step is for the command to say. -/
theorem Reaches.stepFails (reaches : Reaches arguments disk invocation config dispensary opened)
    (acts : invocation.command ≠ .showConfig) :
    StepFails arguments disk ↔ invocation.command.Fails config dispensary opened := by
  -- All that comes before the command has gone well.
  refine ⟨fun fails => ?_, .command reaches acts⟩
  cases fails with
  | usage refused => cases refused.symm.trans (interpret_of_parse reaches.parsed)
  | configuration parsed failed =>
    obtain rfl := Option.some.inj (reaches.parsed.symm.trans parsed)
    cases failed.symm.trans reaches.configured
  | opening parsed _ _ failed =>
    obtain rfl := Option.some.inj (reaches.parsed.symm.trans parsed)
    cases failed.symm.trans reaches.opens
  | making parsed configured _ _ failed =>
    cases failed.symm.trans (make_of_configOf configured)
  -- The other command is this one, on the same database.
  | command others _ failed =>
    obtain rfl := Option.some.inj (reaches.parsed.symm.trans others.parsed)
    obtain rfl := Except.ok.inj (reaches.configured.symm.trans others.configured)
    obtain rfl := Except.ok.inj (reaches.opens.symm.trans others.opens)
    obtain rfl := Except.ok.inj (reaches.makes.symm.trans others.makes)
    exact failed

/-- The exit code of a run is zero exactly if no step fails. -/
theorem run_code (arguments : List String) (disk : Disk) :
    (run arguments disk).1.code = 0 ↔ ¬ StepFails arguments disk := by
  -- The cases are the ways in which the run may go; each excludes the steps that it does not come to.
  have goes := run_goes arguments disk
  generalize run arguments disk = ran at goes
  cases goes with
  | @refused refusal refused =>
    cases refusal with
    | usage => exact iff_of_false (by simp [answerTo]) fun sound => sound (.usage refused)
    | help =>
      -- Every step that might fail comes after arguments that come to a command.
      refine iff_of_true rfl fun fails => ?_
      have none {invocation : Invocation} (parsed : parse arguments = some invocation) : False := by
        cases refused.symm.trans (interpret_of_parse parsed)
      cases fails with
      | usage other => cases refused.symm.trans other
      | configuration parsed | opening parsed | making parsed => exact none parsed
      | command reaches => exact none reaches.parsed
  | unconfigured parsed failed =>
    exact iff_of_false (by simp [failure]) fun sound => sound (.configuration parsed failed)
  | shown parsed configured shows =>
    -- Nothing follows after the configuration, which was read.
    refine iff_of_true rfl fun fails => ?_
    have same {other : Invocation} (others : parse arguments = some other) :
        other.command = .showConfig :=
      Option.some.inj (parsed.symm.trans others) ▸ shows
    cases fails with
    | usage refused => cases refused.symm.trans (interpret_of_parse parsed)
    | configuration others failed =>
      obtain rfl := Option.some.inj (parsed.symm.trans others)
      cases failed.symm.trans configured
    | opening others _ acts => exact acts (same others)
    | making others _ acts => exact acts (same others)
    | command reaches acts => exact acts (same reaches.parsed)
  -- The database was not opened, which is a step that failed.
  | unopened parsed configured acts failed =>
    exact iff_of_false (by simp [failure]) fun sound =>
      sound (.opening parsed configured acts failed)
  | carriedOut reaches acts => rw [carryOut_code, reaches.stepFails acts]

/-! ### What changes -/

/-- Whether a run ends as a deletion does in the database that it has opened. -/
structure Deletes (deletion : Program (Except KeyError Unit)) (opened : OpenDatabase) (disk : Disk)
    (outcome : Outcome) (after : Disk) : Prop where
  /-- The outcome is that of the deletion. -/
  ends : outcome = finished (deletion.run opened).1
  /-- If a file may be written, its rows are those that the deletion leaves of the rows before. -/
  leaves : ∀ place, opened.place = some place → opened.access ≠ .read →
    opened.database.rows = disk.rowsAt place ∧
      (deletion.run opened).1 = (deletion.run opened.database).1 ∧
      after.rowsAt place = (deletion.run opened.database).2.rows

/-- What a run answers and what it leaves of a disk. -/
structure Effects (arguments : List String) (disk : Disk) (outcome : Outcome) (after : Disk) :
    Prop where
  /-- Arguments that come to no command change nothing. -/
  refused : ∀ refusal, interpret arguments = .error refusal → after = disk
  /-- Neither does a configuration that cannot be read or that is unsound. -/
  unconfigured : ∀ invocation error, parse arguments = some invocation →
    configOf disk invocation = .error error → after = disk
  /-- Neither does showing the configuration. -/
  shown : ∀ invocation, parse arguments = some invocation → invocation.command = .showConfig →
    after = disk
  /-- No file changes but that of the database, and that only if it may be written. -/
  elsewhere : ∀ invocation place, parse arguments = some invocation →
    (∀ reached, OpenDatabase.reach disk invocation.database = .ok reached →
      reached.place = some place → reached.access = .read) →
    after.get? place = disk.get? place
  /-- In a database of another version no row changes, and the command fails. -/
  outdated : ∀ invocation config reached, parse arguments = some invocation →
    configOf disk invocation = .ok config → invocation.command ≠ .showConfig →
    OpenDatabase.reach disk invocation.database = .ok reached → reached.database.version ≠ 0 →
    reached.database.version ≠ 1 → outcome.code = 1 ∧ disk.SameRows after
  /-- Counting and listing change no row, and no row changes if the database is not opened. -/
  keeps : ∀ invocation, parse arguments = some invocation →
    ((∃ identity device, invocation.command = .count identity device) ∨
      (∃ identity, invocation.command = .pqDevices identity) ∨
      ∃ error, OpenDatabase.ofName disk invocation.database = .error error) →
    disk.SameRows after
  /-- The other commands are deletions by a dispensary with the tables and the policy. -/
  deletes : ∀ invocation config opened, parse arguments = some invocation →
    configOf disk invocation = .ok config →
    OpenDatabase.ofName disk invocation.database = .ok opened →
    ∃ dispensary, Dispensary.make config.tables = .ok dispensary ∧
      ∀ deletion, invocation.command.deletion? config dispensary = some deletion →
        Deletes deletion opened disk outcome after
  /-- The exit code is zero exactly if no step fails. -/
  code : outcome.code = 0 ↔ ¬ StepFails arguments disk

/-- A command that is carried out uses the database as it was opened. -/
theorem carryOut_place (config : Config) (dispensary : Dispensary) (opened : OpenDatabase)
    (command : Command) :
    (carryOut config dispensary opened command).2.place = opened.place ∧
      (carryOut config dispensary opened command).2.access = opened.access := by
  -- Neither a deletion nor a look changes how the database is used.
  cases asked : command.deletion? config dispensary with
  | some deletion =>
    rw [carryOut_of_deletion asked]
    exact OpenDatabase.run_place deletion opened
  | none =>
    rw [carryOut_of_none asked]
    exact ⟨rfl, rfl⟩

/-- A command that is carried out changes only the file of its database. -/
theorem get?_carryOut (config : Config) (dispensary : Dispensary) (command : Command) (disk : Disk)
    {place : Place} (apart : opened.place = some place → opened.access = .read) :
    ((carryOut config dispensary opened command).2.keptOn (opened.keptOn disk)).get? place =
      disk.get? place := by
  obtain ⟨places, accesses⟩ := carryOut_place config dispensary opened command
  rw [OpenDatabase.get?_keptOn _ _ (by rwa [places, accesses]), OpenDatabase.get?_keptOn _ _ apart]

/-- A command that is reached and asks for no deletion changes no row. -/
theorem Reaches.keeps (reaches : Reaches arguments disk invocation config dispensary opened)
    (asked : invocation.command.deletion? config dispensary = none) : disk.SameRows
      ((carryOut config dispensary opened invocation.command).2.keptOn (opened.keptOn disk)) := by
  rw [carryOut_of_none asked, OpenDatabase.keptOn_keptOn]
  exact OpenDatabase.sameRows_opened reaches.opens

/-- A command that is reached and asks for a deletion ends as the deletion does. -/
theorem Reaches.deletes (reaches : Reaches arguments disk invocation config dispensary opened)
    (asked : invocation.command.deletion? config dispensary = some deletion) :
    Deletes deletion opened disk (carryOut config dispensary opened invocation.command).1
      ((carryOut config dispensary opened invocation.command).2.keptOn (opened.keptOn disk)) := by
  -- What the command does is what the deletion does on the open database.
  rw [carryOut_of_deletion asked]
  refine ⟨rfl, fun place filed writes => ?_⟩
  obtain ⟨below, rows⟩ := OpenDatabase.rows_of_ofName reaches.opens filed writes
  -- The file keeps what the deletion leaves of the database.
  have same := OpenDatabase.run_eq writes deletion
  obtain ⟨places, accesses⟩ := OpenDatabase.run_place deletion opened
  refine ⟨rows, congrArg Prod.fst same, ?_⟩
  rw [OpenDatabase.rowsAt_keptOn (places.trans filed) below (accesses ▸ writes), same]

/-- A run changes only the file of its database, and that only if it may be written. -/
theorem get?_run {place : Place} (parsed : parse arguments = some invocation)
    (apart : ∀ reached, OpenDatabase.reach disk invocation.database = .ok reached →
      reached.place = some place → reached.access = .read) :
    (run arguments disk).2.get? place = disk.get? place := by
  -- A database that is opened has the place at which it was reached.
  have goes := run_goes arguments disk
  generalize run arguments disk = ran at goes
  cases goes with
  | refused | unconfigured | shown => rfl
  | unopened others =>
    -- A database that was reached but refused may have had its journal changed.
    obtain rfl := Option.some.inj (parsed.symm.trans others)
    rw [OpenDatabase.refusedOn]
    split
    · rfl
    · next reached reaches => exact OpenDatabase.get?_keptOn _ _ (apart reached reaches)
  | carriedOut reaches =>
    obtain rfl := Option.some.inj (parsed.symm.trans reaches.parsed)
    obtain ⟨reached, found, begins⟩ := OpenDatabase.reach_of_ofName reaches.opens
    obtain ⟨places, accesses, -⟩ := OpenDatabase.rows_begun begins
    -- Opening a database changes neither its place nor its access.
    refine get?_carryOut _ _ _ _ fun filed => ?_
    rw [accesses]
    exact apart reached found (places ▸ filed)

/-- A run changes no row if its command only looks or if the database is not opened. -/
theorem sameRows_run (parsed : parse arguments = some invocation)
    (looks : (∃ identity device, invocation.command = .count identity device) ∨
      (∃ identity, invocation.command = .pqDevices identity) ∨
      ∃ error, OpenDatabase.ofName disk invocation.database = .error error) :
    disk.SameRows (run arguments disk).2 := by
  -- Neither opening nor looking changes a row.
  have goes := run_goes arguments disk
  generalize run arguments disk = ran at goes
  cases goes with
  | refused | unconfigured | shown => exact fun _ => rfl
  | unopened => exact OpenDatabase.sameRows_refusedOn disk _
  | carriedOut reaches =>
    -- The command is none of the deletions.
    obtain rfl := Option.some.inj (parsed.symm.trans reaches.parsed)
    refine reaches.keeps ?_
    rcases looks with ⟨identity, device, named⟩ | ⟨identity, named⟩ | ⟨error, failed⟩
    · rw [named, Command.deletion?]
    · rw [named, Command.deletion?]
    · cases failed.symm.trans reaches.opens

/--
The command line changes only what it names.

Nothing changes if the arguments come to no command, if the configuration is refused and if it is shown.
Otherwise no file changes but that of the database, and no row in it but by a deletion that is asked for;
the deletion is that of a dispensary with the tables and the policy of the configuration. The exit code is
zero exactly if no step fails.
-/
theorem run_effects (arguments : List String) (disk : Disk) :
    Effects arguments disk (run arguments disk).1 (run arguments disk).2 where
  refused refusal refused := by rw [run, refused]
  unconfigured invocation error parsed failed := by
    simp only [run, interpret_of_parse parsed, failed]
  shown invocation parsed shows := by
    cases configured : configOf disk invocation with
    | error error => simp only [run, interpret_of_parse parsed, configured]
    | ok config => rw [run_showConfig parsed shows configured]
  elsewhere invocation place parsed apart := get?_run parsed apart
  outdated invocation config reached parsed configured acts found old other := by
    -- A file of another version is refused, and what it holds stays.
    rw [run_of_unopened parsed configured acts (OpenDatabase.ofName_of_version found old other)]
    exact ⟨rfl, OpenDatabase.sameRows_refusedOn disk invocation.database⟩
  keeps invocation parsed looks := sameRows_run parsed looks
  deletes invocation config opened parsed configured opens := by
    -- Showing the configuration asks for no deletion, so the command is reached.
    refine ⟨⟨config.tables⟩, make_of_configOf configured, fun deletion asked => ?_⟩
    have acts : invocation.command ≠ .showConfig := by
      rintro shows
      rw [shows] at asked
      cases asked
    have reaches : Reaches arguments disk invocation config ⟨config.tables⟩ opened :=
      ⟨parsed, configured, opens, make_of_configOf configured⟩
    rw [reaches.run acts]
    exact reaches.deletes asked
  code := run_code arguments disk

/--
Deleting an account removes its row from a database of version one, and leaves that of another account.

From a database of version two nothing is removed, though its writes are to stand beside it from then on.
-/
theorem run_effects_versions :
    let key := RowKey.mk "Keys" (List.replicate 16 0) [1]
    let others := Rows.empty.insert ⟨⟨"Keys", List.replicate 16 1, [1]⟩, []⟩
    let rows := others.insert ⟨key, []⟩
    let place := [Bytes.ofText "keys.db"]
    let disk (version : Int) (journal : Journal) : Disk :=
      ⟨[(place, .database ⟨⟨version, some rows⟩, journal⟩)], [], none⟩
    let arguments := ["--db", "keys.db", "delete-account", "00000000000000000000000000000000"]
    ((run arguments (disk 1 .behind)).1.code = 0 ∧
      (run arguments (disk 1 .behind)).2.rowsAt place = others) ∧
    (run arguments (disk 2 .behind)).1.code = 1 ∧
      (run arguments (disk 2 .behind)).2.rowsAt place = rows ∧
      (run arguments (disk 2 .behind)).2 = disk 2 .ahead := by
  intro key others rows place disk arguments
  have parsed : parse arguments =
      some ⟨"keys.db", none, .deleteAccount ⟨List.replicate 16 0, rfl⟩⟩ := by decide +kernel
  have acts : (Invocation.mk "keys.db" none (.deleteAccount ⟨List.replicate 16 0, rfl⟩)).command ≠
      .showConfig := by decide
  have reaches (version : Int) : OpenDatabase.reach (disk version .behind) "keys.db" =
      .ok ⟨⟨version, some rows⟩, some place, .ahead, .make⟩ := by
    clear_value rows
    with_unfolding_all rfl
  have opens : OpenDatabase.ofName (disk 1 .behind) "keys.db" =
      .ok ⟨⟨1, some rows⟩, some place, .ahead, .make⟩ := by
    rw [OpenDatabase.ofName, reaches]
    rfl
  have deleting := run_effects arguments (disk 1 .behind)
  have refusing := run_effects arguments (disk 2 .behind)
  -- The default tables make the dispensary of which the deletion is computed on the rows.
  obtain ⟨dispensary, made, deletes⟩ := deleting.deletes _ {} _ parsed rfl opens
  obtain rfl := Except.ok.inj made
  obtain ⟨ends, leaves⟩ := deletes _ rfl
  obtain ⟨-, answers, left⟩ := leaves place rfl (by decide)
  obtain ⟨failed, same⟩ :=
    refusing.outdated _ {} _ parsed rfl acts (reaches 2) (by decide) (by decide)
  have deleted : ((Dispensary.mk {}).deleteAccount {} ⟨List.replicate 16 0, rfl⟩).run
      (Database.mk 1 (some rows)) = (.ok (), ⟨1, some others⟩) := by decide +kernel
  have refused : (run arguments (disk 2 .behind)).2 = disk 2 .ahead := by
    rw [run_of_unopened parsed rfl acts
        (OpenDatabase.ofName_of_version (reaches 2) (by decide) (by decide)),
      OpenDatabase.refusedOn, reaches]
    rfl
  refine ⟨⟨?_, ?_⟩, failed, same place, refused⟩
  · rw [ends]
    exact congrArg (fun result => (finished result).code) (answers.trans (congrArg Prod.fst deleted))
  · exact left.trans (congrArg (fun result => result.2.rows) deleted)

end Admin

end KeyDispensary
