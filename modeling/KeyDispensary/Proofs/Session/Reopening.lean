import KeyDispensary.Proofs.Session.Interchange

/-!
Sessions on a database file that is closed and opened again between calls, with its version changed or
not. Main statement: `Session.reopening_unseen`, by which no answer shows that the file was reopened.
-/

namespace KeyDispensary

variable {disk : Disk} {place : Place} {database : Database} {journal : Journal}

/-- What may be done to a session on a database file. -/
inductive Happening where
  | call (call : Call)
  /-- The file is closed, may be given a version, and is opened again. -/
  | reopen (version : Option Int)

/-- The call that is made, if one is. -/
def Happening.call? : Happening → Option Call
  | .call made => some made
  | .reopen _ => none

/-- What comes of something that is done. -/
inductive Report where
  /-- The file has answered a call. -/
  | answered (exchange : Exchange)
  /-- A call was made while the file could not be opened, and so it did not reach the file. -/
  | unheard (call : Call)
  | opened
  | refused (error : KeyError)

/-- The call that the file has answered, with its reply. -/
def Report.exchange? : Report → Option Exchange
  | .answered exchange => some exchange
  | .unheard _ | .opened | .refused _ => none

/-- The calls that the file has answered, with their replies. -/
def exchanges (reports : List Report) : List Exchange :=
  reports.filterMap Report.exchange?

/-- The calls that the file has answered. -/
def heard (reports : List Report) : List Call :=
  (exchanges reports).map Exchange.call

/-- The version that the file is found with, after it may have been given one. -/
def versionFound (version : Int) (given : Option Int) : Int :=
  (given.map Database.storedVersion).getD version

/--
What is reported when things are done to a file that has a version, and is open if that is the known one.

Zero and the known version are opened; any other is refused, until the file is given one that is not.
-/
inductive Reports : Int → List Happening → List Report → Prop where
  | nothing {version : Int} : Reports version [] []
  /-- A file that is open answers. -/
  | answered {exchange : Exchange} {happenings : List Happening} {reports : List Report} :
    Reports tableVersion happenings reports →
      Reports tableVersion (.call exchange.call :: happenings) (.answered exchange :: reports)
  /-- A file that could not be opened is not asked. -/
  | unheard {version : Int} {call : Call} {happenings : List Happening} {reports : List Report} :
    version ≠ tableVersion → Reports version happenings reports →
      Reports version (.call call :: happenings) (.unheard call :: reports)
  | opened {version : Int} {given : Option Int} {happenings : List Happening}
    {reports : List Report} :
    versionFound version given = 0 ∨ versionFound version given = tableVersion →
      Reports tableVersion happenings reports →
        Reports version (.reopen given :: happenings) (.opened :: reports)
  /-- A file of another version is not opened, and the error names the version. -/
  | refused {version : Int} {given : Option Int} {happenings : List Happening}
    {reports : List Report} :
    versionFound version given ≠ 0 → versionFound version given ≠ tableVersion →
      Reports (versionFound version given) happenings reports →
        Reports version (.reopen given :: happenings)
          (.refused (.store (.unavailable (.version (versionFound version given)))) :: reports)

namespace Session

/-- Does something to a session that works, or has worked, on the file at a place. -/
def undergo (place : Place) (session : Session) : Happening → Report × Session
  | .call call =>
    let (reply, next) := session.direct call
    (if session.host.source = .file place then .answered ⟨call, reply⟩ else .unheard call, next)
  | .reopen version =>
    match session.reopen place version with
    | (.ok (), next) => (.opened, next)
    | (.error error, next) => (.refused error, next)

/-- Does one thing after another. -/
def undergoAll (place : Place) : List Happening → Session → List Report × Session
  | [], session => ([], session)
  | happening :: rest, session =>
    let (report, next) := session.undergo place happening
    let (reports, last) := undergoAll place rest next
    (report :: reports, last)

end Session

/-! ### Databases -/

/-- A call changes the rows of a table at most, which stays where it is. -/
theorem Database.perform_table (version : Int) (table : Option Rows) (call : Call) :
    ∃ reply table', (Database.mk version table).perform call = (reply, ⟨version, table'⟩) ∧
      (table' = none → table = none) := by
  cases table with
  | none => exact ⟨_, none, rfl, fun _ => rfl⟩
  -- What a call leaves in a table is a table.
  | some rows =>
    exact ⟨_, some (performOn rows call).2, rfl, fun missing => absurd missing (Option.some_ne_none _)⟩

/-! ### The file -/

namespace Disk

/-- Whether no row changes from one disk to another but in the file at a place. -/
def SameElsewhere (place : Place) (before after : Disk) : Prop :=
  ∀ other, other ≠ place → after.rowsAt other = before.rowsAt other

/-- Putting something at a place changes no row elsewhere. -/
theorem sameElsewhere_put (disk : Disk) (place : Place) (content : FileContent) :
    disk.SameElsewhere place (disk.put place content) := by
  intro other apart
  exact rowsAt_congr (disk.get?_put_other apart content)

/-- A database with the same rows may be put in place of another. -/
theorem sameRows_put {file next : DatabaseFile} (found : disk.database place = .ok file)
    (same : next.database.rows = file.database.rows) :
    disk.SameRows (disk.put place (.database next)) := by
  intro other
  by_cases apart : other = place
  · -- At the place stands the other database, with the rows of the first.
    subst apart
    have below := below_of_database found
    rw [rowsAt_of_database (disk.database_put below next), rowsAt_of_database found, same]
  · exact disk.sameElsewhere_put place _ other apart

end Disk

namespace Host

/-- Whether a host works on the file at a place, in which the given database stands. -/
structure Holds (place : Place) (database : Database) (host : Host) : Prop where
  source : host.source = .file place
  found : ∃ journal, host.disk.database place = .ok ⟨database, journal⟩

variable {host : Host}

/-- A file answers a call as its database does, and holds what that leaves. -/
theorem Holds.perform (holds : host.Holds place database) (call : Call) :
    (Store.perform host call).1 = (database.perform call).1 ∧
      (Store.perform host call).2.Holds place (database.perform call).2 ∧
      host.disk.SameElsewhere place (Store.perform host call).2.disk := by
  obtain ⟨journal, found⟩ := holds.found
  -- What the database leaves is put where it was found.
  have performed : Store.perform host call = ((database.perform call).1,
      { host with disk := host.disk.put place (.database ⟨(database.perform call).2, journal⟩) }) := by
    change Host.perform host call = _
    rw [Host.perform, holds.source]
    simp only [found]
  rw [performed]
  have below := Disk.below_of_database found
  exact ⟨rfl, ⟨holds.source, journal, host.disk.database_put below _⟩,
    host.disk.sameElsewhere_put place _⟩

/-- A file answers calls as its database does, one after another. -/
theorem Holds.performAll (holds : host.Holds place database) (calls : List Call) :
    (performAll calls host).1 = (performAll calls database).1 ∧
      (KeyDispensary.performAll calls host).2.Holds place (KeyDispensary.performAll calls database).2 ∧
      host.disk.SameElsewhere place (KeyDispensary.performAll calls host).2.disk := by
  -- The calls are made one after another.
  induction calls generalizing host database with
  | nil => exact ⟨rfl, holds, fun other apart => rfl⟩
  | cons call rest ih =>
    -- The file still holds a database after the first call, from which the others go on.
    obtain ⟨reply, further, elsewhere⟩ := holds.perform call
    obtain ⟨exchanges, ends, elsewhere'⟩ := ih further
    refine ⟨?_, ends, fun other apart => (elsewhere' other apart).trans (elsewhere other apart)⟩
    simp only [KeyDispensary.performAll, reply, exchanges]
    rfl

end Host

namespace Session

/-- Whether the file at a place holds a database, and a session works on it or could not open it. -/
inductive Keeps (place : Place) (database : Database) (session : Session) : Prop where
  | working (holds : session.host.Holds place database) (known : database.version = tableVersion)
  | barred {memory : Memory} {journal : Journal} (source : session.host.source = .memory memory)
    (found : session.host.disk.database place = .ok ⟨database, journal⟩)
    (old : database.version ≠ 0) (other : database.version ≠ tableVersion)

/-- How a session goes on from a file that is found with a version and a table, or none. -/
inductive Reopens (place : Place) (version : Int) (table : Option Rows) :
    Except KeyError Unit × Session → Prop where
  /-- A file without a version gets the table, unless it has it. -/
  | made {next : Session} (new : version = 0)
    (keeps : next.Keeps place ⟨tableVersion, some (table.getD Rows.empty)⟩) :
    Reopens place version table (.ok (), next)
  | taken {next : Session} (known : version = tableVersion)
    (keeps : next.Keeps place ⟨tableVersion, table⟩) : Reopens place version table (.ok (), next)
  | refused {next : Session} (old : version ≠ 0) (other : version ≠ tableVersion)
    (keeps : next.Keeps place ⟨version, table⟩) :
    Reopens place version table (.error (.store (.unavailable (.version version))), next)

variable {session : Session} {version : Int} {table : Option Rows}

/-- A file that is closed may be given a version, and has the same rows. -/
theorem found_given (found : disk.database place = .ok ⟨⟨version, table⟩, journal⟩)
    (given : Option Int) :
    let ready := (given.map (setVersion disk place)).getD disk
    ready.database place = .ok ⟨⟨versionFound version given, table⟩, journal⟩ ∧
      disk.SameRows ready := by
  cases given with
  | none => exact ⟨found, fun other => rfl⟩
  | some given =>
    -- Giving a version changes nothing else about the file.
    have set : setVersion disk place given =
        disk.put place (.database ⟨⟨Database.storedVersion given, table⟩, journal⟩) := by
      rw [setVersion, found]
      rfl
    have below := Disk.below_of_database found
    change (setVersion disk place given).database place = _ ∧ disk.SameRows (setVersion disk place given)
    rw [set]
    exact ⟨disk.database_put below _, Disk.sameRows_put found rfl⟩

/-- A file that is opened is held from then on, and its rows are the same. -/
theorem openFile_of_opened {next : Database}
    (found : disk.database place = .ok ⟨database, journal⟩) (opened : database.opened = .ok next) :
    ∃ host, Host.openFile disk place = .ok host ∧ host.Holds place next ∧
      disk.SameRows host.disk := by
  have below := Disk.below_of_database found
  have stands : (disk.put place (.database ⟨next, .ahead⟩)).database place = .ok ⟨next, .ahead⟩ :=
    disk.database_put below _
  rw [Host.openFile, found]
  simp only [opened]
  -- Who holds the file does not matter for what stands in it.
  exact ⟨_, rfl, ⟨rfl, .ahead, stands⟩, Disk.sameRows_put found (Database.rows_opened opened)⟩

/-- What closing a file and opening it again comes to, by the version that it is found with. -/
theorem reopen_cases (found : session.host.disk.database place = .ok ⟨⟨version, table⟩, journal⟩)
    (given : Option Int) :
    Reopens place (versionFound version given) table (session.reopen place given) ∧
      session.host.disk.SameRows (session.reopen place given).2.host.disk := by
  have closed : ({ session.host.disk with held := none } : Disk).database place =
      .ok ⟨⟨version, table⟩, journal⟩ := found
  obtain ⟨ready, same⟩ := found_given closed given
  rw [reopen]
  simp only
  generalize versionFound version given = now at ready
  generalize (given.map (setVersion { session.host.disk with held := none } place)).getD
    { session.host.disk with held := none } = disk at ready same ⊢
  by_cases new : now = 0
  · -- A table is made unless there is one.
    have made : (Database.mk now table).opened =
        .ok ⟨tableVersion, some (table.getD Rows.empty)⟩ := if_pos new
    obtain ⟨host, opens, holds, kept⟩ := openFile_of_opened ready made
    rw [opens]
    exact ⟨.made new (.working holds rfl), fun other => (kept other).trans (same other)⟩
  · by_cases known : now = tableVersion
    · -- The file is taken as it is.
      subst known
      have taken : (Database.mk tableVersion table).opened = .ok ⟨tableVersion, table⟩ := rfl
      obtain ⟨host, opens, holds, kept⟩ := openFile_of_opened ready taken
      rw [opens]
      exact ⟨.taken rfl (.working holds rfl), fun other => (kept other).trans (same other)⟩
    · -- The session goes on without the file, which stays as it was found.
      have refused : Host.openFile disk place = .error (.unavailable (.version now)) := by
        rw [Host.openFile, ready]
        simp only [Database.opened, if_neg new, if_neg known]
        rfl
      rw [refused]
      exact ⟨.refused new known (.barred rfl ready new known), same⟩

/-- A database that a session keeps has a version. -/
theorem Keeps.version_ne (keeps : session.Keeps place database) : database.version ≠ 0 := by
  cases keeps with
  | working holds known =>
    rw [known]
    decide
  | barred source found old other => exact old

/-- The file of a session that keeps its database. -/
theorem Keeps.found (keeps : session.Keeps place database) :
    ∃ journal, session.host.disk.database place = .ok ⟨database, journal⟩ := by
  cases keeps with
  | working holds known => exact holds.found
  | barred source found old other => exact ⟨_, found⟩

/-- A session works on a file of the known version. -/
theorem Keeps.holds_of_known (keeps : session.Keeps place database)
    (known : database.version = tableVersion) : session.host.Holds place database := by
  cases keeps with
  | working holds _ => exact holds
  | barred _ _ _ other => exact absurd known other

/-- No file is given the version zero that has no table, and so none gets one. -/
def GivesNoTable (table : Option Rows) (happenings : List Happening) : Prop :=
  table = none → ∀ given, .reopen (some given) ∈ happenings → Database.storedVersion given ≠ 0

/-- A table that is there is kept when the file is opened. -/
theorem getD_of_found_zero {given : Option Int} {rest : List Happening} (old : version ≠ 0)
    (new : versionFound version given = 0) (none : GivesNoTable table (.reopen given :: rest)) :
    some (table.getD Rows.empty) = table := by
  cases table with
  | some rows => rfl
  | none =>
    -- Without a table, only the version that is given could be zero.
    cases given with
    | none => exact absurd new old
    | some given => exact absurd new (none rfl given List.mem_cons_self)

/--
What was done to a session, from a database with a table or none: what was reported, the answers to the
calls that the file has heard, and the rows that they leave.
-/
structure Ran (place : Place) (before : Session) (version : Int) (table : Option Rows)
    (happenings : List Happening) (ran : List Report × Session) : Prop where
  reports : Reports version happenings ran.1
  answers : exchanges ran.1 = (performAll (heard ran.1) (Database.mk tableVersion table)).1
  keeps : ∃ version, ran.2.Keeps place
    ⟨version, (performAll (heard ran.1) (Database.mk tableVersion table)).2.table⟩
  elsewhere : before.host.disk.SameElsewhere place ran.2.host.disk

/-- A file that a session works on answers a call, and the session works on. -/
theorem undergo_working (holds : session.host.Holds place database) (call : Call) :
    ∃ next, session.undergo place (.call call) = (.answered ⟨call, (database.perform call).1⟩, next) ∧
      next.host.Holds place (database.perform call).2 ∧
      session.host.disk.SameElsewhere place next.host.disk := by
  obtain ⟨reply, further, elsewhere⟩ := holds.perform call
  refine ⟨(session.direct call).2, ?_, further, elsewhere⟩
  have same : (session.direct call).1 = (database.perform call).1 := reply
  simp only [undergo, if_pos holds.source, same]

/-- A call does not reach a file that could not be opened, and changes nothing on the disk. -/
theorem undergo_barred {memory : Memory} (source : session.host.source = .memory memory)
    (call : Call) :
    ∃ next memory', session.undergo place (.call call) = (.unheard call, next) ∧
      next.host.source = .memory memory' ∧ next.host.disk = session.host.disk := by
  -- The store in memory answers, which stands in for the file.
  have performed : (session.direct call).2.host =
      ⟨session.host.disk, .memory (memory.perform call).2⟩ := by
    change (Host.perform session.host call).2 = _
    rw [Host.perform, source]
  -- The host does not work on the file.
  have apart : session.host.source ≠ .file place := by
    rw [source]
    intro same
    cases same
  refine ⟨(session.direct call).2, (memory.perform call).2, ?_, by rw [performed], by rw [performed]⟩
  simp only [undergo, if_neg apart]

/-- A call that the file answers goes before what is done later. -/
theorem Ran.answered {next : Session} {call : Call} {reply : Reply call} {table' : Option Rows}
    {rest : List Happening} {ran : List Report × Session}
    (performed : (Database.mk tableVersion table).perform call = (reply, ⟨tableVersion, table'⟩))
    (later : Ran place next tableVersion table' rest ran)
    (elsewhere : session.host.disk.SameElsewhere place next.host.disk) :
    Ran place session tableVersion table (.call call :: rest)
      (.answered ⟨call, reply⟩ :: ran.1, ran.2) := by
  -- Without being reopened the database makes the same call first.
  have all : performAll (heard (.answered ⟨call, reply⟩ :: ran.1)) (Database.mk tableVersion table) =
      (⟨call, reply⟩ :: (performAll (heard ran.1) (Database.mk tableVersion table')).1,
        (performAll (heard ran.1) (Database.mk tableVersion table')).2) := by
    have first : Store.perform (Database.mk tableVersion table) call =
        (reply, ⟨tableVersion, table'⟩) := performed
    change performAll (call :: heard ran.1) _ = _
    rw [performAll, first]
  constructor
  · exact @Reports.answered ⟨call, reply⟩ _ _ later.reports
  · -- The answers are its reply and what the others are answered.
    rw [all, ← later.answers]
    rfl
  · -- The file holds what the database is left with.
    rw [all]
    exact later.keeps
  · intro other apart
    exact (later.elsewhere other apart).trans (elsewhere other apart)

/-- What the file is not asked, or an opening, goes before what is done later. -/
theorem Ran.silent {next : Session} {happening : Happening} {report : Report} {version' : Int}
    {rest : List Happening} {ran : List Report × Session} (silent : report.exchange? = none)
    (reports : Reports version (happening :: rest) (report :: ran.1))
    (later : Ran place next version' table rest ran)
    (elsewhere : session.host.disk.SameElsewhere place next.host.disk) :
    Ran place session version table (happening :: rest) (report :: ran.1, ran.2) := by
  -- The calls that the file answers are those that come later.
  have same : exchanges (report :: ran.1) = exchanges ran.1 := List.filterMap_cons_none silent
  constructor
  · exact reports
  · rw [heard, same]
    exact later.answers
  · rw [heard, same]
    exact later.keeps
  · intro other apart
    exact (later.elsewhere other apart).trans (elsewhere other apart)

/-- Whatever is done to a session, its file answers as its database does without being reopened. -/
theorem Keeps.undergoAll (keeps : session.Keeps place ⟨version, table⟩) {happenings : List Happening}
    (none : GivesNoTable table happenings) :
    Ran place session version table happenings (undergoAll place happenings session) := by
  -- Each thing that is done leaves a session that keeps a database again.
  induction happenings generalizing session version table with
  | nil => exact ⟨.nothing, rfl, ⟨version, keeps⟩, fun other apart => rfl⟩
  | cons happening rest ih =>
    have later : GivesNoTable table rest :=
      fun missing given member => none missing given (.tail _ member)
    rw [Session.undergoAll]
    cases happening with
    | call call =>
      cases keeps with
      | working holds known =>
        -- The file answers, and holds what the call leaves.
        obtain rfl : version = tableVersion := known
        obtain ⟨reply, table', performed, kept⟩ := Database.perform_table tableVersion table call
        obtain ⟨next, ran, further, elsewhere⟩ := undergo_working holds call
        rw [performed] at ran further
        rw [ran]
        -- The call has made no table either.
        exact .answered performed (ih (.working further rfl) fun missing => later (kept missing))
          elsewhere
      | barred source found old other =>
        -- The file is as it was, and still cannot be opened.
        obtain ⟨next, memory, ran, source', same⟩ := undergo_barred source call
        have rested := ih (.barred source' (same ▸ found) old other) later
        rw [ran]
        exact .silent rfl (.unheard other rested.reports) rested fun place apart => by rw [same]
    | reopen given =>
      obtain ⟨journal, found⟩ := keeps.found
      obtain ⟨reopens, same⟩ := reopen_cases found given
      rw [undergo]
      generalize session.reopen place given = outcome at reopens same
      have elsewhere : session.host.disk.SameElsewhere place outcome.2.host.disk :=
        fun other apart => same other
      -- The table is the same after each way to go on.
      cases reopens with
      | made new keeps' =>
        rw [getD_of_found_zero keeps.version_ne new none] at keeps'
        have rested := ih keeps' later
        exact .silent rfl (.opened (.inl new) rested.reports) rested elsewhere
      | taken known keeps' =>
        have rested := ih keeps' later
        exact .silent rfl (.opened (.inr known) rested.reports) rested elsewhere
      | refused old other keeps' =>
        have rested := ih keeps' later
        exact .silent rfl (.refused old other rested.reports) rested elsewhere

/-! ### Files that were opened -/

/-- A file that was opened is worked on; it lacks a table only if it had none under the known version. -/
theorem exists_holds_of_openFile (opens : Host.openFile disk place = .ok session.host) :
    ∃ table, session.host.Holds place ⟨tableVersion, table⟩ ∧
      (table = none → ∃ journal, disk.database place = .ok ⟨⟨tableVersion, none⟩, journal⟩) := by
  cases found : disk.database place with
  | error error =>
    rw [Host.openFile, found] at opens
    cases opens
  | ok file =>
    obtain ⟨database, journal⟩ := file
    cases opened : database.opened with
    | error error =>
      -- A database of another version is refused.
      rw [Host.openFile, found] at opens
      simp only [opened] at opens
      cases opens
    | ok next =>
      obtain ⟨host, opens', holds, _⟩ := openFile_of_opened found opened
      obtain rfl := Except.ok.inj (opens'.symm.trans opens)
      -- A file without a version gets a table, and one of the known version is taken as it is.
      rw [Database.opened] at opened
      split at opened
      · cases opened
        exact ⟨_, holds, fun missing => absurd missing (Option.some_ne_none _)⟩
      · split at opened
        · next known =>
          cases opened
          obtain ⟨version, table⟩ := database
          obtain rfl : version = tableVersion := known
          refine ⟨table, holds, ?_⟩
          intro missing
          subst missing
          exact ⟨journal, rfl⟩
        · cases opened

/-- As long as a file is given no other version than zero and the known one, it hears all calls. -/
theorem heard_of_known {happenings : List Happening} {reports : List Report}
    (reported : Reports version happenings reports) (known : version = tableVersion)
    (usual : ∀ given, .reopen (some given) ∈ happenings → given = 0 ∨ given = tableVersion) :
    heard reports = happenings.filterMap Happening.call? := by
  -- The induction is on the reports, and the version of the file stays the known one.
  induction reported with
  | nothing => rfl
  | @answered exchange happenings reports _ ih =>
    have others := ih rfl fun given member => usual given (.tail _ member)
    exact congrArg (exchange.call :: ·) others
  | unheard other _ _ => exact absurd known other
  | opened _ _ ih => exact ih rfl fun given member => usual given (.tail _ member)
  | @refused version given happenings reports old other _ _ =>
    -- A version that is given is stored as it is, and otherwise the file has the known one.
    cases given with
    | none => exact absurd known other
    | some given =>
      rcases usual given List.mem_cons_self with rfl | rfl
      · exact absurd rfl old
      · exact absurd rfl other

/--
What is known after things were done to a session that worked on the file at a place, next to a host that
has answered the same calls and was not reopened.
-/
structure Unseen (place : Place) (session : Session) (happenings : List Happening)
    (reports : List Report) (left : Session) : Prop where
  /-- The file was opened, or refused, by the version that it was found with, and answered while open. -/
  course : Reports tableVersion happenings reports
  /-- Its answers do not show that it was reopened. -/
  answers : exchanges reports = (performAll (heard reports) session.host).1
  /-- It has answered all calls if it was given no other version than zero and the known one. -/
  all : (∀ given, .reopen (some given) ∈ happenings → given = 0 ∨ given = tableVersion) →
    heard reports = happenings.filterMap Happening.call?
  /-- The rows of all files are those that the calls leave. -/
  rows : (performAll (heard reports) session.host).2.disk.SameRows left.host.disk
  /-- Given one of the two versions the file is opened again, whatever was done, and shows these rows. -/
  shown : ∀ given, given = 0 ∨ given = tableVersion →
    (left.reopen place (some given)).1 = .ok () ∧
      (left.reopen place (some given)).2.host.source = .file place ∧
      (performAll (heard reports) session.host).2.disk.SameRows
        (left.reopen place (some given)).2.host.disk

/-- What was done to a session next to a host that was not reopened. -/
theorem Ran.unseen {happenings : List Happening} {ran : List Report × Session}
    (ran' : Ran place session tableVersion table happenings ran)
    (holds : session.host.Holds place ⟨tableVersion, table⟩) :
    Unseen place session happenings ran.1 ran.2 := by
  -- A host that is not reopened is asked the same calls.
  obtain ⟨plain, ⟨_, journal, found⟩, elsewhere⟩ := holds.performAll (heard ran.1)
  obtain ⟨version, keeps⟩ := ran'.keeps
  obtain ⟨journal', found'⟩ := keeps.found
  -- At the place stand the rows of the table, and elsewhere those from before.
  have rows : (performAll (heard ran.1) session.host).2.disk.SameRows ran.2.host.disk := by
    intro other
    by_cases apart : other = place
    · subst apart
      rw [Disk.rowsAt_of_database found, Disk.rowsAt_of_database found']
      rfl
    · exact (ran'.elsewhere other apart).trans (elsewhere other apart).symm
  refine ⟨ran'.reports, ran'.answers.trans plain.symm, heard_of_known ran'.reports rfl, rows, ?_⟩
  intro given usual
  obtain ⟨reopens, same⟩ := reopen_cases found' (some given)
  have stored : versionFound version (some given) = given := by
    rcases usual with rfl | rfl <;> rfl
  rw [stored] at reopens
  generalize ran.2.reopen place (some given) = outcome at reopens same
  have rows' := fun other => (same other).trans (rows other)
  -- Neither of the two versions is refused, and a file that is opened is worked on.
  cases reopens with
  | made new keeps => exact ⟨rfl, (keeps.holds_of_known rfl).source, rows'⟩
  | taken known keeps => exact ⟨rfl, (keeps.holds_of_known rfl).source, rows'⟩
  | refused old other keeps => exact absurd usual (not_or.2 ⟨old, other⟩)

/--
No answer shows that a database file was closed and opened again between calls, whatever versions it was
given and however often it was refused, and rows are changed by nothing but the calls. A file of a version
that is neither zero nor the known one is refused.

The file must not get its table by being reopened, as one does that has none and is given the version zero.
-/
theorem reopening_unseen (opened : Host.openFile disk place = .ok session.host)
    {happenings : List Happening}
    (tabled : ∀ journal, disk.database place = .ok ⟨⟨tableVersion, none⟩, journal⟩ →
      ∀ given, .reopen (some given) ∈ happenings → Database.storedVersion given ≠ 0) :
    Unseen place session happenings (session.undergoAll place happenings).1
        (session.undergoAll place happenings).2 ∧
      ∀ (other : Session) (place' : Place) (file : DatabaseFile) (given : Option Int),
        other.host.disk.database place' = .ok file →
        versionFound file.database.version given ≠ 0 →
        versionFound file.database.version given ≠ tableVersion →
          (other.reopen place' given).1 = .error (.store (.unavailable
              (.version (versionFound file.database.version given)))) ∧
            other.host.disk.SameRows (other.reopen place' given).2.host.disk := by
  constructor
  · obtain ⟨table, holds, missing⟩ := exists_holds_of_openFile opened
    have none : GivesNoTable table happenings := by
      intro empty
      obtain ⟨journal, found⟩ := missing empty
      exact tabled journal found
    -- A session that works on the file keeps its table.
    have keeps : session.Keeps place ⟨tableVersion, table⟩ := .working holds rfl
    exact (keeps.undergoAll none).unseen holds
  · intro other place' file given found old unknown
    obtain ⟨reopens, same⟩ := reopen_cases found given
    refine ⟨?_, same⟩
    generalize other.reopen place' given = outcome at reopens
    -- The version decides, and it is not one of the two that are opened.
    cases reopens with
    | made new keeps => exact absurd new old
    | taken known keeps => exact absurd known unknown
    | refused => rfl

/--
A new file is reopened under zero, refused under the version 7 as often as it is tried, and opened again;
meanwhile rows are put and a transaction fails.
-/
theorem reopening_unseen_refused :
    let place : Place := [[107]]
    let host : Host := ⟨⟨[(place, .database ⟨⟨tableVersion, some Rows.empty⟩, .ahead⟩)], [],
      some ⟨place, Database.fresh⟩⟩, .file place⟩
    let session : Session := ⟨⟨host, [], []⟩, ⟨{}⟩, {}, .current, []⟩
    let get : Call := .get "keys" ⟨[1], [2]⟩
    let transact : Call := .transact [.delete "keys" ⟨[1], [2]⟩, .check "keys" ⟨[1], [3]⟩ .present]
    let happenings : List Happening := [.call (.put "keys" ⟨⟨[1], [2]⟩, [9]⟩), .reopen (some 0),
      .call get, .call transact, .reopen (some 7), .call get, .reopen none, .reopen (some 1), .call get]
    let ran := session.undergoAll place happenings
    (Host.openFile ⟨[], [], none⟩ place = .ok session.host ∧
      ∀ journal, (⟨[], [], none⟩ : Disk).database place = .ok ⟨⟨tableVersion, none⟩, journal⟩ →
        ∀ given, .reopen (some given) ∈ happenings → Database.storedVersion given ≠ 0) ∧
    Unseen place session happenings ran.1 ran.2 ∧
    exchanges ran.1 = [⟨.put "keys" ⟨⟨[1], [2]⟩, [9]⟩, .ok ()⟩, ⟨get, .ok (some [9])⟩,
      ⟨transact, .error (.conflict (.unmet .present "keys"))⟩, ⟨get, .ok (some [9])⟩] ∧
    (session.reopen place (some 7)).1 = .error (.store (.unavailable (.version 7))) := by
  intro place host session get transact happenings ran
  have opened : Host.openFile ⟨[], [], none⟩ place = .ok session.host := rfl
  -- A file that is missing has no version, so it gets its table when it is opened.
  have tabled : ∀ journal,
      (⟨[], [], none⟩ : Disk).database place = .ok ⟨⟨tableVersion, none⟩, journal⟩ →
        ∀ given, .reopen (some given) ∈ happenings → Database.storedVersion given ≠ 0 := by
    intro journal found
    have fresh : (0 : Int) = tableVersion :=
      congrArg (fun file => file.database.version) (Except.ok.inj found)
    exact absurd fresh (by decide)
  obtain ⟨unseen, refused⟩ := reopening_unseen opened tabled
  have found : session.host.disk.database place =
      .ok ⟨⟨tableVersion, some Rows.empty⟩, .ahead⟩ := rfl
  exact ⟨⟨opened, tabled⟩, unseen, rfl,
    (refused session place _ (some 7) found (by decide) (by decide)).1⟩

/-- A file of the known version without a table gets one when it is given the version zero. -/
theorem reopening_makes_table :
    let place : Place := [[107]]
    let disk : Disk := ⟨[(place, .database ⟨⟨tableVersion, none⟩, .behind⟩)], [], none⟩
    let host : Host := ⟨⟨[(place, .database ⟨⟨tableVersion, none⟩, .ahead⟩)], [],
      some ⟨place, ⟨tableVersion, none⟩⟩⟩, .file place⟩
    let session : Session := ⟨⟨host, [], []⟩, ⟨{}⟩, {}, .current, []⟩
    let get : Call := .get "keys" ⟨[1], [2]⟩
    let happenings : List Happening := [.call get, .reopen (some 0), .call get]
    Host.openFile disk place = .ok session.host ∧
      exchanges (session.undergoAll place happenings).1 =
        [⟨get, .error (.database .noTable)⟩, ⟨get, .ok none⟩] ∧
      (performAll (happenings.filterMap Happening.call?) session.host).1 =
        [⟨get, .error (.database .noTable)⟩, ⟨get, .error (.database .noTable)⟩] ∧
      exchanges (session.undergoAll place happenings).1 ≠
        (performAll (happenings.filterMap Happening.call?) session.host).1 := by
  intro place disk host session get happenings
  have reopened : exchanges (session.undergoAll place happenings).1 =
      [⟨get, .error (.database .noTable)⟩, ⟨get, .ok none⟩] := rfl
  have plain : (performAll (happenings.filterMap Happening.call?) session.host).1 =
      [⟨get, .error (.database .noTable)⟩, ⟨get, .error (.database .noTable)⟩] := rfl
  refine ⟨rfl, reopened, plain, ?_⟩
  rw [reopened, plain]
  -- The second call finds nothing where it would have failed.
  simp

end Session

end KeyDispensary
