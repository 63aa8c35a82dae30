import KeyDispensary.Admin

/-!
Commands that are carried out. The command line comes to one if its arguments, the configuration and the
database allow it. Main statement: `Admin.Reaches.run`.
-/

namespace KeyDispensary

/-- What an open database leaves on a disk is there already when it leaves the same again. -/
theorem OpenDatabase.keptOn_keptOn (opened : OpenDatabase) (disk : Disk) :
    opened.keptOn (opened.keptOn disk) = opened.keptOn disk := by
  -- Only a database that a file holds leaves anything, and then it replaces what it left before.
  obtain ⟨database, place, journal, access⟩ := opened
  cases place with
  | none => rfl
  | some place =>
    simp only [keptOn]
    split
    · rfl
    · -- The file that was put there is removed and put again.
      simp [Disk.put, Disk.remove]

namespace Admin

/-- Arguments that come to an invocation are interpreted as that. -/
theorem interpret_of_parse {arguments : List String} {invocation : Invocation}
    (parsed : parse arguments = some invocation) : interpret arguments = .ok invocation := by
  -- Parsing forgets only what a refusal says.
  rw [parse] at parsed
  cases read : interpret arguments with
  | error refusal => rw [read] at parsed; cases parsed
  | ok other => rw [read] at parsed; exact congrArg _ (Option.some.inj parsed)

/-- Whether the command line comes to carry out its command, on a database that it has opened. -/
structure Reaches (arguments : List String) (disk : Disk) (invocation : Invocation) (config : Config)
    (dispensary : Dispensary) (opened : OpenDatabase) : Prop where
  parsed : parse arguments = some invocation
  configured : configOf disk invocation = .ok config
  opens : OpenDatabase.ofName disk invocation.database = .ok opened
  makes : Dispensary.make config.tables = .ok dispensary

variable {arguments : List String} {disk : Disk} {invocation : Invocation} {config : Config}
  {dispensary : Dispensary} {opened : OpenDatabase}

/-- A command that is reached is carried out, and the disk keeps what it leaves of the database. -/
theorem Reaches.run (reaches : Reaches arguments disk invocation config dispensary opened)
    (acts : invocation.command ≠ .showConfig) : Admin.run arguments disk =
      ((carryOut config dispensary opened invocation.command).1,
        (carryOut config dispensary opened invocation.command).2.keptOn (opened.keptOn disk)) := by
  -- Nothing that comes before the command has failed.
  simp only [Admin.run, interpret_of_parse reaches.parsed, reaches.configured, if_neg acts, onDatabase,
    reaches.opens, reaches.makes]

/-- Each device is printed on a line of its own, by the decimal digits of its id. -/
theorem deviceLines_eq (devices : List Device) : deviceLines devices =
    String.ofList (devices.flatMap fun device => Nat.toDigits 10 device.id.toNat ++ ['\n']) := by
  -- Joining the lines and then reading the characters is reading the characters line by line.
  induction devices with
  | nil => rfl
  | cons device rest ih =>
    -- The line of the first device stands before those of the others.
    have first : deviceLines (device :: rest) = s!"{device.id}\n" ++ deviceLines rest :=
      String.join_cons
    rw [first, ih, List.flatMap_cons, String.ofList_append, String.ofList_append]
    rfl

end Admin

end KeyDispensary
