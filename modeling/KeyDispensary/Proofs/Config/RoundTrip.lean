import KeyDispensary.Proofs.Admin.Commands
import KeyDispensary.Proofs.Config.Overrides
import KeyDispensary.Proofs.Text.Utf8

/-!
A configuration is read back from the text that shows it, whatever its table names are, if these are
sound; so a shown configuration can be given back as a file. Main statement: `Config.shown_again`.
-/

namespace KeyDispensary

open Json

/-- The settings of a configuration, all of them given. -/
def Config.settings (config : Config) : Overrides where
  tables := some
    { ecPool := some config.tables.ecPool
      pqPool := some config.tables.pqPool
      legacy := some config.tables.legacy
      lastResort := some config.tables.lastResort }
  policy := some
    { stores := some config.policy.storesLegacy
      deletes := some config.policy.deletesLegacy }

namespace Config

/-- A configuration of which all settings are given is that configuration. -/
theorem settings_config (config : Config) : config.settings.config = config :=
  rfl

/-! ### What is shown is a document -/

/-- The members of a shown configuration. -/
def members (config : Config) : List (String × List Char) :=
  [("tables", writeBlock 1 config.tables.members), ("migration", writeBlock 1 config.policy.members)]

/-- A flag is spelled as it is written. -/
theorem spellsFlag_writeFlag (value : Bool) : SpellsFlag value (writeFlag value) := by
  -- Both flags are words.
  cases value with
  | false => exact .no
  | true => exact .yes

/-- The table names are spelled as they are shown. -/
theorem spelled_tables (tables : Tables) : SpellsObject tables.members (writeBlock 1 tables.members) :=
  -- All values are strings.
  spellsObject_writeBlock 1 (by simp [Tables.members, isValue_writeString])

/-- The flags are spelled as they are shown. -/
theorem spelled_policy (policy : Policy) : SpellsObject policy.members (writeBlock 1 policy.members) :=
  -- All values are flags.
  spellsObject_writeBlock 1 (by simp [Policy.members, isValue_writeFlag])

/-- The members of shown table names give these names. -/
theorem given_tables (tables : Tables) : TableOverrides.GivenBy
    ⟨some tables.ecPool, some tables.pqPool, some tables.legacy, some tables.lastResort⟩
      tables.members := by
  -- Each name stands alone among the others.
  obtain ⟨ecPool, pqPool, legacy, lastResort⟩ := tables
  refine ⟨.once (List.nil_append _).symm ?_ (spellsText_writeString ecPool),
    .once (List.singleton_append).symm ?_ (spellsText_writeString pqPool),
    .once (show _ = [_, _] ++ _ from rfl) ?_ (spellsText_writeString legacy),
    .once (show _ = [_, _, _] ++ _ from rfl) ?_ (spellsText_writeString lastResort)⟩ <;>
    simp [Tables.ecPoolField, Tables.pqPoolField, Tables.legacyField, Tables.lastResortField]

/-- The members of a shown policy give its flags. -/
theorem given_policy (policy : Policy) : PolicyOverrides.GivenBy
    ⟨some policy.storesLegacy, some policy.deletesLegacy⟩ policy.members := by
  -- Each flag stands alone next to the other.
  obtain ⟨stores, deletes⟩ := policy
  refine ⟨.once (List.nil_append _).symm ?_ (spellsFlag_writeFlag stores),
    .once (List.singleton_append).symm ?_ (spellsFlag_writeFlag deletes)⟩ <;>
    simp [Policy.storesField, Policy.deletesField]

/-- The sections of a shown configuration give all its settings. -/
theorem given_members (config : Config) : config.settings.GivenBy config.members := by
  -- Each section stands alone next to the other.
  have tables : TableOverrides.SpelledAs _ _ := ⟨_, spelled_tables _, given_tables config.tables⟩
  have policy : PolicyOverrides.SpelledAs _ _ := ⟨_, spelled_policy _, given_policy config.policy⟩
  exact ⟨.once (List.nil_append _).symm (by simp) tables,
    .once (List.singleton_append).symm (by simp) policy⟩

/-- What is shown of a configuration is a document, also with blanks behind it. -/
theorem spelled_text (config : Config) {blanks : List Char} (blank : Blank blanks) :
    SpellsDocument config.members (config.text.toList ++ blanks) := by
  -- The two sections are objects on lines of their own.
  have values : ∀ member ∈ config.members, IsValue member.2 := by
    simp [members, (spelled_tables config.tables).isValue, (spelled_policy config.policy).isValue]
  have spells := SpellsDocument.blanks blank_nil (spellsObject_writeBlock 0 values) blank
  rwa [List.nil_append, ← String.toList_ofList (l := writeBlock 0 config.members)] at spells

/-- What is shown of a configuration is read back, also with blanks behind it, and its names are checked. -/
theorem parse_shown (config : Config) {text : String} {blanks : List Char} (blank : Blank blanks)
    (shown : text.toList = config.text.toList ++ blanks) : Config.parse text =
      if "" ∈ config.tables.names then .error (.misconfigured .emptyTableName)
      else if config.tables.names.Nodup then .ok config
      else .error (.misconfigured .sharedTableName) := by
  -- The document gives all settings, so that none is the usual one.
  have spells := config.spelled_text blank
  rw [← shown] at spells
  have parsed := Config.parse_overrides spells config.given_members
  rwa [settings_config] at parsed

/-- The table names of a configuration that was read are sound. -/
theorem sound_of_parse {text : String} {config : Config} (parsed : Config.parse text = .ok config) :
    "" ∉ config.tables.names ∧ config.tables.names.Nodup := by
  -- The names are checked after all else was read.
  rw [Config.parse] at parsed
  split at parsed
  · cases parsed
  · rw [Config.checked] at parsed
    split at parsed
    · cases parsed
    · split at parsed
      · cases parsed
        exact ⟨‹_›, ‹_›⟩
      · cases parsed

end Config

namespace Admin

/-- The configuration of an invocation has sound table names. -/
theorem sound_of_configOf {disk : Disk} {invocation : Invocation} {config : Config}
    (configured : configOf disk invocation = .ok config) :
    "" ∉ config.tables.names ∧ config.tables.names.Nodup := by
  -- The usual names are sound, and those of a file were checked.
  rw [configOf] at configured
  split at configured
  · cases configured
    decide
  · rw [Config.load] at configured
    split at configured
    · cases configured
    · exact Config.sound_of_parse configured

/-- The file that is named for a configuration gives the one that its text stands for. -/
theorem configOf_file {disk : Disk} {invocation : Invocation} {path text : String} {place : Place}
    {config : Config} (named : invocation.config = some path)
    (leads : disk.follow (Path.ofText path) = .ok place)
    (holds : disk.get? place = some (.bytes (Bytes.ofText text)))
    (parsed : Config.parse text = .ok config) : configOf disk invocation = .ok config := by
  -- The path leads to the file, whose bytes are the text.
  simp only [configOf, named, Config.load, Disk.readText, leads, holds, Utf8.decode_ofText, parsed]

/-- Showing a configuration prints its text. -/
theorem run_showConfig {arguments : List String} {disk : Disk} {invocation : Invocation}
    {config : Config} (parsed : parse arguments = some invocation)
    (shows : invocation.command = .showConfig) (configured : configOf disk invocation = .ok config) :
    run arguments disk = ({ code := 0, out := config.text ++ "\n" }, disk) := by
  -- Showing does not open a database.
  simp only [run, interpret_of_parse parsed, configured, shows, if_true]

end Admin

/--
A configuration is read back from what is shown of it if its table names are sound, and refused if they
are not, for empty names before shared ones.

So what the command line shows may be given back to it in a file: the configuration is the same then, and
the same is shown of it.
-/
theorem Config.shown_again :
    (∀ config : Config,
      (("" ∉ config.tables.names ∧ config.tables.names.Nodup) →
        Config.parse config.text = .ok config) ∧
      ("" ∈ config.tables.names →
        Config.parse config.text = .error (.misconfigured .emptyTableName)) ∧
      ("" ∉ config.tables.names → ¬ config.tables.names.Nodup →
        Config.parse config.text = .error (.misconfigured .sharedTableName))) ∧
    ∀ {arguments : List String} {disk : Disk} {invocation : Admin.Invocation} {config : Config},
      Admin.parse arguments = some invocation → invocation.command = .showConfig →
      Admin.configOf disk invocation = .ok config →
      ∀ {later : List String} {laterDisk : Disk} {again : Admin.Invocation} {path : String}
        {place : Place}, Admin.parse later = some again → again.config = some path →
        laterDisk.follow (Path.ofText path) = .ok place →
        laterDisk.get? place = some (.bytes (Bytes.ofText (Admin.run arguments disk).1.out)) →
        Admin.configOf laterDisk again = .ok config ∧
        (again.command = .showConfig →
          (Admin.run later laterDisk).1 = (Admin.run arguments disk).1) := by
  have plain (config : Config) : config.text.toList = config.text.toList ++ [] :=
    (List.append_nil _).symm
  refine ⟨fun config => ⟨fun sound => ?_, fun empty => ?_, fun filled shared => ?_⟩, ?_⟩
  · rw [config.parse_shown blank_nil (plain config), if_neg sound.1, if_pos sound.2]
  · rw [config.parse_shown blank_nil (plain config), if_pos empty]
  · rw [config.parse_shown blank_nil (plain config), if_neg filled, if_neg shared]
  · intro arguments disk invocation config parsed shows configured later laterDisk again path place
      parsedAgain named leads holds
    -- What was printed is the text and a line end.
    have shown := Admin.run_showConfig parsed shows configured
    rw [shown] at holds ⊢
    have sound := Admin.sound_of_configOf configured
    -- A line end is printed behind the text, and it may stand behind a document.
    have line : Blank ['\n'] := by
      intro c member
      exact .inr (.inr (.inl (List.mem_singleton.1 member)))
    have lines : (config.text ++ "\n").toList = config.text.toList ++ ['\n'] := by
      rw [String.toList_append]
      rfl
    have again : Config.parse (config.text ++ "\n") = .ok config := by
      rw [config.parse_shown line lines, if_neg sound.1, if_pos sound.2]
    have loaded := Admin.configOf_file named leads holds again
    exact ⟨loaded, fun showsAgain => by rw [Admin.run_showConfig parsedAgain showsAgain loaded]⟩

/-- Quotes, backslashes and line feeds in names are shown and read back, and a shared name is refused. -/
theorem Config.shown_again_escaped :
    let config : Config := ⟨{ ecPool := "a\"b\\\n", legacy := "\x01é" }, ⟨false, true⟩⟩
    let shared : Config := ⟨{ ecPool := "PqKeys" }, {}⟩
    let disk (text : String) : Disk :=
      ⟨[([Bytes.ofText "c.json"], .bytes (Bytes.ofText text))], [], none⟩
    let arguments := ["--db", "keys.db", "--config", "c.json", "show-config"]
    let shown := (Admin.run arguments (disk config.text)).1
    Config.parse config.text = .ok config ∧
    Config.parse shared.text = .error (.misconfigured .sharedTableName) ∧
    shown = ⟨0, config.text ++ "\n", ""⟩ ∧
    (Admin.run arguments (disk shown.out)).1 = shown := by
  intro config shared disk arguments shown
  have sound : "" ∉ config.tables.names ∧ config.tables.names.Nodup := by decide
  have parsed : Config.parse config.text = .ok config := (shown_again.1 config).1 sound
  have refused : Config.parse shared.text = .error (.misconfigured .sharedTableName) :=
    (shown_again.1 shared).2.2 (by decide) (by decide)
  have invoked : Admin.parse arguments = some ⟨"keys.db", some "c.json", .showConfig⟩ := by
    decide +kernel
  -- The path leads to the one file that there is.
  have leads (text : String) : (disk text).follow (Path.ofText "c.json") = .ok [Bytes.ofText "c.json"] := by
    with_unfolding_all rfl
  have holds (text : String) : (disk text).get? [Bytes.ofText "c.json"] =
      some (.bytes (Bytes.ofText text)) := by
    rw [Disk.get?, if_neg (List.cons_ne_nil _ _), List.lookup_cons_self]
  have configured (text : String) (parsed : Config.parse text = .ok config) :
      Admin.configOf (disk text) ⟨"keys.db", some "c.json", .showConfig⟩ = .ok config :=
    Admin.configOf_file rfl (leads text) (holds text) parsed
  -- Showing from the file and showing again print the same.
  have shows := Admin.run_showConfig invoked rfl (configured _ parsed)
  have again (text : String) (same : text = (Admin.run arguments (disk config.text)).1.out) :
      (Admin.run arguments (disk text)).1 = (Admin.run arguments (disk config.text)).1 :=
    (shown_again.2 invoked rfl (configured _ parsed) invoked rfl (leads text) (same ▸ holds text)).2 rfl
  exact ⟨parsed, refused, congrArg Prod.fst shows, again shown.out rfl⟩

end KeyDispensary
