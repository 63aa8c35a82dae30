import KeyDispensary.Store.Disk

/-!
The bytes of a database in a file: a line with the version, a line that says where writes stand, a line
that says whether there is a table, and a line for each row. Names, keys and values are written in
hexadecimal digits.
-/

namespace KeyDispensary

namespace Row

/-- The line of a row. -/
def line (row : Row) : List Char :=
  [Bytes.ofText row.key.table, row.key.partition, row.key.sort, row.value].flatMap fun bytes =>
    Hex.encode bytes ++ [' ']

/-- The row of a line. -/
def ofLine? (line : List Char) : Option Row :=
  match (cutAt ' ' line).mapM Hex.decode? with
  | some [table, partition, sort, value, []] =>
    match Utf8.decode table with
    | .ok table => some ⟨⟨table, partition, sort⟩, value⟩
    | .error _ => none
  | _ => none

end Row

namespace Database

/-- The third line of a database with a table. -/
def tableLine : List Char := "table".toList

/-- The third line of a database without one. -/
def noTableLine : List Char := "no table".toList

/-- The line of a version. -/
def versionLine (version : Int) : List Char :=
  "version ".toList ++ (toString version).toList

/-- The version of a line. -/
def version? (line : List Char) : Option Int :=
  if line.take 8 = "version ".toList then (String.ofList (line.drop 8)).toInt? else none

/-- The lines of a table, or of none. -/
def tableLines : Option Rows → List (List Char)
  | none => [noTableLine]
  | some rows => tableLine :: rows.toList.map Row.line

/-- The table that lines describe. -/
def tableOf? : List (List Char) → Option (Option Rows)
  | [] => none
  | first :: lines =>
    if first = noTableLine then if lines.isEmpty then some none else none
    else if first = tableLine then
      (lines.mapM Row.ofLine?).map fun rows => some (rows.foldl Rows.insert Rows.empty)
    else none

end Database

namespace Journal

/-- The line that says where writes stand. -/
def line : Journal → List Char
  | .behind => "journal behind".toList
  | .ahead => "journal ahead".toList

/-- Reads where writes stand. -/
def ofLine? (text : List Char) : Option Journal :=
  if text = line .behind then some .behind
  else if text = line .ahead then some .ahead
  else none

end Journal

namespace DatabaseFile

/-- The lines of a database. -/
def lines (file : DatabaseFile) : List (List Char) :=
  Database.versionLine file.database.version :: file.journal.line ::
    Database.tableLines file.database.table

/-- The bytes of a database. -/
def image (file : DatabaseFile) : Bytes :=
  Bytes.ofChars (file.lines.flatMap fun line => line ++ ['\n'])

/-- The database of an image. -/
def ofImage? (content : Bytes) : Option DatabaseFile :=
  match Utf8.decode content with
  | .error _ => none
  | .ok text =>
    match cutAt '\n' text.toList with
    | first :: second :: lines =>
      match Database.version? first, Journal.ofLine? second, Database.tableOf? lines.dropLast,
        lines.getLast? with
      | some version, some journal, some table, some [] => some ⟨⟨version, table⟩, journal⟩
      | _, _, _, _ => none
    | _ => none

end DatabaseFile

namespace FileContent

/-- What the bytes of a file stand for. -/
def ofBytes (content : Bytes) : FileContent :=
  match DatabaseFile.ofImage? content with
  | some file => .database file
  | none => .bytes content

/-- The bytes of a file; a directory has none. -/
def bytes? : FileContent → Option Bytes
  | .database file => some file.image
  | .bytes content => some content
  | .directory => none

end FileContent

/-- The files at some places that are not as they were before, with their bytes. -/
def Disk.changes (before after : Disk) (places : List Place) : List (Place × Bytes) :=
  places.filterMap fun place =>
    if after.get? place = before.get? place then none
    else ((after.get? place).bind FileContent.bytes?).map fun content => (place, content)

end KeyDispensary
