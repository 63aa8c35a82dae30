import KeyDispensary.Store.DatabaseName
import KeyDispensary.Text.Hex

/-!
The texts of database names. A text is the path of a file, or an address: `file:`, a path in which bytes
may be written in hexadecimal digits, and settings after a question mark.
-/

namespace KeyDispensary.Address

/--
The bytes of a part of an address: two hexadecimal digits after a percent sign stand for a byte.

A zero byte ends the part.
-/
def unescape : List Char → Bytes
  | [] => []
  | '%' :: high :: low :: rest =>
    match Hex.value? high, Hex.value? low with
    | some h, some l =>
      if h = 0 ∧ l = 0 then [] else UInt8.ofNat (16 * h + l) :: unescape rest
    | _, _ => Bytes.ofChars ['%'] ++ unescape (high :: low :: rest)
  | c :: rest => Bytes.ofChars [c] ++ unescape rest

/-- What follows the host, which may be left out or be `localhost` and lasts until the next slash. -/
def skipHost? : List Char → Option (List Char)
  | '/' :: '/' :: rest =>
    let host := String.ofList (rest.takeWhile (· ≠ '/'))
    if host = "" ∨ host = "localhost" then some (rest.dropWhile (· ≠ '/')) else none
  | rest => some rest

/-! ## Values of settings -/

/-- A way of using a database. -/
inductive Mode where
  /-- In a file. -/
  | filed (access : Access)
  /-- In no file. -/
  | unfiled
deriving DecidableEq

/-- Whether one way may be replaced by another: of a file nothing more may be asked. -/
def Mode.allows : (set asked : Mode) → Bool
  | .filed granted, .filed asked => granted.allows asked
  | _, _ => true

/-- The way of using a database that a word stands for. -/
def mode? (word : Bytes) : Option Mode :=
  if word = Bytes.ofText "ro" then some (.filed .read)
  else if word = Bytes.ofText "rw" then some (.filed .write)
  else if word = Bytes.ofText "rwc" then some (.filed .make)
  else if word = Bytes.ofText "memory" then some .unfiled
  else none

/-- What reaches the files for a database. -/
inductive Keeper where
  /-- Files with locks, where nothing more is said. -/
  | usual
  /-- Files with a lock that nobody else may share. -/
  | alone
  /-- Files without locks, or with locks of another kind. -/
  | unguarded
  /-- No files. -/
  | unfiled
deriving DecidableEq

/-- What a word says that reaches the files. -/
def keeper? (word : Bytes) : Option Keeper :=
  if word = Bytes.ofText "unix" then some .usual
  else if word = Bytes.ofText "unix-excl" then some .alone
  else if word = Bytes.ofText "unix-none" ∨ word = Bytes.ofText "unix-dotfile" then some .unguarded
  else if word = Bytes.ofText "memdb" then some .unfiled
  else none

/-- The number of digits that are all below the base; from 31 bits on it is zero. -/
def smallNumber (base : Nat) (digits : List Nat) : Nat :=
  let n := digits.foldl (fun n digit => n * base + digit) 0
  if n < 2147483648 then n else 0

/-- The values of the hexadecimal digits that a text begins with. -/
def leadingDigits (base : Nat) (text : List Char) : List Nat :=
  ((text.map Hex.value?).takeWhile fun digit => digit.any (· < base)).filterMap id

/-- The number that a text begins with, in hexadecimal digits after `0x`. -/
def leadingNumber : List Char → Nat
  | '0' :: x :: rest =>
    if (x = 'x' ∨ x = 'X') ∧ leadingDigits 16 rest ≠ [] then smallNumber 16 (leadingDigits 16 rest)
    else smallNumber 10 (leadingDigits 10 ('0' :: x :: rest))
  | text => smallNumber 10 (leadingDigits 10 text)

/--
Whether a word turns a switch on.

A word that begins with a digit is a number, of which the lowest byte counts.
-/
def isOn (word : Bytes) : Bool :=
  let text := word.map fun byte => (Char.ofNat byte.toNat).toLower
  if leadingDigits 10 text ≠ [] then leadingNumber text % 256 ≠ 0
  else text = "on".toList || text = "yes".toList || text = "true".toList

/-! ## Settings -/

/-- The settings of an address. -/
structure Settings where
  mode : Mode := .filed .make
  /-- The last word that says what reaches the files. -/
  keeper : Bytes := Bytes.ofText "unix"
  /-- Whether locks are left out, as the first setting of it says. -/
  unlocked : Option Bool := none
  /-- Whether the file is taken for one that does not change, as the first setting of it says. -/
  frozen : Option Bool := none
  /-- The file whose permissions a new file gets, by the first setting of it. -/
  permissionsOf : Option Path := none
deriving DecidableEq

namespace Settings

/-- Adds the setting of a name; names that are not known set nothing. -/
def add (settings : Settings) (name value : Bytes) : Option Settings :=
  if name = Bytes.ofText "mode" then
    match mode? value with
    | none => none
    | some mode => if settings.mode.allows mode then some { settings with mode := mode } else none
  else if name = Bytes.ofText "cache" then
    if value = Bytes.ofText "shared" ∨ value = Bytes.ofText "private" then some settings else none
  else if name = Bytes.ofText "vfs" then some { settings with keeper := value }
  else if name = Bytes.ofText "nolock" then
    some { settings with unlocked := settings.unlocked.or (some (isOn value)) }
  else if name = Bytes.ofText "immutable" then
    some { settings with frozen := settings.frozen.or (some (isOn value)) }
  else if name = Bytes.ofText "modeof" then
    some { settings with permissionsOf := settings.permissionsOf.or (some ⟨value⟩) }
  else some settings

/-- Adds the setting that a part of an address makes: a name and, after an equals sign, a value. -/
def addPart (settings : Settings) (part : List Char) : Option Settings :=
  settings.add (unescape (part.takeWhile (· ≠ '='))) (unescape ((part.dropWhile (· ≠ '=')).drop 1))

/-- Whether the file is taken for one that does not change. -/
def isFrozen (settings : Settings) : Bool :=
  settings.frozen.getD false

/-- How the file is shared; who only reads it has the usual locks in place of a lock of his own. -/
def sharing (settings : Settings) (keeper : Keeper) (access : Access) : Sharing :=
  if settings.isFrozen then .frozen
  else if keeper = .unguarded ∨ settings.unlocked.getD false then .unguarded
  else if keeper = .alone ∧ access ≠ .read then .alone
  else .guarded

/-- The name of the database at a path with these settings. -/
def name? (settings : Settings) (path : Bytes) : Option DatabaseName :=
  (keeper? settings.keeper).map fun keeper =>
    match settings.mode with
    | .unfiled => .unfiled .make
    | .filed access =>
      if DatabaseName.isUnfiled path then .unfiled access
      else if keeper = .unfiled then .unfiled (if settings.isFrozen then .read else access)
      else .filed ⟨path⟩ ⟨access, settings.sharing keeper access, settings.permissionsOf⟩

end Settings

/-- The name that the part of an address before its number sign gives. -/
def name? (address : List Char) : Option DatabaseName :=
  let path := unescape (address.takeWhile (· ≠ '?'))
  let parts := cutAt '&' ((address.dropWhile (· ≠ '?')).drop 1)
  (parts.foldlM Settings.addPart {}).bind fun settings => settings.name? path

end KeyDispensary.Address

namespace KeyDispensary.DatabaseName

/-- Reads the name of a database. -/
def ofText? (text : String) : Option DatabaseName :=
  match text.toList with
  | 'f' :: 'i' :: 'l' :: 'e' :: ':' :: address =>
    (Address.skipHost? address).bind fun rest => Address.name? (rest.takeWhile (· ≠ '#'))
  | _ => some (ofPath (Bytes.ofText text))

end KeyDispensary.DatabaseName
