import KeyDispensary.Proofs.Keys.Filled
import KeyDispensary.Session

/-!
What the operations of a dispensary mean: four maps, of pools and of slots, beside the policy in force and
the edits that are kept for later. `Stock.serve` answers each request from the maps, and `Session.serve`
answers it by the programs of the dispensary.
-/

namespace KeyDispensary

/-- A change of one slot that is described before it is made. -/
inductive Edit where
  | fillLegacy (identity : Identity) (device : Device) (key : SignedEcKey)
  | clearLegacy (identity : Identity) (device : Device)
  | fillLastResort (identity : Identity) (device : Device) (key : SignedKemKey)
  | clearLastResort (identity : Identity) (device : Device)

/-- The write that makes a change. -/
def Edit.write (dispensary : Dispensary) : Edit → Write
  | .fillLegacy identity device key => dispensary.legacy.putWrite identity device key
  | .clearLegacy identity device => dispensary.legacy.deleteWrite identity device
  | .fillLastResort identity device key => dispensary.lastResort.putWrite identity device key
  | .clearLastResort identity device => dispensary.lastResort.deleteWrite identity device

/-- The changes that add a device under both identities; legacy keys only as the policy says. -/
def newDeviceEdits (policy : Policy) (account phone : Identity) (device : Device)
    (keys : Dispensary.NewDevice) : List Edit :=
  [.fillLastResort account device keys.accountLastResort,
    .fillLastResort phone device keys.phoneLastResort] ++
  if policy.storesLegacy then
    [.fillLegacy account device keys.accountSigned, .fillLegacy phone device keys.phoneSigned]
  else []

/-- The changes that remove a device from both identities; legacy keys only as the policy says. -/
def removedDeviceEdits (policy : Policy) (account phone : Identity) (device : Device) : List Edit :=
  [.clearLastResort account device, .clearLastResort phone device] ++
  if policy.deletesLegacy then [.clearLegacy account device, .clearLegacy phone device] else []

/-- What may be asked of a session. -/
inductive Request where
  | storeEc (identity : Identity) (device : Device) (keys : List EcKey)
  | storePq (identity : Identity) (device : Device) (keys : List SignedKemKey)
  | takeEc (identity : Identity) (device : Device)
  | takePq (identity : Identity) (device : Device)
  | countEc (identity : Identity) (device : Device)
  | countPq (identity : Identity) (device : Device)
  | storeLegacy (identity : Identity) (device : Device) (key : SignedEcKey)
  | findLegacy (identity : Identity) (device : Device)
  | storeLastResort (identity : Identity) (device : Device) (key : SignedKemKey)
  | findLastResort (identity : Identity) (device : Device)
  | listDevices (identity : Identity)
  | deletePools (identity : Identity)
  | deleteDevicePools (identity : Identity) (device : Device)
  | deleteAccount (identity : Identity)
  /-- Builds the write of a legacy key and keeps it under a name. -/
  | keepLegacy (name : String) (identity : Identity) (device : Device) (key : SignedEcKey)
  /-- Builds the write of a last-resort key and keeps it under a name. -/
  | keepLastResort (name : String) (identity : Identity) (device : Device) (key : SignedKemKey)
  /-- Builds the writes of a new device and keeps them under a name. -/
  | keepNewDevice (name : String) (account phone : Identity) (device : Device)
    (keys : Dispensary.NewDevice)
  /-- Builds the writes of a removed device and keeps them under a name. -/
  | keepRemovedDevice (name : String) (account phone : Identity) (device : Device)
  /-- Carries out the writes that are kept under some names, in one transaction. -/
  | commit (names : List String)
  | setPolicy (policy : Policy)
  | reloadPolicy (text : String)

/-- What a request that succeeds is answered. -/
inductive Result where
  | done
  | ecKey (key : Option EcKey)
  | kemKey (key : Option SignedKemKey)
  | legacyKey (key : Option SignedEcKey)
  | count (count : Nat)
  | devices (devices : List Device)
  /-- The writes that were built, if any were. -/
  | built (writes : Option (List Write))
  | policy (policy : Policy)
deriving DecidableEq

/-! ### The meaning of requests -/

/-- The keys of all devices, the policy in force, and the edits that are kept for later. -/
structure Stock where
  ecPool : Identity → Device → Shelf EcKey
  pqPool : Identity → Device → Shelf SignedKemKey
  legacy : Identity → Device → Option SignedEcKey
  lastResort : Identity → Device → Option SignedKemKey
  policy : Policy
  kept : List (String × List Edit)

namespace Stock

/-- No keys. -/
def empty (policy : Policy) : Stock where
  ecPool _ _ := .empty
  pqPool _ _ := .empty
  legacy _ _ := none
  lastResort _ _ := none
  policy := policy
  kept := []

/-- Makes a change. -/
def edit (stock : Stock) : Edit → Stock
  | .fillLegacy identity device key =>
    { stock with legacy := amend stock.legacy identity device (some key) }
  | .clearLegacy identity device =>
    { stock with legacy := amend stock.legacy identity device none }
  | .fillLastResort identity device key =>
    { stock with lastResort := amend stock.lastResort identity device (some key) }
  | .clearLastResort identity device =>
    { stock with lastResort := amend stock.lastResort identity device none }

/-- Keeps edits under a name, and answers the writes that make them. -/
def keep (stock : Stock) (dispensary : Dispensary) (name : String) (edits : List Edit) :
    Except KeyError Result × Stock :=
  (.ok (.built (some (edits.map (Edit.write dispensary)))),
    { stock with kept := (name, edits) :: stock.kept })

/-- The edits that are kept under a name. -/
def keptEdits (stock : Stock) (name : String) : List Edit :=
  (stock.kept.lookup name).getD []

/-- Answers a request; only an unsound policy text and too many edits at once are refused. -/
def serve (dispensary : Dispensary) (stock : Stock) : Request → Except KeyError Result × Stock
  | .storeEc identity device keys =>
    (.ok .done, { stock with ecPool := amend stock.ecPool identity device (.of keys) })
  | .storePq identity device keys =>
    (.ok .done, { stock with pqPool := amend stock.pqPool identity device (.of keys) })
  | .takeEc identity device =>
    let (key, shelf) := (stock.ecPool identity device).take
    (.ok (.ecKey key), { stock with ecPool := amend stock.ecPool identity device shelf })
  | .takePq identity device =>
    let (key, shelf) := (stock.pqPool identity device).take
    -- The last-resort key stays where it is.
    (.ok (.kemKey (key.or (stock.lastResort identity device))),
      { stock with pqPool := amend stock.pqPool identity device shelf })
  | .countEc identity device => (.ok (.count (stock.ecPool identity device).size), stock)
  | .countPq identity device => (.ok (.count (stock.pqPool identity device).size), stock)
  | .storeLegacy identity device key =>
    (.ok .done,
      if stock.policy.storesLegacy then stock.edit (.fillLegacy identity device key) else stock)
  | .findLegacy identity device => (.ok (.legacyKey (stock.legacy identity device)), stock)
  | .storeLastResort identity device key =>
    (.ok .done, stock.edit (.fillLastResort identity device key))
  | .findLastResort identity device => (.ok (.kemKey (stock.lastResort identity device)), stock)
  | .listDevices identity =>
    (.ok (.devices (Device.all.filter fun device => (stock.lastResort identity device).isSome)),
      stock)
  | .deletePools identity =>
    (.ok .done, { stock with
      ecPool := amendAll stock.ecPool identity .empty
      pqPool := amendAll stock.pqPool identity .empty })
  | .deleteDevicePools identity device =>
    (.ok .done, { stock with
      ecPool := amend stock.ecPool identity device .empty
      pqPool := amend stock.pqPool identity device .empty })
  | .deleteAccount identity =>
    (.ok .done, { stock with
      ecPool := amendAll stock.ecPool identity .empty
      pqPool := amendAll stock.pqPool identity .empty
      lastResort := amendAll stock.lastResort identity none
      legacy :=
        if stock.policy.deletesLegacy then amendAll stock.legacy identity none else stock.legacy })
  | .keepLegacy name identity device key =>
    if stock.policy.storesLegacy then
      stock.keep dispensary name [.fillLegacy identity device key]
    else (.ok (.built none), stock)
  | .keepLastResort name identity device key =>
    stock.keep dispensary name [.fillLastResort identity device key]
  | .keepNewDevice name account phone device keys =>
    stock.keep dispensary name (newDeviceEdits stock.policy account phone device keys)
  | .keepRemovedDevice name account phone device =>
    stock.keep dispensary name (removedDeviceEdits stock.policy account phone device)
  | .commit names =>
    let edits := names.flatMap stock.keptEdits
    if transactionLimit < edits.length then
      (.error (.store (.tooLarge edits.length transactionLimit)), stock)
    else (.ok .done, edits.foldl edit stock)
  | .setPolicy policy => (.ok (.policy policy), { stock with policy := policy })
  | .reloadPolicy text =>
    match Policy.parse text with
    | .error error => (.error error, stock)
    | .ok policy => (.ok (.policy policy), { stock with policy := policy })

/-- Answers requests one after another. -/
def serveAll (dispensary : Dispensary) (stock : Stock) :
    List Request → List (Except KeyError Result) × Stock
  | [] => ([], stock)
  | request :: rest =>
    let (answer, stock) := stock.serve dispensary request
    let (answers, stock) := stock.serveAll dispensary rest
    (answer :: answers, stock)

end Stock

/-! ### What a session does -/

namespace Session

variable {π α : Type}

/-- Answers a request by a program. -/
def byProgram (session : Session) (result : α → Result) (program : Program (Except KeyError α)) :
    Option (Except KeyError Result) × Session :=
  let (answer, session) := session.ask program
  (some (answer.map result), session)

/-- Answers a request by a walk. -/
def byWalk (session : Session) (result : α → Result) (walk : Walk π (Except KeyError α)) :
    Option (Except KeyError Result) × Session :=
  let (answer, session) := session.walk walk
  (answer.map fun answer => answer.map result, session)

/-- Keeps writes under a name, and answers them. -/
def keeping (session : Session) (name : String) (writes : List Write) :
    Option (Except KeyError Result) × Session :=
  (some (.ok (.built (some writes))), session.keep name writes)

/-- Answers a request; a walk that does not end has no answer. -/
def serve (session : Session) : Request → Option (Except KeyError Result) × Session
  | .storeEc identity device keys =>
    session.byProgram (fun _ => .done) (session.dispensary.ecPool.store identity device keys)
  | .storePq identity device keys =>
    session.byProgram (fun _ => .done) (session.dispensary.pqPool.store identity device keys)
  | .takeEc identity device => session.byWalk .ecKey (session.dispensary.takeEc identity device)
  | .takePq identity device => session.byWalk .kemKey (session.dispensary.takePq identity device)
  | .countEc identity device =>
    session.byProgram .count (session.dispensary.ecPool.count identity device)
  | .countPq identity device =>
    session.byProgram .count (session.dispensary.pqPool.count identity device)
  | .storeLegacy identity device key =>
    session.byProgram (fun _ => .done)
      (session.dispensary.storeLegacy session.policy identity device key)
  | .findLegacy identity device =>
    session.byProgram .legacyKey (session.dispensary.legacy.find identity device)
  | .storeLastResort identity device key =>
    session.byProgram (fun _ => .done) (session.dispensary.lastResort.store identity device key)
  | .findLastResort identity device =>
    session.byProgram .kemKey (session.dispensary.lastResort.find identity device)
  | .listDevices identity =>
    session.byWalk .devices (session.dispensary.lastResort.devices identity)
  | .deletePools identity =>
    session.byProgram (fun _ => .done) (session.dispensary.deletePools identity)
  | .deleteDevicePools identity device =>
    session.byProgram (fun _ => .done) (session.dispensary.deleteDevicePools identity device)
  | .deleteAccount identity =>
    session.byProgram (fun _ => .done) (session.dispensary.deleteAccount session.policy identity)
  | .keepLegacy name identity device key =>
    match session.dispensary.legacyWrite? session.policy identity device key with
    | some write => session.keeping name [write]
    | none => (some (.ok (.built none)), session)
  | .keepLastResort name identity device key =>
    session.keeping name [session.dispensary.lastResortWrite identity device key]
  | .keepNewDevice name account phone device keys =>
    session.keeping name
      (session.dispensary.newDeviceWrites session.policy account phone device keys)
  | .keepRemovedDevice name account phone device =>
    session.keeping name
      (session.dispensary.removedDeviceWrites session.policy account phone device)
  | .commit names =>
    let (reply, session) := session.direct (.transact (names.flatMap session.keptWrites))
    (some ((reply.mapError KeyError.store).map fun _ => .done), session)
  | .setPolicy policy =>
    let session := session.setPolicy policy
    (some (.ok (.policy session.policy)), session)
  | .reloadPolicy text =>
    let (answer, session) := session.reloadPolicy text
    (some (answer.map .policy), session)

/-- Answers requests one after another. -/
def serveAll (session : Session) :
    List Request → List (Option (Except KeyError Result)) × Session
  | [] => ([], session)
  | request :: rest =>
    let (answer, session) := session.serve request
    let (answers, session) := session.serveAll rest
    (answer :: answers, session)

end Session

end KeyDispensary
