import CsmsPlatform.StationStore.Repository
import CsmsPlatform.Framework.Ledger
import CsmsPlatform.Framework.Program

/-!
# MySQL station repository

The four tables are two ledgers: `stations` with `boot_events`, and `connector_status` with
`status_events`. A session runs one transaction at a time and locks the rows it writes until the end. A
statement that meets another session's lock waits, which is to make its call later, or gives up. How
the server compares identities and what it makes of a value in a column is left to its settings.
-/

namespace CsmsPlatform.StationStore

open Program

/-- The settings of the server that the schema leaves open. Two texts are equal to the server when
their weights are. -/
structure MySql where
  weight : String → String
  varchar : Nat → String → Except SqlError String
  int : Int → Except SqlError Int
  datetime : Int → Except SqlError Int

namespace MySql

def stationColumns (sql : MySql) (station : Station) : Except SqlError Station := do
  let identity ← sql.varchar 255 station.identity
  let version ← sql.varchar 16 station.version
  let vendor ← sql.varchar 50 station.vendor
  let model ← sql.varchar 50 station.model
  let serialNumber ← sql.varchar 50 station.serialNumber
  let firmwareVersion ← sql.varchar 50 station.firmwareVersion
  let bootReason ← sql.varchar 32 station.bootReason
  let lastBootAt ← sql.datetime station.lastBootAt
  return ⟨identity,version,vendor,model,serialNumber,firmwareVersion,bootReason,lastBootAt⟩

def statusColumns (sql : MySql) (status : ConnectorStatus) : Except SqlError ConnectorStatus := do
  let stationIdentity ← sql.varchar 255 status.stationIdentity
  let evseID ← sql.int status.evseID
  let connectorID ← sql.int status.connectorID
  let version ← sql.varchar 16 status.version
  let value ← sql.varchar 32 status.status
  let errorCode ← sql.varchar 64 status.errorCode
  let occurredAt ← sql.datetime status.occurredAt
  let receivedAt ← sql.datetime status.receivedAt
  return ⟨stationIdentity,version,evseID,connectorID,value,errorCode,occurredAt,receivedAt⟩

def stationKey (sql : MySql) (row : Station) : String := sql.weight row.identity

def statusKey (sql : MySql) (row : ConnectorStatus) : ConnectorKey :=
  ⟨sql.weight row.stationIdentity,row.evseID,row.connectorID⟩

end MySql

inductive Statement where
  | upsertStation (station : Station)
  | insertBootEvent (station : Station)
  | upsertConnectorStatus (status : ConnectorStatus)
  | insertStatusEvent (status : ConnectorStatus)
deriving DecidableEq, Repr

structure Database (ι : Type) where
  stations : Ledger.Store ι String Station Station := {}
  connectors : Ledger.Store ι ConnectorKey ConnectorStatus ConnectorStatus := {}

structure FourTables where
  stations : Ledger.Tables String Station Station
  connectors : Ledger.Tables ConnectorKey ConnectorStatus ConnectorStatus

namespace Database

variable {ι : Type} [DecidableEq ι]

def tables (db : Database ι) : FourTables := ⟨db.stations.tables,db.connectors.tables⟩

def lockable {κ ρ ε : Type} (store : Ledger.Store ι κ ρ ε) (i : ι) (k : κ) : Except SqlError Unit :=
  if store.Free i k then .ok () else .error .lockWait

/-- The foreign key to `stations`. -/
def references (sql : MySql) (db : Database ι) (i : ι) (identity : String) : Except SqlError Unit := do
  lockable db.stations i (sql.weight identity)
  if (db.stations.view i (sql.weight identity)).isNone then .error .foreignKey

/-- The row of a station after `ON DUPLICATE KEY UPDATE`, which leaves the key columns. -/
def stationUpdate (old : Option Station) (row : Station) : Station :=
  { row with identity := (old.map Station.identity).getD row.identity }

def statusUpdate (old : Option ConnectorStatus) (row : ConnectorStatus) : ConnectorStatus :=
  { row with stationIdentity := (old.map ConnectorStatus.stationIdentity).getD row.stationIdentity }

def execute (sql : MySql) (db : Database ι) (i : ι) : Statement → Except SqlError (Database ι)
  | .upsertStation station => do
    let row ← sql.stationColumns station
    lockable db.stations i (sql.stationKey row)
    let old := db.stations.view i (sql.stationKey row)
    return { db with stations := db.stations.write i (sql.stationKey row) (stationUpdate old row) }
  | .insertBootEvent station => do
    let row ← sql.stationColumns station
    db.references sql i row.identity
    return { db with stations := db.stations.append i row }
  | .upsertConnectorStatus status => do
    let row ← sql.statusColumns status
    lockable db.connectors i (sql.statusKey row)
    let old := db.connectors.view i (sql.statusKey row)
    if old.isNone then db.references sql i row.stationIdentity
    return { db with connectors := db.connectors.write i (sql.statusKey row) (statusUpdate old row) }
  | .insertStatusEvent status => do
    let row ← sql.statusColumns status
    db.references sql i row.stationIdentity
    return { db with connectors := db.connectors.append i row }

def rollback (db : Database ι) (i : ι) : Database ι where
  stations := db.stations.rollback i
  connectors := db.connectors.rollback i

def commit (db : Database ι) (i : ι) : Database ι where
  stations := db.stations.commit i
  connectors := db.connectors.commit i

end Database

inductive SqlOp where
  | begin
  | exec (statement : Statement)
  | commit
  | rollback
deriving DecidableEq, Repr

/-- Whether a call gets through to the server. -/
inductive SqlOutcome where
  | answered
  | failed (text : String)
deriving DecidableEq, Repr

abbrev SqlReply (_ : SqlOp) : Type := Except SqlError Unit

/-- A commit that fails has no effect, and ends the transaction. -/
def serve {ι : Type} [DecidableEq ι] (sql : MySql) (i : ι) (op : SqlOp) (outcome : SqlOutcome)
    (db : Database ι) : Except SqlError Unit × Database ι :=
  match op,outcome with
  | .begin,.answered => (.ok (),db)
  | .begin,.failed text => (.error (.failed text),db)
  | .exec statement,.answered =>
    match db.execute sql i statement with
    | .ok db' => (.ok (),db')
    | .error err => (.error err,db)
  | .exec _,.failed text => (.error (.failed text),db)
  | .commit,.answered => (.ok (),db.commit i)
  | .commit,.failed text => (.error (.failed text),db.rollback i)
  | .rollback,_ => (.ok (),db.rollback i)

/-! ## The two methods -/

def orReturn (op : SqlOp) (action : String)
    (next : Program SqlOp SqlReply (Except StoreError Unit)) :
    Program SqlOp SqlReply (Except StoreError Unit) := do
  match ← ask op with
  | .error err => return .error (.database action err)
  | .ok _ => next

def deferRollback (body : Program SqlOp SqlReply (Except StoreError Unit)) :
    Program SqlOp SqlReply (Except StoreError Unit) := do
  let result ← body
  let _ ← ask SqlOp.rollback
  return result

variable (valid : String → Bool)

def upsertStation (station : Station) : Program SqlOp SqlReply (Except StoreError Unit) :=
  match validateStation valid station with
  | .error err => return .error err
  | .ok _ =>
    orReturn .begin "begin station transaction" <| deferRollback <|
    orReturn (.exec (.upsertStation station)) "upsert station" <|
    orReturn (.exec (.insertBootEvent station)) "insert boot event" <|
    orReturn .commit "commit station transaction" <|
    return .ok ()

def updateConnectorStatus (status : ConnectorStatus) :
    Program SqlOp SqlReply (Except StoreError Unit) :=
  match validateConnectorStatus valid status with
  | .error err => return .error err
  | .ok _ =>
    orReturn .begin "begin connector status transaction" <| deferRollback <|
    orReturn (.exec (.upsertConnectorStatus status)) "upsert connector status" <|
    orReturn (.exec (.insertStatusEvent status)) "insert status event" <|
    orReturn .commit "commit connector status transaction" <|
    return .ok ()

def perform : RepositoryCall → Program SqlOp SqlReply (Except StoreError Unit)
  | .upsertStation station => upsertStation valid station
  | .updateConnectorStatus status => updateConnectorStatus valid status

end CsmsPlatform.StationStore
