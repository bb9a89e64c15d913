import CsmsPlatform.CommandBus.Codec

/-!
# Station repository

The records of the repository interface, the checks its adapters share, and the adapter that keeps the
latest records in two maps. Instants are nanoseconds since the Unix epoch.
-/

namespace CsmsPlatform.StationStore

structure Station where
  identity : String
  version : String
  vendor : String
  model : String
  serialNumber : String
  firmwareVersion : String
  bootReason : String
  lastBootAt : Int
deriving DecidableEq, Repr

structure ConnectorStatus where
  stationIdentity : String
  version : String
  evseID : Int
  connectorID : Int
  status : String
  errorCode : String
  occurredAt : Int
  receivedAt : Int
deriving DecidableEq, Repr

inductive SqlError where
  | column (text : String)
  | lockWait
  | foreignKey
  | failed (text : String)
deriving DecidableEq, Repr

inductive StoreError where
  | context (text : String)
  | invalidStation (text : String)
  | invalidConnector (text : String)
  | database (action : String) (err : SqlError)
deriving DecidableEq, Repr

inductive RepositoryCall where
  | upsertStation (station : Station)
  | updateConnectorStatus (status : ConnectorStatus)
deriving DecidableEq, Repr

variable (valid : String → Bool)

/-- Which versions are valid is the protocol library's to say. -/
def validateStation (station : Station) : Except StoreError Unit :=
  if station.identity = "" ∨ ¬ valid station.version ∨ station.vendor = "" ∨ station.model = "" ∨
      station.lastBootAt = zeroTime then
    .error (.invalidStation
      "invalid station: identity, version, vendor, model and boot time are required")
  else .ok ()

def validateConnectorStatus (status : ConnectorStatus) : Except StoreError Unit :=
  if status.stationIdentity = "" ∨ ¬ valid status.version ∨ status.evseID < 0 ∨ status.connectorID < 0 ∨
      status.status = "" ∨ status.receivedAt = zeroTime then
    .error (.invalidConnector ("invalid connector status: identity, version, non-negative connector " ++
      "identifiers, status and receive time are required"))
  else .ok ()

def RepositoryCall.validate : RepositoryCall → Except StoreError Unit
  | .upsertStation station => validateStation valid station
  | .updateConnectorStatus status => validateConnectorStatus valid status

structure ConnectorKey where
  stationIdentity : String
  evseID : Int
  connectorID : Int
deriving DecidableEq, Repr

structure Memory where
  stations : String → Option Station := fun _ => none
  connectors : ConnectorKey → Option ConnectorStatus := fun _ => none

namespace Memory

def upsertStation (ctxErr : Option String) (station : Station) (m : Memory) :
    Except StoreError Unit × Memory :=
  match ctxErr with
  | some err => (.error (.context err),m)
  | none =>
    match validateStation valid station with
    | .error err => (.error err,m)
    | .ok _ => (.ok (),{ m with stations := Function.update m.stations station.identity (some station) })

def updateConnectorStatus (ctxErr : Option String) (status : ConnectorStatus) (m : Memory) :
    Except StoreError Unit × Memory :=
  match ctxErr with
  | some err => (.error (.context err),m)
  | none =>
    match validateConnectorStatus valid status with
    | .error err => (.error err,m)
    | .ok _ =>
      let key : ConnectorKey := ⟨status.stationIdentity,status.evseID,status.connectorID⟩
      (.ok (),{ m with connectors := Function.update m.connectors key (some status) })

def perform (ctxErr : Option String) (call : RepositoryCall) (m : Memory) :
    Except StoreError Unit × Memory :=
  match call with
  | .upsertStation station => m.upsertStation valid ctxErr station
  | .updateConnectorStatus status => m.updateConnectorStatus valid ctxErr status

end Memory

end CsmsPlatform.StationStore
