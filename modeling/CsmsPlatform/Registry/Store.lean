import CsmsPlatform.Framework.Redis.Commands
import CsmsPlatform.Framework.Redis.Lua

/-!
# Redis session registry

The three Lua scripts and the Go methods around them. A script runs at one instant on the whole
keyspace, and the integers that pass through it are rounded to Lua's doubles.
-/

namespace CsmsPlatform

open Redis

structure Lease where
  stationIdentity : String
  ownerID : String
  generation : UInt64
  expiresAt : Int
deriving DecidableEq, Repr

inductive RegistryError where
  | invalid (text : String)
  | redis (action : String) (fault : Fault)
  | badReply (text : String)
  | ownershipConflict (current : Lease)
  | leaseLost
  | notFound
deriving DecidableEq, Repr

def RegistryError.message : RegistryError → String
  | .invalid text => text
  | .redis action fault => action ++ ": " ++ fault.message
  | .badReply text => text
  | .ownershipConflict current => "station session is owned by another runtime: owner " ++
      current.ownerID ++ " generation " ++ toString current.generation
  | .leaseLost => "station session lease was lost"
  | .notFound => "station session owner was not found"

inductive Reply where
  | int (n : Int)
  | bulk (text : String)
  | nil
deriving DecidableEq, Repr

def Reply.ofOption : Option String → Reply
  | some text => .bulk text
  | none => .nil

def Reply.sprint : Reply → String
  | .int n => toString n
  | .bulk text => text
  | .nil => "<nil>"

def claimScript (leaseKey generationKey owner : String) (ttl : Int) : Script (List Reply) := do
  if ← keyExists leaseKey then
    let current ← hget leaseKey "owner"
    let held ← hget leaseKey "generation"
    let remaining ← pttl leaseKey
    return [.int 0,.ofOption current,.ofOption held,.int (Lua.toReply (Lua.number remaining))]
  let generation := Lua.number (← incr generationKey)
  hset leaseKey [("owner",owner),("generation",Lua.text generation)]
  let _ ← pexpire leaseKey ttl
  return [.int 1,.bulk owner,.int (Lua.toReply generation),.int (Lua.toReply (Lua.number ttl))]

def renewScript (leaseKey owner generation : String) (ttl : Int) : Script Int := do
  let current ← hget leaseKey "owner"
  let held ← hget leaseKey "generation"
  if current ≠ some owner ∨ held ≠ some generation then
    return 0
  let _ ← pexpire leaseKey ttl
  return 1

def releaseScript (leaseKey owner generation : String) : Script Int := do
  let current ← hget leaseKey "owner"
  let held ← hget leaseKey "generation"
  if current ≠ some owner ∨ held ≠ some generation then
    return 0
  del leaseKey

/-- `time.Duration.Milliseconds`, truncating toward zero. A duration is a count of nanoseconds in
64 bits. -/
def milliseconds (duration : Int64) : Int := duration.toInt.tdiv millisecond

structure Registry where
  keyPrefix : String
deriving DecidableEq, Repr

def Registry.new (keyPrefix : String) : Registry :=
  ⟨if keyPrefix = "" then "csms" else keyPrefix⟩

namespace Registry

def leaseKey (registry : Registry) (identity : String) : String :=
  registry.keyPrefix ++ ":session:" ++ identity

def generationKey (registry : Registry) : String :=
  registry.keyPrefix ++ ":session:generation"

def parseClaimResult : List Reply → Except RegistryError (Bool × String × UInt64 × Int)
  | [status,owner,generation,remaining] => do
    let some status := Decimal.parseInt status.sprint
      | throw (.badReply "parse Redis claim status")
    let some generation := Decimal.parseUint generation.sprint
      | throw (.badReply "parse Redis claim generation")
    let some remaining := Decimal.parseInt remaining.sprint
      | throw (.badReply "parse Redis claim TTL")
    return (status = 1,owner.sprint,generation,remaining*millisecond)
  | _ => throw (.badReply "invalid Redis claim result")

/-- What `Claim` makes of the script's reply, at the instant it reads its clock. -/
def claimOutcome (stationIdentity : String) (now : Int) :
    Except Fault (List Reply) → Except RegistryError Lease
  | .error fault => .error (.redis "claim redis session lease" fault)
  | .ok result => do
    let (claimed,owner,generation,remaining) ← parseClaimResult result
    let lease : Lease := ⟨stationIdentity,owner,generation,now+remaining⟩
    if claimed then return lease
    throw (.ownershipConflict lease)

def claim (registry : Registry) (stationIdentity ownerID : String) (ttl : Int64) (now : Int)
    (ks : Keyspace) : Except RegistryError Lease × Keyspace :=
  if stationIdentity = "" ∨ ownerID = "" ∨ ttl.toInt ≤ 0 then
    (.error (.invalid "station identity, owner ID and positive TTL are required"),ks)
  else
    let (result,ks') := claimScript (registry.leaseKey stationIdentity) registry.generationKey
      ownerID (milliseconds ttl) now ks
    (claimOutcome stationIdentity now result,ks')

def renew (registry : Registry) (lease : Lease) (ttl : Int64) (now : Int) (ks : Keyspace) :
    Except RegistryError Lease × Keyspace :=
  if ttl.toInt ≤ 0 then
    (.error (.invalid "lease TTL must be positive"),ks)
  else
    match renewScript (registry.leaseKey lease.stationIdentity) lease.ownerID
      (toString lease.generation) (milliseconds ttl) now ks with
    | (.error fault,ks') => (.error (.redis "renew redis session lease" fault),ks')
    | (.ok result,ks') =>
      if result ≠ 1 then (.error .leaseLost,ks')
      else (.ok { lease with expiresAt := now+ttl.toInt },ks')

def release (registry : Registry) (lease : Lease) (now : Int) (ks : Keyspace) :
    Except RegistryError Unit × Keyspace :=
  match releaseScript (registry.leaseKey lease.stationIdentity) lease.ownerID
    (toString lease.generation) now ks with
  | (.error fault,ks') => (.error (.redis "release redis session lease" fault),ks')
  | (.ok result,ks') => if result ≠ 1 then (.error .leaseLost,ks') else (.ok (),ks')

def lookup (registry : Registry) (stationIdentity : String) (now : Int) (ks : Keyspace) :
    Except RegistryError Lease × Keyspace :=
  match hmget (registry.leaseKey stationIdentity) ["owner","generation"] now ks with
  | (.error fault,ks') => (.error (.redis "lookup redis session lease" fault),ks')
  | (.ok values,ks') =>
    match pttl (registry.leaseKey stationIdentity) now ks' with
    | (.error fault,ks'') => (.error (.redis "lookup redis session TTL" fault),ks'')
    | (.ok remaining,ks'') =>
      match values with
      | [some owner,some generation] =>
        if remaining ≤ 0 then (.error .notFound,ks'')
        else
          match Decimal.parseUint generation with
          | none => (.error (.badReply "parse redis session generation"),ks'')
          | some generation => (.ok ⟨stationIdentity,owner,generation,now+remaining*millisecond⟩,ks'')
      | _ => (.error .notFound,ks'')

@[simp] theorem leaseKey_inj (registry : Registry) {a b : String} :
    registry.leaseKey a = registry.leaseKey b ↔ a = b := by
  simp [leaseKey]

@[simp] theorem leaseKey_eq_generationKey (registry : Registry) {a : String} :
    registry.leaseKey a = registry.generationKey ↔ a = "generation" := by
  rw [show registry.generationKey = registry.leaseKey "generation" by
    simp [leaseKey,generationKey,String.append_assoc],leaseKey_inj]

end Registry

end CsmsPlatform
