import CsmsPlatform.CommandBus.Handler
import CsmsPlatform.Framework.Redis.Streams

/-!
# The calls of the command bus

Commands are entries of a stream for each owner. A finished command has a completion record under
its ID and a list of results that the waiting request takes from; one transaction writes both. Each
method here is one Redis call with what the bus makes of the reply.
-/

namespace CsmsPlatform

open Redis

def consumerGroup : String := "runtime"

def second : Int := 1000000000

def pendingMinIdle : Int := 5*second

def streamMaxLen : Nat := 10000

inductive BusError where
  | codec (err : CodecError)
  | redis (context : String) (fault : Fault)
  | json (context : String)
  | required (detail : String)
deriving DecidableEq, Repr

def BusError.message : BusError → String
  | .codec err => err.message
  | .redis context fault => context ++ ": " ++ fault.message
  | .json context => context
  | .required detail => detail

def BusCall (α : Type) := Int → Keyspace → Except BusError α × Keyspace

def wrapFault {α : Type} (context : String) (m : Script α) : BusCall α := fun now ks =>
  match m now ks with
  | (.ok a,ks') => (.ok a,ks')
  | (.error fault,ks') => (.error (.redis context fault),ks')

def isBusyGroup (fault : Fault) : Bool := "BUSYGROUP".toList.isPrefixOf fault.message.toList

/-- The client gives `SET` whole seconds, or milliseconds where the TTL has a fraction of one. A TTL
is positive: `New` replaces any other. -/
def setTTL (ttl : Int) : Int :=
  if ttl < second ∨ ttl % second ≠ 0 then max 1 (ttl/millisecond)*millisecond else ttl

/-- `EXPIRE` counts whole seconds. -/
def expireTTL (ttl : Int) : Int := max 1 (ttl/second)*second

/-- `CompletedAt`, unless the handler has set it. -/
def Result.stamp (result : Result) (now : Int) : Result :=
  if result.completedAt = zeroTime then { result with completedAt := now } else result

@[simp] theorem stamp_commandID (result : Result) (now : Int) :
    (result.stamp now).commandID = result.commandID := by
  unfold Result.stamp
  split <;> rfl

/-- What `runHandler` makes of a handler's result. -/
def Result.seal (result : Result) (command : Command) (now : Int) : Result :=
  { result with commandID := command.id }.stamp now

@[simp] theorem seal_commandID (result : Result) (command : Command) (now : Int) :
    (result.seal command now).commandID = command.id :=
  stamp_commandID _ _

namespace Bus

/-- `Publish`; trimming takes at most `evict` of the oldest entries. -/
def publish (bus : Bus) (command : Command) (evict : Nat) : BusCall Unit := fun now ks =>
  match validateCommand command with
  | .error err => (.error (.codec err),ks)
  | .ok () => wrapFault "publish Redis command"
      (xadd (bus.commandStream command.ownerID) streamMaxLen evict (commandFields command)).ignore now ks

def pollResult (bus : Bus) (commandID : String) : BusCall (Option Result) := fun now ks =>
  if commandID = "" then
    (.error (.codec (.invalidCommand "command ID is required")),ks)
  else
    match wrapFault "await Redis command result" (rpop (bus.resultKey commandID)) now ks with
    | (.error err,ks') => (.error err,ks')
    | (.ok none,ks') => (.ok none,ks')
    | (.ok (some value),ks') =>
      match decodeResult value with
      | none => (.error (.json "decode Redis command result"),ks')
      | some result => (.ok (some result),ks')

def createGroup (bus : Bus) (ownerID : String) : BusCall Unit := fun now ks =>
  match xgroupCreate (bus.commandStream ownerID) consumerGroup now ks with
  | (.ok (),ks') => (.ok (),ks')
  | (.error fault,ks') =>
    -- the group is there from an earlier start
    if isBusyGroup fault then (.ok (),ks')
    else (.error (.redis "create Redis command consumer group" fault),ks')

def recoverPending (bus : Bus) (ownerID : String) : BusCall (List StreamEntry) :=
  wrapFault "recover pending Redis commands"
    (xautoclaim (bus.commandStream ownerID) consumerGroup pendingMinIdle 10)

def readNew (bus : Bus) (ownerID : String) : BusCall (Option (List StreamEntry)) :=
  wrapFault "consume Redis command" (xreadGroup (bus.commandStream ownerID) consumerGroup 1)

def completed (bus : Bus) (commandID : String) : BusCall (Option Result) := fun now ks =>
  match wrapFault "read completed Redis command" (get (bus.completionKey commandID)) now ks with
  | (.error err,ks') => (.error err,ks')
  | (.ok none,ks') => (.ok none,ks')
  | (.ok (some content),ks') =>
    match decodeResult content with
    | none => (.error (.json "decode completed Redis command"),ks')
    | some result => (.ok (some result),ks')

def completion (bus : Bus) (commandID content : String) : Script Unit :=
  transaction [setEx (bus.completionKey commandID) content (setTTL bus.resultTTL.toInt),
    (lpush (bus.resultKey commandID) content).ignore,
    (expire (bus.resultKey commandID) (expireTTL bus.resultTTL.toInt)).ignore]

def complete (bus : Bus) (result : Result) : BusCall Unit := fun now ks =>
  if result.commandID = "" then (.error (.required "command result ID is required"),ks)
  else
    match encodeResult (result.stamp now) with
    | none => (.error (.json "encode Redis command result"),ks)
    | some content =>
      wrapFault "complete Redis command" (bus.completion result.commandID content) now ks

def ack (bus : Bus) (ownerID : String) (message : StreamEntry) : BusCall Unit :=
  wrapFault "ack Redis command" (xack (bus.commandStream ownerID) consumerGroup message.id).ignore

section Keys

variable (bus : Bus) {o o' id id' : String}

private theorem name_eq {a b : KeyName} (hc : ¬KeyName.Clash a b)
    (h : a.render ⟨bus.keyPrefix⟩ bus ⟨bus.keyPrefix,0,0⟩ =
      b.render ⟨bus.keyPrefix⟩ bus ⟨bus.keyPrefix,0,0⟩) : a = b :=
  (KeyName.render_inj_iff rfl rfl rfl a b).mpr hc h

@[simp] theorem commandStream_inj : bus.commandStream o = bus.commandStream o' ↔ o = o' := by
  constructor
  · intro h
    have hname := @name_eq bus (.commands o) (.commands o') (by simp [KeyName.Clash]) h
    cases hname
    rfl
  · exact congrArg _

@[simp] theorem resultKey_inj : bus.resultKey id = bus.resultKey id' ↔ id = id' := by
  constructor
  · intro h
    have hname := @name_eq bus (.results id) (.results id') (by simp [KeyName.Clash]) h
    cases hname
    rfl
  · exact congrArg _

@[simp] theorem completionKey_inj : bus.completionKey id = bus.completionKey id' ↔ id = id' := by
  constructor
  · intro h
    have hname := @name_eq bus (.completions id) (.completions id') (by simp [KeyName.Clash]) h
    cases hname
    rfl
  · exact congrArg _

@[simp] theorem commandStream_ne_resultKey : bus.commandStream o ≠ bus.resultKey id := by
  intro h
  cases @name_eq bus (.commands o) (.results id) (by simp [KeyName.Clash]) h

@[simp] theorem commandStream_ne_completionKey : bus.commandStream o ≠ bus.completionKey id := by
  intro h
  cases @name_eq bus (.commands o) (.completions id) (by simp [KeyName.Clash]) h

@[simp] theorem resultKey_ne_completionKey : bus.resultKey id ≠ bus.completionKey id' := by
  intro h
  cases @name_eq bus (.results id) (.completions id') (by simp [KeyName.Clash]) h

@[simp] theorem resultKey_ne_commandStream : bus.resultKey id ≠ bus.commandStream o :=
  (bus.commandStream_ne_resultKey).symm

@[simp] theorem completionKey_ne_commandStream : bus.completionKey id ≠ bus.commandStream o :=
  (bus.commandStream_ne_completionKey).symm

@[simp] theorem completionKey_ne_resultKey : bus.completionKey id ≠ bus.resultKey id' :=
  (bus.resultKey_ne_completionKey).symm

end Keys

end Bus

end CsmsPlatform
