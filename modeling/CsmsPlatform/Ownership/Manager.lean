import CsmsPlatform.Registry.Mutex

/-!
# Ownership managers of a fleet of runtimes

Every runtime keeps a map from station identity to ownership entry over one shared registry. The
callbacks of its sessions interleave: `onConnect` is a claim and then a map insertion, `onDisconnect`
a map removal and then a release, and a renew loop runs beside them. An entry is named by the session
whose `onConnect` allocated it.
-/

namespace CsmsPlatform

open Redis FencedLease

/-- The fixed parameters of the runtimes and of the sessions they accept. -/
structure Fleet (Runtime Session : Type) where
  registry : Registry
  ownerID : Runtime → String
  ttl : Runtime → Int64
  runtime : Session → Runtime
  identity : Session → String

structure OwnershipEntry where
  lease : Lease
  cancelled : Bool
  renewing : Bool
deriving DecidableEq, Repr

/-- How far a session's own callbacks have come. -/
inductive Phase (Session : Type) where
  | opened
  | claimed (lease : Lease)
  | connected
  | refused
  | releasing (entry : Session)
  | closed
deriving DecidableEq, Repr

/-- The last callback that wrote a runtime's map at an identity. -/
inductive MapWrite (Session : Type) where
  | stored (session : Session)
  | removed (session : Session)
deriving DecidableEq, Repr

/-- A registry call is answered, or the script runs and the reply is lost, or it never runs. -/
inductive Delivery where
  | answered
  | unanswered
  | unsent
deriving DecidableEq, Repr

structure World (Runtime Session : Type) where
  service : Service
  entries : Runtime → String → Option Session
  entry : Session → Option OwnershipEntry
  phase : Session → Phase Session
  claimed : Session → Option Lease
  writes : Runtime → String → Option (MapWrite Session)

namespace World

variable {Runtime Session : Type}

def start (ks : Keyspace) (now : Int) : World Runtime Session where
  service := .start ks now
  entries _ _ := none
  entry _ := none
  phase _ := .opened
  claimed _ := none
  writes _ _ := none

def reply (fleet : Fleet Runtime Session) (w : World Runtime Session) (call : Call) :
    Delivery → Option (Option Lease)
  | .answered => (w.service.answer fleet.registry call).toOption
  | .unanswered => none
  | .unsent => none

def send (fleet : Fleet Runtime Session) (w : World Runtime Session) (call : Call) :
    Delivery → World Runtime Session
  | .answered => { w with service := w.service.perform fleet.registry call }
  | .unanswered => { w with service := w.service.perform fleet.registry call }
  | .unsent => w

variable [DecidableEq Session]

def setPhase (w : World Runtime Session) (x : Session) (p : Phase Session) : World Runtime Session :=
  { w with phase := fun y => if y = x then p else w.phase y }

def setEntry (w : World Runtime Session) (x : Session) (e : OwnershipEntry) :
    World Runtime Session :=
  { w with entry := fun y => if y = x then some e else w.entry y }

def setClaimed (w : World Runtime Session) (x : Session) (lease : Lease) : World Runtime Session :=
  { w with claimed := fun y => if y = x then some lease else w.claimed y }

variable [DecidableEq Runtime] (fleet : Fleet Runtime Session)

def writeMap (w : World Runtime Session) (r : Runtime) (i : String) (e : Option Session)
    (m : MapWrite Session) : World Runtime Session :=
  { w with
    entries := fun r' i' => if r' = r ∧ i' = i then e else w.entries r' i'
    writes := fun r' i' => if r' = r ∧ i' = i then some m else w.writes r' i' }

/-- `onConnect` up to the return of `Claim`. A failed claim closes the session. -/
def onConnectClaim (w : World Runtime Session) (x : Session) (d : Delivery) :
    World Runtime Session :=
  match w.phase x with
  | .opened =>
    let call := Call.claim (fleet.identity x) (fleet.ownerID (fleet.runtime x))
      (fleet.ttl (fleet.runtime x))
    match w.reply fleet call d with
    | some (some lease) => ((w.send fleet call d).setClaimed x lease).setPhase x (.claimed lease)
    | _ => (w.send fleet call d).setPhase x .refused
  | _ => w

/-- The rest of `onConnect`: the entry goes into the map and its renew loop starts. -/
def onConnectStore (w : World Runtime Session) (x : Session) : World Runtime Session :=
  match w.phase x with
  | .claimed lease =>
    ((w.writeMap (fleet.runtime x) (fleet.identity x) (some x) (.stored x)).setEntry x
      ⟨lease,false,true⟩).setPhase x .connected
  | _ => w

/-- One tick of the renew loop of `x`'s entry. An error ends the loop and closes the session. -/
def renewTick (w : World Runtime Session) (x : Session) (d : Delivery) : World Runtime Session :=
  match w.entry x with
  | some ⟨lease,cancelled,true⟩ =>
    let call := Call.renew lease (fleet.ttl (fleet.runtime x))
    match w.reply fleet call d with
    | some (some renewed) => (w.send fleet call d).setEntry x ⟨renewed,cancelled,true⟩
    | _ => (w.send fleet call d).setEntry x ⟨lease,cancelled,false⟩
  | _ => w

def renewStop (w : World Runtime Session) (x : Session) : World Runtime Session :=
  match w.entry x with
  | some e => w.setEntry x { e with renewing := false }
  | none => w

/-- `onDisconnect` up to `cancel`: whatever entry the identity has is removed and cancelled. -/
def onDisconnectTake (w : World Runtime Session) (x : Session) : World Runtime Session :=
  if w.phase x = .connected ∨ w.phase x = .refused then
    let w' := w.writeMap (fleet.runtime x) (fleet.identity x) none (.removed x)
    -- the entry under the identity, whichever session stored it
    match w.entries (fleet.runtime x) (fleet.identity x) with
    | none => w'.setPhase x .closed
    | some y =>
      match w.entry y with
      | none => w'.setPhase x .closed
      | some e => (w'.setEntry y { e with cancelled := true }).setPhase x (.releasing y)
  else w

/-- The rest of `onDisconnect`: the lease of the entry it took is released. -/
def onDisconnectRelease (w : World Runtime Session) (x : Session) (d : Delivery) :
    World Runtime Session :=
  match w.phase x with
  | .releasing y =>
    match w.entry y with
    | some e => (w.send fleet (.release e.lease) d).setPhase x .closed
    | none => w.setPhase x .closed
  | _ => w

def owns (w : World Runtime Session) (r : Runtime) (identity : String) (generation : UInt64) : Bool :=
  match w.entries r identity with
  | none => false
  | some x =>
    match w.entry x with
    | none => false
    | some e => e.lease.ownerID = fleet.ownerID r ∧ e.lease.generation = generation

inductive Action (Session : Type) where
  | connectClaim (session : Session) (delivery : Delivery)
  | connectStore (session : Session)
  | renewTick (session : Session) (delivery : Delivery)
  | renewStop (session : Session)
  | disconnectTake (session : Session)
  | disconnectRelease (session : Session) (delivery : Delivery)
  | wait (nanoseconds : Nat)
deriving DecidableEq, Repr

def act (w : World Runtime Session) : Action Session → World Runtime Session
  | .connectClaim x d => w.onConnectClaim fleet x d
  | .connectStore x => w.onConnectStore fleet x
  | .renewTick x d => w.renewTick fleet x d
  | .renewStop x => w.renewStop x
  | .disconnectTake x => w.onDisconnectTake fleet x
  | .disconnectRelease x d => w.onDisconnectRelease fleet x d
  | .wait n => { w with service := w.service.wait n }

def run (w : World Runtime Session) (actions : List (Action Session)) : World Runtime Session :=
  actions.foldl (act fleet) w

end World

end CsmsPlatform
