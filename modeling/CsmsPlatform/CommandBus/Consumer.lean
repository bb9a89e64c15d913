import CsmsPlatform.CommandBus.System

/-!
# The consumer loop in one piece

`processMessages` and `RunConsumer` as functions of their surroundings, when the context lives and
every Redis call is answered: the instant of each step, what the handler reads and what its calls are
replied, and the entries that others append to the stream meanwhile.
-/

namespace CsmsPlatform

open Redis

variable {View Call Reply : Type}

structure Surroundings (View Reply : Type) where
  clock : Nat → Int
  view : Nat → View
  reply : Nat → Reply
  arrivals : Nat → List (List (String × String) × Nat)

/-- How far the consumer has come: an error it returned, Redis, and what took place, newest first. -/
structure Pass (Call : Type) where
  outcome : Except BusError Unit
  redis : Keyspace
  events : List (ConsumerEvent Call)

section Messages

variable (bus : Bus) (handler : Handler View Call Reply) (w : Surroundings View Reply) (o : String)

/-- The handler starts at one step and returns by the next. -/
def runHandler (n : Nat) (command : Command) : Result × List (ConsumerEvent Call) :=
  match handler.start (handlerContextErr none command.deadline (w.clock n)) (w.view n) command with
  | .inl result =>
    (result.seal command (w.clock n),[.handled o command (result.seal command (w.clock n))])
  | .inr call =>
    let result := (handler.resume call (w.reply n)).seal command (w.clock (n+1))
    (result,[.handled o command result,.called o command call])

def messageResult (n : Nat) (command : Command) : Option Result → Result × List (ConsumerEvent Call)
  -- a command on record is committed again, but not handled again
  | some result => (result,[])
  | none => runHandler handler w o n command

def finishMessage (n : Nat) (message : StreamEntry) (result : Result)
    (events : List (ConsumerEvent Call)) (ks : Keyspace) : Pass Call :=
  match bus.complete result (w.clock n) ks with
  | (.error err,ks') => ⟨.error err,ks',events⟩
  | (.ok _,ks') =>
    let committed := .committed ⟨result.stamp (w.clock n),w.clock n,ks,ks'⟩::events
    match bus.ack o message (w.clock (n+1)) ks' with
    | (.error err,ks'') => ⟨.error err,ks'',committed⟩
    | (.ok _,ks'') => ⟨.ok (),ks'',.acked o message::committed⟩

def processMessage (n : Nat) (message : StreamEntry) (ks : Keyspace) : Pass Call :=
  match decodeCommand message.fields with
  -- the entry is not acknowledged, and every recovery meets it again
  | .error err => ⟨.error (.codec err),ks,[]⟩
  | .ok command =>
    match bus.completed command.id (w.clock n) ks with
    | (.error err,ks') => ⟨.error err,ks',[]⟩
    | (.ok found,ks') =>
      let (result,events) := messageResult handler w o (n+1) command found
      finishMessage bus w o (n+3) message result events ks'

/-- Five steps a message: the record, the handler's two, the transaction and the acknowledgement. -/
def processMessages : Nat → List StreamEntry → Keyspace → Pass Call
  | _, [], ks => ⟨.ok (),ks,[]⟩
  | n, message::rest, ks =>
    match processMessage bus handler w o n message ks with
    | ⟨.error err,ks',events⟩ => ⟨.error err,ks',events⟩
    | ⟨.ok _,ks',events⟩ =>
      let pass := processMessages (n+5) rest ks'
      ⟨pass.outcome,pass.redis,pass.events ++ events⟩

end Messages

/-- The state of `RunConsumer` between its calls, with the batches it handed to `processMessages`. -/
structure Progress (Call : Type) where
  step : Nat
  lastRecovery : Int
  handed : List (List StreamEntry)
  pass : Pass Call

def unlessReturned (f : Progress Call → Progress Call) (p : Progress Call) : Progress Call :=
  match p.pass.outcome with
  | .error _ => p
  | .ok _ => f p

section Loop

variable (bus : Bus) (handler : Handler View Call Reply) (w : Surroundings View Reply) (o : String)

def arrive (n : Nat) (ks : Keyspace) : Keyspace :=
  (w.arrivals n).foldl
    (fun ks a => (xadd (bus.commandStream o) streamMaxLen a.2 a.1 (w.clock n) ks).2) ks

def hand (p : Progress Call) (messages : List StreamEntry) (ks : Keyspace) : Progress Call :=
  let pass := processMessages bus handler w o (p.step+1) messages ks
  ⟨p.step+1+5*messages.length,p.lastRecovery,messages::p.handed,
    ⟨pass.outcome,pass.redis,pass.events ++ p.pass.events⟩⟩

def recoverPass (p : Progress Call) : Progress Call :=
  let ks := arrive bus w o p.step p.pass.redis
  if pendingMinIdle ≤ w.clock p.step-p.lastRecovery then
    match bus.recoverPending o (w.clock p.step) ks with
    | (.error err,ks') => { p with pass := ⟨.error err,ks',p.pass.events⟩ }
    | (.ok messages,ks') =>
      -- `lastRecovery` moves on only after the whole batch went through
      unlessReturned (fun p' => { p' with lastRecovery := w.clock p'.step })
        (hand bus handler w o p messages ks')
  else { p with step := p.step+1, pass := ⟨.ok (),ks,p.pass.events⟩ }

def readPass (p : Progress Call) : Progress Call :=
  let ks := arrive bus w o p.step p.pass.redis
  match bus.readNew o (w.clock p.step) ks with
  | (.error err,ks') => { p with pass := ⟨.error err,ks',p.pass.events⟩ }
  | (.ok none,ks') => { p with step := p.step+1, pass := ⟨.ok (),ks',p.pass.events⟩ }
  | (.ok (some messages),ks') => hand bus handler w o p messages ks'

def enterLoop (ks : Keyspace) : Progress Call :=
  if o = "" then
    ⟨0,zeroTime,[],⟨.error (.required "owner ID and command handler are required"),ks,[]⟩⟩
  else
    match bus.createGroup o (w.clock 0) ks with
    | (.error err,ks') => ⟨1,zeroTime,[],⟨.error err,ks',[]⟩⟩
    | (.ok _,ks') => ⟨1,zeroTime,[],⟨.ok (),ks',[]⟩⟩

def runConsumer (ks : Keyspace) : Nat → Progress Call
  | 0 => enterLoop bus w o ks
  | rounds+1 =>
    unlessReturned (readPass bus handler w o)
      (unlessReturned (recoverPass bus handler w o) (runConsumer ks rounds))

end Loop

end CsmsPlatform
