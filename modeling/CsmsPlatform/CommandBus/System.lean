import CsmsPlatform.CommandBus.Space

/-!
# Requests, consumers and their Redis

Any number of command requests publish to the streams of the owners and wait for results, while any
number of consumers run the loop of `RunConsumer` over those streams. A step is one Redis call of one
party, one step of a handler, a crash, or the passing of time. A call is made at one instant; it is
answered, or its reply is lost after it took effect, or it never reaches Redis, or the client's own
retry makes it once more.
-/

namespace CsmsPlatform

open Redis

/-- A handler reads its context and its runtime, and gives its result or calls out; the reply to the
call decides the result then. -/
structure Handler (View Call Reply : Type) where
  start : Option String → View → Command → Result ⊕ Call
  resume : Call → Reply → Result

/-- `handleCommand` as a handler; its calls are those of `callReset`. -/
def resetHandler (texts : ErrorTexts) :
    Handler RuntimeView (Version × ResetCommand) (Except String String) where
  start ctxErr view command :=
    match handleCommand texts ctxErr view command with
    | .respond result => .inl result
    | .callReset version request => .inr (version,request)
  resume call reply :=
    match callReset texts call.1 call.2 with
    | .error err => resetResult (.error err)
    | .ok _ => resetResult reply

/-- A transaction of `complete` that took effect, with Redis before and after it. -/
structure Commit where
  result : Result
  time : Int
  before : Keyspace
  after : Keyspace

inductive ConsumerEvent (Call : Type) where
  | called (ownerID : String) (command : Command) (call : Call)
  | handled (ownerID : String) (command : Command) (result : Result)
  | committed (commit : Commit)
  | acked (ownerID : String) (message : StreamEntry)

inductive Event (Request Call : Type) where
  | requested (request : Request) (command : Command)
  | answered (request : Request) (status : Nat)
  | consumed (event : ConsumerEvent Call)

/-- Which call gave a batch of messages, and so where the loop goes on after them. -/
inductive Origin where
  | recovered
  | read (lastRecovery : Int)
deriving DecidableEq, Repr

structure Frame where
  origin : Origin
  message : StreamEntry
  rest : List StreamEntry
deriving DecidableEq, Repr

/-- Where a consumer is. -/
inductive Pc (Call : Type) where
  | stopped
  | creating
  | loop (lastRecovery : Int)
  | reading (lastRecovery : Int)
  | batch (origin : Origin) (messages : List StreamEntry)
  | handling (frame : Frame) (command : Command)
  | calling (frame : Frame) (command : Command) (call : Call)
  | finishing (frame : Frame) (result : Result)
  | acking (frame : Frame)

/-- After a batch: a recovery sets `lastRecovery` and reads, a read goes around the loop. -/
def Origin.next {Call : Type} (now : Int) : Origin → Pc Call
  | .recovered => .reading now
  | .read lastRecovery => .loop lastRecovery

def BusCall.map {α β : Type} (call : BusCall α) (f : α → β) : BusCall β := fun now ks =>
  match call now ks with
  | (.ok a,ks') => (.ok (f a),ks')
  | (.error err,ks') => (.error err,ks')

def afterRead {Call : Type} (lastRecovery : Int) : Option (List StreamEntry) → Pc Call
  | none => .loop lastRecovery
  | some messages => .batch (.read lastRecovery) messages

def afterCompleted {Call : Type} (frame : Frame) (command : Command) : Option Result → Pc Call
  | none => .handling frame command
  | some result => .finishing frame result

/-- The call a consumer makes next, where it goes on once that is answered, and what took place. A
handler's own steps are not calls of the bus. -/
def advance {Call : Type} (bus : Bus) (ownerID : String) :
    Pc Call → BusCall (Pc Call × List (ConsumerEvent Call))
  | .stopped => fun _ ks => (.ok (.stopped,[]),ks)
  | .creating => (bus.createGroup ownerID).map fun _ => (.loop zeroTime,[])
  | .loop lastRecovery => fun now ks =>
    if pendingMinIdle ≤ now-lastRecovery then
      (bus.recoverPending ownerID).map (fun messages => (.batch .recovered messages,[])) now ks
    else (.ok (.reading lastRecovery,[]),ks)
  | .reading lastRecovery => (bus.readNew ownerID).map fun reply => (afterRead lastRecovery reply,[])
  | .batch origin [] => fun now ks => (.ok (origin.next now,[]),ks)
  | .batch origin (message::rest) => fun now ks =>
    match decodeCommand message.fields with
    -- a message that cannot be decoded ends the consumer
    | .error err => (.error (.codec err),ks)
    | .ok command => (bus.completed command.id).map
      (fun reply => (afterCompleted ⟨origin,message,rest⟩ command reply,[])) now ks
  | .handling frame command => fun _ ks => (.ok (.handling frame command,[]),ks)
  | .calling frame command call => fun _ ks => (.ok (.calling frame command call,[]),ks)
  | .finishing frame result => fun now ks =>
    match bus.complete result now ks with
    | (.ok _,ks') => (.ok (.acking frame,[.committed ⟨result.stamp now,now,ks,ks'⟩]),ks')
    | (.error err,ks') => (.error err,ks')
  | .acking frame => (bus.ack ownerID frame.message).map fun _ =>
    (.batch frame.origin frame.rest,[.acked ownerID frame.message])

inductive Fate where
  | answered
  | unanswered
  | unsent
  | retried
deriving DecidableEq, Repr

/-- What a caller sees of its call. -/
inductive Outcome (α : Type) where
  | answer (value : α)
  | failure
  | again

def Fate.perform {α : Type} (call : BusCall α) (now : Int) (ks : Keyspace) :
    Fate → Outcome α × Keyspace
  | .answered =>
    match call now ks with
    | (.ok a,ks') => (.answer a,ks')
    | (.error _,ks') => (.failure,ks')
  | .unanswered => (.failure,(call now ks).2)
  | .unsent => (.failure,ks)
  | .retried => (.again,(call now ks).2)

inductive Input (View Reply : Type) where
  | redis (fate : Fate)
  | run (ctxErr : Option String) (view : View)
  | reply (reply : Reply)

def Fate.events {α β : Type} (reply : Except BusError (α × List β)) : Fate → List β
  | .unsent => []
  | _ =>
    match reply with
    | .ok (_,events) => events
    | .error _ => []

/-- One step of a consumer. An error ends `RunConsumer`. -/
def consume {View Call Reply : Type} (bus : Bus) (handler : Handler View Call Reply) (ownerID : String)
    (pc : Pc Call) (input : Input View Reply) (now : Int) (ks : Keyspace) :
    Pc Call × Keyspace × List (ConsumerEvent Call) :=
  match input with
  | .redis fate =>
    let (outcome,ks') := fate.perform (advance bus ownerID pc) now ks
    let events := fate.events (advance bus ownerID pc now ks).1
    match outcome with
    | .answer (pc',_) => (pc',ks',events)
    | .failure => (.stopped,ks',events)
    | .again => (pc,ks',events)
  | .run ctxErr view =>
    match pc with
    | .handling frame command =>
      match handler.start (handlerContextErr ctxErr command.deadline now) view command with
      | .inl result =>
        (.finishing frame (result.seal command now),ks,[.handled ownerID command (result.seal command now)])
      | .inr call => (.calling frame command call,ks,[.called ownerID command call])
    | _ => (pc,ks,[])
  | .reply reply =>
    match pc with
    | .calling frame command call =>
      let result := (handler.resume call reply).seal command now
      (.finishing frame result,ks,[.handled ownerID command result])
    | _ => (pc,ks,[])

def commandTimeout : Int := 30*second

/-- Where `serverCommandHandler` is with a request that it has not turned away. -/
inductive RequestPc where
  | idle
  | publishing (command : Command)
  | awaiting (command : Command)
  | done (command : Command) (status : Nat)
deriving DecidableEq, Repr

def RequestPc.command : RequestPc → Option Command
  | .idle => none
  | .publishing command => some command
  | .awaiting command => some command
  | .done command _ => some command

structure Deployment (Consumer Request View Call Reply : Type) where
  bus : Bus
  ownerID : Consumer → String
  commandID : Request → String
  handler : Handler View Call Reply

structure System (Consumer Request Call : Type) where
  redis : Keyspace
  now : Int
  consumer : Consumer → Pc Call
  request : Request → RequestPc
  trace : List (Event Request Call)

inductive Action (Consumer Request View Reply : Type) where
  | append (ownerID : String) (fields : List (String × String)) (evict : Nat)
  | startConsumer (consumer : Consumer)
  | consume (consumer : Consumer) (input : Input View Reply)
  | crash (consumer : Consumer)
  | request (request : Request) (identity : String) (lease : Lease) (payload : ResetCommand)
  | publish (request : Request) (fate : Fate) (evict : Nat)
  | duplicate (request : Request) (evict : Nat)
  | await (request : Request) (fate : Fate)
  | giveUp (request : Request)
  | wait (nanoseconds : Nat)

namespace System

variable {Consumer Request View Call Reply : Type}

def start (ks : Keyspace) (now : Int) : System Consumer Request Call :=
  ⟨ks,now,fun _ => .stopped,fun _ => .idle,[]⟩

def setConsumer [DecidableEq Consumer] (s : System Consumer Request Call) (c : Consumer) (pc : Pc Call) :
    System Consumer Request Call :=
  { s with consumer := fun c' => if c' = c then pc else s.consumer c' }

def setRequest [DecidableEq Request] (s : System Consumer Request Call) (r : Request) (pc : RequestPc) :
    System Consumer Request Call :=
  { s with request := fun r' => if r' = r then pc else s.request r' }

variable [DecidableEq Consumer] [DecidableEq Request]

def answer (s : System Consumer Request Call) (r : Request) (command : Command) (status : Nat) :
    System Consumer Request Call :=
  { s.setRequest r (.done command status) with trace := .answered r status::s.trace }

variable (d : Deployment Consumer Request View Call Reply)

def step (s : System Consumer Request Call) :
    Action Consumer Request View Reply → System Consumer Request Call
  | .append ownerID fields evict =>
    { s with redis := (xadd (d.bus.commandStream ownerID) streamMaxLen evict fields s.now s.redis).2 }
  | .startConsumer c =>
    match s.consumer c with
    | .stopped => if d.ownerID c = "" then s else s.setConsumer c .creating
    | _ => s
  | .consume c input =>
    let (pc,ks,events) := CsmsPlatform.consume d.bus d.handler (d.ownerID c) (s.consumer c) input s.now s.redis
    { s.setConsumer c pc with redis := ks, trace := events.map .consumed ++ s.trace }
  | .crash c => s.setConsumer c .stopped
  | .request r identity lease payload =>
    match s.request r with
    | .idle =>
      let command : Command := ⟨d.commandID r,identity,lease.ownerID,lease.generation,resetAction,
        encodeReset payload,s.now,s.now+commandTimeout⟩
      { s.setRequest r (.publishing command) with trace := .requested r command::s.trace }
    | _ => s
  | .publish r fate evict =>
    match s.request r with
    | .publishing command =>
      let (outcome,ks) := fate.perform (d.bus.publish command evict) s.now s.redis
      match outcome with
      | .answer _ => { s.setRequest r (.awaiting command) with redis := ks }
      | .failure => { s.answer r command 503 with redis := ks }
      | .again => { s with redis := ks }
    | _ => s
  | .duplicate r evict =>
    match (s.request r).command with
    | some command => { s with redis := (d.bus.publish command evict s.now s.redis).2 }
    | none => s
  | .await r fate =>
    match s.request r with
    | .awaiting command =>
      let (outcome,ks) := fate.perform (d.bus.pollResult command.id) s.now s.redis
      match outcome with
      | .answer none => { s with redis := ks }
      | .answer (some result) =>
        { s.answer r command (if result.success then 200 else 409) with redis := ks }
      | .failure => { s.answer r command 504 with redis := ks }
      | .again => { s with redis := ks }
    | _ => s
  | .giveUp r =>
    match s.request r with
    | .awaiting command => s.answer r command 504
    | _ => s
  | .wait n => { s with now := s.now+n }

def run (s : System Consumer Request Call) (actions : List (Action Consumer Request View Reply)) :
    System Consumer Request Call :=
  actions.foldl (step d) s

end System

end CsmsPlatform
