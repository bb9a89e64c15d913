import CsmsPlatform.CommandBus.System

/-!
# What a step can do

The changes a consumer's step can make, the changes an action of the whole system is made of, and
the rule by which a property that every such change keeps holds along every run.
-/

namespace CsmsPlatform

open Redis

variable {Consumer Request View Call Reply : Type}

def Bus.Typed (bus : Bus) (ks : Keyspace) : Prop := bus.Holds (fun _ _ => True) (fun _ _ => True) ks

inductive Advances (bus : Bus) (o : String) (now : Int) (ks : Keyspace) :
    Pc Call → Pc Call → List (ConsumerEvent Call) → Keyspace → Prop
  | idle (pc : Pc Call) : Advances bus o now ks pc pc [] ks
  | joined : Advances bus o now ks .creating (.loop zeroTime) [] ks
  | created (hg : (bus.stream ks o).group consumerGroup = none) :
    Advances bus o now ks .creating (.loop zeroTime) []
      (ks.putStream (bus.commandStream o) ((bus.stream ks o).setGroup consumerGroup ⟨0,[]⟩))
  | skipped (lastRecovery : Int) : Advances bus o now ks (.loop lastRecovery) (.reading lastRecovery) [] ks
  | recovered (lastRecovery : Int) {v : StreamValue} {g : ConsumerGroup}
    (hv : ks.stream (bus.commandStream o) = some v) (hg : v.group consumerGroup = some g) :
    Advances bus o now ks (.loop lastRecovery)
      (.batch .recovered (claimScan v now pendingMinIdle (10*10) 10 g.pending).2) []
      (ks.putStream (bus.commandStream o) (v.setGroup consumerGroup
        { g with pending := (claimScan v now pendingMinIdle (10*10) 10 g.pending).1 }))
  | waited (lastRecovery : Int) : Advances bus o now ks (.reading lastRecovery) (.loop lastRecovery) [] ks
  | read (lastRecovery : Int) {v : StreamValue} {g : ConsumerGroup}
    (hv : ks.stream (bus.commandStream o) = some v) (hg : v.group consumerGroup = some g) :
    Advances bus o now ks (.reading lastRecovery) (.batch (.read lastRecovery) (v.undelivered g 1)) []
      (ks.putStream (bus.commandStream o)
        (v.setGroup consumerGroup (g.deliver now (v.undelivered g 1))))
  | finished (origin : Origin) : Advances bus o now ks (.batch origin []) (origin.next now) [] ks
  | found {frame : Frame} {command : Command} {content : String} {e : Option Int} {result : Result}
    (hd : decodeCommand frame.message.fields = .ok command)
    (hk : ks (bus.completionKey command.id) = some ⟨.string content,e⟩)
    (hr : decodeResult content = some result) :
    Advances bus o now ks (.batch frame.origin (frame.message::frame.rest)) (.finishing frame result) [] ks
  | missing {frame : Frame} {command : Command}
    (hd : decodeCommand frame.message.fields = .ok command)
    (hl : ks.live now (bus.completionKey command.id) = none) :
    Advances bus o now ks (.batch frame.origin (frame.message::frame.rest)) (.handling frame command) [] ks
  | committed {frame : Frame} {result : Result} {content : String}
    (henc : encodeResult (result.stamp now) = some content) :
    Advances bus o now ks (.finishing frame result) (.acking frame)
      [.committed ⟨result.stamp now,now,ks,bus.written ks now result.commandID content⟩]
      (bus.written ks now result.commandID content)
  | acked {frame : Frame} {v : StreamValue} {g : ConsumerGroup}
    (hv : ks.stream (bus.commandStream o) = some v) (hg : v.group consumerGroup = some g) :
    Advances bus o now ks (.acking frame) (.batch frame.origin frame.rest) [.acked o frame.message]
      (ks.putStream (bus.commandStream o) (v.setGroup consumerGroup
        { g with pending := g.pending.filter fun p => p.id ≠ frame.message.id }))
  | ackedNone {frame : Frame}
    (hn : ((ks.stream (bus.commandStream o)).bind fun v => v.group consumerGroup) = none) :
    Advances bus o now ks (.acking frame) (.batch frame.origin frame.rest) [.acked o frame.message] ks

theorem advance_spec {bus : Bus} {ks : Keyspace} (h : bus.Typed ks) (o : String) (now : Int)
    (pc : Pc Call) :
    (∃ err, advance bus o pc now ks = (.error err,ks)) ∨
    ∃ pc' events ks', advance bus o pc now ks = (.ok (pc',events),ks') ∧
      Advances bus o now ks pc pc' events ks' := by
  cases pc with
  | stopped => exact .inr ⟨_,_,_,rfl,.idle _⟩
  | creating =>
    rcases Bus.createGroup_cases h now o with ⟨_,he⟩ | ⟨hg,he⟩
    · exact .inr ⟨_,_,_,by simp only [advance,BusCall.map,he],.joined⟩
    · exact .inr ⟨_,_,_,by simp only [advance,BusCall.map,he],.created hg⟩
  | loop lastRecovery =>
    by_cases hdue : pendingMinIdle ≤ now-lastRecovery
    · rcases Bus.recoverPending_cases h now o with ⟨_,err,he⟩ | ⟨v,g,hv,hg,he⟩
      · exact .inl ⟨err,by simp only [advance,if_pos hdue,BusCall.map,he]⟩
      · exact .inr ⟨_,_,_,by simp only [advance,if_pos hdue,BusCall.map,he],.recovered _ hv hg⟩
    · exact .inr ⟨_,_,_,by simp only [advance,if_neg hdue],.skipped _⟩
  | reading lastRecovery =>
    rcases Bus.readNew_cases h now o with ⟨_,err,he⟩ | he | ⟨v,g,hv,hg,he⟩
    · exact .inl ⟨err,by simp only [advance,BusCall.map,he]⟩
    · exact .inr ⟨_,_,_,by simp only [advance,BusCall.map,he,afterRead],.waited _⟩
    · exact .inr ⟨_,_,_,by simp only [advance,BusCall.map,he,afterRead],.read _ hv hg⟩
  | batch origin messages =>
    cases messages with
    | nil => exact .inr ⟨_,_,_,rfl,.finished _⟩
    | cons message rest =>
      cases hd : decodeCommand message.fields with
      | error err => exact .inl ⟨.codec err,by simp only [advance,hd]⟩
      | ok command =>
        rcases Bus.completed_cases h now command.id with
          ⟨_,err,_,_,he⟩ | ⟨hl,he⟩ | ⟨content,e,result,hk,hr,he⟩
        · exact .inl ⟨err,by simp only [advance,hd,BusCall.map,he]⟩
        · exact .inr ⟨_,_,_,by simp only [advance,hd,BusCall.map,he,afterCompleted],
            @Advances.missing _ _ _ _ _ ⟨origin,message,rest⟩ _ hd hl⟩
        · exact .inr ⟨_,_,_,by simp only [advance,hd,BusCall.map,he,afterCompleted],
            @Advances.found _ _ _ _ _ ⟨origin,message,rest⟩ _ _ _ _ hd hk hr⟩
  | handling frame command => exact .inr ⟨_,_,_,rfl,.idle _⟩
  | calling frame command call => exact .inr ⟨_,_,_,rfl,.idle _⟩
  | finishing frame result =>
    rcases Bus.complete_cases h now result with ⟨err,he⟩ | ⟨content,henc,he⟩
    · exact .inl ⟨err,by simp only [advance,he]⟩
    · exact .inr ⟨_,_,_,by simp only [advance,he],.committed henc⟩
  | acking frame =>
    rcases Bus.ack_cases h now o frame.message with ⟨hn,he⟩ | ⟨v,g,hv,hg,he⟩
    · exact .inr ⟨_,_,_,by simp only [advance,BusCall.map,he],.ackedNone hn⟩
    · exact .inr ⟨_,_,_,by simp only [advance,BusCall.map,he],.acked hv hg⟩

inductive Consumes (bus : Bus) (handler : Handler View Call Reply) (o : String) (now : Int)
    (ks : Keyspace) : Pc Call → Pc Call → List (ConsumerEvent Call) → Keyspace → Prop
  | halted (pc : Pc Call) : Consumes bus handler o now ks pc .stopped [] ks
  | stayed (pc : Pc Call) : Consumes bus handler o now ks pc pc [] ks
  | started : Consumes bus handler o now ks .stopped .creating [] ks
  | called {pc next pc' : Pc Call} {events : List (ConsumerEvent Call)} {ks' : Keyspace}
    (ha : Advances bus o now ks pc next events ks') (hpc : pc' = next ∨ pc' = pc ∨ pc' = .stopped) :
    Consumes bus handler o now ks pc pc' events ks'
  | responded {frame : Frame} {command : Command} {ctxErr : Option String} {view : View}
    {result : Result}
    (hs : handler.start (handlerContextErr ctxErr command.deadline now) view command = .inl result) :
    Consumes bus handler o now ks (.handling frame command)
      (.finishing frame (result.seal command now)) [.handled o command (result.seal command now)] ks
  | calledOut {frame : Frame} {command : Command} {ctxErr : Option String} {view : View} {call : Call}
    (hs : handler.start (handlerContextErr ctxErr command.deadline now) view command = .inr call) :
    Consumes bus handler o now ks (.handling frame command) (.calling frame command call)
      [.called o command call] ks
  | resumed {frame : Frame} {command : Command} {call : Call} (reply : Reply) :
    Consumes bus handler o now ks (.calling frame command call)
      (.finishing frame ((handler.resume call reply).seal command now))
      [.handled o command ((handler.resume call reply).seal command now)] ks

theorem consume_spec {bus : Bus} {ks : Keyspace} (h : bus.Typed ks) (handler : Handler View Call Reply)
    (o : String) (now : Int) (pc : Pc Call) (input : Input View Reply) :
    Consumes bus handler o now ks pc (consume bus handler o pc input now ks).1
      (consume bus handler o pc input now ks).2.2 (consume bus handler o pc input now ks).2.1 := by
  cases input with
  | redis fate =>
    rcases advance_spec h o now pc with ⟨err,he⟩ | ⟨pc',events,ks',he,ha⟩
    · cases fate with
      | retried =>
        simp only [consume,Fate.perform,Fate.events,he]
        exact .stayed pc
      | answered | unanswered | unsent =>
        simp only [consume,Fate.perform,Fate.events,he]
        exact .halted pc
    · cases fate with
      | answered =>
        simp only [consume,Fate.perform,Fate.events,he]
        exact .called ha (.inl rfl)
      | unanswered =>
        simp only [consume,Fate.perform,Fate.events,he]
        exact .called ha (.inr (.inr rfl))
      | unsent =>
        simp only [consume,Fate.perform,Fate.events]
        exact .halted pc
      | retried =>
        simp only [consume,Fate.perform,Fate.events,he]
        exact .called ha (.inr (.inl rfl))
  | run ctxErr view =>
    cases pc with
    | handling frame command =>
      cases hs : handler.start (handlerContextErr ctxErr command.deadline now) view command with
      | inl result =>
        simp only [consume,hs]
        exact .responded hs
      | inr call =>
        simp only [consume,hs]
        exact .calledOut hs
    | stopped | creating | loop | reading | batch | calling | finishing | acking => exact .stayed _
  | reply reply =>
    cases pc with
    | calling frame command call => exact .resumed reply
    | stopped | creating | loop | reading | batch | handling | finishing | acking => exact .stayed _

theorem Fate.perform_ok {α : Type} {call : BusCall α} {now : Int} {ks : Keyspace} {a : α}
    (h : (call now ks).1 = .ok a) :
    Fate.perform call now ks .answered = (.answer a,(call now ks).2) := by
  cases he : call now ks with
  | mk reply ks' =>
    rw [he] at h
    dsimp only at h
    subst h
    simp only [Fate.perform,he]

theorem Fate.perform_error {α : Type} {call : BusCall α} {now : Int} {ks : Keyspace} {err : BusError}
    (h : (call now ks).1 = .error err) :
    Fate.perform call now ks .answered = (.failure,(call now ks).2) := by
  cases he : call now ks with
  | mk reply ks' =>
    rw [he] at h
    dsimp only at h
    subst h
    simp only [Fate.perform,he]

namespace System

variable [DecidableEq Consumer] [DecidableEq Request]

def appendEntry (bus : Bus) (s : System Consumer Request Call) (o : String)
    (fields : List (String × String)) (evict : Nat) : System Consumer Request Call :=
  let v := (bus.stream s.redis o).append streamMaxLen evict fields
  { s with redis := s.redis.putStream (bus.commandStream o) v }

def moved (s : System Consumer Request Call) (c : Consumer) (pc : Pc Call)
    (events : List (ConsumerEvent Call)) (ks : Keyspace) : System Consumer Request Call :=
  { s.setConsumer c pc with redis := ks, trace := events.map .consumed ++ s.trace }

inductive Change (d : Deployment Consumer Request View Call Reply)
    (a : Action Consumer Request View Reply) (s : System Consumer Request Call) :
    System Consumer Request Call → Prop
  | consumer (c : Consumer) {pc : Pc Call} {events : List (ConsumerEvent Call)} {ks : Keyspace}
    (hc : Consumes d.bus d.handler (d.ownerID c) s.now s.redis (s.consumer c) pc events ks) :
    Change d a s (s.moved c pc events ks)
  | appended (o : String) (fields : List (String × String)) (evict : Nat)
    (ha : a = .append o fields evict) :
    Change d a s (s.appendEntry d.bus o fields evict)
  | published (r : Request) {command : Command} (evict : Nat)
    (ha : (∃ fate, a = .publish r fate evict) ∨ a = .duplicate r evict)
    (hr : (s.request r).command = some command) (hv : validateCommand command = .ok ()) :
    Change d a s (s.appendEntry d.bus command.ownerID (commandFields command) evict)
  | requested (r : Request) {command : Command} (hr : s.request r = .idle)
    (hid : command.id = d.commandID r) (hcreated : command.createdAt = s.now)
    (hdeadline : command.deadline = s.now+commandTimeout) :
    Change d a s { s.setRequest r (.publishing command) with trace := .requested r command::s.trace }
  | awaiting (r : Request) {command : Command} (hr : s.request r = .publishing command) :
    Change d a s (s.setRequest r (.awaiting command))
  | answered (r : Request) {command : Command} (status : Nat)
    (hr : (s.request r).command = some command)
    (hok : status = 200 → ∃ result, result.success = true ∧
      (d.bus.pollResult command.id s.now s.redis).1 = .ok (some result)) :
    Change d a s (s.answer r command status)
  | polled (id : String) : Change d a s { s with redis := (d.bus.pollResult id s.now s.redis).2 }
  | waited (n : Nat) : Change d a s { s with now := s.now+n }

variable {d : Deployment Consumer Request View Call Reply} {P : System Consumer Request Call → Prop}
  {a : Action Consumer Request View Reply} {s : System Consumer Request Call}

theorem publish_keeps (htyped : ∀ s, P s → d.bus.Typed s.redis)
    (hkeep : ∀ s s', P s → Change d a s s' → P s') (h : P s) (r : Request) {command : Command}
    {evict : Nat} (ha : (∃ fate, a = .publish r fate evict) ∨ a = .duplicate r evict)
    (hr : (s.request r).command = some command) :
    P { s with redis := (d.bus.publish command evict s.now s.redis).2 } := by
  rcases Bus.publish_cases (htyped s h) s.now command evict with ⟨err,he⟩ | ⟨hv,he⟩
  · rw [he]
    exact h
  · rw [he]
    exact hkeep s _ h (.published r evict ha hr hv)

/-- A property that every change of an action keeps is kept by the action. -/
theorem step_keeps (htyped : ∀ s, P s → d.bus.Typed s.redis)
    (hkeep : ∀ s s', P s → Change d a s s' → P s') (h : P s) : P (s.step d a) := by
  cases a with
  | append o fields evict =>
    have he := xadd_stream ((htyped s h).holdsStream o) s.now streamMaxLen evict fields
    simp only [step,he]
    exact hkeep s _ h (.appended o fields evict rfl)
  | startConsumer c =>
    simp only [step]
    split
    · next hc =>
      split
      · exact h
      · have hstart : Consumes d.bus d.handler (d.ownerID c) s.now s.redis (s.consumer c) .creating []
            s.redis := by
          rw [hc]
          exact .started
        exact hkeep s _ h (.consumer c hstart)
    · exact h
  | consume c input =>
    exact hkeep s _ h (.consumer c (consume_spec (htyped s h) d.handler _ s.now _ input))
  | crash c => exact hkeep s _ h (.consumer c (.halted _))
  | request r identity lease payload =>
    simp only [step]
    split
    · next hr => exact hkeep s _ h (.requested r hr rfl rfl rfl)
    · exact h
  | publish r fate evict =>
    simp only [step]
    split
    · next command hr =>
      -- a publish changes the stream and then the request, each a change of its own
      have hcmd : (s.request r).command = some command := by rw [hr]; rfl
      have hp := publish_keeps htyped hkeep h r (.inl ⟨fate,rfl⟩) hcmd
      have hok : ¬(503 : Nat) = 200 := by decide
      cases fate with
      | answered =>
        cases he : (d.bus.publish command evict s.now s.redis).1 with
        | ok u =>
          rw [Fate.perform_ok he]
          exact hkeep _ _ hp (.awaiting r hr)
        | error err =>
          rw [Fate.perform_error he]
          exact hkeep _ _ hp (.answered r 503 hcmd (fun h => absurd h hok))
      | unanswered => exact hkeep _ _ hp (.answered r 503 hcmd (fun h => absurd h hok))
      | unsent => exact hkeep s _ h (.answered r 503 hcmd (fun h => absurd h hok))
      | retried => exact hp
    · exact h
  | duplicate r evict =>
    simp only [step]
    split
    · next command hr => exact publish_keeps htyped hkeep h r (.inr rfl) hr
    · exact h
  | await r fate =>
    simp only [step]
    split
    · next command hr =>
      have hcmd : (s.request r).command = some command := by rw [hr]; rfl
      -- a poll that takes the result is two changes: the answer and the list
      have hfail : P (s.answer r command 504) :=
        hkeep s _ h (.answered r 504 hcmd (fun h => absurd h (by decide)))
      cases fate with
      | answered =>
        cases he : (d.bus.pollResult command.id s.now s.redis).1 with
        | error err =>
          rw [Fate.perform_error he]
          exact hkeep _ _ hfail (.polled command.id)
        | ok reply =>
          rw [Fate.perform_ok he]
          cases reply with
          | none => exact hkeep s _ h (.polled command.id)
          | some result =>
            have hanswer : P (s.answer r command (if result.success then 200 else 409)) := by
              apply hkeep s _ h
              apply Change.answered r _ hcmd
              intro hs
              refine ⟨result,?_,he⟩
              by_contra hf
              rw [if_neg hf] at hs
              cases hs
            exact hkeep _ _ hanswer (.polled command.id)
      | unanswered => exact hkeep _ _ hfail (.polled command.id)
      | unsent => exact hfail
      | retried => exact hkeep s _ h (.polled command.id)
    · exact h
  | giveUp r =>
    simp only [step]
    split
    · next command hr =>
      have hcmd : (s.request r).command = some command := by rw [hr]; rfl
      exact hkeep s _ h (.answered r 504 hcmd (fun h => absurd h (by decide)))
    · exact h
  | wait n => exact hkeep s _ h (.waited n)

/-- A property that every change keeps, of actions as they are allowed here, holds after every run. -/
theorem run_keeps {Allowed : Action Consumer Request View Reply → Prop}
    (htyped : ∀ s, P s → d.bus.Typed s.redis)
    (hkeep : ∀ a s s', Allowed a → P s → Change d a s s' → P s') (h : P s)
    (actions : List (Action Consumer Request View Reply)) (hall : ∀ a ∈ actions, Allowed a) :
    P (s.run d actions) := by
  induction actions generalizing s with
  | nil => exact h
  | cons a actions ih =>
    have hstep : P (s.step d a) :=
      step_keeps htyped (fun s s' => hkeep a s s' (hall a List.mem_cons_self)) h
    exact ih hstep (fun b hb => hall b (List.mem_cons_of_mem _ hb))

end System

end CsmsPlatform
