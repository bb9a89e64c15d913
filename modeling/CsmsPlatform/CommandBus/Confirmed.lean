import CsmsPlatform.CommandBus.Payload

/-!
# A success is the station's own word

Between a request and its answer stand two runtimes, a stream, a handler, a station and a result that is
written and read back. The answer is traced back through all of them: to the call that the station's
owner made for this request, and to the reply that it got to this call.
-/

namespace CsmsPlatform

open Redis

variable {Consumer Request View Call Reply : Type}

/-! ## Where a consumer's call begins and where it ends -/

section Consumer

variable {bus : Bus} {handler : Handler View Call Reply} {o : String} {now : Int} {ks : Keyspace}

theorem BusCall.map_ok {α β : Type} {call : BusCall α} {f : α → β} {b : β}
    (h : (call.map f now ks).1 = .ok b) : ∃ a, b = f a := by
  unfold BusCall.map at h
  split at h
  · cases h
    exact ⟨_,rfl⟩
  · cases h

theorem handled_nil (o' : String) (command : Command) (result : Result) :
    ConsumerEvent.handled o' command result ∉ ([] : List (ConsumerEvent Call)) :=
  List.not_mem_nil

theorem advance_quiet {pc pc' : Pc Call} {events : List (ConsumerEvent Call)}
    (h : (advance bus o pc now ks).1 = .ok (pc',events)) :
    (∀ frame command call, pc' = .calling frame command call → pc = .calling frame command call) ∧
      ∀ o' command result, .handled o' command result ∉ events := by
  cases pc with
  | stopped | handling | calling =>
    cases h
    exact ⟨fun _ _ _ h => h,handled_nil⟩
  | creating =>
    obtain ⟨_,he⟩ := BusCall.map_ok h
    cases he
    exact ⟨nofun,handled_nil⟩
  | loop lastRecovery =>
    unfold advance at h
    dsimp only at h
    split at h
    · obtain ⟨_,he⟩ := BusCall.map_ok h
      cases he
      exact ⟨nofun,handled_nil⟩
    · cases h
      exact ⟨nofun,handled_nil⟩
  | reading lastRecovery =>
    obtain ⟨reply,he⟩ := BusCall.map_ok h
    cases he
    cases reply <;> exact ⟨nofun,handled_nil⟩
  | batch origin messages =>
    cases messages with
    | nil =>
      cases h
      cases origin <;> exact ⟨nofun,handled_nil⟩
    | cons message rest =>
      unfold advance at h
      dsimp only at h
      split at h
      · cases h
      · obtain ⟨reply,he⟩ := BusCall.map_ok h
        cases he
        cases reply <;> exact ⟨nofun,handled_nil⟩
  | finishing frame result =>
    unfold advance at h
    dsimp only at h
    split at h
    · cases h
      exact ⟨nofun,by simp⟩
    · cases h
  | acking frame =>
    obtain ⟨_,he⟩ := BusCall.map_ok h
    cases he
    exact ⟨nofun,by simp⟩

theorem consume_redis_quiet (pc : Pc Call) (fate : Fate) :
    (∀ frame command call, (consume bus handler o pc (.redis fate) now ks).1 = .calling frame command call →
      pc = .calling frame command call) ∧
    ∀ o' command result, .handled o' command result ∉
      (consume bus handler o pc (.redis fate) now ks).2.2 := by
  have hstopped (frame : Frame) (command : Command) (call : Call)
      (h : Pc.stopped = .calling frame command call) : pc = .calling frame command call := by
    cases h
  cases hreply : advance bus o pc now ks with
  | mk reply ks' =>
    cases reply with
    | error err =>
      cases fate with
      | answered | unanswered | unsent =>
        simp only [consume,Fate.perform,Fate.events,hreply]
        exact ⟨hstopped,handled_nil⟩
      | retried =>
        simp only [consume,Fate.perform,Fate.events,hreply]
        exact ⟨fun _ _ _ h => h,handled_nil⟩
    | ok next =>
      obtain ⟨pc',events⟩ := next
      have hquiet := advance_quiet (congrArg Prod.fst hreply)
      cases fate with
      | answered =>
        simp only [consume,Fate.perform,Fate.events,hreply]
        exact hquiet
      | unanswered =>
        simp only [consume,Fate.perform,Fate.events,hreply]
        exact ⟨hstopped,hquiet.2⟩
      | unsent =>
        simp only [consume,Fate.perform,Fate.events]
        exact ⟨hstopped,handled_nil⟩
      | retried =>
        simp only [consume,Fate.perform,Fate.events,hreply]
        exact ⟨fun _ _ _ h => h,hquiet.2⟩

theorem consume_calling {pc : Pc Call} {input : Input View Reply} {frame : Frame} {command : Command}
    {call : Call} (h : (consume bus handler o pc input now ks).1 = .calling frame command call)
    (hnot : pc ≠ .calling frame command call) :
    ∃ ctxErr view, input = .run ctxErr view ∧ pc = .handling frame command ∧
      handler.start (handlerContextErr ctxErr command.deadline now) view command = .inr call := by
  cases input with
  | redis fate => exact absurd ((consume_redis_quiet pc fate).1 _ _ _ h) hnot
  | reply reply =>
    unfold consume at h
    dsimp only at h
    split at h
    · cases h
    · exact absurd h hnot
  | run ctxErr view =>
    unfold consume at h
    dsimp only at h
    split at h
    · split at h
      · cases h
      · next hstart =>
        cases h
        exact ⟨ctxErr,view,rfl,rfl,hstart⟩
    · exact absurd h hnot

theorem consume_handled {pc : Pc Call} {input : Input View Reply} {o' : String} {command : Command}
    {result : Result} (h : .handled o' command result ∈ (consume bus handler o pc input now ks).2.2) :
    o' = o ∧ ((∃ ctxErr view own, input = .run ctxErr view ∧ result = own.seal command now ∧
        handler.start (handlerContextErr ctxErr command.deadline now) view command = .inl own) ∨
      ∃ frame call reply, input = .reply reply ∧ pc = .calling frame command call ∧
        result = (handler.resume call reply).seal command now) := by
  cases input with
  | redis fate => exact absurd h ((consume_redis_quiet pc fate).2 _ _ _)
  | run ctxErr view =>
    unfold consume at h
    dsimp only at h
    split at h
    · split at h
      · next hstart =>
        cases List.mem_singleton.mp h
        exact ⟨rfl,.inl ⟨ctxErr,view,_,rfl,rfl,hstart⟩⟩
      · cases List.mem_singleton.mp h
    · cases h
  | reply reply =>
    unfold consume at h
    dsimp only at h
    split at h
    · cases List.mem_singleton.mp h
      exact ⟨rfl,.inr ⟨_,_,reply,rfl,rfl,rfl⟩⟩
    · cases h

end Consumer

namespace System

variable [DecidableEq Consumer] [DecidableEq Request]
  {d : Deployment Consumer Request View Call Reply} {s : System Consumer Request Call}

theorem step_quiet (a : Action Consumer Request View Reply) : (∃ c input, a = .consume c input) ∨
    (∀ c, (s.step d a).consumer c = s.consumer c ∨ (s.step d a).consumer c = .creating ∨
      (s.step d a).consumer c = .stopped) ∧
    ∀ e, .consumed e ∈ (s.step d a).trace → .consumed e ∈ s.trace := by
  cases a with
  | consume c input => exact .inl ⟨c,input,rfl⟩
  | append | wait => exact .inr ⟨fun _ => .inl rfl,fun _ h => h⟩
  | startConsumer c =>
    right
    simp only [step]
    split
    · split
      · exact ⟨fun _ => .inl rfl,fun _ h => h⟩
      · refine ⟨fun c' => ?_,fun _ h => h⟩
        by_cases hc : c' = c <;> simp [setConsumer,hc]
    · exact ⟨fun _ => .inl rfl,fun _ h => h⟩
  | crash c =>
    refine .inr ⟨fun c' => ?_,fun _ h => h⟩
    by_cases hc : c' = c <;> simp [step,setConsumer,hc]
  | request | publish | duplicate | await | giveUp =>
    right
    simp only [step]
    repeat' split
    all_goals exact ⟨fun _ => .inl rfl,fun _ h => by simpa [answer,setRequest] using h⟩

theorem step_calling {a : Action Consumer Request View Reply} {c : Consumer} {frame : Frame}
    {command : Command} {call : Call} (h : (s.step d a).consumer c = .calling frame command call)
    (hnot : s.consumer c ≠ .calling frame command call) :
    ∃ ctxErr view, a = .consume c (.run ctxErr view) ∧ s.consumer c = .handling frame command ∧
      d.handler.start (handlerContextErr ctxErr command.deadline s.now) view command = .inr call := by
  rcases step_quiet (d := d) (s := s) a with ⟨c',input,rfl⟩ | ⟨hsame,_⟩
  · by_cases hc : c = c'
    · subst hc
      simp only [step,setConsumer,if_true] at h
      obtain ⟨ctxErr,view,rfl,hhandling,hstart⟩ := consume_calling h hnot
      exact ⟨ctxErr,view,rfl,hhandling,hstart⟩
    · simp only [step,setConsumer,if_neg hc] at h
      exact absurd h hnot
  · rcases hsame c with hsame | hsame | hsame
    · exact absurd (hsame.symm.trans h) hnot
    · cases hsame.symm.trans h
    · cases hsame.symm.trans h

theorem step_handled {a : Action Consumer Request View Reply} {o : String} {command : Command}
    {result : Result} (h : .consumed (.handled o command result) ∈ (s.step d a).trace)
    (hnot : .consumed (.handled o command result) ∉ s.trace) :
    ∃ c, o = d.ownerID c ∧ ((∃ ctxErr view own, result = own.seal command s.now ∧
        d.handler.start (handlerContextErr ctxErr command.deadline s.now) view command = .inl own) ∨
      ∃ frame call reply, a = .consume c (.reply reply) ∧ s.consumer c = .calling frame command call ∧
        result = (d.handler.resume call reply).seal command s.now) := by
  rcases step_quiet (d := d) (s := s) a with ⟨c,input,rfl⟩ | ⟨_,hsame⟩
  · simp only [step] at h
    rcases List.mem_append.mp h with h | h
    · obtain ⟨e,he,hevent⟩ := List.mem_map.mp h
      cases hevent
      obtain ⟨ho,⟨ctxErr,view,own,_,hresult,hstart⟩ | ⟨frame,call,reply,rfl,hpc,hresult⟩⟩ :=
        consume_handled he
      · exact ⟨c,ho,.inl ⟨ctxErr,view,own,hresult,hstart⟩⟩
      · exact ⟨c,ho,.inr ⟨frame,call,reply,rfl,hpc,hresult⟩⟩
    · exact absurd h hnot
  · exact absurd (hsame _ h) hnot

theorem run_since {P : System Consumer Request Call → Prop}
    {actions : List (Action Consumer Request View Reply)} (h : P (s.run d actions)) (hnot : ¬ P s) :
    ∃ before a after, actions = before ++ a::after ∧ ¬ P (s.run d before) ∧
      P ((s.run d before).step d a) ∧ ∀ mid, mid <+: after → P (s.run d (before ++ a::mid)) := by
  obtain ⟨before,a,after,hactions,hbefore,hsince⟩ := History.foldl_since actions h hnot
  have hstep := hsince [] List.nil_prefix
  rw [List.foldl_append] at hstep
  exact ⟨before,a,after,hactions,hbefore,hstep,hsince⟩

end System

/-! ## Resets -/

theorem handlerContextErr_none {parent : Option String} {deadline now : Int}
    (h : handlerContextErr parent deadline now = none) : parent = none := by
  cases parent with
  | none => rfl
  | some err => cases h

@[simp] theorem seal_success (result : Result) (command : Command) (now : Int) :
    (result.seal command now).success = result.success := by
  unfold Result.seal Result.stamp
  split <;> rfl

@[simp] theorem seal_payload (result : Result) (command : Command) (now : Int) :
    (result.seal command now).payload = result.payload := by
  unfold Result.seal Result.stamp
  split <;> rfl

section Handler

variable {texts : ErrorTexts} {ctxErr : Option String} {view : RuntimeView} {command : Command}

theorem resetHandler_owner {call : Version × ResetCommand}
    (h : (resetHandler texts).start ctxErr view command = .inr call) :
    ctxErr = none ∧ view.isOwner command = true := by
  unfold resetHandler at h
  dsimp only at h
  split at h
  · cases h
  · next hcall => exact handleCommand_callReset hcall

theorem resetHandler_responds {result : Result}
    (h : (resetHandler texts).start ctxErr view command = .inl result) : result.success = false := by
  unfold resetHandler at h
  dsimp only at h
  split at h
  · next hrespond =>
    cases h
    obtain ⟨code,description,rfl⟩ := handleCommand_respond hrespond
    rfl
  · cases h

theorem resetHandler_confirmed {call : Version × ResetCommand} {reply : Except String String}
    (h : ((resetHandler texts).resume call reply).success = true) :
    ∃ sent text, callReset texts call.1 call.2 = .ok sent ∧ reply = .ok text ∧
      ((resetHandler texts).resume call reply).payload = some text := by
  unfold resetHandler at h ⊢
  dsimp only at h ⊢
  cases hcall : callReset texts call.1 call.2 with
  | error err =>
    rw [hcall] at h
    cases h
  | ok sent =>
    rw [hcall] at h
    cases reply with
    | error err => cases h
    | ok text => exact ⟨sent,text,rfl,rfl,rfl⟩

end Handler

theorem System.Genuine.taken {d : Deployment Consumer Request View Call Reply}
    {s : System Consumer Request Call} (h : s.Genuine d) {id : String} {result : Result}
    (hpoll : (d.bus.pollResult id s.now s.redis).1 = .ok (some result)) :
    ∃ o command run value, .consumed (.handled o command run) ∈ s.trace ∧ command.id = id ∧
      result.success = run.success ∧ payloadValue run.payload = some value ∧
      result.payload = some (String.ofList (Json.render value)) := by
  obtain ⟨content,hrecorded,hdecode⟩ := (Bus.pollResult_spec h.holds s.now id).2.2 result hpoll
  obtain ⟨run,t,⟨⟨o,command,hhandled,hid⟩,_⟩,⟨value,hvalue⟩,rfl⟩ := hrecorded.decode hdecode
  refine ⟨o,command,run,value,hhandled,hid,rfl,hvalue,?_⟩
  unfold Result.stored
  rw [hvalue,Option.map_some]

/-- A reset from the request to the station's reply, and the run around it. -/
structure Exchange (Consumer Request : Type) where
  identity : String
  lease : Lease
  request : ResetCommand
  consumer : Consumer
  view : RuntimeView
  version : Version
  sent : ResetRequest
  reply : String
  first : List (Action Consumer Request RuntimeView (Except String String))
  between : List (Action Consumer Request RuntimeView (Except String String))
  after : List (Action Consumer Request RuntimeView (Except String String))

section Exchange

variable [DecidableEq Consumer] [DecidableEq Request]

/-- First the request was made, then the runtime that it had looked up, which held the station under
the generation that it had looked up, sent the station a request for what it asked, and in this call it
got the reply. -/
structure Exchange.TookPlace (x : Exchange Consumer Request) (texts : ErrorTexts)
    (d : Deployment Consumer Request RuntimeView (Version × ResetCommand) (Except String String))
    (s : System Consumer Request (Version × ResetCommand))
    (actions : List (Action Consumer Request RuntimeView (Except String String))) (r : Request) : Prop where
  order : actions = x.first ++ .consume x.consumer (.run none x.view)::
    (x.between ++ .consume x.consumer (.reply (.ok x.reply))::x.after)
  asked : .request r x.identity x.lease x.request ∈ x.first
  owner : d.ownerID x.consumer = x.lease.ownerID
  owns : ∃ ownership, x.view.ownership = some ownership ∧ ownership.ownerID = x.lease.ownerID ∧
    ownership.owns x.identity x.lease.generation = true
  connected : x.view.session x.identity = some x.version
  sent : callReset texts x.version x.request = .ok x.sent
  asksFor : x.sent.version = x.version ∧ x.sent.AsksFor x.request
  calling : ∀ mid, mid <+: x.between → ∃ frame command,
    (s.run d (x.first ++ .consume x.consumer (.run none x.view)::mid)).consumer x.consumer =
      .calling frame command (x.version,x.request)

variable {d : Deployment Consumer Request RuntimeView (Version × ResetCommand) (Except String String)}
  {ks : Keyspace} {now : Int}
  {actions : List (Action Consumer Request RuntimeView (Except String String))}

theorem System.Genuine.handling (hs : ((System.start ks now).run d actions).Genuine d) {c : Consumer}
    {frame : Frame} {command : Command}
    (hpc : ((System.start ks now).run d actions).consumer c = .handling frame command) :
    ∃ r identity lease payload, .request r identity lease payload ∈ actions ∧
      command.Of (d.commandID r) identity lease payload ∧ lease.ownerID = d.ownerID c := by
  have hworking := hs.working c
  have hmem : frame.message ∈ (((System.start ks now).run d actions).consumer c).messages := by
    rw [hpc]
    exact List.mem_cons_self
  obtain ⟨r,x,hr,ho,hfields⟩ := hs.messages c frame.message hmem
  rw [hpc] at hworking
  have hdecode : decodeCommand (commandFields x) = .ok command := hfields ▸ hworking
  rw [decodeCommand_fields_ok hdecode]
  rcases System.requested_run actions hr with hnone | ⟨identity,lease,payload,hasked,hof⟩
  · cases hnone
  · exact ⟨r,identity,lease,payload,hasked,hof,hof.2.2.1.symm.trans ho⟩

/-- Behind a result with success there is an exchange, whose reply is its payload. -/
theorem exchange_of_handled {texts : ErrorTexts} (hhandler : d.handler = resetHandler texts)
    (hinj : Function.Injective d.commandID) (hks : d.bus.Unused ks) (hp : ∀ a ∈ actions, a.Published)
    (hrange : ∀ r identity lease payload, .request r identity lease payload ∈ actions → payload.InRange)
    {r : Request} {o : String} {command : Command} {result : Result}
    (hhandled : .consumed (.handled o command result) ∈ ((System.start ks now).run d actions).trace)
    (hid : command.id = d.commandID r) (hsuccess : result.success = true) :
    ∃ x : Exchange Consumer Request, x.TookPlace texts d (System.start ks now) actions r ∧
      result.payload = some x.reply := by
  -- the step that gave the result was the reply to a call
  obtain ⟨before,a,after,rfl,hbefore,hgiven,_⟩ := System.run_since
    (P := fun s => .consumed (.handled o command result) ∈ s.trace) hhandled List.not_mem_nil
  obtain ⟨c,_,⟨ctxErr,view,own,hresult,hstart⟩ | ⟨frame,call,reply,rfl,hcalling,hresult⟩⟩ :=
    System.step_handled hgiven hbefore
  · rw [hhandler] at hstart
    rw [hresult,seal_success,resetHandler_responds hstart] at hsuccess
    cases hsuccess
  rw [hhandler] at hresult
  rw [hresult,seal_success] at hsuccess
  obtain ⟨sent,text,hsent,rfl,hpayload⟩ := resetHandler_confirmed hsuccess
  -- the call began at a step that saw the station owned
  obtain ⟨first,b,between,rfl,hfirst,hbegun,hduring⟩ := System.run_since
    (P := fun s => s.consumer c = .calling frame command call) hcalling nofun
  obtain ⟨ctxErr,view,rfl,hhandling,hstart⟩ := System.step_calling hbegun hfirst
  rw [hhandler] at hstart
  obtain ⟨hctx,hisOwner⟩ := resetHandler_owner hstart
  obtain ⟨hdecode,hsession⟩ := resetHandler_calls hstart
  cases handlerContextErr_none hctx
  -- the command was that of the request
  have hpub : ∀ a ∈ first, a.Published := fun a ha => hp a (by simp [ha])
  have hgenuine := (System.genuine_start (d := d) hks now).run hinj first hpub
  obtain ⟨r',identity,lease,payload,hasked,⟨hid',hidentity,howner,hgeneration,hwritten⟩,ho⟩ :=
    hgenuine.handling hhandling
  cases hinj (hid'.symm.trans hid)
  rw [hwritten,decodeReset_encodeReset (hrange r identity lease payload (by simp [hasked]))] at hdecode
  obtain ⟨version,request⟩ := call
  cases hdecode
  refine ⟨⟨identity,lease,request,c,view,version,sent,text,first,between,after⟩,?_,?_⟩
  · refine ⟨by simp,hasked,ho.symm,?_,hidentity ▸ hsession,hsent,callReset_asksFor hsent,?_⟩
    · unfold RuntimeView.isOwner at hisOwner
      cases hview : view.ownership with
      | none =>
        rw [hview] at hisOwner
        cases hisOwner
      | some ownership =>
        rw [hview,hidentity,hgeneration,howner] at hisOwner
        obtain ⟨hsame,howns⟩ := of_decide_eq_true hisOwner
        exact ⟨ownership,rfl,hsame.symm,howns⟩
    · intro mid hmid
      exact ⟨frame,command,hduring mid hmid⟩
  · rw [hresult,seal_payload]
    exact hpayload

/-- A request that is answered with 200 was carried out: the runtime that it had looked up sent the
station what it asked for and got a confirmation. A success that a request is about to be given has the
confirmation of this call as its payload. -/
theorem success_confirmed (texts : ErrorTexts)
    (d : Deployment Consumer Request RuntimeView (Version × ResetCommand) (Except String String))
    (hhandler : d.handler = resetHandler texts) (hinj : Function.Injective d.commandID) {ks : Keyspace}
    (hks : d.bus.Unused ks) (now : Int)
    (actions : List (Action Consumer Request RuntimeView (Except String String)))
    (hp : ∀ a ∈ actions, a.Published)
    (hrange : ∀ r identity lease payload, .request r identity lease payload ∈ actions → payload.InRange)
    (r : Request) :
    let s := (System.start ks now).run d actions
    (.answered r 200 ∈ s.trace → ∃ x : Exchange Consumer Request,
      x.TookPlace texts d (System.start ks now) actions r) ∧
    ∀ result, (d.bus.pollResult (d.commandID r) s.now s.redis).1 = .ok (some result) →
      result.success = true → ∃ x : Exchange Consumer Request,
        x.TookPlace texts d (System.start ks now) actions r ∧
        ∃ value, Json.parse x.reply.toList = some value ∧
          result.payload = some (String.ofList (Json.render value.escapeHTML)) := by
  intro s
  have hs : s.Genuine d := (System.genuine_start hks now).run hinj actions hp
  constructor
  · intro hanswered
    obtain ⟨later,earlier,htrace⟩ := List.append_of_mem hanswered
    obtain ⟨c,command,result,hr,hhandled,hsame,hsuccess⟩ :=
      History.throughout_iff.mp hs.answered later _ earlier htrace r rfl
    have hsub : earlier ⊆ s.trace := by
      rw [htrace]
      exact fun e he => List.mem_append_right _ (List.mem_cons_of_mem _ he)
    have hid := hsame.1.trans (hs.ids r c (hsub hr))
    obtain ⟨x,hx,_⟩ := exchange_of_handled hhandler hinj hks hp hrange (hsub hhandled) hid hsuccess
    exact ⟨x,hx⟩
  · intro result hpoll hsuccess
    obtain ⟨o,command,run,written,hhandled,hid,hsame,hwritten,hpayload⟩ := hs.taken hpoll
    obtain ⟨x,hx,hreply⟩ := exchange_of_handled hhandler hinj hks hp hrange hhandled hid
      (hsame.symm.trans hsuccess)
    rw [hreply] at hwritten
    obtain ⟨value,hvalue,rfl⟩ := Option.map_eq_some_iff.mp hwritten
    exact ⟨x,hx,value,hvalue,hpayload⟩

end Exchange

theorem success_confirmed_onIdle :
    let s := (System.start Keyspace.empty 1767225600000000000).run singleRuntime lostCommit
    let actions := lostCommit ++ [.await () .answered]
    let s' := (System.start Keyspace.empty 1767225600000000000).run singleRuntime actions
    (∃ result, (singleRuntime.bus.pollResult "4f1e" s.now s.redis).1 = .ok (some result) ∧
      result.success = true ∧ ∃ x : Exchange Unit Unit,
        x.TookPlace ⟨id,id⟩ singleRuntime (System.start Keyspace.empty 1767225600000000000) lostCommit () ∧
        ∃ value, Json.parse x.reply.toList = some value ∧
          result.payload = some (String.ofList (Json.render value.escapeHTML))) ∧
    .answered () 200 ∈ s'.trace ∧ ∃ x : Exchange Unit Unit,
      x.TookPlace ⟨id,id⟩ singleRuntime (System.start Keyspace.empty 1767225600000000000) actions () := by
  intro s actions s'
  have hp : ∀ a ∈ actions, a.Published := by
    simp [actions,lostCommit,resetRequest,answeredCall,Action.Published]
  have hrange : ∀ r identity lease payload, .request r identity lease payload ∈ actions →
      payload.InRange := by
    simp only [actions,lostCommit,resetRequest,answeredCall,List.mem_append,List.mem_cons,
      Action.request.injEq,reduceCtorEq,List.not_mem_nil,or_false]
    rintro r identity lease payload ⟨_,_,_,rfl⟩
    intro i hi
    cases hi
  have hempty : singleRuntime.bus.Unused Keyspace.empty := ⟨fun _ => rfl,fun _ => rfl,fun _ => rfl⟩
  have hinj : Function.Injective singleRuntime.commandID := fun _ _ _ => rfl
  have hearlier (a) (ha : a ∈ lostCommit) : a ∈ actions := List.mem_append_left _ ha
  obtain ⟨_,htaken⟩ := success_confirmed ⟨id,id⟩ singleRuntime rfl hinj hempty 1767225600000000000 lostCommit
    (fun a ha => hp a (hearlier a ha)) (fun r identity lease payload ha => hrange _ _ _ _ (hearlier _ ha)) ()
  obtain ⟨hanswered,_⟩ := success_confirmed ⟨id,id⟩ singleRuntime rfl hinj hempty 1767225600000000000 actions
    hp hrange ()
  have hready : ∃ result, (singleRuntime.bus.pollResult "4f1e" s.now s.redis).1 = .ok (some result) ∧
      result.success = true := by
    have hsome : ((singleRuntime.bus.pollResult "4f1e" s.now s.redis).1.toOption.any
        fun reply => reply.any Result.success) = true := by decide +kernel
    generalize (singleRuntime.bus.pollResult "4f1e" s.now s.redis).1 = polled at hsome ⊢
    cases polled with
    | error err => cases hsome
    | ok reply =>
      change reply.any Result.success = true at hsome
      obtain ⟨result,rfl,hsuccess⟩ := (Option.any_eq_true _ _).mp hsome
      exact ⟨result,rfl,hsuccess⟩
  have hdone : .answered () 200 ∈ s'.trace := by
    have hany : s'.trace.any Event.succeeds = true := by decide +kernel
    obtain ⟨e,he,hsucceeds⟩ := List.any_eq_true.mp hany
    cases e with
    | answered r status =>
      cases of_decide_eq_true hsucceeds
      exact he
    | requested | consumed => cases hsucceeds
  obtain ⟨result,hpoll,hsuccess⟩ := hready
  exact ⟨⟨result,hpoll,hsuccess,htaken result hpoll hsuccess⟩,hdone,hanswered hdone⟩

end CsmsPlatform
