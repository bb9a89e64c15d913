import CsmsPlatform.CommandBus.Delivery

/-!
# A success answer is genuine

When only `Publish` writes the streams, every entry is a command that some request has published,
every encoded result came from a run of the handler on such a command, and a request is answered with
200 only after the handler of the owner it looked up has run its command with success.
-/

namespace CsmsPlatform

open Redis

variable {Consumer Request View Call Reply : Type}

def Action.Published : Action Consumer Request View Reply → Prop
  | .append _ _ _ => False
  | _ => True

section Provenance

variable (trace : List (Event Request Call))

def Sent (o : String) (fields : List (String × String)) : Prop :=
  ∃ r c, .requested r c ∈ trace ∧ c.ownerID = o ∧ fields = commandFields c

/-- The handler gave this result, whose time is another one only if it had none. -/
def RunOf (id : String) (result : Result) (t : Int) : Prop :=
  (∃ o command, .consumed (.handled o command result) ∈ trace ∧ command.id = id) ∧
    result.commandID = id ∧ (t = result.completedAt ∨ result.completedAt = zeroTime)

/-- The content encodes the result of a run on the command. -/
def Recorded (id content : String) : Prop :=
  ∃ result t, RunOf trace id result t ∧ encodeResult { result with completedAt := t } = some content

/-- A result in the hands of a consumer: of its own run, or read back from a record. -/
def Own (id : String) (result : Result) : Prop :=
  ∃ run t, RunOf trace id run t ∧ (result = { run with completedAt := t } ∨
    (∃ v, payloadValue run.payload = some v) ∧ result = ({ run with completedAt := t } : Result).stored)

end Provenance

section Facts

variable {trace trace' : List (Event Request Call)}

theorem Sent.mono {o : String} {fields : List (String × String)} (h : Sent trace o fields)
    (hsub : trace ⊆ trace') : Sent trace' o fields := by
  obtain ⟨r,c,hm,ho,hf⟩ := h
  exact ⟨r,c,hsub hm,ho,hf⟩

theorem RunOf.mono {id : String} {result : Result} {t : Int} (h : RunOf trace id result t)
    (hsub : trace ⊆ trace') : RunOf trace' id result t := by
  obtain ⟨⟨o,command,hm,hid⟩,hrest⟩ := h
  exact ⟨⟨o,command,hsub hm,hid⟩,hrest⟩

theorem Recorded.mono {id content : String} (h : Recorded trace id content) (hsub : trace ⊆ trace') :
    Recorded trace' id content := by
  obtain ⟨result,t,hrun,henc⟩ := h
  exact ⟨result,t,hrun.mono hsub,henc⟩

theorem Own.mono {id : String} {result : Result} (h : Own trace id result) (hsub : trace ⊆ trace') :
    Own trace' id result := by
  obtain ⟨run,t,hrun,hr⟩ := h
  exact ⟨run,t,hrun.mono hsub,hr⟩

/-- A record reads back as a result of the command's own run. -/
theorem Recorded.decode {id content : String} {result : Result} (h : Recorded trace id content)
    (hd : decodeResult content = some result) :
    ∃ run t, RunOf trace id run t ∧ (∃ v, payloadValue run.payload = some v) ∧
      result = ({ run with completedAt := t } : Result).stored := by
  obtain ⟨run,t,hrun,henc⟩ := h
  rw [(encodeResult_stored henc).1] at hd
  cases hd
  obtain ⟨v,hv⟩ := encodeResult_payload henc
  exact ⟨run,t,hrun,⟨v,hv⟩,rfl⟩

theorem Own.commandID {id : String} {result : Result} (h : Own trace id result) :
    result.commandID = id := by
  obtain ⟨run,t,⟨_,hid,_⟩,rfl | ⟨_,rfl⟩⟩ := h
  · exact hid
  · exact hid

theorem Own.stamp {id : String} {result : Result} (h : Own trace id result) (now : Int) :
    Own trace id (result.stamp now) := by
  unfold Result.stamp
  split
  · next hz =>
    obtain ⟨run,t,⟨hrun,hid,ht⟩,hr⟩ := h
    have htz : t = zeroTime := by
      rcases hr with rfl | ⟨_,rfl⟩ <;> exact hz
    have hrz : run.completedAt = zeroTime := by
      rcases ht with ht | ht
      · rw [← ht,htz]
      · exact ht
    refine ⟨run,now,⟨hrun,hid,.inr hrz⟩,?_⟩
    rcases hr with rfl | ⟨hv,rfl⟩
    · exact .inl rfl
    · exact .inr ⟨hv,rfl⟩
  · exact h

theorem Own.recorded {id content : String} {result : Result} (h : Own trace id result)
    (henc : encodeResult result = some content) : Recorded trace id content := by
  obtain ⟨run,t,hrun,rfl | ⟨⟨v,hv⟩,rfl⟩⟩ := h
  · exact ⟨run,t,hrun,henc⟩
  · refine ⟨run,t,hrun,?_⟩
    rw [← henc]
    exact (encodeResult_eq_stored (r := { run with completedAt := t }) hv).symm

end Facts

/-- The command in hand is the message's, and the result is of a run on it. -/
def Pc.Working (trace : List (Event Request Call)) : Pc Call → Prop
  | .handling frame command => decodeCommand frame.message.fields = .ok command
  | .calling frame command _ => decodeCommand frame.message.fields = .ok command
  | .finishing frame result => ∃ command, decodeCommand frame.message.fields = .ok command ∧
    Own trace command.id result
  | _ => True

theorem Pc.Working.mono {trace trace' : List (Event Request Call)} {pc : Pc Call} (h : pc.Working trace)
    (hsub : trace ⊆ trace') : pc.Working trace' := by
  cases pc with
  | finishing frame result =>
    obtain ⟨command,hd,hr⟩ := h
    exact ⟨command,hd,hr.mono hsub⟩
  | stopped | creating | loop | reading | batch | handling | calling | acking => exact h

def HandledSent (trace : List (Event Request Call)) (o : String) (command : Command) : Prop :=
  ∃ r c, .requested r c ∈ trace ∧ c.ownerID = o ∧ decodeCommand (commandFields c) = .ok command

/-- The two commands differ in their times only. -/
def Command.Same (c command : Command) : Prop :=
  command.id = c.id ∧ command.stationIdentity = c.stationIdentity ∧ command.ownerID = c.ownerID ∧
    command.ownerGeneration = c.ownerGeneration ∧ command.action = c.action ∧
    command.payload = c.payload

theorem HandledSent.same {trace : List (Event Request Call)} {o : String} {command : Command}
    (h : HandledSent trace o command) :
    ∃ r c, .requested r c ∈ trace ∧ c.ownerID = o ∧ c.Same command := by
  obtain ⟨r,c,hr,ho,hd⟩ := h
  refine ⟨r,c,hr,ho,?_⟩
  rw [decodeCommand_fields_ok hd]
  exact ⟨rfl,rfl,rfl,rfl,rfl,rfl⟩

/-- A success answer follows a successful run of the handler on the request's command. -/
def AnsweredHandled (e : Event Request Call) (earlier : List (Event Request Call)) : Prop :=
  ∀ r, e = .answered r 200 → ∃ c command result, .requested r c ∈ earlier ∧
    .consumed (.handled c.ownerID command result) ∈ earlier ∧ c.Same command ∧ result.success = true

namespace System

structure Genuine (d : Deployment Consumer Request View Call Reply)
    (s : System Consumer Request Call) : Prop where
  holds : d.bus.Holds (fun o v => ∀ e ∈ v.entries, Sent s.trace o e.fields) (Recorded s.trace) s.redis
  requests : ∀ r c, (s.request r).command = some c ↔ .requested r c ∈ s.trace
  ids : ∀ r c, .requested r c ∈ s.trace → c.id = d.commandID r
  messages : ∀ c, ∀ m ∈ (s.consumer c).messages, Sent s.trace (d.ownerID c) m.fields
  working : ∀ c, (s.consumer c).Working s.trace
  handled : ∀ o command result, .consumed (.handled o command result) ∈ s.trace →
    HandledSent s.trace o command
  answered : History.Throughout AnsweredHandled s.trace

variable {d : Deployment Consumer Request View Call Reply} {s : System Consumer Request Call}
  {events : List (ConsumerEvent Call)} {ks : Keyspace}

theorem Genuine.stream (h : Genuine d s) (o : String) :
    ∀ e ∈ (d.bus.stream s.redis o).entries, Sent s.trace o e.fields := by
  unfold Bus.stream
  cases hs : s.redis.stream (d.bus.commandStream o) with
  | none => nofun
  | some v => exact h.holds.stream hs

theorem Genuine.grown (h : Genuine d s) {trace : List (Event Request Call)} (hsub : s.trace ⊆ trace) :
    d.bus.Holds (fun o v => ∀ e ∈ v.entries, Sent trace o e.fields) (Recorded trace) s.redis :=
  h.holds.mono (fun _ _ hv e he => (hv e he).mono hsub) (fun _ _ hr => hr.mono hsub)

theorem Genuine.putStream (h : Genuine d s) {o : String} {v : StreamValue}
    {trace : List (Event Request Call)} (hsub : s.trace ⊆ trace)
    (hv : ∀ e ∈ v.entries, Sent s.trace o e.fields) :
    d.bus.Holds (fun o v => ∀ e ∈ v.entries, Sent trace o e.fields) (Recorded trace)
      (s.redis.putStream (d.bus.commandStream o) v) :=
  (h.grown hsub).putStream (fun e he => (hv e he).mono hsub) (fun _ _ _ h => h)

theorem Genuine.advance (h : Genuine d s) {c : Consumer} {next : Pc Call}
    (ha : Advances d.bus (d.ownerID c) s.now s.redis (s.consumer c) next events ks) :
    d.bus.Holds (fun o v => ∀ e ∈ v.entries, Sent (events.map .consumed ++ s.trace) o e.fields)
      (Recorded (events.map .consumed ++ s.trace)) ks ∧
    (∀ m ∈ next.messages, Sent s.trace (d.ownerID c) m.fields) ∧ next.Working s.trace ∧
    ∀ o command result, .handled o command result ∉ events := by
  have hmsgs := h.messages c
  have hwork := h.working c
  generalize s.consumer c = pc at ha hmsgs hwork
  have hstream := h.stream (d.ownerID c)
  have hsub : s.trace ⊆ events.map Event.consumed ++ s.trace := List.subset_append_right _ _
  have hsame := h.grown hsub
  have hnone (o : String) (command : Command) (result : Result) :
      ConsumerEvent.handled o command result ∉ ([] : List (ConsumerEvent Call)) := List.not_mem_nil
  cases ha with
  | idle => exact ⟨hsame,hmsgs,hwork,hnone⟩
  | joined => exact ⟨hsame,List.forall_mem_nil _,trivial,hnone⟩
  | created hg => exact ⟨h.putStream hsub hstream,List.forall_mem_nil _,trivial,hnone⟩
  | skipped => exact ⟨hsame,List.forall_mem_nil _,trivial,hnone⟩
  | @recovered lastRecovery v g hv hg =>
    rw [Bus.stream_some hv] at hstream
    refine ⟨h.putStream hsub hstream,?_,trivial,hnone⟩
    exact fun m hm => hstream m (claimScan_claimed s.now pendingMinIdle (10*10) 10 g.pending m hm).1
  | waited => exact ⟨hsame,List.forall_mem_nil _,trivial,hnone⟩
  | @read lastRecovery v g hv hg =>
    rw [Bus.stream_some hv] at hstream
    refine ⟨h.putStream hsub hstream,?_,trivial,hnone⟩
    exact fun m hm => hstream m (List.mem_of_mem_filter (List.mem_of_mem_take hm))
  | finished origin => cases origin <;> exact ⟨hsame,List.forall_mem_nil _,trivial,hnone⟩
  | @found frame command content e result hd hk hr =>
    obtain ⟨text,e',hi,hrec⟩ := h.holds.completions command.id _ hk
    cases hi
    obtain ⟨run,t,hrun,hv,he⟩ := hrec.decode hr
    exact ⟨hsame,hmsgs,⟨command,hd,run,t,hrun,.inr ⟨hv,he⟩⟩,hnone⟩
  | missing hd hl => exact ⟨hsame,hmsgs,hd,hnone⟩
  | @committed frame result content henc =>
    obtain ⟨command,hd,hown⟩ := hwork
    have hrec := ((hown.stamp s.now).recorded henc).mono hsub
    rw [← hown.commandID] at hrec
    refine ⟨?_,hmsgs,trivial,by simp⟩
    exact hsame.written (fun _ _ h => h) (fun _ _ h => h) s.now hrec
  | @acked frame v g hv hg =>
    rw [Bus.stream_some hv] at hstream
    refine ⟨h.putStream hsub hstream,fun m hm => hmsgs m (List.mem_cons_of_mem _ hm),trivial,by simp⟩
  | ackedNone hn =>
    exact ⟨hsame,fun m hm => hmsgs m (List.mem_cons_of_mem _ hm),trivial,by simp⟩

theorem answered_consumed {trace : List (Event Request Call)}
    (h : History.Throughout AnsweredHandled trace) (events : List (ConsumerEvent Call)) :
    History.Throughout AnsweredHandled (events.map .consumed ++ trace) := by
  induction events with
  | nil => exact h
  | cons e events ih => exact ⟨nofun,ih⟩

variable [DecidableEq Consumer]

theorem Genuine.move (h : Genuine d s) (c : Consumer) {pc : Pc Call}
    (hholds : d.bus.Holds (fun o v => ∀ e ∈ v.entries, Sent (events.map .consumed ++ s.trace) o e.fields)
      (Recorded (events.map .consumed ++ s.trace)) ks)
    (hm : ∀ m ∈ pc.messages, Sent s.trace (d.ownerID c) m.fields)
    (hw : pc.Working (events.map .consumed ++ s.trace))
    (hh : ∀ o command result, .handled o command result ∈ events → HandledSent s.trace o command) :
    Genuine d (s.moved c pc events ks) := by
  have hsub : s.trace ⊆ events.map Event.consumed ++ s.trace := List.subset_append_right _ _
  have hreq (r : Request) (x : Command) :
      .requested r x ∈ events.map Event.consumed ++ s.trace ↔ .requested r x ∈ s.trace := by
    simp
  refine ⟨hholds,?_,?_,?_,?_,?_,answered_consumed h.answered events⟩
  · intro r x
    exact (h.requests r x).trans (hreq r x).symm
  · intro r x hx
    exact h.ids r x ((hreq r x).mp hx)
  · intro c' m hm'
    simp only [moved,setConsumer] at hm'
    by_cases hc : c' = c
    · subst hc
      rw [if_pos rfl] at hm'
      exact (hm m hm').mono hsub
    · rw [if_neg hc] at hm'
      exact (h.messages c' m hm').mono hsub
  · intro c'
    simp only [moved,setConsumer]
    by_cases hc : c' = c
    · rw [if_pos hc]
      exact hw
    · rw [if_neg hc]
      exact (h.working c').mono hsub
  · intro o command result hx
    have hsent : HandledSent s.trace o command := by
      rcases List.mem_append.mp hx with hx | hx
      · obtain ⟨e,he,hx⟩ := List.mem_map.mp hx
        injection hx with hx
        subst hx
        exact hh o command result he
      · exact h.handled o command result hx
    obtain ⟨r,x,hr,hrest⟩ := hsent
    exact ⟨r,x,hsub hr,hrest⟩

theorem Genuine.handled_move (h : Genuine d s) (c : Consumer) {frame : Frame} {command : Command}
    (hm : ∀ m ∈ frame.message::frame.rest, Sent s.trace (d.ownerID c) m.fields)
    (hd : decodeCommand frame.message.fields = .ok command) (result : Result) (now : Int) :
    Genuine d (s.moved c (.finishing frame (result.seal command now))
      [.handled (d.ownerID c) command (result.seal command now)] s.redis) := by
  have hsub : s.trace ⊆ [ConsumerEvent.handled (d.ownerID c) command (result.seal command now)].map
    Event.consumed ++ s.trace := List.subset_append_right _ _
  refine h.move c (h.grown hsub) hm ⟨command,hd,?_⟩ ?_
  · refine ⟨result.seal command now,(result.seal command now).completedAt,⟨?_,by simp,.inl rfl⟩,.inl rfl⟩
    exact ⟨d.ownerID c,command,List.mem_cons_self,rfl⟩
  · intro o command' result' he
    cases List.mem_singleton.mp he
    obtain ⟨r,x,hr,ho,hf⟩ := hm frame.message List.mem_cons_self
    exact ⟨r,x,hr,ho,hf ▸ hd⟩

theorem Genuine.consumer (h : Genuine d s) (c : Consumer) {pc : Pc Call}
    (hc : Consumes d.bus d.handler (d.ownerID c) s.now s.redis (s.consumer c) pc events ks) :
    Genuine d (s.moved c pc events ks) := by
  have hmsgs := h.messages c
  have hwork := h.working c
  have hadvance := fun next events ks => @Genuine.advance _ _ _ _ _ d s events ks h c next
  generalize s.consumer c = pc₀ at hc hmsgs hwork hadvance
  have hnil (o : String) (command : Command) (result : Result)
      (he : ConsumerEvent.handled o command result ∈ ([] : List (ConsumerEvent Call))) :
      HandledSent s.trace o command := absurd he List.not_mem_nil
  cases hc with
  | halted => exact h.move c h.holds (List.forall_mem_nil _) trivial hnil
  | stayed => exact h.move c h.holds hmsgs hwork hnil
  | started => exact h.move c h.holds (List.forall_mem_nil _) trivial hnil
  | called ha hpc =>
    have hsub : s.trace ⊆ events.map Event.consumed ++ s.trace := List.subset_append_right _ _
    obtain ⟨hholds,hm,hw,hnone⟩ := hadvance _ _ _ ha
    have hnot : ∀ o command result, .handled o command result ∈ events → HandledSent s.trace o command :=
      fun o command result he => absurd he (hnone o command result)
    rcases hpc with rfl | rfl | rfl
    · exact h.move c hholds hm (hw.mono hsub) hnot
    · exact h.move c hholds hmsgs (hwork.mono hsub) hnot
    · exact h.move c hholds (List.forall_mem_nil _) trivial hnot
  | responded _ => exact h.handled_move c hmsgs hwork _ s.now
  | calledOut _ => exact h.move c (h.grown (List.subset_append_right _ _)) hmsgs hwork (by simp)
  | resumed reply => exact h.handled_move c hmsgs hwork _ s.now

omit [DecidableEq Consumer]

theorem Genuine.unique (h : Genuine d s) (hinj : Function.Injective d.commandID) {r r' : Request}
    {c c' : Command} (hr : .requested r c ∈ s.trace) (hr' : .requested r' c' ∈ s.trace)
    (hid : c.id = c'.id) : c = c' := by
  have hrr : r = r' := hinj ((h.ids r c hr).symm.trans (hid.trans (h.ids r' c' hr')))
  subst hrr
  have hc := (h.requests r c).mpr hr
  rw [(h.requests r c').mpr hr'] at hc
  injection hc.symm

/-- The result a request takes came from a run on its own command. -/
theorem Genuine.answer (h : Genuine d s) (hinj : Function.Injective d.commandID) {r : Request}
    {c : Command} (hr : (s.request r).command = some c) {result : Result}
    (hpoll : (d.bus.pollResult c.id s.now s.redis).1 = .ok (some result)) :
    ∃ command run, .consumed (.handled c.ownerID command run) ∈ s.trace ∧ c.Same command ∧
      run.success = result.success := by
  obtain ⟨content,hrec,hdec⟩ := (Bus.pollResult_spec h.holds s.now c.id).2.2 result hpoll
  obtain ⟨run,t,⟨⟨o,command,hh,hid⟩,_⟩,_,rfl⟩ := hrec.decode hdec
  obtain ⟨r',c',hr',rfl,hsame⟩ := (h.handled o command run hh).same
  have hcc := h.unique hinj ((h.requests r c).mp hr) hr' (hid.symm.trans hsame.1)
  subst hcc
  exact ⟨command,run,hh,hsame,rfl⟩

theorem Genuine.noted (h : Genuine d s) {s' : System Consumer Request Call} (hredis : s'.redis = s.redis)
    (hc : s'.consumer = s.consumer) (hreq : ∀ r, (s'.request r).command = (s.request r).command)
    (ht : s'.trace = s.trace ∨ ∃ r status, s'.trace = .answered r status::s.trace ∧
      AnsweredHandled (.answered r status) s.trace) : Genuine d s' := by
  have hsub : s.trace ⊆ s'.trace := by
    rcases ht with ht | ⟨r,status,ht,_⟩
    · rw [ht]
      exact List.Subset.refl _
    · rw [ht]
      exact List.subset_cons_self _ _
  have hrequested (r : Request) (c : Command) : .requested r c ∈ s'.trace ↔ .requested r c ∈ s.trace := by
    rcases ht with ht | ⟨r',status,ht,_⟩ <;> simp [ht]
  have hconsumed (e : ConsumerEvent Call) : .consumed e ∈ s'.trace ↔ .consumed e ∈ s.trace := by
    rcases ht with ht | ⟨r',status,ht,_⟩ <;> simp [ht]
  constructor
  · rw [hredis]
    exact h.grown hsub
  · intro r c
    rw [hreq r,hrequested]
    exact h.requests r c
  · intro r c hr
    exact h.ids r c ((hrequested r c).mp hr)
  · intro c m hm
    rw [hc] at hm
    exact (h.messages c m hm).mono hsub
  · intro c
    rw [hc]
    exact (h.working c).mono hsub
  · intro o command result hh
    obtain ⟨r,c,hr,hrest⟩ := h.handled o command result ((hconsumed _).mp hh)
    exact ⟨r,c,hsub hr,hrest⟩
  · rcases ht with ht | ⟨r,status,ht,ha⟩
    · rw [ht]
      exact h.answered
    · rw [ht]
      exact ⟨ha,h.answered⟩

theorem Genuine.redis (h : Genuine d s)
    (hk : d.bus.Holds (fun o v => ∀ e ∈ v.entries, Sent s.trace o e.fields) (Recorded s.trace) ks) :
    Genuine d { s with redis := ks } :=
  ⟨hk,h.requests,h.ids,h.messages,h.working,h.handled,h.answered⟩

variable [DecidableEq Request]

theorem setRequest_command {r : Request} {pc : RequestPc} (h : pc.command = (s.request r).command)
    (r' : Request) : ((s.setRequest r pc).request r').command = (s.request r').command := by
  simp only [setRequest]
  by_cases he : r' = r
  · rw [if_pos he,he,h]
  · rw [if_neg he]

theorem Genuine.request (h : Genuine d s) {r : Request} {command : Command} (hr : s.request r = .idle)
    (hid : command.id = d.commandID r) :
    Genuine d { s.setRequest r (.publishing command) with trace := .requested r command::s.trace } := by
  have hsub : s.trace ⊆ .requested r command::s.trace := List.subset_cons_self _ _
  refine ⟨h.grown hsub,?_,?_,?_,?_,?_,⟨nofun,h.answered⟩⟩
  · intro r' c
    simp only [setRequest,List.mem_cons]
    by_cases he : r' = r
    · subst he
      have hnone : .requested r' c ∉ s.trace := by
        rw [← h.requests,hr]
        nofun
      simp [RequestPc.command,hnone,eq_comm]
    · simp [he,h.requests]
  · intro r' c hm
    rcases List.mem_cons.mp hm with hm | hm
    · cases hm
      exact hid
    · exact h.ids r' c hm
  · exact fun c m hm => (h.messages c m hm).mono hsub
  · exact fun c => (h.working c).mono hsub
  · intro o x result hm
    rcases List.mem_cons.mp hm with hm | hm
    · cases hm
    · obtain ⟨r',c,hr',hrest⟩ := h.handled o x result hm
      exact ⟨r',c,hsub hr',hrest⟩

variable [DecidableEq Consumer]

theorem Genuine.change {a : Action Consumer Request View Reply} (h : Genuine d s)
    (hinj : Function.Injective d.commandID) (ha : a.Published) {s' : System Consumer Request Call}
    (hc : Change d a s s') : Genuine d s' := by
  cases hc with
  | consumer c hc => exact h.consumer c hc
  | appended o fields evict he =>
    subst he
    cases ha
  | @published r command evict he hr hv =>
    apply h.redis
    apply h.putStream (List.Subset.refl _)
    intro e hm
    rcases List.mem_append.mp (List.mem_of_mem_drop hm) with hm | hm
    · exact h.stream _ e hm
    · cases List.mem_singleton.mp hm
      exact ⟨r,command,(h.requests r command).mp hr,rfl,rfl⟩
  | requested r hr hid hcreated hdeadline => exact h.request hr hid
  | @awaiting r command hr =>
    refine h.noted rfl rfl (setRequest_command ?_) (.inl rfl)
    rw [hr]
    rfl
  | @answered r command status hr hok =>
    refine h.noted rfl rfl (setRequest_command hr.symm) (.inr ⟨r,status,rfl,?_⟩)
    intro r' he
    cases he
    obtain ⟨result,hs,hpoll⟩ := hok rfl
    obtain ⟨x,run,hh,hsame,hsuccess⟩ := h.answer hinj hr hpoll
    exact ⟨command,x,run,(h.requests r command).mp hr,hh,hsame,hsuccess.trans hs⟩
  | polled id => exact h.redis (Bus.pollResult_spec h.holds s.now id).1
  | waited n => exact h.noted rfl rfl (fun _ => rfl) (.inl rfl)

omit [DecidableEq Consumer] [DecidableEq Request] in
theorem genuine_start {ks : Keyspace} (hks : d.bus.Unused ks) (now : Int) :
    Genuine d (start ks now) where
  holds := hks.holds
  requests _ _ := ⟨nofun,nofun⟩
  ids _ _ := nofun
  messages _ _ := nofun
  working _ := trivial
  handled _ _ _ := nofun
  answered := trivial

theorem Genuine.run (h : Genuine d s) (hinj : Function.Injective d.commandID)
    (actions : List (Action Consumer Request View Reply)) (hp : ∀ a ∈ actions, a.Published) :
    Genuine d (s.run d actions) :=
  run_keeps (fun _ h => h.holds.mono (fun _ _ _ => trivial) (fun _ _ _ => trivial))
    (fun _ _ _ ha h hc => h.change hinj ha hc) h actions hp

end System

def Bus.Stores (bus : Bus) (ks : Keyspace) (id content : String) : Prop :=
  (∃ xs e, ks (bus.resultKey id) = some ⟨.list xs,e⟩ ∧ content ∈ xs) ∨
    ∃ e, ks (bus.completionKey id) = some ⟨.string content,e⟩

theorem Bus.Holds.stores {bus : Bus} {S : String → StreamValue → Prop} {R : String → String → Prop}
    {ks : Keyspace} (h : bus.Holds S R ks) {id content : String} (hs : bus.Stores ks id content) :
    R id content := by
  rcases hs with ⟨xs,e,hk,hm⟩ | ⟨e,hk⟩
  · obtain ⟨ys,e',hi,hr⟩ := h.results id _ hk
    cases hi
    exact hr content hm
  · obtain ⟨text,e',hi,hr⟩ := h.completions id _ hk
    cases hi
    exact hr

/-- With distinct command IDs and streams that only `Publish` writes, a request is answered with 200
only after the consumer of its lease's owner has run the handler on its command with success. Every
encoded result under an ID decodes to a result with that ID, of a run of the handler on the command
that a request published under it. -/
theorem serverCommandHandler_genuine [DecidableEq Consumer] [DecidableEq Request]
    (d : Deployment Consumer Request View Call Reply) (hinj : Function.Injective d.commandID)
    {ks : Keyspace} (hks : d.bus.Unused ks) (now : Int)
    (actions : List (Action Consumer Request View Reply)) (hp : ∀ a ∈ actions, a.Published) :
    let s := (System.start ks now : System Consumer Request Call).run d actions
    (∀ later r earlier, s.trace = later ++ .answered r 200::earlier →
      ∃ c command result, .requested r c ∈ earlier ∧
        .consumed (.handled c.ownerID command result) ∈ earlier ∧ c.Same command ∧
        result.success = true) ∧
    ∀ id content, d.bus.Stores s.redis id content →
      ∃ r c command result t, .requested r c ∈ s.trace ∧ c.id = id ∧ c.Same command ∧
        .consumed (.handled c.ownerID command result) ∈ s.trace ∧ result.commandID = id ∧
        (t = result.completedAt ∨ result.completedAt = zeroTime) ∧
        decodeResult content = some { result.stored with completedAt := t } := by
  intro s
  have hs : s.Genuine d := (System.genuine_start hks now).run hinj actions hp
  refine ⟨?_,?_⟩
  · intro later r earlier ht
    exact History.throughout_iff.mp hs.answered later _ earlier ht r rfl
  · intro id content hstores
    obtain ⟨result,t,⟨⟨o,command,hh,hid⟩,hcid,ht⟩,henc⟩ := hs.holds.stores hstores
    obtain ⟨r,c,hr,rfl,hsame⟩ := (hs.handled o command result hh).same
    exact ⟨r,c,command,result,t,hr,hsame.1.symm.trans hid,hsame,hh,hcid,ht,(encodeResult_stored henc).1⟩

def Event.succeeds : Event Request Call → Bool
  | .answered _ status => status = 200
  | _ => false

/-- A request takes the result of a commit whose own reply was lost, and is answered with 200. -/
theorem serverCommandHandler_answered :
    let s := (System.start Keyspace.empty 1767225600000000000).run singleRuntime
      (lostCommit ++ [.await () .answered])
    s.trace.any Event.succeeds = true ∧
    ∀ later r earlier, s.trace = later ++ .answered r 200::earlier →
      ∃ c command result, .requested r c ∈ earlier ∧
        .consumed (.handled c.ownerID command result) ∈ earlier ∧ c.Same command ∧
        result.success = true := by
  refine ⟨by decide +kernel,?_⟩
  have hp : ∀ a ∈ lostCommit ++ [.await () .answered], a.Published := by
    simp [lostCommit,resetRequest,answeredCall,Action.Published]
  exact (serverCommandHandler_genuine singleRuntime (fun _ _ _ => rfl)
    ⟨fun _ => rfl,fun _ => rfl,fun _ => rfl⟩ _ _ hp).1

end CsmsPlatform
