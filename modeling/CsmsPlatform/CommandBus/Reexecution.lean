import CsmsPlatform.CommandBus.Genuine

/-!
# No second execution of a completed command

A completion record lasts five minutes and a command's deadline passes thirty seconds after it was
made, so a consumer that finds no record of a committed command finds its deadline passed. This needs
one consumer at a time for an owner, and a deadline that the stream entry carries.
-/

namespace CsmsPlatform

open Redis

variable {Consumer Request View Call Reply : Type}

/-- The handler calls out only while its context has no error. -/
def Handler.Heeds (handler : Handler View Call Reply) : Prop :=
  ∀ ctxErr view command call, handler.start ctxErr view command = .inr call → ctxErr = none

theorem resetHandler_heeds (texts : ErrorTexts) : (resetHandler texts).Heeds := by
  intro ctxErr view command call h
  unfold resetHandler at h
  dsimp only at h
  split at h
  · cases h
  · next hc => exact (handleCommand_callReset hc).1

/-- A call is for a requested command and, if that one's deadline was carried, comes before every
commit of the command. -/
def CalledFirst (e : Event Request Call) (earlier : List (Event Request Call)) : Prop :=
  ∀ o command call, e = .consumed (.called o command call) →
    ∃ r c, .requested r c ∈ earlier ∧ c.id = command.id ∧ (Carried c.deadline →
      ∀ tr, .consumed (.committed tr) ∈ earlier → tr.result.commandID ≠ command.id)

structure Commit.Kept (bus : Bus) (s : System Consumer Request Call) (tr : Commit) : Prop where
  past : tr.time ≤ s.now
  requested : ∃ r c, .requested r c ∈ s.trace ∧ c.id = tr.result.commandID ∧ c.createdAt ≤ tr.time
  record : ∃ text e, s.redis (bus.completionKey tr.result.commandID) = some ⟨.string text,some e⟩ ∧
    tr.time+setTTL bus.resultTTL.toInt ≤ e

theorem Commit.Kept.later {bus : Bus} {s s' : System Consumer Request Call} {tr : Commit}
    (h : tr.Kept bus s) (hnow : s.now ≤ s'.now) (hsub : s.trace ⊆ s'.trace)
    (hrecord : s'.redis (bus.completionKey tr.result.commandID) =
      s.redis (bus.completionKey tr.result.commandID)) : tr.Kept bus s' := by
  obtain ⟨r,c,hr,hrest⟩ := h.requested
  refine ⟨h.past.trans hnow,⟨r,c,hsub hr,hrest⟩,?_⟩
  rw [hrecord]
  exact h.record

theorem calledFirst_consumed {trace : List (Event Request Call)} {events : List (ConsumerEvent Call)}
    (h : History.Throughout CalledFirst trace) (he : ∀ o command call, .called o command call ∉ events) :
    History.Throughout CalledFirst (events.map .consumed ++ trace) := by
  induction events with
  | nil => exact h
  | cons e events ih =>
    refine ⟨?_,ih (fun o command call hm => he o command call (List.mem_cons_of_mem _ hm))⟩
    intro o command call hc
    injection hc with hc
    exact absurd (hc ▸ List.mem_cons_self) (he o command call)

section Calls

variable {bus : Bus} {o : String} {now : Int} {ks ks' : Keyspace} {pc next : Pc Call}
  {events : List (ConsumerEvent Call)}

theorem Advances.next_handling (ha : Advances bus o now ks pc next events ks') {frame : Frame}
    {command : Command} (hn : next = .handling frame command) :
    pc = .handling frame command ∨ ks.live now (bus.completionKey command.id) = none := by
  cases ha with
  | idle => exact .inl hn
  | missing hd hl =>
    cases hn
    exact .inr hl
  | finished origin => cases origin <;> cases hn
  | joined | created | skipped | recovered | waited | read | found | committed | acked | ackedNone =>
    cases hn

theorem putStream_completion (ks : Keyspace) (o id : String) (v : StreamValue) :
    (ks.putStream (bus.commandStream o) v) (bus.completionKey id) = ks (bus.completionKey id) :=
  Keyspace.set_ne _ _ (by simp)

theorem Advances.quiet (ha : Advances bus o now ks pc next events ks') :
    (∃ frame result content, pc = .finishing frame result ∧
      encodeResult (result.stamp now) = some content ∧ next = .acking frame ∧
      events = [.committed ⟨result.stamp now,now,ks,bus.written ks now result.commandID content⟩] ∧
      ks' = bus.written ks now result.commandID content) ∨
    (∀ id, ks' (bus.completionKey id) = ks (bus.completionKey id)) ∧
      (∀ tr, .committed tr ∉ events) ∧ ∀ o command call, .called o command call ∉ events := by
  have hnil : (∀ tr, ConsumerEvent.committed tr ∉ ([] : List (ConsumerEvent Call))) ∧
      ∀ o command call, ConsumerEvent.called o command call ∉ ([] : List (ConsumerEvent Call)) :=
    ⟨fun _ => List.not_mem_nil,fun _ _ _ => List.not_mem_nil⟩
  cases ha with
  | committed henc => exact .inl ⟨_,_,_,rfl,henc,rfl,rfl,rfl⟩
  | created | recovered | read => exact .inr ⟨fun id => putStream_completion _ _ _ _,hnil⟩
  | idle | joined | skipped | waited | finished | found | missing => exact .inr ⟨fun _ => rfl,hnil⟩
  | acked hv hg => exact .inr ⟨fun id => putStream_completion _ _ _ _,by simp,by simp⟩
  | ackedNone hn => exact .inr ⟨fun _ => rfl,by simp,by simp⟩

end Calls

namespace System

structure Settled (d : Deployment Consumer Request View Call Reply)
    (s : System Consumer Request Call) : Prop where
  genuine : Genuine d s
  created : ∀ r c, .requested r c ∈ s.trace →
    c.createdAt ≤ s.now ∧ c.deadline = c.createdAt+commandTimeout
  kept : ∀ tr, .consumed (.committed tr) ∈ s.trace → tr.Kept d.bus s
  handling : ∀ c frame command, s.consumer c = .handling frame command →
    ∀ tr, .consumed (.committed tr) ∈ s.trace → tr.result.commandID = command.id →
      tr.time+commandTimeout ≤ s.now
  once : History.Throughout CalledFirst s.trace

variable {d : Deployment Consumer Request View Call Reply} {s s' : System Consumer Request Call}

theorem Settled.late (h : Settled d s) (httl : commandTimeout ≤ setTTL d.bus.resultTTL.toInt) {id : String}
    (hl : s.redis.live s.now (d.bus.completionKey id) = none) {tr : Commit}
    (htr : .consumed (.committed tr) ∈ s.trace) (hid : tr.result.commandID = id) :
    tr.time+commandTimeout ≤ s.now := by
  obtain ⟨text,e,hk,he⟩ := (h.kept tr htr).record
  rw [hid] at hk
  simp only [Keyspace.live,hk,Option.filter_eq_none_iff,Option.some.injEq,forall_eq',
    Item.liveAt,decide_eq_true_eq] at hl
  omega

theorem Settled.published (h : Settled d s) {c : Consumer} {frame : Frame} {command : Command}
    (hm : frame.message ∈ (s.consumer c).messages)
    (hd : decodeCommand frame.message.fields = .ok command) :
    ∃ r x, .requested r x ∈ s.trace ∧ x.ownerID = d.ownerID c ∧ x.id = command.id ∧
      command.deadline = recovered (timestamp x.deadline) := by
  obtain ⟨r,x,hr,ho,hf⟩ := h.genuine.messages c frame.message hm
  rw [hf] at hd
  have hx := decodeCommand_fields_ok hd
  exact ⟨r,x,hr,ho,by rw [hx],by rw [hx]⟩

variable {c : Consumer} {pc : Pc Call} {events : List (ConsumerEvent Call)} {ks : Keyspace}

/-- A call of a command whose deadline was carried finds the deadline ahead, so no commit behind. -/
theorem Settled.calledFirst (h : Settled d s) (hinj : Function.Injective d.commandID)
    (hheeds : d.handler.Heeds) {frame : Frame} {command : Command} {ctxErr : Option String} {view : View}
    {call : Call} (hc : s.consumer c = .handling frame command)
    (hs : d.handler.start (handlerContextErr ctxErr command.deadline s.now) view command = .inr call)
    (o : String) : CalledFirst (.consumed (.called o command call)) s.trace := by
  intro o' command' call' he
  cases he
  have hd := h.genuine.working c
  have hmem : frame.message ∈ (s.consumer c).messages := by
    rw [hc]
    exact List.mem_cons_self
  rw [hc] at hd
  obtain ⟨r,x,hr,_,hx,hdeadline⟩ := h.published hmem hd
  refine ⟨r,x,hr,hx,?_⟩
  intro hcarried tr htr htid
  obtain ⟨r',x',hr',hx',hcreated⟩ := (h.kept tr htr).requested
  have hsame : x' = x := h.genuine.unique hinj hr' hr (hx'.trans (htid.trans hx.symm))
  subst hsame
  rw [(recovered_timestamp _).mpr (.inr hcarried)] at hdeadline
  have hlate := h.handling c frame command hc tr htr htid
  have hmade := (h.created r x' hr).2
  have hctx := hheeds _ _ _ _ hs
  have hlo := hcarried.1
  have hz : zeroTime = -62135596800*1000000000 := rfl
  unfold handlerContextErr at hctx
  cases ctxErr with
  | some err => cases hctx
  | none =>
    have hpassed : command.deadline ≠ zeroTime ∧ command.deadline ≤ s.now := by omega
    rw [if_pos hpassed] at hctx
    cases hctx

variable [DecidableEq Consumer]

theorem Settled.move (h : Settled d s) (hg : Genuine d (s.moved c pc events ks))
    (hkeys : ∀ id, ks (d.bus.completionKey id) = s.redis (d.bus.completionKey id))
    (hcommit : ∀ tr, .committed tr ∉ events)
    (hpc : ∀ frame command, pc = .handling frame command → s.consumer c = .handling frame command ∨
      s.redis.live s.now (d.bus.completionKey command.id) = none)
    (httl : commandTimeout ≤ setTTL d.bus.resultTTL.toInt)
    (honce : History.Throughout CalledFirst (events.map Event.consumed ++ s.trace)) :
    Settled d (s.moved c pc events ks) := by
  have hsub : s.trace ⊆ events.map Event.consumed ++ s.trace := List.subset_append_right _ _
  have hcommitted (tr : Commit) (htr : .consumed (.committed tr) ∈ events.map Event.consumed ++ s.trace) :
      .consumed (.committed tr) ∈ s.trace := by
    simpa [hcommit] using htr
  refine ⟨hg,?_,?_,?_,honce⟩
  · intro r x hx
    exact h.created r x (by simpa [moved] using hx)
  · intro tr htr
    exact (h.kept tr (hcommitted tr htr)).later le_rfl hsub (hkeys _)
  · intro c' frame command hc' tr htr hid
    have htr' := hcommitted tr htr
    simp only [moved,setConsumer] at hc'
    by_cases hcc : c' = c
    · rw [if_pos hcc] at hc'
      rcases hpc frame command hc' with hold | hl
      · exact h.handling c frame command hold tr htr' hid
      · exact h.late httl hl htr' hid
    · rw [if_neg hcc] at hc'
      exact h.handling c' frame command hc' tr htr' hid

/-- A commit: no other consumer is handling the same command, and the record is renewed. -/
theorem Settled.commit (h : Settled d s) (howner : Function.Injective d.ownerID)
    (hinj : Function.Injective d.commandID) {frame : Frame} {result : Result} {content : String}
    (hc : s.consumer c = .finishing frame result)
    (hpc : ∀ frame command, pc ≠ .handling frame command)
    (hg : Genuine d (s.moved c pc [.committed ⟨result.stamp s.now,s.now,s.redis,
      d.bus.written s.redis s.now result.commandID content⟩]
      (d.bus.written s.redis s.now result.commandID content))) :
    Settled d (s.moved c pc [.committed ⟨result.stamp s.now,s.now,s.redis,
      d.bus.written s.redis s.now result.commandID content⟩]
      (d.bus.written s.redis s.now result.commandID content)) := by
  have hwork := h.genuine.working c
  rw [hc] at hwork
  obtain ⟨command,hd,hown⟩ := hwork
  have hmem : frame.message ∈ (s.consumer c).messages := by
    rw [hc]
    exact List.mem_cons_self
  obtain ⟨r,x,hr,ho,hx,_⟩ := h.published hmem hd
  have hid : x.id = result.commandID := hx.trans hown.commandID.symm
  refine ⟨hg,?_,?_,?_,?_⟩
  · intro r' x' hx'
    exact h.created r' x' (by simpa [moved] using hx')
  · intro tr htr
    have hset : (d.bus.written s.redis s.now result.commandID content)
        (d.bus.completionKey result.commandID) =
        some ⟨.string content,some (s.now+setTTL d.bus.resultTTL.toInt)⟩ := by
      simp [Bus.written,Keyspace.set]
    rcases List.mem_cons.mp htr with htr | htr
    · cases htr
      exact ⟨le_rfl,⟨r,x,List.mem_cons_of_mem _ hr,by simp [hid],(h.created r x hr).1⟩,
        content,_,by simpa [moved] using hset,le_rfl⟩
    · have hkept := h.kept tr htr
      -- an earlier commit of the command is covered by the record just written, which lasts longer
      by_cases hsame : tr.result.commandID = result.commandID
      · obtain ⟨r',x',hr',hrest⟩ := hkept.requested
        refine ⟨hkept.past,⟨r',x',List.mem_cons_of_mem _ hr',hrest⟩,content,
          s.now+setTTL d.bus.resultTTL.toInt,?_,?_⟩
        · rw [hsame]
          exact hset
        · have := hkept.past
          omega
      · refine hkept.later ?_ ?_ ?_
        · exact le_rfl
        · exact List.subset_cons_self _ _
        · simp [moved,Bus.written,Keyspace.set,hsame]
  · intro c' frame' command' hc' tr htr htid
    simp only [moved,setConsumer] at hc'
    by_cases hcc : c' = c
    · rw [if_pos hcc] at hc'
      exact absurd hc' (hpc frame' command')
    · rw [if_neg hcc] at hc'
      rcases List.mem_cons.mp htr with htr | htr
      · cases htr
        have hd' := h.genuine.working c'
        have hmem' : frame'.message ∈ (s.consumer c').messages := by
          rw [hc']
          exact List.mem_cons_self
        rw [hc'] at hd'
        obtain ⟨r',x',hr',ho',hx',_⟩ := h.published hmem' hd'
        -- both consumers would have the command of one request, which went to one owner
        have hxx : x = x' := by
          apply h.genuine.unique hinj hr hr'
          rw [hid,hx',← htid,stamp_commandID]
        exact absurd (howner (ho'.symm.trans (hxx ▸ ho))) hcc
      · exact h.handling c' frame' command' hc' tr htr htid
  · exact calledFirst_consumed h.once (by simp)

theorem Settled.consumer (h : Settled d s) (howner : Function.Injective d.ownerID)
    (hinj : Function.Injective d.commandID) (hheeds : d.handler.Heeds)
    (httl : commandTimeout ≤ setTTL d.bus.resultTTL.toInt)
    (hc : Consumes d.bus d.handler (d.ownerID c) s.now s.redis (s.consumer c) pc events ks) :
    Settled d (s.moved c pc events ks) := by
  have hg := h.genuine.consumer c hc
  generalize hpc₀ : s.consumer c = pc₀ at hc
  cases hc with
  | halted | started =>
    exact h.move hg (fun _ => rfl) (fun _ => List.not_mem_nil) nofun httl h.once
  | stayed =>
    exact h.move hg (fun _ => rfl) (fun _ => List.not_mem_nil) (fun _ _ hn => .inl (hpc₀.trans hn)) httl
      h.once
  | called ha hpc =>
    rcases ha.quiet with ⟨frame,result,content,rfl,henc,rfl,rfl,rfl⟩ | ⟨hkeys,hcommit,hcalled⟩
    · apply h.commit howner hinj hpc₀ _ hg
      intro frame' command' hn
      rcases hpc with rfl | rfl | rfl <;> cases hn
    · refine h.move hg hkeys hcommit ?_ httl (calledFirst_consumed h.once hcalled)
      intro frame command hn
      rw [hpc₀]
      rcases hpc with rfl | rfl | rfl
      · exact ha.next_handling hn
      · exact .inl hn
      · cases hn
  | responded _ | resumed _ =>
    exact h.move hg (fun _ => rfl) (by simp) nofun httl (calledFirst_consumed h.once (by simp))
  | calledOut hs =>
    exact h.move hg (fun _ => rfl) (by simp) nofun httl ⟨h.calledFirst hinj hheeds hpc₀ hs _,h.once⟩

omit [DecidableEq Consumer] in
theorem Settled.noted (h : Settled d s) (hg : Genuine d s') (hc : s'.consumer = s.consumer)
    (hnow : s.now ≤ s'.now)
    (hkeys : ∀ id, s'.redis (d.bus.completionKey id) = s.redis (d.bus.completionKey id))
    (ht : s'.trace = s.trace ∨ ∃ e, (∀ x, e ≠ .consumed x) ∧ s'.trace = e::s.trace)
    (hcreated : ∀ r c, .requested r c ∈ s'.trace → .requested r c ∉ s.trace →
      c.createdAt ≤ s'.now ∧ c.deadline = c.createdAt+commandTimeout) : Settled d s' := by
  have hsub : s.trace ⊆ s'.trace := by
    rcases ht with ht | ⟨e,_,ht⟩
    · rw [ht]
      exact List.Subset.refl _
    · rw [ht]
      exact List.subset_cons_self _ _
  have hconsumed (x : ConsumerEvent Call) (hx : .consumed x ∈ s'.trace) : .consumed x ∈ s.trace := by
    rcases ht with ht | ⟨e,he,ht⟩
    · rwa [ht] at hx
    · rw [ht] at hx
      rcases List.mem_cons.mp hx with hx | hx
      · exact absurd hx.symm (he x)
      · exact hx
  refine ⟨hg,?_,?_,?_,?_⟩
  · intro r x hx
    by_cases hold : .requested r x ∈ s.trace
    · obtain ⟨h1,h2⟩ := h.created r x hold
      exact ⟨h1.trans hnow,h2⟩
    · exact hcreated r x hx hold
  · intro tr htr
    exact (h.kept tr (hconsumed _ htr)).later hnow hsub (hkeys _)
  · intro c frame command hcf tr htr hid
    rw [hc] at hcf
    exact (h.handling c frame command hcf tr (hconsumed _ htr) hid).trans hnow
  · rcases ht with ht | ⟨e,he,ht⟩
    · rw [ht]
      exact h.once
    · rw [ht]
      exact ⟨fun o command call hx => absurd hx (he _),h.once⟩

variable [DecidableEq Request]

theorem Settled.change {a : Action Consumer Request View Reply} (h : Settled d s)
    (howner : Function.Injective d.ownerID) (hinj : Function.Injective d.commandID)
    (hheeds : d.handler.Heeds) (httl : commandTimeout ≤ setTTL d.bus.resultTTL.toInt)
    (ha : a.Published) (hc : Change d a s s') : Settled d s' := by
  have hg := h.genuine.change hinj ha hc
  have hold (r : Request) (x : Command) (hx : .requested r x ∈ s.trace) (hn : .requested r x ∉ s.trace) :
      x.createdAt ≤ s.now ∧ x.deadline = x.createdAt+commandTimeout := absurd hx hn
  cases hc with
  | consumer c hc => exact h.consumer howner hinj hheeds httl hc
  | appended o fields evict he =>
    subst he
    cases ha
  | published r evict he hr hv =>
    exact h.noted hg rfl le_rfl (fun id => putStream_completion _ _ _ _) (.inl rfl) hold
  | @requested r command hr hid hcreated hdeadline =>
    refine h.noted hg rfl le_rfl (fun _ => rfl) (.inr ⟨.requested r command,nofun,rfl⟩) ?_
    intro r' x hx hn
    rcases List.mem_cons.mp hx with hx | hx
    · cases hx
      exact ⟨hcreated.le,by rw [hdeadline,hcreated]⟩
    · exact absurd hx hn
  | awaiting r hr => exact h.noted hg rfl le_rfl (fun _ => rfl) (.inl rfl) hold
  | answered r status hr hok =>
    refine h.noted hg rfl le_rfl (fun _ => rfl) (.inr ⟨.answered r status,nofun,rfl⟩) ?_
    intro r' x hx hn
    rcases List.mem_cons.mp hx with hx | hx
    · cases hx
    · exact absurd hx hn
  | polled id =>
    have hother := (Bus.pollResult_spec h.genuine.holds s.now id).2.1
    exact h.noted hg rfl le_rfl (fun _ => hother _ (by simp)) (.inl rfl) hold
  | waited n =>
    refine h.noted hg rfl ?_ (fun _ => rfl) (.inl rfl) (fun r x hx hn => absurd hx hn)
    change s.now ≤ s.now+n
    omega

omit [DecidableEq Consumer] [DecidableEq Request] in
theorem settled_start {ks : Keyspace} (hks : d.bus.Unused ks) (now : Int) :
    Settled d (start ks now) where
  genuine := genuine_start hks now
  created _ _ := nofun
  kept _ := nofun
  handling _ _ _ := nofun
  once := trivial

theorem Settled.run (h : Settled d s) (howner : Function.Injective d.ownerID)
    (hinj : Function.Injective d.commandID) (hheeds : d.handler.Heeds)
    (httl : commandTimeout ≤ setTTL d.bus.resultTTL.toInt)
    (actions : List (Action Consumer Request View Reply)) (hp : ∀ a ∈ actions, a.Published) :
    Settled d (s.run d actions) :=
  run_keeps (fun _ h => h.genuine.holds.mono (fun _ _ _ => trivial) (fun _ _ _ => trivial))
    (fun _ _ _ ha h hc => h.change howner hinj hheeds httl ha hc) h actions hp

end System

/-- With one consumer at a time for each owner, IDs that name one command and the five-minute records
of `New`, no call of a command follows a commit under its ID, as long as the command's deadline is one
that its stream entry carries: within the 64-bit nanoseconds and not the epoch. -/
theorem callReset_beforeCommit [DecidableEq Consumer] [DecidableEq Request] (texts : ErrorTexts)
    (d : Deployment Consumer Request RuntimeView (Version × ResetCommand) (Except String String))
    (hhandler : d.handler = resetHandler texts) (hbus : d.bus.resultTTL = 300000000000)
    (howner : Function.Injective d.ownerID) (hinj : Function.Injective d.commandID)
    {ks : Keyspace} (hks : d.bus.Unused ks) (now : Int)
    (actions : List (Action Consumer Request RuntimeView (Except String String)))
    (hp : ∀ a ∈ actions, a.Published) :
    let s := (System.start ks now).run d actions
    ∀ r c, .requested r c ∈ s.trace → Carried c.deadline →
      ∀ later o command call earlier, s.trace = later ++ .consumed (.called o command call)::earlier →
        command.id = c.id → ∀ tr, .consumed (.committed tr) ∈ earlier → tr.result.commandID ≠ c.id := by
  intro s r c hr hcarried later o command call earlier ht hid tr htr
  have httl : commandTimeout ≤ setTTL d.bus.resultTTL.toInt := by
    rw [hbus]
    decide
  have hheeds : d.handler.Heeds := hhandler ▸ resetHandler_heeds texts
  have hs : s.Settled d := (System.settled_start hks now).run howner hinj hheeds httl actions hp
  obtain ⟨r',c',hr',hid',hnone⟩ :=
    History.throughout_iff.mp hs.once later _ earlier ht o command call rfl
  have hmem : .requested r' c' ∈ s.trace := by
    rw [ht]
    exact List.mem_append_right _ (List.mem_cons_of_mem _ hr')
  have hsame : c' = c := hs.genuine.unique hinj hmem hr (hid'.trans hid)
  subst hsame
  rw [hid']
  exact hnone hcarried tr htr

/-- Six minutes after a commit the entry is delivered again, and its record is gone. -/
def lateRedelivery : List (Action Unit Unit RuntimeView (Except String String)) :=
  [.wait 360000000000,.startConsumer (),answeredCall,answeredCall,answeredCall,
    .consume () (.run none connectedView)]

def Event.calledID : Event Request Call → Option String
  | .consumed (.called _ command _) => some command.id
  | _ => none

def Event.committedID : Event Request Call → Option String
  | .consumed (.committed tr) => some tr.result.commandID
  | _ => none

/-- The late handler runs into its deadline, so the station is reset once. -/
theorem callReset_expired :
    let s := (System.start Keyspace.empty 1767225600000000000).run singleRuntime
      (lostCommit ++ lateRedelivery)
    (s.trace.filterMap Event.calledID = ["4f1e"] ∧ s.trace.filterMap Event.committedID = ["4f1e"]) ∧
    ∀ r c, .requested r c ∈ s.trace → Carried c.deadline →
      ∀ later o command call earlier, s.trace = later ++ .consumed (.called o command call)::earlier →
        command.id = c.id → ∀ tr, .consumed (.committed tr) ∈ earlier → tr.result.commandID ≠ c.id := by
  refine ⟨by decide +kernel,?_⟩
  have hp : ∀ a ∈ lostCommit ++ lateRedelivery, a.Published := by
    simp [lostCommit,lateRedelivery,resetRequest,answeredCall,Action.Published]
  exact callReset_beforeCommit ⟨id,id⟩ singleRuntime rfl rfl (fun _ _ _ => rfl) (fun _ _ _ => rfl)
    ⟨fun _ => rfl,fun _ => rfl,fun _ => rfl⟩ _ _ hp

theorem calledID_eq_some {e : Event Request Call} {id : String} (h : e.calledID = some id) :
    ∃ o command call, e = .consumed (.called o command call) ∧ command.id = id := by
  cases e with
  | consumed x =>
    cases x with
    | called o command call =>
      injection h with h
      exact ⟨o,command,call,rfl,h⟩
    | handled | committed | acked => cases h
  | requested | answered => cases h

theorem committedID_eq_some {e : Event Request Call} {id : String} (h : e.committedID = some id) :
    ∃ tr, e = .consumed (.committed tr) ∧ tr.result.commandID = id := by
  cases e with
  | consumed x =>
    cases x with
    | committed tr =>
      injection h with h
      exact ⟨tr,rfl,h⟩
    | called | handled | acked => cases h
  | requested | answered => cases h

/-- A command made thirty seconds before the epoch has a deadline that is written as 0 and read as
none. Its handler calls the station again, six minutes after the commit. -/
theorem callReset_epochDeadline :
    let s := (System.start Keyspace.empty (-30000000000)).run singleRuntime
      (lostCommit ++ lateRedelivery)
    ∃ o command call earlier tr, s.trace = .consumed (.called o command call)::earlier ∧
      .consumed (.committed tr) ∈ earlier ∧ tr.result.commandID = command.id := by
  intro s
  have hcall : s.trace.head?.bind Event.calledID = some "4f1e" := by
    change ((System.start Keyspace.empty (-30000000000)).run singleRuntime
      (lostCommit ++ lateRedelivery)).trace.head?.bind Event.calledID = some "4f1e"
    decide +kernel
  have hcommit : s.trace.tail.any (fun e => e.committedID = some "4f1e") = true := by
    change ((System.start Keyspace.empty (-30000000000)).run singleRuntime
      (lostCommit ++ lateRedelivery)).trace.tail.any (fun e => e.committedID = some "4f1e") = true
    decide +kernel
  obtain ⟨e,he,hid⟩ := Option.bind_eq_some_iff.mp hcall
  obtain ⟨o,command,call,rfl,hc⟩ := calledID_eq_some hid
  obtain ⟨x,hx,hxid⟩ := List.any_eq_true.mp hcommit
  obtain ⟨tr,rfl,htr⟩ := committedID_eq_some (of_decide_eq_true hxid)
  refine ⟨o,command,call,s.trace.tail,tr,?_,hx,htr.trans hc.symm⟩
  exact List.eq_cons_of_mem_head? he

end CsmsPlatform
