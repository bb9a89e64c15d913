import CsmsPlatform.CommandBus.Steps
import CsmsPlatform.Framework.History
import CsmsPlatform.Framework.Redis.Accounting

/-!
# No command is lost by a consumer

On streams that are not trimmed, whoever writes to them and wherever calls fail, the consumer group
of an owner accounts for every entry, and an entry is acknowledged only after a transaction has
written the completion record and a result for its command.
-/

namespace CsmsPlatform

open Redis

variable {Consumer Request View Call Reply : Type}

def ackedIDs (o : String) (trace : List (Event Request Call)) : List Nat :=
  trace.filterMap fun
    | .consumed (.acked o' message) => if o' = o then some message.id else none
    | _ => none

/-- The transaction set the completion record and pushed the same content to the result list. -/
def Commit.Wrote (bus : Bus) (tr : Commit) : Prop :=
  ∃ content, encodeResult tr.result = some content ∧
    tr.after (bus.completionKey tr.result.commandID) =
      some ⟨.string content,some (tr.time+setTTL bus.resultTTL.toInt)⟩ ∧
    tr.after (bus.resultKey tr.result.commandID) =
      some ⟨.list (content::bus.elements tr.before tr.time tr.result.commandID),
        some (tr.time+expireTTL bus.resultTTL.toInt)⟩

def Committed (bus : Bus) (trace : List (Event Request Call)) (id : String) : Prop :=
  ∃ tr, .consumed (.committed tr) ∈ trace ∧ tr.result.commandID = id ∧ tr.Wrote bus

def Bus.Delivered (bus : Bus) (ks : Keyspace) (o : String) (m : StreamEntry) : Prop :=
  m ∈ (bus.stream ks o).entries ∧
    ∃ g, (bus.stream ks o).group consumerGroup = some g ∧ m.id ≤ g.lastDelivered

def Pc.messages : Pc Call → List StreamEntry
  | .batch _ messages => messages
  | .handling frame _ => frame.message::frame.rest
  | .calling frame _ _ => frame.message::frame.rest
  | .finishing frame _ => frame.message::frame.rest
  | .acking frame => frame.message::frame.rest
  | _ => []

/-- What a consumer knows of the command it works on: the result is the command's own, or the command
is committed already. -/
def Pc.Backed (committed : String → Prop) : Pc Call → Prop
  | .handling frame command => decodeCommand frame.message.fields = .ok command
  | .calling frame command _ => decodeCommand frame.message.fields = .ok command
  | .finishing frame result => ∃ command, decodeCommand frame.message.fields = .ok command ∧
    (result.commandID = command.id ∨ committed command.id)
  | .acking frame => ∃ command, decodeCommand frame.message.fields = .ok command ∧ committed command.id
  | _ => True

/-- An acknowledged entry's command was committed before. -/
def AckedCommitted (bus : Bus) (e : Event Request Call) (earlier : List (Event Request Call)) : Prop :=
  ∀ o m, e = .consumed (.acked o m) →
    ∃ command, decodeCommand m.fields = .ok command ∧ Committed bus earlier command.id

def Action.Untrimmed : Action Consumer Request View Reply → Prop
  | .append _ _ evict => evict = 0
  | .publish _ _ evict => evict = 0
  | .duplicate _ evict => evict = 0
  | _ => True

namespace System

structure Accounts (d : Deployment Consumer Request View Call Reply)
    (s : System Consumer Request Call) : Prop where
  holds : d.bus.Holds (fun _ _ => True) (fun id _ => Committed d.bus s.trace id) s.redis
  accounted : ∀ o, Accounted (d.bus.stream s.redis o) consumerGroup (ackedIDs o s.trace)
  delivered : ∀ c, ∀ m ∈ (s.consumer c).messages, d.bus.Delivered s.redis (d.ownerID c) m
  backed : ∀ c, (s.consumer c).Backed (Committed d.bus s.trace)
  acked : ∀ o m, .consumed (.acked o m) ∈ s.trace → m ∈ (d.bus.stream s.redis o).entries
  earlier : History.Throughout (AckedCommitted d.bus) s.trace

end System

section Facts

variable {bus : Bus} {ks ks' : Keyspace} {o : String} {trace : List (Event Request Call)}

theorem Committed.mono {id : String} (h : Committed bus trace id) (events : List (Event Request Call)) :
    Committed bus (events ++ trace) id := by
  obtain ⟨tr,hm,hid,hw⟩ := h
  exact ⟨tr,List.mem_append_right _ hm,hid,hw⟩

theorem Pc.Backed.mono {P Q : String → Prop} {pc : Pc Call} (h : pc.Backed P)
    (hpq : ∀ id, P id → Q id) : pc.Backed Q := by
  cases pc with
  | finishing frame result =>
    obtain ⟨command,hd,hr⟩ := h
    exact ⟨command,hd,hr.imp_right (hpq _)⟩
  | acking frame =>
    obtain ⟨command,hd,hc⟩ := h
    exact ⟨command,hd,hpq _ hc⟩
  | stopped | creating | loop | reading | batch | handling | calling => exact h

theorem Bus.Delivered.grow {m : StreamEntry} (h : bus.Delivered ks o m)
    (hg : (bus.stream ks o).Grows (bus.stream ks' o) consumerGroup) : bus.Delivered ks' o m := by
  obtain ⟨hm,g,hgr,hle⟩ := h
  obtain ⟨g',hg',hle'⟩ := hg.2 g hgr
  exact ⟨hg.1 m hm,g',hg',hle.trans hle'⟩

theorem stream_grows_refl (v : StreamValue) (group : String) : v.Grows v group :=
  ⟨fun _ he => he,fun g hg => ⟨g,hg,le_rfl⟩⟩

theorem putStream_grows {v : StreamValue} (hg : (bus.stream ks o).Grows v consumerGroup) (o' : String) :
    (bus.stream ks o').Grows (bus.stream (ks.putStream (bus.commandStream o) v) o') consumerGroup := by
  rw [Bus.stream_putStream]
  by_cases h : o' = o
  · rw [if_pos h,h]
    exact hg
  · rw [if_neg h]
    exact stream_grows_refl _ _

theorem committed_written {result : Result} {now : Int} {content : String}
    (henc : encodeResult (result.stamp now) = some content) :
    Commit.Wrote bus ⟨result.stamp now,now,ks,bus.written ks now result.commandID content⟩ := by
  refine ⟨content,henc,?_,?_⟩
  · simp [Bus.written,Keyspace.set,stamp_commandID]
  · simp [Bus.written,Keyspace.set,stamp_commandID]

end Facts

namespace System

variable {d : Deployment Consumer Request View Call Reply} {s : System Consumer Request Call}
  {events : List (ConsumerEvent Call)} {ks : Keyspace} {o : String}

/-- What a consumer's step keeps, apart from the consumer itself. -/
structure Keeps (d : Deployment Consumer Request View Call Reply) (s : System Consumer Request Call)
    (events : List (ConsumerEvent Call)) (ks : Keyspace) : Prop where
  holds : d.bus.Holds (fun _ _ => True)
    (fun id _ => Committed d.bus (events.map Event.consumed ++ s.trace) id) ks
  accounted : ∀ o, Accounted (d.bus.stream ks o) consumerGroup
    (ackedIDs o (events.map Event.consumed ++ s.trace))
  grows : ∀ o, (d.bus.stream s.redis o).Grows (d.bus.stream ks o) consumerGroup
  acked : ∀ o m, .acked o m ∈ events → m ∈ (d.bus.stream ks o).entries
  earlier : History.Throughout (AckedCommitted d.bus) (events.map Event.consumed ++ s.trace)

theorem Accounts.keeps_redis (h : Accounts d s) (hev : events = [] ∨ ∃ e, events = [e] ∧
    ∀ o m, e ≠ .acked o m) : Keeps d s events s.redis := by
  rcases hev with rfl | ⟨e,rfl,he⟩
  · exact ⟨h.holds,h.accounted,fun _ => stream_grows_refl _ _,
      fun _ _ hm => absurd hm List.not_mem_nil,h.earlier⟩
  · have hids (o : String) : ackedIDs o ([e].map Event.consumed ++ s.trace) = ackedIDs o s.trace := by
      cases e with
      | acked o' m => exact absurd rfl (he o' m)
      | called | handled | committed => rfl
    refine ⟨h.holds.mono (fun _ _ h => h) (fun id _ hc => hc.mono _),?_,
      fun _ => stream_grows_refl _ _,?_,?_,h.earlier⟩
    · intro o
      rw [hids]
      exact h.accounted o
    · intro o m hm
      exact absurd (List.mem_singleton.mp hm).symm (he o m)
    · intro o m hm
      injection hm with hm
      exact absurd hm (he o m)

theorem Accounts.keeps_stream (h : Accounts d s) {v : StreamValue}
    (hv : Accounted v consumerGroup (ackedIDs o s.trace))
    (hg : (d.bus.stream s.redis o).Grows v consumerGroup) :
    Keeps d s [] (s.redis.putStream (d.bus.commandStream o) v) := by
  refine ⟨h.holds.putStream trivial (fun _ _ _ h => h),?_,putStream_grows hg,
    fun _ _ hm => absurd hm List.not_mem_nil,h.earlier⟩
  intro o'
  rw [Bus.stream_putStream]
  by_cases ho : o' = o
  · rw [if_pos ho,ho]
    exact hv
  · rw [if_neg ho]
    exact h.accounted o'

theorem Accounts.keeps_commit (h : Accounts d s) {result : Result} {content : String}
    (henc : encodeResult (result.stamp s.now) = some content) :
    Keeps d s
      [.committed ⟨result.stamp s.now,s.now,s.redis,d.bus.written s.redis s.now result.commandID content⟩]
      (d.bus.written s.redis s.now result.commandID content) := by
  have hsame := h.keeps_redis (.inr ⟨ConsumerEvent.committed ⟨result.stamp s.now,s.now,s.redis,
    d.bus.written s.redis s.now result.commandID content⟩,rfl,by simp⟩)
  refine ⟨?_,?_,?_,by simp,hsame.earlier⟩
  · apply hsame.holds.written (fun _ _ h => h) (fun _ _ h => h)
    exact ⟨_,List.mem_cons_self,stamp_commandID _ _,committed_written henc⟩
  · intro o
    rw [Bus.stream_written]
    exact hsame.accounted o
  · intro o
    rw [Bus.stream_written]
    exact stream_grows_refl _ _

theorem Accounts.keeps_ack (h : Accounts d s) {m : StreamEntry} {g : ConsumerGroup}
    (hm : d.bus.Delivered s.redis o m) (hg : (d.bus.stream s.redis o).group consumerGroup = some g)
    (hc : ∃ command, decodeCommand m.fields = .ok command ∧ Committed d.bus s.trace command.id) :
    Keeps d s [.acked o m] (s.redis.putStream (d.bus.commandStream o)
      ((d.bus.stream s.redis o).setGroup consumerGroup
        { g with pending := g.pending.filter fun p => p.id ≠ m.id })) := by
  obtain ⟨hme,g',hg',hle⟩ := hm
  rw [hg] at hg'
  cases hg'
  have hgrow : (d.bus.stream s.redis o).Grows ((d.bus.stream s.redis o).setGroup consumerGroup
      { g with pending := g.pending.filter fun p => p.id ≠ m.id }) consumerGroup := by
    apply grows_setGroup
    intro g' hg'
    rw [hg] at hg'
    cases hg'
    exact le_rfl
  refine ⟨?_,?_,putStream_grows hgrow,?_,?_,h.earlier⟩
  · apply (h.holds.mono (fun _ _ h => h) (fun id _ hc => hc.mono [_])).putStream trivial
    exact fun _ _ _ h => h
  · intro o'
    rw [Bus.stream_putStream]
    by_cases ho : o' = o
    · subst ho
      have hacc := h.accounted o'
      have hids : ackedIDs o' ([ConsumerEvent.acked o' m].map Event.consumed ++ s.trace) =
          m.id::ackedIDs o' s.trace := by
        simp [ackedIDs]
      rw [if_pos rfl,hids]
      exact hacc.ack hg (hacc.covered g hg m hme hle)
    · have hids : ackedIDs o' ([ConsumerEvent.acked o m].map Event.consumed ++ s.trace) =
          ackedIDs o' s.trace := by
        simp [ackedIDs,Ne.symm ho]
      rw [if_neg ho,hids]
      exact h.accounted o'
  · intro o' m' hm'
    cases List.mem_singleton.mp hm'
    rw [Bus.stream_putStream,if_pos rfl]
    exact hme
  · intro o' m' hm'
    injection hm' with hm'
    cases hm'
    exact hc

theorem Accounts.advance (h : Accounts d s) {c : Consumer} {next : Pc Call}
    (ha : Advances d.bus (d.ownerID c) s.now s.redis (s.consumer c) next events ks) :
    Keeps d s events ks ∧ (∀ m ∈ next.messages, d.bus.Delivered ks (d.ownerID c) m) ∧
      next.Backed (Committed d.bus (events.map Event.consumed ++ s.trace)) := by
  have hmsgs := h.delivered c
  have hback := h.backed c
  generalize s.consumer c = pc at ha hmsgs hback
  have hacc := h.accounted (d.ownerID c)
  have hnone : Keeps d s [] s.redis := h.keeps_redis (.inl rfl)
  cases ha with
  | idle => exact ⟨hnone,hmsgs,hback⟩
  | joined => exact ⟨hnone,List.forall_mem_nil _,trivial⟩
  | created hg =>
    refine ⟨h.keeps_stream (hacc.create hg) ?_,List.forall_mem_nil _,trivial⟩
    apply grows_setGroup
    intro g hg'
    rw [hg] at hg'
    cases hg'
  | skipped => exact ⟨hnone,List.forall_mem_nil _,trivial⟩
  | @recovered lastRecovery v g hv hg =>
    rw [← Bus.stream_some hv] at hg ⊢
    refine ⟨h.keeps_stream (hacc.claim hg _ _ _ _) (grows_pending hg _),?_,trivial⟩
    intro m hm
    obtain ⟨hme,hle⟩ := hacc.claimed hg hm
    rw [Bus.Delivered,Bus.stream_putStream,if_pos rfl]
    exact ⟨hme,_,setGroup_self _ _ _,hle⟩
  | waited => exact ⟨hnone,List.forall_mem_nil _,trivial⟩
  | @read lastRecovery v g hv hg =>
    rw [← Bus.stream_some hv] at hg ⊢
    refine ⟨h.keeps_stream (hacc.deliver hg _ _) (hacc.grows_deliver hg _ _),?_,trivial⟩
    intro m hm
    rw [Bus.Delivered,Bus.stream_putStream,if_pos rfl]
    exact ⟨((hacc.undelivered_spec g 1).1 m hm).1,_,setGroup_self _ _ _,hacc.delivered_le s.now hm⟩
  | finished origin =>
    cases origin <;> exact ⟨hnone,List.forall_mem_nil _,trivial⟩
  -- the record was written by a commit of the command
  | @found frame command content e result hd hk hr =>
    refine ⟨hnone,hmsgs,command,hd,.inr ?_⟩
    obtain ⟨_,_,_,hc⟩ := h.holds.completions command.id _ hk
    exact hc
  | missing hd hl => exact ⟨hnone,hmsgs,hd⟩
  | @committed frame result content henc =>
    have hkeeps := h.keeps_commit henc
    refine ⟨hkeeps,fun m hm => (hmsgs m hm).grow (hkeeps.grows _),?_⟩
    obtain ⟨command,hd,hid | hc⟩ := hback
    · exact ⟨command,hd,_,List.mem_cons_self,(stamp_commandID _ _).trans hid,committed_written henc⟩
    · exact ⟨command,hd,hc.mono _⟩
  | @acked frame v g hv hg =>
    rw [← Bus.stream_some hv] at hg ⊢
    have hkeeps := h.keeps_ack (hmsgs _ List.mem_cons_self) hg hback
    exact ⟨hkeeps,fun m hm => (hmsgs m (List.mem_cons_of_mem _ hm)).grow (hkeeps.grows _),trivial⟩
  -- the message in hand was delivered, so there is a group
  | @ackedNone frame hn =>
    obtain ⟨_,g,hg,_⟩ := hmsgs _ List.mem_cons_self
    rw [Bus.stream_group_none hn] at hg
    cases hg

def Grown (d : Deployment Consumer Request View Call Reply) (s s' : System Consumer Request Call) : Prop :=
  ∀ o, (d.bus.stream s.redis o).Grows (d.bus.stream s'.redis o) consumerGroup

theorem Accounts.redis (h : Accounts d s) (hk : Keeps d s [] ks) :
    Accounts d { s with redis := ks } ∧ Grown d s { s with redis := ks } := by
  refine ⟨⟨hk.holds,hk.accounted,?_,h.backed,?_,h.earlier⟩,hk.grows⟩
  · exact fun c m hm => (h.delivered c m hm).grow (hk.grows _)
  · exact fun o m hm => (hk.grows o).1 m (h.acked o m hm)

theorem Accounts.noted (h : Accounts d s) {s' : System Consumer Request Call} (hr : s'.redis = s.redis)
    (hc : s'.consumer = s.consumer)
    (ht : s'.trace = s.trace ∨ ∃ e, (∀ x, e ≠ .consumed x) ∧ s'.trace = e::s.trace) :
    Accounts d s' ∧ Grown d s s' := by
  refine ⟨?_,fun o => by rw [hr]; exact stream_grows_refl _ _⟩
  rcases ht with ht | ⟨e,he,ht⟩
  · exact ⟨by rw [hr,ht]; exact h.holds,by rw [hr,ht]; exact h.accounted,by rw [hr,hc]; exact h.delivered,
      by rw [hc,ht]; exact h.backed,by rw [hr,ht]; exact h.acked,by rw [ht]; exact h.earlier⟩
  · have hmono (id : String) (hid : Committed d.bus s.trace id) : Committed d.bus s'.trace id := by
      rw [ht]
      exact hid.mono [e]
    have hids (o : String) : ackedIDs o s'.trace = ackedIDs o s.trace := by
      rw [ht]
      cases e with
      | consumed x => exact absurd rfl (he x)
      | requested | answered => rfl
    constructor
    · rw [hr]
      exact h.holds.mono (fun _ _ h => h) (fun id _ => hmono id)
    · intro o
      rw [hr,hids]
      exact h.accounted o
    · rw [hr,hc]
      exact h.delivered
    · rw [hc]
      exact fun c => (h.backed c).mono hmono
    · intro o m hm
      rw [ht] at hm
      rcases List.mem_cons.mp hm with hm | hm
      · exact absurd hm.symm (he _)
      · rw [hr]
        exact h.acked o m hm
    · rw [ht]
      exact ⟨fun o m hm => absurd hm (he _),h.earlier⟩

theorem accounts_start {ks : Keyspace} (hks : d.bus.Unused ks) (now : Int) :
    Accounts d (start ks now) where
  holds := hks.holds
  accounted o := by
    have hnone : d.bus.stream ks o = .new := by simp [Bus.stream,Keyspace.stream,hks.1 o]
    change Accounted (d.bus.stream ks o) _ _
    rw [hnone]
    exact accounted_new
  delivered _ _ := nofun
  backed _ := trivial
  acked _ _ := nofun
  earlier := trivial

variable [DecidableEq Consumer]

theorem Accounts.move (h : Accounts d s) (c : Consumer) {pc : Pc Call} (hk : Keeps d s events ks)
    (hm : ∀ m ∈ pc.messages, d.bus.Delivered ks (d.ownerID c) m)
    (hb : pc.Backed (Committed d.bus (events.map Event.consumed ++ s.trace))) :
    Accounts d (s.moved c pc events ks) ∧ Grown d s (s.moved c pc events ks) := by
  refine ⟨⟨hk.holds,hk.accounted,?_,?_,?_,hk.earlier⟩,hk.grows⟩
  · intro c' m hm'
    simp only [moved,setConsumer] at hm'
    by_cases hc : c' = c
    · subst hc
      rw [if_pos rfl] at hm'
      exact hm m hm'
    · rw [if_neg hc] at hm'
      exact (h.delivered c' m hm').grow (hk.grows _)
  · intro c'
    simp only [moved,setConsumer]
    by_cases hc : c' = c
    · rw [if_pos hc]
      exact hb
    · rw [if_neg hc]
      exact (h.backed c').mono (fun id hid => hid.mono _)
  · intro o m hm'
    rcases List.mem_append.mp hm' with hm' | hm'
    · obtain ⟨e,he,hm'⟩ := List.mem_map.mp hm'
      injection hm' with hm'
      subst hm'
      exact hk.acked o m he
    · exact (hk.grows o).1 m (h.acked o m hm')

theorem Accounts.consumer (h : Accounts d s) (c : Consumer) {pc : Pc Call}
    (hc : Consumes d.bus d.handler (d.ownerID c) s.now s.redis (s.consumer c) pc events ks) :
    Accounts d (s.moved c pc events ks) ∧ Grown d s (s.moved c pc events ks) := by
  have hmsgs := h.delivered c
  have hback := h.backed c
  have hadvance := fun next events ks => @Accounts.advance _ _ _ _ _ d s events ks h c next
  generalize s.consumer c = pc₀ at hc hmsgs hback hadvance
  have hnone : Keeps d s [] s.redis := h.keeps_redis (.inl rfl)
  cases hc with
  | halted => exact h.move c hnone (List.forall_mem_nil _) trivial
  | stayed => exact h.move c hnone hmsgs hback
  | started => exact h.move c hnone (List.forall_mem_nil _) trivial
  | called ha hpc =>
    obtain ⟨hkeeps,hm,hb⟩ := hadvance _ _ _ ha
    rcases hpc with rfl | rfl | rfl
    · exact h.move c hkeeps hm hb
    · exact h.move c hkeeps (fun m hm => (hmsgs m hm).grow (hkeeps.grows _))
        (hback.mono (fun id hid => hid.mono _))
    · exact h.move c hkeeps (List.forall_mem_nil _) trivial
  | @responded frame command _ _ result _ =>
    exact h.move c (h.keeps_redis (.inr ⟨_,rfl,by simp⟩)) hmsgs ⟨command,hback,.inl (seal_commandID ..)⟩
  | calledOut _ => exact h.move c (h.keeps_redis (.inr ⟨_,rfl,by simp⟩)) hmsgs hback
  | @resumed frame command call reply =>
    exact h.move c (h.keeps_redis (.inr ⟨_,rfl,by simp⟩)) hmsgs ⟨command,hback,.inl (seal_commandID ..)⟩

variable [DecidableEq Request]

theorem Accounts.change {a : Action Consumer Request View Reply} (h : Accounts d s) (ha : a.Untrimmed)
    {s' : System Consumer Request Call} (hc : Change d a s s') : Accounts d s' ∧ Grown d s s' := by
  cases hc with
  | consumer c hc => exact h.consumer c hc
  | appended o fields evict he =>
    subst he
    cases ha
    exact h.redis (h.keeps_stream ((h.accounted o).append _ _) (grows_append _ _ _ _))
  | @published r command evict he hr hv =>
    have hz : evict = 0 := by
      rcases he with ⟨fate,he⟩ | he <;> rw [he] at ha <;> exact ha
    subst hz
    exact h.redis (h.keeps_stream ((h.accounted _).append _ _) (grows_append _ _ _ _))
  | requested r hr hid hcreated hdeadline => exact h.noted rfl rfl (.inr ⟨.requested r _,by simp,rfl⟩)
  | awaiting r hr => exact h.noted rfl rfl (.inl rfl)
  | answered r status hr hok => exact h.noted rfl rfl (.inr ⟨.answered r status,by simp,rfl⟩)
  | polled id =>
    obtain ⟨hholds,hother,_⟩ := Bus.pollResult_spec h.holds s.now id
    have hstream (o : String) : d.bus.stream (d.bus.pollResult id s.now s.redis).2 o =
        d.bus.stream s.redis o := by
      rw [Bus.stream,Bus.stream,Keyspace.stream_congr (hother _ (by simp))]
    refine h.redis ⟨hholds,?_,?_,fun _ _ hm => absurd hm List.not_mem_nil,h.earlier⟩
    · intro o
      rw [hstream]
      exact h.accounted o
    · intro o
      rw [hstream]
      exact stream_grows_refl _ _
  | waited n => exact h.noted rfl rfl (.inl rfl)

/-- Along a run the account is kept and every entry stays. -/
theorem Accounts.run (h : Accounts d s) (actions : List (Action Consumer Request View Reply))
    (hu : ∀ a ∈ actions, a.Untrimmed) :
    Accounts d (s.run d actions) ∧ ∀ o, ∀ e ∈ (d.bus.stream s.redis o).entries,
      e ∈ (d.bus.stream (s.run d actions).redis o).entries := by
  apply run_keeps (P := fun s' => Accounts d s' ∧ ∀ o, ∀ e ∈ (d.bus.stream s.redis o).entries,
    e ∈ (d.bus.stream s'.redis o).entries) _ _ ⟨h,fun _ _ he => he⟩ actions hu
  · exact fun s' h => h.1.holds.mono (fun _ _ h => h) (fun _ _ _ => trivial)
  · intro a s₁ s₂ ha h hc
    obtain ⟨hacc,hgrown⟩ := h.1.change ha hc
    exact ⟨hacc,fun o e he => (hgrown o).1 e (h.2 o e he)⟩

omit [DecidableEq Consumer] [DecidableEq Request] in
theorem Accounts.acked_iff (h : Accounts d s) {e : StreamEntry}
    (he : e ∈ (d.bus.stream s.redis o).entries) :
    e.id ∈ ackedIDs o s.trace ↔ .consumed (.acked o e) ∈ s.trace := by
  constructor
  · intro hid
    obtain ⟨x,hx,hf⟩ := List.mem_filterMap.mp hid
    cases x with
    | consumed x =>
      cases x with
      | acked o' m =>
        simp only [Option.ite_none_right_eq_some,Option.some.injEq] at hf
        obtain ⟨ho,hmid⟩ := hf
        rw [ho] at hx
        have hme := (h.accounted o).eq_of_id (h.acked o m hx) he hmid
        exact hme ▸ hx
      | called | handled | committed => cases hf
    | requested | answered => cases hf
  · intro hx
    exact List.mem_filterMap.mpr ⟨_,hx,by simp⟩

end System

/-- Undelivered, pending or acknowledged, and one of these only. -/
def OneState (v : StreamValue) (o : String) (e : StreamEntry) (trace : List (Event Request Call)) : Prop :=
  v.Undelivered consumerGroup e.id ∧ ¬v.Pending consumerGroup e.id ∧ .consumed (.acked o e) ∉ trace ∨
  ¬v.Undelivered consumerGroup e.id ∧ v.Pending consumerGroup e.id ∧ .consumed (.acked o e) ∉ trace ∨
  ¬v.Undelivered consumerGroup e.id ∧ ¬v.Pending consumerGroup e.id ∧ .consumed (.acked o e) ∈ trace

/-- Over untrimmed streams, whoever appends to them and with calls that fail, are lost or are repeated
anywhere, every entry that is ever in a stream stays there in exactly one of the three states, and one
is acknowledged only after a transaction wrote both records of its command. -/
theorem runConsumer_losesNothing [DecidableEq Consumer] [DecidableEq Request]
    (d : Deployment Consumer Request View Call Reply) {ks : Keyspace} (hks : d.bus.Unused ks) (now : Int)
    (before after : List (Action Consumer Request View Reply))
    (hu : ∀ a ∈ before ++ after, a.Untrimmed) :
    let s := (System.start ks now : System Consumer Request Call).run d before
    let s' := s.run d after
    (∀ o, ∀ e ∈ (d.bus.stream s.redis o).entries, e ∈ (d.bus.stream s'.redis o).entries ∧
      OneState (d.bus.stream s'.redis o) o e s'.trace) ∧
    ∀ later o m earlier, s'.trace = later ++ .consumed (.acked o m)::earlier →
      ∃ command, decodeCommand m.fields = .ok command ∧
        ∃ tr, .consumed (.committed tr) ∈ earlier ∧ tr.result.commandID = command.id ∧
          tr.Wrote d.bus := by
  intro s s'
  have hs : s.Accounts d := by
    refine ((System.accounts_start hks now).run before ?_).1
    exact fun a ha => hu a (List.mem_append_left _ ha)
  obtain ⟨hs',hstay⟩ := hs.run after (fun a ha => hu a (List.mem_append_right _ ha))
  refine ⟨?_,?_⟩
  · intro o e he
    have he' := hstay o e he
    refine ⟨he',?_⟩
    have hone := (hs'.accounted o).oneState he'
    rw [hs'.acked_iff he'] at hone
    exact hone
  · intro later o m earlier ht
    exact History.throughout_iff.mp hs'.earlier later _ earlier ht o m rfl

def singleRuntime : Deployment Unit Unit RuntimeView (Version × ResetCommand) (Except String String) :=
  ⟨⟨"csms",300000000000⟩,fun _ => "runtime-a",fun _ => "4f1e",resetHandler ⟨id,id⟩⟩

def connectedView : RuntimeView :=
  ⟨some ⟨"runtime-a",fun s g => s = "station-1" ∧ g = 3⟩,fun _ => some .ocpp16⟩

def resetRequest : Action Unit Unit RuntimeView (Except String String) :=
  .request () "station-1" ⟨"station-1","runtime-a",3,0⟩ ⟨"OnIdle",none⟩

def answeredCall : Action Unit Unit RuntimeView (Except String String) := .consume () (.redis .answered)

/-- The consumer reads the command, resets the station and commits, but sees no reply to that. -/
def lostCommit : List (Action Unit Unit RuntimeView (Except String String)) :=
  [resetRequest,.publish () .answered 0,.startConsumer (),answeredCall,answeredCall,answeredCall,
    answeredCall,answeredCall,.consume () (.run none connectedView),
    .consume () (.reply (.ok "\x7b\x7d")),.consume () (.redis .unanswered)]

/-- It starts again, gets the entry back from the group and acknowledges it. -/
def redelivery : List (Action Unit Unit RuntimeView (Except String String)) :=
  [.wait 6000000000,.startConsumer (),answeredCall,answeredCall,answeredCall,answeredCall,answeredCall]

def Event.acknowledges : Event Request Call → Bool
  | .consumed (.acked _ _) => true
  | _ => false

/-- A commit whose reply is lost leaves the entry pending, and the redelivery acknowledges it. -/
theorem runConsumer_redelivers :
    let s := (System.start Keyspace.empty 1767225600000000000).run singleRuntime lostCommit
    let s' := s.run singleRuntime redelivery
    (s.trace.any Event.acknowledges = false ∧ s'.trace.any Event.acknowledges = true) ∧
    ∀ o, ∀ e ∈ (singleRuntime.bus.stream s.redis o).entries,
      e ∈ (singleRuntime.bus.stream s'.redis o).entries ∧
        OneState (singleRuntime.bus.stream s'.redis o) o e s'.trace := by
  refine ⟨by decide +kernel,?_⟩
  have hu : ∀ a ∈ lostCommit ++ redelivery, a.Untrimmed := by
    simp [lostCommit,redelivery,resetRequest,answeredCall,Action.Untrimmed]
  exact (runConsumer_losesNothing singleRuntime ⟨fun _ => rfl,fun _ => rfl,fun _ => rfl⟩ _ lostCommit
    redelivery hu).1

end CsmsPlatform
