import CsmsPlatform.CommandBus.Reexecution
import CsmsPlatform.CommandBus.Answer

/-!
# A committed result is final

An entry that is delivered again, or a second entry of the same command, leads to a second call of
`complete`. As long as the record of the first one lasts, the second one writes the same text again: a
consumer finds the record before it would run the handler, and a result that was read back encodes as
it was.
-/

namespace CsmsPlatform

open Redis

variable {Consumer Request View Call Reply : Type}

theorem stamp_of_ne {result : Result} (h : result.completedAt ≠ zeroTime) (now : Int) :
    result.stamp now = result :=
  if_neg h

theorem seal_completedAt (result : Result) (command : Command) {now : Int} (h : zeroTime < now) :
    (result.seal command now).completedAt ≠ zeroTime := by
  unfold Result.seal Result.stamp
  by_cases hz : result.completedAt = zeroTime
  · rw [if_pos hz]
    exact h.ne'
  · rw [if_neg hz]
    exact hz

def Pc.inHand : Pc Call → Option String
  | .handling _ command => some command.id
  | .calling _ command _ => some command.id
  | .finishing _ result => some result.commandID
  | _ => none

/-- A commit repeats every earlier one of its command whose record still lasts. -/
def Repeats (ttl : Int) (e : Event Request Call) (earlier : List (Event Request Call)) : Prop :=
  ∀ tr, e = .consumed (.committed tr) → ∀ tr', .consumed (.committed tr') ∈ earlier →
    tr'.result.commandID = tr.result.commandID → tr.time < tr'.time+ttl →
    ∃ text, encodeResult tr'.result = some text ∧ encodeResult tr.result = some text

/-- What a consumer has in hand agrees with the commits that last: before the handler has answered there
are none, and afterwards they are of the same result. -/
def Pc.Agrees (lasting : Commit → Prop) : Pc Call → Prop
  | .handling _ command => ∀ tr, lasting tr → tr.result.commandID ≠ command.id
  | .calling _ command _ => ∀ tr, lasting tr → tr.result.commandID ≠ command.id
  | .finishing _ result => result.completedAt ≠ zeroTime ∧
    ∀ tr, lasting tr → tr.result.commandID = result.commandID → encodeResult tr.result = encodeResult result
  | _ => True

theorem Pc.Agrees.mono {lasting lasting' : Commit → Prop} {pc : Pc Call} (h : pc.Agrees lasting)
    (hsub : ∀ tr, pc.inHand = some tr.result.commandID → lasting' tr → lasting tr) :
    pc.Agrees lasting' := by
  cases pc with
  | handling frame command =>
    intro tr htr hid
    exact h tr (hsub tr (congrArg some hid.symm) htr) hid
  | calling frame command call =>
    intro tr htr hid
    exact h tr (hsub tr (congrArg some hid.symm) htr) hid
  | finishing frame result =>
    refine ⟨h.1,?_⟩
    intro tr htr hid
    exact h.2 tr (hsub tr (congrArg some hid.symm) htr) hid
  | stopped | creating | loop | reading | batch | acking => trivial

namespace System

def Lasting (bus : Bus) (s : System Consumer Request Call) (tr : Commit) : Prop :=
  .consumed (.committed tr) ∈ s.trace ∧ s.now < tr.time+setTTL bus.resultTTL.toInt

/-- The record is the one text that the lasting commits of a command have written. -/
structure Final (d : Deployment Consumer Request View Call Reply)
    (s : System Consumer Request Call) : Prop where
  genuine : Genuine d s
  now : zeroTime < s.now
  past : ∀ tr, .consumed (.committed tr) ∈ s.trace → tr.time ≤ s.now
  stamped : ∀ tr, .consumed (.committed tr) ∈ s.trace → tr.result.completedAt ≠ zeroTime
  written : ∀ id item, s.redis (d.bus.completionKey id) = some item →
    ∃ text e, item = ⟨.string text,e⟩ ∧ CommittedAs s.trace id text
  record : ∀ tr, s.Lasting d.bus tr → ∃ text e, encodeResult tr.result = some text ∧
    s.redis (d.bus.completionKey tr.result.commandID) = some ⟨.string text,some e⟩ ∧
    tr.time+setTTL d.bus.resultTTL.toInt ≤ e
  agrees : ∀ c, (s.consumer c).Agrees (s.Lasting d.bus)
  repeats : History.Throughout (Repeats (setTTL d.bus.resultTTL.toInt)) s.trace

variable {d : Deployment Consumer Request View Call Reply} {s s' : System Consumer Request Call}

theorem Genuine.inHand (h : Genuine d s) {c : Consumer} {id : String}
    (hid : (s.consumer c).inHand = some id) :
    ∃ r x, .requested r x ∈ s.trace ∧ x.ownerID = d.ownerID c ∧ x.id = id := by
  have hsent {frame : Frame} {command : Command} (hm : frame.message ∈ (s.consumer c).messages)
      (hd : decodeCommand frame.message.fields = .ok command) :
      ∃ r x, .requested r x ∈ s.trace ∧ x.ownerID = d.ownerID c ∧ x.id = command.id := by
    obtain ⟨r,x,hr,ho,hf⟩ := h.messages c frame.message hm
    rw [hf] at hd
    exact ⟨r,x,hr,ho,by rw [decodeCommand_fields_ok hd]⟩
  have hwork := h.working c
  cases hc : s.consumer c with
  | stopped | creating | loop | reading | batch | acking =>
    rw [hc] at hid
    cases hid
  | handling frame command =>
    rw [hc] at hid hwork
    cases hid
    exact hsent (by rw [hc]; exact List.mem_cons_self) hwork
  | calling frame command call =>
    rw [hc] at hid hwork
    cases hid
    exact hsent (by rw [hc]; exact List.mem_cons_self) hwork
  | finishing frame result =>
    rw [hc] at hid hwork
    cases hid
    obtain ⟨command,hd,hown⟩ := hwork
    rw [hown.commandID]
    exact hsent (by rw [hc]; exact List.mem_cons_self) hd

/-- With one consumer for an owner, no two consumers have the same ID in hand. -/
theorem Genuine.alone (h : Genuine d s) (howner : Function.Injective d.ownerID)
    (hinj : Function.Injective d.commandID) {c c' : Consumer} {id : String}
    (hc : (s.consumer c).inHand = some id) (hc' : (s.consumer c').inHand = some id) : c = c' := by
  obtain ⟨r,x,hr,ho,hx⟩ := h.inHand hc
  obtain ⟨r',x',hr',ho',hx'⟩ := h.inHand hc'
  have hsame := h.unique hinj hr hr' (hx.trans hx'.symm)
  subst hsame
  exact howner (ho.symm.trans ho')

theorem Final.not_lasting (h : Final d s) {id : String}
    (hl : s.redis.live s.now (d.bus.completionKey id) = none) {tr : Commit}
    (htr : s.Lasting d.bus tr) : tr.result.commandID ≠ id := by
  rintro rfl
  obtain ⟨text,e,_,hk,he⟩ := h.record tr htr
  have hlive : s.redis.live s.now (d.bus.completionKey tr.result.commandID) = some ⟨.string text,some e⟩ := by
    apply Keyspace.live_eq_some.mpr
    exact ⟨hk,decide_eq_true (htr.2.trans_le he)⟩
  rw [hl] at hlive
  cases hlive

theorem Final.found (h : Final d s) {id content : String} {e : Option Int} {result : Result}
    (hk : s.redis (d.bus.completionKey id) = some ⟨.string content,e⟩)
    (hr : decodeResult content = some result) :
    result.completedAt ≠ zeroTime ∧ ∀ tr, s.Lasting d.bus tr → tr.result.commandID = result.commandID →
      encodeResult tr.result = encodeResult result := by
  obtain ⟨text,e',hitem,tr,htr,hid,henc⟩ := h.written id _ hk
  cases hitem
  obtain ⟨hdecode,hagain⟩ := encodeResult_stored henc
  rw [hr] at hdecode
  injection hdecode with hdecode
  subst hdecode
  refine ⟨h.stamped tr htr,?_⟩
  intro tr' hlast hid'
  have hkey : tr'.result.commandID = id := hid'.trans hid
  obtain ⟨text',e'',henc',hk',_⟩ := h.record tr' hlast
  rw [hkey,hk] at hk'
  injection hk' with hk'
  injection hk' with htext he
  injection htext with htext
  rw [henc',hagain,htext]

theorem Final.advance (h : Final d s) {o : String} {pc next : Pc Call} {events : List (ConsumerEvent Call)}
    {ks : Keyspace} (ha : Advances d.bus o s.now s.redis pc next events ks)
    (hpc : pc.Agrees (s.Lasting d.bus)) : next.Agrees (s.Lasting d.bus) := by
  cases ha with
  | idle => exact hpc
  | found hd hk hr => exact h.found hk hr
  | missing hd hl => exact fun _ htr => h.not_lasting hl htr
  | finished origin => cases origin <;> trivial
  | joined | created | skipped | recovered | waited | read | committed | acked | ackedNone => trivial

theorem repeats_consumed {ttl : Int} {trace : List (Event Request Call)}
    {events : List (ConsumerEvent Call)} (h : History.Throughout (Repeats ttl) trace)
    (he : ∀ tr, .committed tr ∉ events) :
    History.Throughout (Repeats ttl) (events.map .consumed ++ trace) := by
  induction events with
  | nil => exact h
  | cons e events ih =>
    refine ⟨?_,ih (fun tr hm => he tr (List.mem_cons_of_mem _ hm))⟩
    intro tr hc
    injection hc with hc
    exact absurd (hc ▸ List.mem_cons_self) (he tr)

theorem Final.keep (h : Final d s) (hg : Genuine d s') (hnow : s.now ≤ s'.now)
    (hkeys : ∀ id, s'.redis (d.bus.completionKey id) = s.redis (d.bus.completionKey id))
    (hcommits : ∀ tr, .consumed (.committed tr) ∈ s'.trace ↔ .consumed (.committed tr) ∈ s.trace)
    (hagrees : ∀ c, (s'.consumer c).Agrees (s.Lasting d.bus))
    (hrepeats : History.Throughout (Repeats (setTTL d.bus.resultTTL.toInt)) s'.trace) : Final d s' := by
  have hlasting (tr : Commit) (htr : s'.Lasting d.bus tr) : s.Lasting d.bus tr :=
    ⟨(hcommits tr).mp htr.1,hnow.trans_lt htr.2⟩
  refine ⟨hg,h.now.trans_le hnow,?_,?_,?_,?_,?_,hrepeats⟩
  · intro tr htr
    exact (h.past tr ((hcommits tr).mp htr)).trans hnow
  · intro tr htr
    exact h.stamped tr ((hcommits tr).mp htr)
  · intro id item hitem
    rw [hkeys] at hitem
    obtain ⟨text,e,he,tr,htr,hrest⟩ := h.written id item hitem
    exact ⟨text,e,he,tr,(hcommits tr).mpr htr,hrest⟩
  · intro tr htr
    rw [hkeys]
    exact h.record tr (hlasting tr htr)
  · intro c
    exact (hagrees c).mono fun tr _ htr => hlasting tr htr

section Consumers

variable [DecidableEq Consumer] {c : Consumer} {pc : Pc Call} {events : List (ConsumerEvent Call)}
  {ks : Keyspace}

theorem Final.move (h : Final d s) (hg : Genuine d (s.moved c pc events ks))
    (hkeys : ∀ id, ks (d.bus.completionKey id) = s.redis (d.bus.completionKey id))
    (hcommit : ∀ tr, .committed tr ∉ events) (hpc : pc.Agrees (s.Lasting d.bus)) :
    Final d (s.moved c pc events ks) := by
  refine h.keep hg le_rfl hkeys ?_ ?_ (repeats_consumed h.repeats hcommit)
  · intro tr
    simp [moved,hcommit]
  · intro c'
    simp only [moved,setConsumer]
    by_cases hcc : c' = c
    · rw [if_pos hcc]
      exact hpc
    · rw [if_neg hcc]
      exact h.agrees c'

/-- A commit writes what the lasting commits of its command have written. -/
theorem Final.commit (h : Final d s) (howner : Function.Injective d.ownerID)
    (hinj : Function.Injective d.commandID) {frame : Frame} {result : Result} {content : String}
    (hc : s.consumer c = .finishing frame result) (henc : encodeResult result = some content)
    (hpc : pc = .acking frame ∨ pc = .finishing frame result ∨ pc = .stopped)
    (hg : Genuine d (s.moved c pc [.committed ⟨result,s.now,s.redis,
      d.bus.written s.redis s.now result.commandID content⟩]
      (d.bus.written s.redis s.now result.commandID content))) :
    Final d (s.moved c pc [.committed ⟨result,s.now,s.redis,
      d.bus.written s.redis s.now result.commandID content⟩]
      (d.bus.written s.redis s.now result.commandID content)) := by
  have hagrees := h.agrees c
  rw [hc] at hagrees
  obtain ⟨hstamped,hsame⟩ := hagrees
  have hhand : (s.consumer c).inHand = some result.commandID := by
    rw [hc]
    rfl
  have hset : (d.bus.written s.redis s.now result.commandID content)
      (d.bus.completionKey result.commandID) =
      some ⟨.string content,some (s.now+setTTL d.bus.resultTTL.toInt)⟩ := by
    simp [Bus.written,Keyspace.set]
  have hother {id : String} (hid : id ≠ result.commandID) :
      (d.bus.written s.redis s.now result.commandID content) (d.bus.completionKey id) =
        s.redis (d.bus.completionKey id) := by
    simp [Bus.written,Keyspace.set,hid]
  have hsub : s.trace ⊆ (s.moved c pc [.committed ⟨result,s.now,s.redis,
      d.bus.written s.redis s.now result.commandID content⟩]
      (d.bus.written s.redis s.now result.commandID content)).trace := List.subset_cons_self _ _
  refine ⟨hg,h.now,?_,?_,?_,?_,?_,?_,h.repeats⟩
  · intro tr htr
    rcases List.mem_cons.mp htr with htr | htr
    · cases htr
      exact le_rfl
    · exact h.past tr htr
  · intro tr htr
    rcases List.mem_cons.mp htr with htr | htr
    · cases htr
      exact hstamped
    · exact h.stamped tr htr
  · intro id item hitem
    by_cases hid : id = result.commandID
    · subst hid
      change (d.bus.written s.redis s.now result.commandID content)
        (d.bus.completionKey result.commandID) = some item at hitem
      rw [hset] at hitem
      cases hitem
      exact ⟨content,_,rfl,_,List.mem_cons_self,rfl,henc⟩
    · change (d.bus.written s.redis s.now result.commandID content) (d.bus.completionKey id) =
        some item at hitem
      rw [hother hid] at hitem
      obtain ⟨text,e,he,hcommitted⟩ := h.written id item hitem
      exact ⟨text,e,he,hcommitted.mono hsub⟩
  · rintro tr ⟨htr,hlast⟩
    rcases List.mem_cons.mp htr with htr | htr
    · cases htr
      exact ⟨content,_,henc,hset,le_rfl⟩
    · by_cases hid : tr.result.commandID = result.commandID
      · refine ⟨content,s.now+setTTL d.bus.resultTTL.toInt,?_,?_,?_⟩
        · rw [hsame tr ⟨htr,hlast⟩ hid,henc]
        · rw [hid]
          exact hset
        · have := h.past tr htr
          omega
      · obtain ⟨text,e,hrest⟩ := h.record tr ⟨htr,hlast⟩
        refine ⟨text,e,?_⟩
        change _ ∧ (d.bus.written s.redis s.now result.commandID content)
          (d.bus.completionKey tr.result.commandID) = _ ∧ _
        rw [hother hid]
        exact hrest
  · intro c'
    simp only [moved,setConsumer]
    by_cases hcc : c' = c
    · rw [if_pos hcc]
      rcases hpc with rfl | rfl | rfl
      · trivial
      · refine ⟨hstamped,?_⟩
        rintro tr ⟨htr,hlast⟩ hid
        rcases List.mem_cons.mp htr with htr | htr
        · cases htr
          rfl
        · exact hsame tr ⟨htr,hlast⟩ hid
      · trivial
    · rw [if_neg hcc]
      refine (h.agrees c').mono ?_
      rintro tr hhand' ⟨htr,hlast⟩
      rcases List.mem_cons.mp htr with htr | htr
      · -- the new commit is of the command that `c` has in hand
        cases htr
        exact absurd (h.genuine.alone howner hinj hhand' hhand) hcc
      · exact ⟨htr,hlast⟩
  · intro tr he tr' htr' hid hlast
    cases he
    exact ⟨content,(hsame tr' ⟨htr',hlast⟩ hid).trans henc,henc⟩

theorem Final.consumer (h : Final d s) (howner : Function.Injective d.ownerID)
    (hinj : Function.Injective d.commandID)
    (hc : Consumes d.bus d.handler (d.ownerID c) s.now s.redis (s.consumer c) pc events ks) :
    Final d (s.moved c pc events ks) := by
  have hg := h.genuine.consumer c hc
  have hagrees := h.agrees c
  generalize hpc₀ : s.consumer c = pc₀ at hc hagrees
  cases hc with
  | halted | started => exact h.move hg (fun _ => rfl) (fun _ => List.not_mem_nil) trivial
  | stayed => exact h.move hg (fun _ => rfl) (fun _ => List.not_mem_nil) hagrees
  | called ha hpc =>
    rcases ha.quiet with ⟨frame,result,content,rfl,henc,rfl,rfl,rfl⟩ | ⟨hkeys,hcommit,_⟩
    · rw [stamp_of_ne hagrees.1] at henc hg ⊢
      exact h.commit howner hinj hpc₀ henc hpc hg
    · apply h.move hg hkeys hcommit
      rcases hpc with rfl | rfl | rfl
      · exact h.advance ha hagrees
      · exact hagrees
      · trivial
  | @responded frame command _ _ result _ =>
    apply h.move hg (fun _ => rfl) (by simp)
    refine ⟨seal_completedAt result command h.now,?_⟩
    intro tr htr hid
    exact absurd (hid.trans (seal_commandID result command s.now)) (hagrees tr htr)
  | calledOut => exact h.move hg (fun _ => rfl) (by simp) hagrees
  | @resumed frame command call reply =>
    apply h.move hg (fun _ => rfl) (by simp)
    refine ⟨seal_completedAt (d.handler.resume call reply) command h.now,?_⟩
    intro tr htr hid
    exact absurd (hid.trans (seal_commandID _ command s.now)) (hagrees tr htr)

end Consumers

theorem Final.noted (h : Final d s) (hg : Genuine d s') (hc : s'.consumer = s.consumer)
    (hnow : s.now ≤ s'.now)
    (hkeys : ∀ id, s'.redis (d.bus.completionKey id) = s.redis (d.bus.completionKey id))
    (ht : s'.trace = s.trace ∨ ∃ e, (∀ x, e ≠ .consumed x) ∧ s'.trace = e::s.trace) : Final d s' := by
  refine h.keep hg hnow hkeys ?_ ?_ ?_
  · intro tr
    rcases ht with ht | ⟨e,he,ht⟩
    · rw [ht]
    · rw [ht,List.mem_cons]
      exact ⟨fun hm => hm.resolve_left fun heq => he _ heq.symm,.inr⟩
  · intro c
    rw [hc]
    exact h.agrees c
  · rcases ht with ht | ⟨e,he,ht⟩
    · rw [ht]
      exact h.repeats
    · rw [ht]
      exact ⟨fun tr hx => absurd hx (he _),h.repeats⟩

variable [DecidableEq Consumer] [DecidableEq Request]

theorem Final.change {a : Action Consumer Request View Reply} (h : Final d s)
    (howner : Function.Injective d.ownerID) (hinj : Function.Injective d.commandID)
    (ha : a.Published) (hc : Change d a s s') : Final d s' := by
  have hg := h.genuine.change hinj ha hc
  cases hc with
  | consumer c hc => exact h.consumer howner hinj hc
  | appended o fields evict he =>
    subst he
    cases ha
  | published r evict he hr hv =>
    exact h.noted hg rfl le_rfl (fun id => putStream_completion _ _ _ _) (.inl rfl)
  | @requested r command hr hid hcreated hdeadline =>
    exact h.noted hg rfl le_rfl (fun _ => rfl) (.inr ⟨.requested r command,nofun,rfl⟩)
  | awaiting r hr => exact h.noted hg rfl le_rfl (fun _ => rfl) (.inl rfl)
  | answered r status hr hok =>
    exact h.noted hg rfl le_rfl (fun _ => rfl) (.inr ⟨.answered r status,nofun,rfl⟩)
  | polled id =>
    have hother := (Bus.pollResult_spec h.genuine.holds s.now id).2.1
    exact h.noted hg rfl le_rfl (fun _ => hother _ (by simp)) (.inl rfl)
  | waited n =>
    exact h.noted hg rfl (Int.le_add_of_nonneg_right (Int.natCast_nonneg n)) (fun _ => rfl) (.inl rfl)

omit [DecidableEq Consumer] [DecidableEq Request] in
theorem final_start {ks : Keyspace} (hks : d.bus.Unused ks) {now : Int} (hnow : zeroTime < now) :
    Final d (start ks now) where
  genuine := genuine_start hks now
  now := hnow
  past _ := nofun
  stamped _ := nofun
  written id item hitem := by
    change ks (d.bus.completionKey id) = some item at hitem
    rw [hks.2.2 id] at hitem
    cases hitem
  record _ htr := nomatch htr.1
  agrees _ := trivial
  repeats := trivial

theorem Final.run (h : Final d s) (howner : Function.Injective d.ownerID)
    (hinj : Function.Injective d.commandID) (actions : List (Action Consumer Request View Reply))
    (hp : ∀ a ∈ actions, a.Published) : Final d (s.run d actions) :=
  run_keeps (fun _ h => h.genuine.holds.mono (fun _ _ _ => trivial) (fun _ _ _ => trivial))
    (fun _ _ _ ha h hc => h.change howner hinj ha hc) h actions hp

end System

/-- With one consumer for each owner and distinct command IDs, the completion record of a command reads
as each of its commits within the TTL, and a commit within the TTL of an earlier one has written the same
text again. -/
theorem complete_final [DecidableEq Consumer] [DecidableEq Request]
    (d : Deployment Consumer Request View Call Reply) (howner : Function.Injective d.ownerID)
    (hinj : Function.Injective d.commandID) {ks : Keyspace} (hks : d.bus.Unused ks) {now : Int}
    (hnow : zeroTime < now) (actions : List (Action Consumer Request View Reply))
    (hp : ∀ a ∈ actions, a.Published) :
    let s := (System.start ks now : System Consumer Request Call).run d actions
    (∀ tr, .consumed (.committed tr) ∈ s.trace → s.now < tr.time+setTTL d.bus.resultTTL.toInt →
      ∃ text e, encodeResult tr.result = some text ∧
        s.redis.live s.now (d.bus.completionKey tr.result.commandID) = some ⟨.string text,e⟩) ∧
    ∀ later tr earlier, s.trace = later ++ .consumed (.committed tr)::earlier →
      ∀ tr', .consumed (.committed tr') ∈ earlier → tr'.result.commandID = tr.result.commandID →
        tr.time < tr'.time+setTTL d.bus.resultTTL.toInt →
        ∃ text, encodeResult tr'.result = some text ∧ encodeResult tr.result = some text := by
  intro s
  have hs : s.Final d := (System.final_start hks hnow).run howner hinj actions hp
  refine ⟨?_,?_⟩
  · intro tr htr hlast
    obtain ⟨text,e,henc,hk,he⟩ := hs.record tr ⟨htr,hlast⟩
    refine ⟨text,some e,henc,?_⟩
    apply Keyspace.live_eq_some.mpr
    exact ⟨hk,decide_eq_true (hlast.trans_le he)⟩
  · intro later tr earlier ht
    exact History.throughout_iff.mp hs.repeats later _ earlier ht tr rfl

/-- The redelivery of an entry whose commit had lost its reply commits again. -/
theorem complete_final_redelivery :
    let s := (System.start Keyspace.empty 1767225600000000000).run singleRuntime (lostCommit ++ redelivery)
    s.trace.filterMap Event.committedID = ["4f1e","4f1e"] ∧
    ∀ later tr earlier, s.trace = later ++ .consumed (.committed tr)::earlier →
      ∀ tr', .consumed (.committed tr') ∈ earlier → tr'.result.commandID = tr.result.commandID →
        tr.time < tr'.time+setTTL singleRuntime.bus.resultTTL.toInt →
        ∃ text, encodeResult tr'.result = some text ∧ encodeResult tr.result = some text := by
  refine ⟨by decide +kernel,?_⟩
  have hp : ∀ a ∈ lostCommit ++ redelivery, a.Published := by
    simp [lostCommit,redelivery,resetRequest,answeredCall,Action.Published]
  exact (complete_final singleRuntime (fun _ _ _ => rfl) (fun _ _ _ => rfl)
    ⟨fun _ => rfl,fun _ => rfl,fun _ => rfl⟩ (by decide) (lostCommit ++ redelivery) hp).2

end CsmsPlatform
