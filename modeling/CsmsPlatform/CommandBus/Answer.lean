import CsmsPlatform.CommandBus.Delivery

/-!
# A committed result reaches the request that waits for it

`complete` puts the result into a list that only the request of the command takes from, and the list
outlasts the request. So a request that is still waiting after a commit is answered by its next poll,
unless an earlier poll of its own took the result and was repeated by the client.
-/

namespace CsmsPlatform

open Redis

variable {Consumer Request View Call Reply : Type}

/-- The content encodes a result that was committed under the ID. -/
def CommittedAs (trace : List (Event Request Call)) (id content : String) : Prop :=
  ∃ tr, .consumed (.committed tr) ∈ trace ∧ tr.result.commandID = id ∧ encodeResult tr.result = some content

/-- The result of the commit is in its command's list, which lasts at least as long as the commit gave
it. -/
def Commit.Listed (bus : Bus) (ks : Keyspace) (tr : Commit) : Prop :=
  ∃ content xs e, encodeResult tr.result = some content ∧
    ks (bus.resultKey tr.result.commandID) = some ⟨.list xs,some e⟩ ∧ content ∈ xs ∧
    tr.time+expireTTL bus.resultTTL.toInt ≤ e

def RequestPc.isDone : RequestPc → Bool
  | .done _ _ => true
  | _ => false

section Calls

variable {bus : Bus} {ks ks' : Keyspace} {now : Int} {id : String}

theorem putStream_result (ks : Keyspace) (o id : String) (v : StreamValue) :
    (ks.putStream (bus.commandStream o) v) (bus.resultKey id) = ks (bus.resultKey id) :=
  Keyspace.set_ne _ _ (by simp)

theorem Advances.unlisted {o : String} {pc next : Pc Call} {events : List (ConsumerEvent Call)}
    (ha : Advances bus o now ks pc next events ks') :
    (∃ (result : Result) (content : String), encodeResult (result.stamp now) = some content ∧
      events = [.committed ⟨result.stamp now,now,ks,bus.written ks now result.commandID content⟩] ∧
      ks' = bus.written ks now result.commandID content) ∨
    (∀ tr, .committed tr ∉ events) ∧ (ks' = ks ∨ ∃ v, ks' = ks.putStream (bus.commandStream o) v) := by
  have hnil : ∀ tr, ConsumerEvent.committed tr ∉ ([] : List (ConsumerEvent Call)) :=
    fun _ => List.not_mem_nil
  cases ha with
  | committed henc => exact .inl ⟨_,_,henc,rfl,rfl⟩
  | created | recovered | read => exact .inr ⟨hnil,.inr ⟨_,rfl⟩⟩
  | idle | joined | skipped | waited | finished | found | missing => exact .inr ⟨hnil,.inl rfl⟩
  | acked hv hg => exact .inr ⟨by simp,.inr ⟨_,rfl⟩⟩
  | ackedNone hn => exact .inr ⟨by simp,.inl rfl⟩

theorem pollResult_none (h : (bus.pollResult id now ks).1 = .ok none) :
    (bus.pollResult id now ks).2 = ks := by
  unfold Bus.pollResult at h ⊢
  by_cases hid : id = ""
  · rw [if_pos hid]
  · rw [if_neg hid] at h ⊢
    simp only [wrapFault,rpop] at h ⊢
    cases hl : ks.live now (bus.resultKey id) with
    | none => rfl
    | some item =>
      rw [hl] at h
      obtain ⟨value,e⟩ := item
      cases value with
      | list xs =>
        dsimp only at h ⊢
        cases hx : xs.getLast? with
        | none => rfl
        | some x =>
          rw [hx] at h
          dsimp only at h
          by_cases hd : xs.dropLast = []
          · rw [if_pos hd] at h
            cases hr : decodeResult x <;> simp [hr] at h
          · rw [if_neg hd] at h
            cases hr : decodeResult x <;> simp [hr] at h
      | string text => rfl
      | hash f => rfl
      | stream v => rfl

theorem pollResult_some (hid : id ≠ "") {xs : List String} {e : Option Int}
    (hl : ks.live now (bus.resultKey id) = some ⟨.list xs,e⟩) (hx : xs ≠ [])
    (hdecode : ∀ x ∈ xs, ∃ result, decodeResult x = some result) :
    ∃ x ∈ xs, ∃ result, decodeResult x = some result ∧
      (bus.pollResult id now ks).1 = .ok (some result) := by
  have hlast := List.getLast_mem hx
  obtain ⟨result,hr⟩ := hdecode _ hlast
  refine ⟨_,hlast,result,hr,?_⟩
  simp only [Bus.pollResult,if_neg hid,wrapFault,rpop,hl,List.getLast?_eq_some_getLast hx]
  by_cases hd : xs.dropLast = []
  · simp only [if_pos hd,hr]
  · simp only [if_neg hd,hr]

theorem Commit.Listed.written {tr : Commit} (h : tr.Listed bus ks) (hpast : tr.time ≤ now)
    (hlasts : now < tr.time+expireTTL bus.resultTTL.toInt) (content : String) :
    tr.Listed bus (bus.written ks now id content) := by
  obtain ⟨text,xs,e,henc,hk,hm,he⟩ := h
  by_cases hid : tr.result.commandID = id
  · have hlive : ks.live now (bus.resultKey id) = some ⟨.list xs,some e⟩ := by
      rw [← hid]
      apply Keyspace.live_eq_some.mpr
      exact ⟨hk,decide_eq_true (by omega)⟩
    refine ⟨text,content::xs,now+expireTTL bus.resultTTL.toInt,henc,?_,List.mem_cons_of_mem _ hm,?_⟩
    · rw [hid]
      simp [Bus.written,Keyspace.set,Bus.elements,hlive]
    · omega
  · refine ⟨text,xs,e,henc,?_,hm,he⟩
    rw [Bus.written,Keyspace.set_ne _ _ (by simpa using hid),Keyspace.set_ne _ _ (by simp)]
    exact hk

theorem CommittedAs.mono {trace trace' : List (Event Request Call)} {content : String}
    (h : CommittedAs trace id content) (hsub : trace ⊆ trace') : CommittedAs trace' id content := by
  obtain ⟨tr,htr,hrest⟩ := h
  exact ⟨tr,hsub htr,hrest⟩

end Calls

namespace System

/-- What the bus owes a request: as long as the request has no answer, every commit under its ID that
has not run out is in its list. -/
structure Owes (d : Deployment Consumer Request View Call Reply) (r : Request)
    (s : System Consumer Request Call) : Prop where
  holds : d.bus.Holds (fun _ _ => True) (CommittedAs s.trace) s.redis
  named : ∀ r' c, (s.request r').command = some c → c.id = d.commandID r'
  past : ∀ tr, .consumed (.committed tr) ∈ s.trace → tr.time ≤ s.now
  listed : (s.request r).isDone = false → ∀ tr, .consumed (.committed tr) ∈ s.trace →
    tr.result.commandID = d.commandID r → s.now < tr.time+expireTTL d.bus.resultTTL.toInt →
    tr.Listed d.bus s.redis

variable {d : Deployment Consumer Request View Call Reply} {r : Request} {s s' : System Consumer Request Call}

theorem owes_start {ks : Keyspace} (hks : d.bus.Unused ks) (now : Int) : Owes d r (start ks now) where
  holds := hks.holds
  named _ _ := nofun
  past _ := nofun
  listed _ _ := nofun

theorem Owes.keep (h : Owes d r s)
    (hholds : d.bus.Holds (fun _ _ => True) (CommittedAs s.trace) s'.redis)
    (hnamed : ∀ r' c, (s'.request r').command = some c → c.id = d.commandID r') (hnow : s.now ≤ s'.now)
    (htrace : s.trace ⊆ s'.trace)
    (hcommits : ∀ tr, .consumed (.committed tr) ∈ s'.trace → .consumed (.committed tr) ∈ s.trace)
    (hlist : (s'.request r).isDone = false → (s.request r).isDone = false ∧
      s'.redis (d.bus.resultKey (d.commandID r)) = s.redis (d.bus.resultKey (d.commandID r))) :
    Owes d r s' where
  holds := hholds.mono (fun _ _ h => h) (fun _ _ hr => hr.mono htrace)
  named := hnamed
  past tr htr := (h.past tr (hcommits tr htr)).trans hnow
  listed hdone tr htr hid hlasts := by
    obtain ⟨hopen,hkey⟩ := hlist hdone
    obtain ⟨content,xs,e,henc,hk,hm,he⟩ := h.listed hopen tr (hcommits tr htr) hid (by omega)
    refine ⟨content,xs,e,henc,?_,hm,he⟩
    rw [hid] at hk ⊢
    exact hkey.trans hk

section Consumers

variable [DecidableEq Consumer]

theorem Owes.consumer (h : Owes d r s) (c : Consumer) {pc : Pc Call} {events : List (ConsumerEvent Call)}
    {ks : Keyspace} (hc : Consumes d.bus d.handler (d.ownerID c) s.now s.redis (s.consumer c) pc events ks) :
    Owes d r (s.moved c pc events ks) := by
  have hsub : s.trace ⊆ events.map Event.consumed ++ s.trace := List.subset_append_right _ _
  -- a step without a commit
  have hquiet (hnone : ∀ tr, .committed tr ∉ events)
      (hks : ks = s.redis ∨ ∃ v, ks = s.redis.putStream (d.bus.commandStream (d.ownerID c)) v) :
      Owes d r (s.moved c pc events ks) := by
    have hcommits (tr : Commit) (htr : .consumed (.committed tr) ∈ events.map Event.consumed ++ s.trace) :
        .consumed (.committed tr) ∈ s.trace := by
      simpa [hnone] using htr
    rcases hks with rfl | ⟨v,rfl⟩
    · exact h.keep h.holds h.named le_rfl hsub hcommits fun hdone => ⟨hdone,rfl⟩
    · have hholds : d.bus.Holds (fun _ _ => True) (CommittedAs s.trace)
          (s.redis.putStream (d.bus.commandStream (d.ownerID c)) v) :=
        Bus.Holds.putStream h.holds trivial fun _ _ _ h => h
      exact h.keep hholds h.named le_rfl hsub hcommits fun hdone => ⟨hdone,putStream_result _ _ _ _⟩
  generalize s.consumer c = pc₀ at hc
  cases hc with
  | halted | stayed | started => exact hquiet (fun _ => List.not_mem_nil) (.inl rfl)
  | responded | calledOut | resumed => exact hquiet (by simp) (.inl rfl)
  | called ha hpc =>
    rcases ha.unlisted with ⟨result,content,henc,rfl,rfl⟩ | ⟨hnone,hks⟩
    · -- the commit is in the list that it has just written, and the others stay
      have hself : CommittedAs (.consumed (.committed ⟨result.stamp s.now,s.now,s.redis,
          d.bus.written s.redis s.now result.commandID content⟩)::s.trace) result.commandID content :=
        ⟨_,List.mem_cons_self,stamp_commandID _ _,henc⟩
      exact {
        holds := Bus.Holds.written h.holds (fun _ _ h => h) (fun _ _ hr => hr.mono hsub) s.now hself
        named := h.named
        past := fun tr htr => by
          rcases List.mem_cons.mp htr with htr | htr
          · cases htr
            exact le_rfl
          · exact h.past tr htr
        listed := fun hdone tr htr hid hlasts => by
          rcases List.mem_cons.mp htr with htr | htr
          · cases htr
            refine ⟨content,content::d.bus.elements s.redis s.now result.commandID,_,henc,?_,
              List.mem_cons_self,le_rfl⟩
            simp [moved,Bus.written,Keyspace.set]
          · exact (h.listed hdone tr htr hid hlasts).written (h.past tr htr) hlasts content }
    · exact hquiet hnone hks

end Consumers

variable [DecidableEq Request]

theorem isDone_setRequest {pc : RequestPc} {r' : Request} (hpc : pc.isDone = false → (s.request r').isDone = false)
    (hdone : ((s.setRequest r' pc).request r).isDone = false) : (s.request r).isDone = false := by
  simp only [setRequest] at hdone
  by_cases he : r = r'
  · rw [if_pos he] at hdone
    rw [he]
    exact hpc hdone
  · rwa [if_neg he] at hdone

theorem named_setRequest (h : Owes d r s) {pc : RequestPc} {r' : Request}
    (hpc : ∀ c, pc.command = some c → c.id = d.commandID r') (x : Request) (c : Command)
    (hx : ((s.setRequest r' pc).request x).command = some c) : c.id = d.commandID x := by
  simp only [setRequest] at hx
  by_cases he : x = r'
  · rw [if_pos he] at hx
    rw [he]
    exact hpc c hx
  · rw [if_neg he] at hx
    exact h.named x c hx

def Unlisted (d : Deployment Consumer Request View Call Reply) (s : System Consumer Request Call)
    (ks : Keyspace) : Prop :=
  ks = s.redis ∨ ∃ o v, ks = s.redis.putStream (d.bus.commandStream o) v

omit [DecidableEq Request] in
theorem Owes.unlisted (h : Owes d r s) {ks : Keyspace} (hks : s.Unlisted d ks) :
    d.bus.Holds (fun _ _ => True) (CommittedAs s.trace) ks ∧
      ks (d.bus.resultKey (d.commandID r)) = s.redis (d.bus.resultKey (d.commandID r)) := by
  rcases hks with rfl | ⟨o,v,rfl⟩
  · exact ⟨h.holds,rfl⟩
  · exact ⟨Bus.Holds.putStream h.holds trivial fun _ _ _ h => h,putStream_result _ _ _ _⟩

theorem Owes.requested (h : Owes d r s) {ks : Keyspace} (hks : s.Unlisted d ks) {r' : Request}
    {pc : RequestPc} (hpc : ∀ c, pc.command = some c → c.id = d.commandID r')
    (hopen : pc.isDone = false → (s.request r').isDone = false) {trace : List (Event Request Call)}
    (htrace : trace = s.trace ∨ ∃ e, (∀ x, e ≠ .consumed x) ∧ trace = e::s.trace) :
    Owes d r { s.setRequest r' pc with redis := ks, trace := trace } := by
  obtain ⟨hholds,hkey⟩ := h.unlisted hks
  have hsub : s.trace ⊆ trace := by
    rcases htrace with rfl | ⟨e,_,rfl⟩
    · exact List.Subset.refl _
    · exact List.subset_cons_self _ _
  have hcommits (tr : Commit) (htr : .consumed (.committed tr) ∈ trace) :
      .consumed (.committed tr) ∈ s.trace := by
    rcases htrace with rfl | ⟨e,he,rfl⟩
    · exact htr
    · rcases List.mem_cons.mp htr with htr | htr
      · exact absurd htr.symm (he _)
      · exact htr
  exact h.keep hholds (named_setRequest h hpc) le_rfl hsub hcommits
    fun hdone => ⟨isDone_setRequest hopen hdone,hkey⟩

theorem Owes.answer (h : Owes d r s) {ks : Keyspace} (hks : s.Unlisted d ks) {r' : Request}
    {command : Command} (hr : (s.request r').command = some command) (status : Nat) :
    Owes d r { s.answer r' command status with redis := ks } := by
  apply h.requested hks
  · intro c hc
    cases hc
    exact h.named r' command hr
  · nofun
  · exact .inr ⟨_,fun _ he => (by cases he),rfl⟩

omit [DecidableEq Request] in
theorem Owes.redis (h : Owes d r s) {ks : Keyspace} (hks : s.Unlisted d ks) :
    Owes d r { s with redis := ks } := by
  obtain ⟨hholds,hkey⟩ := h.unlisted hks
  exact h.keep hholds h.named le_rfl (List.Subset.refl _) (fun _ htr => htr) fun hdone => ⟨hdone,hkey⟩

omit [DecidableEq Request] in
theorem Owes.published (h : Owes d r s) (command : Command) (evict : Nat) :
    s.Unlisted d (d.bus.publish command evict s.now s.redis).2 := by
  rcases Bus.publish_cases h.holds s.now command evict with ⟨err,he⟩ | ⟨_,he⟩
  · rw [he]
    exact .inl rfl
  · rw [he]
    exact .inr ⟨_,_,rfl⟩

theorem Owes.polled (h : Owes d r s) (hinj : Function.Injective d.commandID) {r' : Request}
    {command : Command} (hr : (s.request r').command = some command)
    (hr' : r' = r → (s.request r).isDone = false → (d.bus.pollResult command.id s.now s.redis).2 = s.redis) :
    Owes d r { s with redis := (d.bus.pollResult command.id s.now s.redis).2 } := by
  obtain ⟨hholds,hother,_⟩ := Bus.pollResult_spec h.holds s.now command.id
  refine h.keep hholds h.named le_rfl (List.Subset.refl _) (fun _ htr => htr) ?_
  intro hdone
  refine ⟨hdone,?_⟩
  by_cases he : r' = r
  · rw [hr' he hdone]
  · apply hother
    rw [h.named r' command hr]
    intro hkey
    exact he (hinj (d.bus.resultKey_inj.mp hkey).symm)

variable [DecidableEq Consumer]

theorem Owes.await (h : Owes d r s) (hinj : Function.Injective d.commandID) {r' : Request} {fate : Fate}
    (hfate : r' = r → fate ≠ .retried) :
    Owes d r (s.step d (.await r' fate : Action Consumer Request View Reply)) := by
  simp only [step]
  cases hr : s.request r' with
  | idle | publishing | done => exact h
  | awaiting command =>
    have hcmd : (s.request r').command = some command := by
      rw [hr]
      rfl
    -- once the request is answered nothing is owed to it
    have hanswered (status : Nat) : Owes d r { s.answer r' command status with
        redis := (d.bus.pollResult command.id s.now s.redis).2 } := by
      have hdone := h.answer (.inl rfl) hcmd status
      have hself : ((s.answer r' command status).request r').command = some command := by
        simp [System.answer,setRequest,RequestPc.command]
      refine hdone.polled hinj hself ?_
      intro he hopen
      subst he
      simp [System.answer,setRequest,RequestPc.isDone] at hopen
    dsimp only
    cases fate with
    | answered =>
      cases he : (d.bus.pollResult command.id s.now s.redis).1 with
      | error err =>
        rw [Fate.perform_error he]
        exact hanswered 504
      | ok reply =>
        rw [Fate.perform_ok he]
        cases reply with
        | none => exact h.polled hinj hcmd fun _ _ => pollResult_none he
        | some result => exact hanswered _
    | unanswered => exact hanswered 504
    | unsent => exact h.answer (.inl rfl) hcmd 504
    | retried =>
      refine h.polled hinj hcmd ?_
      intro he
      exact absurd rfl (hfate he)

theorem Owes.step (h : Owes d r s) (hinj : Function.Injective d.commandID)
    (a : Action Consumer Request View Reply) (ha : a ≠ .await r .retried) : Owes d r (s.step d a) := by
  have htyped : d.bus.Typed s.redis := h.holds.mono (fun _ _ h => h) fun _ _ _ => trivial
  cases a with
  | append o fields evict =>
    have he := xadd_stream (htyped.holdsStream o) s.now streamMaxLen evict fields
    simp only [System.step,he]
    exact h.redis (.inr ⟨o,_,rfl⟩)
  | startConsumer c =>
    simp only [System.step]
    cases hc : s.consumer c with
    | stopped =>
      dsimp only
      by_cases ho : d.ownerID c = ""
      · rw [if_pos ho]
        exact h
      · rw [if_neg ho]
        have hstart : Consumes d.bus d.handler (d.ownerID c) s.now s.redis (s.consumer c) .creating []
            s.redis := by
          rw [hc]
          exact .started
        exact h.consumer c hstart
    | creating | loop | reading | batch | handling | calling | finishing | acking => exact h
  | consume c input => exact h.consumer c (consume_spec htyped d.handler _ s.now _ input)
  | crash c => exact h.consumer c (.halted _)
  | request r' identity lease payload =>
    simp only [System.step]
    cases hr : s.request r' with
    | idle =>
      refine h.requested (.inl rfl) ?_ ?_ (.inr ⟨_,fun _ he => (by cases he),rfl⟩)
      · intro c hc
        cases hc
        rfl
      · intro _
        rw [hr]
        rfl
    | publishing | awaiting | done => exact h
  | publish r' fate evict =>
    simp only [System.step]
    cases hr : s.request r' with
    | idle | awaiting | done => exact h
    | publishing command =>
      have hcmd : (s.request r').command = some command := by
        rw [hr]
        rfl
      have hks := h.published command evict
      dsimp only
      cases fate with
      | answered =>
        cases he : (d.bus.publish command evict s.now s.redis).1 with
        | ok u =>
          rw [Fate.perform_ok he]
          refine h.requested hks ?_ ?_ (.inl rfl)
          · intro c hc
            cases hc
            exact h.named r' command hcmd
          · intro _
            rw [hr]
            rfl
        | error err =>
          rw [Fate.perform_error he]
          exact h.answer hks hcmd 503
      | unanswered => exact h.answer hks hcmd 503
      | unsent => exact h.answer (.inl rfl) hcmd 503
      | retried => exact h.redis hks
  | duplicate r' evict =>
    simp only [System.step]
    cases hr : (s.request r').command with
    | none => exact h
    | some command => exact h.redis (h.published command evict)
  | await r' fate =>
    apply h.await hinj
    intro he hretried
    exact ha (by rw [he,hretried])
  | giveUp r' =>
    simp only [System.step]
    cases hr : s.request r' with
    | idle | publishing | done => exact h
    | awaiting command =>
      have hcmd : (s.request r').command = some command := by
        rw [hr]
        rfl
      exact h.answer (.inl rfl) hcmd 504
  | wait n =>
    exact h.keep h.holds h.named (Int.le_add_of_nonneg_right (Int.natCast_nonneg n))
      (List.Subset.refl _) (fun _ htr => htr) fun hdone => ⟨hdone,rfl⟩

theorem Owes.run (h : Owes d r s) (hinj : Function.Injective d.commandID)
    (actions : List (Action Consumer Request View Reply)) (ha : ∀ a ∈ actions, a ≠ .await r .retried) :
    Owes d r (s.run d actions) := by
  induction actions generalizing s with
  | nil => exact h
  | cons a rest ih =>
    apply ih (h.step hinj a (ha a List.mem_cons_self))
    exact fun b hb => ha b (List.mem_cons_of_mem a hb)

end System

/-- In every run with distinct command IDs, a request that still waits when a result of its command has
been committed within the TTL is answered by its next poll, with the status of a committed result. -/
theorem awaitResult_answers [DecidableEq Consumer] [DecidableEq Request]
    (d : Deployment Consumer Request View Call Reply) (hinj : Function.Injective d.commandID)
    {ks : Keyspace} (hks : d.bus.Unused ks) (now : Int) (r : Request) (hid : d.commandID r ≠ "")
    (actions : List (Action Consumer Request View Reply)) (ha : ∀ a ∈ actions, a ≠ .await r .retried) :
    let s := (System.start ks now : System Consumer Request Call).run d actions
    ∀ c, s.request r = .awaiting c → ∀ tr, .consumed (.committed tr) ∈ s.trace →
      tr.result.commandID = c.id → s.now < tr.time+expireTTL d.bus.resultTTL.toInt →
      ∃ tr', .consumed (.committed tr') ∈ s.trace ∧ tr'.result.commandID = c.id ∧
        (s.step d (.await r .answered : Action Consumer Request View Reply)).request r =
          .done c (if tr'.result.success then 200 else 409) := by
  intro s c hr tr htr hcommand hlasts
  have hs : s.Owes d r := (System.owes_start hks now).run hinj actions ha
  have hcmd : (s.request r).command = some c := by
    rw [hr]
    rfl
  have hname := hs.named r c hcmd
  have hopen : (s.request r).isDone = false := by
    rw [hr]
    rfl
  obtain ⟨content,xs,e,_,hk,hm,he⟩ := hs.listed hopen tr htr (hcommand.trans hname) hlasts
  rw [hcommand] at hk
  have hlive : s.redis.live s.now (d.bus.resultKey c.id) = some ⟨.list xs,some e⟩ := by
    apply Keyspace.live_eq_some.mpr
    exact ⟨hk,decide_eq_true (by omega)⟩
  -- every element of the list encodes a committed result, so it decodes
  have hcommitted : ∀ x ∈ xs, CommittedAs s.trace c.id x := by
    obtain ⟨ys,e',hitem,hys⟩ := hs.holds.results c.id _ hk
    cases hitem
    exact hys
  obtain ⟨x,hx,result,hd,hpoll⟩ := pollResult_some (hname ▸ hid) hlive (List.ne_nil_of_mem hm)
    fun x hx => by
      obtain ⟨tr',_,_,henc⟩ := hcommitted x hx
      exact ⟨_,(encodeResult_stored henc).1⟩
  obtain ⟨tr',htr',hcommand',henc⟩ := hcommitted x hx
  rw [(encodeResult_stored henc).1] at hd
  cases hd
  refine ⟨tr',htr',hcommand',?_⟩
  simp only [System.step,hr,Fate.perform_ok hpoll,System.answer,System.setRequest,if_true]
  rfl

def resetOnIdle : Command :=
  ⟨"4f1e","station-1","runtime-a",3,resetAction,encodeReset ⟨"OnIdle",none⟩,1767225600000000000,
    1767225630000000000⟩

def Event.commit : Event Request Call → Option Commit
  | .consumed (.committed tr) => some tr
  | _ => none

theorem commit_eq_some {e : Event Request Call} {tr : Commit} (h : e.commit = some tr) :
    e = .consumed (.committed tr) := by
  cases e with
  | consumed x =>
    cases x with
    | committed tr' =>
      injection h with h
      rw [h]
    | called | handled | acked => cases h
  | requested | answered => cases h

/-- The consumer saw no reply to its commit, and the request that waits is answered. -/
theorem awaitResult_answers_lostCommit :
    let s := (System.start Keyspace.empty 1767225600000000000).run singleRuntime lostCommit
    s.request () = .awaiting resetOnIdle ∧
    ∃ tr, .consumed (.committed tr) ∈ s.trace ∧ tr.result.commandID = resetOnIdle.id ∧
      (s.step singleRuntime (.await () .answered)).request () =
        .done resetOnIdle (if tr.result.success then 200 else 409) := by
  have hr : ((System.start Keyspace.empty 1767225600000000000).run singleRuntime lostCommit).request () =
      .awaiting resetOnIdle := by decide +kernel
  have hcommit : (((System.start Keyspace.empty 1767225600000000000).run singleRuntime
      lostCommit).trace.findSome? Event.commit).any (fun tr => tr.result.commandID = resetOnIdle.id ∧
      ((System.start Keyspace.empty 1767225600000000000).run singleRuntime lostCommit).now <
        tr.time+expireTTL singleRuntime.bus.resultTTL.toInt) = true := by decide +kernel
  obtain ⟨tr,hfind,htr⟩ := (Option.any_eq_true _ _).mp hcommit
  obtain ⟨hid,hlasts⟩ := of_decide_eq_true htr
  obtain ⟨e,he,hevent⟩ := List.exists_of_findSome?_eq_some hfind
  rw [commit_eq_some hevent] at he
  have ha : ∀ a ∈ lostCommit, a ≠ .await () .retried := by
    simp [lostCommit,resetRequest,answeredCall]
  refine ⟨hr,?_⟩
  have hempty : singleRuntime.bus.Unused Keyspace.empty := ⟨fun _ => rfl,fun _ => rfl,fun _ => rfl⟩
  have hanswer := awaitResult_answers singleRuntime (fun _ _ _ => rfl) hempty 1767225600000000000 ()
    (by decide) lostCommit ha
  exact hanswer resetOnIdle hr tr he hid hlasts

end CsmsPlatform
