import CsmsPlatform.CommandBus.Bus

/-!
# What the bus keeps in Redis

The bus writes three kinds of keys, each with one kind of value: a stream for an owner, a list of
results and a completion record for a command. What is known of the streams and of the encoded
results is carried from one call to the next.
-/

namespace CsmsPlatform

open Redis

namespace Bus

/-- `S` is known of each owner's stream, and `R` of each encoded result under a command's ID. -/
structure Holds (bus : Bus) (S : String → StreamValue → Prop) (R : String → String → Prop)
    (ks : Keyspace) : Prop where
  streams : ∀ o item, ks (bus.commandStream o) = some item → ∃ v, item = ⟨.stream v,none⟩ ∧ S o v
  results : ∀ id item, ks (bus.resultKey id) = some item →
    ∃ xs e, item = ⟨.list xs,e⟩ ∧ ∀ x ∈ xs, R id x
  completions : ∀ id item, ks (bus.completionKey id) = some item →
    ∃ text e, item = ⟨.string text,e⟩ ∧ R id text

def Unused (bus : Bus) (ks : Keyspace) : Prop :=
  (∀ o, ks (bus.commandStream o) = none) ∧ (∀ id, ks (bus.resultKey id) = none) ∧
    ∀ id, ks (bus.completionKey id) = none

def elements (bus : Bus) (ks : Keyspace) (now : Int) (id : String) : List String :=
  match ks.live now (bus.resultKey id) with
  | some ⟨.list xs,_⟩ => xs
  | _ => []

def written (bus : Bus) (ks : Keyspace) (now : Int) (id content : String) : Keyspace :=
  (ks.set (bus.completionKey id) ⟨.string content,some (now+setTTL bus.resultTTL.toInt)⟩).set
    (bus.resultKey id)
    ⟨.list (content::bus.elements ks now id),some (now+expireTTL bus.resultTTL.toInt)⟩

def stream (bus : Bus) (ks : Keyspace) (o : String) : StreamValue :=
  (ks.stream (bus.commandStream o)).getD .new

theorem stream_putStream (bus : Bus) (ks : Keyspace) (o o' : String) (v : StreamValue) :
    bus.stream (ks.putStream (bus.commandStream o) v) o' = if o' = o then v else bus.stream ks o' := by
  by_cases h : o' = o
  · subst h
    simp [stream]
  · rw [if_neg h,stream,stream,Keyspace.stream_congr]
    exact Keyspace.set_ne _ _ (by simpa using h)

theorem stream_written (bus : Bus) (ks : Keyspace) (now : Int) (id content o : String) :
    bus.stream (bus.written ks now id content) o = bus.stream ks o := by
  rw [stream,stream,Keyspace.stream_congr]
  rw [written,Keyspace.set_ne _ _ (by simp),Keyspace.set_ne _ _ (by simp)]

theorem stream_some {bus : Bus} {ks : Keyspace} {o : String} {v : StreamValue}
    (h : ks.stream (bus.commandStream o) = some v) : bus.stream ks o = v := by
  rw [stream,h]
  rfl

theorem stream_group_none {bus : Bus} {ks : Keyspace} {o : String}
    (h : ((ks.stream (bus.commandStream o)).bind fun v => v.group consumerGroup) = none) :
    (bus.stream ks o).group consumerGroup = none := by
  unfold stream
  cases hs : ks.stream (bus.commandStream o) with
  | none => rfl
  | some v =>
    rw [hs] at h
    exact h

section Holds

variable {bus : Bus} {S S' : String → StreamValue → Prop} {R R' : String → String → Prop}
  {ks : Keyspace}

theorem Unused.holds (h : bus.Unused ks) : bus.Holds S R ks where
  streams o item hi := by
    rw [h.1 o] at hi
    cases hi
  results id item hi := by
    rw [h.2.1 id] at hi
    cases hi
  completions id item hi := by
    rw [h.2.2 id] at hi
    cases hi

theorem Holds.mono (h : bus.Holds S R ks) (hS : ∀ o v, S o v → S' o v)
    (hR : ∀ id x, R id x → R' id x) : bus.Holds S' R' ks where
  streams o item hi := by
    obtain ⟨v,hv,hs⟩ := h.streams o item hi
    exact ⟨v,hv,hS o v hs⟩
  results id item hi := by
    obtain ⟨xs,e,hxs,hr⟩ := h.results id item hi
    exact ⟨xs,e,hxs,fun x hx => hR id x (hr x hx)⟩
  completions id item hi := by
    obtain ⟨text,e,ht,hr⟩ := h.completions id item hi
    exact ⟨text,e,ht,hR id text hr⟩

theorem Holds.holdsStream (h : bus.Holds S R ks) (o : String) : ks.HoldsStream (bus.commandStream o) := by
  intro item hi
  obtain ⟨v,hv,_⟩ := h.streams o item hi
  exact ⟨v,hv⟩

theorem Holds.stream (h : bus.Holds S R ks) {o : String} {v : StreamValue}
    (hv : ks.stream (bus.commandStream o) = some v) : S o v := by
  cases hk : ks (bus.commandStream o) with
  | none =>
    simp only [Keyspace.stream,hk] at hv
    cases hv
  | some item =>
    obtain ⟨w,rfl,hs⟩ := h.streams o item hk
    simp only [Keyspace.stream,hk,Option.some.injEq] at hv
    exact hv ▸ hs

theorem Holds.putStream (h : bus.Holds S R ks) {o : String} {v : StreamValue} (hv : S' o v)
    (hother : ∀ o' w, o' ≠ o → S o' w → S' o' w) :
    bus.Holds S' R (ks.putStream (bus.commandStream o) v) where
  streams o' item hi := by
    by_cases ho : o' = o
    · subst ho
      simp only [Keyspace.putStream,Keyspace.set,if_true,Option.some.injEq] at hi
      exact ⟨v,hi.symm,hv⟩
    · rw [Keyspace.putStream,Keyspace.set_ne _ _ (by simpa using ho)] at hi
      obtain ⟨w,hw,hs⟩ := h.streams o' item hi
      exact ⟨w,hw,hother o' w ho hs⟩
  results id item hi := by
    rw [Keyspace.putStream,Keyspace.set_ne _ _ (by simp)] at hi
    exact h.results id item hi
  completions id item hi := by
    rw [Keyspace.putStream,Keyspace.set_ne _ _ (by simp)] at hi
    exact h.completions id item hi

theorem Holds.elements (h : bus.Holds S R ks) (now : Int) (id : String) :
    ∀ x ∈ bus.elements ks now id, R id x := by
  intro x hx
  unfold Bus.elements at hx
  split at hx
  · next xs e hl =>
    obtain ⟨ys,e',hi,hr⟩ := h.results id _ (Keyspace.live_eq_some.mp hl).1
    cases hi
    exact hr x hx
  · cases hx

theorem Holds.written (h : bus.Holds S R ks) (hS : ∀ o v, S o v → S' o v)
    (hR : ∀ id x, R id x → R' id x) (now : Int) {id content : String} (hc : R' id content) :
    bus.Holds S' R' (bus.written ks now id content) where
  streams o item hi := by
    rw [Bus.written,Keyspace.set_ne _ _ (by simp),Keyspace.set_ne _ _ (by simp)] at hi
    obtain ⟨v,hv,hs⟩ := h.streams o item hi
    exact ⟨v,hv,hS o v hs⟩
  results id' item hi := by
    by_cases hid : id' = id
    · subst hid
      simp only [Bus.written,Keyspace.set,if_true,Option.some.injEq] at hi
      refine ⟨_,_,hi.symm,?_⟩
      intro x hx
      rcases List.mem_cons.mp hx with rfl | hx
      · exact hc
      · exact hR _ _ (h.elements now id' x hx)
    · rw [Bus.written,Keyspace.set_ne _ _ (by simpa using hid),Keyspace.set_ne _ _ (by simp)] at hi
      obtain ⟨xs,e,hxs,hr⟩ := h.results id' item hi
      exact ⟨xs,e,hxs,fun x hx => hR id' x (hr x hx)⟩
  completions id' item hi := by
    rw [Bus.written,Keyspace.set_ne _ _ (by simp)] at hi
    by_cases hid : id' = id
    · subst hid
      simp only [Keyspace.set,if_true,Option.some.injEq] at hi
      exact ⟨_,_,hi.symm,hc⟩
    · rw [Keyspace.set_ne _ _ (by simpa using hid)] at hi
      obtain ⟨text,e,ht,hr⟩ := h.completions id' item hi
      exact ⟨text,e,ht,hR id' text hr⟩

theorem Holds.shorten (h : bus.Holds S R ks) {id : String} {ks' : Keyspace}
    (hother : ∀ k, k ≠ bus.resultKey id → ks' k = ks k)
    (hself : ∀ item, ks' (bus.resultKey id) = some item → ∃ xs e, item = ⟨.list xs,e⟩ ∧
      ∀ x ∈ xs, R id x) : bus.Holds S R ks' where
  streams o item hi := by
    rw [hother _ (by simp)] at hi
    exact h.streams o item hi
  results id' item hi := by
    by_cases hid : id' = id
    · subst hid
      exact hself item hi
    · rw [hother _ (by simpa using hid)] at hi
      exact h.results id' item hi
  completions id' item hi := by
    rw [hother _ (by simp)] at hi
    exact h.completions id' item hi

end Holds

section Calls

variable {bus : Bus} {S : String → StreamValue → Prop} {R : String → String → Prop}
  {ks : Keyspace} (h : bus.Holds S R ks) (now : Int)

include h

theorem completion_apply (id content : String) :
    bus.completion id content now ks = (.ok (),bus.written ks now id content) := by
  have hpos : ¬expireTTL bus.resultTTL.toInt ≤ 0 := by
    unfold expireTTL second
    omega
  have hother (item : Item) : (ks.set (bus.completionKey id) item).live now (bus.resultKey id) =
      ks.live now (bus.resultKey id) := Keyspace.live_set_ne _ _ _ (by simp)
  cases hl : ks.live now (bus.resultKey id) with
  | none =>
    simp only [completion,transaction,setEx,Script.ignore,Script.bind_apply,lpush,hother,hl,expire,
      Keyspace.live_set_self,Item.liveAt,if_true,hpos,if_false,Script.pure_apply,Bus.written,elements,
      Keyspace.set_set]
  | some item =>
    obtain ⟨hk,hlive⟩ := Keyspace.live_eq_some.mp hl
    obtain ⟨xs,e,rfl,_⟩ := h.results id item hk
    have hlive' (ys : List String) : (⟨.list ys,e⟩ : Item).liveAt now = true := hlive
    simp only [completion,transaction,setEx,Script.ignore,Script.bind_apply,lpush,hother,hl,expire,
      Keyspace.live_set_self,hlive',if_true,hpos,if_false,Script.pure_apply,Bus.written,elements,
      Keyspace.set_set]

/-- `complete` fails before it reaches Redis, or writes both records. -/
theorem complete_cases (result : Result) :
    (∃ err, bus.complete result now ks = (.error err,ks)) ∨
    ∃ content, encodeResult (result.stamp now) = some content ∧
      bus.complete result now ks = (.ok (),bus.written ks now result.commandID content) := by
  unfold complete
  by_cases hid : result.commandID = ""
  · exact .inl ⟨_,if_pos hid⟩
  · rw [if_neg hid]
    cases henc : encodeResult (result.stamp now) with
    | none => exact .inl ⟨_,rfl⟩
    | some content =>
      refine .inr ⟨content,rfl,?_⟩
      simp only [wrapFault,completion_apply h]

theorem completed_cases (id : String) :
    (∃ content err, R id content ∧ decodeResult content = none ∧
      bus.completed id now ks = (.error err,ks)) ∨
    (ks.live now (bus.completionKey id) = none ∧ bus.completed id now ks = (.ok none,ks)) ∨
    ∃ content e result, ks (bus.completionKey id) = some ⟨.string content,e⟩ ∧
      decodeResult content = some result ∧ bus.completed id now ks = (.ok (some result),ks) := by
  simp only [completed,wrapFault,Redis.get]
  cases hl : ks.live now (bus.completionKey id) with
  | none => exact .inr (.inl ⟨rfl,rfl⟩)
  | some item =>
    have hk := (Keyspace.live_eq_some.mp hl).1
    obtain ⟨content,e,rfl,hr⟩ := h.completions id item hk
    dsimp only
    cases hd : decodeResult content with
    | none => exact .inl ⟨content,_,hr,hd,rfl⟩
    | some result => exact .inr (.inr ⟨content,e,result,hk,hd,rfl⟩)

omit h in
private theorem rpop_cases {key : String} {xs : List String} {e : Option Int}
    (hl : ks.live now key = some ⟨.list xs,e⟩) :
    (rpop key now ks = (.ok none,ks)) ∨
    ∃ x ∈ xs, ∃ ks', rpop key now ks = (.ok (some x),ks') ∧ (∀ k, k ≠ key → ks' k = ks k) ∧
      ∀ item, ks' key = some item → item = ⟨.list xs.dropLast,e⟩ := by
  simp only [rpop,hl]
  cases hx : xs.getLast? with
  | none => exact .inl rfl
  | some x =>
    right
    refine ⟨x,List.mem_of_getLast? hx,?_⟩
    dsimp only
    by_cases hd : xs.dropLast = []
    · refine ⟨_,if_pos hd,fun k hk => Keyspace.erase_ne _ hk,?_⟩
      intro item hi
      simp [Keyspace.erase] at hi
    · refine ⟨_,if_neg hd,fun k hk => Keyspace.set_ne _ _ hk,?_⟩
      intro item hi
      simpa [Keyspace.set] using hi.symm

/-- What a waiting request takes was in the result list, and the rest stays. -/
theorem pollResult_spec (id : String) :
    bus.Holds S R (bus.pollResult id now ks).2 ∧
    (∀ k, k ≠ bus.resultKey id → (bus.pollResult id now ks).2 k = ks k) ∧
    ∀ result, (bus.pollResult id now ks).1 = .ok (some result) →
      ∃ content, R id content ∧ decodeResult content = some result := by
  unfold pollResult
  by_cases hid : id = ""
  · rw [if_pos hid]
    exact ⟨h,fun _ _ => rfl,nofun⟩
  · rw [if_neg hid]
    cases hl : ks.live now (bus.resultKey id) with
    | none =>
      simp only [wrapFault,rpop,hl]
      exact ⟨h,fun _ _ => trivial,nofun⟩
    | some item =>
      obtain ⟨xs,e,rfl,hr⟩ := h.results id item (Keyspace.live_eq_some.mp hl).1
      rcases rpop_cases now hl with hp | ⟨x,hx,ks',hp,hother,hself⟩
      · simp only [wrapFault,hp]
        exact ⟨h,fun _ _ => trivial,nofun⟩
      · have hk : bus.Holds S R ks' := by
          apply h.shorten hother
          intro item hi
          refine ⟨_,_,hself item hi,?_⟩
          exact fun y hy => hr y (List.mem_of_mem_dropLast hy)
        simp only [wrapFault,hp]
        cases hd : decodeResult x with
        | none => exact ⟨hk,hother,nofun⟩
        | some result =>
          refine ⟨hk,hother,?_⟩
          intro result' he
          cases he
          exact ⟨x,hr x hx,hd⟩

theorem publish_cases (command : Command) (evict : Nat) :
    (∃ err, bus.publish command evict now ks = (.error err,ks)) ∨
    validateCommand command = .ok () ∧
      bus.publish command evict now ks = (.ok (),ks.putStream (bus.commandStream command.ownerID)
        ((bus.stream ks command.ownerID).append streamMaxLen evict (commandFields command))) := by
  unfold publish
  cases hv : validateCommand command with
  | error err => exact .inl ⟨_,rfl⟩
  | ok u =>
    refine .inr ⟨rfl,?_⟩
    simp only [wrapFault,Script.ignore,Script.bind_apply,xadd_stream (h.holdsStream _),Script.pure_apply,
      Bus.stream]

theorem createGroup_cases (o : String) :
    ((bus.stream ks o).group consumerGroup ≠ none ∧ bus.createGroup o now ks = (.ok (),ks)) ∨
    (bus.stream ks o).group consumerGroup = none ∧
      bus.createGroup o now ks = (.ok (),ks.putStream (bus.commandStream o)
        ((bus.stream ks o).setGroup consumerGroup ⟨0,[]⟩)) := by
  have hbusy : isBusyGroup .busyGroup = true := by decide
  have happly := @xgroupCreate_stream ks _ consumerGroup (h.holdsStream o) now
  change _ = if (bus.stream ks o).group consumerGroup = none then _ else _ at happly
  by_cases hg : (bus.stream ks o).group consumerGroup = none
  · rw [if_pos hg] at happly
    exact .inr ⟨hg,by simp only [createGroup,happly,Bus.stream]⟩
  · rw [if_neg hg] at happly
    exact .inl ⟨hg,by simp only [createGroup,happly,hbusy,if_true]⟩

theorem recoverPending_cases (o : String) :
    ((bus.stream ks o).group consumerGroup = none ∧
      ∃ err, bus.recoverPending o now ks = (.error err,ks)) ∨
    ∃ v g, ks.stream (bus.commandStream o) = some v ∧ v.group consumerGroup = some g ∧
      bus.recoverPending o now ks =
        (.ok (claimScan v now pendingMinIdle (10*10) 10 g.pending).2,
          ks.putStream (bus.commandStream o) (v.setGroup consumerGroup
            { g with pending := (claimScan v now pendingMinIdle (10*10) 10 g.pending).1 })) := by
  rcases @xautoclaim_stream ks _ consumerGroup (h.holdsStream o) now pendingMinIdle 10 with
    ⟨hn,he⟩ | ⟨v,g,hv,hg,he⟩
  · left
    simp only [recoverPending,wrapFault,he]
    exact ⟨stream_group_none hn,_,rfl⟩
  · exact .inr ⟨v,g,hv,hg,by simp only [recoverPending,wrapFault,he]⟩

theorem readNew_cases (o : String) :
    ((bus.stream ks o).group consumerGroup = none ∧ ∃ err, bus.readNew o now ks = (.error err,ks)) ∨
    (bus.readNew o now ks = (.ok none,ks)) ∨
    ∃ v g, ks.stream (bus.commandStream o) = some v ∧ v.group consumerGroup = some g ∧
      bus.readNew o now ks = (.ok (some (v.undelivered g 1)),ks.putStream (bus.commandStream o)
        (v.setGroup consumerGroup (g.deliver now (v.undelivered g 1)))) := by
  rcases @xreadGroup_stream ks _ consumerGroup (h.holdsStream o) now 1 with
    ⟨hn,he⟩ | ⟨v,g,hv,hg,he⟩
  · left
    simp only [readNew,wrapFault,he]
    exact ⟨stream_group_none hn,_,rfl⟩
  · by_cases hn : v.undelivered g 1 = []
    · rw [if_pos hn] at he
      exact .inr (.inl (by simp only [readNew,wrapFault,he]))
    · rw [if_neg hn] at he
      exact .inr (.inr ⟨v,g,hv,hg,by simp only [readNew,wrapFault,he]⟩)

theorem ack_cases (o : String) (message : StreamEntry) :
    (((ks.stream (bus.commandStream o)).bind fun v => v.group consumerGroup) = none ∧
      bus.ack o message now ks = (.ok (),ks)) ∨
    ∃ v g, ks.stream (bus.commandStream o) = some v ∧ v.group consumerGroup = some g ∧
      bus.ack o message now ks = (.ok (),ks.putStream (bus.commandStream o)
        (v.setGroup consumerGroup { g with pending := g.pending.filter fun p => p.id ≠ message.id })) := by
  rcases @xack_stream ks _ consumerGroup (h.holdsStream o) now message.id with
    ⟨hn,he⟩ | ⟨v,g,hv,hg,he⟩
  · exact .inl ⟨hn,by simp only [ack,wrapFault,Script.ignore,Script.bind_apply,he,Script.pure_apply]⟩
  · exact .inr ⟨v,g,hv,hg,
      by simp only [ack,wrapFault,Script.ignore,Script.bind_apply,he,Script.pure_apply]⟩

end Calls

end Bus

end CsmsPlatform
