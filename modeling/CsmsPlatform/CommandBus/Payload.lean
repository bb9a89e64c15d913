import CsmsPlatform.CommandBus.Reexecution

/-!
# The payload of a command reaches the station's owner

A reset command is written as JSON by the runtime that has the request, goes through a stream entry and
is read as JSON by the runtime that has the station. Both ends agree: the station is asked for what the
request asked for.
-/

namespace CsmsPlatform

open Redis

/-! ## Round trip -/

theorem intValue_formed (i : Int) : (intValue i).Formed := by
  refine ⟨?_,rfl,nofun⟩
  rcases Decimal.toDigits_head i.natAbs with h | ⟨c,cs,h,hne⟩
  · exact .inl h
  · refine .inr ⟨c,cs,h,hne,?_⟩
    rw [← h,List.all_eq_true]
    intro d hd
    exact Nat.isDigit_of_mem_toDigits (by decide) (by decide) hd

theorem intValue_text (i : Int) :
    (⟨i < 0,Nat.toDigits 10 i.natAbs,[],none⟩ : Json.Number).text = (toString i).toList := by
  cases i with
  | ofNat n =>
    have hr : (toString (Int.ofNat n)).toList = Nat.toDigits 10 n := Nat.toList_repr
    rw [hr]
    simp [Json.Number.text,Json.Number.fractionText,Json.Number.exponentText]
  | negSucc n =>
    have hr : (toString (Int.negSucc n)).toList = '-'::Nat.toDigits 10 (n+1) := by
      change ("-" ++ (n+1).repr).toList = _
      rw [String.toList_append,Nat.toList_repr]
      rfl
    rw [hr]
    simp [Json.Number.text,Json.Number.fractionText,Json.Number.exponentText]

def ResetCommand.InRange (r : ResetCommand) : Prop := ∀ i, r.evseID = some i → -2^63 ≤ i ∧ i < 2^63

theorem decodeIntPointer_value {i : Int} (hlo : -2^63 ≤ i) (hhi : i < 2^63) :
    decodeIntPointer (intValue i) = some (some i) := by
  rw [intValue,decodeIntPointer,intValue_text,String.ofList_toList,Decimal.parseInt_toString i hlo hhi]
  rfl

theorem unmarshal_render {Field Struct : Type} (fields : List (String × Field))
    (assign : Field → Struct → Json.Member → Option Struct) (zero : Struct)
    {ms : List (List Json.Piece × Json.Value)} (hm : Json.FormedMembers ms) :
    unmarshal fields assign zero (String.ofList (Json.render (.object ms))) =
      decodeMembers fields assign zero (ms.map Json.writtenMember) := by
  have hobject : (Json.Value.object ms).Formed := hm
  rw [unmarshal,String.toList_ofList,Json.parse_render _ hobject]
  simp only [Json.parseObject_render _ hm,Option.bind_some]

/-- What `mustJSON` writes `json.Unmarshal` reads back. -/
theorem decodeReset_encodeReset {r : ResetCommand} (hr : r.InRange) :
    decodeReset (encodeReset r) = some r := by
  obtain ⟨type,evseID⟩ := r
  have htype : matchField resetFields (keyPieces "type") = some .type := by
    rw [matchField_key]
    rfl
  have hevse : matchField resetFields (keyPieces "evseId") = some .evseID := by
    rw [matchField_key]
    rfl
  cases evseID with
  | none =>
    have hm : Json.FormedMembers [(keyPieces "type",stringValue type)] :=
      ⟨quote_formed _,quote_formed _,trivial⟩
    rw [decodeReset,encodeReset,unmarshal_render _ _ _ hm]
    simp only [List.map_cons,List.map_nil,Json.writtenMember,decodeMembers,htype,assignReset,
      decodeString_value,Option.map_some]
  | some i =>
    obtain ⟨hlo,hhi⟩ := hr i rfl
    have hm : Json.FormedMembers [(keyPieces "type",stringValue type),(keyPieces "evseId",intValue i)] :=
      ⟨quote_formed _,quote_formed _,quote_formed _,intValue_formed i,trivial⟩
    rw [decodeReset,encodeReset,unmarshal_render _ _ _ hm]
    simp only [List.map_cons,List.map_nil,Json.writtenMember,decodeMembers,htype,hevse,assignReset,
      decodeString_value,decodeIntPointer_value hlo hhi,Option.map_some]

theorem decodeMembers_inRange {r r' : ResetCommand} {ms : List Json.Member}
    (h : decodeMembers resetFields assignReset r ms = some r') (hr : r.InRange) : r'.InRange := by
  induction ms generalizing r with
  | nil =>
    cases h
    exact hr
  | cons m ms ih =>
    rw [decodeMembers] at h
    cases hf : matchField resetFields m.key with
    | none =>
      rw [hf] at h
      exact ih h hr
    | some field =>
      rw [hf] at h
      dsimp only at h
      cases ha : assignReset field r m with
      | none =>
        rw [ha] at h
        cases h
      | some next =>
        rw [ha] at h
        apply ih h
        cases field with
        | type =>
          obtain ⟨s,_,rfl⟩ := Option.map_eq_some_iff.mp ha
          exact hr
        | evseID =>
          obtain ⟨i,hi,rfl⟩ := Option.map_eq_some_iff.mp ha
          intro j hj
          dsimp only at hj
          subst hj
          unfold decodeIntPointer at hi
          split at hi
          · cases hi
          · obtain ⟨k,hk,he⟩ := Option.map_eq_some_iff.mp hi
            cases he
            exact (Decimal.parseInt_eq_some_iff.mp hk).2
          · cases hi

/-! ## From the request to the call -/

variable {Consumer Request View Call Reply : Type}

theorem resetHandler_calls {texts : ErrorTexts} {ctxErr : Option String} {view : RuntimeView}
    {command : Command} {call : Version × ResetCommand}
    (h : (resetHandler texts).start ctxErr view command = .inr call) :
    decodeReset command.payload = some call.2 ∧ view.session command.stationIdentity = some call.1 := by
  unfold resetHandler handleCommand at h
  dsimp only at h
  cases ctxErr with
  | some err => cases h
  | none =>
    dsimp only at h
    by_cases hown : view.isOwner command = false
    · rw [if_pos hown] at h
      cases h
    · rw [if_neg hown] at h
      cases hs : view.session command.stationIdentity with
      | none =>
        rw [hs] at h
        cases h
      | some version =>
        rw [hs] at h
        dsimp only at h
        by_cases hact : command.action ≠ resetAction
        · rw [if_pos hact] at h
          cases h
        · rw [if_neg hact] at h
          cases hd : decodeReset command.payload with
          | none =>
            rw [hd] at h
            cases h
          | some request =>
            rw [hd] at h
            cases h
            exact ⟨rfl,rfl⟩

theorem HandledSent.mono {trace trace' : List (Event Request Call)} {o : String} {command : Command}
    (h : HandledSent trace o command) (hsub : trace ⊆ trace') : HandledSent trace' o command := by
  obtain ⟨r,c,hr,hrest⟩ := h
  exact ⟨r,c,hsub hr,hrest⟩

namespace System

/-- Every call of the handler is for a command that was sent to its owner, and as its payload says. -/
structure Asked (d : Deployment Consumer Request RuntimeView (Version × ResetCommand) Reply)
    (s : System Consumer Request (Version × ResetCommand)) : Prop where
  genuine : Genuine d s
  called : ∀ o command call, .consumed (.called o command call) ∈ s.trace →
    HandledSent s.trace o command ∧ decodeReset command.payload = some call.2

variable {d : Deployment Consumer Request RuntimeView (Version × ResetCommand) Reply}
  {s s' : System Consumer Request (Version × ResetCommand)}

theorem Asked.keep (h : Asked d s) (hg : Genuine d s') (hsub : s.trace ⊆ s'.trace)
    (hcalled : ∀ o command call, .consumed (.called o command call) ∈ s'.trace →
      .consumed (.called o command call) ∈ s.trace) : Asked d s' := by
  refine ⟨hg,?_⟩
  intro o command call hm
  obtain ⟨hsent,hdecode⟩ := h.called o command call (hcalled o command call hm)
  exact ⟨hsent.mono hsub,hdecode⟩

section Consumers

variable [DecidableEq Consumer] {c : Consumer} {pc : Pc (Version × ResetCommand)}
  {events : List (ConsumerEvent (Version × ResetCommand))} {ks : Keyspace}

theorem Asked.move (h : Asked d s) (hg : Genuine d (s.moved c pc events ks))
    (hcalled : ∀ o command call, .called o command call ∉ events) : Asked d (s.moved c pc events ks) := by
  refine h.keep hg (List.subset_append_right _ _) ?_
  intro o command call hm
  simpa [moved,hcalled] using hm

theorem Asked.consumer (h : Asked d s) {texts : ErrorTexts}
    (hstart : d.handler.start = (resetHandler texts).start)
    (hc : Consumes d.bus d.handler (d.ownerID c) s.now s.redis (s.consumer c) pc events ks) :
    Asked d (s.moved c pc events ks) := by
  have hg := h.genuine.consumer c hc
  generalize hpc₀ : s.consumer c = pc₀ at hc
  cases hc with
  | halted | started | stayed => exact h.move hg (fun _ _ _ => List.not_mem_nil)
  | called ha hpc =>
    apply h.move hg
    cases ha <;> simp
  | responded _ | resumed _ => exact h.move hg (by simp)
  | @calledOut frame command ctxErr view call hs =>
    rw [hstart] at hs
    have hwork := h.genuine.working c
    have hmem : frame.message ∈ (s.consumer c).messages := by
      rw [hpc₀]
      exact List.mem_cons_self
    rw [hpc₀] at hwork
    obtain ⟨r,x,hr,ho,hf⟩ := h.genuine.messages c frame.message hmem
    have hd : decodeCommand frame.message.fields = .ok command := hwork
    rw [hf] at hd
    refine ⟨hg,?_⟩
    intro o command' call' hm
    rcases List.mem_cons.mp hm with hm | hm
    · cases hm
      exact ⟨⟨r,x,List.mem_cons_of_mem _ hr,ho,hd⟩,(resetHandler_calls hs).1⟩
    · obtain ⟨hsent,hdecode⟩ := h.called o command' call' hm
      exact ⟨hsent.mono (List.subset_cons_self _ _),hdecode⟩

end Consumers

theorem Asked.noted (h : Asked d s) (hg : Genuine d s')
    (ht : s'.trace = s.trace ∨ ∃ e, (∀ x, e ≠ .consumed x) ∧ s'.trace = e::s.trace) : Asked d s' := by
  rcases ht with ht | ⟨e,he,ht⟩
  · refine h.keep hg (by rw [ht]; exact List.Subset.refl _) ?_
    intro o command call hm
    rwa [ht] at hm
  · refine h.keep hg (by rw [ht]; exact List.subset_cons_self _ _) ?_
    intro o command call hm
    rw [ht] at hm
    exact (List.mem_cons.mp hm).resolve_left fun heq => he _ heq.symm

variable [DecidableEq Consumer] [DecidableEq Request]

theorem Asked.change {a : Action Consumer Request RuntimeView Reply} (h : Asked d s) {texts : ErrorTexts}
    (hstart : d.handler.start = (resetHandler texts).start) (hinj : Function.Injective d.commandID)
    (ha : a.Published) (hc : Change d a s s') : Asked d s' := by
  have hg := h.genuine.change hinj ha hc
  cases hc with
  | consumer c hc => exact h.consumer hstart hc
  | appended o fields evict he =>
    subst he
    cases ha
  | published | awaiting | polled | waited => exact h.noted hg (.inl rfl)
  | @requested r command => exact h.noted hg (.inr ⟨.requested r command,nofun,rfl⟩)
  | answered r status => exact h.noted hg (.inr ⟨.answered r status,nofun,rfl⟩)

omit [DecidableEq Consumer] [DecidableEq Request] in
theorem asked_start {ks : Keyspace} (hks : d.bus.Unused ks) (now : Int) : Asked d (start ks now) where
  genuine := genuine_start hks now
  called _ _ _ := nofun

theorem Asked.run (h : Asked d s) {texts : ErrorTexts}
    (hstart : d.handler.start = (resetHandler texts).start) (hinj : Function.Injective d.commandID)
    (actions : List (Action Consumer Request RuntimeView Reply)) (hp : ∀ a ∈ actions, a.Published) :
    Asked d (s.run d actions) :=
  run_keeps (fun _ h => h.genuine.holds.mono (fun _ _ _ => trivial) (fun _ _ _ => trivial))
    (fun _ _ _ ha h hc => h.change hstart hinj ha hc) h actions hp

end System

section Requests

variable [DecidableEq Consumer] [DecidableEq Request]
  {d : Deployment Consumer Request View Call Reply} {s : System Consumer Request Call}

/-- The command that `serverCommandHandler` makes of an admitted request. -/
def Command.Of (c : Command) (id identity : String) (lease : Lease) (payload : ResetCommand) : Prop :=
  c.id = id ∧ c.stationIdentity = identity ∧ c.ownerID = lease.ownerID ∧
    c.ownerGeneration = lease.generation ∧ c.payload = encodeReset payload

theorem System.requested_step (a : Action Consumer Request View Reply) {r : Request} {c : Command}
    (h : .requested r c ∈ (s.step d a).trace) :
    .requested r c ∈ s.trace ∨ ∃ identity lease payload, a = .request r identity lease payload ∧
      c.Of (d.commandID r) identity lease payload := by
  cases a with
  | append | crash | wait => exact .inl h
  | startConsumer c =>
    left
    simp only [System.step] at h
    split at h
    · split at h <;> exact h
    · exact h
  | consume c input =>
    left
    simpa [System.step] using h
  | request r' identity lease payload =>
    simp only [System.step] at h
    split at h
    · rcases List.mem_cons.mp h with h | h
      · cases h
        exact .inr ⟨identity,lease,payload,rfl,rfl,rfl,rfl,rfl,rfl⟩
      · exact .inl h
    · exact .inl h
  | publish r' fate evict =>
    left
    simp only [System.step] at h
    split at h
    · split at h
      · exact h
      · simpa [System.answer] using h
      · exact h
    · exact h
  | duplicate r' evict =>
    left
    simp only [System.step] at h
    split at h <;> exact h
  | await r' fate =>
    left
    simp only [System.step] at h
    split at h
    · split at h
      · exact h
      · simpa [System.answer] using h
      · simpa [System.answer] using h
      · exact h
    · exact h
  | giveUp r' =>
    left
    simp only [System.step] at h
    split at h
    · simpa [System.answer] using h
    · exact h

theorem System.requested_run (actions : List (Action Consumer Request View Reply)) {r : Request}
    {c : Command} (h : .requested r c ∈ (s.run d actions).trace) :
    .requested r c ∈ s.trace ∨ ∃ identity lease payload, .request r identity lease payload ∈ actions ∧
      c.Of (d.commandID r) identity lease payload := by
  induction actions generalizing s with
  | nil => exact .inl h
  | cons a actions ih =>
    rcases ih h with hstep | ⟨identity,lease,payload,hm,hof⟩
    · rcases System.requested_step a hstep with hs | ⟨identity,lease,payload,rfl,hof⟩
      · exact .inl hs
      · exact .inr ⟨identity,lease,payload,List.mem_cons_self,hof⟩
    · exact .inr ⟨identity,lease,payload,List.mem_cons_of_mem _ hm,hof⟩

end Requests

/-- Every call that a runtime makes to a station was asked for by a request: for that station, of the
owner that the request had found. What it sends asks the station for the type and the EVSE that the
request gave, but for the EVSE on OCPP 1.6. -/
theorem callReset_asked [DecidableEq Consumer] [DecidableEq Request] (texts : ErrorTexts)
    (d : Deployment Consumer Request RuntimeView (Version × ResetCommand) (Except String String))
    (hhandler : d.handler = resetHandler texts) (hinj : Function.Injective d.commandID) {ks : Keyspace}
    (hks : d.bus.Unused ks) (now : Int)
    (actions : List (Action Consumer Request RuntimeView (Except String String)))
    (hp : ∀ a ∈ actions, a.Published)
    (hrange : ∀ r identity lease payload, .request r identity lease payload ∈ actions → payload.InRange) :
    let s := (System.start ks now).run d actions
    ∀ o command version request, .consumed (.called o command (version,request)) ∈ s.trace →
      ∃ r identity lease, .request r identity lease request ∈ actions ∧ command.id = d.commandID r ∧
        command.stationIdentity = identity ∧ o = lease.ownerID ∧
        command.ownerGeneration = lease.generation ∧
        ∀ sent, callReset texts version request = .ok sent →
          sent.version = version ∧ sent.AsksFor request := by
  intro s o command version request hm
  have hs : s.Asked d := (System.asked_start hks now).run (by rw [hhandler]) hinj actions hp
  obtain ⟨hsent,hdecode⟩ := hs.called o command (version,request) hm
  obtain ⟨r,c,hr,ho,hsame⟩ := hsent.same
  obtain ⟨hid,hidentity,_,hgeneration,_,hpayload⟩ := hsame
  rcases System.requested_run actions hr with hnone | ⟨identity,lease,payload,hasked,hof⟩
  · cases hnone
  · obtain ⟨hcid,hcidentity,hcowner,hcgeneration,hcpayload⟩ := hof
    rw [hpayload,hcpayload,decodeReset_encodeReset (hrange _ _ _ _ hasked)] at hdecode
    cases hdecode
    exact ⟨r,identity,lease,hasked,hid.trans hcid,hidentity.trans hcidentity,ho.symm.trans hcowner,
      hgeneration.trans hcgeneration,fun sent => callReset_asksFor⟩

theorem callReset_asked_onIdle :
    let s := (System.start Keyspace.empty 1767225600000000000).run singleRuntime lostCommit
    s.trace.filterMap Event.calledID = ["4f1e"] ∧
    ∀ o command version request, .consumed (.called o command (version,request)) ∈ s.trace →
      request = ⟨"OnIdle",none⟩ ∧ o = "runtime-a" ∧
      ∀ sent, callReset ⟨id,id⟩ version request = .ok sent → sent.version = version ∧ sent.AsksFor request := by
  refine ⟨by decide +kernel,?_⟩
  intro o command version request hm
  have hp : ∀ a ∈ lostCommit, a.Published := by
    simp [lostCommit,resetRequest,answeredCall,Action.Published]
  have hrequest : ∀ r identity lease payload, .request r identity lease payload ∈ lostCommit →
      payload = ⟨"OnIdle",none⟩ ∧ lease.ownerID = "runtime-a" := by
    simp only [lostCommit,resetRequest,answeredCall,List.mem_cons,Action.request.injEq,reduceCtorEq,
      List.not_mem_nil,or_false]
    rintro r identity lease payload ⟨_,_,rfl,rfl⟩
    exact ⟨rfl,rfl⟩
  have hrange : ∀ r identity lease payload, .request r identity lease payload ∈ lostCommit →
      payload.InRange := by
    intro r identity lease payload hr
    rw [(hrequest r identity lease payload hr).1]
    intro i hi
    cases hi
  have hempty : singleRuntime.bus.Unused Keyspace.empty := ⟨fun _ => rfl,fun _ => rfl,fun _ => rfl⟩
  obtain ⟨r,identity,lease,hasked,_,_,ho,_,hsent⟩ := callReset_asked ⟨id,id⟩ singleRuntime rfl
    (fun _ _ _ => rfl) hempty 1767225600000000000 lostCommit hp hrange o command version request hm
  obtain ⟨hpayload,howner⟩ := hrequest r identity lease request hasked
  exact ⟨hpayload,ho.trans howner,hsent⟩

end CsmsPlatform
