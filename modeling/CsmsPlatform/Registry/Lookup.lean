import CsmsPlatform.Registry.Mutex

/-!
# Interleaved lookups

`Lookup` reads the lease hash and its time to live with two commands, and its clock after them. Other
clients' calls and the passing of time fall in between. A lease granted there gives the lookup the old
owner and generation with the new lease's remaining time.
-/

namespace CsmsPlatform

open Redis FencedLease

namespace Registry

/-- `Lookup` with its commands and its clock at instants of their own. -/
def lookupAcross (registry : Registry) (stationIdentity : String) (atHmget atPttl : Service)
    (clock : Int) : Except RegistryError Lease :=
  match (hmget (registry.leaseKey stationIdentity) ["owner","generation"] atHmget.now atHmget.redis).1 with
  | .error fault => .error (.redis "lookup redis session lease" fault)
  | .ok values =>
    match (pttl (registry.leaseKey stationIdentity) atPttl.now atPttl.redis).1 with
    | .error fault => .error (.redis "lookup redis session TTL" fault)
    | .ok remaining =>
      match values with
      | [some owner,some generation] =>
        if remaining ≤ 0 then .error .notFound
        else
          match Decimal.parseUint generation with
          | none => .error (.badReply "parse redis session generation")
          | some generation => .ok ⟨stationIdentity,owner,generation,clock+remaining*millisecond⟩
      | _ => .error .notFound

theorem lookupAcross_self (registry : Registry) (s : String) (service : Service) :
    registry.lookupAcross s service service service.now =
      (registry.lookup s service.now service.redis).1 := by
  have hread := hmget_readOnly (registry.leaseKey s) ["owner","generation"] service.now service.redis
  unfold lookupAcross lookup
  cases hh : hmget (registry.leaseKey s) ["owner","generation"] service.now service.redis with
  | mk fields ks =>
    rw [hh] at hread
    cases hread
    cases fields with
    | error fault => rfl
    | ok values =>
      dsimp only
      cases pttl (registry.leaseKey s) service.now service.redis with
      | mk remaining ks' =>
        cases remaining with
        | error fault => rfl
        | ok remaining =>
          rcases values with _ | ⟨_ | owner,rest⟩
          · rfl
          · rfl
          · rcases rest with _ | ⟨_ | generation,_ | ⟨_,_⟩⟩
            · rfl
            · rfl
            · rfl
            · dsimp only
              by_cases hz : remaining ≤ 0
              · rw [if_pos hz,if_pos hz]
              · rw [if_neg hz,if_neg hz]
                cases Decimal.parseUint generation <;> rfl
            · rfl

end Registry

namespace Service

variable {registry : Registry} {service : Service} {s : String}

/-- The states the service goes through, with every instant of a wait. -/
inductive Passes (registry : Registry) : Service → List Action → Service → Prop where
  | here (service : Service) (actions : List Action) : Passes registry service actions service
  | waiting (service : Service) (nanoseconds so : Nat) (rest : List Action) (h : so ≤ nanoseconds) :
      Passes registry service (.wait nanoseconds::rest) (service.wait so)
  | step (service instant : Service) (action : Action) (rest : List Action)
      (h : Passes registry (service.act registry action) rest instant) :
      Passes registry service (action::rest) instant

theorem passes_append (registry : Registry) (service : Service) (actions more : List Action) :
    Passes registry service (actions ++ more) (service.run registry actions) := by
  induction actions generalizing service with
  | nil => exact .here service more
  | cons action rest ih => exact .step service _ action (rest ++ more) (ih (service.act registry action))

theorem passes_nil {instant : Service} (h : Passes registry service [] instant) : instant = service := by
  cases h
  rfl

theorem passes_call {instant : Service} {call : Call} {rest : List Action}
    (h : Passes registry service (.call call::rest) instant) :
    instant = service ∨ Passes registry (service.perform registry call) rest instant := by
  cases h with
  | here => exact .inl rfl
  | step _ _ _ _ hrest => exact .inr hrest

def Free (registry : Registry) (s : String) (service : Service) : Prop :=
  service.redis.live service.now (registry.leaseKey s) = none

/-- The lease is stored, with the given time left in whole milliseconds. -/
def StoredFor (registry : Registry) (s owner : String) (generation : UInt64) (remaining : Int)
    (service : Service) : Prop :=
  ∃ item expiry, service.redis.live service.now (registry.leaseKey s) = some item ∧
    Shows item ⟨s,owner,generation,expiry⟩ ∧ item.expiresAt = some expiry ∧
    remaining = (expiry-service.now)/millisecond*millisecond

/-- The answer holds of a single instant of the call. Other errors answer nothing. -/
def AnsweredAt (registry : Registry) (s : String) (clock : Int) (during : Service → Prop) :
    Except RegistryError Lease → Prop
  | .ok lease => ∃ instant, during instant ∧
      StoredFor registry s lease.ownerID lease.generation (lease.expiresAt-clock) instant
  | .error .notFound => ∃ instant, during instant ∧ Free registry s instant
  | .error _ => True

/-- No claim of the station among the calls stores a lease: its key is left as it is. -/
def NoGrant (registry : Registry) (s : String) : Service → List Action → Prop
  | _,[] => True
  | service,.call call::rest =>
    (∀ o ttl, call = .claim s o ttl →
      (service.perform registry call).redis (registry.leaseKey s) = service.redis (registry.leaseKey s)) ∧
      NoGrant registry s (service.perform registry call) rest
  | service,.wait nanoseconds::rest => NoGrant registry s (service.wait nanoseconds) rest

/-- A lease of the station that is live has a whole millisecond left. -/
def WholeMillisecond (registry : Registry) (s : String) (service : Service) : Prop :=
  ∀ item expiry, service.redis.live service.now (registry.leaseKey s) = some item →
    item.expiresAt = some expiry → service.now+millisecond ≤ expiry

def storedLease (o : String) (g : Int) (expiry : Int) : Item :=
  ⟨.hash (assignFields [("owner",o),("generation",Lua.text g)] fun _ => none),some expiry⟩

def Only (registry : Registry) (s o : String) (g : Int) (service : Service) : Prop :=
  ∀ item, service.redis.live service.now (registry.leaseKey s) = some item →
    ∃ expiry, item = storedLease o g expiry

/-- Whatever the count, the keys of the stations hold leases and the counter's key a string. -/
structure Formed (registry : Registry) (service : Service) : Prop where
  lease : ∀ s, s ≠ "generation" → ∀ item,
    service.redis.live service.now (registry.leaseKey s) = some item → ∃ o g expiry, item = storedLease o g expiry
  counter : ∀ item, service.redis.live service.now registry.generationKey = some item →
    ∃ text e, item = ⟨.string text,e⟩

section Step

/-- All a call can do to the key of a station. -/
theorem perform_leaseKey (registry : Registry) (service : Service) (call : Call)
    (hs : s ≠ "generation") :
    let after := (service.perform registry call).redis (registry.leaseKey s)
    after = service.redis (registry.leaseKey s) ∨ after = none ∨
    (∃ item expiry, service.redis.live service.now (registry.leaseKey s) = some item ∧
      after = some { item with expiresAt := some expiry }) ∨
    ∃ o ttl g expiry, call = .claim s o ttl ∧ after = some (storedLease o g expiry) := by
  intro after
  have hcounter : registry.leaseKey s ≠ registry.generationKey := fun h =>
    hs (registry.leaseKey_eq_generationKey.mp h)
  cases call with
  | claim s' o ttl =>
    by_cases hvalid : s' = "" ∨ o = "" ∨ ttl.toInt ≤ 0
    · left
      simp only [after,Service.perform,Call.run,Registry.claim,if_pos hvalid]
    · have hafter : after = (claimScript (registry.leaseKey s') registry.generationKey o
          (milliseconds ttl) service.now service.redis).2 (registry.leaseKey s) := by
        simp only [after,Service.perform,Call.run,Registry.claim,if_neg hvalid]
      by_cases he : s = s'
      · subst s'
        rcases Registry.claimScript_leaseKey hcounter o (milliseconds ttl) service.now service.redis with
          hsame | hnone | ⟨g,e,hgranted⟩
        · exact .inl (hafter.trans hsame)
        · exact .inr (.inl (hafter.trans hnone))
        · exact .inr (.inr (.inr ⟨o,ttl,g,e,rfl,hafter.trans hgranted⟩))
      · left
        rw [hafter]
        exact Registry.claimScript_writesOnly _ _ _ _ _ _ _ (by simp [he,hs])
  -- a renewal that passes its check moves the expiry, or deletes the key for a TTL below a millisecond
  | renew lease ttl =>
    rcases registry.renew_state lease ttl service.now service.redis with hsame | ⟨_,⟨item,hlive,_⟩,hextended⟩
    · exact .inl (congrFun hsame _)
    · have hafter : after = _ := congrFun hextended (registry.leaseKey s)
      by_cases he : s = lease.stationIdentity
      · rw [← he] at hlive hafter
        rw [pexpire_live hlive] at hafter
        by_cases hm : milliseconds ttl ≤ 0
        · rw [if_pos hm] at hafter
          exact .inr (.inl (by simp [hafter,Keyspace.erase]))
        · rw [if_neg hm] at hafter
          exact .inr (.inr (.inl ⟨item,_,hlive,by simp [hafter,Keyspace.set]; rfl⟩))
      · left
        rw [hafter]
        exact pexpire_writesOnly (List.mem_singleton_self _) _ _ _ _ (by simp [he])
  | release lease =>
    rcases registry.release_state lease service.now service.redis with hsame | ⟨_,herased⟩
    · exact .inl (congrFun hsame _)
    · have hafter : after = _ := congrFun herased (registry.leaseKey s)
      by_cases he : s = lease.stationIdentity
      · exact .inr (.inl (by simp [hafter,Keyspace.erase,he]))
      · exact .inl (by simp [hafter,Keyspace.erase,he])

theorem perform_live {call : Call} (hs : s ≠ "generation") {item : Item}
    (hi : (service.perform registry call).redis.live service.now (registry.leaseKey s) = some item) :
    (∃ item' expiry, service.redis.live service.now (registry.leaseKey s) = some item' ∧
      (item = item' ∨ item = { item' with expiresAt := some expiry })) ∨
    ∃ o ttl g expiry, call = .claim s o ttl ∧ item = storedLease o g expiry := by
  obtain ⟨hraw,hlive⟩ := Keyspace.live_eq_some.mp hi
  rcases perform_leaseKey registry service call hs with hsame | hnone | ⟨item',e,hl,hafter⟩ |
    ⟨o,ttl,g,e,hcall,hafter⟩
  · exact .inl ⟨item,0,Keyspace.live_eq_some.mpr ⟨hsame.symm.trans hraw,hlive⟩,.inl rfl⟩
  · rw [hnone] at hraw
    cases hraw
  · exact .inl ⟨item',e,hl,.inr (Option.some.inj (hraw.symm.trans hafter))⟩
  · exact .inr ⟨o,ttl,g,e,hcall,Option.some.inj (hraw.symm.trans hafter)⟩

theorem formed_start {ks : Keyspace} {now : Int} (h : registry.Unused ks now) :
    Formed registry (start ks now) where
  lease s _ item hi := by
    rw [start,h.1] at hi
    cases hi
  counter item hi := by
    rw [start,h.2] at hi
    cases hi

theorem Formed.wait (h : Formed registry service) (d : Nat) : Formed registry (service.wait d) := by
  have hle : service.now ≤ service.now+d := by omega
  constructor
  · intro s hs item hi
    rw [Service.wait,Keyspace.live_later hle] at hi
    exact h.lease s hs item (Option.eq_some_of_filter_eq_some hi)
  · intro item hi
    rw [Service.wait,Keyspace.live_later hle] at hi
    exact h.counter item (Option.eq_some_of_filter_eq_some hi)

theorem perform_counterKey (h : Formed registry service) (call : Call) :
    (service.perform registry call).redis registry.generationKey = service.redis registry.generationKey ∨
      ∃ text e, (service.perform registry call).redis registry.generationKey = some ⟨.string text,e⟩ := by
  -- the counter's key shows no lease, so renewals and releases of that name are turned away
  have hstation (lease : Lease) (hstored : registry.Stored service.redis service.now lease) :
      registry.generationKey ≠ registry.leaseKey lease.stationIdentity := by
    intro he
    obtain ⟨item,hi,f,hf,_⟩ := hstored
    rw [← he] at hi
    obtain ⟨text,e,rfl⟩ := h.counter item hi
    cases hf
  cases call with
  | claim s o ttl =>
    by_cases hvalid : s = "" ∨ o = "" ∨ ttl.toInt ≤ 0
    · left
      simp only [Service.perform,Call.run,Registry.claim,if_pos hvalid]
    · simp only [Service.perform,Call.run,Registry.claim,if_neg hvalid]
      exact Registry.claimScript_counterKey _ _ _ _ _ _
  | renew lease ttl =>
    left
    rcases registry.renew_state lease ttl service.now service.redis with hsame | ⟨_,hstored,hextended⟩
    · exact congrFun hsame _
    · refine (congrFun hextended _).trans ?_
      exact pexpire_writesOnly (List.mem_singleton_self _) _ _ _ _ (by simp [hstation lease hstored])
  | release lease =>
    left
    rcases registry.release_state lease service.now service.redis with hsame | ⟨hstored,herased⟩
    · exact congrFun hsame _
    · exact (congrFun herased _).trans (Keyspace.erase_ne _ (hstation lease hstored))

theorem Formed.perform (h : Formed registry service) (call : Call) :
    Formed registry (service.perform registry call) := by
  constructor
  · intro s hs item hi
    rcases perform_live hs hi with ⟨item',e,hl,hitem⟩ | ⟨o,_,g,e,_,rfl⟩
    · obtain ⟨o,g,expiry,rfl⟩ := h.lease s hs item' hl
      rcases hitem with rfl | rfl
      · exact ⟨o,g,expiry,rfl⟩
      · exact ⟨o,g,e,rfl⟩
    · exact ⟨o,g,e,rfl⟩
  · intro item hi
    obtain ⟨hraw,hlive⟩ := Keyspace.live_eq_some.mp hi
    rcases perform_counterKey h call with hsame | ⟨text,e,hstring⟩
    · exact h.counter item (Keyspace.live_eq_some.mpr ⟨hsame.symm.trans hraw,hlive⟩)
    · exact ⟨text,e,Option.some.inj (hraw.symm.trans hstring)⟩

theorem Formed.run (h : Formed registry service) (actions : List Action) :
    Formed registry (service.run registry actions) := by
  induction actions generalizing service with
  | nil => exact h
  | cons action rest ih =>
    cases action with
    | call call => exact ih (h.perform call)
    | wait d => exact ih (h.wait d)

variable {o : String} {g : Int}

theorem Only.wait (h : Only registry s o g service) (d : Nat) : Only registry s o g (service.wait d) := by
  intro item hi
  have hle : service.now ≤ service.now+d := by omega
  simp only [Service.wait,Keyspace.live_later hle] at hi
  exact h item (Option.eq_some_of_filter_eq_some hi)

theorem Only.perform (hs : s ≠ "generation") (h : Only registry s o g service) {call : Call}
    (hkept : ∀ o ttl, call = .claim s o ttl →
      (service.perform registry call).redis (registry.leaseKey s) = service.redis (registry.leaseKey s)) :
    Only registry s o g (service.perform registry call) := by
  intro item hi
  rcases perform_live hs hi with ⟨item',e,hl,hitem⟩ | ⟨o',ttl,_,_,hcall,_⟩
  · obtain ⟨expiry,rfl⟩ := h item' hl
    rcases hitem with rfl | rfl
    · exact ⟨expiry,rfl⟩
    · exact ⟨e,rfl⟩
  · obtain ⟨hraw,hlive⟩ := Keyspace.live_eq_some.mp hi
    rw [hkept o' ttl hcall] at hraw
    exact h item (Keyspace.live_eq_some.mpr ⟨hraw,hlive⟩)

theorem Only.run (hs : s ≠ "generation") (h : Only registry s o g service) {actions : List Action}
    (hdenied : NoGrant registry s service actions) :
    Only registry s o g (service.run registry actions) := by
  induction actions generalizing service with
  | nil => exact h
  | cons action rest ih =>
    cases action with
    | call call => exact ih (h.perform hs hdenied.1) hdenied.2
    | wait d => exact ih (h.wait d) hdenied

end Step

section Answer

variable {atHmget atPttl : Service} {clock : Int} {during : Service → Prop}

theorem answeredAt_free (hduring : during atHmget) (h : Free registry s atHmget) :
    AnsweredAt registry s clock during (registry.lookupAcross s atHmget atPttl clock) := by
  unfold Registry.lookupAcross
  rw [hmget_absent h]
  dsimp only
  split
  · trivial
  · exact ⟨atHmget,hduring,h⟩

theorem answeredAt_reserved (h : Formed registry atHmget) (hduring : during atHmget) :
    AnsweredAt registry "generation" clock during
      (registry.lookupAcross "generation" atHmget atPttl clock) := by
  have hcounter := h.counter
  rw [← registry.leaseKey_eq_generationKey.mpr rfl] at hcounter
  cases hl : atHmget.redis.live atHmget.now (registry.leaseKey "generation") with
  | none => exact answeredAt_free hduring hl
  | some item =>
    obtain ⟨text,e,rfl⟩ := hcounter item hl
    unfold Registry.lookupAcross hmget
    rw [hl]
    trivial

theorem answeredAt_held {o : String} {g expiry : Int}
    (hlive : atHmget.redis.live atHmget.now (registry.leaseKey s) = some (storedLease o g expiry))
    (honly : Only registry s o g atPttl) (hwhole : WholeMillisecond registry s atPttl)
    (hduring : during atPttl) :
    AnsweredAt registry s clock during (registry.lookupAcross s atHmget atPttl clock) := by
  unfold Registry.lookupAcross
  rw [hmget_hash hlive]
  cases hthen : atPttl.redis.live atPttl.now (registry.leaseKey s) with
  | none =>
    rw [pttl_absent hthen]
    simp only [List.map_cons,List.map_nil,assigned_owner,assigned_generation]
    exact ⟨atPttl,hduring,hthen⟩
  | some item =>
    obtain ⟨expiry,rfl⟩ := honly item hthen
    have hmillisecond : millisecond = 1000000 := rfl
    have hleft : ¬(expiry-atPttl.now)/millisecond ≤ 0 := by
      have hlater := hwhole _ expiry hthen rfl
      rw [hmillisecond] at hlater ⊢
      omega
    rw [pttl_live hthen]
    simp only [List.map_cons,List.map_nil,assigned_owner,assigned_generation,hleft,if_false]
    split
    · trivial
    · next generation hparse =>
      refine ⟨atPttl,hduring,_,expiry,hthen,⟨_,rfl,assigned_owner _ _ _,?_⟩,rfl,by simp⟩
      rw [assigned_generation,Lua.text_of_parseUint hparse]

theorem StoredFor.read {owner : String} {generation : UInt64} {remaining : Int}
    (h : StoredFor registry s owner generation remaining service) :
    (hget (registry.leaseKey s) "owner" service.now service.redis).1 = .ok (some owner) ∧
    ∃ n, (pttl (registry.leaseKey s) service.now service.redis).1 = .ok n ∧ remaining = n*millisecond := by
  obtain ⟨⟨value,_⟩,expiry,hlive,⟨f,rfl,howner,_⟩,rfl,hremaining⟩ := h
  exact ⟨by rw [hget_hash hlive,howner],_,by rw [pttl_live hlive],hremaining⟩

end Answer

end Service

/-- In every run, a lookup of a station is answered as of one instant of the call, if its first
command finds no lease, or no claim of the station is granted between its two commands and a lease
that the second finds has a whole millisecond left. -/
theorem lookup_linearizable (registry : Registry) (ks : Keyspace) (now : Int)
    (h : registry.Unused ks now) (before between after : List Service.Action) (s : String) :
    let atHmget := (Service.start ks now).run registry before
    let atPttl := atHmget.run registry between
    let atClock := atPttl.run registry after
    (Service.Free registry s atHmget ∨
      Service.NoGrant registry s atHmget between ∧ Service.WholeMillisecond registry s atPttl) →
    Service.AnsweredAt registry s atClock.now (Service.Passes registry atHmget (between ++ after))
      (registry.lookupAcross s atHmget atPttl atClock.now) := by
  intro atHmget atPttl atClock hquiet
  have hformed : Service.Formed registry atHmget := (Service.formed_start h).run before
  have hfirst : Service.Passes registry atHmget (between ++ after) atHmget := .here _ _
  have hsecond := Service.passes_append registry atHmget between after
  rcases hquiet with hfree | ⟨hdenied,hwhole⟩
  · exact Service.answeredAt_free hfirst hfree
  · by_cases hg : s = "generation"
    · subst s
      exact Service.answeredAt_reserved hformed hfirst
    · cases hl : atHmget.redis.live atHmget.now (registry.leaseKey s) with
      | none => exact Service.answeredAt_free hfirst hl
      | some item =>
        obtain ⟨o,g,expiry,rfl⟩ := hformed.lease s hg item hl
        have honly : Service.Only registry s o g atHmget := by
          intro item hi
          exact ⟨expiry,Option.some.inj (hi.symm.trans hl)⟩
        exact Service.answeredAt_held hl (honly.run hg hdenied) hwhole hsecond

theorem lookup_linearizable_renewed :
    let atHmget := (Service.start Keyspace.empty 0).run ⟨"csms"⟩
      [.call (.claim "station-1" "runtime-a" 30000000000),.wait 10000000000]
    let between : List Service.Action :=
      [.call (.renew ⟨"station-1","runtime-a",1,30000000000⟩ 30000000000),.wait 1000000000]
    let atPttl := atHmget.run ⟨"csms"⟩ between
    Registry.lookupAcross ⟨"csms"⟩ "station-1" atHmget atPttl atPttl.now =
      .ok ⟨"station-1","runtime-a",1,40000000000⟩ ∧
    Service.AnsweredAt ⟨"csms"⟩ "station-1" atPttl.now (Service.Passes ⟨"csms"⟩ atHmget (between ++ []))
      (Registry.lookupAcross ⟨"csms"⟩ "station-1" atHmget atPttl atPttl.now) := by
  intro atHmget between atPttl
  have hfresh : (⟨"csms"⟩ : Registry).Unused Keyspace.empty 0 := ⟨fun _ => rfl,rfl⟩
  refine ⟨by decide +kernel,lookup_linearizable ⟨"csms"⟩ Keyspace.empty 0 hfresh _ between [] "station-1"
    (.inr ⟨⟨fun o ttl hc => (by cases hc),trivial⟩,fun item expiry hi he => ?_⟩)⟩
  have hexpiry : (atPttl.redis.live atPttl.now (Registry.leaseKey ⟨"csms"⟩ "station-1")).bind
      Item.expiresAt = some 40000000000 := by decide +kernel
  rw [hi] at hexpiry
  cases he.symm.trans hexpiry
  decide

/-- A release and another runtime's claim between the two commands: the lookup answers with the old
owner and generation and the new lease's minute, which no instant of the call had together. -/
theorem lookup_tornReply :
    let atHmget := (Service.start Keyspace.empty 0).run ⟨"csms"⟩
      [.call (.claim "station-1" "runtime-a" 30000000000)]
    let between : List Service.Action := [.call (.release ⟨"station-1","runtime-a",1,30000000000⟩),
      .call (.claim "station-1" "runtime-b" 60000000000)]
    let atPttl := atHmget.run ⟨"csms"⟩ between
    let answer := Registry.lookupAcross ⟨"csms"⟩ "station-1" atHmget atPttl atPttl.now
    answer = .ok ⟨"station-1","runtime-a",1,60000000000⟩ ∧
    ¬Service.AnsweredAt ⟨"csms"⟩ "station-1" atPttl.now
      (Service.Passes ⟨"csms"⟩ atHmget between) answer := by
  intro atHmget between atPttl answer
  have hanswer : answer = .ok ⟨"station-1","runtime-a",1,60000000000⟩ := by decide +kernel
  refine ⟨hanswer,?_⟩
  rw [hanswer]
  rintro ⟨instant,hpasses,hstored⟩
  obtain ⟨howner,n,hn,hremaining⟩ := hstored.read
  rcases Service.passes_call hpasses with rfl | hpasses
  · have hthirty : (pttl (Registry.leaseKey ⟨"csms"⟩ "station-1") atHmget.now atHmget.redis).1 =
      .ok 30000 := by decide +kernel
    cases hthirty.symm.trans hn
    exact absurd hremaining (by decide)
  · rcases Service.passes_call hpasses with rfl | hpasses
    · exact absurd howner (by decide +kernel)
    · rw [Service.passes_nil hpasses] at howner
      exact absurd howner (by decide +kernel)

end CsmsPlatform
