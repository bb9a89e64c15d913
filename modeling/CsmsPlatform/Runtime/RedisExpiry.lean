import CsmsPlatform.Framework.Redis.Expiry
import CsmsPlatform.Runtime.SharedRedis

/-!
# What stays in Redis

Leases, rate counters, results and completion records are all written with a time to live, also where a
script or a transaction takes two commands for it. Only the generation counter and the command streams
are there for good.
-/

namespace CsmsPlatform

open Redis Script

open Keyspace (ExpiresBy)

def Lasting (registry : Registry) (bus : Bus) (key : String) : Prop :=
  key = registry.generationKey ∨ ∃ ownerID, key = bus.commandStream ownerID

section Calls

variable {K : String → Prop} {deadline now : Int} {ks : Keyspace}

theorem wrapFault_state {α : Type} (context : String) (m : Script α) (now : Int) (ks : Keyspace) :
    (wrapFault context m now ks).2 = (m now ks).2 := by
  unfold wrapFault
  generalize m now ks = outcome
  obtain ⟨_ | a,ks'⟩ := outcome <;> rfl

theorem map_state {α β : Type} (call : BusCall α) (f : α → β) (now : Int) (ks : Keyspace) :
    (call.map f now ks).2 = (call now ks).2 := by
  unfold BusCall.map
  generalize call now ks = outcome
  obtain ⟨_ | a,ks'⟩ := outcome <;> rfl

section Bus

variable (bus : Bus)

theorem pollResult_expires (h : ks.ExpiresBy K deadline) (commandID : String) :
    (bus.pollResult commandID now ks).2.ExpiresBy K deadline := by
  unfold Bus.pollResult
  by_cases hid : commandID = ""
  · rw [if_pos hid]
    exact h
  · rw [if_neg hid]
    have hpop : (rpop (bus.resultKey commandID) now ks).2.ExpiresBy K deadline := (rpop_leaves _).state h
    rw [← wrapFault_state "await Redis command result"] at hpop
    generalize wrapFault _ _ now ks = outcome at hpop
    obtain ⟨err | _ | value,ks'⟩ := outcome
    · exact hpop
    · exact hpop
    · dsimp only
      cases decodeResult value <;> exact hpop

theorem completed_state (commandID : String) (now : Int) (ks : Keyspace) :
    (bus.completed commandID now ks).2 = ks := by
  have hget : (wrapFault "read completed Redis command" (get (bus.completionKey commandID)) now ks).2 = ks := by
    rw [wrapFault_state]
    unfold Redis.get
    split <;> rfl
  unfold Bus.completed
  generalize wrapFault _ _ now ks = outcome at hget
  obtain ⟨err | _ | content,ks'⟩ := outcome
  · exact hget
  · exact hget
  · dsimp only
    cases decodeResult content <;> exact hget

theorem completion_expires (h : ks.ExpiresBy K deadline) (hnow : now ≤ deadline)
    (hset : now+setTTL bus.resultTTL.toInt ≤ deadline)
    (hexpire : now+expireTTL bus.resultTTL.toInt ≤ deadline) (commandID content : String) :
    (bus.completion commandID content now ks).2.ExpiresBy K deadline := by
  apply Leaves.state _ h
  apply leaves_transaction (setEx_leaves _ _ hset)
  apply leaves_transaction (lpush_leaves (bus.resultKey commandID) content).ignore
  apply leaves_transaction (expire_leaves (bus.resultKey commandID) hnow hexpire).ignore
  exact fun _ h => h

theorem complete_expires (h : ks.ExpiresBy K deadline) (hnow : now ≤ deadline)
    (hset : now+setTTL bus.resultTTL.toInt ≤ deadline)
    (hexpire : now+expireTTL bus.resultTTL.toInt ≤ deadline) (result : Result) :
    (bus.complete result now ks).2.ExpiresBy K deadline := by
  unfold Bus.complete
  by_cases hid : result.commandID = ""
  · rw [if_pos hid]
    exact h
  · rw [if_neg hid]
    cases encodeResult (result.stamp now) with
    | none => exact h
    | some content =>
      dsimp only
      rw [wrapFault_state]
      exact completion_expires bus h hnow hset hexpire result.commandID content

theorem BusMethod.perform_expires (hK : ∀ ownerID, K (bus.commandStream ownerID))
    (h : ks.ExpiresBy K deadline) (hnow : now ≤ deadline)
    (hset : now+setTTL bus.resultTTL.toInt ≤ deadline)
    (hexpire : now+expireTTL bus.resultTTL.toInt ≤ deadline) (method : BusMethod) :
    (method.perform bus now ks).2.ExpiresBy K deadline := by
  cases method with
  | publish command evict => exact h.of_local (busMap_local (publish_local bus command evict (hK _)) _)
  | createGroup ownerID => exact h.of_local (busMap_local (createGroup_local bus ownerID (hK _)) _)
  | recoverPending ownerID =>
    exact h.of_local (busMap_local (wrapFault_local _ (xautoclaim_local (hK ownerID) _ _ _)) _)
  | readNew ownerID =>
    exact h.of_local (busMap_local (wrapFault_local _ (xreadGroup_local (hK ownerID) _ _)) _)
  | ack ownerID message =>
    exact h.of_local (busMap_local (wrapFault_local _ (xack_local (hK ownerID) _ _).ignore) _)
  | pollResult commandID =>
    change ((bus.pollResult commandID).map _ now ks).2.ExpiresBy K deadline
    rw [map_state]
    exact pollResult_expires bus h commandID
  | completed commandID =>
    change ((bus.completed commandID).map _ now ks).2.ExpiresBy K deadline
    rw [map_state,completed_state]
    exact h
  | complete result =>
    change ((bus.complete result).map _ now ks).2.ExpiresBy K deadline
    rw [map_state]
    exact complete_expires bus h hnow hset hexpire result

end Bus

section Registry

variable (registry : Registry)

theorem claimScript_expires {leaseKey generationKey : String} (hK : K generationKey)
    (h : ks.ExpiresBy K deadline) (hnow : now ≤ deadline) (owner : String) {ttl : Int}
    (httl : now+ttl*millisecond ≤ deadline) :
    (claimScript leaseKey generationKey owner ttl now ks).2.ExpiresBy K deadline := by
  apply Leaves.state _ h
  unfold claimScript
  refine ((keyExists_readOnly leaseKey).leaves fun _ h => h).bind fun found => ?_
  cases found with
  | true =>
    refine ((hget_readOnly leaseKey _).leaves fun _ h => h).bind fun _ => ?_
    refine ((hget_readOnly leaseKey _).leaves fun _ h => h).bind fun _ => ?_
    exact ((pttl_readOnly leaseKey).leaves fun _ h => h).bind fun _ => leaves_pure fun _ h => h
  | false =>
    have hcounter : Leaves now (ExpiresBy K deadline) (incr generationKey)
        (fun _ => ExpiresBy K deadline) (ExpiresBy K deadline) :=
      leaves_state fun ks h => h.of_local (incr_local hK)
    refine hcounter.bind fun generation => (hset_leaves leaseKey _).bind fun _ => ?_
    exact (pexpire_leaves leaseKey hnow httl).bind fun _ => leaves_pure fun _ h => h

def RegistryCall.ttl : RegistryCall → Option Int64
  | .claim _ _ ttl => some ttl
  | .renew _ ttl => some ttl
  | .release _ => none
  | .lookupFields _ => none
  | .lookupTTL _ => none

theorem RegistryCall.perform_expires (hK : K registry.generationKey) (h : ks.ExpiresBy K deadline)
    (hnow : now ≤ deadline) (call : RegistryCall)
    (httl : ∀ ttl, call.ttl = some ttl → now+ttl.toInt ≤ deadline) :
    (call.perform registry now ks).2.ExpiresBy K deadline := by
  cases call with
  | claim stationIdentity ownerID ttl =>
    change (registry.claim stationIdentity ownerID ttl now ks).2.ExpiresBy K deadline
    unfold Registry.claim
    by_cases hinvalid : stationIdentity = "" ∨ ownerID = "" ∨ ttl.toInt ≤ 0
    · rw [if_pos hinvalid]
      exact h
    · rw [if_neg hinvalid]
      have hms : milliseconds ttl*millisecond ≤ ttl.toInt := Registry.milliseconds_le (by omega)
      have htime := httl ttl rfl
      exact claimScript_expires hK h hnow ownerID (by omega)
  | renew lease ttl =>
    change (registry.renew lease ttl now ks).2.ExpiresBy K deadline
    rcases registry.renew_state lease ttl now ks with hsame | ⟨hpos,_,hextended⟩
    · rw [hsame]
      exact h
    · have hms : milliseconds ttl*millisecond ≤ ttl.toInt := Registry.milliseconds_le hpos.le
      have htime := httl ttl rfl
      rw [hextended]
      exact (pexpire_leaves (registry.leaseKey lease.stationIdentity) hnow (by omega)).state h.weaken
  | release lease =>
    change (registry.release lease now ks).2.ExpiresBy K deadline
    rcases registry.release_state lease now ks with hsame | ⟨_,herased⟩
    · rw [hsame]
      exact h
    · rw [herased]
      exact h.erase
  | lookupFields stationIdentity =>
    change (hmget (registry.leaseKey stationIdentity) ["owner","generation"] now ks).2.ExpiresBy K deadline
    rw [hmget_readOnly]
    exact h
  | lookupTTL stationIdentity =>
    change (pttl (registry.leaseKey stationIdentity) now ks).2.ExpiresBy K deadline
    rw [pttl_readOnly]
    exact h

end Registry

theorem allow_expires (limiter : RateLimiter) (h : ks.ExpiresBy K deadline) (hnow : now ≤ deadline)
    (hwindow : now+milliseconds limiter.window*millisecond ≤ deadline) (subject : String) :
    (limiter.allow subject now ks).2.ExpiresBy K deadline := by
  have hcount : (commandRateScript (limiter.counterKey subject (limiter.windowID now))
      (milliseconds limiter.window) now ks).2.ExpiresBy K deadline := by
    apply Leaves.state _ h
    refine (incr_leaves _).bind fun count => ?_
    have hone : Lua.number 1 = 1 := by decide
    by_cases hfirst : count = 1
    · simp only [hfirst,hone,if_true]
      exact (pexpire_leaves _ hnow hwindow).bind fun _ => leaves_pure fun _ h => h
    · rw [if_neg hfirst]
      by_cases hcount : Lua.number count = 1
      · simp only [hcount,if_true]
        exact (leaves_state fun ks h => (pexpire_leaves _ hnow hwindow).state h.weaken).bind fun _ =>
          leaves_pure fun _ h => h
      · simp only [hcount,if_false]
        exact leaves_pure fun _ h => h
  unfold RateLimiter.allow
  generalize commandRateScript _ _ now ks = outcome at hcount
  obtain ⟨fault | count,ks'⟩ := outcome <;> exact hcount

end Calls

def fiveMinutes : Int64 := 300000000000

/-- Whatever the registry, the bus and the rate limiter of any runtimes call on the one Redis, once no
call has come for as long as a lease and a result live, the generation counter and the command streams
are all that is left in it. -/
theorem redis_runs_out (limit leaseTTL : Int64)
    (calls : (user : RedisUser) → List user.Reply → user.Call)
    (hleases : ∀ replies ttl, RegistryCall.ttl (calls .registry replies) = some ttl →
      ttl.toInt ≤ leaseTTL.toInt)
    (turns : List (Int × RedisUser)) (last : Int) (hlast : ∀ turn ∈ turns, turn.1 ≤ last) (now : Int)
    (hquiet : last+max fiveMinutes.toInt leaseTTL.toInt ≤ now) :
    let client (user : RedisUser) : Client user.Reply := fun replies =>
      user.perform ⟨"csms"⟩ ⟨"csms",fiveMinutes⟩ ⟨"csms",limit,minute⟩ (calls user replies)
    let redis := ((Shared.mk (fun _ => []) Keyspace.empty).run client turns).redis
    ∀ key item, redis.live now key = some item → Lasting ⟨"csms"⟩ ⟨"csms",fiveMinutes⟩ key := by
  intro client redis key item hlive
  have hresult : fiveMinutes.toInt = 300000000000 := by decide
  have hset : setTTL fiveMinutes.toInt = 300000000000 := by decide
  have hexpire : expireTTL fiveMinutes.toInt = 300000000000 := by decide
  have hwindow : milliseconds minute*millisecond = 60000000000 := by decide
  have hrun : redis.ExpiresBy (Lasting ⟨"csms"⟩ ⟨"csms",fiveMinutes⟩)
      (last+max fiveMinutes.toInt leaseTTL.toInt) := by
    apply Shared.run_keeps _ .empty
    intro turn hturn replies ks h
    obtain ⟨time,user⟩ := turn
    have htime : time ≤ last := hlast _ hturn
    have hbefore : time ≤ last+max fiveMinutes.toInt leaseTTL.toInt := by omega
    cases user with
    | registry =>
      apply RegistryCall.perform_expires ⟨"csms"⟩ (.inl rfl) h hbefore
      intro ttl httl
      have hbound := hleases replies ttl httl
      omega
    | bus =>
      exact BusMethod.perform_expires ⟨"csms",fiveMinutes⟩ (fun ownerID => .inr ⟨ownerID,rfl⟩) h hbefore
        (by dsimp only; omega) (by dsimp only; omega) _
    | limiter => exact allow_expires ⟨"csms",limit,minute⟩ h hbefore (by dsimp only; omega) _
  exact hrun.live hquiet hlive

def startedRuntime : (user : RedisUser) → List user.Reply → user.Call
  | .registry, _ => RegistryCall.claim "station-1" "runtime-a" 30000000000
  | .bus, _ => BusMethod.createGroup "runtime-a"
  | .limiter, _ => "f44e64e75f3948e9"

theorem redis_runs_out_startedRuntime :
    let client (user : RedisUser) : Client user.Reply := fun replies =>
      user.perform ⟨"csms"⟩ ⟨"csms",fiveMinutes⟩ ⟨"csms",10,minute⟩ (startedRuntime user replies)
    let redis := ((Shared.mk (fun _ => []) Keyspace.empty).run client
      [(0,.bus),(1000,.limiter),(2000,.registry)]).redis
    (redis.live 3000 "csms:session:station-1").isSome ∧
    (redis.live 300000002000 "csms:commands:runtime-a").isSome ∧
    ∀ key item, redis.live 300000002000 key = some item →
      Lasting ⟨"csms"⟩ ⟨"csms",fiveMinutes⟩ key := by
  intro client redis
  refine ⟨by decide +kernel,by decide +kernel,?_⟩
  refine redis_runs_out 10 30000000000 startedRuntime ?_ _ 2000 (by decide) _ (by decide)
  intro replies ttl httl
  cases httl
  exact Int.le_refl _

end CsmsPlatform
