import CsmsPlatform.CommandBus.System
import CsmsPlatform.Runtime.RateLimit
import CsmsPlatform.Framework.Redis.Footprint

/-!
# Three users of one Redis

The registry, the command bus and the rate limiter of every runtime are given one client and one key
prefix. Each of their calls is local to keys of its own, so what is known of each of them on a Redis
that it has for itself holds of it on the shared one.
-/

namespace CsmsPlatform

open Redis

inductive RedisUser where
  | registry
  | bus
  | limiter
deriving DecidableEq, Repr

/-- The calls of the registry on Redis: the three scripts, and the two commands of `Lookup`. -/
inductive RegistryCall where
  | claim (stationIdentity ownerID : String) (ttl : Int64)
  | renew (lease : Lease) (ttl : Int64)
  | release (lease : Lease)
  | lookupFields (stationIdentity : String)
  | lookupTTL (stationIdentity : String)
deriving DecidableEq, Repr

inductive RegistryReply where
  | lease (lease : Lease)
  | released
  | fields (values : List (Option String))
  | remaining (milliseconds : Int)
deriving DecidableEq, Repr

def RegistryCall.perform (registry : Registry) (call : RegistryCall) (now : Int) (ks : Keyspace) :
    Except RegistryError RegistryReply × Keyspace :=
  match call with
  | .claim stationIdentity ownerID ttl =>
    ((registry.claim stationIdentity ownerID ttl now ks).1.map .lease,
      (registry.claim stationIdentity ownerID ttl now ks).2)
  | .renew lease ttl => ((registry.renew lease ttl now ks).1.map .lease,(registry.renew lease ttl now ks).2)
  | .release lease =>
    ((registry.release lease now ks).1.map fun _ => .released,(registry.release lease now ks).2)
  | .lookupFields stationIdentity =>
    let reply := hmget (registry.leaseKey stationIdentity) ["owner","generation"] now ks
    ((reply.1.mapError (.redis "lookup redis session lease")).map .fields,reply.2)
  | .lookupTTL stationIdentity =>
    let reply := pttl (registry.leaseKey stationIdentity) now ks
    ((reply.1.mapError (.redis "lookup redis session TTL")).map .remaining,reply.2)

inductive BusMethod where
  | publish (command : Command) (evict : Nat)
  | pollResult (commandID : String)
  | createGroup (ownerID : String)
  | recoverPending (ownerID : String)
  | readNew (ownerID : String)
  | completed (commandID : String)
  | complete (result : Result)
  | ack (ownerID : String) (message : StreamEntry)
deriving DecidableEq, Repr

inductive BusReply where
  | done
  | result (result : Option Result)
  | messages (messages : Option (List StreamEntry))
deriving DecidableEq, Repr

def BusMethod.perform (bus : Bus) : BusMethod → BusCall BusReply
  | .publish command evict => (bus.publish command evict).map fun _ => .done
  | .pollResult commandID => (bus.pollResult commandID).map .result
  | .createGroup ownerID => (bus.createGroup ownerID).map fun _ => .done
  | .recoverPending ownerID => (bus.recoverPending ownerID).map fun messages => .messages (some messages)
  | .readNew ownerID => (bus.readNew ownerID).map .messages
  | .completed commandID => (bus.completed commandID).map .result
  | .complete result => (bus.complete result).map fun _ => .done
  | .ack ownerID message => (bus.ack ownerID message).map fun _ => .done

/-! ## Every call is local -/

section Calls

variable {K : String → Prop}

theorem wrapFault_local {α : Type} (context : String) {m : Script α} (hm : Local K m) :
    Local K (wrapFault context m) := by
  apply hm.map
  intro now reply
  cases reply with
  | ok a => exact ⟨_,fun ks ks' h => by simp only [wrapFault,h]; rfl⟩
  | error fault => exact ⟨_,fun ks ks' h => by simp only [wrapFault,h]; rfl⟩

theorem busMap_local {α β : Type} {call : BusCall α} (hcall : Local K call) (f : α → β) :
    Local K (call.map f) := by
  apply hcall.map
  intro now reply
  cases reply with
  | ok a => exact ⟨_,fun ks ks' h => by simp only [BusCall.map,h]; rfl⟩
  | error err => exact ⟨_,fun ks ks' h => by simp only [BusCall.map,h]; rfl⟩

section Bus

variable (bus : Bus)

theorem publish_local (command : Command) (evict : Nat) (h : K (bus.commandStream command.ownerID)) :
    Local K (bus.publish command evict) := by
  refine local_of_eq fun now => ?_
  cases hv : validateCommand command with
  | error err => exact ⟨_,local_pure (.error (.codec err)),fun ks => by simp only [Bus.publish,hv]⟩
  | ok u =>
    exact ⟨_,wrapFault_local "publish Redis command" (xadd_local h streamMaxLen evict
      (commandFields command)).ignore,
      fun ks => by simp only [Bus.publish,hv]⟩

theorem pollResult_local (commandID : String) (h : K (bus.resultKey commandID)) :
    Local K (bus.pollResult commandID) := by
  by_cases hid : commandID = ""
  · exact local_of_eq fun now => ⟨_,local_pure (.error (.codec (.invalidCommand "command ID is required"))),
      fun ks => by simp only [Bus.pollResult,if_pos hid]⟩
  · apply (wrapFault_local "await Redis command result" (rpop_local h)).map
    intro now reply
    rcases reply with err | _ | value
    · exact ⟨_,fun ks ks' h => by simp only [Bus.pollResult,if_neg hid,h]; rfl⟩
    · exact ⟨_,fun ks ks' h => by simp only [Bus.pollResult,if_neg hid,h]; rfl⟩
    · cases hd : decodeResult value with
      | none => exact ⟨_,fun ks ks' h => by simp only [Bus.pollResult,if_neg hid,h,hd]; rfl⟩
      | some result => exact ⟨_,fun ks ks' h => by simp only [Bus.pollResult,if_neg hid,h,hd]; rfl⟩

theorem createGroup_local (ownerID : String) (h : K (bus.commandStream ownerID)) :
    Local K (bus.createGroup ownerID) := by
  apply (xgroupCreate_local h consumerGroup).map
  intro now reply
  cases reply with
  | ok u => exact ⟨_,fun ks ks' h => by simp only [Bus.createGroup,h]; rfl⟩
  | error fault =>
    by_cases hb : isBusyGroup fault = true
    · exact ⟨_,fun ks ks' h => by simp only [Bus.createGroup,h,if_pos hb]; rfl⟩
    · exact ⟨_,fun ks ks' h => by simp only [Bus.createGroup,h,if_neg hb]; rfl⟩

theorem completed_local (commandID : String) (h : K (bus.completionKey commandID)) :
    Local K (bus.completed commandID) := by
  apply (wrapFault_local "read completed Redis command" (get_local h)).map
  intro now reply
  rcases reply with err | _ | content
  · exact ⟨_,fun ks ks' h => by simp only [Bus.completed,h]; rfl⟩
  · exact ⟨_,fun ks ks' h => by simp only [Bus.completed,h]; rfl⟩
  · cases hd : decodeResult content with
    | none => exact ⟨_,fun ks ks' h => by simp only [Bus.completed,h,hd]; rfl⟩
    | some result => exact ⟨_,fun ks ks' h => by simp only [Bus.completed,h,hd]; rfl⟩

theorem completion_local (commandID content : String) (hc : K (bus.completionKey commandID))
    (hr : K (bus.resultKey commandID)) : Local K (bus.completion commandID content) := by
  apply transaction_local
  intro m hm
  simp only [List.mem_cons,List.not_mem_nil,or_false] at hm
  rcases hm with rfl | rfl | rfl
  · exact setEx_local hc _ _
  · exact (lpush_local hr _).ignore
  · exact (expire_local hr _).ignore

theorem complete_local (result : Result) (hc : K (bus.completionKey result.commandID))
    (hr : K (bus.resultKey result.commandID)) : Local K (bus.complete result) := by
  refine local_of_eq fun now => ?_
  by_cases hid : result.commandID = ""
  · exact ⟨_,local_pure (.error (.required "command result ID is required")),
      fun ks => by simp only [Bus.complete,if_pos hid]⟩
  · cases he : encodeResult (result.stamp now) with
    | none =>
      exact ⟨_,local_pure (.error (.json "encode Redis command result")),
        fun ks => by simp only [Bus.complete,if_neg hid,he]⟩
    | some content =>
      exact ⟨_,wrapFault_local "complete Redis command" (completion_local bus result.commandID content hc hr),
        fun ks => by simp only [Bus.complete,if_neg hid,he]⟩

theorem BusMethod.perform_local (hs : ∀ o, K (bus.commandStream o)) (hr : ∀ id, K (bus.resultKey id))
    (hc : ∀ id, K (bus.completionKey id)) (method : BusMethod) : Local K (method.perform bus) := by
  cases method with
  | publish command evict => exact busMap_local (publish_local bus command evict (hs _)) _
  | pollResult commandID => exact busMap_local (pollResult_local bus commandID (hr _)) _
  | createGroup ownerID => exact busMap_local (createGroup_local bus ownerID (hs _)) _
  | recoverPending ownerID =>
    exact busMap_local (wrapFault_local _ (xautoclaim_local (hs ownerID) consumerGroup pendingMinIdle 10)) _
  | readNew ownerID =>
    exact busMap_local (wrapFault_local _ (xreadGroup_local (hs ownerID) consumerGroup 1)) _
  | completed commandID => exact busMap_local (completed_local bus commandID (hc _)) _
  | complete result => exact busMap_local (complete_local bus result (hc _) (hr _)) _
  | ack ownerID message =>
    exact busMap_local (wrapFault_local _ (xack_local (hs ownerID) consumerGroup message.id).ignore) _

end Bus

section Registry

variable (registry : Registry)

theorem claimScript_local {leaseKey generationKey : String} (hl : K leaseKey) (hg : K generationKey)
    (owner : String) (ttl : Int) : Local K (claimScript leaseKey generationKey owner ttl) := by
  unfold claimScript
  refine (keyExists_local hl).bind fun found => ?_
  cases found with
  | true =>
    exact (hget_local hl _).bind fun _ => (hget_local hl _).bind fun _ => (pttl_local hl).bind fun _ =>
      local_pure _
  | false =>
    exact (incr_local hg).bind fun _ => (hset_local hl _).bind fun _ => (pexpire_local hl _).bind fun _ =>
      local_pure _

theorem checkedScript_local {leaseKey : String} (hl : K leaseKey) (owner generation : String)
    {m : Script Int} (hm : Local K m) :
    Local K (do
      let current ← hget leaseKey "owner"
      let held ← hget leaseKey "generation"
      if current ≠ some owner ∨ held ≠ some generation then
        return 0
      m : Script Int) := by
  refine (hget_local hl _).bind fun current => (hget_local hl _).bind fun held => ?_
  by_cases h : current ≠ some owner ∨ held ≠ some generation
  · rw [if_pos h]
    exact local_pure _
  · rw [if_neg h]
    exact hm

theorem claim_local (stationIdentity ownerID : String) (ttl : Int64)
    (hl : K (registry.leaseKey stationIdentity)) (hg : K registry.generationKey) :
    Local K (registry.claim stationIdentity ownerID ttl) := by
  by_cases h : stationIdentity = "" ∨ ownerID = "" ∨ ttl.toInt ≤ 0
  · exact local_of_eq fun now => ⟨_,local_pure _,fun ks => by simp only [Registry.claim,if_pos h]; rfl⟩
  · apply (claimScript_local hl hg ownerID (milliseconds ttl)).map
    intro now result
    exact ⟨_,fun ks ks' hs => by simp only [Registry.claim,if_neg h,hs]; rfl⟩

theorem renew_local (lease : Lease) (ttl : Int64) (hl : K (registry.leaseKey lease.stationIdentity)) :
    Local K (registry.renew lease ttl) := by
  by_cases h : ttl.toInt ≤ 0
  · exact local_of_eq fun now => ⟨_,local_pure _,fun ks => by simp only [Registry.renew,if_pos h]; rfl⟩
  · have hscript : Local K (renewScript (registry.leaseKey lease.stationIdentity) lease.ownerID
        (toString lease.generation) (milliseconds ttl)) :=
      checkedScript_local hl _ _ ((pexpire_local hl _).bind fun _ => local_pure _)
    apply hscript.map
    intro now reply
    cases reply with
    | error fault => exact ⟨_,fun ks ks' hs => by simp only [Registry.renew,if_neg h,hs]; rfl⟩
    | ok result =>
      by_cases h1 : result ≠ 1
      · exact ⟨_,fun ks ks' hs => by simp only [Registry.renew,if_neg h,hs,if_pos h1]; rfl⟩
      · exact ⟨_,fun ks ks' hs => by simp only [Registry.renew,if_neg h,hs,if_neg h1]; rfl⟩

theorem release_local (lease : Lease) (hl : K (registry.leaseKey lease.stationIdentity)) :
    Local K (registry.release lease) := by
  have hscript : Local K (releaseScript (registry.leaseKey lease.stationIdentity) lease.ownerID
      (toString lease.generation)) := checkedScript_local hl _ _ (del_local hl)
  apply hscript.map
  intro now reply
  cases reply with
  | error fault => exact ⟨_,fun ks ks' hs => by simp only [Registry.release,hs]; rfl⟩
  | ok result =>
    by_cases h1 : result ≠ 1
    · exact ⟨_,fun ks ks' hs => by simp only [Registry.release,hs,if_pos h1]; rfl⟩
    · exact ⟨_,fun ks ks' hs => by simp only [Registry.release,hs,if_neg h1]; rfl⟩

theorem RegistryCall.perform_local (hl : ∀ identity, K (registry.leaseKey identity))
    (hg : K registry.generationKey) (call : RegistryCall) : Local K (call.perform registry) := by
  cases call with
  | claim stationIdentity ownerID ttl =>
    exact (claim_local registry stationIdentity ownerID ttl (hl _) hg).mapReply fun reply =>
      reply.map RegistryReply.lease
  | renew lease ttl =>
    exact (renew_local registry lease ttl (hl _)).mapReply fun reply => reply.map RegistryReply.lease
  | release lease =>
    exact (release_local registry lease (hl _)).mapReply fun reply =>
      reply.map fun _ => RegistryReply.released
  | lookupFields stationIdentity =>
    exact (hmget_local (hl stationIdentity) ["owner","generation"]).mapReply fun reply =>
      (reply.mapError (RegistryError.redis "lookup redis session lease")).map RegistryReply.fields
  | lookupTTL stationIdentity =>
    exact (pttl_local (hl stationIdentity)).mapReply fun reply =>
      (reply.mapError (RegistryError.redis "lookup redis session TTL")).map RegistryReply.remaining

end Registry

end Calls

/-! ## One Redis for all -/

namespace RedisUser

def Call : RedisUser → Type
  | .registry => RegistryCall
  | .bus => BusMethod
  | .limiter => String

def Reply : RedisUser → Type
  | .registry => Except RegistryError RegistryReply
  | .bus => Except BusError BusReply
  | .limiter => Except String Bool

def Names : RedisUser → KeyName → Prop
  | .registry, name => (∃ identity, name = .lease identity) ∨ name = .generation
  | .bus, name => (∃ ownerID, name = .commands ownerID) ∨ (∃ commandID, name = .results commandID) ∨
    ∃ commandID, name = .completions commandID
  | .limiter, name => ∃ subject windowID, name = .rate subject windowID

variable (registry : Registry) (bus : Bus) (limiter : RateLimiter)

def perform : (user : RedisUser) → user.Call → Int → Keyspace → user.Reply × Keyspace
  | .registry, call => RegistryCall.perform registry call
  | .bus, call => BusMethod.perform bus call
  | .limiter, subject => limiter.allow subject

def Keys (user : RedisUser) (key : String) : Prop :=
  ∃ name, user.Names name ∧ key = name.render registry bus limiter

theorem perform_local (user : RedisUser) (call : user.Call) :
    Local (user.Keys registry bus limiter) (user.perform registry bus limiter call) := by
  cases user with
  | registry =>
    exact RegistryCall.perform_local registry (fun identity => ⟨.lease identity,.inl ⟨_,rfl⟩,rfl⟩)
      ⟨.generation,.inr rfl,rfl⟩ call
  | bus =>
    exact BusMethod.perform_local bus (fun o => ⟨.commands o,.inl ⟨_,rfl⟩,rfl⟩)
      (fun id => ⟨.results id,.inr (.inl ⟨_,rfl⟩),rfl⟩)
      (fun id => ⟨.completions id,.inr (.inr ⟨_,rfl⟩),rfl⟩) call
  | limiter => exact limiter.allow_local call fun w => ⟨.rate call w,⟨_,_,rfl⟩,rfl⟩

theorem names_tag {user : RedisUser} {name : KeyName} (h : user.Names name) :
    name.tag ∈ match user with
      | .registry => [":session:"]
      | .bus => [":commands:",":command-results:",":command-completions:"]
      | .limiter => [":command-rate:"] := by
  cases user with
  | registry => rcases h with ⟨_,rfl⟩ | rfl <;> simp [KeyName.tag]
  | bus => rcases h with ⟨_,rfl⟩ | ⟨_,rfl⟩ | ⟨_,rfl⟩ <;> simp [KeyName.tag]
  | limiter =>
    obtain ⟨_,_,rfl⟩ := h
    simp [KeyName.tag]

variable {registry bus limiter} {p : String}

/-- Under one prefix no key has two users. -/
theorem keys_disjoint (hr : registry.keyPrefix = p) (hb : bus.keyPrefix = p) (hl : limiter.keyPrefix = p)
    (user user' : RedisUser) (key : String) (h : user.Keys registry bus limiter key)
    (h' : user'.Keys registry bus limiter key) : user = user' := by
  obtain ⟨name,hname,rfl⟩ := h
  obtain ⟨name',hname',heq⟩ := h'
  rw [KeyName.render_eq hr hb hl,KeyName.render_eq hr hb hl,String.append_right_inj] at heq
  have htag := names_tag hname
  rw [(KeyName.tag_eq_of_render heq).1] at htag
  have htag' := names_tag hname'
  cases user <;> cases user' <;> simp_all

end RedisUser

/-- With one prefix, as `New` gives them, the registry, the bus and the rate limiter get from a Redis
that they share the replies which each would get from one of its own, whatever they call and in
whatever order, and find the same under their keys. What each calls may depend on all the replies that
it has had. -/
theorem redisClient_shared (p : String) (resultTTL limit window : Int64)
    (calls : (user : RedisUser) → List user.Reply → user.Call) (turns : List (Int × RedisUser))
    (ks : Keyspace) (user : RedisUser) :
    let client (user : RedisUser) : Client user.Reply := fun replies =>
      user.perform ⟨p⟩ ⟨p,resultTTL⟩ ⟨p,limit,window⟩ (calls user replies)
    let shared := (Shared.mk (fun _ => []) ks).run client turns
    let alone := (client user).run (timesOf user turns) ([],ks)
    shared.replies user = alone.1 ∧ shared.redis.Agree (user.Keys ⟨p⟩ ⟨p,resultTTL⟩ ⟨p,limit,window⟩) alone.2 := by
  intro client shared alone
  have hlocal (user : RedisUser) (replies : List user.Reply) :
      Local (user.Keys ⟨p⟩ ⟨p,resultTTL⟩ ⟨p,limit,window⟩) (client user replies) :=
    user.perform_local _ _ _ (calls user replies)
  exact Shared.run_alone (RedisUser.keys_disjoint rfl rfl rfl) hlocal user turns _ fun _ _ => rfl

end CsmsPlatform
