import CsmsPlatform.Registry.Store

/-!
# Stored leases

What the scripts do to one station's key in any keyspace. A granted claim puts its lease there, and no
other claim writes over it. The renew and release scripts act for the lease the key shows and turn every
other one away.
-/

namespace CsmsPlatform

open Redis

def Shows (item : Item) (lease : Lease) : Prop :=
  ∃ f, item.value = .hash f ∧ f "owner" = some lease.ownerID ∧
    f "generation" = some (toString lease.generation)

theorem assigned_owner (o g : String) (f : String → Option String) :
    assignFields [("owner",o),("generation",g)] f "owner" = some o := by
  simp [assignFields]

theorem assigned_generation (o g : String) (f : String → Option String) :
    assignFields [("owner",o),("generation",g)] f "generation" = some g := by
  simp [assignFields]

/-- One station, owner and generation: the same lease, whatever its expiry. -/
def Lease.SameAs (a b : Lease) : Prop :=
  a.stationIdentity = b.stationIdentity ∧ a.ownerID = b.ownerID ∧ a.generation = b.generation

theorem generation_text (u : UInt64) (n : Nat) :
    toString (n : Int) = toString u ↔ n = u.toNat := by
  change (n : Int).repr = (u.toNat : Int).repr ↔ _
  rw [Int.repr_inj]
  exact Int.natCast_inj

theorem generation_text_inj {a b : UInt64} (h : toString a = toString b) : a = b :=
  UInt64.toNat_inj.mp ((generation_text b a.toNat).mp h)

theorem Shows.unique {item : Item} {a b : Lease} (ha : Shows item a) (hb : Shows item b) :
    a.ownerID = b.ownerID ∧ a.generation = b.generation := by
  obtain ⟨f,hf,hao,hag⟩ := ha
  obtain ⟨f',hf',hbo,hbg⟩ := hb
  obtain rfl : f = f' := Value.hash.inj (hf.symm.trans hf')
  exact ⟨Option.some.inj (hao.symm.trans hbo),generation_text_inj (Option.some.inj (hag.symm.trans hbg))⟩

namespace Registry

/-- The check at the head of the renew and release scripts. -/
def ownedThen (leaseKey owner generation : String) (action : Script Int) : Script Int := do
  let current ← hget leaseKey "owner"
  let held ← hget leaseKey "generation"
  if current ≠ some owner ∨ held ≠ some generation then
    return 0
  action

def extendLease (leaseKey : String) (ttl : Int) : Script Int := do
  let _ ← pexpire leaseKey ttl
  return 1

theorem renewScript_eq (lk o g : String) (ms : Int) :
    renewScript lk o g ms = ownedThen lk o g (extendLease lk ms) := rfl

theorem releaseScript_eq (lk o g : String) : releaseScript lk o g = ownedThen lk o g (del lk) := rfl

variable {registry : Registry} {ks ks' : Keyspace} {now later : Int} {lease : Lease} {ttl : Int64}

def Stored (registry : Registry) (ks : Keyspace) (now : Int) (lease : Lease) : Prop :=
  ∃ item, ks.live now (registry.leaseKey lease.stationIdentity) = some item ∧ Shows item lease

def StoredUntil (registry : Registry) (ks : Keyspace) (lease : Lease) (expiry : Int) : Prop :=
  ∃ item, ks (registry.leaseKey lease.stationIdentity) = some item ∧ Shows item lease ∧
    item.expiresAt = some expiry

theorem StoredUntil.stored_iff {expiry : Int} (h : registry.StoredUntil ks lease expiry) :
    registry.Stored ks now lease ↔ now < expiry := by
  obtain ⟨item,hi,hs,he⟩ := h
  have hlive : item.liveAt now = true ↔ now < expiry := by simp [Item.liveAt,he]
  constructor
  · rintro ⟨item',hi',_⟩
    obtain ⟨hraw,hl⟩ := Keyspace.live_eq_some.mp hi'
    obtain rfl : item = item' := Option.some.inj (hi.symm.trans hraw)
    exact hlive.mp hl
  · intro hlt
    exact ⟨item,Keyspace.live_eq_some.mpr ⟨hi,hlive.mpr hlt⟩,hs⟩

theorem Stored.pexpire (h : registry.Stored ks now lease) (ms : Int) :
    let after := (Redis.pexpire (registry.leaseKey lease.stationIdentity) ms now ks).2
    0 < ms ∧ registry.StoredUntil after lease (now+ms*millisecond) ∨
      ms ≤ 0 ∧ after (registry.leaseKey lease.stationIdentity) = none := by
  intro after
  obtain ⟨item,hi,hs⟩ := h
  by_cases hm : ms ≤ 0
  · right
    simp [after,pexpire_live hi,hm,Keyspace.erase]
  · left
    refine ⟨not_le.mp hm,{ item with expiresAt := some (now+ms*millisecond) },?_,hs,rfl⟩
    simp [after,pexpire_live hi,hm,Keyspace.set]

theorem Stored.pexpire_iff (h : registry.Stored ks now lease) (ms : Int) (hle : now ≤ later) :
    registry.Stored (Redis.pexpire (registry.leaseKey lease.stationIdentity) ms now ks).2 later lease ↔
      later < now+ms*millisecond := by
  have hm : (0 : Int) < millisecond := by decide
  rcases h.pexpire ms with ⟨_,hu⟩ | ⟨hz,hnone⟩
  · exact hu.stored_iff
  · have hmul : ms*millisecond ≤ 0 := Int.mul_nonpos_of_nonpos_of_nonneg hz hm.le
    constructor
    · rintro ⟨item,hi,_⟩
      rw [(Keyspace.live_eq_some.mp hi).1] at hnone
      cases hnone
    · intro hlt
      omega

theorem ownedThen_absent {key owner generation : String} (h : ks.live now key = none)
    (action : Script Int) : ownedThen key owner generation action now ks = (.ok 0,ks) := by
  unfold ownedThen
  rw [Script.bind_ok (hget_absent h _),Script.bind_ok (hget_absent h _)]
  simp

theorem ownedThen_hash {key owner generation : String} {f : String → Option String} {e : Option Int}
    (h : ks.live now key = some ⟨.hash f,e⟩) (action : Script Int) :
    ownedThen key owner generation action now ks =
      if f "owner" ≠ some owner ∨ f "generation" ≠ some generation then (.ok 0,ks)
      else action now ks := by
  unfold ownedThen
  rw [Script.bind_ok (hget_hash h _),Script.bind_ok (hget_hash h _)]
  split_ifs <;> rfl

theorem ownedThen_stored (h : registry.Stored ks now lease) (action : Script Int) :
    ownedThen (registry.leaseKey lease.stationIdentity) lease.ownerID (toString lease.generation)
      action now ks = action now ks := by
  obtain ⟨⟨value,e⟩,hi,f,rfl,ho,hg⟩ := h
  rw [ownedThen_hash hi,ho,hg]
  simp

theorem ownedThen_lost (h : ¬registry.Stored ks now lease) (action : Script Int) :
    ∃ result, result ≠ .ok 1 ∧
      ownedThen (registry.leaseKey lease.stationIdentity) lease.ownerID (toString lease.generation)
        action now ks = (result,ks) := by
  cases hl : ks.live now (registry.leaseKey lease.stationIdentity) with
  | none => exact ⟨.ok 0,by simp,ownedThen_absent hl action⟩
  | some item =>
    obtain ⟨value,e⟩ := item
    cases value with
    | hash f =>
      have hmiss : f "owner" ≠ some lease.ownerID ∨ f "generation" ≠ some (toString lease.generation) := by
        by_contra hboth
        rw [not_or,not_ne_iff,not_ne_iff] at hboth
        exact h ⟨_,hl,f,rfl,hboth.1,hboth.2⟩
      rw [ownedThen_hash hl,if_pos hmiss]
      exact ⟨.ok 0,by simp,rfl⟩
    | string text => exact ⟨.error .wrongType,by simp,Script.bind_error (by simp [hget,hl])⟩
    | list elements => exact ⟨.error .wrongType,by simp,Script.bind_error (by simp [hget,hl])⟩
    | stream value => exact ⟨.error .wrongType,by simp,Script.bind_error (by simp [hget,hl])⟩

theorem extendLease_stored (h : registry.Stored ks now lease) (ms : Int) :
    extendLease (registry.leaseKey lease.stationIdentity) ms now ks =
      (.ok 1,(Redis.pexpire (registry.leaseKey lease.stationIdentity) ms now ks).2) := by
  obtain ⟨item,hi,_⟩ := h
  unfold extendLease
  rw [Script.bind_apply,pexpire_live hi]
  split_ifs <;> rfl

theorem renew_stored (h : registry.Stored ks now lease) (ht : 0 < ttl.toInt) :
    registry.renew lease ttl now ks = (.ok { lease with expiresAt := now+ttl.toInt },
      (Redis.pexpire (registry.leaseKey lease.stationIdentity) (milliseconds ttl) now ks).2) := by
  have hpos : ¬ttl.toInt ≤ 0 := not_le.mpr ht
  simp [renew,hpos,renewScript_eq,ownedThen_stored h,extendLease_stored h]

theorem renew_refused (h : ¬registry.Stored ks now lease) (ttl : Int64) :
    (∃ e, (registry.renew lease ttl now ks).1 = .error e) ∧ (registry.renew lease ttl now ks).2 = ks := by
  obtain ⟨result,hne,hrun⟩ := ownedThen_lost h (extendLease (registry.leaseKey lease.stationIdentity)
    (milliseconds ttl))
  unfold renew
  split
  · exact ⟨⟨_,rfl⟩,rfl⟩
  · rw [renewScript_eq,hrun]
    cases result with
    | error fault => exact ⟨⟨_,rfl⟩,rfl⟩
    | ok n =>
      have hn : n ≠ 1 := fun h => hne (congrArg Except.ok h)
      simp [hn]

theorem release_stored (h : registry.Stored ks now lease) :
    registry.release lease now ks = (.ok (),ks.erase (registry.leaseKey lease.stationIdentity)) := by
  have hcheck := ownedThen_stored h (del (registry.leaseKey lease.stationIdentity))
  obtain ⟨item,hi,_⟩ := h
  rw [del_live hi] at hcheck
  simp [release,releaseScript_eq,hcheck]

theorem release_refused (h : ¬registry.Stored ks now lease) :
    (∃ e, (registry.release lease now ks).1 = .error e) ∧ (registry.release lease now ks).2 = ks := by
  obtain ⟨result,hne,hrun⟩ := ownedThen_lost h (del (registry.leaseKey lease.stationIdentity))
  unfold release
  rw [releaseScript_eq,hrun]
  cases result with
  | error fault => exact ⟨⟨_,rfl⟩,rfl⟩
  | ok n =>
    have hn : n ≠ 1 := fun h => hne (congrArg Except.ok h)
    simp [hn]

/-- All a renewal can do to Redis. -/
theorem renew_state (registry : Registry) (lease : Lease) (ttl : Int64) (now : Int) (ks : Keyspace) :
    (registry.renew lease ttl now ks).2 = ks ∨ 0 < ttl.toInt ∧ registry.Stored ks now lease ∧
      (registry.renew lease ttl now ks).2 =
        (Redis.pexpire (registry.leaseKey lease.stationIdentity) (milliseconds ttl) now ks).2 := by
  by_cases hstored : registry.Stored ks now lease
  · by_cases ht : ttl.toInt ≤ 0
    · exact .inl (by rw [renew,if_pos ht])
    · exact .inr ⟨not_le.mp ht,hstored,by rw [renew_stored hstored (not_le.mp ht)]⟩
  · exact .inl (renew_refused hstored ttl).2

theorem release_state (registry : Registry) (lease : Lease) (now : Int) (ks : Keyspace) :
    (registry.release lease now ks).2 = ks ∨ registry.Stored ks now lease ∧
      (registry.release lease now ks).2 = ks.erase (registry.leaseKey lease.stationIdentity) := by
  by_cases hstored : registry.Stored ks now lease
  · exact .inr ⟨hstored,by rw [release_stored hstored]⟩
  · exact .inl (release_refused hstored).2

section Grant

variable {s o : String}

theorem claimScript_ok {lk gk : String} {ms : Int} {reply : List Reply}
    (h : claimScript lk gk o ms now ks = (.ok reply,ks')) :
    (∃ a b c, reply = [.int 0,a,b,c]) ∨
    ∃ n remaining written f e, reply = [.int 1,.bulk o,.int (Lua.toReply n),remaining] ∧
      written.live now lk =
        some ⟨.hash (assignFields [("owner",o),("generation",Lua.text n)] f),e⟩ ∧
      ks' = (Redis.pexpire lk ms now written).2 := by
  unfold claimScript at h
  obtain ⟨present,_,hpresent,h⟩ := Script.bind_eq_ok h
  cases hpresent
  cases hl : (ks.live now lk).isSome with
  | true =>
    rw [if_pos hl] at h
    obtain ⟨current,_,_,h⟩ := Script.bind_eq_ok h
    obtain ⟨held,_,_,h⟩ := Script.bind_eq_ok h
    obtain ⟨remaining,_,_,h⟩ := Script.bind_eq_ok h
    cases h
    exact .inl ⟨_,_,_,rfl⟩
  | false =>
    rw [hl,if_neg Bool.false_ne_true] at h
    obtain ⟨n,_,_,h⟩ := Script.bind_eq_ok h
    obtain ⟨_,written,hwritten,h⟩ := Script.bind_eq_ok h
    obtain ⟨_,_,hexpire,h⟩ := Script.bind_eq_ok h
    obtain ⟨f,e,hlive⟩ := hset_ok hwritten
    cases h
    exact .inr ⟨Lua.number n,_,written,f,e,rfl,hlive,by rw [hexpire]⟩

theorem claimOutcome_refused (s : String) (owner generation remaining : Reply) :
    ∃ e, claimOutcome s now (.ok [.int 0,owner,generation,remaining]) = .error e := by
  have h0 : Decimal.parseInt (Reply.int 0).sprint = some 0 :=
    Decimal.parseInt_toString 0 (by decide) (by decide)
  simp only [claimOutcome,parseClaimResult,h0]
  cases Decimal.parseUint generation.sprint with
  | none => exact ⟨_,rfl⟩
  | some n =>
    cases Decimal.parseInt remaining.sprint with
    | none => exact ⟨_,rfl⟩
    | some m => exact ⟨_,rfl⟩

theorem claimOutcome_ok {n : Int} {remaining : Reply}
    (h : claimOutcome s now (.ok [.int 1,.bulk o,.int n,remaining]) = .ok lease) :
    lease.stationIdentity = s ∧ lease.ownerID = o ∧ toString lease.generation = toString n := by
  have h1 : Decimal.parseInt (Reply.int 1).sprint = some 1 :=
    Decimal.parseInt_toString 1 (by decide) (by decide)
  simp only [claimOutcome,parseClaimResult,h1] at h
  cases hn : Decimal.parseUint (Reply.int n).sprint with
  | none =>
    rw [hn] at h
    cases h
  | some generation =>
    rw [hn] at h
    cases hm : Decimal.parseInt remaining.sprint with
    | none =>
      rw [hm] at h
      cases h
    | some duration =>
      rw [hm] at h
      cases h
      exact ⟨rfl,rfl,(Decimal.toString_of_parseUint hn).symm⟩

theorem generation_stored {n : Int} {u : UInt64} (h : toString u = toString (Lua.toReply n))
    (hu : u.toNat ≤ 2^62) : Lua.text n = toString u := by
  have hreply : Lua.toReply n = u.toNat := by
    change (u.toNat : Int).repr = (Lua.toReply n).repr at h
    exact (Int.repr_inj.mp h).symm
  have hn : n = u.toNat := by
    rw [← hreply,Lua.eq_of_toReply (by rw [hreply]; omega)]
  rw [hn,Lua.text_eq (by omega)]
  rfl

/-- A granted claim put the lease under the station's key and then set its expiry. -/
theorem claim_ok (h : registry.claim s o ttl now ks = (.ok lease,ks'))
    (hexact : lease.generation.toNat ≤ 2^62) :
    0 < ttl.toInt ∧ ∃ written, registry.Stored written now lease ∧
      ks' = (Redis.pexpire (registry.leaseKey lease.stationIdentity) (milliseconds ttl) now written).2 := by
  unfold claim at h
  split at h
  · cases h
  · next hvalid =>
    simp only [not_or,not_le] at hvalid
    cases hscript : claimScript (registry.leaseKey s) registry.generationKey o (milliseconds ttl) now ks with
    | mk result after =>
      rw [hscript] at h
      cases result with
      | error fault => cases h
      | ok reply =>
        obtain ⟨houtcome,rfl⟩ := Prod.mk.inj h
        rcases claimScript_ok hscript with ⟨a,b,c,rfl⟩ | ⟨n,remaining,written,f,e,rfl,hlive,hafter⟩
        · obtain ⟨refusal,hr⟩ := claimOutcome_refused s a b c
          rw [hr] at houtcome
          cases houtcome
        · obtain ⟨rfl,rfl,hgeneration⟩ := claimOutcome_ok houtcome
          refine ⟨hvalid.2.2,written,⟨_,hlive,_,rfl,assigned_owner _ _ _,?_⟩,hafter⟩
          rw [← generation_stored hgeneration hexact]
          exact assigned_generation _ _ _

theorem renew_ok {renewed : Lease} (h : registry.renew lease ttl now ks = (.ok renewed,ks')) :
    0 < ttl.toInt ∧ renewed.SameAs lease ∧ registry.Stored ks now renewed ∧
      ks' = (Redis.pexpire (registry.leaseKey renewed.stationIdentity) (milliseconds ttl) now ks).2 := by
  by_cases hs : registry.Stored ks now lease
  · by_cases ht : ttl.toInt ≤ 0
    · rw [renew,if_pos ht] at h
      cases h
    · rw [renew_stored hs (not_le.mp ht)] at h
      cases h
      exact ⟨not_le.mp ht,⟨rfl,rfl,rfl⟩,hs,rfl⟩
  · obtain ⟨⟨e,he⟩,_⟩ := renew_refused hs ttl
    rw [h] at he
    cases he

end Grant

section Others

variable {s o : String} {expiry : Int}

theorem claimScript_writesOnly (lk gk o : String) (ms : Int) :
    (claimScript lk gk o ms).WritesOnly [lk,gk] := by
  refine (keyExists_readOnly lk).writesOnly.bind fun present => ?_
  split
  · exact (hget_readOnly lk _).writesOnly.bind fun _ => (hget_readOnly lk _).writesOnly.bind fun _ =>
      (pttl_readOnly lk).writesOnly.bind fun _ => Script.writesOnly_pure _
  · exact (incr_writesOnly (by simp)).bind fun _ => (hset_writesOnly (by simp) _).bind fun _ =>
      (pexpire_writesOnly (by simp) _).bind fun _ => Script.writesOnly_pure _

theorem claimScript_live {lk : String} (gk o : String) (ms : Int)
    (h : (ks.live now lk).isSome = true) (key : String) :
    (claimScript lk gk o ms now ks).2 key = ks key := by
  have hread : (do
      let current ← hget lk "owner"
      let held ← hget lk "generation"
      let remaining ← pttl lk
      return [Reply.int 0,.ofOption current,.ofOption held,.int (Lua.toReply (Lua.number remaining))] :
        Script (List Reply)).WritesOnly [] :=
    (hget_readOnly lk _).writesOnly.bind fun _ => (hget_readOnly lk _).writesOnly.bind fun _ =>
      (pttl_readOnly lk).writesOnly.bind fun _ => Script.writesOnly_pure _
  have hexists : keyExists lk now ks = (.ok true,ks) := by rw [keyExists_apply,h]
  unfold claimScript
  rw [Script.bind_ok hexists]
  exact hread now ks key (by simp)

theorem claimScript_absent {lk : String} (gk o : String) (ms : Int) (h : ks.live now lk = none) :
    claimScript lk gk o ms now ks = (do
      let generation := Lua.number (← incr gk)
      hset lk [("owner",o),("generation",Lua.text generation)]
      let _ ← pexpire lk ms
      return [.int 1,.bulk o,.int (Lua.toReply generation),.int (Lua.toReply (Lua.number ms))] :
        Script (List Reply)) now ks := by
  have hexists : keyExists lk now ks = (.ok false,ks) := by simp [h]
  unfold claimScript
  rw [Script.bind_ok hexists]
  simp only [Bool.false_eq_true,if_false]

/-- All a claim can do to the key of its station. -/
theorem claimScript_leaseKey {lk gk : String} (hk : lk ≠ gk) (o : String) (ms : Int) (now : Int)
    (ks : Keyspace) :
    (claimScript lk gk o ms now ks).2 lk = ks lk ∨ (claimScript lk gk o ms now ks).2 lk = none ∨
      ∃ (g : Int) (e : Int), (claimScript lk gk o ms now ks).2 lk =
        some ⟨.hash (assignFields [("owner",o),("generation",Lua.text g)] fun _ => none),some e⟩ := by
  cases hl : ks.live now lk with
  | some item => exact .inl (claimScript_live gk o ms (by rw [hl]; rfl) lk)
  | none =>
    rw [claimScript_absent gk o ms hl]
    rcases incr_cases gk now ks with ⟨n,text,e,hincr,_⟩ | ⟨fault,hincr⟩
    · have hfree : (ks.set gk ⟨.string text,e⟩).live now lk = none := by
        rw [Keyspace.live_set_ne _ _ _ hk,hl]
      have hlive := Keyspace.live_set_self (ks.set gk ⟨.string text,e⟩) now lk ⟨.hash (assignFields
        [("owner",o),("generation",Lua.text (Lua.number n))] fun _ => none),none⟩
      rw [Script.bind_ok hincr,Script.bind_ok (hset_absent hfree _),Script.bind_apply,
        pexpire_live (hlive.trans (if_pos rfl))]
      by_cases hm : ms ≤ 0
      · simp [hm,Keyspace.erase]
      · right; right
        refine ⟨Lua.number n,now+ms*millisecond,?_⟩
        simp [hm,Keyspace.set]
    · rw [Script.bind_error hincr]
      exact .inl rfl

theorem claimScript_counterKey (lk gk o : String) (ms : Int) (now : Int) (ks : Keyspace) :
    (claimScript lk gk o ms now ks).2 gk = ks gk ∨
      ∃ text e, (claimScript lk gk o ms now ks).2 gk = some ⟨.string text,e⟩ := by
  cases hl : ks.live now lk with
  | some item => exact .inl (claimScript_live gk o ms (by rw [hl]; rfl) gk)
  | none =>
    rw [claimScript_absent gk o ms hl]
    rcases incr_cases gk now ks with ⟨n,text,e,hincr,hnow⟩ | ⟨fault,hincr⟩
    · right
      refine ⟨text,e,?_⟩
      rw [Script.bind_ok hincr]
      by_cases hk : lk = gk
      · -- the write of the hash meets the string and ends the script
        subst lk
        have hstring : (ks.set gk ⟨.string text,e⟩).live now gk = some ⟨.string text,e⟩ := by
          rw [Keyspace.live_set_self,if_pos hnow]
        rw [Script.bind_error (hset_string hstring _)]
        simp [Keyspace.set]
      · have hrest : (do
            hset lk [("owner",o),("generation",Lua.text (Lua.number n))]
            let _ ← pexpire lk ms
            return [.int 1,.bulk o,.int (Lua.toReply (Lua.number n)),.int (Lua.toReply (Lua.number ms))] :
              Script (List Reply)).WritesOnly [lk] :=
          (hset_writesOnly (by simp) _).bind fun _ => (pexpire_writesOnly (by simp) _).bind fun _ =>
            Script.writesOnly_pure _
        rw [hrest now _ gk (by simpa using Ne.symm hk)]
        simp [Keyspace.set]
    · rw [Script.bind_error hincr]
      exact .inl rfl

theorem Stored.claim_keeps (h : registry.Stored ks now lease) (s o : String) (ttl : Int64) :
    (registry.claim s o ttl now ks).2 (registry.leaseKey lease.stationIdentity) =
      ks (registry.leaseKey lease.stationIdentity) := by
  obtain ⟨⟨value,e⟩,hi,f,rfl,_⟩ := h
  unfold claim
  split
  · rfl
  · by_cases hlive : (ks.live now (registry.leaseKey s)).isSome = true
    · exact claimScript_live _ _ _ hlive _
    · have hne : registry.leaseKey lease.stationIdentity ≠ registry.leaseKey s := by
        intro he
        rw [← he,hi] at hlive
        exact hlive rfl
      by_cases hg : registry.leaseKey lease.stationIdentity = registry.generationKey
      · have hexists : keyExists (registry.leaseKey s) now ks = (.ok false,ks) := by
          rw [keyExists_apply,Bool.eq_false_iff.mpr hlive]
        have hincr : incr registry.generationKey now ks = (.error .wrongType,ks) := incr_hash (hg ▸ hi)
        unfold claimScript
        rw [Script.bind_ok hexists,if_neg Bool.false_ne_true,Script.bind_error hincr]
      · exact claimScript_writesOnly _ _ _ _ now ks _ (by simp [hne,hg])

theorem Stored.key_ne {named : Lease} (h : registry.Stored ks now lease)
    (hn : registry.Stored ks now named) (hd : ¬named.SameAs lease) :
    registry.leaseKey lease.stationIdentity ∉ [registry.leaseKey named.stationIdentity] := by
  intro hkey
  have hstation := registry.leaseKey_inj.mp (List.mem_singleton.mp hkey)
  obtain ⟨item,hi,hshows⟩ := h
  obtain ⟨item',hi',hshows'⟩ := hn
  rw [← hstation,hi] at hi'
  cases hi'
  obtain ⟨howner,hgeneration⟩ := hshows'.unique hshows
  exact hd ⟨hstation.symm,howner,hgeneration⟩

theorem Stored.renew_keeps {named : Lease} (h : registry.Stored ks now lease)
    (hd : ¬named.SameAs lease) (ttl : Int64) :
    (registry.renew named ttl now ks).2 (registry.leaseKey lease.stationIdentity) =
      ks (registry.leaseKey lease.stationIdentity) := by
  by_cases hn : registry.Stored ks now named
  · by_cases ht : ttl.toInt ≤ 0
    · rw [renew,if_pos ht]
    · rw [renew_stored hn (not_le.mp ht)]
      exact pexpire_writesOnly List.mem_cons_self _ now ks _ (h.key_ne hn hd)
  · rw [(renew_refused hn ttl).2]

theorem Stored.release_keeps {named : Lease} (h : registry.Stored ks now lease)
    (hd : ¬named.SameAs lease) :
    (registry.release named now ks).2 (registry.leaseKey lease.stationIdentity) =
      ks (registry.leaseKey lease.stationIdentity) := by
  by_cases hn : registry.Stored ks now named
  · rw [release_stored hn]
    exact Keyspace.erase_ne _ fun he => h.key_ne hn hd (List.mem_singleton.mpr he)
  · rw [(release_refused hn).2]

end Others

end Registry

end CsmsPlatform
