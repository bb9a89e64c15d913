import CsmsPlatform.Registry.Stored
import CsmsPlatform.Framework.FencedLease

/-!
# The Redis registry refines a fenced lease table

`Represents` reads a lease table off the keyspace. Each method of the registry is one step of the
table, with the same answer. The name `generation` never holds a lease: its key is the counter's.
-/

namespace CsmsPlatform

open Redis FencedLease

def leaseHash (owner : String) (generation : Nat) : String → Option String :=
  assignFields [("owner",owner),("generation",toString (generation : Int))] fun _ => none

def leaseItem (l : Grant String Int) : Item :=
  ⟨.hash (leaseHash l.owner l.generation),some l.expiresAt⟩

@[simp] theorem leaseHash_owner (o : String) (g : Nat) : leaseHash o g "owner" = some o :=
  assigned_owner _ _ _

@[simp] theorem leaseHash_generation (o : String) (g : Nat) :
    leaseHash o g "generation" = some (toString (g : Int)) :=
  assigned_generation _ _ _

theorem leaseItem_inj {l l' : Grant String Int} (h : leaseItem l = leaseItem l') : l = l' := by
  have hhash : leaseHash l.owner l.generation = leaseHash l'.owner l'.generation := by
    simpa [leaseItem] using congrArg Item.value h
  have howner := congrFun hhash "owner"
  have htext := congrFun hhash "generation"
  have hexpiry : some l.expiresAt = some l'.expiresAt := congrArg Item.expiresAt h
  rw [leaseHash_owner,leaseHash_owner] at howner
  rw [leaseHash_generation,leaseHash_generation] at htext
  have hint : (l.generation : Int).repr = (l'.generation : Int).repr := Option.some.inj htext
  have hgeneration := Int.natCast_inj.mp (Int.repr_inj.mp hint)
  cases l
  cases l'
  simp_all

def counterItem (n : Nat) : Item := ⟨.string (toString (n : Int)),none⟩

namespace Registry

variable (registry : Registry)

structure Represents (ks : Keyspace) (now : Int) (t : Table String String Int) : Prop where
  lease : ∀ s, s ≠ "generation" →
    ks.live now (registry.leaseKey s) = (t.live now s).map leaseItem
  reserved : t.held "generation" = none
  counter : ks.live now registry.generationKey =
    if t.counter = 0 then none else some (counterItem t.counter)
  bounded : t.counter < 2^63

def Unused (ks : Keyspace) (now : Int) : Prop :=
  (∀ s, ks.live now (registry.leaseKey s) = none) ∧ ks.live now registry.generationKey = none

variable {registry} {ks : Keyspace} {now later : Int} {t : Table String String Int}

theorem Unused.represents (h : registry.Unused ks now) :
    registry.Represents ks now Table.empty where
  lease s _ := by rw [h.1]; rfl
  reserved := rfl
  counter := by rw [h.2]; rfl
  bounded := by simp [Table.empty]

theorem Represents.wait (hr : registry.Represents ks now t) (h : now ≤ later) :
    registry.Represents ks later t where
  lease s hs := by
    rw [Keyspace.live_later h,hr.lease s hs,Table.live_later h]
    cases t.live now s with
    | none => rfl
    | some l => by_cases hl : later < l.expiresAt <;> simp [Option.filter,leaseItem,Item.liveAt,hl]
  reserved := hr.reserved
  counter := by
    rw [Keyspace.live_later h,hr.counter]
    by_cases hc : t.counter = 0 <;> simp [hc,Option.filter,counterItem,Item.liveAt]
  bounded := hr.bounded

private theorem expiring_lease_live (o : String) (g : Nat) (ms : Int) (key : String) :
    ((if ms ≤ 0 then (ks.erase key)
      else ks.set key ⟨.hash (leaseHash o g),some (now+ms*millisecond)⟩)).live now key =
      (Option.filter (fun l : Grant String Int => decide (now < l.expiresAt))
        (some ⟨o,g,now+ms*millisecond⟩)).map leaseItem := by
  have hm : (0 : Int) < millisecond := by decide
  by_cases h : ms ≤ 0
  · have hle : ms*millisecond ≤ 0 := Int.mul_nonpos_of_nonpos_of_nonneg h hm.le
    rw [if_pos h,Keyspace.live_erase_self]
    simp only [Option.filter]
    rw [if_neg (by simp; omega)]
    rfl
  · have hlt : 0 < ms*millisecond := Int.mul_pos (by omega) hm
    have hn : now < now+ms*millisecond := by omega
    rw [if_neg h,Keyspace.live_set_self]
    simp [Item.liveAt,Option.filter,leaseItem,hn]

private theorem expiring_lease_ne (o : String) (g : Nat) (ms : Int) {key k : String} (hk : k ≠ key) :
    ((if ms ≤ 0 then (ks.erase key)
      else ks.set key ⟨.hash (leaseHash o g),some (now+ms*millisecond)⟩)).live now k =
      ks.live now k := by
  split
  · exact Keyspace.live_erase_ne _ _ hk
  · exact Keyspace.live_set_ne _ _ _ hk

private theorem claimScript_free (lk gk o : String) (ms n : Int) (item : Item) (hk : lk ≠ gk)
    (hfree : ks.live now lk = none) (hi : incr gk now ks = (.ok n,ks.set gk item)) :
    let fields := assignFields [("owner",o),("generation",Lua.text (Lua.number n))] fun _ => none
    let granted := (ks.set gk item).set lk ⟨.hash fields,none⟩
    claimScript lk gk o ms now ks =
      (.ok [.int 1,.bulk o,.int (Lua.toReply (Lua.number n)),.int (Lua.toReply (Lua.number ms))],
        if ms ≤ 0 then granted.erase lk
        else granted.set lk ⟨.hash fields,some (now+ms*millisecond)⟩) := by
  intro fields granted
  have h0 : keyExists lk now ks = (.ok false,ks) := by simp [hfree]
  have h1 : (ks.set gk item).live now lk = none := by rw [Keyspace.live_set_ne _ _ _ hk,hfree]
  have h2 : granted.live now lk = some ⟨.hash fields,none⟩ := by
    rw [Keyspace.live_set_self]
    rfl
  unfold claimScript
  rw [Script.bind_ok h0]
  simp only [Bool.false_eq_true,if_false]
  rw [Script.bind_ok hi,Script.bind_ok (hset_absent h1 _),Script.bind_apply,pexpire_live h2]
  by_cases hm : ms ≤ 0
  · simp [hm]
  · simp [hm]

private theorem claimScript_collision (lk o : String) (ms n : Int) (text : String)
    (hfree : ks.live now lk = none) (hi : incr lk now ks = (.ok n,ks.set lk ⟨.string text,none⟩)) :
    claimScript lk lk o ms now ks = (.error .wrongType,ks.set lk ⟨.string text,none⟩) := by
  have h0 : keyExists lk now ks = (.ok false,ks) := by simp [hfree]
  have h1 : (ks.set lk ⟨.string text,none⟩).live now lk = some ⟨.string text,none⟩ := by
    rw [Keyspace.live_set_self]
    rfl
  unfold claimScript
  rw [Script.bind_ok h0]
  simp only [Bool.false_eq_true,if_false]
  rw [Script.bind_ok hi,Script.bind_error (hset_string h1 _)]

theorem Represents.incr (hr : registry.Represents ks now t) :
    Redis.incr registry.generationKey now ks =
      if t.counter+1 < 2^63 then
        (.ok ((t.counter+1 : Nat) : Int),ks.set registry.generationKey (counterItem (t.counter+1)))
      else (.error .overflow,ks) := by
  have hb := hr.bounded
  by_cases hz : t.counter = 0
  · have h : ks.live now registry.generationKey = none := by rw [hr.counter,if_pos hz]
    rw [incr_absent h,hz]
    rfl
  · have h : ks.live now registry.generationKey = some ⟨.string (toString (t.counter : Int)),none⟩ := by
      rw [hr.counter,if_neg hz]
      rfl
    rw [incr_integer h (by omega) (by omega)]
    by_cases hlt : t.counter+1 < 2^63
    · rw [if_pos hlt,if_pos (by omega)]
      rfl
    · rw [if_neg hlt,if_neg (by omega)]

private theorem Represents.lease_free (hr : registry.Represents ks now t) {s : String}
    (hs : s ≠ "generation") (hfree : t.live now s = none) :
    ks.live now (registry.leaseKey s) = none := by
  rw [hr.lease s hs,hfree]
  rfl

private theorem Represents.lease_held (hr : registry.Represents ks now t) {s : String}
    (hs : s ≠ "generation") {l : Grant String Int} (hl : t.live now s = some l) :
    ks.live now (registry.leaseKey s) = some (leaseItem l) := by
  rw [hr.lease s hs,hl]
  rfl

private theorem Represents.granted (hr : registry.Represents ks now t) (s o : String) (ms : Int)
    (hs : s ≠ "generation") (hb : t.counter+1 < 2^63) :
    let granted := (ks.set registry.generationKey (counterItem (t.counter+1))).set
      (registry.leaseKey s) ⟨.hash (leaseHash o (t.counter+1)),none⟩
    registry.Represents
      (if ms ≤ 0 then granted.erase (registry.leaseKey s)
        else granted.set (registry.leaseKey s)
          ⟨.hash (leaseHash o (t.counter+1)),some (now+ms*millisecond)⟩) now
      (t.next.put s (some ⟨o,t.counter+1,now+ms*millisecond⟩)) := by
  intro granted
  have hkey : registry.generationKey ≠ registry.leaseKey s := fun h =>
    hs (registry.leaseKey_eq_generationKey.mp h.symm)
  constructor
  · intro x hx
    by_cases hxs : x = s
    · subst x
      rw [expiring_lease_live,Table.live,Table.put_held_self]
    · have hlk : registry.leaseKey x ≠ registry.leaseKey s := fun h => hxs (registry.leaseKey_inj.mp h)
      have hgk : registry.leaseKey x ≠ registry.generationKey := fun h =>
        hx (registry.leaseKey_eq_generationKey.mp h)
      rw [expiring_lease_ne _ _ _ hlk,Keyspace.live_set_ne _ _ _ hlk,Keyspace.live_set_ne _ _ _ hgk,
        hr.lease x hx,Table.live,Table.live,Table.put_held_ne _ _ hxs]
      rfl
  · rw [Table.put_held_ne _ _ (Ne.symm hs)]
    exact hr.reserved
  · rw [expiring_lease_ne _ _ _ hkey,Keyspace.live_set_ne _ _ _ hkey,Keyspace.live_set_self]
    simp [counterItem,Item.liveAt,Table.next]
  · exact hb

theorem milliseconds_range {ttl : Int64} (h : 0 < ttl.toInt) :
    0 ≤ milliseconds ttl ∧ milliseconds ttl < 2^53 := by
  have hhi := ttl.toInt_lt
  rw [milliseconds,Int.tdiv_eq_ediv_of_nonneg h.le]
  unfold millisecond
  omega

theorem milliseconds_le {ttl : Int64} (h : 0 ≤ ttl.toInt) : milliseconds ttl*millisecond ≤ ttl.toInt := by
  rw [milliseconds,Int.tdiv_eq_ediv_of_nonneg h]
  unfold millisecond
  omega

private theorem claimOutcome_granted (s o : String) (n : Nat) (ttl : Int64) (hn : n < 2^63)
    (ht : 0 < ttl.toInt) :
    claimOutcome s now (.ok [.int 1,.bulk o,.int (n : Int),
      .int (Lua.toReply (Lua.number (milliseconds ttl)))]) =
      .ok ⟨s,o,UInt64.ofNat n,now+milliseconds ttl*millisecond⟩ := by
  obtain ⟨hlo,hhi⟩ := milliseconds_range ht
  rw [Lua.toReply_number (by omega)]
  have h1 : Decimal.parseInt (Reply.int 1).sprint = some 1 :=
    Decimal.parseInt_toString 1 (by decide) (by decide)
  have h2 : Decimal.parseUint (Reply.int (n : Int)).sprint = some (UInt64.ofNat n) :=
    Decimal.parseUint_toString n (by omega)
  have h3 : Decimal.parseInt (Reply.int (milliseconds ttl)).sprint = some (milliseconds ttl) :=
    Decimal.parseInt_toString _ (by omega) (by omega)
  simp only [claimOutcome,parseClaimResult,h1,h2,h3]
  rfl

section Free

variable {s o : String} {ttl : Int64}

theorem claim_answered (hr : registry.Represents ks now t) (hs : s ≠ "") (ho : o ≠ "")
    (ht : 0 < ttl.toInt) (hg : s ≠ "generation") (hfree : t.live now s = none)
    (hb : t.counter+1 < 2^63) {n : Nat} (hn : Lua.number ((t.counter+1 : Nat) : Int) = n)
    (hlt : n < 2^63) :
    (registry.claim s o ttl now ks).1 =
      .ok ⟨s,o,UInt64.ofNat n,now+milliseconds ttl*millisecond⟩ := by
  have hvalid : ¬(s = "" ∨ o = "" ∨ ttl.toInt ≤ 0) := by simp [hs,ho,ht]
  have hi := hr.incr
  rw [if_pos hb] at hi
  have hrun := claimScript_free (registry.leaseKey s) registry.generationKey o (milliseconds ttl) _ _
    (fun h => hg (registry.leaseKey_eq_generationKey.mp h)) (hr.lease_free hg hfree) hi
  simp only [claim,hvalid,if_false,hrun]
  rw [hn,Lua.toReply_eq (by omega) (by omega)]
  exact claimOutcome_granted s o n ttl hlt ht

theorem claim_granted (hr : registry.Represents ks now t) (hs : s ≠ "") (ho : o ≠ "")
    (ht : 0 < ttl.toInt) (hg : s ≠ "generation") (hfree : t.live now s = none)
    (hb : t.counter < 2^53) :
    (registry.claim s o ttl now ks).1 =
        .ok ⟨s,o,UInt64.ofNat (t.counter+1),now+milliseconds ttl*millisecond⟩ ∧
      registry.Represents (registry.claim s o ttl now ks).2 now
        (t.next.put s (some ⟨o,t.counter+1,now+milliseconds ttl*millisecond⟩)) := by
  have hvalid : ¬(s = "" ∨ o = "" ∨ ttl.toInt ≤ 0) := by simp [hs,ho,ht]
  have hexact : Lua.number ((t.counter+1 : Nat) : Int) = (t.counter+1 : Nat) := Lua.number_eq (by omega)
  have htext : Lua.text (Lua.number ((t.counter+1 : Nat) : Int)) = toString ((t.counter+1 : Nat) : Int) := by
    rw [hexact,Lua.text_eq (by omega)]
  have hi := hr.incr
  rw [if_pos (by omega)] at hi
  have hrun := claimScript_free (registry.leaseKey s) registry.generationKey o (milliseconds ttl) _ _
    (fun h => hg (registry.leaseKey_eq_generationKey.mp h)) (hr.lease_free hg hfree) hi
  refine ⟨claim_answered hr hs ho ht hg hfree (by omega) hexact (by omega),?_⟩
  simp only [claim,hvalid,if_false,hrun,htext]
  exact hr.granted s o (milliseconds ttl) hg (by omega)

end Free

theorem claim_reserved (hr : registry.Represents ks now t) {o : String} {ttl : Int64}
    (ho : o ≠ "") (ht : 0 < ttl.toInt) :
    (∃ e, (registry.claim "generation" o ttl now ks).1 = .error e) ∧
      (registry.Represents (registry.claim "generation" o ttl now ks).2 now t ∨
        t.counter = 0 ∧ registry.Represents (registry.claim "generation" o ttl now ks).2 now t.next) := by
  have hvalid : ¬("generation" = "" ∨ o = "" ∨ ttl.toInt ≤ 0) := by simp [ho,ht]
  have hkey : registry.leaseKey "generation" = registry.generationKey :=
    registry.leaseKey_eq_generationKey.mpr rfl
  simp only [claim,hvalid,if_false,hkey]
  by_cases hz : t.counter = 0
  · have hfree : ks.live now registry.generationKey = none := by rw [hr.counter,if_pos hz]
    have hrun := claimScript_collision registry.generationKey o (milliseconds ttl) 1
      (toString (1 : Int)) hfree (incr_absent hfree)
    rw [hrun]
    refine ⟨⟨_,rfl⟩,.inr ⟨hz,?_⟩⟩
    constructor
    · intro s hs
      rw [Keyspace.live_set_ne _ _ _ (fun h => hs (registry.leaseKey_eq_generationKey.mp h)),
        hr.lease s hs]
      rfl
    · exact hr.reserved
    · rw [Keyspace.live_set_self]
      simp [Item.liveAt,Table.next,hz,counterItem]
    · simp [Table.next,hz]
  · have hheld : ks.live now registry.generationKey = some (counterItem t.counter) := by
      rw [hr.counter,if_neg hz]
    have h0 : keyExists registry.generationKey now ks = (.ok true,ks) := by simp [hheld]
    have hrun : claimScript registry.generationKey registry.generationKey o (milliseconds ttl) now ks =
        (.error .wrongType,ks) := by
      unfold claimScript
      rw [Script.bind_ok h0]
      simp only [if_true]
      rw [Script.bind_error (hget_string hheld _)]
    rw [hrun]
    exact ⟨⟨_,rfl⟩,.inl hr⟩

private theorem claimScript_held {l : Grant String Int} (lk gk o : String) (ms : Int)
    (h : ks.live now lk = some (leaseItem l)) :
    claimScript lk gk o ms now ks =
      (.ok [.int 0,.bulk l.owner,.bulk (toString (l.generation : Int)),
        .int (Lua.toReply (Lua.number ((l.expiresAt-now)/millisecond)))],ks) := by
  have h0 : keyExists lk now ks = (.ok true,ks) := by simp [h]
  have h1 : hget lk "owner" now ks = (.ok (some l.owner),ks) := by
    rw [hget_hash h,leaseHash_owner]
  have h2 : hget lk "generation" now ks = (.ok (some (toString (l.generation : Int))),ks) := by
    rw [hget_hash h,leaseHash_generation]
  unfold claimScript
  rw [Script.bind_ok h0]
  simp only [if_true]
  rw [Script.bind_ok h1,Script.bind_ok h2,Script.bind_ok (pttl_live h)]
  rfl

private theorem claimOutcome_conflict (s : String) {l : Grant String Int} (hn : l.generation < 2^64)
    {remaining : Int} (hlo : 0 ≤ remaining) (hhi : remaining < 2^53) :
    claimOutcome s now (.ok [.int 0,.bulk l.owner,.bulk (toString (l.generation : Int)),
      .int (Lua.toReply (Lua.number remaining))]) = .error (.ownershipConflict
        ⟨s,l.owner,UInt64.ofNat l.generation,now+remaining*millisecond⟩) := by
  rw [Lua.toReply_number (by omega)]
  have h1 : Decimal.parseInt (Reply.int 0).sprint = some 0 :=
    Decimal.parseInt_toString 0 (by decide) (by decide)
  have h2 : Decimal.parseUint (Reply.bulk (toString (l.generation : Int))).sprint =
      some (UInt64.ofNat l.generation) := Decimal.parseUint_toString l.generation hn
  have h3 : Decimal.parseInt (Reply.int remaining).sprint = some remaining :=
    Decimal.parseInt_toString _ (by omega) (by omega)
  simp only [claimOutcome,parseClaimResult,h1,h2,h3]
  rfl

theorem claim_conflict (hr : registry.Represents ks now t) {s o : String} {ttl : Int64}
    (hs : s ≠ "") (ho : o ≠ "") (ht : 0 < ttl.toInt) (hg : s ≠ "generation") {l : Grant String Int}
    (hl : t.live now s = some l) (hn : l.generation < 2^64) (hnear : l.expiresAt-now < 2^63) :
    registry.claim s o ttl now ks = (.error (.ownershipConflict ⟨s,l.owner,UInt64.ofNat l.generation,
      now+(l.expiresAt-now)/millisecond*millisecond⟩),ks) := by
  have hvalid : ¬(s = "" ∨ o = "" ∨ ttl.toInt ≤ 0) := by simp [hs,ho,ht]
  have hlive := (Table.live_eq_some.mp hl).2
  have hmillisecond : millisecond = 1000000 := rfl
  simp only [claim,hvalid,if_false,
    claimScript_held _ registry.generationKey o (milliseconds ttl) (hr.lease_held hg hl)]
  rw [claimOutcome_conflict s hn (by rw [hmillisecond]; omega) (by rw [hmillisecond]; omega)]

/-- A claim is granted, or it fails and the held leases stay as they are, until the count has reached
the last exact number. The next count is rounded, and still answered. -/
theorem claim_spec (hr : registry.Represents ks now t) (s o : String) (ttl : Int64) :
    (registry.claim s o ttl now ks).1 =
        .ok ⟨s,o,UInt64.ofNat (t.counter+1),now+milliseconds ttl*millisecond⟩ ∧
      t.counter < 2^53 ∧ t.live now s = none ∧
      registry.Represents (registry.claim s o ttl now ks).2 now
        (t.next.put s (some ⟨o,t.counter+1,now+milliseconds ttl*millisecond⟩)) ∨
    (∃ e, (registry.claim s o ttl now ks).1 = .error e) ∧
      (registry.Represents (registry.claim s o ttl now ks).2 now t ∨
        t.counter = 0 ∧ registry.Represents (registry.claim s o ttl now ks).2 now t.next) ∨
    2^53 ≤ t.counter ∧ (t.counter = 2^53 → ∃ lease, (registry.claim s o ttl now ks).1 = .ok lease) := by
  by_cases hvalid : s = "" ∨ o = "" ∨ ttl.toInt ≤ 0
  · right; left
    simp only [claim,hvalid,if_true]
    exact ⟨⟨_,rfl⟩,.inl hr⟩
  · obtain ⟨hs,ho,ht⟩ : s ≠ "" ∧ o ≠ "" ∧ 0 < ttl.toInt := by
      simp only [not_or,not_le] at hvalid
      exact hvalid
    by_cases hg : s = "generation"
    · subst s
      exact .inr (.inl (claim_reserved hr ho ht))
    · cases hl : t.live now s with
      | none =>
        by_cases hb : t.counter < 2^53
        · obtain ⟨h1,h2⟩ := claim_granted hr hs ho ht hg hl hb
          exact .inl ⟨h1,hb,rfl,h2⟩
        · refine .inr (.inr ⟨not_lt.mp hb,fun hlast => ?_⟩)
          have hrounded : Lua.number ((t.counter+1 : Nat) : Int) = (2^53 : Nat) := by
            rw [hlast]
            exact Lua.number_last
          exact ⟨_,claim_answered hr hs ho ht hg hl (by omega) hrounded (by omega)⟩
      | some l =>
        right; left
        simp only [claim,hvalid,if_false,
          claimScript_held _ registry.generationKey o (milliseconds ttl) (hr.lease_held hg hl)]
        exact ⟨claimOutcome_refused s _ _ _,.inl hr⟩

def HeldBy (t : Table String String Int) (now : Int) (lease : Lease) : Prop :=
  ∃ x, t.live now lease.stationIdentity = some ⟨lease.ownerID,lease.generation.toNat,x⟩

private theorem Represents.not_reserved (hr : registry.Represents ks now t) {s : String}
    {l : Grant String Int} (hl : t.live now s = some l) : s ≠ "generation" := by
  rintro rfl
  rw [Table.live,hr.reserved] at hl
  cases hl

theorem Represents.stored_iff (hr : registry.Represents ks now t) {lease : Lease} :
    registry.Stored ks now lease ↔ HeldBy t now lease := by
  constructor
  · rintro ⟨item,hi,f,hf,howner,hgeneration⟩
    have hg : lease.stationIdentity ≠ "generation" := by
      intro he
      rw [registry.leaseKey_eq_generationKey.mpr he,hr.counter] at hi
      split at hi
      · cases hi
      · cases hi
        cases hf
    rw [hr.lease _ hg] at hi
    obtain ⟨l,hl,rfl⟩ := Option.map_eq_some_iff.mp hi
    obtain rfl : leaseHash l.owner l.generation = f := Value.hash.inj hf
    rw [leaseHash_owner,Option.some.injEq] at howner
    rw [leaseHash_generation,Option.some.injEq,generation_text] at hgeneration
    exact ⟨l.expiresAt,by rw [hl,← howner,← hgeneration]⟩
  · rintro ⟨x,hx⟩
    exact ⟨_,hr.lease_held (hr.not_reserved hx) hx,_,rfl,leaseHash_owner _ _,
      by rw [leaseHash_generation,(generation_text lease.generation _).mpr rfl]⟩

private theorem ownedThen_unheld (hr : registry.Represents ks now t) {lease : Lease}
    (hg : lease.stationIdentity ≠ "generation") (hh : ¬HeldBy t now lease) (action : Script Int) :
    ownedThen (registry.leaseKey lease.stationIdentity) lease.ownerID (toString lease.generation)
      action now ks = (.ok 0,ks) := by
  cases hl : t.live now lease.stationIdentity with
  | none => exact ownedThen_absent (hr.lease_free hg hl) action
  | some l =>
    have hne : leaseHash l.owner l.generation "owner" ≠ some lease.ownerID ∨
        leaseHash l.owner l.generation "generation" ≠ some (toString lease.generation) := by
      by_contra hc
      simp only [leaseHash_owner,leaseHash_generation,ne_eq,Option.some.injEq,not_or,not_not,
        generation_text] at hc
      exact hh ⟨l.expiresAt,by rw [hl,← hc.1,← hc.2]⟩
    rw [ownedThen_hash (hr.lease_held hg hl),if_pos hne]

private theorem Represents.put (hr : registry.Represents ks now t) {s : String} (hs : s ≠ "generation")
    {ks' : Keyspace} {l : Option (Grant String Int)}
    (hself : ks'.live now (registry.leaseKey s) =
      (l.filter fun l => decide (now < l.expiresAt)).map leaseItem)
    (hother : ∀ k, k ≠ registry.leaseKey s → ks'.live now k = ks.live now k) :
    registry.Represents ks' now (t.put s l) := by
  constructor
  · intro x hx
    by_cases hxs : x = s
    · subst x
      rw [hself,Table.live,Table.put_held_self]
    · rw [hother _ (fun h => hxs (registry.leaseKey_inj.mp h)),hr.lease x hx,Table.live,Table.live,
        Table.put_held_ne _ _ hxs]
  · rw [Table.put_held_ne _ _ (Ne.symm hs)]
    exact hr.reserved
  · rw [hother _ (fun h => hs (registry.leaseKey_eq_generationKey.mp h.symm))]
    exact hr.counter
  · exact hr.bounded

theorem renew_held (hr : registry.Represents ks now t) {lease : Lease} {ttl : Int64}
    (ht : 0 < ttl.toInt) (hh : HeldBy t now lease) :
    (registry.renew lease ttl now ks).1 = .ok { lease with expiresAt := now+ttl.toInt } ∧
      registry.Represents (registry.renew lease ttl now ks).2 now (t.put lease.stationIdentity
        (some ⟨lease.ownerID,lease.generation.toNat,now+milliseconds ttl*millisecond⟩)) := by
  obtain ⟨x,hx⟩ := hh
  have hg := hr.not_reserved hx
  simp only [renew,not_le.mpr ht,if_false,renewScript_eq,ownedThen_stored (hr.stored_iff.mpr ⟨x,hx⟩)]
  rw [extendLease,Script.bind_apply,pexpire_live (hr.lease_held hg hx)]
  refine ⟨?_,?_⟩
  · by_cases hm : milliseconds ttl ≤ 0 <;> simp [hm]
  · have hlive := @expiring_lease_live ks now lease.ownerID lease.generation.toNat
      (milliseconds ttl) (registry.leaseKey lease.stationIdentity)
    have hput := hr.put hg hlive (fun k hk => expiring_lease_ne _ _ _ hk)
    by_cases hm : milliseconds ttl ≤ 0
    · simpa [hm] using hput
    · simpa [hm,leaseItem] using hput

/-- A renewal moves the expiry of the live lease, or it fails and changes nothing. -/
theorem renew_spec (hr : registry.Represents ks now t) (lease : Lease) (ttl : Int64) :
    (registry.renew lease ttl now ks).1 = .ok { lease with expiresAt := now+ttl.toInt } ∧
      HeldBy t now lease ∧
      registry.Represents (registry.renew lease ttl now ks).2 now (t.put lease.stationIdentity
        (some ⟨lease.ownerID,lease.generation.toNat,now+milliseconds ttl*millisecond⟩)) ∨
    (∃ e, (registry.renew lease ttl now ks).1 = .error e) ∧
      (registry.renew lease ttl now ks).2 = ks := by
  by_cases ht : ttl.toInt ≤ 0
  · right
    rw [renew,if_pos ht]
    exact ⟨⟨_,rfl⟩,rfl⟩
  · by_cases hh : HeldBy t now lease
    · obtain ⟨hok,hafter⟩ := renew_held hr (not_le.mp ht) hh
      exact .inl ⟨hok,hh,hafter⟩
    · right
      exact renew_refused (mt hr.stored_iff.mp hh) ttl

theorem release_held (hr : registry.Represents ks now t) {lease : Lease} (hh : HeldBy t now lease) :
    (registry.release lease now ks).1 = .ok () ∧
      registry.Represents (registry.release lease now ks).2 now (t.put lease.stationIdentity none) := by
  obtain ⟨x,hx⟩ := hh
  have hg := hr.not_reserved hx
  simp only [release,releaseScript_eq,ownedThen_stored (hr.stored_iff.mpr ⟨x,hx⟩)]
  rw [del_live (hr.lease_held hg hx)]
  refine ⟨rfl,?_⟩
  exact hr.put hg (Keyspace.live_erase_self _ _ _) (fun k hk => Keyspace.live_erase_ne _ _ hk)

/-- A release takes the live lease away, or it fails and changes nothing. -/
theorem release_spec (hr : registry.Represents ks now t) (lease : Lease) :
    (registry.release lease now ks).1 = .ok () ∧ HeldBy t now lease ∧
      registry.Represents (registry.release lease now ks).2 now (t.put lease.stationIdentity none) ∨
    (∃ e, (registry.release lease now ks).1 = .error e) ∧
      (registry.release lease now ks).2 = ks := by
  by_cases hh : HeldBy t now lease
  · obtain ⟨hok,hafter⟩ := release_held hr hh
    exact .inl ⟨hok,hh,hafter⟩
  · right
    exact release_refused (mt hr.stored_iff.mp hh)

theorem renew_lost (hr : registry.Represents ks now t) {lease : Lease} {ttl : Int64}
    (hg : lease.stationIdentity ≠ "generation") (ht : 0 < ttl.toInt) (hh : ¬HeldBy t now lease) :
    registry.renew lease ttl now ks = (.error .leaseLost,ks) := by
  simp only [renew,not_le.mpr ht,if_false,renewScript_eq,ownedThen_unheld hr hg hh]
  rfl

theorem release_lost (hr : registry.Represents ks now t) {lease : Lease}
    (hg : lease.stationIdentity ≠ "generation") (hh : ¬HeldBy t now lease) :
    registry.release lease now ks = (.error .leaseLost,ks) := by
  simp only [release,releaseScript_eq,ownedThen_unheld hr hg hh]
  rfl

theorem lookup_keeps (registry : Registry) (s : String) (now : Int) (ks : Keyspace) :
    (registry.lookup s now ks).2 = ks := by
  have hfields := hmget_readOnly (registry.leaseKey s) ["owner","generation"] now ks
  unfold lookup
  cases hh : hmget (registry.leaseKey s) ["owner","generation"] now ks with
  | mk fields ks' =>
    rw [hh] at hfields
    cases hfields
    cases fields with
    | error fault => rfl
    | ok values =>
      have hremaining := pttl_readOnly (registry.leaseKey s) now ks'
      dsimp only
      cases hp : pttl (registry.leaseKey s) now ks' with
      | mk remaining ks'' =>
        rw [hp] at hremaining
        cases hremaining
        cases remaining with
        | error fault => rfl
        | ok remaining =>
          dsimp only
          split
          · split
            · rfl
            · split <;> rfl
          · rfl

theorem lookup_absent (hr : registry.Represents ks now t) {s : String} (hg : s ≠ "generation")
    (hfree : t.live now s = none) : (registry.lookup s now ks).1 = .error .notFound := by
  have hkey := hr.lease_free hg hfree
  simp only [lookup,hmget_absent hkey,pttl_absent hkey]
  rfl

theorem lookup_held (hr : registry.Represents ks now t) {s : String} (hg : s ≠ "generation")
    {l : Grant String Int} (hl : t.live now s = some l) (hn : l.generation < 2^64)
    (hwhole : millisecond ≤ l.expiresAt-now) :
    (registry.lookup s now ks).1 = .ok ⟨s,l.owner,UInt64.ofNat l.generation,
      now+(l.expiresAt-now)/millisecond*millisecond⟩ := by
  have hkey := hr.lease_held hg hl
  have hgeneration : Decimal.parseUint (toString (l.generation : Int)) =
      some (UInt64.ofNat l.generation) := Decimal.parseUint_toString l.generation hn
  have hmillisecond : millisecond = 1000000 := rfl
  have hremaining : ¬ (l.expiresAt-now)/millisecond ≤ 0 := by
    rw [hmillisecond]
    omega
  simp only [lookup,hmget_hash hkey,pttl_live hkey,List.map_cons,List.map_nil,leaseHash_owner,
    leaseHash_generation,hremaining,if_false,hgeneration]

theorem Represents.lease_station (hr : registry.Represents ks now t) {s : String}
    {l : Grant String Int} (hl : ks.live now (registry.leaseKey s) = some (leaseItem l)) :
    s ≠ "generation" := by
  intro he
  subst s
  have hkey : registry.leaseKey "generation" = registry.generationKey :=
    registry.leaseKey_eq_generationKey.mpr rfl
  have hcount := hr.counter
  rw [← hkey,hl] at hcount
  split at hcount
  · cases hcount
  · have hvalue := congrArg Item.value (Option.some.inj hcount)
    cases hvalue

theorem Represents.live_lease_iff (hr : registry.Represents ks now t) {s : String}
    {l : Grant String Int} :
    ks.live now (registry.leaseKey s) = some (leaseItem l) ↔ t.live now s = some l := by
  constructor
  · intro hl
    rw [hr.lease s (hr.lease_station hl)] at hl
    obtain ⟨l',hl',he⟩ := Option.map_eq_some_iff.mp hl
    rw [hl',leaseItem_inj he]
  · intro hl
    rw [hr.lease s (hr.not_reserved hl),hl]
    rfl

theorem release_other (hr : registry.Represents ks now t) {lease : Lease} {s : String}
    {l : Grant String Int} (hl : ks.live now (registry.leaseKey s) = some (leaseItem l))
    (hne : l.generation ≠ lease.generation.toNat) :
    (registry.release lease now ks).2.live now (registry.leaseKey s) = some (leaseItem l) := by
  rcases release_spec hr lease with ⟨_,⟨x,hx⟩,hafter⟩ | ⟨_,hsame⟩
  · have hs := hr.lease_station hl
    have hstation : s ≠ lease.stationIdentity := by
      intro he
      subst s
      rw [hr.lease _ hs,hx] at hl
      exact hne (congrArg Grant.generation (leaseItem_inj (Option.some.inj hl))).symm
    rw [hafter.lease s hs,Table.live,Table.put_held_ne _ _ hstation,← Table.live,← hr.lease s hs,hl]
  · rw [hsame]
    exact hl

end Registry

end CsmsPlatform
