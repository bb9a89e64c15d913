import CsmsPlatform.Registry.Mutex

/-!
# Claims that are refused

A refused claim names the holder of the lease, and the holder has claimed or renewed it within the time
to live that it gave. So a station whose owner is gone can be claimed as soon as that time is over.
-/

namespace CsmsPlatform

open Redis FencedLease

inductive Transition.KeepsPast (now : Int) (s o : String) (g : Nat) (tr : Transition) : Prop
  | claimed {owner : String} {ttl : Int64} {lease : Lease} (hcall : tr.call = .claim s owner ttl)
    (hresult : tr.result = .ok (some lease)) (howner : lease.ownerID = o)
    (hgeneration : lease.generation.toNat = g) (htime : now < tr.time+milliseconds ttl*millisecond)
  | renewed {ttl : Int64} {lease : Lease} {result : Option Lease} (hcall : tr.call = .renew lease ttl)
    (hresult : tr.result = .ok result) (hstation : lease.stationIdentity = s) (howner : lease.ownerID = o)
    (hgeneration : lease.generation.toNat = g) (htime : now < tr.time+milliseconds ttl*millisecond)

theorem milliseconds_lt (ttl : Int64) : milliseconds ttl*millisecond < 2^63 := by
  have hlt := ttl.toInt_lt
  by_cases h : 0 ≤ ttl.toInt
  · have hle := Registry.milliseconds_le h
    omega
  · have hneg : 0 ≤ (-ttl.toInt).tdiv millisecond := Int.tdiv_nonneg (by omega) (by decide)
    rw [Int.neg_tdiv] at hneg
    have hle : milliseconds ttl*millisecond ≤ 0 :=
      Int.mul_nonpos_of_nonpos_of_nonneg (Int.neg_nonneg.mp hneg) (by decide)
    omega

theorem Transition.keepsPast_of_event {tr : Transition} {now time x : Int} {s o : String} {g : Nat}
    (hevent : tr.event = .granted time s o g x ∨ tr.event = .renewed time s o g x) (hx : now < x) :
    tr.KeepsPast now s o g ∧ x < time+2^63 := by
  obtain ⟨at_,call,result,before,after⟩ := tr
  rcases hevent with hevent | hevent
  · cases call with
    | claim s' owner ttl =>
      rcases result with err | _ | lease
      · cases hevent
      · cases hevent
      · cases hevent
        have hlt := milliseconds_lt ttl
        exact ⟨.claimed rfl rfl rfl rfl hx,by omega⟩
    | renew lease ttl => cases result <;> cases hevent
    | release lease => cases result <;> cases hevent
  · cases call with
    | claim s' owner ttl => rcases result with err | _ | lease <;> cases hevent
    | renew lease ttl =>
      cases result with
      | error err => cases hevent
      | ok renewed =>
        cases hevent
        have hlt := milliseconds_lt ttl
        exact ⟨.renewed rfl rfl rfl rfl rfl hx,by omega⟩
    | release lease => cases result <;> cases hevent

namespace Service

variable {registry : Registry} {service : Service} {t : Table String String Int} {s : String}

/-- The holder of a live lease has claimed or renewed it within the time that it gave. -/
theorem Sound.holder (hs : Sound registry service t) {l : Grant String Int}
    (hl : t.live service.now s = some l) :
    LiveGrant service.events service.now s l.owner l.generation ∧
      (∃ tr ∈ service.history, tr.KeepsPast service.now s l.owner l.generation) ∧
      l.expiresAt < service.now+2^63 := by
  have hgrant := hs.consistent.liveGrant hl
  obtain ⟨hheld,hlive⟩ := Table.live_eq_some.mp hl
  obtain ⟨time,hwritten⟩ := hs.fenced.expiry_written hgrant.1 (hs.consistent.held s l hheld).2.2.1
  have hevent : ∃ tr ∈ service.history, tr.event = .granted time s l.owner l.generation l.expiresAt ∨
      tr.event = .renewed time s l.owner l.generation l.expiresAt := by
    rcases hwritten with hm | hm
    · obtain ⟨tr,htr,he⟩ := List.mem_map.mp hm
      exact ⟨tr,htr,.inl he⟩
    · obtain ⟨tr,htr,he⟩ := List.mem_map.mp hm
      exact ⟨tr,htr,.inr he⟩
  obtain ⟨tr,htr,he⟩ := hevent
  obtain ⟨hkeeps,hnear⟩ := Transition.keepsPast_of_event he hlive
  have hpast : time ≤ service.now := by
    rcases hwritten with hm | hm <;> exact hs.consistent.past _ hm
  exact ⟨hgrant,⟨tr,htr,hkeeps⟩,by omega⟩

theorem Sound.claim_free (hs : Sound registry service t) (hfew : service.grants < 2^53)
    (hl : t.live service.now s = none) {o : String} {ttl : Int64} (hne : s ≠ "")
    (hreserved : s ≠ "generation") (ho : o ≠ "") (httl : 0 < ttl.toInt) :
    ∃ g, service.answer registry (.claim s o ttl) =
      .ok (some ⟨s,o,g,service.now+milliseconds ttl*millisecond⟩) := by
  have hcounted := hs.counted
  -- the count after the last exact one is rounded, and that is no refusal
  have hnumber : ∃ n : Nat, Lua.number ((t.counter+1 : Nat) : Int) = n ∧ n < 2^63 := by
    by_cases hb : t.counter < 2^53
    · exact ⟨t.counter+1,Lua.number_eq (by omega),by omega⟩
    · have hlast : t.counter = 2^53 := by omega
      exact ⟨2^53,by rw [hlast]; exact Lua.number_last,by omega⟩
  obtain ⟨n,hn,hlt⟩ := hnumber
  have hok := Registry.claim_answered hs.represents hne ho httl hreserved hl (by omega) hn hlt
  exact ⟨UInt64.ofNat n,congrArg (Except.map some) hok⟩

theorem Sound.claim_held (hs : Sound registry service t) {l : Grant String Int}
    (hl : t.live service.now s = some l) {o : String} {ttl : Int64} (hne : s ≠ "")
    (hreserved : s ≠ "generation") (ho : o ≠ "") (httl : 0 < ttl.toInt) :
    ∃ current, service.answer registry (.claim s o ttl) = .error (.ownershipConflict current) ∧
      current.stationIdentity = s ∧ current.ownerID = l.owner ∧ current.generation.toNat = l.generation := by
  obtain ⟨hgrant,_,hnear⟩ := hs.holder hl
  have hgeneration : l.generation < 2^63 := by
    obtain ⟨time,x,hm⟩ := latestGrant_mem hgrant.1
    have hle := hs.consistent.grantedBound _ hm l.generation rfl
    have hbounded := hs.represents.bounded
    omega
  have hconflict := Registry.claim_conflict hs.represents hne ho httl hreserved hl (by omega) (by omega)
  refine ⟨⟨s,l.owner,UInt64.ofNat l.generation,
    service.now+(l.expiresAt-service.now)/millisecond*millisecond⟩,?_,rfl,rfl,?_⟩
  · simp only [answer,Call.run,hconflict,Except.map]
  · rw [UInt64.toNat_ofNat']
    exact Nat.mod_eq_of_lt (by omega)

end Service

/-- In every run with fewer than `2^53` granted leases, a valid claim of a station with a lease key of
its own is granted unless the station is held. Then it is told who holds it, and that runtime has claimed
or renewed the lease within the time to live that it gave. -/
theorem redisRegistry_available (registry : Registry) (ks : Keyspace) (now : Int)
    (h : registry.Unused ks now) (actions : List Service.Action) (s o : String) (ttl : Int64) (hs : s ≠ "")
    (hreserved : s ≠ "generation") (ho : o ≠ "") (httl : 0 < ttl.toInt) :
    let service := (Service.start ks now).run registry actions
    let answer := service.answer registry (.claim s o ttl)
    service.grants < 2^53 →
    (∃ current, answer = .error (.ownershipConflict current) ∧ current.stationIdentity = s ∧
      LiveGrant service.events service.now s current.ownerID current.generation.toNat ∧
      ∃ tr ∈ service.history,
        tr.KeepsPast service.now s current.ownerID current.generation.toNat) ∨
    (∀ o' g', ¬ LiveGrant service.events service.now s o' g') ∧
      ∃ g, answer = .ok (some ⟨s,o,g,service.now+milliseconds ttl*millisecond⟩) := by
  intro service answer hfew
  obtain ⟨t,hsound⟩ := (Service.sound_start h).run actions hfew
  cases hl : t.live service.now s with
  | none =>
    refine .inr ⟨?_,hsound.claim_free hfew hl hs hreserved ho httl⟩
    intro o' g' hgrant
    obtain ⟨x,hx⟩ := hsound.consistent.live_of_liveGrant hgrant
    rw [hl] at hx
    cases hx
  | some l =>
    obtain ⟨current,hconflict,hstation,howner,hgeneration⟩ := hsound.claim_held hl hs hreserved ho httl
    obtain ⟨hgrant,hkeeps,_⟩ := hsound.holder hl
    rw [← howner,← hgeneration] at hgrant hkeeps
    exact .inl ⟨current,hconflict,hstation,hgrant,hkeeps⟩

def afterCrash (seconds : Nat) : List Service.Action :=
  [.call (.claim "station-1" "runtime-a" 30000000000),.wait (seconds*1000000000)]

theorem redisRegistry_available_afterCrash :
    let held := (Service.start Keyspace.empty 0).run ⟨"csms"⟩ (afterCrash 10)
    let free := (Service.start Keyspace.empty 0).run ⟨"csms"⟩ (afterCrash 30)
    (∃ current, held.answer ⟨"csms"⟩ (.claim "station-1" "runtime-b" 30000000000) =
      .error (.ownershipConflict current) ∧ ∃ tr ∈ held.history,
        tr.KeepsPast 10000000000 "station-1" current.ownerID current.generation.toNat) ∧
    ∃ g, free.answer ⟨"csms"⟩ (.claim "station-1" "runtime-b" 30000000000) =
      .ok (some ⟨"station-1","runtime-b",g,60000000000⟩) := by
  intro held free
  have hfresh : (⟨"csms"⟩ : Registry).Unused Keyspace.empty 0 := ⟨fun _ => rfl,rfl⟩
  have hrun (seconds : Nat) := redisRegistry_available ⟨"csms"⟩ Keyspace.empty 0 hfresh
    (afterCrash seconds) "station-1" "runtime-b" 30000000000 (by decide) (by decide) (by decide) (by decide)
  constructor
  · rcases hrun 10 (by decide +kernel) with ⟨current,hanswer,_,_,hkeeps⟩ | ⟨hnone,_⟩
    · exact ⟨current,hanswer,hkeeps⟩
    · refine absurd ⟨rfl,?_,30000000000,rfl,by decide⟩ (hnone "runtime-a" 1)
      rintro ⟨time,hm⟩
      cases List.mem_singleton.mp hm
  · rcases hrun 30 (by decide +kernel) with ⟨current,hanswer,_⟩ | ⟨_,hgranted⟩
    · cases hanswer
    · exact hgranted

end CsmsPlatform
