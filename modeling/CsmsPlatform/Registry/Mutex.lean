import CsmsPlatform.Registry.Refinement

/-!
# Runs of the Redis registry

Any number of runtimes call the registry in any order while time passes. The history keeps every
call with its answer and the keyspaces around it.
-/

namespace CsmsPlatform

open Redis FencedLease

inductive Call where
  | claim (stationIdentity ownerID : String) (ttl : Int64)
  | renew (lease : Lease) (ttl : Int64)
  | release (lease : Lease)
deriving DecidableEq, Repr

def Call.run (registry : Registry) (now : Int) (ks : Keyspace) :
    Call → Except RegistryError (Option Lease) × Keyspace
  | .claim s o ttl => ((registry.claim s o ttl now ks).1.map some,(registry.claim s o ttl now ks).2)
  | .renew lease ttl => ((registry.renew lease ttl now ks).1.map some,(registry.renew lease ttl now ks).2)
  | .release lease => ((registry.release lease now ks).1.map fun _ => none,(registry.release lease now ks).2)

structure Transition where
  time : Int
  call : Call
  result : Except RegistryError (Option Lease)
  before : Keyspace
  after : Keyspace

def Transition.event (tr : Transition) : FencedLease.Event String String Int :=
  match tr.call,tr.result with
  | .claim s _ ttl,.ok (some lease) =>
    .granted tr.time s lease.ownerID lease.generation.toNat (tr.time+milliseconds ttl*millisecond)
  | .renew lease ttl,.ok _ =>
    .renewed tr.time lease.stationIdentity lease.ownerID lease.generation.toNat
      (tr.time+milliseconds ttl*millisecond)
  | .release lease,.ok _ =>
    .released tr.time lease.stationIdentity lease.ownerID lease.generation.toNat
  | _,_ => .denied tr.time

def Call.onLease : Call → Option Lease
  | .claim _ _ _ => none
  | .renew lease _ => some lease
  | .release lease => some lease

/-- A renewal or release that is told the lease was lost left Redis as it was. -/
def Transition.LostQuietly (tr : Transition) : Prop :=
  ∀ lease, tr.call.onLease = some lease → tr.result = .error .leaseLost → tr.after = tr.before

/-- Redis, the clock, and every registry call answered so far, newest first. -/
structure Service where
  redis : Keyspace
  now : Int
  history : List Transition

namespace Service

def start (ks : Keyspace) (now : Int) : Service := ⟨ks,now,[]⟩

def events (service : Service) : List (FencedLease.Event String String Int) :=
  service.history.map Transition.event

def grants (service : Service) : Nat :=
  service.events.countP fun e => e.grantedGeneration.isSome

def answer (registry : Registry) (service : Service) (call : Call) :
    Except RegistryError (Option Lease) :=
  (call.run registry service.now service.redis).1

def perform (registry : Registry) (service : Service) (call : Call) : Service where
  redis := (call.run registry service.now service.redis).2
  now := service.now
  history := ⟨service.now,call,service.answer registry call,service.redis,
    (call.run registry service.now service.redis).2⟩::service.history

def wait (service : Service) (nanoseconds : Nat) : Service :=
  { service with now := service.now+nanoseconds }

inductive Action where
  | call (call : Call)
  | wait (nanoseconds : Nat)
deriving DecidableEq, Repr

def act (registry : Registry) (service : Service) : Action → Service
  | .call call => service.perform registry call
  | .wait nanoseconds => service.wait nanoseconds

def run (registry : Registry) (service : Service) (actions : List Action) : Service :=
  actions.foldl (act registry) service

/-- The keyspace shows a lease table that the history accounts for. -/
structure Sound (registry : Registry) (service : Service) (t : Table String String Int) : Prop where
  represents : registry.Represents service.redis service.now t
  consistent : Consistent service.events t service.now
  fenced : Fenced service.events
  quiet : ∀ tr ∈ service.history, tr.LostQuietly
  counted : t.counter ≤ service.grants+1

variable {registry : Registry} {service : Service} {t : Table String String Int}

theorem sound_start {ks : Keyspace} {now : Int} (h : registry.Unused ks now) :
    Sound registry (start ks now) Table.empty :=
  ⟨h.represents,consistent_empty now,fenced_nil,by simp [start],Nat.zero_le _⟩

theorem Sound.wait (hs : Sound registry service t) (d : Nat) : Sound registry (service.wait d) t := by
  have hle : service.now ≤ service.now+d := by omega
  exact ⟨hs.represents.wait hle,hs.consistent.wait hle,hs.fenced,hs.quiet,hs.counted⟩

theorem perform_events (registry : Registry) (service : Service) (call : Call) :
    (service.perform registry call).events = Transition.event ⟨service.now,call,
      service.answer registry call,service.redis,(call.run registry service.now service.redis).2⟩::
        service.events := rfl

theorem grants_le_perform (registry : Registry) (service : Service) (call : Call) :
    service.grants ≤ (service.perform registry call).grants := by
  unfold grants
  rw [perform_events,List.countP_cons]
  exact Nat.le_add_right _ _

theorem grants_onLease {call : Call} {lease : Lease} (h : call.onLease = some lease) :
    (service.perform registry call).grants = service.grants := by
  unfold grants
  rw [perform_events]
  apply List.countP_cons_of_neg
  cases call with
  | claim s o ttl => cases h
  | renew lease ttl =>
    cases service.answer registry (.renew lease ttl) <;>
      simp [Transition.event,Event.grantedGeneration]
  | release lease =>
    cases service.answer registry (.release lease) <;>
      simp [Transition.event,Event.grantedGeneration]

theorem grants_claim {s o : String} {ttl : Int64} {lease : Lease}
    (h : service.answer registry (.claim s o ttl) = .ok (some lease)) :
    (service.perform registry (.claim s o ttl)).grants = service.grants+1 := by
  unfold grants
  rw [perform_events,h]
  exact List.countP_cons_of_pos rfl

theorem grants_le_run (registry : Registry) (service : Service) (actions : List Action) :
    service.grants ≤ (service.run registry actions).grants := by
  induction actions generalizing service with
  | nil => exact le_rfl
  | cons action rest ih =>
    cases action with
    | call call => exact (grants_le_perform registry service call).trans (ih _)
    | wait d => exact ih (service.wait d)

private theorem lostQuietly_answer (hr : registry.Represents service.redis service.now t)
    (call : Call) : Transition.LostQuietly ⟨service.now,call,service.answer registry call,
      service.redis,(call.run registry service.now service.redis).2⟩ := by
  intro lease hl hlost
  cases call with
  | claim s o ttl => cases hl
  | renew lease' ttl =>
    rcases Registry.renew_spec hr lease' ttl with ⟨hok,_⟩ | ⟨_,hsame⟩
    · simp [answer,Call.run,hok,Except.map] at hlost
    · exact hsame
  | release lease' =>
    rcases Registry.release_spec hr lease' with ⟨hok,_⟩ | ⟨_,hsame⟩
    · simp [answer,Call.run,hok,Except.map] at hlost
    · exact hsame

private theorem Sound.next (hs : Sound registry service t) {call : Call}
    {t' : Table String String Int} {e : FencedLease.Event String String Int}
    (hevent : Transition.event ⟨service.now,call,service.answer registry call,service.redis,
      (call.run registry service.now service.redis).2⟩ = e)
    (hr : registry.Represents (call.run registry service.now service.redis).2 service.now t')
    (hstep : Step t e t') (htime : e.time = service.now)
    (hcount : t'.counter ≤ (service.perform registry call).grants+1) :
    Sound registry (service.perform registry call) t' := by
  subst hevent
  refine ⟨hr,hs.consistent.step hstep htime,hs.fenced.step hs.consistent hstep htime,?_,hcount⟩
  intro tr htr
  rcases List.mem_cons.mp htr with rfl | htr
  · exact lostQuietly_answer hs.represents call
  · exact hs.quiet tr htr

/-- While few leases have been granted, no claim meets a count that is not exact. -/
theorem Sound.claim_spec (hs : Sound registry service t) {s o : String} {ttl : Int64}
    (hfew : (service.perform registry (.claim s o ttl)).grants < 2^53) :
    service.answer registry (.claim s o ttl) =
        .ok (some ⟨s,o,UInt64.ofNat (t.counter+1),service.now+milliseconds ttl*millisecond⟩) ∧
      t.counter < 2^53 ∧ t.live service.now s = none ∧
      registry.Represents (registry.claim s o ttl service.now service.redis).2 service.now
        (t.next.put s (some ⟨o,t.counter+1,service.now+milliseconds ttl*millisecond⟩)) ∨
    (∃ e, service.answer registry (.claim s o ttl) = .error e) ∧
      (registry.Represents (registry.claim s o ttl service.now service.redis).2 service.now t ∨
        t.counter = 0 ∧
          registry.Represents (registry.claim s o ttl service.now service.redis).2 service.now t.next) := by
  rcases Registry.claim_spec hs.represents s o ttl with ⟨hok,hrest⟩ | ⟨⟨e,he⟩,hr⟩ | ⟨hlast,hok⟩
  · exact .inl ⟨by simp [answer,Call.run,hok,Except.map],hrest⟩
  · exact .inr ⟨⟨e,by simp [answer,Call.run,he,Except.map]⟩,hr⟩
  · have hcounted := hs.counted
    have hle := grants_le_perform registry service (.claim s o ttl)
    obtain ⟨lease,hlease⟩ := hok (by omega)
    have hgranted : service.answer registry (.claim s o ttl) = .ok (some lease) := by
      simp [answer,Call.run,hlease,Except.map]
    rw [grants_claim hgranted] at hfew
    omega

theorem Sound.perform (hs : Sound registry service t) (call : Call)
    (hfew : (service.perform registry call).grants < 2^53) :
    ∃ t', Sound registry (service.perform registry call) t' := by
  have hcounted := hs.counted
  have hle := grants_le_perform registry service call
  cases call with
  | claim s o ttl =>
    rcases hs.claim_spec hfew with ⟨hok,hb,hfree,hr⟩ | ⟨⟨e,he⟩,hr⟩
    · refine ⟨_,hs.next ?_ hr (.granted t service.now s o _ hfree) rfl ?_⟩
      · simp [Transition.event,hok]
        omega
      · rw [grants_claim hok]
        exact Nat.succ_le_succ hcounted
    · have hevent : Transition.event ⟨service.now,.claim s o ttl,
          service.answer registry (.claim s o ttl),service.redis,
          (Call.run registry service.now service.redis (.claim s o ttl)).2⟩ = .denied service.now := by
        simp [Transition.event,he]
      rcases hr with hr | ⟨hz,hr⟩
      · exact ⟨_,hs.next hevent hr (.denied t service.now) rfl (by omega)⟩
      · exact ⟨_,hs.next hevent hr (.burned t service.now) rfl (by simp [Table.next,hz])⟩
  | renew lease ttl =>
    rcases Registry.renew_spec hs.represents lease ttl with ⟨hok,⟨x,hx⟩,hr⟩ | ⟨⟨e,he⟩,hsame⟩
    · refine ⟨_,hs.next ?_ hr (.renewed t service.now lease.stationIdentity _ _ hx) rfl
        (by rw [Table.put_counter]; omega)⟩
      simp [Transition.event,answer,Call.run,hok,Except.map]
    · refine ⟨t,hs.next ?_ ?_ (.denied t service.now) rfl (by omega)⟩
      · simp [Transition.event,answer,Call.run,he,Except.map]
      · simp only [Call.run,hsame]
        exact hs.represents
  | release lease =>
    rcases Registry.release_spec hs.represents lease with ⟨hok,⟨x,hx⟩,hr⟩ | ⟨⟨e,he⟩,hsame⟩
    · refine ⟨_,hs.next ?_ hr (.released t service.now lease.stationIdentity _ hx) rfl
        (by rw [Table.put_counter]; omega)⟩
      simp [Transition.event,answer,Call.run,hok,Except.map]
    · refine ⟨t,hs.next ?_ ?_ (.denied t service.now) rfl (by omega)⟩
      · simp [Transition.event,answer,Call.run,he,Except.map]
      · simp only [Call.run,hsame]
        exact hs.represents

theorem Sound.run (hs : Sound registry service t) (actions : List Action)
    (hfew : (service.run registry actions).grants < 2^53) :
    ∃ t', Sound registry (service.run registry actions) t' := by
  induction actions generalizing service t with
  | nil => exact ⟨t,hs⟩
  | cons action rest ih =>
    cases action with
    | call call =>
      obtain ⟨t',ht⟩ := hs.perform call ((grants_le_run registry _ rest).trans_lt hfew)
      exact ih ht hfew
    | wait d => exact ih (hs.wait d) hfew

theorem mem_perform_events {call : Call} {e : FencedLease.Event String String Int}
    (h : e ∈ service.events) :
    e ∈ (service.perform registry call).events := by
  rw [perform_events]
  exact List.mem_cons_of_mem _ h

theorem Sound.claim_fresh (hs : Sound registry service t) {s o : String} {ttl : Int64} {lease : Lease}
    (h : service.answer registry (.claim s o ttl) = .ok (some lease))
    (hfew : (service.perform registry (.claim s o ttl)).grants < 2^53) :
    lease.stationIdentity = s ∧ lease.ownerID = o ∧
      (∃ x, (service.perform registry (.claim s o ttl)).events =
        .granted service.now s o lease.generation.toNat x::service.events) ∧
      (∀ e ∈ service.events, ∀ g, e.grantedGeneration = some g → g < lease.generation.toNat) ∧
      ∀ time s' o' g, FencedLease.Event.released time s' o' g ∈ service.events →
        g < lease.generation.toNat := by
  rcases hs.claim_spec hfew with ⟨hok,hb,_,_⟩ | ⟨⟨e,he⟩,_⟩
  · have hl : lease = ⟨s,o,UInt64.ofNat (t.counter+1),
        service.now+milliseconds ttl*millisecond⟩ := by
      rw [hok] at h
      cases h
      rfl
    have hn : (UInt64.ofNat (t.counter+1)).toNat = t.counter+1 := by
      rw [UInt64.toNat_ofNat']
      exact Nat.mod_eq_of_lt (by omega)
    subst lease
    refine ⟨rfl,rfl,⟨service.now+milliseconds ttl*millisecond,?_⟩,?_,?_⟩
    · rw [perform_events,h]
      rfl
    · intro e he g hg
      have := hs.consistent.grantedBound e he g hg
      simp only [hn]
      omega
    · intro time s' o' g hm
      have := hs.consistent.releasedBound time s' o' g hm
      simp only [hn]
      omega
  · rw [he] at h
    cases h

theorem released_perform {call : Call} {s o : String} {g : Nat}
    (h : Released (service.perform registry call).events s o g) :
    Released service.events s o g ∨
      ∃ lease, call = .release lease ∧ lease.stationIdentity = s ∧ lease.ownerID = o ∧
        lease.generation.toNat = g := by
  rw [perform_events,released_cons] at h
  rcases h with ⟨time,he⟩ | h
  · right
    unfold Transition.event at he
    split at he
    · cases he
    · cases he
    · next lease _ hc _ =>
      simp only [FencedLease.Event.released.injEq] at he
      exact ⟨lease,hc,he.2.1,he.2.2.1,he.2.2.2⟩
    · cases he
  · exact .inl h

theorem renew_answer {lease renewed : Lease} {ttl : Int64}
    (h : service.answer registry (.renew lease ttl) = .ok (some renewed)) :
    renewed = { lease with expiresAt := renewed.expiresAt } := by
  unfold answer Call.run at h
  simp only at h
  generalize hr : registry.renew lease ttl service.now service.redis = result at h
  obtain ⟨outcome,ks⟩ := result
  unfold Registry.renew at hr
  split at hr
  · cases hr
    cases h
  · split at hr
    · cases hr
      cases h
    · split at hr
      · cases hr
        cases h
      · cases hr
        simp only [Except.map,Except.ok.injEq,Option.some.injEq] at h
        subst renewed
        rfl

theorem Sound.stored (hs : Sound registry service t) {s : String} (hg : s ≠ "generation")
    {item : Item} (hi : service.redis.live service.now (registry.leaseKey s) = some item) :
    ∃ l : Grant String Int, item = leaseItem l ∧
      LiveGrant service.events service.now s l.owner l.generation ∧
      storedExpiry service.events l.generation = some l.expiresAt := by
  rw [hs.represents.lease s hg] at hi
  obtain ⟨l,hl,rfl⟩ := Option.map_eq_some_iff.mp hi
  exact ⟨l,rfl,hs.consistent.liveGrant hl,
    (hs.consistent.held s l (Table.live_eq_some.mp hl).1).2.2.1⟩

end Service

/-- Mutual exclusion and fencing of the Redis registry, over every run with fewer than `2^53` granted
leases: generations grow from one
successful claim to the next; a claim succeeds only when each earlier lease of the station was
released under its own name or reached the expiry stored for it, so the periods of two generations
never overlap; renewals and releases succeed for the latest live grant only, and one that is told
the lease was lost changes nothing. -/
theorem redisRegistry_mutualExclusion (registry : Registry) (ks : Keyspace) (now : Int)
    (h : registry.Unused ks now) (actions : List Service.Action) :
    let service := (Service.start ks now).run registry actions
    service.grants < 2^53 →
    Fenced service.events ∧
    (∀ s item, s ≠ "generation" →
      service.redis.live service.now (registry.leaseKey s) = some item →
      ∃ l : Grant String Int, item = leaseItem l ∧
        LiveGrant service.events service.now s l.owner l.generation ∧
        storedExpiry service.events l.generation = some l.expiresAt) ∧
    ∀ tr ∈ service.history, tr.LostQuietly := by
  intro service hfew
  obtain ⟨t,hs⟩ := (Service.sound_start h).run actions hfew
  exact ⟨hs.fenced,fun s item hg hi => hs.stored hg hi,hs.quiet⟩

theorem redisRegistry_takeover :
    let actions : List Service.Action := [.call (.claim "station-1" "runtime-a" 30000000000),
      .call (.claim "station-1" "runtime-b" 30000000000),.wait 31000000000,
      .call (.claim "station-1" "runtime-b" 30000000000),
      .call (.release ⟨"station-1","runtime-a",1,30000000000⟩)]
    let service := (Service.start Keyspace.empty 0).run ⟨"test"⟩ actions
    service.events = [.denied 31000000000,
      .granted 31000000000 "station-1" "runtime-b" 2 61000000000,.denied 0,
      .granted 0 "station-1" "runtime-a" 1 30000000000] ∧
    Fenced service.events ∧ ∀ tr ∈ service.history, tr.LostQuietly := by
  intro actions service
  have hfresh : (⟨"test"⟩ : Registry).Unused Keyspace.empty 0 := ⟨fun _ => rfl,rfl⟩
  have hrun := redisRegistry_mutualExclusion ⟨"test"⟩ Keyspace.empty 0 hfresh actions (by decide +kernel)
  exact ⟨by decide +kernel,hrun.1,hrun.2.2⟩

namespace Service

/-- A claim for a millisecond, and the millisecond. -/
def claimRound (s o : String) : List Action := [.call (.claim s o 1000000),.wait 1000000]

section Rounds

variable {registry : Registry} {s o : String} (hs : s ≠ "") (ho : o ≠ "") (hg : s ≠ "generation")
include hs ho hg

theorem run_claimRound {service : Service} {t : Table String String Int}
    (hr : registry.Represents service.redis service.now t) (hfree : t.live service.now s = none)
    (hb : t.counter < 2^53) :
    ∃ t', registry.Represents (service.run registry (claimRound s o)).redis
        (service.run registry (claimRound s o)).now t' ∧ t'.counter = t.counter+1 ∧
      t'.live (service.run registry (claimRound s o)).now s = none := by
  have hgranted := (Registry.claim_granted hr hs ho (by decide : 0 < (1000000 : Int64).toInt) hg hfree hb).2
  have hle : service.now ≤ service.now+(1000000 : Nat) := by omega
  refine ⟨_,hgranted.wait hle,rfl,?_⟩
  have hmillisecond : milliseconds 1000000*millisecond = 1000000 := by decide
  change (Table.live _ (service.now+(1000000 : Nat)) s) = none
  rw [Table.live,Table.put_held_self,hmillisecond]
  simp [Option.filter]

theorem run_claimRounds (n : Nat) {service : Service} {t : Table String String Int}
    (hr : registry.Represents service.redis service.now t) (hfree : t.live service.now s = none)
    (hb : t.counter+n ≤ 2^53) :
    let after := service.run registry (List.replicate n (claimRound s o)).flatten
    ∃ t', registry.Represents after.redis after.now t' ∧ t'.counter = t.counter+n ∧
      t'.live after.now s = none := by
  induction n generalizing service t with
  | zero => exact ⟨t,hr,rfl,hfree⟩
  | succ n ih =>
    obtain ⟨t₁,hr₁,hc₁,hfree₁⟩ := run_claimRound hs ho hg hr hfree (by omega)
    obtain ⟨t₂,hr₂,hc₂,hfree₂⟩ := ih hr₁ hfree₁ (by omega)
    simp only [List.replicate_succ,List.flatten_cons,run,List.foldl_append]
    exact ⟨t₂,hr₂,by omega,hfree₂⟩

/-- The next count is given as it is, and the one after it is rounded down to the same number, whoever
claims. -/
theorem last_claimRound {service : Service} {t : Table String String Int} {o' : String} (ho' : o' ≠ "")
    (hr : registry.Represents service.redis service.now t) (hfree : t.live service.now s = none)
    (hcount : t.counter+1 = 2^53) :
    (∃ x, service.answer registry (.claim s o 1000000) = .ok (some ⟨s,o,9007199254740992,x⟩)) ∧
    ∃ x, (service.run registry (claimRound s o)).answer registry (.claim s o' 1000000) =
      .ok (some ⟨s,o',9007199254740992,x⟩) := by
  have ht : 0 < (1000000 : Int64).toInt := by decide
  obtain ⟨t',hr',hc',hfree'⟩ := run_claimRound hs ho hg hr hfree (by omega)
  have hlast : Lua.number ((t.counter+1 : Nat) : Int) = (2^53 : Nat) := by
    rw [hcount]
    exact Lua.number_eq (by decide)
  have hrounded : Lua.number ((t'.counter+1 : Nat) : Int) = (2^53 : Nat) := by
    rw [hc',hcount]
    exact Lua.number_last
  have hfirst := Registry.claim_answered hr hs ho ht hg hfree (by omega) hlast (by decide)
  have hsecond := Registry.claim_answered hr' hs ho' ht hg hfree' (by omega) hrounded (by decide)
  exact ⟨⟨_,congrArg (Except.map some) hfirst⟩,_,congrArg (Except.map some) hsecond⟩

end Rounds

theorem not_fenced_of_repeated {registry : Registry} {service : Service} {s o o' : String}
    {first second : Lease} (h₁ : service.answer registry (.claim s o 1000000) = .ok (some first))
    (h₂ : (service.run registry (claimRound s o)).answer registry (.claim s o' 1000000) =
      .ok (some second)) (hsame : first.generation = second.generation) :
    ¬Fenced ((service.run registry (claimRound s o)).perform registry (.claim s o' 1000000)).events := by
  intro hfenced
  have hincrease := hfenced.increase
  rw [perform_events,h₂] at hincrease
  have hlt := (grantsIncrease_cons.mp hincrease).1 _ rfl (Transition.event ⟨service.now,
    .claim s o 1000000,.ok (some first),service.redis,_⟩) (by rw [← h₁]; exact List.mem_cons_self) _ rfl
  rw [hsame] at hlt
  exact lt_irrefl _ hlt

end Service

/-- The first `2^53` leases of a fresh registry have the generations `1` to `2^53`. The next count is
not a double, and the claim that meets it is given `2^53` again. -/
theorem redisRegistry_repeatsGeneration :
    let round := Service.claimRound "station-1" "runtime-a"
    let service := (Service.start Keyspace.empty 0).run ⟨"csms"⟩ (List.replicate (2^53-1) round).flatten
    let later := service.run ⟨"csms"⟩ round
    let rival : Call := .claim "station-1" "runtime-b" 1000000
    (∃ x, service.answer ⟨"csms"⟩ (.claim "station-1" "runtime-a" 1000000) =
      .ok (some ⟨"station-1","runtime-a",9007199254740992,x⟩)) ∧
    (∃ x, later.answer ⟨"csms"⟩ rival = .ok (some ⟨"station-1","runtime-b",9007199254740992,x⟩)) ∧
    ¬Fenced (later.perform ⟨"csms"⟩ rival).events := by
  have hs : "station-1" ≠ "" := by decide
  have ho : "runtime-a" ≠ "" := by decide
  have ho' : "runtime-b" ≠ "" := by decide
  have hg : "station-1" ≠ "generation" := by decide
  have hfresh : (⟨"csms"⟩ : Registry).Unused Keyspace.empty 0 := ⟨fun _ => rfl,rfl⟩
  have hrounds := Service.run_claimRounds hs ho hg (2^53-1) (Service.sound_start hfresh).represents rfl
    (by simp [Table.empty])
  dsimp only at hrounds ⊢
  generalize (Service.start Keyspace.empty 0).run ⟨"csms"⟩
    (List.replicate (2^53-1) (Service.claimRound "station-1" "runtime-a")).flatten = service at hrounds ⊢
  obtain ⟨t,hr,hc,hfree⟩ := hrounds
  have hcount : t.counter+1 = 2^53 := by
    rw [hc]
    simp [Table.empty]
  obtain ⟨⟨x,hfirst⟩,y,hsecond⟩ := Service.last_claimRound hs ho hg ho' hr hfree hcount
  exact ⟨⟨x,hfirst⟩,⟨y,hsecond⟩,Service.not_fenced_of_repeated hfirst hsecond rfl⟩

end CsmsPlatform
