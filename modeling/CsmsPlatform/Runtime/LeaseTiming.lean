import CsmsPlatform.Registry.Mutex
import CsmsPlatform.Runtime.Config

/-!
# Renewing a lease before it expires

`loadConfig` compares the lease TTL and the renew interval in nanoseconds, the registry hands Redis
whole milliseconds. A loaded configuration renews in time exactly when the interval is shorter than
what is left of the TTL after that cut, whatever the other clients of the registry do.
-/

namespace CsmsPlatform

open Redis

/-- A call of another client: it may claim anything, but renews and releases other leases only. -/
def Call.Spares (lease : Lease) (call : Call) : Prop :=
  ∀ named, call.onLease = some named → ¬named.SameAs lease

def Call.ttl : Call → Option Int64
  | .claim _ _ ttl => some ttl
  | .renew _ ttl => some ttl
  | .release _ => none

namespace Registry

variable {registry : Registry} {ks : Keyspace} {now : Int} {lease : Lease}

theorem Stored.call_keeps {call : Call} (h : registry.Stored ks now lease) (hs : call.Spares lease) :
    (call.run registry now ks).2 (registry.leaseKey lease.stationIdentity) =
      ks (registry.leaseKey lease.stationIdentity) := by
  cases call with
  | claim s o ttl => exact h.claim_keeps s o ttl
  | renew named ttl => exact h.renew_keeps (hs named rfl) ttl
  | release named => exact h.release_keeps (hs named rfl)

end Registry

namespace Service

variable {registry : Registry} {service : Service} {lease : Lease} {expiry : Int} {ttl : Int64}

def elapsed : List Action → Nat
  | [] => 0
  | .call _::rest => elapsed rest
  | .wait nanoseconds::rest => nanoseconds+elapsed rest

def Others (lease : Lease) (actions : List Action) : Prop :=
  ∀ call, .call call ∈ actions → call.Spares lease

def Stored (registry : Registry) (service : Service) (lease : Lease) : Prop :=
  registry.Stored service.redis service.now lease

def StoredUntil (registry : Registry) (service : Service) (lease : Lease) (expiry : Int) : Prop :=
  registry.StoredUntil service.redis lease expiry

theorem run_now (registry : Registry) (service : Service) (actions : List Action) :
    (service.run registry actions).now = service.now+elapsed actions := by
  induction actions generalizing service with
  | nil => simp [run,elapsed]
  | cons action rest ih =>
    cases action with
    | call call => exact ih (service.perform registry call)
    | wait nanoseconds =>
      have hrest := ih (service.wait nanoseconds)
      change (run registry (service.wait nanoseconds) rest).now = _
      rw [hrest]
      simp only [wait,elapsed]
      omega

theorem StoredUntil.perform {call : Call} (h : StoredUntil registry service lease expiry)
    (hnow : service.now < expiry) (hs : call.Spares lease) :
    StoredUntil registry (service.perform registry call) lease expiry := by
  have hkeeps := (h.stored_iff.mpr hnow).call_keeps hs
  obtain ⟨item,hi,hrest⟩ := h
  exact ⟨item,hkeeps.trans hi,hrest⟩

theorem StoredUntil.run {actions : List Action} (h : StoredUntil registry service lease expiry)
    (hnow : service.now+elapsed actions < expiry) (ho : Others lease actions) :
    StoredUntil registry (service.run registry actions) lease expiry := by
  induction actions generalizing service with
  | nil => exact h
  | cons action rest ih =>
    have hrest : Others lease rest := fun call hc => ho call (List.mem_cons_of_mem _ hc)
    cases action with
    | call call =>
      have hlt : service.now < expiry := by
        simp only [elapsed] at hnow
        omega
      exact ih (h.perform hlt (ho call List.mem_cons_self)) hnow hrest
    | wait nanoseconds =>
      have hwait : StoredUntil registry (service.wait nanoseconds) lease expiry := h
      have hlt : (service.wait nanoseconds).now+elapsed rest < expiry := by
        simp only [wait,elapsed] at hnow ⊢
        omega
      exact ih hwait hlt hrest

structure Extended (registry : Registry) (service : Service) (lease : Lease) (ttl : Int64) : Prop where
  positive : 0 < ttl.toInt
  written : ∃ written, registry.Stored written service.now lease ∧ service.redis =
    (Redis.pexpire (registry.leaseKey lease.stationIdentity) (milliseconds ttl) service.now written).2

theorem extended_of_answer {call : Call} (hcall : call.ttl = some ttl)
    (h : service.answer registry call = .ok (some lease))
    (hdecimal : call.onLease = none → lease.generation.toNat ≤ 2^62) :
    Extended registry (service.perform registry call) lease ttl := by
  cases call with
  | claim s o ttl' =>
    cases hcall
    cases hrun : registry.claim s o ttl service.now service.redis with
    | mk result after =>
      simp only [answer,Call.run,hrun] at h
      cases result with
      | error e => cases h
      | ok granted =>
        cases h
        obtain ⟨ht,written,hw,hafter⟩ := Registry.claim_ok hrun (hdecimal rfl)
        exact ⟨ht,written,hw,by simp only [perform,Call.run,hrun,hafter]⟩
  | renew named ttl' =>
    cases hcall
    cases hrun : registry.renew named ttl service.now service.redis with
    | mk result after =>
      simp only [answer,Call.run,hrun] at h
      cases result with
      | error e => cases h
      | ok renewed =>
        cases h
        obtain ⟨ht,_,hw,hafter⟩ := Registry.renew_ok hrun
        exact ⟨ht,service.redis,hw,by simp only [perform,Call.run,hrun,hafter]⟩
  | release named => cases hcall

theorem Extended.stored_iff (h : Extended registry service lease ttl) (nanoseconds : Nat) :
    Stored registry (service.wait nanoseconds) lease ↔ nanoseconds < milliseconds ttl*millisecond := by
  obtain ⟨_,written,hw,hredis⟩ := h
  have hle : service.now ≤ service.now+nanoseconds := by omega
  have hiff := hw.pexpire_iff (milliseconds ttl) hle
  rw [← hredis] at hiff
  rw [Stored,wait,hiff]
  omega

theorem Extended.run {actions : List Action} (h : Extended registry service lease ttl)
    (ho : Others lease actions) (hlt : elapsed actions < milliseconds ttl*millisecond) :
    Stored registry (service.run registry actions) lease := by
  obtain ⟨_,written,hw,hredis⟩ := h
  rcases hw.pexpire (milliseconds ttl) with ⟨_,huntil⟩ | ⟨hz,_⟩
  · rw [← hredis] at huntil
    have hrun : StoredUntil registry (service.run registry actions) lease _ :=
      StoredUntil.run huntil (by omega) ho
    refine hrun.stored_iff.mpr ?_
    rw [run_now]
    omega
  · have hmul : milliseconds ttl*millisecond ≤ 0 :=
      Int.mul_nonpos_of_nonpos_of_nonneg hz (by decide)
    omega

/-- The renew loop of an ownership entry. Each tick comes after what other clients have done since the
last one. -/
def renewLoop (registry : Registry) (ttl : Int64) :
    List (List Action) → Lease → Service → Except RegistryError Lease
  | [],lease,_ => .ok lease
  | others::ticks,lease,service =>
    let due := service.run registry others
    match registry.renew lease ttl due.now due.redis with
    | (.error e,_) => .error e
    | (.ok renewed,_) => renewLoop registry ttl ticks renewed (due.perform registry (.renew lease ttl))

theorem Others.same {renewed : Lease} {actions : List Action} (h : Others lease actions)
    (hs : renewed.SameAs lease) : Others renewed actions := by
  intro call hc named hn hsame
  exact h call hc named hn ⟨hsame.1.trans hs.1,hsame.2.1.trans hs.2.1,hsame.2.2.trans hs.2.2⟩

theorem Stored.extended (h : Stored registry service lease) (ht : 0 < ttl.toInt) :
    Extended registry (service.perform registry (.renew lease ttl))
      { lease with expiresAt := service.now+ttl.toInt } ttl := by
  refine extended_of_answer rfl ?_ (fun hclaim => by cases hclaim)
  simp only [answer,Call.run,Registry.renew_stored h ht]
  rfl

theorem Extended.renewLoop_ok {ticks : List (List Action)} (h : Extended registry service lease ttl)
    (hticks : ∀ others ∈ ticks, Others lease others ∧ elapsed others < milliseconds ttl*millisecond) :
    ∃ renewed, renewLoop registry ttl ticks lease service = .ok renewed := by
  induction ticks generalizing lease service with
  | nil => exact ⟨lease,rfl⟩
  | cons others ticks ih =>
    obtain ⟨ho,hlt⟩ := hticks others List.mem_cons_self
    have hdue := h.run ho hlt
    have hrest := ih (hdue.extended h.positive) fun others' hm =>
      ⟨(hticks others' (List.mem_cons_of_mem _ hm)).1.same ⟨rfl,rfl,rfl⟩,
        (hticks others' (List.mem_cons_of_mem _ hm)).2⟩
    simpa only [renewLoop,Registry.renew_stored hdue h.positive] using hrest

theorem renewLoop_late {others : List Action} (ticks : List (List Action))
    (h : ¬Stored registry (service.run registry others) lease) :
    ∃ e, renewLoop registry ttl (others::ticks) lease service = .error e := by
  obtain ⟨⟨e,he⟩,_⟩ := Registry.renew_refused h ttl
  refine ⟨e,?_⟩
  unfold renewLoop
  dsimp only
  split
  · next hr =>
    rw [hr] at he
    exact he
  · next hr =>
    rw [hr] at he
    cases he

end Service

namespace Runtime

/-- The check of `loadConfig` is enough for a TTL of whole milliseconds. -/
theorem loadConfig_wholeMilliseconds {lookup : Environment} {config : Config}
    (h : loadConfig lookup = .ok config) (hwhole : millisecond ∣ config.sessionLeaseTTL.toInt) :
    config.sessionRenew.toInt < milliseconds config.sessionLeaseTTL*millisecond := by
  rw [milliseconds,Int.tdiv_mul_cancel hwhole]
  exact (loaded_of_loadConfig h).renewsInTime

/-- A lease claimed or renewed under a loaded configuration is still stored a renew interval later,
and the renew loop keeps it, exactly when the interval is shorter than the TTL's whole milliseconds. The
generation of a claimed lease is one that Redis stores in decimal. -/
theorem loadConfig_renewsInTime_iff (registry : Registry) (lookup : Environment) (config : Config)
    (h : loadConfig lookup = .ok config) (service : Service) (call : Call) (lease : Lease)
    (hcall : call.ttl = some config.sessionLeaseTTL)
    (hanswer : service.answer registry call = .ok (some lease))
    (hdecimal : call.onLease = none → lease.generation.toNat ≤ 2^62) :
    let granted := service.perform registry call
    let inTime := config.sessionRenew.toInt < milliseconds config.sessionLeaseTTL*millisecond
    ((∀ others, Service.Others lease others → Service.elapsed others = config.sessionRenew.toInt →
        Service.Stored registry (granted.run registry others) lease) ↔ inTime) ∧
    ((∀ ticks, (∀ others ∈ ticks, Service.Others lease others ∧
        Service.elapsed others = config.sessionRenew.toInt) →
        ∃ renewed, Service.renewLoop registry config.sessionLeaseTTL ticks lease granted = .ok renewed) ↔
      inTime) := by
  intro granted inTime
  have hextended := Service.extended_of_answer hcall hanswer hdecimal
  have hpositive := positiveDuration_pos (loaded_of_loadConfig h).sessionRenew (by decide)
  have hinterval : (config.sessionRenew.toInt.toNat : Int) = config.sessionRenew.toInt := by omega
  have hquiet : Service.Others lease [.wait config.sessionRenew.toInt.toNat] := by
    intro call hc
    simp at hc
  have hlate : Service.Stored registry
      (granted.run registry [.wait config.sessionRenew.toInt.toNat]) lease ↔ inTime := by
    have hiff := hextended.stored_iff config.sessionRenew.toInt.toNat
    rw [hinterval] at hiff
    exact hiff
  refine ⟨⟨fun hall => ?_,fun hlt others ho he => ?_⟩,⟨fun hall => ?_,fun hlt ticks hticks => ?_⟩⟩
  · exact hlate.mp (hall _ hquiet (by simpa [Service.elapsed] using hinterval))
  · exact hextended.run ho (by rw [he]; exact hlt)
  · by_contra hnot
    obtain ⟨e,he⟩ := Service.renewLoop_late [] (mt hlate.mp hnot)
    obtain ⟨renewed,hr⟩ := hall [[.wait config.sessionRenew.toInt.toNat]] (by
      intro others hm
      rw [List.mem_singleton.mp hm]
      exact ⟨hquiet,by simpa [Service.elapsed] using hinterval⟩)
    rw [hr] at he
    cases he
  · refine hextended.renewLoop_ok fun others hm => ⟨(hticks others hm).1,?_⟩
    rw [(hticks others hm).2]
    exact hlt

theorem loadConfig_renewsInTime_default :
    let granted := (Service.start Keyspace.empty 0).perform ⟨"csms"⟩
      (.claim "station-1" "runtime-a" 30000000000)
    let lease : Lease := ⟨"station-1","runtime-a",1,30000000000⟩
    loadConfig (fun _ => none) = .ok {} ∧
    Service.Stored ⟨"csms"⟩ (granted.run ⟨"csms"⟩ [.wait 4000000000,
      .call (.claim "station-1" "runtime-b" 30000000000),.wait 6000000000]) lease := by
  intro granted lease
  have hload : loadConfig (fun _ => none) = .ok {} := rfl
  have hiff := loadConfig_renewsInTime_iff ⟨"csms"⟩ (fun _ => none) {} hload
    (.start Keyspace.empty 0) (.claim "station-1" "runtime-a" 30000000000) lease rfl
    (by decide +kernel) (fun _ => by decide)
  refine ⟨hload,hiff.1.mpr (by decide) _ ?_ (by decide)⟩
  intro call hc named hn
  simp only [List.mem_cons,reduceCtorEq,Service.Action.call.injEq,List.not_mem_nil,or_false,
    false_or] at hc
  subst call
  cases hn

/-- A TTL below a millisecond passes the check and reaches Redis as zero: the claim succeeds, its key
is deleted at once, and the first tick finds the lease lost. -/
theorem loadConfig_renewsTooLate :
    let lookup : Environment := fun name =>
      if name = "CSMS_SESSION_LEASE_TTL" then some "900us"
      else if name = "CSMS_SESSION_RENEW_INTERVAL" then some "500us" else none
    let config : Config := { sessionLeaseTTL := 900000,sessionRenew := 500000 }
    let granted := (Service.start Keyspace.empty 0).perform ⟨"csms"⟩
      (.claim "station-1" "runtime-a" config.sessionLeaseTTL)
    let lease : Lease := ⟨"station-1","runtime-a",1,0⟩
    loadConfig lookup = .ok config ∧
    (Service.start Keyspace.empty 0).answer ⟨"csms"⟩
      (.claim "station-1" "runtime-a" config.sessionLeaseTTL) = .ok (some lease) ∧
    ¬Service.Stored ⟨"csms"⟩ (granted.run ⟨"csms"⟩ [.wait 500000]) lease ∧
    Service.renewLoop ⟨"csms"⟩ config.sessionLeaseTTL [[.wait 500000]] lease granted =
      .error .leaseLost := by
  intro lookup config granted lease
  refine ⟨by decide +kernel,by decide +kernel,?_,by decide +kernel⟩
  rintro ⟨item,hi,_⟩
  have hgone : ((granted.run ⟨"csms"⟩ [.wait 500000]).redis.live 500000
      (Registry.leaseKey ⟨"csms"⟩ "station-1")).isSome = false := by decide +kernel
  have hlive := congrArg Option.isSome hi
  exact Bool.false_ne_true (hgone.symm.trans hlive)

end Runtime

end CsmsPlatform
