import CsmsPlatform.Ownership.Executor
import CsmsPlatform.CommandBus.Handler

/-!
# Commands at a stale owner

The ownership check of `handleCommand` reads the runtime's own map. It tells the truth about Redis
for as long as the expiry last stored for the generation has not passed, and no longer.
-/

namespace CsmsPlatform

open Redis FencedLease

namespace World

variable {Runtime Session : Type}

def view (fleet : Fleet Runtime Session) (w : World Runtime Session) (r : Runtime)
    (session : String → Option Version) : RuntimeView :=
  ⟨some ⟨fleet.ownerID r,w.owns fleet r⟩,session⟩

variable {fleet : Fleet Runtime Session} {w : World Runtime Session}

theorem Inv.owns_granted (h : Inv fleet w) {r : Runtime} {s : String} {g : UInt64}
    (ho : w.owns fleet r s g = true) :
    (∃ time expiry, FencedLease.Event.granted time s (fleet.ownerID r) g.toNat expiry ∈ w.service.events) ∧
      ¬Released w.service.events s (fleet.ownerID r) g.toNat := by
  obtain ⟨x,l,hx,hl,hg⟩ := h.owns_iff.mp ho
  obtain ⟨hr,hi,_⟩ := h.placed r s x hx
  obtain ⟨_,howner,time,expiry,hm⟩ := h.own x l hl
  subst hr hi hg
  refine ⟨⟨time,expiry,by rw [← howner]; exact hm⟩,?_⟩
  intro hreleased
  rw [← howner] at hreleased
  exact (h.released x l hl hreleased).2 hx

theorem Inv.owner_live_iff (h : Inv fleet w) {r : Runtime} {s : String} {g : UInt64}
    (ho : w.owns fleet r s g = true) :
    (∃ expiry, w.service.redis.live w.service.now (fleet.registry.leaseKey s) =
      some (leaseItem ⟨fleet.ownerID r,g.toNat,expiry⟩)) ↔
    ∃ expiry, storedExpiry w.service.events g.toNat = some expiry ∧ w.service.now < expiry := by
  obtain ⟨t,ht⟩ := h.sound
  obtain ⟨⟨time,expiry,hm⟩,hr⟩ := h.owns_granted ho
  simp only [ht.represents.live_lease_iff]
  exact ht.consistent.live_iff hm hr

end World

/-- In every state that a run of the managers with fewer than `2^53` granted leases reaches, when
`handleCommand` on any runtime passes its checks and goes on to `callReset`, the registry's live lease
of the station is the command's owner and generation if and only if the check comes before the expiry
that the last `Claim` or `Renew` of that generation stored in Redis. -/
theorem handleCommand_liveOwner_iff {Runtime Session : Type} [DecidableEq Session]
    [DecidableEq Runtime] (fleet : Fleet Runtime Session) (ks : Keyspace) (now : Int)
    (h : fleet.registry.Unused ks now) (actions : List (World.Action Session)) (r : Runtime)
    (session : String → Option Version) (texts : ErrorTexts) (ctxErr : Option String)
    (command : Command) (version : Version) (request : ResetCommand) :
    let w := (World.start ks now).run fleet actions
    w.service.grants < 2^53 →
    handleCommand texts ctxErr (w.view fleet r session) command = .callReset version request →
    ((∃ expiry, w.service.redis.live w.service.now
        (fleet.registry.leaseKey command.stationIdentity) =
        some (leaseItem ⟨command.ownerID,command.ownerGeneration.toNat,expiry⟩)) ↔
      ∃ expiry, storedExpiry w.service.events command.ownerGeneration.toNat = some expiry ∧
        w.service.now < expiry) := by
  intro w hfew hcall
  have hw : World.Inv fleet w := (World.inv_start h).run actions hfew
  have hpass := (handleCommand_callReset hcall).2
  simp only [RuntimeView.isOwner,World.view,Bool.decide_and,Bool.decide_eq_true,Bool.and_eq_true,
    decide_eq_true_eq] at hpass
  obtain ⟨howner,howns⟩ := hpass
  rw [howner]
  exact hw.owner_live_iff howns

/-- Within the time to live, the runtime that passes the check holds the lease. -/
theorem handleCommand_freshOwner :
    let fleet : Fleet Bool Bool := ⟨⟨"csms"⟩,fun r => if r then "runtime-b" else "runtime-a",
      fun _ => 30000000000,id,fun _ => "station-1"⟩
    let w := (World.start Keyspace.empty 0).run fleet [.connectClaim false .answered,
      .connectStore false,.wait 20000000000,.renewTick false .answered,.wait 20000000000]
    ∃ expiry, w.service.redis.live w.service.now (fleet.registry.leaseKey "station-1") =
      some (leaseItem ⟨"runtime-a",1,expiry⟩) := by
  have hrun := handleCommand_liveOwner_iff
    (⟨⟨"csms"⟩,fun r : Bool => if r then "runtime-b" else "runtime-a",fun _ => 30000000000,id,
      fun _ => "station-1"⟩ : Fleet Bool Bool) Keyspace.empty 0 ⟨fun _ => rfl,rfl⟩
    [.connectClaim false .answered,.connectStore false,.wait 20000000000,.renewTick false .answered,
      .wait 20000000000] false (fun _ => some .ocpp16) ⟨id,id⟩ none
    ⟨"4f1e","station-1","runtime-a",1,"Reset",encodeReset ⟨"OnIdle",none⟩,20000000000,50000000000⟩
    .ocpp16 ⟨"OnIdle",none⟩ (by decide +kernel) (by decide +kernel)
  exact hrun.mpr ⟨50000000000,by decide +kernel,by decide +kernel⟩

/-- A runtime whose renewals are late passes the check after its lease ran out and another runtime
claimed the station. -/
theorem handleCommand_staleOwner :
    let fleet : Fleet Bool Bool := ⟨⟨"csms"⟩,fun r => if r then "runtime-b" else "runtime-a",
      fun _ => 30000000000,id,fun _ => "station-1"⟩
    let w := (World.start Keyspace.empty 0).run fleet [.connectClaim false .answered,
      .connectStore false,.wait 31000000000,.connectClaim true .answered,.connectStore true]
    let command : Command := ⟨"4f1e","station-1","runtime-a",1,"Reset",
      encodeReset ⟨"OnIdle",none⟩,10000000000,40000000000⟩
    handleCommand ⟨id,id⟩ (handlerContextErr none command.deadline w.service.now)
      (w.view fleet false fun _ => some .ocpp16) command = .callReset .ocpp16 ⟨"OnIdle",none⟩ ∧
    w.service.redis.live w.service.now (fleet.registry.leaseKey "station-1") =
      some (leaseItem ⟨"runtime-b",2,61000000000⟩) ∧
    ¬∃ expiry, w.service.redis.live w.service.now (fleet.registry.leaseKey "station-1") =
      some (leaseItem ⟨"runtime-a",1,expiry⟩) := by
  have hlive : ((World.start Keyspace.empty 0).run
      (⟨⟨"csms"⟩,fun r : Bool => if r then "runtime-b" else "runtime-a",fun _ => 30000000000,id,
        fun _ => "station-1"⟩ : Fleet Bool Bool) [.connectClaim false .answered,.connectStore false,
      .wait 31000000000,.connectClaim true .answered,.connectStore true]).service.redis.live
        31000000000 "csms:session:station-1" = some (leaseItem ⟨"runtime-b",2,61000000000⟩) := rfl
  refine ⟨by decide +kernel,hlive,?_⟩
  intro hold
  obtain ⟨expiry,hexpiry⟩ := hold
  have hitem := leaseItem_inj (Option.some.inj (hlive.symm.trans hexpiry))
  have howner : "runtime-b" = "runtime-a" := congrArg Grant.owner hitem
  exact absurd howner (by decide)

end CsmsPlatform
