import CsmsPlatform.Ownership.Executor

/-!
# Whose ownership a disconnect gives up

`onDisconnect` looks the entry up by identity alone. It gives up its own session's ownership and
nothing else exactly when the slot was not last written by another session's `onConnect`.
-/

namespace CsmsPlatform

open Redis FencedLease

namespace World

variable {Runtime Session : Type} {fleet : Fleet Runtime Session} {w : World Runtime Session}

/-- From here on a callback can release nothing but its own session's entry. -/
def ReleasesOwn (w : World Runtime Session) (x : Session) : Prop :=
  w.phase x = .releasing x ∨ w.phase x = .closed

variable [DecidableEq Session]

/-- Releasing the own entry leaves the registry lease of every other session alone. -/
private theorem Inv.release_keeps (hw : Inv fleet w) {x y : Session} (hx : w.ReleasesOwn x)
    (d : Delivery) {l : Lease} {expiry : Int} (hyx : y ≠ x) (hl : w.claimed y = some l)
    (hlive : w.service.redis.live w.service.now (fleet.registry.leaseKey (fleet.identity y)) =
      some (leaseItem ⟨l.ownerID,l.generation.toNat,expiry⟩)) :
    (w.onDisconnectRelease fleet x d).service.redis.live w.service.now
      (fleet.registry.leaseKey (fleet.identity y)) =
      some (leaseItem ⟨l.ownerID,l.generation.toNat,expiry⟩) := by
  rcases hx with hx | hx
  · obtain ⟨e,he⟩ := Option.ne_none_iff_exists'.mp (hw.releasing x x hx).1
    obtain ⟨l',hl',hle⟩ := hw.entry x e he
    have hne : l.generation.toNat ≠ e.lease.generation.toNat := by
      intro hg
      apply hyx
      apply hw.unique y x l l' hl hl'
      rw [UInt64.toNat_inj.mp hg,hle]
    simp only [World.onDisconnectRelease,hx,he,World.setPhase]
    rcases send_eq fleet w (.release e.lease) d with hs | hs
    · rw [hs]
      exact hlive
    · rw [hs]
      obtain ⟨t,ht⟩ := hw.sound
      exact Registry.release_other ht.represents hlive hne
  · simpa only [World.onDisconnectRelease,hx] using hlive

variable [DecidableEq Runtime]

/-- `x`'s `onDisconnect` leaves every other session's slot, entry and renew loop as they are, and its
release, whenever it comes before `2^53` leases are granted, leaves every other session's lease in the
registry. -/
structure GivesUpOnlyOwn (fleet : Fleet Runtime Session) (w : World Runtime Session) (x : Session) :
    Prop where
  slots : ∀ r i y, y ≠ x → w.entries r i = some y → (w.onDisconnectTake fleet x).entries r i = some y
  entries : ∀ y, y ≠ x → (w.onDisconnectTake fleet x).entry y = w.entry y
  leases : ∀ later d y l expiry, y ≠ x →
    let u := (w.onDisconnectTake fleet x).run fleet later
    u.service.grants < 2^53 → u.claimed y = some l →
    u.service.redis.live u.service.now (fleet.registry.leaseKey (fleet.identity y)) =
      some (leaseItem ⟨l.ownerID,l.generation.toNat,expiry⟩) →
    (u.onDisconnectRelease fleet x d).service.redis.live u.service.now
      (fleet.registry.leaseKey (fleet.identity y)) =
      some (leaseItem ⟨l.ownerID,l.generation.toNat,expiry⟩)

private theorem ReleasesOwn.act {x : Session} (h : w.ReleasesOwn x) (a : Action Session) :
    (w.act fleet a).ReleasesOwn x := by
  have hsend (call : Call) (d : Delivery) : (w.send fleet call d).phase = w.phase := by
    rcases send_eq fleet w call d with he | he <;> rw [he]
  have hset (v : World Runtime Session) (y : Session) (p : Phase Session) (hv : v.phase = w.phase)
      (hy : w.phase y ≠ .closed ∧ (w.phase y = .releasing y → p = .closed)) :
      (v.setPhase y p).ReleasesOwn x := by
    by_cases hxy : x = y
    · subst x
      rcases h with h | h
      · exact .inr (by simp [setPhase,hy.2 h])
      · exact absurd h hy.1
    · simpa [ReleasesOwn,setPhase,hxy,hv] using h
  cases a with
  | connectClaim y d =>
    dsimp only [World.act,onConnectClaim]
    split
    · next hphase =>
      split <;> exact hset _ y _ (by simp [setClaimed,hsend]) (by simp [hphase])
    · exact h
  | connectStore y =>
    dsimp only [World.act,onConnectStore]
    split
    · next lease hphase => exact hset _ y _ rfl (by simp [hphase])
    · exact h
  | renewTick y d =>
    dsimp only [World.act,World.renewTick]
    split
    · split <;> simpa [ReleasesOwn,setEntry,hsend] using h
    · exact h
  | renewStop y =>
    dsimp only [World.act,World.renewStop]
    split <;> exact h
  | disconnectTake y =>
    dsimp only [World.act,onDisconnectTake]
    split
    · next hphase =>
      have hy (p : Phase Session) :
          w.phase y ≠ .closed ∧ (w.phase y = .releasing y → p = .closed) := by
        rcases hphase with he | he <;> simp [he]
      split
      · exact hset _ y _ rfl (hy _)
      · split <;> exact hset _ y _ rfl (hy _)
    · exact h
  | disconnectRelease y d =>
    dsimp only [World.act,onDisconnectRelease]
    split
    · next z hphase =>
      split <;> exact hset _ y .closed (by simp [hsend]) (by simp [hphase])
    · exact h
  | wait n => exact h

private theorem ReleasesOwn.run {x : Session} (h : w.ReleasesOwn x) (actions : List (Action Session)) :
    (w.run fleet actions).ReleasesOwn x := by
  induction actions generalizing w with
  | nil => exact h
  | cons a rest ih => exact ih (h.act a)

private theorem take_own (w : World Runtime Session) {x : Session}
    (hphase : w.phase x = .connected ∨ w.phase x = .refused)
    (hslot : ∀ y, w.entries (fleet.runtime x) (fleet.identity x) = some y → y = x) :
    (w.onDisconnectTake fleet x).ReleasesOwn x ∧
      ∀ y, y ≠ x → (w.onDisconnectTake fleet x).entry y = w.entry y := by
  dsimp only [World.onDisconnectTake]
  rw [if_pos hphase]
  split
  · exact ⟨.inr (by simp [World.setPhase]),fun _ _ => rfl⟩
  · next y hy =>
    have hyx := hslot y hy
    subst y
    split
    · exact ⟨.inr (by simp [World.setPhase]),fun _ _ => rfl⟩
    · refine ⟨.inl (by simp [World.setPhase]),?_⟩
      intro z hz
      simp [World.setPhase,World.setEntry,writeMap,hz]

private theorem take_entries (w : World Runtime Session) {x : Session}
    (hphase : w.phase x = .connected ∨ w.phase x = .refused) (r : Runtime) (i : String) :
    (w.onDisconnectTake fleet x).entries r i =
      if r = fleet.runtime x ∧ i = fleet.identity x then none else w.entries r i := by
  dsimp only [onDisconnectTake]
  rw [if_pos hphase]
  split
  · rfl
  · split <;> rfl

theorem Inv.givesUpOnlyOwn (hw : Inv fleet w) {x : Session}
    (hphase : w.phase x = .connected ∨ w.phase x = .refused)
    (hslot : ∀ y, w.entries (fleet.runtime x) (fleet.identity x) = some y → y = x) :
    w.GivesUpOnlyOwn fleet x := by
  obtain ⟨hown,hentry⟩ := take_own w hphase hslot
  have hafter := hw.onDisconnectTake x
  refine ⟨?_,hentry,?_⟩
  · intro r i y hyx hy
    rw [take_entries w hphase]
    split
    · next hri =>
      rw [hri.1,hri.2] at hy
      exact absurd (hslot y hy) hyx
    · exact hy
  · intro later d y l expiry hyx u hfew hl hlive
    exact (hafter.run later hfew).release_keeps (hown.run later) d hyx hl hlive

theorem GivesUpOnlyOwn.slot {x : Session} (h : w.GivesUpOnlyOwn fleet x)
    (hphase : w.phase x = .connected ∨ w.phase x = .refused) {y : Session}
    (hy : w.entries (fleet.runtime x) (fleet.identity x) = some y) : y = x := by
  by_contra hyx
  have hkept := h.slots _ _ y hyx hy
  rw [take_entries w hphase,if_pos ⟨rfl,rfl⟩] at hkept
  cases hkept

end World

/-- In every run with fewer than `2^53` granted leases, the `onDisconnect` of a session whose
`onConnect` is over gives up only that session's own ownership if and only if the last callback to
write its runtime's map at its identity was not the completed `onConnect` of another session. -/
theorem onDisconnect_givesUpOnlyOwn {Runtime Session : Type} [DecidableEq Session]
    [DecidableEq Runtime] (fleet : Fleet Runtime Session) (ks : Keyspace) (now : Int)
    (h : fleet.registry.Unused ks now) (actions : List (World.Action Session)) (x : Session) :
    let w := (World.start ks now).run fleet actions
    w.service.grants < 2^53 →
    w.phase x = .connected ∨ w.phase x = .refused →
    (w.GivesUpOnlyOwn fleet x ↔
      ∀ y, w.writes (fleet.runtime x) (fleet.identity x) = some (.stored y) → y = x) := by
  intro w hfew hphase
  have hw : World.Inv fleet w := (World.inv_start h).run actions hfew
  constructor
  · intro hown y hy
    exact hown.slot hphase ((hw.written _ _ y).mpr hy)
  · intro hlast
    apply hw.givesUpOnlyOwn hphase
    intro y hy
    exact hlast y ((hw.written _ _ y).mp hy)

theorem onDisconnect_reconnected :
    let fleet : Fleet Unit Bool := ⟨⟨"csms"⟩,fun _ => "runtime-a",fun _ => 30000000000,fun _ => (),
      fun _ => "station-1"⟩
    let w := (World.start Keyspace.empty 0).run fleet [.connectClaim false .answered,
      .connectStore false,.disconnectTake false,.disconnectRelease false .answered,
      .connectClaim true .answered,.connectStore true]
    w.phase true = .connected ∧ w.GivesUpOnlyOwn fleet true := by
  have hrun := onDisconnect_givesUpOnlyOwn
    (⟨⟨"csms"⟩,fun _ => "runtime-a",fun _ => 30000000000,fun _ => (),
      fun _ => "station-1"⟩ : Fleet Unit Bool) Keyspace.empty 0 ⟨fun _ => rfl,rfl⟩
    [.connectClaim false .answered,.connectStore false,.disconnectTake false,
      .disconnectRelease false .answered,.connectClaim true .answered,.connectStore true] true
    (by decide +kernel) (.inl (by decide +kernel))
  exact ⟨by decide +kernel,hrun.mpr (by decide +kernel)⟩

/-- A second session of the identity is refused its claim, and its `onDisconnect` empties the first
session's slot, cancels the first session's renew loop and deletes its lease from Redis. -/
theorem onDisconnect_refusedTakesOther :
    let fleet : Fleet Unit Bool := ⟨⟨"csms"⟩,fun _ => "runtime-a",fun _ => 30000000000,fun _ => (),
      fun _ => "station-1"⟩
    let w := (World.start Keyspace.empty 0).run fleet [.connectClaim false .answered,
      .connectStore false,.connectClaim true .answered]
    let w' := w.run fleet [.disconnectTake true,.disconnectRelease true .answered]
    w.phase true = .refused ∧ w.claimed true = none ∧
    w.owns fleet () "station-1" 1 = true ∧ w'.owns fleet () "station-1" 1 = false ∧
    (w'.entry false).map OwnershipEntry.cancelled = some true ∧
    (w.service.redis.live 0 (fleet.registry.leaseKey "station-1")).isSome = true ∧
    (w'.service.redis.live 0 (fleet.registry.leaseKey "station-1")).isSome = false ∧
    ¬w.GivesUpOnlyOwn fleet true := by
  refine ⟨by decide +kernel,by decide +kernel,by decide +kernel,by decide +kernel,by decide +kernel,
    by decide +kernel,by decide +kernel,?_⟩
  intro hown
  have hslot := hown.slot (.inr (by decide +kernel)) (y := false) (by decide +kernel)
  cases hslot

end CsmsPlatform
