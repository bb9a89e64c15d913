import CsmsPlatform.Ownership.Manager

/-!
# What every run of the managers keeps

Each session claims at most one generation, and no two sessions the same one while fewer than `2^53`
leases have been granted. A map slot holds the entry of a session of that runtime and identity; an entry
that was released is in no slot and never returns to one.
-/

namespace CsmsPlatform

open Redis FencedLease

variable {Runtime Session : Type}

structure World.Inv (fleet : Fleet Runtime Session) (w : World Runtime Session) : Prop where
  sound : ∃ t, Service.Sound fleet.registry w.service t
  few : w.service.grants < 2^53
  opened : ∀ x, w.phase x = .opened → w.claimed x = none
  pending : ∀ x l, w.phase x = .claimed l → w.claimed x = some l ∧ w.entry x = none
  own : ∀ x l, w.claimed x = some l →
    l.stationIdentity = fleet.identity x ∧ l.ownerID = fleet.ownerID (fleet.runtime x) ∧
      ∃ time y, FencedLease.Event.granted time (fleet.identity x) l.ownerID l.generation.toNat y ∈
        w.service.events
  unique : ∀ x y l l', w.claimed x = some l → w.claimed y = some l' →
    l.generation = l'.generation → x = y
  entry : ∀ x e, w.entry x = some e →
    ∃ l, w.claimed x = some l ∧ e.lease = { l with expiresAt := e.lease.expiresAt }
  placed : ∀ r i x, w.entries r i = some x →
    fleet.runtime x = r ∧ fleet.identity x = i ∧ w.entry x ≠ none
  releasing : ∀ x y, w.phase x = .releasing y →
    w.entry y ≠ none ∧ w.entries (fleet.runtime y) (fleet.identity y) ≠ some y
  released : ∀ x l, w.claimed x = some l →
    Released w.service.events (fleet.identity x) l.ownerID l.generation.toNat →
    w.entry x ≠ none ∧ w.entries (fleet.runtime x) (fleet.identity x) ≠ some x
  written : ∀ r i x, w.entries r i = some x ↔ w.writes r i = some (.stored x)

namespace World

variable {fleet : Fleet Runtime Session} {w : World Runtime Session}

theorem inv_start {ks : Keyspace} {now : Int} (h : fleet.registry.Unused ks now) :
    Inv fleet (start ks now : World Runtime Session) where
  sound := ⟨_,Service.sound_start h⟩
  few := by simp [start,Service.start,Service.grants,Service.events]
  opened _ _ := rfl
  pending _ _ hp := by cases hp
  own _ _ hc := by cases hc
  unique _ _ _ _ hc := by cases hc
  entry _ _ he := by cases he
  placed _ _ _ he := by cases he
  releasing _ _ hp := by cases hp
  released _ _ hc := by cases hc
  written _ _ _ := by simp [start]

theorem send_eq (fleet : Fleet Runtime Session) (w : World Runtime Session) (call : Call)
    (d : Delivery) : w.send fleet call d = w ∨
      w.send fleet call d = { w with service := w.service.perform fleet.registry call } := by
  cases d with
  | answered => exact .inr rfl
  | unanswered => exact .inr rfl
  | unsent => exact .inl rfl

theorem send_entry (call : Call) (d : Delivery) : (w.send fleet call d).entry = w.entry := by
  rcases send_eq fleet w call d with he | he <;> rw [he]

theorem reply_eq_some {call : Call} {d : Delivery} {l : Option Lease}
    (h : w.reply fleet call d = some l) :
    w.service.answer fleet.registry call = .ok l ∧
      w.send fleet call d = { w with service := w.service.perform fleet.registry call } := by
  cases d with
  | answered =>
    refine ⟨?_,rfl⟩
    simp only [reply] at h
    cases ha : w.service.answer fleet.registry call with
    | error e => rw [ha] at h; cases h
    | ok a => rw [ha] at h; cases h; rfl
  | unanswered => cases h
  | unsent => cases h

theorem Inv.perform (h : Inv fleet w) (call : Call) (hc : ∀ lease, call ≠ .release lease)
    (hfew : (w.service.perform fleet.registry call).grants < 2^53) :
    Inv fleet { w with service := w.service.perform fleet.registry call } where
  sound := by
    obtain ⟨t,ht⟩ := h.sound
    exact ht.perform call hfew
  few := hfew
  opened := h.opened
  pending := h.pending
  own x l hl := by
    obtain ⟨h1,h2,time,y,hm⟩ := h.own x l hl
    exact ⟨h1,h2,time,y,Service.mem_perform_events hm⟩
  unique := h.unique
  entry := h.entry
  placed := h.placed
  releasing := h.releasing
  released x l hl hr := by
    rcases Service.released_perform hr with hr | ⟨lease,he,_⟩
    · exact h.released x l hl hr
    · exact absurd he (hc lease)
  written := h.written

theorem Inv.send (h : Inv fleet w) (call : Call) (hc : ∀ lease, call ≠ .release lease)
    (d : Delivery) (hfew : (w.send fleet call d).service.grants < 2^53) :
    Inv fleet (w.send fleet call d) := by
  rcases send_eq fleet w call d with he | he
  · rw [he]
    exact h
  · rw [he] at hfew ⊢
    exact h.perform call hc hfew

theorem Inv.few_send (h : Inv fleet w) {call : Call} {lease : Lease} (hc : call.onLease = some lease)
    (d : Delivery) : (w.send fleet call d).service.grants < 2^53 := by
  rcases send_eq fleet w call d with he | he
  · rw [he]
    exact h.few
  · rw [he,Service.grants_onLease hc]
    exact h.few

theorem Inv.wait (h : Inv fleet w) (n : Nat) : Inv fleet { w with service := w.service.wait n } where
  sound := by
    obtain ⟨t,ht⟩ := h.sound
    exact ⟨t,ht.wait n⟩
  few := h.few
  opened := h.opened
  pending := h.pending
  own := h.own
  unique := h.unique
  entry := h.entry
  placed := h.placed
  releasing := h.releasing
  released := h.released
  written := h.written

section Slots

variable [DecidableEq Runtime]

theorem Inv.clear (h : Inv fleet w) (x : Session) :
    Inv fleet (w.writeMap (fleet.runtime x) (fleet.identity x) none (.removed x)) := by
  have hslot (r : Runtime) (i : String) (y : Session) (hy : w.entries r i ≠ some y) :
      (if r = fleet.runtime x ∧ i = fleet.identity x then none else w.entries r i) ≠ some y := by
    split
    · nofun
    · exact hy
  exact {
    sound := h.sound
    few := h.few
    opened := h.opened
    pending := h.pending
    own := h.own
    unique := h.unique
    entry := h.entry
    placed := fun r i y hy => by
      by_cases hri : r = fleet.runtime x ∧ i = fleet.identity x
      · simp [World.writeMap,hri] at hy
      · exact h.placed r i y (by simpa [World.writeMap,hri] using hy)
    releasing := fun y z hy => ⟨(h.releasing y z hy).1,hslot _ _ z (h.releasing y z hy).2⟩
    released := fun y l hy hr => ⟨(h.released y l hy hr).1,hslot _ _ y (h.released y l hy hr).2⟩
    written := fun r i y => by
      by_cases hri : r = fleet.runtime x ∧ i = fleet.identity x
      · simp [World.writeMap,hri]
      · simpa [World.writeMap,hri] using h.written r i y }

end Slots

variable [DecidableEq Session]

/-- The claim of a session's own `onConnect` gives it a generation that nobody had. -/
theorem Inv.claim (h : Inv fleet w) {x : Session} {lease : Lease} (hphase : w.phase x = .opened)
    (hanswer : w.service.answer fleet.registry (.claim (fleet.identity x)
      (fleet.ownerID (fleet.runtime x)) (fleet.ttl (fleet.runtime x))) = .ok (some lease))
    (hfew : (w.service.perform fleet.registry (.claim (fleet.identity x)
      (fleet.ownerID (fleet.runtime x)) (fleet.ttl (fleet.runtime x)))).grants < 2^53) :
    Inv fleet ((({ w with service := w.service.perform fleet.registry (.claim (fleet.identity x)
      (fleet.ownerID (fleet.runtime x)) (fleet.ttl (fleet.runtime x))) } :
        World Runtime Session).setClaimed x lease).setPhase x (.claimed lease)) := by
  have hp := h.perform (.claim (fleet.identity x) (fleet.ownerID (fleet.runtime x))
    (fleet.ttl (fleet.runtime x))) (by simp) hfew
  obtain ⟨t,ht⟩ := h.sound
  obtain ⟨hs,ho,⟨expiry,hevents⟩,hgrants,hreleases⟩ := ht.claim_fresh hanswer hfew
  have hnone := h.opened x hphase
  have hentry : w.entry x = none := by
    by_contra hsome
    obtain ⟨e,he⟩ := Option.ne_none_iff_exists'.mp hsome
    obtain ⟨l,hl,_⟩ := h.entry x e he
    rw [hnone] at hl
    cases hl
  -- the new generation is above every one that was claimed before
  have hfresh (y : Session) (l : Lease) (hl : w.claimed y = some l) :
      l.generation ≠ lease.generation := by
    obtain ⟨_,_,time,z,hm⟩ := h.own y l hl
    have hlt := hgrants _ hm _ rfl
    intro he
    rw [he] at hlt
    omega
  exact {
    sound := hp.sound
    few := hfew
    opened := fun y hy => by
      by_cases hyx : y = x
      · simp [World.setPhase,hyx] at hy
      · simpa [World.setPhase,World.setClaimed,hyx] using
          h.opened y (by simpa [World.setPhase,World.setClaimed,hyx] using hy)
    pending := fun y l hy => by
      by_cases hyx : y = x
      · subst y
        have he : lease = l := by simpa [World.setPhase] using hy
        subst l
        exact ⟨by simp [World.setPhase,World.setClaimed],hentry⟩
      · simpa [World.setPhase,World.setClaimed,hyx] using
          h.pending y l (by simpa [World.setPhase,World.setClaimed,hyx] using hy)
    own := fun y l hy => by
      by_cases hyx : y = x
      · subst y
        have he : lease = l := by simpa [World.setPhase,World.setClaimed] using hy
        subst l
        refine ⟨hs,ho,w.service.now,expiry,?_⟩
        change _ ∈ (w.service.perform fleet.registry _).events
        rw [hevents,ho]
        exact List.mem_cons_self
      · exact hp.own y l (by simpa [World.setPhase,World.setClaimed,hyx] using hy)
    unique := fun y z l l' hy hz hg => by
      by_cases hyx : y = x
      · subst y
        by_cases hzx : z = x
        · exact hzx.symm
        · have he : lease = l := by simpa [World.setPhase,World.setClaimed] using hy
          subst l
          exact absurd hg.symm (hfresh z l' (by simpa [World.setPhase,World.setClaimed,hzx] using hz))
      · have hy' : w.claimed y = some l := by simpa [World.setPhase,World.setClaimed,hyx] using hy
        by_cases hzx : z = x
        · subst z
          have he : lease = l' := by simpa [World.setPhase,World.setClaimed] using hz
          subst l'
          exact absurd hg (hfresh y l hy')
        · exact h.unique y z l l' hy' (by simpa [World.setPhase,World.setClaimed,hzx] using hz) hg
    entry := fun y e hy => by
      obtain ⟨l,hl,hle⟩ := h.entry y e hy
      have hyx : y ≠ x := by
        intro he
        rw [he,hnone] at hl
        cases hl
      exact ⟨l,by simpa [World.setPhase,World.setClaimed,hyx] using hl,hle⟩
    placed := h.placed
    releasing := fun y z hy => by
      by_cases hyx : y = x
      · simp [World.setPhase,hyx] at hy
      · exact h.releasing y z (by simpa [World.setPhase,World.setClaimed,hyx] using hy)
    released := fun y l hy hr => by
      by_cases hyx : y = x
      · subst y
        have he : lease = l := by simpa [World.setPhase,World.setClaimed] using hy
        subst l
        rcases Service.released_perform hr with ⟨time,hr⟩ | ⟨lease',he,_⟩
        · have := hreleases time _ _ _ hr
          omega
        · cases he
      · exact hp.released y l (by simpa [World.setPhase,World.setClaimed,hyx] using hy) hr
    written := h.written }

theorem Inv.setPhase (h : Inv fleet w) (x : Session) (p : Phase Session)
    (hopen : p ≠ .opened) (hclaim : ∀ l, p ≠ .claimed l) (hrel : ∀ y, p ≠ .releasing y) :
    Inv fleet (w.setPhase x p) where
  sound := h.sound
  few := h.few
  opened y hy := by
    by_cases hyx : y = x
    · exact absurd (by simpa [World.setPhase,hyx] using hy) hopen
    · exact h.opened y (by simpa [World.setPhase,hyx] using hy)
  pending y l hy := by
    by_cases hyx : y = x
    · exact absurd (by simpa [World.setPhase,hyx] using hy) (hclaim l)
    · exact h.pending y l (by simpa [World.setPhase,hyx] using hy)
  own := h.own
  unique := h.unique
  entry := h.entry
  placed := h.placed
  releasing y z hy := by
    by_cases hyx : y = x
    · exact absurd (by simpa [World.setPhase,hyx] using hy) (hrel z)
    · exact h.releasing y z (by simpa [World.setPhase,hyx] using hy)
  released := h.released
  written := h.written

theorem Inv.setEntry (h : Inv fleet w) (x : Session) (e e' : OwnershipEntry)
    (he : w.entry x = some e)
    (hl : e'.lease = { e.lease with expiresAt := e'.lease.expiresAt }) :
    Inv fleet (w.setEntry x e') where
  sound := h.sound
  few := h.few
  opened := h.opened
  pending y l hy := by
    obtain ⟨h1,h2⟩ := h.pending y l hy
    refine ⟨h1,?_⟩
    by_cases hyx : y = x
    · rw [hyx,he] at h2
      cases h2
    · simpa [World.setEntry,hyx] using h2
  own := h.own
  unique := h.unique
  entry y e'' hy := by
    by_cases hyx : y = x
    · subst y
      have hee : e' = e'' := by simpa [World.setEntry] using hy
      subst e''
      obtain ⟨l,hcl,heq⟩ := h.entry x e he
      refine ⟨l,hcl,?_⟩
      rw [hl,heq]
    · exact h.entry y e'' (by simpa [World.setEntry,hyx] using hy)
  placed r i y hy := by
    obtain ⟨h1,h2,h3⟩ := h.placed r i y hy
    refine ⟨h1,h2,?_⟩
    by_cases hyx : y = x <;> simp [World.setEntry,hyx,h3]
  releasing y z hy := by
    obtain ⟨h1,h2⟩ := h.releasing y z hy
    refine ⟨?_,h2⟩
    by_cases hzx : z = x <;> simp [World.setEntry,hzx,h1]
  released y l hy hr := by
    obtain ⟨h1,h2⟩ := h.released y l hy hr
    refine ⟨?_,h2⟩
    by_cases hyx : y = x <;> simp [World.setEntry,hyx,h1]
  written := h.written

theorem Inv.renewStop (h : Inv fleet w) (x : Session) : Inv fleet (w.renewStop x) := by
  unfold World.renewStop
  split
  · next e he => exact h.setEntry x _ _ he rfl
  · exact h

theorem Inv.onConnectClaim (h : Inv fleet w) (x : Session) (d : Delivery)
    (hfew : (w.onConnectClaim fleet x d).service.grants < 2^53) :
    Inv fleet (w.onConnectClaim fleet x d) := by
  unfold World.onConnectClaim at hfew ⊢
  split at hfew
  · next hphase =>
    dsimp only at hfew ⊢
    split at hfew
    · next lease hreply =>
      obtain ⟨hanswer,hsend⟩ := reply_eq_some hreply
      rw [hsend] at hfew ⊢
      exact h.claim hphase hanswer hfew
    · exact (h.send _ (by simp) d hfew).setPhase x .refused (by simp) (by simp) (by simp)
  · exact h

theorem Inv.renewTick (h : Inv fleet w) (x : Session) (d : Delivery) :
    Inv fleet (w.renewTick fleet x d) := by
  unfold World.renewTick
  split
  · next lease cancelled he =>
    have hs := h.send (.renew lease (fleet.ttl (fleet.runtime x))) (by simp) d (h.few_send rfl d)
    have he' : (w.send fleet (.renew lease (fleet.ttl (fleet.runtime x))) d).entry x =
        some ⟨lease,cancelled,true⟩ := by
      rw [send_entry]
      exact he
    dsimp only
    split
    · next renewed hreply =>
      exact hs.setEntry x _ _ he' (Service.renew_answer (reply_eq_some hreply).1)
    · exact hs.setEntry x _ _ he' rfl
  · exact h

theorem Inv.startRelease (h : Inv fleet w) (x y : Session) (hy : w.entry y ≠ none)
    (hfree : w.entries (fleet.runtime y) (fleet.identity y) ≠ some y) :
    Inv fleet (w.setPhase x (.releasing y)) where
  sound := h.sound
  few := h.few
  opened z hz := by
    by_cases hzx : z = x
    · simp [World.setPhase,hzx] at hz
    · exact h.opened z (by simpa [World.setPhase,hzx] using hz)
  pending z l hz := by
    by_cases hzx : z = x
    · simp [World.setPhase,hzx] at hz
    · exact h.pending z l (by simpa [World.setPhase,hzx] using hz)
  own := h.own
  unique := h.unique
  entry := h.entry
  placed := h.placed
  releasing z u hz := by
    by_cases hzx : z = x
    · have hu : y = u := by simpa [World.setPhase,hzx] using hz
      subst u
      exact ⟨hy,hfree⟩
    · exact h.releasing z u (by simpa [World.setPhase,hzx] using hz)
  released := h.released
  written := h.written

theorem Inv.onDisconnectRelease (h : Inv fleet w) (x : Session) (d : Delivery) :
    Inv fleet (w.onDisconnectRelease fleet x d) := by
  unfold World.onDisconnectRelease
  split
  · next y hphase =>
    obtain ⟨hsome,hfree⟩ := h.releasing x y hphase
    split
    · next e he =>
      refine Inv.setPhase ?_ x .closed (by simp) (by simp) (by simp)
      have hfew : (w.send fleet (.release e.lease) d).service.grants < 2^53 := h.few_send rfl d
      rcases send_eq fleet w (.release e.lease) d with hw | hw
      · rw [hw]
        exact h
      · rw [hw] at hfew ⊢
        obtain ⟨t,ht⟩ := h.sound
        exact {
          sound := ht.perform (.release e.lease) hfew
          few := hfew
          opened := h.opened
          pending := h.pending
          own := fun z l hz => by
            obtain ⟨h1,h2,time,u,hm⟩ := h.own z l hz
            exact ⟨h1,h2,time,u,Service.mem_perform_events hm⟩
          unique := h.unique
          entry := h.entry
          placed := h.placed
          releasing := h.releasing
          released := fun z l hz hr => by
            rcases Service.released_perform hr with hr | ⟨lease,hcall,_,_,hgen⟩
            · exact h.released z l hz hr
            · cases hcall
              obtain ⟨l',hl',heq⟩ := h.entry y e he
              have hg : l.generation = l'.generation := by
                rw [heq] at hgen
                exact UInt64.toNat_inj.mp hgen.symm
              have hzy : z = y := h.unique z y l l' hz hl' hg
              subst z
              exact ⟨hsome,hfree⟩
          written := h.written }
    · exact h.setPhase x .closed (by simp) (by simp) (by simp)
  · exact h

variable [DecidableEq Runtime]

theorem Inv.onConnectStore (h : Inv fleet w) (x : Session) : Inv fleet (w.onConnectStore fleet x) := by
  unfold World.onConnectStore
  split
  · next lease hphase =>
    obtain ⟨hclaimed,hnone⟩ := h.pending x lease hphase
    have hne (y : Session) (hy : w.entry y ≠ none) : y ≠ x := by
      intro he
      rw [he] at hy
      exact hy hnone
    -- a slot that was not of `y` does not become its own: the store is of `x`, which had no entry
    have hslot (y : Session) (hy : w.entry y ≠ none)
        (hfree : w.entries (fleet.runtime y) (fleet.identity y) ≠ some y) :
        (if fleet.runtime y = fleet.runtime x ∧ fleet.identity y = fleet.identity x then some x
          else w.entries (fleet.runtime y) (fleet.identity y)) ≠ some y := by
      split
      · intro he
        exact hne y hy (Option.some.inj he).symm
      · exact hfree
    exact {
      sound := h.sound
      few := h.few
      opened := fun y hy => by
        by_cases hyx : y = x
        · simp [World.setPhase,hyx] at hy
        · exact h.opened y (by simpa [World.setPhase,hyx,World.setEntry,World.writeMap] using hy)
      pending := fun y l hy => by
        by_cases hyx : y = x
        · simp [World.setPhase,hyx] at hy
        · have hp := h.pending y l
            (by simpa [World.setPhase,hyx,World.setEntry,World.writeMap] using hy)
          simpa [World.setPhase,hyx,World.setEntry,World.writeMap] using hp
      own := h.own
      unique := h.unique
      entry := fun y e hy => by
        by_cases hyx : y = x
        · subst y
          have he : ⟨lease,false,true⟩ = e := by simpa [World.setPhase,World.setEntry] using hy
          subst e
          exact ⟨lease,hclaimed,rfl⟩
        · exact h.entry y e (by simpa [World.setPhase,hyx,World.setEntry,World.writeMap] using hy)
      placed := fun r i y hy => by
        by_cases hri : r = fleet.runtime x ∧ i = fleet.identity x
        · have he : x = y := by simpa [World.setPhase,World.setEntry,World.writeMap,hri] using hy
          subst y
          exact ⟨hri.1.symm,hri.2.symm,by simp [World.setPhase,World.setEntry]⟩
        · obtain ⟨h1,h2,h3⟩ := h.placed r i y
            (by simpa [World.setPhase,World.setEntry,World.writeMap,hri] using hy)
          exact ⟨h1,h2,by simpa [World.setPhase,World.setEntry,World.writeMap,hne y h3] using h3⟩
      releasing := fun y z hy => by
        by_cases hyx : y = x
        · simp [World.setPhase,hyx] at hy
        · obtain ⟨h1,h2⟩ := h.releasing y z
            (by simpa [World.setPhase,hyx,World.setEntry,World.writeMap] using hy)
          exact ⟨by simpa [World.setPhase,World.setEntry,World.writeMap,hne z h1] using h1,hslot z h1 h2⟩
      released := fun y l hy hr => by
        obtain ⟨h1,h2⟩ := h.released y l hy hr
        exact ⟨by simpa [World.setPhase,World.setEntry,World.writeMap,hne y h1] using h1,hslot y h1 h2⟩
      written := fun r i y => by
        by_cases hri : r = fleet.runtime x ∧ i = fleet.identity x
        · simp [World.setPhase,World.setEntry,World.writeMap,hri]
        · simpa [World.setPhase,World.setEntry,World.writeMap,hri] using h.written r i y }
  · exact h

theorem Inv.onDisconnectTake (h : Inv fleet w) (x : Session) :
    Inv fleet (w.onDisconnectTake fleet x) := by
  unfold World.onDisconnectTake
  split
  · dsimp only
    split
    · exact (h.clear x).setPhase x .closed (by simp) (by simp) (by simp)
    · next y hy =>
      split
      · exact (h.clear x).setPhase x .closed (by simp) (by simp) (by simp)
      · next e he =>
        obtain ⟨hr,hi,_⟩ := h.placed _ _ y hy
        refine ((h.clear x).setEntry y e { e with cancelled := true } he rfl).startRelease x y ?_ ?_
        · simp [World.setEntry]
        · simp [World.setEntry,World.writeMap,hr,hi]
  · exact h

theorem Inv.act (h : Inv fleet w) (a : Action Session) (hfew : (w.act fleet a).service.grants < 2^53) :
    Inv fleet (w.act fleet a) := by
  cases a with
  | connectClaim x d => exact h.onConnectClaim x d hfew
  | connectStore x => exact h.onConnectStore x
  | renewTick x d => exact h.renewTick x d
  | renewStop x => exact h.renewStop x
  | disconnectTake x => exact h.onDisconnectTake x
  | disconnectRelease x d => exact h.onDisconnectRelease x d
  | wait n => exact h.wait n

theorem act_service (fleet : Fleet Runtime Session) (w : World Runtime Session) (a : Action Session) :
    (w.act fleet a).service = w.service ∨ (∃ n, (w.act fleet a).service = w.service.wait n) ∨
      ∃ call, (w.act fleet a).service = w.service.perform fleet.registry call := by
  have hsend (call : Call) (d : Delivery) : (w.send fleet call d).service = w.service ∨
      (w.send fleet call d).service = w.service.perform fleet.registry call := by
    rcases send_eq fleet w call d with he | he
    · exact .inl (by rw [he])
    · exact .inr (by rw [he])
  have hcall (call : Call) (d : Delivery) : (w.send fleet call d).service = w.service ∨
      (∃ n, (w.send fleet call d).service = w.service.wait n) ∨
      ∃ call', (w.send fleet call d).service = w.service.perform fleet.registry call' :=
    (hsend call d).imp_right fun he => .inr ⟨call,he⟩
  cases a with
  | connectClaim x d =>
    dsimp only [World.act,World.onConnectClaim]
    split
    · split <;> exact hcall _ d
    · exact .inl rfl
  | connectStore x =>
    dsimp only [World.act,World.onConnectStore]
    split <;> exact .inl rfl
  | renewTick x d =>
    dsimp only [World.act,World.renewTick]
    split
    · split <;> exact hcall _ d
    · exact .inl rfl
  | renewStop x =>
    dsimp only [World.act,World.renewStop]
    split <;> exact .inl rfl
  | disconnectTake x =>
    dsimp only [World.act,World.onDisconnectTake]
    split
    · split
      · exact .inl rfl
      · split <;> exact .inl rfl
    · exact .inl rfl
  | disconnectRelease x d =>
    dsimp only [World.act,World.onDisconnectRelease]
    split
    · split
      · exact hcall _ d
      · exact .inl rfl
    · exact .inl rfl
  | wait n => exact .inr (.inl ⟨n,rfl⟩)

theorem grants_le_act (fleet : Fleet Runtime Session) (w : World Runtime Session) (a : Action Session) :
    w.service.grants ≤ (w.act fleet a).service.grants := by
  rcases act_service fleet w a with he | ⟨n,he⟩ | ⟨call,he⟩
  · rw [he]
  · rw [he]
    exact le_rfl
  · rw [he]
    exact Service.grants_le_perform _ _ _

theorem grants_le_run (fleet : Fleet Runtime Session) (w : World Runtime Session)
    (actions : List (Action Session)) : w.service.grants ≤ (w.run fleet actions).service.grants := by
  induction actions generalizing w with
  | nil => exact le_rfl
  | cons a rest ih => exact (grants_le_act fleet w a).trans (ih (w.act fleet a))

theorem Inv.run (h : Inv fleet w) (actions : List (Action Session))
    (hfew : (w.run fleet actions).service.grants < 2^53) : Inv fleet (w.run fleet actions) := by
  induction actions generalizing w with
  | nil => exact h
  | cons a rest ih =>
    have hnext : (w.act fleet a).service.grants < 2^53 := (grants_le_run fleet _ rest).trans_lt hfew
    exact ih (h.act a hnext) hfew

end World

end CsmsPlatform
