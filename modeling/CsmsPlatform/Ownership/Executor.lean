import CsmsPlatform.Ownership.Invariant

/-!
# One executor for each generation

A session keeps the generation its claim was given, and an entry that left its slot never comes back,
so `owns` answers yes for a generation in one runtime only and stays at no once it has turned.
-/

namespace CsmsPlatform

open Redis FencedLease

namespace World

variable {Runtime Session : Type} {fleet : Fleet Runtime Session} {w : World Runtime Session}

theorem Inv.owns_iff (h : Inv fleet w) {r : Runtime} {s : String} {g : UInt64} :
    w.owns fleet r s g = true ↔
      ∃ x l, w.entries r s = some x ∧ w.claimed x = some l ∧ l.generation = g := by
  dsimp only [owns]
  cases hslot : w.entries r s with
  | none => simp
  | some x =>
    obtain ⟨hr,hi,hx⟩ := h.placed r s x hslot
    obtain ⟨e,he⟩ := Option.ne_none_iff_exists'.mp hx
    obtain ⟨l,hl,hle⟩ := h.entry x e he
    obtain ⟨_,howner,_⟩ := h.own x l hl
    have hgen : e.lease.generation = l.generation := by rw [hle]
    have hown : e.lease.ownerID = fleet.ownerID r := by rw [hle,← hr]; exact howner
    simp only [he,hown,hgen,true_and,decide_eq_true_eq]
    constructor
    · intro hg
      exact ⟨x,l,rfl,hl,hg⟩
    · intro ⟨y,l',hy,hl',hg⟩
      cases hy
      rw [hl] at hl'
      cases hl'
      exact hg

private theorem writeMap_entries [DecidableEq Runtime] (w : World Runtime Session) (r : Runtime) (i : String)
    (x : Option Session) (m : MapWrite Session) (r' : Runtime) (i' : String) :
    (w.writeMap r i x m).entries r' i' = x ∨
      (w.writeMap r i x m).entries r' i' = w.entries r' i' := by
  by_cases h : r' = r ∧ i' = i <;> simp [writeMap,h]

variable [DecidableEq Session]

private theorem setEntry_ne_none (v : World Runtime Session) (y : Session) (e : OwnershipEntry)
    (x : Session) (hx : v.entry x ≠ none) : (v.setEntry y e).entry x ≠ none := by
  by_cases hxy : x = y <;> simp [setEntry,hxy,hx]

variable [DecidableEq Runtime]

theorem Inv.run_stable {P : World Runtime Session → Prop} (h : Inv fleet w)
    (hstep : ∀ w a, Inv fleet w → P w → P (w.act fleet a)) (hp : P w)
    (actions : List (Action Session)) (hfew : (w.run fleet actions).service.grants < 2^53) :
    P (w.run fleet actions) := by
  induction actions generalizing w with
  | nil => exact hp
  | cons a rest ih =>
    have hnext := (grants_le_run fleet (w.act fleet a) rest).trans_lt hfew
    exact ih (h.act a hnext) (hstep w a h hp) hfew

/-- All a step can do to the claims, the entries and the slots. -/
inductive Change (fleet : Fleet Runtime Session) (w w' : World Runtime Session) : Prop where
  | kept (claimed : w'.claimed = w.claimed) (entry : w'.entry = w.entry)
      (entries : w'.entries = w.entries)
  | claimed (x : Session) (phase : w.phase x = .opened)
      (claimed : ∀ y, y ≠ x → w'.claimed y = w.claimed y) (entry : w'.entry = w.entry)
      (entries : w'.entries = w.entries)
  | stored (x : Session) (lease : Lease) (phase : w.phase x = .claimed lease)
      (claimed : w'.claimed = w.claimed) (entry : ∀ y, w.entry y ≠ none → w'.entry y ≠ none)
      (entries : ∀ r i, w'.entries r i = some x ∨ w'.entries r i = w.entries r i)
  | cleared (claimed : w'.claimed = w.claimed)
      (entry : ∀ y, w.entry y ≠ none → w'.entry y ≠ none)
      (entries : ∀ r i, w'.entries r i = none ∨ w'.entries r i = w.entries r i)

theorem act_change (fleet : Fleet Runtime Session) (w : World Runtime Session) (a : Action Session) :
    Change fleet w (w.act fleet a) := by
  have hsend (call : Call) (d : Delivery) :
      (w.send fleet call d).claimed = w.claimed ∧ (w.send fleet call d).entries = w.entries := by
    rcases send_eq fleet w call d with he | he <;> simp [he]
  cases a with
  | connectClaim x d =>
    dsimp only [act,onConnectClaim]
    split
    · next hphase =>
      split
      · refine .claimed x hphase ?_ (send_entry _ d) (hsend _ d).2
        intro y hy
        simp [setPhase,setClaimed,hy,hsend]
      · exact .kept (hsend _ d).1 (send_entry _ d) (hsend _ d).2
    · exact .kept rfl rfl rfl
  | connectStore x =>
    dsimp only [act,onConnectStore]
    split
    · next lease hphase =>
      exact .stored x lease hphase rfl (fun y hy => setEntry_ne_none _ x _ y hy)
        (fun r i => writeMap_entries w _ _ _ (.stored x) r i)
    · exact .kept rfl rfl rfl
  | renewTick x d =>
    dsimp only [act,World.renewTick]
    split
    · next lease cancelled he =>
      have hentry (e : OwnershipEntry) (y : Session) (hy : w.entry y ≠ none) :
          ((w.send fleet (.renew lease (fleet.ttl (fleet.runtime x))) d).setEntry x e).entry y ≠ none :=
        setEntry_ne_none _ x e y (by rw [send_entry]; exact hy)
      split
      · exact .cleared (hsend _ d).1 (hentry _) (fun r i => .inr (by simp [setEntry,hsend]))
      · exact .cleared (hsend _ d).1 (hentry _) (fun r i => .inr (by simp [setEntry,hsend]))
    · exact .kept rfl rfl rfl
  | renewStop x =>
    dsimp only [act,World.renewStop]
    split
    · exact .cleared rfl (fun y hy => setEntry_ne_none _ x _ y hy) (fun _ _ => .inr rfl)
    · exact .kept rfl rfl rfl
  | disconnectTake x =>
    dsimp only [act,onDisconnectTake]
    split
    · split
      · exact .cleared rfl (fun _ hy => hy) (fun r i => writeMap_entries w _ _ _ (.removed x) r i)
      · split
        · exact .cleared rfl (fun _ hy => hy) (fun r i => writeMap_entries w _ _ _ (.removed x) r i)
        · exact .cleared rfl (fun y hy => setEntry_ne_none _ _ _ y hy)
            (fun r i => writeMap_entries w _ _ _ (.removed x) r i)
    · exact .kept rfl rfl rfl
  | disconnectRelease x d =>
    dsimp only [act,onDisconnectRelease]
    split
    · split
      · exact .kept (hsend _ d).1 (send_entry _ d) (hsend _ d).2
      · exact .kept rfl rfl rfl
    · exact .kept rfl rfl rfl
  | wait n => exact .kept rfl rfl rfl

theorem Inv.run_claimed (h : Inv fleet w) {x : Session} {l : Lease} (hl : w.claimed x = some l)
    (actions : List (Action Session)) (hfew : (w.run fleet actions).service.grants < 2^53) :
    (w.run fleet actions).claimed x = some l := by
  apply h.run_stable (P := fun w => w.claimed x = some l) _ hl actions hfew
  intro w a hw hl
  cases act_change fleet w a with
  | kept hc _ _ => rw [hc,hl]
  | claimed y hphase hc _ _ =>
    have hxy : x ≠ y := by
      intro he
      rw [he,hw.opened y hphase] at hl
      cases hl
    rw [hc x hxy,hl]
  | stored y lease _ hc _ _ => rw [hc,hl]
  | cleared hc _ _ => rw [hc,hl]

theorem act_entry {x : Session} (hx : w.entry x ≠ none) (a : Action Session) :
    (w.act fleet a).entry x ≠ none := by
  cases act_change fleet w a with
  | kept _ he _ => rw [he]; exact hx
  | claimed y _ _ he _ => rw [he]; exact hx
  | stored y lease _ _ he _ => exact he x hx
  | cleared _ he _ => exact he x hx

theorem run_entry {x : Session} (hx : w.entry x ≠ none) (actions : List (Action Session)) :
    (w.run fleet actions).entry x ≠ none := by
  induction actions generalizing w with
  | nil => exact hx
  | cons a rest ih => exact ih (act_entry hx a)

/-- A slot never shows again an entry that it has given up. -/
theorem Inv.run_slot (h : Inv fleet w) {x : Session} {r : Runtime} {i : String}
    (hx : w.entry x ≠ none) (hslot : w.entries r i ≠ some x) (actions : List (Action Session))
    (hfew : (w.run fleet actions).service.grants < 2^53) :
    (w.run fleet actions).entries r i ≠ some x := by
  have hboth : (w.run fleet actions).entry x ≠ none ∧ (w.run fleet actions).entries r i ≠ some x := by
    apply h.run_stable (P := fun w => w.entry x ≠ none ∧ w.entries r i ≠ some x) _ ⟨hx,hslot⟩ actions hfew
    intro w a hw hp
    refine ⟨act_entry hp.1 a,?_⟩
    cases act_change fleet w a with
    | kept _ _ hs => rw [hs]; exact hp.2
    | claimed y _ _ _ hs => rw [hs]; exact hp.2
    | stored y lease hphase _ _ hs =>
      have hyx : y ≠ x := by
        intro he
        rw [← he] at hp
        exact hp.1 (hw.pending y lease hphase).2
      rcases hs r i with he | he
      · rw [he]
        intro hy
        exact hyx (Option.some.inj hy)
      · rw [he]
        exact hp.2
    | cleared _ _ hs =>
      rcases hs r i with he | he
      · rw [he]
        nofun
      · rw [he]
        exact hp.2
  exact hboth.2

theorem Inv.owns_later (h : Inv fleet w) (actions : List (Action Session))
    (hfew : (w.run fleet actions).service.grants < 2^53) {r r' : Runtime} {s : String} {g : UInt64}
    (ho : w.owns fleet r s g = true) (ho' : (w.run fleet actions).owns fleet r' s g = true) : r = r' := by
  have hrun := h.run actions hfew
  obtain ⟨x,l,hx,hl,hg⟩ := h.owns_iff.mp ho
  obtain ⟨y,l',hy,hl',hg'⟩ := hrun.owns_iff.mp ho'
  have hxy : x = y := hrun.unique x y l l' (h.run_claimed hl actions hfew) hl' (by rw [hg,hg'])
  subst y
  rw [← (h.placed r s x hx).1]
  exact (hrun.placed r' s x hy).1

theorem Inv.owns_lost (h : Inv fleet w) (first rest : List (Action Session))
    (hfew : ((w.run fleet first).run fleet rest).service.grants < 2^53) {r : Runtime} {s : String}
    {g : UInt64} (ho : w.owns fleet r s g = true) (hlost : (w.run fleet first).owns fleet r s g ≠ true) :
    ((w.run fleet first).run fleet rest).owns fleet r s g ≠ true := by
  have hfirst : (w.run fleet first).service.grants < 2^53 := (grants_le_run fleet _ rest).trans_lt hfew
  have hf := h.run first hfirst
  have hrun := hf.run rest hfew
  obtain ⟨x,l,hx,hl,hg⟩ := h.owns_iff.mp ho
  have hclaimed := h.run_claimed hl first hfirst
  have hslot : (w.run fleet first).entries r s ≠ some x := by
    intro he
    exact hlost (hf.owns_iff.mpr ⟨x,l,he,hclaimed,hg⟩)
  have hgone := hf.run_slot (run_entry (h.placed r s x hx).2.2 first) hslot rest hfew
  intro hback
  obtain ⟨y,l',hy,hl',hg'⟩ := hrun.owns_iff.mp hback
  have hxy : x = y := hrun.unique x y l l' (hf.run_claimed hclaimed rest hfew) hl' (by rw [hg,hg'])
  subst y
  exact hgone hy

theorem Inv.run_lease (h : Inv fleet w) {x : Session} {e : OwnershipEntry} (he : w.entry x = some e)
    (actions : List (Action Session)) (hfew : (w.run fleet actions).service.grants < 2^53) :
    ∃ e', (w.run fleet actions).entry x = some e' ∧ e'.lease.ownerID = e.lease.ownerID ∧
      e'.lease.generation = e.lease.generation := by
  obtain ⟨l,hl,hle⟩ := h.entry x e he
  have hx : w.entry x ≠ none := by simp [he]
  obtain ⟨e',he'⟩ := Option.ne_none_iff_exists'.mp (run_entry hx actions)
  obtain ⟨l',hl',hle'⟩ := (h.run actions hfew).entry x e' he'
  rw [h.run_claimed hl actions hfew] at hl'
  cases hl'
  refine ⟨e',he',?_,?_⟩
  · rw [hle',hle]
  · rw [hle',hle]

end World

/-- Over every run of any number of managers with fewer than `2^53` granted leases: an entry in a map
carries its manager's owner and a generation the registry granted to one `onConnect` of that identity
on that manager; no step changes an entry's owner or generation; a generation is owned in one runtime
only, and once lost for good. -/
theorem ownershipManagers_oneExecutor {Runtime Session : Type} [DecidableEq Session]
    [DecidableEq Runtime] (fleet : Fleet Runtime Session) (ks : Keyspace) (now : Int)
    (h : fleet.registry.Unused ks now) (actions later last : List (World.Action Session)) :
    let w := (World.start ks now).run fleet actions
    let w' := w.run fleet later
    (w'.run fleet last).service.grants < 2^53 →
    (∀ r i x, w.entries r i = some x → ∃ e lease time expiry, w.entry x = some e ∧
      fleet.runtime x = r ∧ fleet.identity x = i ∧ e.lease.ownerID = fleet.ownerID r ∧
      w.claimed x = some lease ∧ e.lease.generation = lease.generation ∧
      FencedLease.Event.granted time i (fleet.ownerID r) lease.generation.toNat expiry ∈ w.service.events ∧
      ∀ y lease', w.claimed y = some lease' → lease'.generation = lease.generation → y = x) ∧
    (∀ x e, w.entry x = some e → ∃ e', w'.entry x = some e' ∧
      e'.lease.ownerID = e.lease.ownerID ∧ e'.lease.generation = e.lease.generation) ∧
    (∀ r r' s g, w.owns fleet r s g = true → w'.owns fleet r' s g = true → r = r') ∧
    ∀ r s g, w.owns fleet r s g = true → w'.owns fleet r s g ≠ true →
      (w'.run fleet last).owns fleet r s g ≠ true := by
  intro w w' hfew
  have hlater : w'.service.grants < 2^53 := (World.grants_le_run fleet w' last).trans_lt hfew
  have hfirst : w.service.grants < 2^53 := (World.grants_le_run fleet w later).trans_lt hlater
  have hw : World.Inv fleet w := (World.inv_start h).run actions hfirst
  refine ⟨?_,fun x e he => hw.run_lease he later hlater,
    fun r r' s g ho ho' => hw.owns_later later hlater ho ho',
    fun r s g ho hlost => hw.owns_lost later last hfew ho hlost⟩
  intro r i x hx
  obtain ⟨hr,hi,hentry⟩ := hw.placed r i x hx
  obtain ⟨e,he⟩ := Option.ne_none_iff_exists'.mp hentry
  obtain ⟨l,hl,hle⟩ := hw.entry x e he
  obtain ⟨_,howner,time,expiry,hm⟩ := hw.own x l hl
  rw [hi,howner,hr] at hm
  refine ⟨e,l,time,expiry,he,hr,hi,?_,hl,?_,hm,fun y l' hy hg => hw.unique y x l' l hy hl hg⟩
  · rw [hle,← hr]
    exact howner
  · rw [hle]

/-- A runtime that stopped renewing still owns its generation, and nobody else ever does. -/
theorem ownershipManagers_handover :
    let fleet : Fleet Bool Bool := ⟨⟨"csms"⟩,fun r => if r then "runtime-b" else "runtime-a",
      fun _ => 30000000000,id,fun _ => "station-1"⟩
    let w := (World.start Keyspace.empty 0).run fleet [.connectClaim false .answered,.connectStore false]
    let w' := w.run fleet [.wait 31000000000,.connectClaim true .answered,.connectStore true]
    w.owns fleet false "station-1" 1 = true ∧ w'.owns fleet true "station-1" 2 = true ∧
    (∀ r, w'.owns fleet r "station-1" 1 = true → false = r) ∧
    ∀ x e, w.entry x = some e → ∃ e', w'.entry x = some e' ∧
      e'.lease.ownerID = e.lease.ownerID ∧ e'.lease.generation = e.lease.generation := by
  have hrun := ownershipManagers_oneExecutor
    (⟨⟨"csms"⟩,fun r : Bool => if r then "runtime-b" else "runtime-a",fun _ => 30000000000,id,
      fun _ => "station-1"⟩ : Fleet Bool Bool) Keyspace.empty 0 ⟨fun _ => rfl,rfl⟩
    [.connectClaim false .answered,.connectStore false]
    [.wait 31000000000,.connectClaim true .answered,.connectStore true] [] (by decide +kernel)
  refine ⟨by decide +kernel,by decide +kernel,?_,hrun.2.1⟩
  intro r hr
  exact hrun.2.2.1 false r "station-1" 1 (by decide +kernel) hr

namespace World

def visit (x : Nat) : List (Action Nat) := [.connectClaim x .answered,.connectStore x,.wait 1000000]

/-- All sessions are of one station. They come one by one to the first runtime, and the last one to the
second. -/
def manySessions (last : Nat) : Fleet Bool Nat :=
  ⟨⟨"csms"⟩,fun r => if r then "runtime-b" else "runtime-a",fun _ => 1000000,fun x => decide (x = last),
    fun _ => "station-1"⟩

def connectCall {Runtime Session : Type} (fleet : Fleet Runtime Session) (x : Session) : Call :=
  .claim (fleet.identity x) (fleet.ownerID (fleet.runtime x)) (fleet.ttl (fleet.runtime x))

section Connect

variable {Runtime Session : Type} [DecidableEq Session] [DecidableEq Runtime]
  (fleet : Fleet Runtime Session) {w : World Runtime Session} {x : Session} {lease : Lease}

theorem connect_eq (hphase : w.phase x = .opened)
    (hanswer : w.service.answer fleet.registry (connectCall fleet x) = .ok (some lease)) :
    let w' := w.run fleet [.connectClaim x .answered,.connectStore x]
    w'.service = w.service.perform fleet.registry (connectCall fleet x) ∧
      w'.entries = (fun r i => if r = fleet.runtime x ∧ i = fleet.identity x then some x else w.entries r i) ∧
      w'.entry = (fun y => if y = x then some ⟨lease,false,true⟩ else w.entry y) ∧
      ∀ y, y ≠ x → w'.phase y = w.phase y := by
  have hreply : w.reply fleet (connectCall fleet x) .answered = some (some lease) := by
    simp only [reply,hanswer]
    rfl
  have hclaim : w.act fleet (.connectClaim x .answered) =
      ((w.send fleet (connectCall fleet x) .answered).setClaimed x lease).setPhase x (.claimed lease) := by
    simp only [act,onConnectClaim,hphase]
    rw [← connectCall,hreply]
  have hclaimed : (w.act fleet (.connectClaim x .answered)).phase x = .claimed lease := by
    simp [hclaim,setPhase]
  have hstored : w.run fleet [.connectClaim x .answered,.connectStore x] =
      (((w.act fleet (.connectClaim x .answered)).writeMap (fleet.runtime x) (fleet.identity x) (some x)
        (.stored x)).setEntry x ⟨lease,false,true⟩).setPhase x .connected := by
    change (w.act fleet (.connectClaim x .answered)).onConnectStore fleet x = _
    simp only [onConnectStore,hclaimed]
  rw [hstored,hclaim]
  refine ⟨rfl,rfl,rfl,?_⟩
  intro y hy
  simp [setPhase,setEntry,writeMap,setClaimed,send,hy]

end Connect

section Visits

variable {w : World Bool Nat} {n : Nat} (last : Nat)

private theorem visit_eq {lease : Lease} (hn : n ≠ last) (hphase : w.phase n = .opened)
    (hanswer : w.service.answer ⟨"csms"⟩ (.claim "station-1" "runtime-a" 1000000) = .ok (some lease)) :
    let w' := w.run (manySessions last) (visit n)
    w'.service = w.service.run ⟨"csms"⟩ (Service.claimRound "station-1" "runtime-a") ∧
      w'.entries false "station-1" = some n ∧ w'.entry n = some ⟨lease,false,true⟩ ∧
      ∀ y, y ≠ n → w'.phase y = w.phase y := by
  have hruntime : (manySessions last).runtime n = false := decide_eq_false hn
  have hcall : connectCall (manySessions last) n = .claim "station-1" "runtime-a" 1000000 := by
    rw [connectCall,hruntime]
    rfl
  obtain ⟨hservice,hentries,hentry,hphases⟩ :=
    connect_eq (manySessions last) hphase (by rw [hcall]; exact hanswer)
  refine ⟨?_,?_,?_,hphases⟩
  · change (w.run (manySessions last) [.connectClaim n .answered,.connectStore n]).service.wait _ = _
    rw [hservice,hcall]
    rfl
  · change (w.run (manySessions last) [.connectClaim n .answered,.connectStore n]).entries _ _ = _
    rw [hentries,hruntime]
    rfl
  · change (w.run (manySessions last) [.connectClaim n .answered,.connectStore n]).entry n = _
    rw [hentry]
    simp

private theorem run_visits (hn : n ≤ last) (hb : n ≤ 2^53) :
    let w := (start Keyspace.empty 0).run (manySessions last) ((List.range n).flatMap visit)
    (∃ t, Registry.Represents ⟨"csms"⟩ w.service.redis w.service.now t ∧ t.counter = n ∧
      t.live w.service.now "station-1" = none) ∧ ∀ x, n ≤ x → w.phase x = .opened := by
  induction n with
  | zero =>
    have hfresh : (⟨"csms"⟩ : Registry).Unused Keyspace.empty 0 := ⟨fun _ => rfl,rfl⟩
    exact ⟨⟨Table.empty,hfresh.represents,rfl,rfl⟩,fun _ _ => rfl⟩
  | succ n ih =>
    obtain ⟨⟨t,hr,hc,hfree⟩,hopened⟩ := ih (by omega) (by omega)
    rw [List.range_succ,List.flatMap_append,List.flatMap_singleton]
    simp only [run,List.foldl_append] at hr hfree hopened ⊢
    generalize List.foldl (act (manySessions last)) (start Keyspace.empty 0)
      ((List.range n).flatMap visit) = w at hr hfree hopened ⊢
    have ho : "runtime-a" ≠ "" := by decide
    have hanswer := (Registry.claim_granted hr (by decide) ho (by decide : 0 < (1000000 : Int64).toInt)
      (by decide) hfree (by omega)).1
    obtain ⟨hservice,_,_,hphase⟩ := visit_eq last (by omega) (hopened n le_rfl)
      (congrArg (Except.map some) hanswer)
    obtain ⟨t',hr',hc',hfree'⟩ := Service.run_claimRound (by decide) ho (by decide) hr hfree (by omega)
    rw [← hservice] at hr' hfree'
    refine ⟨⟨t',hr',by omega,hfree'⟩,?_⟩
    intro x hx
    exact (hphase x (by omega)).trans (hopened x (by omega))

/-- The sessions before and after the last exact count own one generation. -/
theorem owns_shared (hn : n+1 = last) (hlast : last = 2^53) :
    let early := (start Keyspace.empty 0).run (manySessions last) ((List.range n).flatMap visit)
    let w := (early.run (manySessions last) (visit n)).run (manySessions last)
      [.connectClaim last .answered,.connectStore last]
    w.owns (manySessions last) false "station-1" 9007199254740992 = true ∧
      w.owns (manySessions last) true "station-1" 9007199254740992 = true := by
  obtain ⟨⟨t,hr,hc,hfree⟩,hopened⟩ := run_visits (n := n) last (by omega) (by omega)
  dsimp only at hr hfree hopened ⊢
  generalize (start Keyspace.empty 0).run (manySessions last) ((List.range n).flatMap visit) = early
    at hr hfree hopened ⊢
  obtain ⟨⟨a,hfirst⟩,b,hsecond⟩ := Service.last_claimRound (by decide) (by decide : "runtime-a" ≠ "")
    (by decide) (by decide : "runtime-b" ≠ "") hr hfree (by omega)
  obtain ⟨hservice,hslot,hentry,hphase⟩ := visit_eq last (by omega) (hopened n le_rfl) hfirst
  rw [← hservice] at hsecond
  generalize early.run (manySessions last) (visit n) = u at hslot hentry hphase hsecond ⊢
  have hruntime : (manySessions last).runtime last = true := decide_eq_true rfl
  have hcall : connectCall (manySessions last) last = .claim "station-1" "runtime-b" 1000000 := by
    rw [connectCall,hruntime]
    rfl
  have hphase' : u.phase last = .opened := (hphase last (by omega)).trans (hopened last (by omega))
  obtain ⟨_,hentries,hentry',_⟩ := connect_eq (manySessions last) hphase' (by rw [hcall]; exact hsecond)
  have hne : n ≠ last := by omega
  have hidentity : (manySessions last).identity last = "station-1" := rfl
  have hfirstOwner : (manySessions last).ownerID false = "runtime-a" := rfl
  have hlastOwner : (manySessions last).ownerID true = "runtime-b" := rfl
  constructor
  · simp [owns,hentries,hentry',hruntime,hslot,hentry,hne,hfirstOwner]
  · simp [owns,hentries,hentry',hruntime,hidentity,hlastOwner]

end Visits

end World

/-- After `2^53` leases of a station, the session that is given the last exact generation stops renewing
and another runtime's session is given the same one: both runtimes own it. -/
theorem ownershipManagers_sharedGeneration :
    let fleet := World.manySessions (2^53)
    let early := (World.start Keyspace.empty 0).run fleet ((List.range (2^53-1)).flatMap World.visit)
    let w := (early.run fleet (World.visit (2^53-1))).run fleet
      [.connectClaim (2^53) .answered,.connectStore (2^53)]
    w.owns fleet false "station-1" 9007199254740992 = true ∧
      w.owns fleet true "station-1" 9007199254740992 = true :=
  World.owns_shared (2^53) (by norm_num) rfl

end CsmsPlatform
