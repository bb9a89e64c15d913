import CsmsPlatform.Registry.Store
import CsmsPlatform.Framework.History

/-!
# In-memory session registry

The registry keeps its leases in a map under a mutex, so a call is one step. An expired lease stays in
the map until a call happens upon it. What a run has granted is read off its answers: a lease is
outstanding from its grant until its own holder releases it.
-/

namespace CsmsPlatform

open History

structure Memory where
  generation : UInt64 := 0
  leases : String → Option Lease := fun _ => none

inductive SessionCall where
  | claim (stationIdentity ownerID : String) (ttl : Int64)
  | renew (lease : Lease) (ttl : Int64)
  | release (lease : Lease)
  | lookup (stationIdentity : String)
deriving DecidableEq, Repr

/-- A call at the instant it reads the clock, with the error of its context if that is done. -/
structure Invocation where
  time : Int
  ctxErr : Option String := none
  call : SessionCall
deriving DecidableEq, Repr

namespace Memory

def setLease (m : Memory) (stationIdentity : String) (lease : Option Lease) : Memory :=
  { m with leases := Function.update m.leases stationIdentity lease }

def live (m : Memory) (now : Int) (stationIdentity : String) : Option Lease :=
  (m.leases stationIdentity).filter fun lease => decide (now < lease.expiresAt)

def validate (ctxErr : Option String) (stationIdentity ownerID : String) (ttl : Int64) :
    Except RegistryError Unit :=
  match ctxErr with
  | some err => .error (.invalid err)
  | none =>
    if stationIdentity = "" ∨ ownerID = "" then
      .error (.invalid "station identity and owner ID are required")
    else if ttl.toInt ≤ 0 then .error (.invalid "lease TTL must be positive")
    else .ok ()

def claim (ctxErr : Option String) (stationIdentity ownerID : String) (ttl : Int64) (now : Int)
    (m : Memory) : Except RegistryError Lease × Memory :=
  match validate ctxErr stationIdentity ownerID ttl with
  | .error err => (.error err,m)
  | .ok _ =>
    match m.live now stationIdentity with
    | some current => (.error (.ownershipConflict current),m)
    | none =>
      let lease : Lease := ⟨stationIdentity,ownerID,m.generation+1,now+ttl.toInt⟩
      (.ok lease,{ m.setLease stationIdentity (some lease) with generation := m.generation+1 })

def renew (ctxErr : Option String) (lease : Lease) (ttl : Int64) (now : Int) (m : Memory) :
    Except RegistryError Lease × Memory :=
  match validate ctxErr lease.stationIdentity lease.ownerID ttl with
  | .error err => (.error err,m)
  | .ok _ =>
    match m.live now lease.stationIdentity with
    | none => (.error .leaseLost,m.setLease lease.stationIdentity none)
    | some current =>
      if current.ownerID ≠ lease.ownerID ∨ current.generation ≠ lease.generation then
        -- the live lease of another holder is deleted
        (.error .leaseLost,m.setLease lease.stationIdentity none)
      else
        let renewed := { current with expiresAt := now+ttl.toInt }
        (.ok renewed,m.setLease lease.stationIdentity (some renewed))

def release (ctxErr : Option String) (lease : Lease) (m : Memory) : Except RegistryError Unit × Memory :=
  match ctxErr with
  | some err => (.error (.invalid err),m)
  | none =>
    match m.leases lease.stationIdentity with
    -- Redis would say that the lease was lost
    | none => (.ok (),m)
    | some current =>
      if current.ownerID ≠ lease.ownerID ∨ current.generation ≠ lease.generation then
        (.error .leaseLost,m)
      else (.ok (),m.setLease lease.stationIdentity none)

def lookup (ctxErr : Option String) (stationIdentity : String) (now : Int) (m : Memory) :
    Except RegistryError Lease × Memory :=
  match ctxErr with
  | some err => (.error (.invalid err),m)
  | none =>
    if stationIdentity = "" then (.error (.invalid "station identity is required"),m)
    else
      match m.live now stationIdentity with
      | none => (.error .notFound,m.setLease stationIdentity none)
      | some lease => (.ok lease,m)

def perform (invocation : Invocation) (m : Memory) : Except RegistryError (Option Lease) × Memory :=
  match invocation.call with
  | .claim s o ttl => (claim invocation.ctxErr s o ttl invocation.time m).map (·.map some) id
  | .renew lease ttl => (renew invocation.ctxErr lease ttl invocation.time m).map (·.map some) id
  | .release lease => (release invocation.ctxErr lease m).map (·.map fun _ => none) id
  | .lookup s => (lookup invocation.ctxErr s invocation.time m).map (·.map some) id

/-- A call that was answered, with the registry it found. -/
structure Answered extends Invocation where
  result : Except RegistryError (Option Lease)
  before : Memory

structure Run where
  memory : Memory := {}
  history : List Answered := []

def Run.perform (r : Run) (invocation : Invocation) : Run where
  memory := (Memory.perform invocation r.memory).2
  history := ⟨invocation,(Memory.perform invocation r.memory).1,r.memory⟩::r.history

def run (invocations : List Invocation) : Run := invocations.foldl Run.perform {}

/-- The owner and the generation tell a lease apart. -/
def SameHolder (a b : Lease) : Prop := a.ownerID = b.ownerID ∧ a.generation = b.generation

instance (a b : Lease) : Decidable (SameHolder a b) := inferInstanceAs (Decidable (_ ∧ _))

/-- The lease that was last granted or renewed for a station and not released by its holder since. -/
def outstanding : List Answered → String → Option Lease
  | [],_ => none
  | e::earlier,s =>
    match e.call,e.result with
    | .claim s' _ _,.ok (some lease) => if s' = s then some lease else outstanding earlier s
    | .renew lease' _,.ok (some lease) =>
      if lease'.stationIdentity = s then some lease else outstanding earlier s
    | .release lease',.ok _ =>
      if lease'.stationIdentity = s then
        (outstanding earlier s).filter fun lease => ¬ SameHolder lease lease'
      else outstanding earlier s
    | _,_ => outstanding earlier s

/-- A claim succeeds only if the lease granted before was released by its own holder or has
expired. -/
def ClaimsFollow : List Answered → Prop :=
  Throughout fun e earlier => ∀ s o ttl, e.call = .claim s o ttl → ∀ lease, e.result = .ok lease →
    ∀ previous, outstanding earlier s = some previous → previous.expiresAt ≤ e.time

def onLease : SessionCall → Option Lease
  | .renew lease _ => some lease
  | .release lease => some lease
  | _ => none

def AcceptedRenew (invocation : Invocation) : Prop :=
  ∃ lease ttl, invocation.call = .renew lease ttl ∧
    validate invocation.ctxErr lease.stationIdentity lease.ownerID ttl = .ok ()

/-- The invocation names a lease other than the live one of its station. -/
def Stale (m : Memory) (invocation : Invocation) : Prop :=
  ∃ lease current, onLease invocation.call = some lease ∧
    m.live invocation.time lease.stationIdentity = some current ∧ ¬ SameHolder current lease

/-! ## What a call can do -/

variable {m : Memory} {now later : Int} {s : String} {current : Lease}

theorem live_eq_some : m.live now s = some current ↔ m.leases s = some current ∧
    now < current.expiresAt := by
  simp [live,Option.filter_eq_some_iff]

theorem live_eq_none : m.live now s = none ↔ ∀ lease, m.leases s = some lease →
    lease.expiresAt ≤ now := by
  simp [live,Option.filter_eq_none_iff]

@[simp] theorem setLease_self (lease : Option Lease) : (m.setLease s lease).leases s = lease := by
  simp [setLease]

@[simp] theorem setLease_ne {x : String} (h : x ≠ s) (lease : Option Lease) :
    (m.setLease s lease).leases x = m.leases x := by
  simp [setLease,h]

theorem claim_cases (m : Memory) (ctxErr : Option String) (s o : String) (ttl : Int64) (now : Int) :
    (∃ err, claim ctxErr s o ttl now m = (.error err,m)) ∨
    (m.live now s = none ∧ claim ctxErr s o ttl now m =
      (.ok ⟨s,o,m.generation+1,now+ttl.toInt⟩,{ m.setLease s
        (some ⟨s,o,m.generation+1,now+ttl.toInt⟩) with generation := m.generation+1 })) := by
  unfold claim
  cases validate ctxErr s o ttl with
  | error err => exact .inl ⟨err,rfl⟩
  | ok _ =>
    cases hlive : m.live now s with
    | some current => exact .inl ⟨.ownershipConflict current,rfl⟩
    | none => exact .inr ⟨rfl,rfl⟩

theorem differs_iff {a b : Lease} :
    (a.ownerID ≠ b.ownerID ∨ a.generation ≠ b.generation) ↔ ¬ SameHolder a b :=
  not_and_or.symm

theorem renew_cases (m : Memory) (ctxErr : Option String) (lease : Lease) (ttl : Int64) (now : Int) :
    (∃ err, validate ctxErr lease.stationIdentity lease.ownerID ttl = .error err ∧
      renew ctxErr lease ttl now m = (.error err,m)) ∨
    (validate ctxErr lease.stationIdentity lease.ownerID ttl = .ok () ∧
      (∀ current, m.live now lease.stationIdentity = some current → ¬ SameHolder current lease) ∧
      renew ctxErr lease ttl now m = (.error .leaseLost,m.setLease lease.stationIdentity none)) ∨
    ∃ current, m.live now lease.stationIdentity = some current ∧ SameHolder current lease ∧
      renew ctxErr lease ttl now m = (.ok { current with expiresAt := now+ttl.toInt },
        m.setLease lease.stationIdentity (some { current with expiresAt := now+ttl.toInt })) := by
  unfold renew
  cases validate ctxErr lease.stationIdentity lease.ownerID ttl with
  | error err => exact .inl ⟨err,rfl,rfl⟩
  | ok _ =>
    cases m.live now lease.stationIdentity with
    | none => exact .inr (.inl ⟨rfl,by simp,rfl⟩)
    | some current =>
      by_cases hsame : SameHolder current lease
      · refine .inr (.inr ⟨current,rfl,hsame,?_⟩)
        simp only [differs_iff,hsame,not_true,if_false]
      · refine .inr (.inl ⟨rfl,by simpa using hsame,?_⟩)
        simp only [differs_iff,hsame,not_false_iff,if_true]

theorem release_cases (m : Memory) (ctxErr : Option String) (lease : Lease) :
    (∃ err, release ctxErr lease m = (.error err,m)) ∨
    (m.leases lease.stationIdentity = none ∧ release ctxErr lease m = (.ok (),m)) ∨
    ∃ current, m.leases lease.stationIdentity = some current ∧ SameHolder current lease ∧
      release ctxErr lease m = (.ok (),m.setLease lease.stationIdentity none) := by
  unfold release
  cases ctxErr with
  | some err => exact .inl ⟨.invalid err,rfl⟩
  | none =>
    cases m.leases lease.stationIdentity with
    | none => exact .inr (.inl ⟨rfl,rfl⟩)
    | some current =>
      by_cases hsame : SameHolder current lease
      · refine .inr (.inr ⟨current,rfl,hsame,?_⟩)
        simp only [differs_iff,hsame,not_true,if_false]
      · refine .inl ⟨.leaseLost,?_⟩
        simp only [differs_iff,hsame,not_false_iff,if_true]

theorem lookup_cases (m : Memory) (ctxErr : Option String) (s : String) (now : Int) :
    (∃ result, lookup ctxErr s now m = (result,m)) ∨
    (m.live now s = none ∧ lookup ctxErr s now m = (.error .notFound,m.setLease s none)) := by
  unfold lookup
  cases ctxErr with
  | some err => exact .inl ⟨_,rfl⟩
  | none =>
    by_cases hs : s = ""
    · simp only [hs,if_true]
      exact .inl ⟨_,rfl⟩
    · simp only [hs,if_false]
      cases m.live now s with
      | none => exact .inr ⟨rfl,rfl⟩
      | some lease => exact .inl ⟨_,rfl⟩

theorem perform_stale {invocation : Invocation} (h : m.Stale invocation) :
    ((∃ err, (perform invocation m).1 = .error err) ∧ (perform invocation m).2.leases = m.leases) ↔
      ¬ AcceptedRenew invocation := by
  obtain ⟨lease,current,hlease,hlive,hother⟩ := h
  obtain ⟨time,ctxErr,call⟩ := invocation
  cases call with
  | claim s o ttl => cases hlease
  | lookup s => cases hlease
  | renew lease' ttl =>
    cases hlease
    rcases renew_cases m ctxErr lease ttl time with
      ⟨err,hvalid,hrenew⟩ | ⟨hvalid,_,hrenew⟩ | ⟨current',hlive',hsame,_⟩
    · simp only [perform,hrenew]
      refine ⟨fun _ => ?_,fun _ => ⟨⟨err,rfl⟩,rfl⟩⟩
      rintro ⟨_,_,hcall,haccepted⟩
      cases hcall
      rw [hvalid] at haccepted
      cases haccepted
    · simp only [perform,hrenew]
      refine ⟨fun hkept => ?_,fun hrefused => absurd ⟨lease,ttl,rfl,hvalid⟩ hrefused⟩
      have hself := congrFun hkept.2 lease.stationIdentity
      simp [(live_eq_some.mp hlive).1] at hself
    · cases hlive.symm.trans hlive'
      exact absurd hsame hother
  | release lease' =>
    cases hlease
    have hrefused : ¬ AcceptedRenew ⟨time,ctxErr,.release lease⟩ := by
      rintro ⟨_,_,hcall,_⟩
      cases hcall
    rcases release_cases m ctxErr lease with
      ⟨err,hrelease⟩ | ⟨hnone,_⟩ | ⟨current',hstored,hsame,_⟩
    · simp only [perform,hrelease]
      exact ⟨fun _ => hrefused,fun _ => ⟨⟨err,rfl⟩,rfl⟩⟩
    · rw [(live_eq_some.mp hlive).1] at hnone
      cases hnone
    · cases (live_eq_some.mp hlive).1.symm.trans hstored
      exact absurd hsame hother

/-! ## Runs -/

/-- The stored lease of a station is the outstanding one, or there is none and the outstanding one has
expired. -/
def Tracks (m : Memory) (history : List Answered) (now : Int) : Prop :=
  ∀ s, m.leases s = outstanding history s ∨
    (m.leases s = none ∧ ∀ lease, outstanding history s = some lease → lease.expiresAt ≤ now)

variable {history : List Answered}

theorem Tracks.wait (h : m.Tracks history now) (hle : now ≤ later) : m.Tracks history later := by
  intro s
  rcases h s with hsame | ⟨hnone,hexpired⟩
  · exact .inl hsame
  · exact .inr ⟨hnone,fun lease hlease => (hexpired lease hlease).trans hle⟩

theorem Tracks.expired (h : m.Tracks history now) (hlive : m.live now s = none) {lease : Lease}
    (hlease : outstanding history s = some lease) : lease.expiresAt ≤ now := by
  rcases h s with hsame | ⟨_,hexpired⟩
  · exact live_eq_none.mp hlive lease (hsame.trans hlease)
  · exact hexpired lease hlease

/-- A call changes the lease of one station at most, and the answer shows it. -/
theorem Tracks.step (h : m.Tracks history now) {e : Answered} {stored : Option Lease}
    (hother : ∀ x, x ≠ s → outstanding (e::history) x = outstanding history x)
    (hself : stored = outstanding (e::history) s ∨
      (stored = none ∧ ∀ lease, outstanding (e::history) s = some lease → lease.expiresAt ≤ now)) :
    (m.setLease s stored).Tracks (e::history) now := by
  intro x
  by_cases hx : x = s
  · subst hx
    rw [setLease_self]
    exact hself
  · rw [setLease_ne hx,hother x hx]
    exact h x

theorem Tracks.drop (h : m.Tracks history now) {e : Answered}
    (hsame : ∀ x, outstanding (e::history) x = outstanding history x) (hlive : m.live now s = none) :
    (m.setLease s none).Tracks (e::history) now := by
  refine h.step (fun x _ => hsame x) (.inr ⟨rfl,?_⟩)
  intro lease hlease
  rw [hsame] at hlease
  exact h.expired hlive hlease

theorem Tracks.same (h : m.Tracks history now) {e : Answered}
    (hsame : ∀ x, outstanding (e::history) x = outstanding history x) : m.Tracks (e::history) now := by
  intro x
  rw [hsame]
  exact h x

theorem Tracks.perform {invocation : Invocation} (h : m.Tracks history invocation.time)
    (hcond : ¬ (m.Stale invocation ∧ AcceptedRenew invocation)) :
    (perform invocation m).2.Tracks
      (⟨invocation,(perform invocation m).1,m⟩::history) invocation.time := by
  obtain ⟨time,ctxErr,call⟩ := invocation
  cases call with
  | claim s o ttl =>
    rcases claim_cases m ctxErr s o ttl time with ⟨err,hclaim⟩ | ⟨hlive,hclaim⟩
    · simp only [Memory.perform,hclaim]
      exact h.same fun x => rfl
    · simp only [Memory.perform,hclaim]
      refine h.step (s := s) ?_ (.inl ?_)
      · intro x hx
        simp [outstanding,Except.map,Ne.symm hx]
      · simp [outstanding,Except.map]
  | renew lease ttl =>
    rcases renew_cases m ctxErr lease ttl time with
      ⟨err,_,hrenew⟩ | ⟨hvalid,hother,hrenew⟩ | ⟨current,_,_,hrenew⟩
    · simp only [Memory.perform,hrenew]
      exact h.same fun x => rfl
    -- by `hcond` the lease that is renewed is not another one than the live one
    · have hlive : m.live time lease.stationIdentity = none := by
        cases hlive : m.live time lease.stationIdentity with
        | none => rfl
        | some current =>
          exact absurd ⟨⟨lease,current,rfl,hlive,hother current hlive⟩,lease,ttl,rfl,hvalid⟩ hcond
      simp only [Memory.perform,hrenew]
      exact h.drop (fun x => rfl) hlive
    · simp only [Memory.perform,hrenew]
      refine h.step (s := lease.stationIdentity) ?_ (.inl ?_)
      · intro x hx
        simp [outstanding,Except.map,Ne.symm hx]
      · simp [outstanding,Except.map]
  | release lease =>
    rcases release_cases m ctxErr lease with
      ⟨err,hrelease⟩ | ⟨hnone,hrelease⟩ | ⟨current,hstored,hsame,hrelease⟩
    · simp only [Memory.perform,hrelease]
      exact h.same fun x => rfl
    · have hunset : m.setLease lease.stationIdentity none = m := by
        simp [setLease,← hnone]
      simp only [Memory.perform,hrelease]
      rw [← hunset]
      refine h.step ?_ (.inr ⟨rfl,?_⟩)
      · intro x hx
        simp [outstanding,Except.map,Ne.symm hx]
      · intro released hreleased
        obtain ⟨hout,_⟩ : outstanding history lease.stationIdentity = some released ∧
            ¬ SameHolder released lease := by
          simpa [outstanding,Except.map,Option.filter_eq_some_iff] using hreleased
        exact h.expired (by simp [live,hnone]) hout
    · simp only [Memory.perform,hrelease]
      refine h.step (s := lease.stationIdentity) ?_ (.inl ?_)
      · intro x hx
        simp [outstanding,Except.map,Ne.symm hx]
      · rcases h lease.stationIdentity with hout | ⟨hnone,_⟩
        · simp [outstanding,Except.map,← hout,hstored,Option.filter,hsame]
        · rw [hstored] at hnone
          cases hnone
  | lookup s =>
    rcases lookup_cases m ctxErr s time with ⟨result,hlookup⟩ | ⟨hlive,hlookup⟩
    · simp only [Memory.perform,hlookup]
      exact h.same fun x => by simp [outstanding]
    · simp only [Memory.perform,hlookup]
      exact h.drop (fun x => rfl) hlive

theorem Tracks.claim_follows {invocation : Invocation} (h : m.Tracks history invocation.time)
    {o : String} {ttl : Int64} (hcall : invocation.call = .claim s o ttl) {granted : Option Lease}
    (hok : (Memory.perform invocation m).1 = .ok granted) {previous : Lease}
    (hprevious : outstanding history s = some previous) : previous.expiresAt ≤ invocation.time := by
  obtain ⟨time,ctxErr,_⟩ := invocation
  cases hcall
  rcases claim_cases m ctxErr s o ttl time with ⟨err,hclaim⟩ | ⟨hlive,_⟩
  · simp only [Memory.perform,hclaim] at hok
    cases hok
  · exact h.expired hlive hprevious

/-- What a run keeps while no accepted renewal names a lease other than the live one. -/
structure Run.Inv (r : Run) (now : Int) : Prop where
  tracks : r.memory.Tracks r.history now
  follows : ClaimsFollow r.history

theorem Run.Inv.perform {r : Run} (h : r.Inv now) {invocation : Invocation}
    (hle : now ≤ invocation.time) (hcond : ¬ (r.memory.Stale invocation ∧ AcceptedRenew invocation)) :
    (r.perform invocation).Inv invocation.time := by
  have htracks := h.tracks.wait hle
  refine ⟨htracks.perform hcond,?_,h.follows⟩
  intro s o ttl hcall granted hok previous hprevious
  exact htracks.claim_follows hcall hok hprevious

/-- No call of the run is an accepted renewal of a lease other than the live one. -/
def Run.RenewsLive (r : Run) : Prop :=
  ∀ e ∈ r.history, ¬ (e.before.Stale e.toInvocation ∧ AcceptedRenew e.toInvocation)

theorem Run.mem_history {r : Run} {e : Answered} (he : e ∈ r.history) (invocations : List Invocation) :
    e ∈ (invocations.foldl Run.perform r).history := by
  induction invocations generalizing r with
  | nil => exact he
  | cons invocation rest ih => exact ih (List.mem_cons_of_mem _ he)

theorem Run.Inv.run {r : Run} (h : r.Inv now) {invocations : List Invocation}
    (htimes : (now::invocations.map Invocation.time).Pairwise (· ≤ ·))
    (hcond : (invocations.foldl Run.perform r).RenewsLive) :
    ClaimsFollow (invocations.foldl Run.perform r).history := by
  induction invocations generalizing r now with
  | nil => exact h.follows
  | cons invocation rest ih =>
    obtain ⟨hnow,hrest⟩ := List.pairwise_cons.mp htimes
    refine ih (h.perform (hnow _ List.mem_cons_self) ?_) hrest hcond
    exact hcond ⟨invocation,(Memory.perform invocation r.memory).1,r.memory⟩
      (Run.mem_history List.mem_cons_self rest)

theorem inv_new (now : Int) : ({} : Run).Inv now := ⟨fun _ => .inl rfl,trivial⟩

end Memory

/-- Every call with a lease other than the live one fails and changes nothing, except an accepted
renewal, which `Renew` lets overwrite the live lease. In runs without one, claims exclude each other. -/
theorem memory_staleLeases_iff (m : Memory) (invocation : Invocation) (invocations : List Invocation) :
    (m.Stale invocation →
      (((∃ err, (Memory.perform invocation m).1 = .error err) ∧
        (Memory.perform invocation m).2.leases = m.leases) ↔ ¬ Memory.AcceptedRenew invocation)) ∧
    ((invocations.map Invocation.time).Pairwise (· ≤ ·) →
      (Memory.run invocations).RenewsLive → Memory.ClaimsFollow (Memory.run invocations).history) := by
  refine ⟨Memory.perform_stale,?_⟩
  intro htimes hcond
  cases invocations with
  | nil => trivial
  | cons invocation rest =>
    refine (Memory.inv_new invocation.time).run ?_ hcond
    simpa using htimes

/-- A lease runs out, another runtime claims the station, and the first one's release comes late. -/
def lateRelease : List Invocation :=
  [⟨0,none,.claim "station-1" "runtime-a" 1000000000⟩,
    ⟨2000000000,none,.claim "station-1" "runtime-b" 30000000000⟩,
    ⟨2000000000,none,.release ⟨"station-1","runtime-a",1,1000000000⟩⟩]

theorem memory_staleLeases_lateRelease :
    let invocation : Invocation := ⟨3000000000,none,.release ⟨"station-1","runtime-a",1,1000000000⟩⟩
    let m := (Memory.run lateRelease).memory
    ((∃ err, (Memory.perform invocation m).1 = .error err) ∧
      (Memory.perform invocation m).2.leases = m.leases) ∧
    Memory.ClaimsFollow (Memory.run lateRelease).history := by
  obtain ⟨hstale,hruns⟩ := memory_staleLeases_iff (Memory.run lateRelease).memory
    ⟨3000000000,none,.release ⟨"station-1","runtime-a",1,1000000000⟩⟩ lateRelease
  refine ⟨(hstale ?_).mpr ?_,hruns (by decide) ?_⟩
  · exact ⟨_,⟨"station-1","runtime-b",2,32000000000⟩,rfl,by decide,by decide⟩
  · rintro ⟨_,_,hcall,_⟩
    cases hcall
  · rintro e he ⟨_,_,_,hcall,_⟩
    have hcalls : ∀ e ∈ (Memory.run lateRelease).history, ∀ lease ttl, e.call ≠ .renew lease ttl := by
      intro e he
      simp only [Memory.run,lateRelease,List.foldl,Memory.Run.perform,List.mem_cons] at he
      rcases he with rfl | rfl | rfl | he
      · simp
      · simp
      · simp
      · cases he
    exact hcalls e he _ _ hcall

/-- The first runtime's renewal comes late instead, and a third one claims the station. -/
def lateRenewal : List Invocation :=
  [⟨0,none,.claim "station-1" "runtime-a" 1000000000⟩,
    ⟨2000000000,none,.claim "station-1" "runtime-b" 30000000000⟩,
    ⟨2000000000,none,.renew ⟨"station-1","runtime-a",1,1000000000⟩ 30000000000⟩,
    ⟨2000000000,none,.claim "station-1" "runtime-c" 30000000000⟩]

theorem memory_lateRenewal :
    (Memory.run (lateRenewal.take 2)).memory.live 2000000000 "station-1" =
      some ⟨"station-1","runtime-b",2,32000000000⟩ ∧
    (Memory.run (lateRenewal.take 3)).memory.leases "station-1" = none ∧
    ¬ Memory.ClaimsFollow (Memory.run lateRenewal).history := by
  refine ⟨by decide,by decide,?_⟩
  rintro ⟨hlast,_⟩
  have hexpired := hlast "station-1" "runtime-c" 30000000000 rfl
    (some ⟨"station-1","runtime-c",3,32000000000⟩) rfl ⟨"station-1","runtime-b",2,32000000000⟩ (by decide)
  exact absurd hexpired (by decide)

end CsmsPlatform
