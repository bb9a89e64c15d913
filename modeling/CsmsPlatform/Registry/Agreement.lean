import CsmsPlatform.Registry.Memory
import CsmsPlatform.Registry.Refinement

/-!
# The two session registries side by side

The same calls are issued at the same instants to the in-memory registry and to the Redis registry. A
lease table stands between the two: Redis represents it, and the live leases of the map mirror it.
-/

namespace CsmsPlatform

open Redis FencedLease

def Registry.perform (registry : Registry) (invocation : Invocation) (ks : Keyspace) :
    Except RegistryError (Option Lease) × Keyspace :=
  match invocation.call with
  | .claim s o ttl => (registry.claim s o ttl invocation.time ks).map (·.map some) id
  | .renew lease ttl => (registry.renew lease ttl invocation.time ks).map (·.map some) id
  | .release lease => (registry.release lease invocation.time ks).map (·.map fun _ => none) id
  | .lookup s => (registry.lookup s invocation.time ks).map (·.map some) id

def PlainStation (stationIdentity : String) : Prop :=
  stationIdentity ≠ "" ∧ stationIdentity ≠ "generation"

def PlainTTL (ttl : Int64) : Prop := 0 < ttl.toInt ∧ millisecond ∣ ttl.toInt

def PlainCall : SessionCall → Prop
  | .claim s o ttl => PlainStation s ∧ o ≠ "" ∧ PlainTTL ttl
  | .renew lease ttl => PlainStation lease.stationIdentity ∧ lease.ownerID ≠ "" ∧ PlainTTL ttl
  | .release lease => PlainStation lease.stationIdentity ∧ lease.ownerID ≠ ""
  | .lookup s => PlainStation s

def Invocation.Plain (invocation : Invocation) : Prop :=
  invocation.ctxErr = none ∧ millisecond ∣ invocation.time ∧ PlainCall invocation.call

instance (s : String) : Decidable (PlainStation s) := inferInstanceAs (Decidable (_ ∧ _))

instance (ttl : Int64) : Decidable (PlainTTL ttl) := inferInstanceAs (Decidable (_ ∧ _))

instance : DecidablePred PlainCall
  | .claim _ _ _ => inferInstanceAs (Decidable (_ ∧ _ ∧ _))
  | .renew _ _ => inferInstanceAs (Decidable (_ ∧ _ ∧ _))
  | .release _ => inferInstanceAs (Decidable (_ ∧ _))
  | .lookup _ => inferInstanceAs (Decidable (PlainStation _))

instance (invocation : Invocation) : Decidable invocation.Plain := inferInstanceAs (Decidable (_ ∧ _ ∧ _))

/-- A call that the two registries answer alike: a renewal does not name a lease other than the live
one, a release finds a lease that is live or another's, and a grant's number is exact in the script. -/
def Memory.Comparable (m : Memory) (invocation : Invocation) : Prop :=
  match invocation.call with
  | .claim s _ _ => m.live invocation.time s = none → m.generation.toNat < 2^53
  | .renew lease _ => ∀ current, m.live invocation.time lease.stationIdentity = some current →
      Memory.SameHolder current lease
  | .release lease => ∃ current, m.leases lease.stationIdentity = some current ∧
      (Memory.SameHolder current lease → invocation.time < current.expiresAt)
  | .lookup _ => True

def leaseOf (stationIdentity : String) (l : Grant String Int) : Lease :=
  ⟨stationIdentity,l.owner,UInt64.ofNat l.generation,l.expiresAt⟩

/-- The live leases of the map are those of the table. -/
structure Memory.Mirrors (m : Memory) (now : Int) (t : Table String String Int) : Prop where
  leases : ∀ s, s ≠ "generation" → m.live now s = (t.live now s).map (leaseOf s)
  generation : m.generation.toNat = t.counter
  bounded : ∀ s l, t.held s = some l → l.generation ≤ t.counter
  whole : ∀ s l, t.held s = some l → millisecond ∣ l.expiresAt
  near : ∀ s l, t.held s = some l → l.expiresAt-now < 2^63

namespace Memory

variable {m : Memory} {now later : Int} {t : Table String String Int} {s : String}

theorem live_later (h : now ≤ later) (s : String) :
    m.live later s = (m.live now s).filter fun lease => decide (later < lease.expiresAt) := by
  unfold live
  cases m.leases s with
  | none => rfl
  | some lease =>
    by_cases hl : later < lease.expiresAt
    · simp [Option.filter,hl,lt_of_le_of_lt h hl]
    · by_cases hn : now < lease.expiresAt <;> simp [Option.filter,hl,hn]

theorem Mirrors.wait (h : m.Mirrors now t) (hle : now ≤ later) : m.Mirrors later t where
  leases s hs := by
    rw [live_later hle,h.leases s hs,Table.live_later hle]
    cases t.live now s with
    | none => rfl
    | some l => by_cases hl : later < l.expiresAt <;> simp [Option.filter,leaseOf,hl]
  generation := h.generation
  bounded := h.bounded
  whole := h.whole
  near s l hl := by
    have hnear := h.near s l hl
    omega

theorem mirrors_new (now : Int) : ({} : Memory).Mirrors now Table.empty where
  leases _ _ := rfl
  generation := rfl
  bounded := by simp [Table.empty]
  whole := by simp [Table.empty]
  near := by simp [Table.empty]

theorem Mirrors.put (h : m.Mirrors now t) {l : Option (Grant String Int)}
    (hbounded : ∀ grant, l = some grant → grant.generation ≤ t.counter ∧
      millisecond ∣ grant.expiresAt ∧ grant.expiresAt-now < 2^63) :
    (m.setLease s (l.map (leaseOf s))).Mirrors now (t.put s l) := by
  have hlive : ((l.map (leaseOf s)).filter fun lease => decide (now < lease.expiresAt)) =
      (l.filter fun l => decide (now < l.expiresAt)).map (leaseOf s) := by
    cases l with
    | none => rfl
    | some grant => by_cases hg : now < grant.expiresAt <;> simp [Option.filter,leaseOf,hg]
  have hput (x : String) (grant : Grant String Int) (hx : (t.put s l).held x = some grant) :
      t.held x = some grant ∨ l = some grant := by
    by_cases hxs : x = s
    · subst hxs
      exact .inr (by simpa using hx)
    · exact .inl (by simpa [hxs] using hx)
  refine ⟨?_,h.generation,?_,?_,?_⟩
  · intro x hx
    by_cases hxs : x = s
    · subst hxs
      simpa [live,Table.live] using hlive
    · simpa [live,Table.live,hxs] using h.leases x hx
  · intro x grant hx
    exact (hput x grant hx).elim (h.bounded x grant) fun hl => (hbounded grant hl).1
  · intro x grant hx
    exact (hput x grant hx).elim (h.whole x grant) fun hl => (hbounded grant hl).2.1
  · intro x grant hx
    exact (hput x grant hx).elim (h.near x grant) fun hl => (hbounded grant hl).2.2

theorem Mirrors.drop (h : m.Mirrors now t) (hlive : m.live now s = none) :
    (m.setLease s none).Mirrors now t where
  leases x hx := by
    rw [← h.leases x hx]
    by_cases hxs : x = s
    · subst hxs
      rw [hlive]
      simp [live]
    · simp [live,hxs]
  generation := h.generation
  bounded := h.bounded
  whole := h.whole
  near := h.near

theorem Mirrors.heldBy_iff (h : m.Mirrors now t) (hcounter : t.counter < 2^63) {lease : Lease}
    (hs : lease.stationIdentity ≠ "generation") :
    Registry.HeldBy t now lease ↔
      ∃ current, m.live now lease.stationIdentity = some current ∧ SameHolder current lease := by
  rw [h.leases _ hs]
  cases hl : t.live now lease.stationIdentity with
  | none => simp [Registry.HeldBy,hl]
  | some l =>
    have hbounded := h.bounded _ l (Table.live_eq_some.mp hl).1
    have hgeneration : UInt64.ofNat l.generation = lease.generation ↔
        l.generation = lease.generation.toNat := by
      constructor
      · intro heq
        rw [← heq,UInt64.toNat_ofNat_of_lt' (by change l.generation < 2^64; omega)]
      · intro heq
        rw [heq,UInt64.ofNat_toNat]
    constructor
    · rintro ⟨x,hx⟩
      cases hl.symm.trans hx
      exact ⟨_,rfl,rfl,UInt64.ofNat_toNat⟩
    · rintro ⟨_,hcurrent,howner,hsame⟩
      cases hcurrent
      refine ⟨l.expiresAt,?_⟩
      rw [hl,← hgeneration.mp hsame,← howner]
      rfl

end Memory

section Whole

variable {now expiresAt : Int} {ttl : Int64}

/-- Between whole milliseconds no part of the remaining time is lost. -/
theorem remaining_whole (hnow : millisecond ∣ now) (hexpiry : millisecond ∣ expiresAt) :
    now+(expiresAt-now)/millisecond*millisecond = expiresAt := by
  rw [Int.ediv_mul_cancel (dvd_sub hexpiry hnow)]
  omega

theorem renewed_near (now : Int) (ttl : Int64) : now+ttl.toInt-now < 2^63 := by
  have hlt := ttl.toInt_lt
  omega

theorem milliseconds_whole (h : millisecond ∣ ttl.toInt) : milliseconds ttl*millisecond = ttl.toInt :=
  Int.tdiv_mul_cancel h

end Whole

theorem Memory.validate_plain {s o : String} {ttl : Int64} (hs : PlainStation s) (ho : o ≠ "")
    (ht : PlainTTL ttl) : Memory.validate none s o ttl = .ok () := by
  simp [Memory.validate,hs.1,ho,not_le.mpr ht.1]

/-! ## One call -/

namespace Memory

variable {m : Memory} {now : Int} {t : Table String String Int} {registry : Registry} {ks : Keyspace}

theorem Mirrors.next (h : m.Mirrors now t) (hcounter : t.counter < 2^53) :
    ({ m with generation := m.generation+1 } : Memory).Mirrors now t.next where
  leases := h.leases
  generation := by
    have hgeneration := h.generation
    rw [UInt64.toNat_add,hgeneration]
    exact Nat.mod_eq_of_lt (by change t.counter+1 < 2^64; omega)
  bounded s l hl := Nat.le_succ_of_le (h.bounded s l hl)
  whole := h.whole
  near := h.near

/-- Both registries answer alike and mirror one table again. -/
def Alike (registry : Registry) (m : Memory) (ks : Keyspace) (invocation : Invocation) : Prop :=
  (Memory.perform invocation m).1 = (registry.perform invocation ks).1 ∧
    ∃ t, registry.Represents (registry.perform invocation ks).2 invocation.time t ∧
      (Memory.perform invocation m).2.Mirrors invocation.time t

theorem claim_alike (hr : registry.Represents ks now t) (h : m.Mirrors now t)
    (hnow : millisecond ∣ now) {s o : String} {ttl : Int64} (hs : PlainStation s) (ho : o ≠ "")
    (ht : PlainTTL ttl) (hroom : m.live now s = none → m.generation.toNat < 2^53) :
    Alike registry m ks ⟨now,none,.claim s o ttl⟩ := by
  have hleases := h.leases s hs.2
  unfold Alike
  simp only [Memory.perform,Registry.perform,claim,validate_plain hs ho ht]
  cases hl : t.live now s with
  | none =>
    rw [hl,Option.map_none] at hleases
    have hcounter : t.counter < 2^53 := h.generation ▸ hroom hleases
    obtain ⟨hok,hafter⟩ := Registry.claim_granted hr hs.1 ho ht.1 hs.2 hl hcounter
    have hgeneration : m.generation+1 = UInt64.ofNat (t.counter+1) := by
      rw [← h.generation,UInt64.ofNat_add,UInt64.ofNat_toNat]
      rfl
    rw [milliseconds_whole ht.2] at hok hafter
    simp only [hleases,Prod.map_fst,Prod.map_snd,hok,hgeneration]
    refine ⟨trivial,_,hafter,?_⟩
    have hput : (({ m with generation := m.generation+1 } : Memory).setLease s
        ((some ⟨o,t.counter+1,now+ttl.toInt⟩ : Option (Grant String Int)).map (leaseOf s))).Mirrors now
        (t.next.put s (some ⟨o,t.counter+1,now+ttl.toInt⟩)) := by
      refine (h.next hcounter).put ?_
      intro grant hgrant
      cases hgrant
      exact ⟨le_refl _,dvd_add hnow ht.2,renewed_near now ttl⟩
    rwa [hgeneration] at hput
  | some l =>
    rw [hl,Option.map_some] at hleases
    have hheld := (Table.live_eq_some.mp hl).1
    have hbounded := h.bounded s l hheld
    have hcounter := hr.bounded
    have hconflict := Registry.claim_conflict hr hs.1 ho ht.1 hs.2 hl (by omega) (h.near s l hheld)
    rw [remaining_whole hnow (h.whole s l hheld)] at hconflict
    simp only [hleases,hconflict]
    exact ⟨rfl,t,hr,h⟩

theorem renew_alike (hr : registry.Represents ks now t) (h : m.Mirrors now t)
    (hnow : millisecond ∣ now) {lease : Lease} {ttl : Int64} (hs : PlainStation lease.stationIdentity)
    (ho : lease.ownerID ≠ "") (ht : PlainTTL ttl)
    (hown : ∀ current, m.live now lease.stationIdentity = some current → SameHolder current lease) :
    Alike registry m ks ⟨now,none,.renew lease ttl⟩ := by
  have hheld := h.heldBy_iff hr.bounded hs.2
  unfold Alike
  simp only [Memory.perform,Registry.perform,renew,validate_plain hs ho ht]
  cases hl : m.live now lease.stationIdentity with
  | none =>
    have hlost : ¬ Registry.HeldBy t now lease := by
      rw [hheld,hl]
      simp
    simp only [Registry.renew_lost hr hs.2 ht.1 hlost]
    exact ⟨rfl,t,hr,h.drop hl⟩
  | some current =>
    have hsame := hown current hl
    have hbounded : lease.generation.toNat ≤ t.counter := by
      obtain ⟨x,hx⟩ := hheld.mpr ⟨current,hl,hsame⟩
      exact h.bounded _ _ (Table.live_eq_some.mp hx).1
    obtain ⟨hok,hafter⟩ := Registry.renew_held hr ht.1 (hheld.mpr ⟨current,hl,hsame⟩)
    rw [milliseconds_whole ht.2] at hafter
    have hstation : current.stationIdentity = lease.stationIdentity := by
      rw [h.leases _ hs.2] at hl
      obtain ⟨l,_,rfl⟩ := Option.map_eq_some_iff.mp hl
      rfl
    have hcurrent : ({ current with expiresAt := now+ttl.toInt } : Lease) =
        { lease with expiresAt := now+ttl.toInt } := by
      rw [hstation,hsame.1,hsame.2]
    have hgrant : ({ lease with expiresAt := now+ttl.toInt } : Lease) = leaseOf lease.stationIdentity
        ⟨lease.ownerID,lease.generation.toNat,now+ttl.toInt⟩ := by
      simp [leaseOf]
    simp only [differs_iff,hsame,not_true,if_false,Prod.map_fst,Prod.map_snd,hok,hcurrent]
    refine ⟨trivial,_,hafter,?_⟩
    rw [id,hgrant]
    refine h.put (l := some _) ?_
    intro grant hgrant
    cases hgrant
    exact ⟨hbounded,dvd_add hnow ht.2,renewed_near now ttl⟩

theorem release_alike (hr : registry.Represents ks now t) (h : m.Mirrors now t) {lease : Lease}
    (hs : PlainStation lease.stationIdentity) {current : Lease}
    (hstored : m.leases lease.stationIdentity = some current)
    (hown : SameHolder current lease → now < current.expiresAt) :
    Alike registry m ks ⟨now,none,.release lease⟩ := by
  have hheld := h.heldBy_iff hr.bounded hs.2
  unfold Alike
  simp only [Memory.perform,Registry.perform,release,hstored]
  by_cases hsame : SameHolder current lease
  · have hlive : m.live now lease.stationIdentity = some current :=
      live_eq_some.mpr ⟨hstored,hown hsame⟩
    obtain ⟨hok,hafter⟩ := Registry.release_held hr (hheld.mpr ⟨current,hlive,hsame⟩)
    simp only [differs_iff,hsame,not_true,if_false,Prod.map_fst,Prod.map_snd,hok]
    refine ⟨trivial,_,hafter,h.put (l := none) ?_⟩
    intro grant hgrant
    cases hgrant
  · have hlost : ¬ Registry.HeldBy t now lease := by
      rw [hheld]
      rintro ⟨current',hlive,hsame'⟩
      cases hstored.symm.trans (live_eq_some.mp hlive).1
      exact hsame hsame'
    simp only [differs_iff,hsame,not_false_iff,if_true,Registry.release_lost hr hs.2 hlost]
    exact ⟨rfl,t,hr,h⟩

theorem lookup_alike (hr : registry.Represents ks now t) (h : m.Mirrors now t)
    (hnow : millisecond ∣ now) {s : String} (hs : PlainStation s) :
    Alike registry m ks ⟨now,none,.lookup s⟩ := by
  have hleases := h.leases s hs.2
  have hkeeps := registry.lookup_keeps s now ks
  unfold Alike
  simp only [Memory.perform,Registry.perform,lookup,hs.1,if_false,Prod.map_fst,Prod.map_snd,hkeeps]
  cases hl : t.live now s with
  | none =>
    rw [hl,Option.map_none] at hleases
    simp only [hleases,Registry.lookup_absent hr hs.2 hl]
    exact ⟨trivial,t,hr,h.drop hleases⟩
  | some l =>
    rw [hl,Option.map_some] at hleases
    obtain ⟨hheld,hlive⟩ := Table.live_eq_some.mp hl
    have hbounded := h.bounded s l hheld
    have hcounter := hr.bounded
    have hwhole : millisecond ≤ l.expiresAt-now :=
      Int.le_of_dvd (by omega) (dvd_sub (h.whole s l hheld) hnow)
    have hfound := Registry.lookup_held hr hs.2 hl (by omega) hwhole
    rw [remaining_whole hnow (h.whole s l hheld)] at hfound
    simp only [hleases,hfound]
    exact ⟨rfl,t,hr,h⟩

theorem perform_alike (hr : registry.Represents ks now t) (h : m.Mirrors now t)
    {invocation : Invocation} (htime : invocation.time = now) (hplain : invocation.Plain)
    (hcomparable : m.Comparable invocation) : Alike registry m ks invocation := by
  obtain ⟨time,ctxErr,call⟩ := invocation
  obtain ⟨hlive,hnow,hcall⟩ := hplain
  cases htime
  cases hlive
  cases call with
  | claim s o ttl => exact claim_alike hr h hnow hcall.1 hcall.2.1 hcall.2.2 hcomparable
  | renew lease ttl => exact renew_alike hr h hnow hcall.1 hcall.2.1 hcall.2.2 hcomparable
  | release lease =>
    obtain ⟨current,hstored,hown⟩ := hcomparable
    exact release_alike hr h hcall.1 hstored hown
  | lookup s => exact lookup_alike hr h hnow hcall

/-! ## Runs -/

def answers : List Invocation → Memory → List (Except RegistryError (Option Lease))
  | [],_ => []
  | invocation::rest,m => (perform invocation m).1::answers rest (perform invocation m).2

/-- Each call of the run meets the condition in the state it finds. -/
def ComparableRun : List Invocation → Memory → Prop
  | [],_ => True
  | invocation::rest,m => m.Comparable invocation ∧ ComparableRun rest (perform invocation m).2

end Memory

def Registry.answers (registry : Registry) :
    List Invocation → Keyspace → List (Except RegistryError (Option Lease))
  | [],_ => []
  | invocation::rest,ks =>
    (registry.perform invocation ks).1::registry.answers rest (registry.perform invocation ks).2

theorem Memory.answers_alike {m : Memory} {now : Int} {t : Table String String Int}
    {registry : Registry} {ks : Keyspace} (hr : registry.Represents ks now t) (h : m.Mirrors now t)
    {invocations : List Invocation} (htimes : (now::invocations.map Invocation.time).Pairwise (· ≤ ·))
    (hplain : ∀ invocation ∈ invocations, invocation.Plain)
    (hcomparable : Memory.ComparableRun invocations m) :
    Memory.answers invocations m = registry.answers invocations ks := by
  induction invocations generalizing m ks now t with
  | nil => rfl
  | cons invocation rest ih =>
    obtain ⟨hnow,hrest⟩ := List.pairwise_cons.mp htimes
    obtain ⟨hfirst,hlater⟩ := List.forall_mem_cons.mp hplain
    have hle : now ≤ invocation.time := hnow _ List.mem_cons_self
    obtain ⟨hanswer,t',hr',h'⟩ :=
      perform_alike (hr.wait hle) (h.wait hle) rfl hfirst hcomparable.1
    rw [Memory.answers,Registry.answers,hanswer,ih hr' h' hrest hlater hcomparable.2]

/-- On the calls that `Memory.Comparable` leaves, the two registries cannot be told apart. -/
theorem registries_agree (registry : Registry) {ks : Keyspace} {start : Int}
    (h : registry.Unused ks start) {invocations : List Invocation}
    (htimes : (start::invocations.map Invocation.time).Pairwise (· ≤ ·))
    (hplain : ∀ invocation ∈ invocations, invocation.Plain)
    (hcomparable : Memory.ComparableRun invocations {}) :
    Memory.answers invocations {} = registry.answers invocations ks :=
  Memory.answers_alike h.represents (Memory.mirrors_new start) htimes hplain hcomparable

/-- A claim and a conflict, a renewal, a release by the rival and at last one by the holder. -/
def contendedSession : List Invocation :=
  [⟨0,none,.claim "station-1" "runtime-a" 1000000000⟩,
    ⟨0,none,.claim "station-1" "runtime-b" 1000000000⟩,
    ⟨500000000,none,.renew ⟨"station-1","runtime-a",1,1000000000⟩ 1000000000⟩,
    ⟨500000000,none,.release ⟨"station-1","runtime-b",1,1000000000⟩⟩,
    ⟨1000000000,none,.lookup "station-1"⟩,
    ⟨1000000000,none,.release ⟨"station-1","runtime-a",1,1500000000⟩⟩,
    ⟨1000000000,none,.lookup "station-1"⟩]

theorem registries_agree_contended :
    Memory.answers contendedSession {} =
      (⟨"test"⟩ : Registry).answers contendedSession Keyspace.empty := by
  have hunused : (⟨"test"⟩ : Registry).Unused Keyspace.empty 0 := ⟨fun _ => rfl,rfl⟩
  refine registries_agree ⟨"test"⟩ hunused (by decide) ?_ ?_
  · decide
  · refine ⟨fun _ => by decide,fun _ => by decide,?_,⟨_,rfl,by decide⟩,trivial,⟨_,rfl,fun _ => by decide⟩,
      trivial,trivial⟩
    intro current hlive
    cases hlive
    exact ⟨rfl,rfl⟩

def expiredRelease : List Invocation :=
  [⟨0,none,.claim "station-1" "runtime-a" 1000000000⟩,
    ⟨2000000000,none,.release ⟨"station-1","runtime-a",1,1000000000⟩⟩]

theorem registries_disagree :
    (Memory.answers expiredRelease {} = [.ok (some ⟨"station-1","runtime-a",1,1000000000⟩),.ok none] ∧
      (⟨"test"⟩ : Registry).answers expiredRelease Keyspace.empty =
        [.ok (some ⟨"station-1","runtime-a",1,1000000000⟩),.error .leaseLost]) ∧
    Memory.answers lateRenewal {} ≠ (⟨"test"⟩ : Registry).answers lateRenewal Keyspace.empty := by
  refine ⟨⟨?_,?_⟩,?_⟩
  · decide +kernel
  · decide +kernel
  · decide +kernel

end CsmsPlatform
