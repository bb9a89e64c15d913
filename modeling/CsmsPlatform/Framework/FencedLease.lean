import CsmsPlatform.Framework.History

/-!
# Fenced leases

A lease service grants at most one live lease per resource and numbers its grants from one
counter, so that a number tells its holder apart from every earlier and later one. A history lists
what the service did, newest event first. `Consistent` ties the service's table to its history;
what a run guarantees is then read off the history alone.
-/

namespace FencedLease

open History

variable {Station Owner Time : Type}

inductive Event (Station Owner Time : Type) where
  | granted (time : Time) (station : Station) (owner : Owner) (generation : Nat) (expiry : Time)
  | renewed (time : Time) (station : Station) (owner : Owner) (generation : Nat) (expiry : Time)
  | released (time : Time) (station : Station) (owner : Owner) (generation : Nat)
  | denied (time : Time)
deriving DecidableEq, Repr

namespace Event

def time : Event Station Owner Time → Time
  | granted time _ _ _ _ => time
  | renewed time _ _ _ _ => time
  | released time _ _ _ => time
  | denied time => time

def grantedGeneration : Event Station Owner Time → Option Nat
  | granted _ _ _ g _ => some g
  | _ => none

end Event

/-- The last expiry written for a generation, by its grant or by its renewals. -/
def storedExpiry : List (Event Station Owner Time) → Nat → Option Time
  | [], _ => none
  | .granted _ _ _ g t::h, n => if g = n then some t else storedExpiry h n
  | .renewed _ _ _ g t::h, n => if g = n then some t else storedExpiry h n
  | _::h, n => storedExpiry h n

/-- Where a generation's validity ends: at its release, or at the last expiry written for it. -/
def validUntil : List (Event Station Owner Time) → Nat → Option Time
  | [], _ => none
  | .granted _ _ _ g t::h, n => if g = n then some t else validUntil h n
  | .renewed _ _ _ g t::h, n => if g = n then some t else validUntil h n
  | .released t _ _ g::h, n => if g = n then some t else validUntil h n
  | .denied _::h, n => validUntil h n

def Released (h : List (Event Station Owner Time)) (s : Station) (o : Owner) (g : Nat) : Prop :=
  ∃ time, Event.released time s o g ∈ h

section Latest

variable [DecidableEq Station]

def latestGrant : List (Event Station Owner Time) → Station → Option (Owner × Nat)
  | [], _ => none
  | .granted _ s o g _::h, x => if s = x then some (o,g) else latestGrant h x
  | _::h, x => latestGrant h x

end Latest

/-- Generations grow from one grant to the next, over all stations together. -/
def GrantsIncrease (h : List (Event Station Owner Time)) : Prop :=
  (h.filterMap Event.grantedGeneration).Pairwise (· > ·)

section Guarantees

variable [LinearOrder Time]

/-- A grant comes only after every earlier lease of the station was released under its own name
or reached the expiry last written for it. -/
def GrantsExclude : List (Event Station Owner Time) → Prop :=
  Throughout fun e earlier => ∀ time s o g t, e = .granted time s o g t →
    ∀ time' o' g' t', Event.granted time' s o' g' t' ∈ earlier →
      Released earlier s o' g' ∨ ∃ x, storedExpiry earlier g' = some x ∧ x ≤ time

/-- Of two generations of one station, the older one's validity ends before the newer one's
begins. -/
def ValidityDisjoint (h : List (Event Station Owner Time)) : Prop :=
  ∀ time s o g t time' o' g' t', Event.granted time s o g t ∈ h →
    Event.granted time' s o' g' t' ∈ h → g' < g → ∃ x, validUntil h g' = some x ∧ x ≤ time

variable [DecidableEq Station]

/-- The pair belongs to the station's latest grant, was not released and has not expired. -/
def LiveGrant (h : List (Event Station Owner Time)) (time : Time) (s : Station) (o : Owner)
    (g : Nat) : Prop :=
  latestGrant h s = some (o,g) ∧ ¬Released h s o g ∧ ∃ x, storedExpiry h g = some x ∧ time < x

/-- Renewals and releases succeed for the live grant only. -/
def AccessFenced : List (Event Station Owner Time) → Prop :=
  Throughout fun e earlier => ∀ time s o g,
    (e = .released time s o g ∨ ∃ t, e = .renewed time s o g t) → LiveGrant earlier time s o g

end Guarantees

structure Grant (Owner Time : Type) where
  owner : Owner
  generation : Nat
  expiresAt : Time
deriving DecidableEq, Repr

structure Table (Station Owner Time : Type) where
  counter : Nat
  held : Station → Option (Grant Owner Time)

namespace Table

def empty : Table Station Owner Time := ⟨0,fun _ => none⟩

theorem station_ne {t : Table Station Owner Time} {s s' : Station} {l l' : Grant Owner Time}
    (hl : t.held s = some l) (hl' : t.held s' = some l') (hg : ¬l.generation = l'.generation) :
    s' ≠ s := by
  rintro rfl
  rw [hl,Option.some.injEq] at hl'
  exact hg (by rw [hl'])

section Live

variable [LinearOrder Time]

def live (t : Table Station Owner Time) (now : Time) (s : Station) : Option (Grant Owner Time) :=
  (t.held s).filter (fun l => decide (now < l.expiresAt))

theorem live_eq_some {t : Table Station Owner Time} {now : Time} {s : Station}
    {l : Grant Owner Time} : t.live now s = some l ↔ t.held s = some l ∧ now < l.expiresAt := by
  simp [live,Option.filter_eq_some_iff]

theorem live_later {t : Table Station Owner Time} {now later : Time} (h : now ≤ later)
    (s : Station) :
    t.live later s = (t.live now s).filter (fun l => decide (later < l.expiresAt)) := by
  unfold live
  cases hs : t.held s with
  | none => rfl
  | some l =>
    by_cases hl : later < l.expiresAt
    · simp [Option.filter,hl,lt_of_le_of_lt h hl]
    · by_cases hn : now < l.expiresAt <;> simp [Option.filter,hl,hn]

end Live

section Put

variable [DecidableEq Station]

def put (t : Table Station Owner Time) (s : Station) (l : Option (Grant Owner Time)) :
    Table Station Owner Time :=
  { t with held := fun x => if x = s then l else t.held x }

@[simp] theorem put_counter (t : Table Station Owner Time) (s : Station)
    (l : Option (Grant Owner Time)) : (t.put s l).counter = t.counter := rfl

@[simp] theorem put_held_self (t : Table Station Owner Time) (s : Station)
    (l : Option (Grant Owner Time)) : (t.put s l).held s = l := by
  simp [put]

@[simp] theorem put_held_ne (t : Table Station Owner Time) {s x : Station}
    (l : Option (Grant Owner Time)) (h : x ≠ s) : (t.put s l).held x = t.held x := by
  simp [put,h]

end Put

def next (t : Table Station Owner Time) : Table Station Owner Time :=
  { t with counter := t.counter+1 }

end Table

/-- One step of the service. A denied request leaves the held leases alone and may use up a
number. -/
inductive Step [LinearOrder Time] [DecidableEq Station] :
    Table Station Owner Time → Event Station Owner Time → Table Station Owner Time → Prop where
  | granted (t : Table Station Owner Time) (now : Time) (s : Station) (o : Owner) (x : Time)
      (h : t.live now s = none) :
      Step t (.granted now s o (t.counter+1) x) (t.next.put s (some ⟨o,t.counter+1,x⟩))
  | renewed (t : Table Station Owner Time) (now : Time) (s : Station) (l : Grant Owner Time)
      (x : Time) (h : t.live now s = some l) :
      Step t (.renewed now s l.owner l.generation x) (t.put s (some { l with expiresAt := x }))
  | released (t : Table Station Owner Time) (now : Time) (s : Station) (l : Grant Owner Time)
      (h : t.live now s = some l) :
      Step t (.released now s l.owner l.generation) (t.put s none)
  | denied (t : Table Station Owner Time) (now : Time) : Step t (.denied now) t
  | burned (t : Table Station Owner Time) (now : Time) : Step t (.denied now) t.next

section Histories

variable {h : List (Event Station Owner Time)}

theorem grantsIncrease_cons {e : Event Station Owner Time} :
    GrantsIncrease (e::h) ↔
      (∀ g, e.grantedGeneration = some g → ∀ e' ∈ h, ∀ g', e'.grantedGeneration = some g' → g' < g) ∧
        GrantsIncrease h := by
  unfold GrantsIncrease
  cases he : e.grantedGeneration with
  | none => simp [he]
  | some g =>
    rw [List.filterMap_cons_some he,List.pairwise_cons]
    simp only [List.mem_filterMap,forall_exists_index,and_imp,Option.some.injEq,gt_iff_lt]
    constructor
    · rintro ⟨hlt,hp⟩
      refine ⟨?_,hp⟩
      intro n hn e' he' g' hg'
      subst n
      exact hlt g' e' he' hg'
    · rintro ⟨hlt,hp⟩
      refine ⟨?_,hp⟩
      intro g' e' he' hg'
      exact hlt g rfl e' he' g' hg'

/-- A generation identifies its grant. -/
theorem GrantsIncrease.unique (hi : GrantsIncrease h) {a b : Event Station Owner Time} {g : Nat}
    (ha : a ∈ h) (hb : b ∈ h) (hag : a.grantedGeneration = some g)
    (hbg : b.grantedGeneration = some g) : a = b := by
  induction h with
  | nil => simp at ha
  | cons e h ih =>
    obtain ⟨hlt,hrest⟩ := grantsIncrease_cons.mp hi
    rcases List.mem_cons.mp ha with hae | ha'
    · rcases List.mem_cons.mp hb with hbe | hb'
      · rw [hae,hbe]
      · exact absurd (hlt g (hae ▸ hag) b hb' g hbg) (lt_irrefl g)
    · rcases List.mem_cons.mp hb with hbe | hb'
      · exact absurd (hlt g (hbe ▸ hbg) a ha' g hag) (lt_irrefl g)
      · exact ih hrest ha' hb'

theorem released_cons {e : Event Station Owner Time} {s : Station} {o : Owner} {g : Nat} :
    Released (e::h) s o g ↔ (∃ time, e = .released time s o g) ∨ Released h s o g := by
  unfold Released
  constructor
  · rintro ⟨time,hm⟩
    rcases List.mem_cons.mp hm with rfl | hm
    · exact .inl ⟨time,rfl⟩
    · exact .inr ⟨time,hm⟩
  · rintro (⟨time,rfl⟩ | ⟨time,hm⟩)
    · exact ⟨time,by simp⟩
    · exact ⟨time,by simp [hm]⟩

theorem storedExpiry_mem {g : Nat} {x : Time} (hx : storedExpiry h g = some x) :
    ∃ time s o, Event.granted time s o g x ∈ h ∨ Event.renewed time s o g x ∈ h := by
  induction h with
  | nil => cases hx
  | cons e h ih =>
    have hrest : storedExpiry h g = some x → ∃ time s o,
        Event.granted time s o g x ∈ e::h ∨ Event.renewed time s o g x ∈ e::h := by
      intro hx
      obtain ⟨time,s,o,hm⟩ := ih hx
      exact ⟨time,s,o,hm.imp (List.mem_cons_of_mem _) (List.mem_cons_of_mem _)⟩
    cases e with
    | granted time s o g' t =>
      rw [storedExpiry] at hx
      by_cases hg : g' = g
      · rw [if_pos hg,Option.some.injEq] at hx
        subst hg hx
        exact ⟨time,s,o,.inl List.mem_cons_self⟩
      · rw [if_neg hg] at hx
        exact hrest hx
    | renewed time s o g' t =>
      rw [storedExpiry] at hx
      by_cases hg : g' = g
      · rw [if_pos hg,Option.some.injEq] at hx
        subst hg hx
        exact ⟨time,s,o,.inr List.mem_cons_self⟩
      · rw [if_neg hg] at hx
        exact hrest hx
    | released => exact hrest hx
    | denied => exact hrest hx

variable [DecidableEq Station]

theorem latestGrant_mem {s : Station} {o : Owner} {g : Nat} (hl : latestGrant h s = some (o,g)) :
    ∃ time t, Event.granted time s o g t ∈ h := by
  induction h with
  | nil => simp [latestGrant] at hl
  | cons e h ih =>
    cases e with
    | granted time x o' g' t =>
      simp only [latestGrant] at hl
      split at hl
      · next hx =>
        simp only [Option.some.injEq,Prod.mk.injEq] at hl
        obtain ⟨rfl,rfl⟩ := hl
        subst x
        exact ⟨time,t,by simp⟩
      · obtain ⟨time',t',hm⟩ := ih hl
        exact ⟨time',t',by simp [hm]⟩
    | renewed time x o' g' t =>
      obtain ⟨time',t',hm⟩ := ih hl
      exact ⟨time',t',by simp [hm]⟩
    | released time x o' g' =>
      obtain ⟨time',t',hm⟩ := ih hl
      exact ⟨time',t',by simp [hm]⟩
    | denied time =>
      obtain ⟨time',t',hm⟩ := ih hl
      exact ⟨time',t',by simp [hm]⟩

theorem latestGrant_max (hi : GrantsIncrease h) {s : Station} {o : Owner} {g : Nat}
    (hl : latestGrant h s = some (o,g)) {time : Time} {o' : Owner} {g' : Nat} {t : Time}
    (hm : Event.granted time s o' g' t ∈ h) : g' ≤ g := by
  induction h with
  | nil => simp at hm
  | cons e h ih =>
    obtain ⟨hlt,hrest⟩ := grantsIncrease_cons.mp hi
    rcases List.mem_cons.mp hm with rfl | hm'
    · simp only [latestGrant,if_true,Option.some.injEq,Prod.mk.injEq] at hl
      omega
    · cases e with
      | granted time' x o'' g'' t' =>
        simp only [latestGrant] at hl
        split at hl
        · simp only [Option.some.injEq,Prod.mk.injEq] at hl
          have := hlt g'' rfl _ hm' g' rfl
          omega
        · exact ih hrest hl hm'
      | renewed time' x o'' g'' t' => exact ih hrest hl hm'
      | released time' x o'' g'' => exact ih hrest hl hm'
      | denied time' => exact ih hrest hl hm'

end Histories

section Consistency

variable [LinearOrder Time] [DecidableEq Station]

/-- What the table of a service says about the history that led to it, at an instant. -/
structure Consistent (h : List (Event Station Owner Time)) (t : Table Station Owner Time)
    (now : Time) : Prop where
  past : ∀ e ∈ h, e.time ≤ now
  increasing : GrantsIncrease h
  grantedBound : ∀ e ∈ h, ∀ g, e.grantedGeneration = some g → g ≤ t.counter
  releasedBound : ∀ time s o g, Event.released time s o g ∈ h → g ≤ t.counter
  held : ∀ s l, t.held s = some l →
    latestGrant h s = some (l.owner,l.generation) ∧ ¬Released h s l.owner l.generation ∧
      storedExpiry h l.generation = some l.expiresAt ∧ validUntil h l.generation = some l.expiresAt
  ended : ∀ time s o g x, Event.granted time s o g x ∈ h →
    (∃ y, t.held s = some ⟨o,g,y⟩) ∨
      ∃ y, validUntil h g = some y ∧ y ≤ now ∧ (Released h s o g ∨ storedExpiry h g = some y)

theorem consistent_empty (now : Time) :
    Consistent ([] : List (Event Station Owner Time)) Table.empty now where
  past := by simp
  increasing := by simp [GrantsIncrease]
  grantedBound := by simp
  releasedBound := by simp
  held := by simp [Table.empty]
  ended := by simp

variable {h : List (Event Station Owner Time)} {t t' : Table Station Owner Time} {now later : Time}

theorem Consistent.wait (hc : Consistent h t now) (hle : now ≤ later) : Consistent h t later where
  past e he := (hc.past e he).trans hle
  increasing := hc.increasing
  grantedBound := hc.grantedBound
  releasedBound := hc.releasedBound
  held := hc.held
  ended time s o g x hm := by
    rcases hc.ended time s o g x hm with hh | ⟨y,hy,hyn,hr⟩
    · exact .inl hh
    · exact .inr ⟨y,hy,hyn.trans hle,hr⟩

theorem Consistent.liveGrant (hc : Consistent h t now) {s : Station} {l : Grant Owner Time}
    (hl : t.live now s = some l) : LiveGrant h now s l.owner l.generation := by
  obtain ⟨hh,hn⟩ := Table.live_eq_some.mp hl
  obtain ⟨h1,h2,h3,_⟩ := hc.held s l hh
  exact ⟨h1,h2,l.expiresAt,h3,hn⟩

/-- Once no lease of a station is live, every grant it ever had has ended. -/
theorem Consistent.ended_of_free (hc : Consistent h t now) {s : Station}
    (hl : t.live now s = none) {time x : Time} {o : Owner} {g : Nat}
    (hm : Event.granted time s o g x ∈ h) :
    ∃ y, validUntil h g = some y ∧ y ≤ now ∧ (Released h s o g ∨ storedExpiry h g = some y) := by
  rcases hc.ended time s o g x hm with ⟨y,hh⟩ | he
  · obtain ⟨_,_,h3,h4⟩ := hc.held s ⟨o,g,y⟩ hh
    have hy : ¬now < y := by
      intro hy
      have hlive : t.live now s = some ⟨o,g,y⟩ := Table.live_eq_some.mpr ⟨hh,hy⟩
      rw [hl] at hlive
      cases hlive
    exact ⟨y,h4,not_lt.mp hy,.inr h3⟩
  · exact he

private theorem Consistent.held_granted (hc : Consistent h t now) {s : Station}
    {l : Grant Owner Time} (hh : t.held s = some l) :
    ∃ time x, Event.granted time s l.owner l.generation x ∈ h :=
  latestGrant_mem (hc.held s l hh).1

private theorem Consistent.held_bound (hc : Consistent h t now) {s : Station}
    {l : Grant Owner Time} (hh : t.held s = some l) : l.generation ≤ t.counter := by
  obtain ⟨time,x,hm⟩ := hc.held_granted hh
  exact hc.grantedBound _ hm _ rfl

private theorem Consistent.held_station (hc : Consistent h t now) {s s' : Station}
    {l : Grant Owner Time} (hh : t.held s = some l) {time x : Time} {o : Owner}
    (hm : Event.granted time s' o l.generation x ∈ h) : s' = s ∧ o = l.owner := by
  obtain ⟨time',x',hm'⟩ := hc.held_granted hh
  have he := hc.increasing.unique hm hm' rfl rfl
  simp only [Event.granted.injEq] at he
  exact ⟨he.2.1,he.2.2.1⟩

private theorem Consistent.granted (hc : Consistent h t now) (s : Station) (o : Owner) (x : Time)
    (hfree : t.live now s = none) :
    Consistent (.granted now s o (t.counter+1) x::h) (t.next.put s (some ⟨o,t.counter+1,x⟩)) now := by
  have hgen (e : Event Station Owner Time) (he : e ∈ h) (g : Nat)
      (hg : e.grantedGeneration = some g) : g < t.counter+1 :=
    Nat.lt_succ_of_le (hc.grantedBound e he g hg)
  constructor
  · exact List.forall_mem_cons.mpr ⟨le_rfl,hc.past⟩
  · refine grantsIncrease_cons.mpr ⟨?_,hc.increasing⟩
    intro g hg e he g' hg'
    cases hg
    exact hgen e he g' hg'
  · intro e he g hg
    rcases List.mem_cons.mp he with rfl | he
    · cases hg
      exact le_rfl
    · exact (hgen e he g hg).le
  · intro time s' o' g hm
    have hm' : Event.released time s' o' g ∈ h := by simpa using hm
    exact (hc.releasedBound time s' o' g hm').trans (Nat.le_succ _)
  · intro s' l hl
    by_cases hs : s' = s
    · subst s'
      have hl' : l = ⟨o,t.counter+1,x⟩ := by simpa using hl.symm
      subst l
      refine ⟨by simp [latestGrant],?_,by simp [storedExpiry],by simp [validUntil]⟩
      rw [released_cons]
      rintro (⟨time,he⟩ | ⟨time,hm⟩)
      · cases he
      · have := hc.releasedBound time s o _ hm
        simp at this
    · have hl' : t.held s' = some l := by simpa [Table.next,hs] using hl
      have hne : ¬t.counter+1 = l.generation := by
        have := hc.held_bound hl'
        omega
      obtain ⟨h1,h2,h3,h4⟩ := hc.held s' l hl'
      refine ⟨by simpa [latestGrant,Ne.symm hs] using h1,?_,?_,?_⟩
      · rw [released_cons]
        rintro (⟨time,he⟩ | hr)
        · cases he
        · exact h2 hr
      · simpa [storedExpiry,hne] using h3
      · simpa [validUntil,hne] using h4
  · intro time s' o' g y hm
    rcases List.mem_cons.mp hm with he | hm
    · simp only [Event.granted.injEq] at he
      obtain ⟨-,rfl,rfl,rfl,-⟩ := he
      exact .inl ⟨x,by simp⟩
    · have hne : ¬t.counter+1 = g := by
        have := hgen _ hm g rfl
        omega
      simp only [validUntil,storedExpiry,hne,if_false,released_cons,reduceCtorEq,exists_false,false_or]
      -- the station was free, so its earlier leases have ended
      by_cases hs : s' = s
      · subst s'
        exact .inr (hc.ended_of_free hfree hm)
      · simpa [Table.next,hs] using hc.ended time s' o' g y hm

private theorem Consistent.generation_ne (hc : Consistent h t now) {s s' : Station}
    {l l' : Grant Owner Time} (hh : t.held s = some l) (hh' : t.held s' = some l') (hs : s' ≠ s) :
    ¬l.generation = l'.generation := by
  intro he
  obtain ⟨time,y,hm⟩ := hc.held_granted hh'
  rw [← he] at hm
  exact hs (hc.held_station hh hm).1

private theorem Consistent.renewed (hc : Consistent h t now) (s : Station) (l : Grant Owner Time)
    (x : Time) (hl : t.live now s = some l) :
    Consistent (.renewed now s l.owner l.generation x::h) (t.put s (some { l with expiresAt := x })) now := by
  have hh := (Table.live_eq_some.mp hl).1
  obtain ⟨h1,h2,-,-⟩ := hc.held s l hh
  constructor
  · exact List.forall_mem_cons.mpr ⟨le_rfl,hc.past⟩
  · exact grantsIncrease_cons.mpr ⟨nofun,hc.increasing⟩
  · exact List.forall_mem_cons.mpr ⟨nofun,hc.grantedBound⟩
  · intro time s' o' g hm
    exact hc.releasedBound time s' o' g (by simpa using hm)
  · intro s' l' hl'
    simp only [latestGrant,storedExpiry,validUntil,released_cons,reduceCtorEq,exists_false,false_or]
    by_cases hs : s' = s
    · subst s'
      have he : l' = { l with expiresAt := x } := by simpa using hl'.symm
      subst l'
      exact ⟨h1,h2,by simp,by simp⟩
    · have hh' : t.held s' = some l' := by simpa [hs] using hl'
      simpa [hc.generation_ne hh hh' hs] using hc.held s' l' hh'
  · intro time s' o' g y hm
    have hm' : Event.granted time s' o' g y ∈ h := by simpa using hm
    simp only [storedExpiry,validUntil,released_cons,reduceCtorEq,exists_false,false_or]
    by_cases hg : l.generation = g
    · subst g
      obtain ⟨rfl,rfl⟩ := hc.held_station hh hm'
      exact .inl ⟨x,by simp⟩
    · simp only [hg,if_false]
      rcases hc.ended time s' o' g y hm' with ⟨z,hz⟩ | hend
      · have hs := Table.station_ne hh hz hg
        exact .inl ⟨z,by simpa [hs] using hz⟩
      · exact .inr hend

private theorem Consistent.released (hc : Consistent h t now) (s : Station) (l : Grant Owner Time)
    (hl : t.live now s = some l) :
    Consistent (.released now s l.owner l.generation::h) (t.put s none) now := by
  have hh := (Table.live_eq_some.mp hl).1
  constructor
  · exact List.forall_mem_cons.mpr ⟨le_rfl,hc.past⟩
  · exact grantsIncrease_cons.mpr ⟨nofun,hc.increasing⟩
  · exact List.forall_mem_cons.mpr ⟨nofun,hc.grantedBound⟩
  · intro time s' o' g hm
    rcases List.mem_cons.mp hm with he | hm
    · simp only [Event.released.injEq] at he
      rw [he.2.2.2]
      exact hc.held_bound hh
    · exact hc.releasedBound time s' o' g hm
  · intro s' l' hl'
    have hs : s' ≠ s := by
      rintro rfl
      simp at hl'
    have hh' : t.held s' = some l' := by simpa [hs] using hl'
    have hne := hc.generation_ne hh hh' hs
    obtain ⟨h1,h2,h3,h4⟩ := hc.held s' l' hh'
    refine ⟨h1,?_,h3,by simpa [validUntil,hne] using h4⟩
    rw [released_cons]
    rintro (⟨time,he⟩ | hr)
    · simp only [Event.released.injEq] at he
      exact hs he.2.1.symm
    · exact h2 hr
  · intro time s' o' g y hm
    have hm' : Event.granted time s' o' g y ∈ h := by simpa using hm
    by_cases hg : l.generation = g
    · subst g
      obtain ⟨rfl,rfl⟩ := hc.held_station hh hm'
      exact .inr ⟨now,by simp [validUntil],le_rfl,.inl ⟨now,by simp⟩⟩
    · rcases hc.ended time s' o' g y hm' with ⟨z,hz⟩ | ⟨z,hz,hzn,hend⟩
      · have hs := Table.station_ne hh hz hg
        exact .inl ⟨z,by simpa [hs] using hz⟩
      · refine .inr ⟨z,by simpa [validUntil,hg] using hz,hzn,?_⟩
        rcases hend with hr | hx
        · exact .inl (released_cons.mpr (.inr hr))
        · exact .inr hx

private theorem Consistent.denied (hc : Consistent h t now) (hcount : t.counter ≤ t'.counter)
    (hheld : t'.held = t.held) : Consistent (.denied now::h) t' now := by
  constructor
  · exact List.forall_mem_cons.mpr ⟨le_rfl,hc.past⟩
  · exact grantsIncrease_cons.mpr ⟨nofun,hc.increasing⟩
  · intro e he g hg
    rcases List.mem_cons.mp he with rfl | he
    · cases hg
    · exact (hc.grantedBound e he g hg).trans hcount
  · intro time s o g hm
    exact (hc.releasedBound time s o g (by simpa using hm)).trans hcount
  · intro s l hl
    simpa [latestGrant,storedExpiry,validUntil,released_cons] using hc.held s l (hheld ▸ hl)
  · intro time s o g y hm
    simpa [storedExpiry,validUntil,released_cons,hheld] using
      hc.ended time s o g y (by simpa using hm)

theorem Consistent.step {e : Event Station Owner Time} (hc : Consistent h t now)
    (hs : Step t e t') (he : e.time = now) : Consistent (e::h) t' now := by
  cases hs with
  | granted now' s o x hfree => cases he; exact hc.granted s o x hfree
  | renewed now' s l x hl => cases he; exact hc.renewed s l x hl
  | released now' s l hl => cases he; exact hc.released s l hl
  | denied now' => cases he; exact hc.denied le_rfl rfl
  | burned now' => cases he; exact hc.denied (Nat.le_succ _) rfl

theorem GrantsExclude.step {e : Event Station Owner Time} (hx : GrantsExclude h)
    (hc : Consistent h t now) (hs : Step t e t') (he : e.time = now) : GrantsExclude (e::h) := by
  refine ⟨?_,hx⟩
  intro time s o g x heq time' o' g' x' hm
  subst e
  cases hs with
  | granted _ _ _ _ hfree =>
    cases he
    obtain ⟨y,-,hyn,hr | hy⟩ := hc.ended_of_free hfree hm
    · exact .inl hr
    · exact .inr ⟨y,hy,hyn⟩

theorem AccessFenced.step {e : Event Station Owner Time} (hf : AccessFenced h)
    (hc : Consistent h t now) (hs : Step t e t') (he : e.time = now) : AccessFenced (e::h) := by
  refine ⟨?_,hf⟩
  intro time s o g heq
  cases hs with
  | granted now' s' o' x hfree => rcases heq with heq | ⟨x',heq⟩ <;> cases heq
  | renewed now' s' l x hl =>
    rcases heq with heq | ⟨x',heq⟩
    · cases heq
    · cases heq
      cases he
      exact hc.liveGrant hl
  | released now' s' l hl =>
    rcases heq with heq | ⟨x',heq⟩
    · cases heq
      cases he
      exact hc.liveGrant hl
    · cases heq
  | denied now' => rcases heq with heq | ⟨x',heq⟩ <;> cases heq
  | burned now' => rcases heq with heq | ⟨x',heq⟩ <;> cases heq

private theorem Consistent.no_younger (hc : Consistent h t now) {s s' : Station}
    {l : Grant Owner Time} (hh : t.held s = some l) {time x time' x' : Time} {o o' : Owner} {g : Nat}
    (hm : Event.granted time s' o g x ∈ h)
    (hm' : Event.granted time' s' o' l.generation x' ∈ h) : g ≤ l.generation := by
  obtain ⟨rfl,-⟩ := hc.held_station hh hm'
  exact latestGrant_max hc.increasing (hc.held s' l hh).1 hm

theorem ValidityDisjoint.step {e : Event Station Owner Time} (hd : ValidityDisjoint h)
    (hc : Consistent h t now) (hs : Step t e t') (he : e.time = now) : ValidityDisjoint (e::h) := by
  intro time s o g x time' o' g' x' hm hm' hlt
  cases hs with
  | granted now' s₀ o₀ x₀ hfree =>
    cases he
    rcases List.mem_cons.mp hm' with heq' | hold'
    · simp only [Event.granted.injEq] at heq'
      rcases List.mem_cons.mp hm with heq | hold
      · simp only [Event.granted.injEq] at heq
        omega
      · have := hc.grantedBound _ hold g rfl
        omega
    · have hne : ¬t.counter+1 = g' := by
        have := hc.grantedBound _ hold' g' rfl
        omega
      simp only [validUntil,hne,if_false]
      rcases List.mem_cons.mp hm with heq | hold
      · simp only [Event.granted.injEq] at heq
        obtain ⟨rfl,rfl,-,-,-⟩ := heq
        obtain ⟨y,hy,hyn,-⟩ := hc.ended_of_free hfree hold'
        exact ⟨y,hy,hyn⟩
      · exact hd time s o g x time' o' g' x' hold hold' hlt
  | renewed now' s₀ l x₀ hl =>
    have hm : Event.granted time s o g x ∈ h := by simpa using hm
    have hm' : Event.granted time' s o' g' x' ∈ h := by simpa using hm'
    have hne : ¬l.generation = g' := by
      rintro rfl
      exact absurd (hc.no_younger (Table.live_eq_some.mp hl).1 hm hm') (not_le.mpr hlt)
    simpa [validUntil,hne] using hd time s o g x time' o' g' x' hm hm' hlt
  | released now' s₀ l hl =>
    have hm : Event.granted time s o g x ∈ h := by simpa using hm
    have hm' : Event.granted time' s o' g' x' ∈ h := by simpa using hm'
    have hne : ¬l.generation = g' := by
      rintro rfl
      exact absurd (hc.no_younger (Table.live_eq_some.mp hl).1 hm hm') (not_le.mpr hlt)
    simpa [validUntil,hne] using hd time s o g x time' o' g' x' hm hm' hlt
  | denied now' =>
    exact hd time s o g x time' o' g' x' (by simpa using hm) (by simpa using hm') hlt
  | burned now' =>
    exact hd time s o g x time' o' g' x' (by simpa using hm) (by simpa using hm') hlt

/-- Everything a service guarantees about its history. -/
structure Fenced (h : List (Event Station Owner Time)) : Prop where
  increase : GrantsIncrease h
  exclude : GrantsExclude h
  disjoint : ValidityDisjoint h
  access : AccessFenced h

theorem fenced_nil : Fenced ([] : List (Event Station Owner Time)) :=
  ⟨by simp [GrantsIncrease],trivial,by intro _ _ _ _ _ _ _ _ _ hm; simp at hm,trivial⟩

theorem Fenced.step {e : Event Station Owner Time} (hf : Fenced h) (hc : Consistent h t now)
    (hs : Step t e t') (he : e.time = now) : Fenced (e::h) :=
  ⟨(hc.step hs he).increasing,hf.exclude.step hc hs he,hf.disjoint.step hc hs he,
    hf.access.step hc hs he⟩

/-- A grant that was not released is the live one exactly until the expiry last written for it. -/
theorem Consistent.live_iff (hc : Consistent h t now) {s : Station} {o : Owner} {g : Nat}
    {time x : Time} (hm : Event.granted time s o g x ∈ h) (hr : ¬Released h s o g) :
    (∃ y, t.live now s = some ⟨o,g,y⟩) ↔ ∃ y, storedExpiry h g = some y ∧ now < y := by
  constructor
  · rintro ⟨y,hy⟩
    obtain ⟨-,-,z,hz,hzn⟩ := hc.liveGrant hy
    exact ⟨z,hz,hzn⟩
  · rintro ⟨y,hy,hyn⟩
    rcases hc.ended time s o g x hm with ⟨z,hz⟩ | ⟨z,-,hzn,hr' | hz⟩
    · obtain ⟨-,-,h3,-⟩ := hc.held s _ hz
      rw [hy,Option.some.injEq] at h3
      exact ⟨z,Table.live_eq_some.mpr ⟨hz,h3 ▸ hyn⟩⟩
    · exact absurd hr' hr
    · rw [hy,Option.some.injEq] at hz
      exact absurd hyn (not_lt.mpr (hz ▸ hzn))

theorem Consistent.live_of_liveGrant (hc : Consistent h t now) {s : Station} {o : Owner} {g : Nat}
    (hl : LiveGrant h now s o g) : ∃ x, t.live now s = some ⟨o,g,x⟩ := by
  obtain ⟨hlatest,hreleased,hstored⟩ := hl
  obtain ⟨time,x,hm⟩ := latestGrant_mem hlatest
  exact (hc.live_iff hm hreleased).mpr hstored

theorem Fenced.expiry_written (hf : Fenced h) {s : Station} {o : Owner} {g : Nat} {x : Time}
    (hl : latestGrant h s = some (o,g)) (hx : storedExpiry h g = some x) :
    ∃ time, Event.granted time s o g x ∈ h ∨ Event.renewed time s o g x ∈ h := by
  obtain ⟨time,s',o',hm⟩ := storedExpiry_mem hx
  obtain ⟨time',x',hgrant⟩ := latestGrant_mem hl
  rcases hm with hm | hm
  · cases hf.increase.unique hm hgrant rfl rfl
    exact ⟨time,.inl hm⟩
  · obtain ⟨later,earlier,rfl⟩ := List.append_of_mem hm
    have hlive := History.throughout_iff.mp hf.access later _ earlier rfl time s' o' g (.inr ⟨x,rfl⟩)
    obtain ⟨time'',x'',hgrant'⟩ := latestGrant_mem hlive.1
    have hmem : Event.granted time'' s' o' g x'' ∈ later ++ Event.renewed time s' o' g x::earlier :=
      List.mem_append_right _ (List.mem_cons_of_mem _ hgrant')
    cases hf.increase.unique hmem hgrant rfl rfl
    exact ⟨time,.inr hm⟩

end Consistency

end FencedLease
