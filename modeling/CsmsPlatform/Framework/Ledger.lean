import Mathlib.Data.List.Basic
import Mathlib.Logic.Function.Basic

/-!
# Latest rows beside their events

A store keeps the latest row of each key and a log of numbered events. A transaction writes rows, which
it locks until its end, and appends events, whose numbers it takes from a counter as it goes. Nothing
shows in the tables before the commit. Where each transaction writes one row and then its event, the
rows stay what the last events say.
-/

namespace Ledger

structure Tables (κ ρ ε : Type) where
  rows : κ → Option ρ := fun _ => none
  events : List (Nat × ε) := []

structure Pending (κ ρ ε : Type) where
  rows : List (κ × ρ) := []
  events : List (Nat × ε) := []

structure Store (ι κ ρ ε : Type) where
  tables : Tables κ ρ ε := {}
  next : Nat := 0
  lock : κ → Option ι := fun _ => none
  pending : ι → Pending κ ρ ε := fun _ => {}

variable {ι κ ρ ε : Type}

namespace Store

variable [DecidableEq ι]

def Free (s : Store ι κ ρ ε) (i : ι) (k : κ) : Prop := s.lock k = none ∨ s.lock k = some i

instance (s : Store ι κ ρ ε) (i : ι) (k : κ) : Decidable (s.Free i k) :=
  inferInstanceAs (Decidable (_ ∨ _))

def append (s : Store ι κ ρ ε) (i : ι) (e : ε) : Store ι κ ρ ε :=
  { s with
    next := s.next+1
    pending := Function.update s.pending i
      { s.pending i with events := (s.pending i).events ++ [(s.next,e)] } }

def rollback (s : Store ι κ ρ ε) (i : ι) : Store ι κ ρ ε :=
  { s with
    lock := fun k => if s.lock k = some i then none else s.lock k
    pending := Function.update s.pending i {} }

variable (s : Store ι κ ρ ε) {i j : ι} (e : ε)

@[simp] theorem append_pending_ne (h : j ≠ i) : (s.append i e).pending j = s.pending j := by
  simp [append,h]

@[simp] theorem rollback_tables : (s.rollback i).tables = s.tables := rfl

@[simp] theorem rollback_pending_self : (s.rollback i).pending i = {} := by
  simp [rollback]

@[simp] theorem rollback_pending_ne (h : j ≠ i) : (s.rollback i).pending j = s.pending j := by
  simp [rollback,h]

theorem rollback_lock {k : κ} (h : s.lock k = some j) (hj : j ≠ i) :
    (s.rollback i).lock k = some j := by
  simp [rollback,h,hj]

end Store

/-! ## Rows as the last events have them -/

section Projection

variable (key : ε → κ) (agrees : ρ → ε → Prop)

def IsLast (events : List (Nat × ε)) (k : κ) (e : Nat × ε) : Prop :=
  e ∈ events ∧ key e.2 = k ∧ ∀ e' ∈ events, key e'.2 = k → e'.1 ≤ e.1

/-- Each row agrees with the last event of its key, and there is one just when there is an event. -/
structure Projects (t : Tables κ ρ ε) : Prop where
  last : ∀ k r, t.rows k = some r → ∀ e, IsLast key t.events k e → agrees r e.2
  present : ∀ k, (t.rows k).isSome ↔ ∃ e ∈ t.events, key e.2 = k

theorem projects_new {key : ε → κ} {agrees : ρ → ε → Prop} :
    Projects key agrees ({} : Tables κ ρ ε) where
  last k r hr := by cases hr
  present k := by simp

theorem exists_last {key : ε → κ} {events : List (Nat × ε)} {k : κ} (h : ∃ e ∈ events, key e.2 = k) :
    ∃ e, IsLast key events k e := by
  induction events with
  | nil => simp at h
  | cons e rest ih =>
    by_cases hrest : ∃ e ∈ rest, key e.2 = k
    · obtain ⟨last,hmem,hkey,hmax⟩ := ih hrest
      by_cases he : key e.2 = k ∧ last.1 ≤ e.1
      · refine ⟨e,List.mem_cons_self,he.1,List.forall_mem_cons.mpr ⟨fun _ => Nat.le_refl _,?_⟩⟩
        intro e' he' hkey'
        exact Nat.le_trans (hmax e' he' hkey') he.2
      · refine ⟨last,List.mem_cons_of_mem _ hmem,hkey,List.forall_mem_cons.mpr ⟨?_,hmax⟩⟩
        intro hkey'
        have hlt : ¬ last.1 ≤ e.1 := fun hle => he ⟨hkey',hle⟩
        omega
    · obtain ⟨e',hmem,hkey⟩ := h
      rcases List.mem_cons.mp hmem with rfl | hold
      · refine ⟨e',List.mem_cons_self,hkey,List.forall_mem_cons.mpr ⟨fun _ => Nat.le_refl _,?_⟩⟩
        intro e'' he'' hkey''
        exact absurd ⟨e'',he'',hkey''⟩ hrest
      · exact absurd ⟨e',hold,hkey⟩ hrest

theorem Projects.exists_agrees {key : ε → κ} {agrees : ρ → ε → Prop} {t : Tables κ ρ ε} {k : κ} {r : ρ}
    (h : Projects key agrees t) (hr : t.rows k = some r) : ∃ e, key e = k ∧ agrees r e := by
  obtain ⟨last,hlast⟩ := exists_last ((h.present k).mp (by simp [hr]))
  exact ⟨last.2,hlast.2.1,h.last k r hr last hlast⟩

/-- A transaction has written nothing, or a row that it holds, or the row and its event. -/
inductive Stage (s : Store ι κ ρ ε) (i : ι) : Pending κ ρ ε → Prop
  | idle : Stage s i {}
  | wrote {k : κ} {r : ρ} (held : s.lock k = some i) : Stage s i ⟨[(k,r)],[]⟩
  | logged {k : κ} {r : ρ} {e : Nat × ε} (held : s.lock k = some i) (agree : agrees r e.2)
      (same : key e.2 = k) (below : e.1 < s.next)
      (last : ∀ e' ∈ s.tables.events, key e'.2 = k → e'.1 < e.1) : Stage s i ⟨[(k,r)],[e]⟩

structure Store.Sound (s : Store ι κ ρ ε) : Prop where
  projects : Projects key agrees s.tables
  below : ∀ e ∈ s.tables.events, e.1 < s.next
  stage : ∀ i, Stage key agrees s i (s.pending i)

variable {key agrees} {s s' : Store ι κ ρ ε} {i : ι} {p : Pending κ ρ ε} {k : κ} {r : ρ}

theorem Stage.mono (h : Stage key agrees s i p) (hlock : ∀ k, s.lock k = some i → s'.lock k = some i)
    (hnext : s.next ≤ s'.next)
    (hevents : ∀ e ∈ s'.tables.events, e ∈ s.tables.events ∨ s.lock (key e.2) ≠ some i) :
    Stage key agrees s' i p := by
  cases h with
  | idle => exact .idle
  | wrote held => exact .wrote (hlock _ held)
  | logged held agree same below last =>
    refine .logged (hlock _ held) agree same (by omega) ?_
    intro e' he' hkey
    rcases hevents e' he' with hold | hother
    · exact last e' hold hkey
    · rw [hkey] at hother
      exact absurd held hother

namespace Store

variable [DecidableEq ι]

theorem Sound.append {e : ε} (h : s.Sound key agrees) (hwrote : s.pending i = ⟨[(k,r)],[]⟩)
    (hagrees : agrees r e) (hkey : key e = k) : (s.append i e).Sound key agrees where
  projects := h.projects
  below e' he' := Nat.lt_succ_of_lt (h.below e' he')
  stage j := by
    by_cases hj : j = i
    · subst hj
      have hpending : (s.append j e).pending j = ⟨[(k,r)],[(s.next,e)]⟩ := by
        simp [Store.append,hwrote]
      have hheld : s.lock k = some j := by
        have hstage := h.stage j
        rw [hwrote] at hstage
        cases hstage with
        | wrote held => exact held
      rw [hpending]
      exact .logged hheld hagrees hkey (Nat.lt_succ_self _) fun e' he' _ => h.below e' he'
    · rw [append_pending_ne s e hj]
      exact (h.stage j).mono (fun _ hheld => hheld) (Nat.le_succ _) fun e he => .inl he

theorem Sound.rollback (h : s.Sound key agrees) (i : ι) : (s.rollback i).Sound key agrees where
  projects := h.projects
  below := h.below
  stage j := by
    by_cases hj : j = i
    · subst hj
      rw [rollback_pending_self]
      exact .idle
    · rw [rollback_pending_ne s hj]
      exact (h.stage j).mono (fun _ hheld => s.rollback_lock hheld hj) (Nat.le_refl _) fun e he => .inl he

end Store

end Projection

/-! ## Writes and commits -/

variable [DecidableEq κ]

def Tables.apply (t : Tables κ ρ ε) (p : Pending κ ρ ε) : Tables κ ρ ε where
  rows := p.rows.foldl (fun rows write => Function.update rows write.1 (some write.2)) t.rows
  events := t.events ++ p.events

@[simp] theorem Tables.apply_empty (t : Tables κ ρ ε) : t.apply {} = t := by
  simp [apply]

namespace Store

def view (s : Store ι κ ρ ε) (i : ι) (k : κ) : Option ρ := (s.tables.apply (s.pending i)).rows k

theorem view_idle {s : Store ι κ ρ ε} {i : ι} (h : s.pending i = {}) (k : κ) :
    s.view i k = s.tables.rows k := by
  rw [view,h,Tables.apply_empty]

variable [DecidableEq ι]

def write (s : Store ι κ ρ ε) (i : ι) (k : κ) (r : ρ) : Store ι κ ρ ε :=
  { s with
    lock := Function.update s.lock k (some i)
    pending := Function.update s.pending i
      { s.pending i with rows := (s.pending i).rows ++ [(k,r)] } }

def commit (s : Store ι κ ρ ε) (i : ι) : Store ι κ ρ ε :=
  { s.rollback i with tables := s.tables.apply (s.pending i) }

variable (s : Store ι κ ρ ε) {i j : ι} (k : κ) (r : ρ)

@[simp] theorem write_pending_ne (h : j ≠ i) : (s.write i k r).pending j = s.pending j := by
  simp [write,h]

@[simp] theorem commit_tables : (s.commit i).tables = s.tables.apply (s.pending i) := rfl

@[simp] theorem commit_pending (j : ι) : (s.commit i).pending j = (s.rollback i).pending j := rfl

end Store

section Keep

variable {key : ε → κ} {agrees : ρ → ε → Prop} {t : Tables κ ρ ε} {k : κ} {r : ρ}

/-- A row and its event go in together, the event after all others of its key. -/
theorem Projects.put {e : Nat × ε} (h : Projects key agrees t) (hagrees : agrees r e.2) (hkey : key e.2 = k)
    (hlast : ∀ e' ∈ t.events, key e'.2 = k → e'.1 < e.1) :
    Projects key agrees (t.apply ⟨[(k,r)],[e]⟩) where
  last k' r' hr' e' he' := by
    obtain ⟨hmem,hkey',hmax⟩ := he'
    have hcases : e' ∈ t.events ∨ e' = e := by simpa [Tables.apply] using hmem
    by_cases hk : k' = k
    · subst hk
      have hr : r = r' := by simpa [Tables.apply] using hr'
      rcases hcases with hold | rfl
      · have hle := hmax e (by simp [Tables.apply]) hkey
        exact absurd (hlast e' hold hkey') (by omega)
      · exact hr ▸ hagrees
    · have hne : e' ≠ e := by
        rintro rfl
        exact hk (hkey'.symm.trans hkey)
      refine h.last k' r' (by simpa [Tables.apply,hk] using hr') e' ⟨hcases.resolve_right hne,hkey',?_⟩
      intro e'' he''
      exact hmax e'' (by simp [Tables.apply,he''])
  present k' := by
    by_cases hk : k' = k
    · subst hk
      simp [Tables.apply,hkey]
    · have hne : key e.2 ≠ k' := fun heq => hk (heq.symm.trans hkey)
      simpa [Tables.apply,hk,or_and_right,exists_or,hne] using h.present k'

namespace Store

variable [DecidableEq ι] {s : Store ι κ ρ ε} {i : ι}

theorem Sound.write (h : s.Sound key agrees) (hfree : s.Free i k) (hidle : s.pending i = {}) :
    (s.write i k r).Sound key agrees where
  projects := h.projects
  below := h.below
  stage j := by
    by_cases hj : j = i
    · subst hj
      have hpending : (s.write j k r).pending j = ⟨[(k,r)],[]⟩ := by simp [Store.write,hidle]
      rw [hpending]
      exact .wrote (by simp [Store.write])
    · rw [write_pending_ne s k r hj]
      refine (h.stage j).mono ?_ (Nat.le_refl _) fun e he => .inl he
      intro k' hheld
      have hk : k' ≠ k := by
        rintro rfl
        rcases hfree with hnone | hown
        · rw [hnone] at hheld
          cases hheld
        · exact hj (Option.some.inj (hheld.symm.trans hown))
      simpa [Store.write,hk] using hheld

theorem Sound.commit (h : s.Sound key agrees)
    (hwhole : s.pending i = {} ∨ ∃ k r e, s.pending i = ⟨[(k,r)],[e]⟩) :
    (s.commit i).Sound key agrees := by
  rcases hwhole with hidle | ⟨k,r,e,hlogged⟩
  · have hsame : s.commit i = s.rollback i := by simp [Store.commit,hidle,Store.rollback]
    rw [hsame]
    exact h.rollback i
  · have hstage := h.stage i
    rw [hlogged] at hstage
    cases hstage with
    | logged held agree same below last =>
      have hevents (e' : Nat × ε) (he' : e' ∈ (s.commit i).tables.events) :
          e' ∈ s.tables.events ∨ e' = e := by
        simpa [Tables.apply,hlogged] using he'
      refine ⟨?_,?_,?_⟩
      · rw [commit_tables,hlogged]
        exact h.projects.put agree same last
      · intro e' he'
        rcases hevents e' he' with hold | rfl
        · exact h.below e' hold
        · exact below
      · intro j
        rw [commit_pending]
        by_cases hj : j = i
        · subst hj
          rw [rollback_pending_self]
          exact .idle
        · rw [rollback_pending_ne s hj]
          refine (h.stage j).mono (fun _ hheld => s.rollback_lock hheld hj) (Nat.le_refl _) ?_
          intro e' he'
          refine (hevents e' he').imp_right ?_
          rintro rfl hother
          rw [same,held] at hother
          exact hj (Option.some.inj hother).symm

end Store

end Keep

end Ledger
