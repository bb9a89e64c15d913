import Mathlib.Data.Finset.Prod
import Mathlib.Data.Multiset.Count
import Mathlib.Algebra.BigOperators.Group.Finset.Basic
import Mathlib.Algebra.Order.BigOperators.Group.Finset

/-!
# Metrics with labels

A vector holds one metric for each combination of labels that has been used. Seen from outside it is the
multiset of these uses: its series are the labels that occur, and they count how often.
-/

structure MetricVec (κ μ : Type) where
  series : Finset κ
  value : κ → μ

namespace MetricVec

variable {κ μ : Type} [DecidableEq κ]

/-- No series yet. The first use of labels starts from `init`. -/
def new (init : μ) : MetricVec κ μ := ⟨∅,fun _ => init⟩

def update (v : MetricVec κ μ) (k : κ) (f : μ → μ) : MetricVec κ μ :=
  ⟨insert k v.series,Function.update v.value k (f (v.value k))⟩

/-- The uses so far, for metrics of which `size` tells how often they have been used. -/
structure Counts (size : μ → Nat) (v : MetricVec κ μ) (uses : Multiset κ) : Prop where
  series : v.series = uses.toFinset
  value : ∀ k, size (v.value k) = uses.count k

variable {size : μ → Nat} {v : MetricVec κ μ} {uses : Multiset κ}

theorem counts_new {init : μ} (h : size init = 0) : Counts size (new init : MetricVec κ μ) 0 :=
  ⟨rfl,fun k => h.trans (Multiset.count_zero k).symm⟩

theorem Counts.update (h : Counts size v uses) {f : μ → μ} (hf : ∀ x, size (f x) = size x+1) (k : κ) :
    Counts size (v.update k f) (k ::ₘ uses) := by
  constructor
  · rw [Multiset.toFinset_cons,← h.series]
    rfl
  · intro j
    by_cases hj : j = k
    · subst hj
      simp [MetricVec.update,hf,h.value]
    · simp [MetricVec.update,hj,h.value]

theorem Counts.sum (h : Counts size v uses) (p : κ → Prop) [DecidablePred p] :
    ∑ k ∈ v.series with p k, size (v.value k) = uses.countP p := by
  rw [h.series,Multiset.countP_eq_card_filter,← Multiset.toFinset_sum_count_eq,Multiset.toFinset_filter]
  apply Finset.sum_congr rfl
  intro k hk
  rw [h.value,Multiset.count_filter_of_pos (Finset.mem_filter.mp hk).2]

theorem Counts.sum_all (h : Counts size v uses) : ∑ k ∈ v.series, size (v.value k) = uses.card := by
  simpa using h.sum fun _ => True

theorem Counts.card_le (h : Counts size v uses) {labels : Finset κ} (hlabels : ∀ k ∈ uses, k ∈ labels) :
    v.series.card ≤ labels.card := by
  apply Finset.card_le_card
  intro k hk
  rw [h.series,Multiset.mem_toFinset] at hk
  exact hlabels k hk

end MetricVec

theorem List.filterMap_flatMap_of_toList {α β γ : Type} {f : α → List β} {g : β → Option γ}
    {part : α → Option γ} (h : ∀ a, (f a).filterMap g = (part a).toList) (l : List α) :
    (l.flatMap f).filterMap g = l.filterMap part := by
  induction l with
  | nil => rfl
  | cons a l ih =>
    rw [List.flatMap_cons,List.filterMap_append,h,ih,List.filterMap_cons]
    cases part a <;> rfl
