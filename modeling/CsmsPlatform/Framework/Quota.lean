import Mathlib

/-!
# Quotas

Each request names a key, and is admitted while fewer than `limit` requests of its key came before.
-/

namespace Quota

variable {α κ : Type} [DecidableEq κ]

def use (used : κ → Nat) (k : κ) : κ → Nat := Function.update used k (used k+1)

/-- The requests in their order, each with whether it is admitted. -/
def ration (limit : Nat) (key : α → κ) : (κ → Nat) → List α → List (α × Bool)
  | _,[] => []
  | used,a::rest => (a,decide (used (key a) < limit))::ration limit key (use used (key a)) rest

variable {limit : Nat} {key : α → κ} {used : κ → Nat} {k : κ} {requests : List α}

@[simp] theorem use_self (used : κ → Nat) (k : κ) : use used k k = used k+1 := by
  simp [use]

@[simp] theorem use_ne (used : κ → Nat) {k k' : κ} (h : k' ≠ k) : use used k k' = used k' := by
  simp [use,h]

theorem ration_fst (limit : Nat) (key : α → κ) (used : κ → Nat) (requests : List α) :
    (ration limit key used requests).map Prod.fst = requests := by
  induction requests generalizing used with
  | nil => rfl
  | cons a rest ih => simp [ration,ih]

/-- Of the requests of one key exactly the first are admitted. -/
theorem ration_key (limit : Nat) (key : α → κ) (used : κ → Nat) (k : κ) (requests : List α) :
    ((ration limit key used requests).filter fun e => key e.1 = k).map Prod.snd =
      List.replicate (min (requests.countP fun a => key a = k) (limit-used k)) true ++
        List.replicate ((requests.countP fun a => key a = k)-(limit-used k)) false := by
  induction requests generalizing used with
  | nil => simp [ration]
  | cons a rest ih =>
    by_cases ha : key a = k
    · subst ha
      by_cases hlimit : used (key a) < limit
      · have hleft : limit-used (key a) = (limit-use used (key a) (key a))+1 := by
          rw [use_self]
          omega
        simp [ration,ih,hlimit,hleft,List.replicate_succ]
      · have hleft : limit-used (key a) = 0 := by omega
        have hnext : limit-(used (key a)+1) = 0 := by omega
        simp [ration,ih,hlimit,hleft,hnext,List.replicate_succ]
    · simp [ration,ih,ha,use_ne used (Ne.symm ha)]

theorem admitted_le (limit : Nat) (key : α → κ) (used : κ → Nat) (k : κ) (requests : List α) :
    ((ration limit key used requests).countP fun e => e.2 ∧ key e.1 = k) ≤ limit := by
  have hcount : ((ration limit key used requests).countP fun e => e.2 ∧ key e.1 = k) =
      (((ration limit key used requests).filter fun e => key e.1 = k).map Prod.snd).count true := by
    rw [List.count,List.countP_map,List.countP_filter]
    apply List.countP_congr
    simp
  rw [hcount,ration_key,List.count_append,List.count_replicate_self]
  simp [List.count_replicate]

theorem countP_le_add {p q r : α → Bool} {l : List α} (h : ∀ a ∈ l, p a → q a ∨ r a) :
    l.countP p ≤ l.countP q+l.countP r := by
  induction l with
  | nil => simp
  | cons a rest ih =>
    have hrest := ih fun b hb => h b (List.mem_cons_of_mem _ hb)
    have ha := h a List.mem_cons_self
    rw [List.countP_cons,List.countP_cons,List.countP_cons]
    cases hp : p a with
    | false =>
      simp only [Bool.false_eq_true,if_false]
      omega
    | true =>
      rcases ha hp with hq | hr
      · simp only [hq,if_true]
        omega
      · simp only [hr,if_true]
        omega

theorem admitted_two (k k' : κ) (p : α → Prop) [DecidablePred p]
    (h : ∀ a ∈ requests, p a → key a = k ∨ key a = k') :
    ((ration limit key used requests).countP fun e => e.2 ∧ p e.1) ≤ 2*limit := by
  have hsplit : ((ration limit key used requests).countP fun e => e.2 ∧ p e.1) ≤
      ((ration limit key used requests).countP fun e => e.2 ∧ key e.1 = k) +
        ((ration limit key used requests).countP fun e => e.2 ∧ key e.1 = k') := by
    apply countP_le_add
    intro e he hadmitted
    obtain ⟨hok,hp⟩ : e.2 = true ∧ p e.1 := by simpa using hadmitted
    have hmem : e.1 ∈ requests := by
      rw [← ration_fst limit key used requests]
      exact List.mem_map_of_mem he
    simpa [hok] using h e.1 hmem hp
  have hk := admitted_le limit key used k requests
  have hk' := admitted_le limit key used k' requests
  omega

end Quota
