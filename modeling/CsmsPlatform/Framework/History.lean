import Mathlib

/-!
# Histories

A history lists events newest first, so that the tail of an event is what came before it.
-/

namespace History

variable {α : Type}

/-- `P` holds of each event, given the events before it. -/
def Throughout (P : α → List α → Prop) : List α → Prop
  | [] => True
  | e::h => P e h ∧ Throughout P h

theorem throughout_iff {P : α → List α → Prop} {h : List α} :
    Throughout P h ↔ ∀ later e earlier, h = later ++ e::earlier → P e earlier := by
  induction h with
  | nil => simp [Throughout]
  | cons e h ih =>
    rw [Throughout,ih]
    constructor
    · rintro ⟨hp,hrest⟩ later e' earlier heq
      rcases List.cons_eq_append_iff.mp heq with ⟨_,h2⟩ | ⟨rest,_,h2⟩
      · cases h2
        exact hp
      · exact hrest rest e' earlier h2
    · intro hall
      refine ⟨hall [] e h rfl,?_⟩
      intro later e' earlier heq
      exact hall (e::later) e' earlier (by simp [heq])

/-- What holds after a run, and did not before it, has held since one of its steps. -/
theorem foldl_since {σ : Type} {step : σ → α → σ} {P : σ → Prop} {s : σ} (actions : List α)
    (h : P (actions.foldl step s)) (hnot : ¬ P s) :
    ∃ before a after, actions = before ++ a::after ∧ ¬ P (before.foldl step s) ∧
      ∀ mid, mid <+: after → P ((before ++ a::mid).foldl step s) := by
  induction actions using List.reverseRecOn with
  | nil => exact absurd h hnot
  | append_singleton actions a ih =>
    by_cases hearlier : P (actions.foldl step s)
    · obtain ⟨before,b,after,rfl,hbefore,hsince⟩ := ih hearlier
      refine ⟨before,b,after ++ [a],by simp,hbefore,?_⟩
      intro mid hmid
      rcases List.prefix_concat_iff.mp hmid with rfl | hmid
      · rwa [← List.cons_append,← List.append_assoc]
      · exact hsince mid hmid
    · refine ⟨actions,a,[],rfl,hearlier,?_⟩
      intro mid hmid
      rw [List.prefix_nil.mp hmid]
      exact h

end History
