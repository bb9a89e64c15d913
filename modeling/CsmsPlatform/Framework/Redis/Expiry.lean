import CsmsPlatform.Framework.Redis.Footprint

/-!
# Keys that run out

Pre- and postconditions of scripts, and what they say of expiry: a command may leave a key that never
expires, so long as a later command of the script or transaction gives it a time.
-/

namespace Redis

namespace Script

variable {α β : Type} {now : Int} {P R : Keyspace → Prop} {E : Keyspace → Prop}

/-- From `P`, the script ends in `Q` with its result, or in `E` with an error. -/
def Leaves (now : Int) (P : Keyspace → Prop) (m : Script α) (Q : α → Keyspace → Prop)
    (E : Keyspace → Prop) : Prop :=
  ∀ ks, P ks → match m now ks with
    | (.ok a,ks') => Q a ks'
    | (.error _,ks') => E ks'

theorem leaves_pure {a : α} {Q : α → Keyspace → Prop} (h : ∀ ks, P ks → Q a ks) :
    Leaves now P (pure a) Q E := h

theorem Leaves.bind {m : Script α} {f : α → Script β} {Q : β → Keyspace → Prop}
    {S : α → Keyspace → Prop} (hm : Leaves now P m S E) (hf : ∀ a, Leaves now (S a) (f a) Q E) :
    Leaves now P (m >>= f) Q E := by
  intro ks hP
  have hfirst := hm ks hP
  rw [bind_apply]
  generalize m now ks = outcome at hfirst
  obtain ⟨_ | a,ks'⟩ := outcome
  · exact hfirst
  · exact hf a ks' hfirst

theorem ReadOnly.leaves {m : Script α} (h : m.ReadOnly) (hE : ∀ ks, P ks → E ks) :
    Leaves now P m (fun _ => P) E := by
  intro ks hP
  have hstate := h now ks
  generalize m now ks = outcome at hstate
  obtain ⟨reply,ks'⟩ := outcome
  change ks' = ks at hstate
  subst hstate
  cases reply with
  | error fault => exact hE ks' hP
  | ok a => exact hP

theorem leaves_state {m : Script α} (h : ∀ ks, P ks → R (m now ks).2) :
    Leaves now P m (fun _ => R) R := by
  intro ks hP
  have hstate := h ks hP
  generalize m now ks = outcome at hstate
  obtain ⟨_ | a,ks'⟩ := outcome <;> exact hstate

theorem Leaves.state {m : Script α} (h : Leaves now P m (fun _ => R) R) {ks : Keyspace} (hP : P ks) :
    R (m now ks).2 := by
  have hend := h ks hP
  generalize m now ks = outcome at hend
  obtain ⟨_ | a,ks'⟩ := outcome <;> exact hend

theorem Leaves.ignore {m : Script α} (h : Leaves now P m (fun _ => R) R) :
    Leaves now P m.ignore (fun _ => R) R :=
  h.bind fun _ => leaves_pure fun _ hR => hR

theorem leaves_transaction {m : Script Unit} {ms : List (Script Unit)} {Q : Keyspace → Prop}
    (hm : Leaves now P m (fun _ => R) R) (hms : Leaves now R (transaction ms) (fun _ => Q) Q) :
    Leaves now P (transaction (m::ms)) (fun _ => Q) Q := by
  apply leaves_state
  intro ks hP
  have hfirst := hm.state hP
  rw [transaction]
  generalize m now ks = outcome at hfirst
  obtain ⟨_ | a,ks'⟩ := outcome <;> exact hms.state hfirst

end Script

open Script

/-- By the deadline every key has run out, but for those of `K`. -/
def Keyspace.ExpiresBy (K : String → Prop) (deadline : Int) (ks : Keyspace) : Prop :=
  ∀ key item, ks key = some item → K key ∨ ∃ t, item.expiresAt = some t ∧ t ≤ deadline

namespace Keyspace.ExpiresBy

variable {K : String → Prop} {deadline now : Int} {ks : Keyspace} {key : String} {item : Item}

theorem empty : Keyspace.empty.ExpiresBy K deadline := by
  intro key item h
  cases h

theorem set (h : ks.ExpiresBy K deadline) (hitem : K key ∨ ∃ t, item.expiresAt = some t ∧ t ≤ deadline) :
    (ks.set key item).ExpiresBy K deadline := by
  intro k i hk
  by_cases hkey : k = key
  · subst hkey
    simp only [Keyspace.set,if_pos,Option.some.injEq] at hk
    exact hk ▸ hitem
  · exact h k i (Keyspace.set_ne ks item hkey ▸ hk)

theorem erase (h : ks.ExpiresBy K deadline) : (ks.erase key).ExpiresBy K deadline := by
  intro k i hk
  by_cases hkey : k = key
  · simp [Keyspace.erase,hkey] at hk
  · exact h k i (Keyspace.erase_ne ks hkey ▸ hk)

theorem replace (h : ks.ExpiresBy K deadline) {v v' : Value} {e : Option Int}
    (hlive : ks.live now key = some ⟨v,e⟩) : (ks.set key ⟨v',e⟩).ExpiresBy K deadline := by
  have htime : K key ∨ ∃ t, e = some t ∧ t ≤ deadline := h key _ (live_eq_some.mp hlive).1
  exact h.set htime

theorem of_local {α : Type} {f : Int → Keyspace → α × Keyspace} (h : ks.ExpiresBy K deadline)
    (hf : Local K f) : (f now ks).2.ExpiresBy K deadline := by
  intro k i hk
  by_cases hkey : K k
  · exact .inl hkey
  · rw [hf.frame now ks k hkey] at hk
    exact h k i hk

theorem live (h : ks.ExpiresBy K deadline) (hlate : deadline ≤ now) (hlive : ks.live now key = some item) :
    K key := by
  obtain ⟨hstored,hnow⟩ := live_eq_some.mp hlive
  rcases h key item hstored with hkey | ⟨t,ht,hdeadline⟩
  · exact hkey
  · simp only [Item.liveAt,ht,decide_eq_true_eq] at hnow
    omega

theorem of_dead (h : ks.ExpiresBy (fun k => K k ∨ k = key) deadline) (hnow : now ≤ deadline)
    (hdead : ks.live now key = none) : ks.ExpiresBy K deadline := by
  intro k i hk
  rcases h k i hk with (hkey | rfl) | htime
  · exact .inl hkey
  · have hlate : ¬ i.liveAt now = true := fun hl => by
      rw [live_eq_some.mpr ⟨hk,hl⟩] at hdead
      cases hdead
    unfold Item.liveAt at hlate
    split at hlate
    · exact absurd rfl hlate
    next t ht =>
      simp only [decide_eq_true_eq] at hlate
      exact .inr ⟨t,ht,by omega⟩
  · exact .inr htime

theorem timed (h : ks.ExpiresBy (fun k => K k ∨ k = key) deadline) {v : Value} {t : Int}
    (ht : t ≤ deadline) : (ks.set key ⟨v,some t⟩).ExpiresBy K deadline := by
  intro k i hk
  by_cases hkey : k = key
  · subst hkey
    simp only [Keyspace.set,if_pos,Option.some.injEq] at hk
    exact .inr ⟨t,hk ▸ rfl,ht⟩
  · rw [Keyspace.set_ne ks _ hkey] at hk
    rcases h k i hk with (hK | heq) | htime
    · exact .inl hK
    · exact absurd heq hkey
    · exact .inr htime

theorem erased (h : ks.ExpiresBy (fun k => K k ∨ k = key) deadline) :
    (ks.erase key).ExpiresBy K deadline := by
  intro k i hk
  by_cases hkey : k = key
  · simp [Keyspace.erase,hkey] at hk
  · rw [Keyspace.erase_ne ks hkey] at hk
    rcases h k i hk with (hK | heq) | htime
    · exact .inl hK
    · exact absurd heq hkey
    · exact .inr htime

theorem weaken (h : ks.ExpiresBy K deadline) : ks.ExpiresBy (fun k => K k ∨ k = key) deadline := by
  intro k i hk
  rcases h k i hk with hkey | htime
  · exact .inl (.inl hkey)
  · exact .inr htime

end Keyspace.ExpiresBy

section Commands

variable {K : String → Prop} {deadline now : Int} (key : String)

open Keyspace (ExpiresBy)

theorem incr_leaves : Leaves now (ExpiresBy K deadline) (incr key)
    (fun n => if n = 1 then ExpiresBy (fun k => K k ∨ k = key) deadline else ExpiresBy K deadline)
    (ExpiresBy K deadline) := by
  intro ks h
  unfold incr
  cases hlive : ks.live now key with
  | none => exact h.weaken.set (.inl (.inr rfl))
  | some item =>
    obtain ⟨value,e⟩ := item
    cases value with
    | string text =>
      dsimp only
      cases integerText text with
      | none => exact h
      | some n =>
        dsimp only
        by_cases hmax : n+1 < 2^63
        · rw [if_pos hmax]
          dsimp only
          by_cases hone : n+1 = 1
          · rw [if_pos hone]
            exact (h.replace hlive).weaken
          · rw [if_neg hone]
            exact h.replace hlive
        · rw [if_neg hmax]
          exact h
    | hash | list | stream => exact h

theorem hset_leaves (fields : List (String × String)) : Leaves now (ExpiresBy K deadline) (hset key fields)
    (fun _ => ExpiresBy (fun k => K k ∨ k = key) deadline) (ExpiresBy K deadline) := by
  intro ks h
  unfold hset
  cases hlive : ks.live now key with
  | none => exact h.weaken.set (.inl (.inr rfl))
  | some item =>
    obtain ⟨value,e⟩ := item
    cases value with
    | hash f => exact (h.replace hlive).weaken
    | string | list | stream => exact h

theorem pexpire_leaves {ms : Int} (hnow : now ≤ deadline) (hms : now+ms*millisecond ≤ deadline)
    {E : Keyspace → Prop} : Leaves now (ExpiresBy (fun k => K k ∨ k = key) deadline) (pexpire key ms)
    (fun _ => ExpiresBy K deadline) E := by
  intro ks h
  unfold pexpire
  cases hlive : ks.live now key with
  | none => exact h.of_dead hnow hlive
  | some item =>
    dsimp only
    by_cases hpos : ms ≤ 0
    · rw [if_pos hpos]
      exact h.erased
    · rw [if_neg hpos]
      exact h.timed hms

theorem expire_leaves {ttl : Int} (hnow : now ≤ deadline) (httl : now+ttl ≤ deadline)
    {E : Keyspace → Prop} : Leaves now (ExpiresBy (fun k => K k ∨ k = key) deadline) (expire key ttl)
    (fun _ => ExpiresBy K deadline) E := by
  intro ks h
  unfold expire
  cases hlive : ks.live now key with
  | none => exact h.of_dead hnow hlive
  | some item =>
    dsimp only
    by_cases hpos : ttl ≤ 0
    · rw [if_pos hpos]
      exact h.erased
    · rw [if_neg hpos]
      exact h.timed httl

theorem setEx_leaves (text : String) {ttl : Int} (httl : now+ttl ≤ deadline) {E : Keyspace → Prop} :
    Leaves now (ExpiresBy K deadline) (setEx key text ttl) (fun _ => ExpiresBy K deadline) E := by
  intro ks h
  exact h.set (.inr ⟨_,rfl,httl⟩)

theorem lpush_leaves (element : String) : Leaves now (ExpiresBy K deadline) (lpush key element)
    (fun _ => ExpiresBy (fun k => K k ∨ k = key) deadline)
    (ExpiresBy (fun k => K k ∨ k = key) deadline) := by
  intro ks h
  unfold lpush
  cases hlive : ks.live now key with
  | none => exact h.weaken.set (.inl (.inr rfl))
  | some item =>
    obtain ⟨value,e⟩ := item
    cases value with
    | list xs => exact (h.replace hlive).weaken
    | string | hash | stream => exact h.weaken

theorem rpop_leaves : Leaves now (ExpiresBy K deadline) (rpop key) (fun _ => ExpiresBy K deadline)
    (ExpiresBy K deadline) := by
  intro ks h
  unfold rpop
  cases hlive : ks.live now key with
  | none => exact h
  | some item =>
    obtain ⟨value,e⟩ := item
    cases value with
    | list xs =>
      dsimp only
      cases xs.getLast? with
      | none => exact h
      | some x =>
        dsimp only
        by_cases hnil : xs.dropLast = []
        · rw [if_pos hnil]
          exact h.erase
        · rw [if_neg hnil]
          exact h.replace hlive
    | string | hash | stream => exact h

end Commands

end Redis
