import CsmsPlatform.Framework.Redis.Streams

/-!
# What a consumer group accounts for

On a stream that is not trimmed, a group's last delivered id and its pending entries, together with
the ids that were acknowledged, say of each entry where it is. Every command keeps this account.
-/

namespace Redis

/-- A group accounts for every entry of an untrimmed stream: what it delivered is pending or was
acknowledged, and only that. -/
structure Accounted (v : StreamValue) (group : String) (acked : List Nat) : Prop where
  sorted : v.entries.Pairwise fun a b => a.id < b.id
  bounded : ∀ e ∈ v.entries, e.id ≤ v.lastId
  positive : ∀ e ∈ v.entries, 0 < e.id
  delivered : ∀ g, v.group group = some g → g.lastDelivered ≤ v.lastId
  pending : ∀ g, v.group group = some g → ∀ p ∈ g.pending,
    p.id ≤ g.lastDelivered ∧ p.id ∉ acked ∧ ∃ e ∈ v.entries, e.id = p.id
  settled : ∀ id ∈ acked, ∃ g, v.group group = some g ∧ id ≤ g.lastDelivered
  covered : ∀ g, v.group group = some g → ∀ e ∈ v.entries, e.id ≤ g.lastDelivered →
    e.id ∈ acked ∨ ∃ p ∈ g.pending, p.id = e.id

def StreamValue.Undelivered (v : StreamValue) (group : String) (id : Nat) : Prop :=
  ∀ g, v.group group = some g → g.lastDelivered < id

def StreamValue.Pending (v : StreamValue) (group : String) (id : Nat) : Prop :=
  ∃ g, v.group group = some g ∧ ∃ p ∈ g.pending, p.id = id

section Accounting

variable {v : StreamValue} {group : String} {acked : List Nat}

theorem accounted_new : Accounted StreamValue.new group [] where
  sorted := List.Pairwise.nil
  bounded := nofun
  positive := nofun
  delivered := nofun
  pending := nofun
  settled := nofun
  covered := nofun

/-- Every entry is in exactly one of the three states. -/
theorem Accounted.oneState (h : Accounted v group acked) {e : StreamEntry} (he : e ∈ v.entries) :
    v.Undelivered group e.id ∧ ¬v.Pending group e.id ∧ e.id ∉ acked ∨
    ¬v.Undelivered group e.id ∧ v.Pending group e.id ∧ e.id ∉ acked ∨
    ¬v.Undelivered group e.id ∧ ¬v.Pending group e.id ∧ e.id ∈ acked := by
  cases hg : v.group group with
  | none =>
    left
    refine ⟨?_,?_,?_⟩
    · intro g hg'
      rw [hg] at hg'
      cases hg'
    · intro ⟨g,hg',_⟩
      rw [hg] at hg'
      cases hg'
    · intro hm
      obtain ⟨g,hg',_⟩ := h.settled _ hm
      rw [hg] at hg'
      cases hg'
  | some g =>
    -- up to the last delivered id the entries are covered, beyond it they are undelivered
    by_cases hd : g.lastDelivered < e.id
    · left
      refine ⟨?_,?_,?_⟩
      · intro g' hg'
        rw [hg] at hg'
        cases hg'
        exact hd
      · intro ⟨g',hg',p,hp,hid⟩
        rw [hg] at hg'
        cases hg'
        have := (h.pending g hg p hp).1
        omega
      · intro hm
        obtain ⟨g',hg',hle⟩ := h.settled _ hm
        rw [hg] at hg'
        cases hg'
        omega
    · right
      have hnot : ¬v.Undelivered group e.id := fun hu => hd (hu g hg)
      rcases h.covered g hg e he (by omega) with hm | ⟨p,hp,hid⟩
      · right
        refine ⟨hnot,?_,hm⟩
        intro ⟨g',hg',p,hp,hid⟩
        rw [hg] at hg'
        cases hg'
        apply (h.pending g hg p hp).2.1
        rw [hid]
        exact hm
      · left
        refine ⟨hnot,⟨g,hg,p,hp,hid⟩,?_⟩
        rw [← hid]
        exact (h.pending g hg p hp).2.1

theorem Accounted.eq_of_id (h : Accounted v group acked) {a b : StreamEntry} (ha : a ∈ v.entries)
    (hb : b ∈ v.entries) (hid : a.id = b.id) : a = b := by
  have hpair : v.entries.Pairwise fun a b => a.id = b.id → a = b := by
    apply h.sorted.imp
    intro a b hlt he
    omega
  have hflip : v.entries.Pairwise (flip fun a b => a.id = b.id → a = b) := by
    apply h.sorted.imp
    intro a b hlt he
    omega
  exact hpair.forall_of_forall_of_flip (fun _ _ _ => rfl) hflip ha hb hid

theorem Accounted.append (h : Accounted v group acked) (maxLen : Nat)
    (fields : List (String × String)) : Accounted (v.append maxLen 0 fields) group acked where
  sorted := by
    simp only [StreamValue.append,Nat.zero_min,List.drop_zero]
    rw [List.pairwise_append]
    refine ⟨h.sorted,List.pairwise_singleton _ _,?_⟩
    intro a ha b hb
    rw [List.mem_singleton] at hb
    subst hb
    have := h.bounded a ha
    simp only
    omega
  bounded e he := by
    simp only [StreamValue.append,Nat.zero_min,List.drop_zero,List.mem_append,List.mem_singleton] at he ⊢
    rcases he with he | rfl
    · have := h.bounded e he
      omega
    · exact le_rfl
  positive e he := by
    simp only [StreamValue.append,Nat.zero_min,List.drop_zero,List.mem_append,List.mem_singleton] at he
    rcases he with he | rfl
    · exact h.positive e he
    · exact Nat.succ_pos _
  delivered g hg := by
    have := h.delivered g hg
    simp only [StreamValue.append]
    omega
  pending g hg p hp := by
    obtain ⟨h1,h2,e,he,hid⟩ := h.pending g hg p hp
    refine ⟨h1,h2,e,?_,hid⟩
    simp only [StreamValue.append,Nat.zero_min,List.drop_zero]
    exact List.mem_append_left _ he
  settled := h.settled
  covered g hg e he hle := by
    simp only [StreamValue.append,Nat.zero_min,List.drop_zero,List.mem_append,List.mem_singleton] at he
    rcases he with he | rfl
    · exact h.covered g hg e he hle
    · have := h.delivered g hg
      simp only at hle
      omega

theorem setGroup_self (v : StreamValue) (group : String) (g : ConsumerGroup) :
    (v.setGroup group g).group group = some g := by
  simp [StreamValue.setGroup]

theorem Accounted.create (h : Accounted v group acked) (hnone : v.group group = none) :
    Accounted (v.setGroup group ⟨0,[]⟩) group acked where
  sorted := h.sorted
  bounded := h.bounded
  positive := h.positive
  delivered g hg := by
    rw [setGroup_self] at hg
    cases hg
    exact Nat.zero_le _
  pending g hg p hp := by
    rw [setGroup_self] at hg
    cases hg
    cases hp
  settled id hid := by
    obtain ⟨g,hg,_⟩ := h.settled id hid
    rw [hnone] at hg
    cases hg
  covered g hg e he hle := by
    rw [setGroup_self] at hg
    cases hg
    have hpos := h.positive e he
    simp only at hle
    omega

theorem Accounted.undelivered_spec (h : Accounted v group acked) (g : ConsumerGroup) (count : Nat) :
    (∀ e ∈ v.undelivered g count, e ∈ v.entries ∧ g.lastDelivered < e.id) ∧
    ∀ x ∈ v.undelivered g count, ∀ e ∈ v.entries, g.lastDelivered < e.id → e.id ≤ x.id →
      e ∈ v.undelivered g count := by
  refine ⟨?_,?_⟩
  · intro e he
    simpa using List.mem_of_mem_take he
  · intro x hx e he hd hle
    have hm : e ∈ v.entries.filter fun e => g.lastDelivered < e.id := by simp [he,hd]
    have hsorted : (v.entries.filter fun e => g.lastDelivered < e.id).Pairwise
        fun a b => a.id < b.id := h.sorted.filter _
    rw [← List.take_append_drop count (v.entries.filter fun e => g.lastDelivered < e.id)] at hm hsorted
    rcases List.mem_append.mp hm with hm | hm
    · exact hm
    · have hlt := (List.pairwise_append.mp hsorted).2.2 x hx e hm
      omega

theorem Accounted.delivered_le (h : Accounted v group acked) {g : ConsumerGroup} {count : Nat}
    (now : Int) {e : StreamEntry} (he : e ∈ v.undelivered g count) :
    e.id ≤ (g.deliver now (v.undelivered g count)).lastDelivered := by
  have hsorted : (v.undelivered g count).Pairwise fun a b => a.id < b.id :=
    (h.sorted.filter _).sublist (List.take_sublist _ _)
  cases hl : (v.undelivered g count).getLast? with
  | none =>
    rw [List.getLast?_eq_none_iff.mp hl] at he
    cases he
  | some y =>
    have hid : (g.deliver now (v.undelivered g count)).lastDelivered = y.id := by
      simp [ConsumerGroup.deliver,hl]
    obtain ⟨ys,hys⟩ := List.getLast?_eq_some_iff.mp hl
    rw [hys] at he hsorted
    rw [hid]
    rcases List.mem_append.mp he with he | he
    · have := (List.pairwise_append.mp hsorted).2.2 e he y (by simp)
      omega
    · rw [List.mem_singleton] at he
      rw [he]

theorem deliver_last (g : ConsumerGroup) (now : Int) (es : List StreamEntry) :
    (es = [] ∧ (g.deliver now es).lastDelivered = g.lastDelivered) ∨
    ∃ x ∈ es, (g.deliver now es).lastDelivered = x.id := by
  cases hx : es.getLast? with
  | none => exact .inl ⟨List.getLast?_eq_none_iff.mp hx,by simp [ConsumerGroup.deliver,hx]⟩
  | some x => exact .inr ⟨x,List.mem_of_getLast? hx,by simp [ConsumerGroup.deliver,hx]⟩

theorem Accounted.deliver_le (h : Accounted v group acked) (g : ConsumerGroup) (now : Int)
    (count : Nat) : g.lastDelivered ≤ (g.deliver now (v.undelivered g count)).lastDelivered := by
  rcases deliver_last g now (v.undelivered g count) with ⟨_,he⟩ | ⟨x,hx,he⟩
  · omega
  · have := ((h.undelivered_spec g count).1 x hx).2
    omega

theorem Accounted.deliver (h : Accounted v group acked) {g : ConsumerGroup}
    (hg : v.group group = some g) (now : Int) (count : Nat) :
    Accounted (v.setGroup group (g.deliver now (v.undelivered g count))) group acked := by
  obtain ⟨hnew,hnext⟩ := h.undelivered_spec g count
  have hlast := deliver_last g now (v.undelivered g count)
  have hle := h.deliver_le g now count
  exact {
    sorted := h.sorted
    bounded := h.bounded
    positive := h.positive
    delivered := fun g' hg' => by
      rw [setGroup_self] at hg'
      cases hg'
      rcases hlast with ⟨_,he⟩ | ⟨x,hx,he⟩
      · rw [he]
        exact h.delivered g hg
      · rw [he]
        exact h.bounded x (hnew x hx).1
    pending := fun g' hg' p hp => by
      rw [setGroup_self] at hg'
      cases hg'
      rcases List.mem_append.mp hp with hp | hp
      · obtain ⟨h1,h2,h3⟩ := h.pending g hg p hp
        exact ⟨h1.trans hle,h2,h3⟩
      · obtain ⟨e,he,rfl⟩ := List.mem_map.mp hp
        refine ⟨h.delivered_le now he,?_,e,(hnew e he).1,rfl⟩
        intro hm
        obtain ⟨g',hg'',hle'⟩ := h.settled _ hm
        rw [hg] at hg''
        cases hg''
        have := (hnew e he).2
        simp only at hle'
        omega
    settled := fun id hid => by
      obtain ⟨g',hg',hle'⟩ := h.settled id hid
      rw [hg] at hg'
      cases hg'
      exact ⟨_,setGroup_self _ _ _,hle'.trans hle⟩
    covered := fun g' hg' e he hle' => by
      rw [setGroup_self] at hg'
      cases hg'
      by_cases hd : e.id ≤ g.lastDelivered
      · rcases h.covered g hg e he hd with hm | ⟨p,hp,hid⟩
        · exact .inl hm
        · exact .inr ⟨p,List.mem_append_left _ hp,hid⟩
      · right
        rcases hlast with ⟨_,hid⟩ | ⟨x,hx,hid⟩
        · omega
        · have hm := hnext x hx e he (by omega) (by omega)
          exact ⟨⟨e.id,now⟩,List.mem_append_right _ (List.mem_map.mpr ⟨e,hm,rfl⟩),rfl⟩ }

theorem claimScan_claimed (now minIdle : Int) (attempts count : Nat) (ps : List PendingEntry) :
    ∀ e ∈ (claimScan v now minIdle attempts count ps).2, e ∈ v.entries ∧ ∃ p ∈ ps, p.id = e.id := by
  have htail {p : PendingEntry} {ps : List PendingEntry} {e : StreamEntry}
      (h : e ∈ v.entries ∧ ∃ q ∈ ps, q.id = e.id) : e ∈ v.entries ∧ ∃ q ∈ p::ps, q.id = e.id := by
    obtain ⟨he,q,hq,hid⟩ := h
    exact ⟨he,q,List.mem_cons_of_mem _ hq,hid⟩
  induction attempts, count, ps using claimScan.induct v now minIdle with
  | case1 count ps => nofun
  | case2 attempts ps => simp [claimScan]
  | case3 attempts count => nofun
  | case4 attempts count p ps hfind ih =>
    intro e he
    simp only [claimScan,hfind] at he
    exact htail (ih e he)
  | case5 attempts count p ps x hfind hidle rest claimed hpair ih =>
    intro e he
    simp only [claimScan,hfind,if_pos hidle] at he
    exact htail (ih e he)
  | case6 attempts count p ps x hfind hidle rest claimed hpair ih =>
    intro e he
    simp only [claimScan,hfind,if_neg hidle] at he
    rcases List.mem_cons.mp he with rfl | he
    · have hid := List.find?_some hfind
      exact ⟨List.mem_of_find?_eq_some hfind,p,List.mem_cons_self,(of_decide_eq_true hid).symm⟩
    · exact htail (ih e he)

theorem claimScan_pending (now minIdle : Int) (attempts count : Nat) (ps : List PendingEntry) :
    (∀ q ∈ (claimScan v now minIdle attempts count ps).1, ∃ p ∈ ps, p.id = q.id) ∧
    ((∀ p ∈ ps, ∃ e ∈ v.entries, e.id = p.id) →
      ∀ p ∈ ps, ∃ q ∈ (claimScan v now minIdle attempts count ps).1, q.id = p.id) := by
  induction attempts, count, ps using claimScan.induct v now minIdle with
  | case1 count ps => exact ⟨fun q hq => ⟨q,hq,rfl⟩,fun _ p hp => ⟨p,hp,rfl⟩⟩
  | case2 attempts ps =>
    have hsame : claimScan v now minIdle attempts 0 ps = (ps,[]) := by
      cases attempts <;> rfl
    rw [hsame]
    exact ⟨fun q hq => ⟨q,hq,rfl⟩,fun _ p hp => ⟨p,hp,rfl⟩⟩
  | case3 attempts count => exact ⟨nofun,nofun⟩
  | case4 attempts count p ps hfind ih =>
    simp only [claimScan,hfind]
    refine ⟨?_,?_⟩
    · intro q hq
      obtain ⟨x,hx,hid⟩ := ih.1 q hq
      exact ⟨x,List.mem_cons_of_mem _ hx,hid⟩
    · intro hpresent
      obtain ⟨e,he,hid⟩ := hpresent p List.mem_cons_self
      have := List.find?_eq_none.mp hfind e he
      simp [hid] at this
  | case5 attempts count p ps x hfind hidle rest claimed hpair ih =>
    simp only [claimScan,hfind,if_pos hidle]
    refine ⟨?_,?_⟩
    · intro q hq
      rcases List.mem_cons.mp hq with rfl | hq
      · exact ⟨q,List.mem_cons_self,rfl⟩
      · obtain ⟨y,hy,hid⟩ := ih.1 q hq
        exact ⟨y,List.mem_cons_of_mem _ hy,hid⟩
    · intro hpresent y hy
      rcases List.mem_cons.mp hy with rfl | hy
      · exact ⟨y,List.mem_cons_self,rfl⟩
      · obtain ⟨q,hq,hid⟩ := ih.2 (fun z hz => hpresent z (List.mem_cons_of_mem _ hz)) y hy
        exact ⟨q,List.mem_cons_of_mem _ hq,hid⟩
  | case6 attempts count p ps x hfind hidle rest claimed hpair ih =>
    simp only [claimScan,hfind,if_neg hidle]
    refine ⟨?_,?_⟩
    · intro q hq
      rcases List.mem_cons.mp hq with rfl | hq
      · exact ⟨p,List.mem_cons_self,rfl⟩
      · obtain ⟨y,hy,hid⟩ := ih.1 q hq
        exact ⟨y,List.mem_cons_of_mem _ hy,hid⟩
    · intro hpresent y hy
      rcases List.mem_cons.mp hy with rfl | hy
      · exact ⟨⟨y.id,now⟩,List.mem_cons_self,rfl⟩
      · obtain ⟨q,hq,hid⟩ := ih.2 (fun z hz => hpresent z (List.mem_cons_of_mem _ hz)) y hy
        exact ⟨q,List.mem_cons_of_mem _ hq,hid⟩

theorem Accounted.repend (h : Accounted v group acked) {g : ConsumerGroup}
    (hg : v.group group = some g) {pending : List PendingEntry} {acked' : List Nat}
    (hold : ∀ q ∈ pending, ∃ p ∈ g.pending, p.id = q.id ∧ p.id ∉ acked')
    (hacked : ∀ id ∈ acked', id ∈ acked ∨ ∃ p ∈ g.pending, p.id = id)
    (hmono : ∀ id ∈ acked, id ∈ acked')
    (hkept : ∀ p ∈ g.pending, p.id ∈ acked' ∨ ∃ q ∈ pending, q.id = p.id) :
    Accounted (v.setGroup group { g with pending := pending }) group acked' where
  sorted := h.sorted
  bounded := h.bounded
  positive := h.positive
  delivered g' hg' := by
    rw [setGroup_self] at hg'
    cases hg'
    exact h.delivered g hg
  pending g' hg' q hq := by
    rw [setGroup_self] at hg'
    cases hg'
    obtain ⟨p,hp,hid,hna⟩ := hold q hq
    obtain ⟨h1,_,h3⟩ := h.pending g hg p hp
    rw [← hid]
    exact ⟨h1,hna,h3⟩
  settled id hid := by
    refine ⟨_,setGroup_self _ _ _,?_⟩
    rcases hacked id hid with hm | ⟨p,hp,rfl⟩
    · obtain ⟨g',hg',hle⟩ := h.settled id hm
      rw [hg] at hg'
      cases hg'
      exact hle
    · exact (h.pending g hg p hp).1
  covered g' hg' e he hle := by
    rw [setGroup_self] at hg'
    cases hg'
    rcases h.covered g hg e he hle with hm | ⟨p,hp,hid⟩
    · exact .inl (hmono _ hm)
    · rcases hkept p hp with hm | ⟨q,hq,hid'⟩
      · exact .inl (hid ▸ hm)
      · exact .inr ⟨q,hq,hid'.trans hid⟩

theorem Accounted.claim (h : Accounted v group acked) {g : ConsumerGroup}
    (hg : v.group group = some g) (now minIdle : Int) (attempts count : Nat) :
    Accounted (v.setGroup group
      { g with pending := (claimScan v now minIdle attempts count g.pending).1 }) group acked := by
  obtain ⟨hsub,hkept⟩ := claimScan_pending (v := v) now minIdle attempts count g.pending
  apply h.repend hg
  · intro q hq
    obtain ⟨p,hp,hid⟩ := hsub q hq
    exact ⟨p,hp,hid,(h.pending g hg p hp).2.1⟩
  · exact fun id hid => .inl hid
  · exact fun id hid => hid
  · intro p hp
    exact .inr (hkept (fun x hx => (h.pending g hg x hx).2.2) p hp)

theorem Accounted.ack (h : Accounted v group acked) {g : ConsumerGroup}
    (hg : v.group group = some g) {id : Nat} (hid : id ∈ acked ∨ ∃ p ∈ g.pending, p.id = id) :
    Accounted (v.setGroup group { g with pending := g.pending.filter fun p => p.id ≠ id })
      group (id::acked) := by
  apply h.repend hg
  · intro q hq
    simp only [List.mem_filter,decide_eq_true_eq] at hq
    refine ⟨q,hq.1,rfl,?_⟩
    intro hm
    rcases List.mem_cons.mp hm with he | hm
    · exact hq.2 he
    · exact (h.pending g hg q hq.1).2.1 hm
  · intro x hx
    rcases List.mem_cons.mp hx with rfl | hx
    · exact hid
    · exact .inl hx
  · exact fun x hx => List.mem_cons_of_mem _ hx
  · intro p hp
    by_cases he : p.id = id
    · exact .inl (he ▸ List.mem_cons_self)
    · exact .inr ⟨p,by simp [hp,he],rfl⟩

def StreamValue.Grows (v w : StreamValue) (group : String) : Prop :=
  (∀ e ∈ v.entries, e ∈ w.entries) ∧ ∀ g, v.group group = some g →
    ∃ g', w.group group = some g' ∧ g.lastDelivered ≤ g'.lastDelivered

theorem grows_append (v : StreamValue) (group : String) (maxLen : Nat)
    (fields : List (String × String)) : v.Grows (v.append maxLen 0 fields) group := by
  refine ⟨?_,fun g hg => ⟨g,hg,le_rfl⟩⟩
  intro e he
  simp only [StreamValue.append,Nat.zero_min,List.drop_zero]
  exact List.mem_append_left _ he

theorem grows_setGroup {g' : ConsumerGroup}
    (h : ∀ g, v.group group = some g → g.lastDelivered ≤ g'.lastDelivered) :
    v.Grows (v.setGroup group g') group :=
  ⟨fun _ he => he,fun g hg => ⟨g',setGroup_self _ _ _,h g hg⟩⟩

theorem grows_pending {g : ConsumerGroup} (hg : v.group group = some g) (pending : List PendingEntry) :
    v.Grows (v.setGroup group { g with pending := pending }) group := by
  apply grows_setGroup
  intro g' hg'
  rw [hg] at hg'
  cases hg'
  exact le_rfl

theorem Accounted.grows_deliver (h : Accounted v group acked) {g : ConsumerGroup}
    (hg : v.group group = some g) (now : Int) (count : Nat) :
    v.Grows (v.setGroup group (g.deliver now (v.undelivered g count))) group := by
  apply grows_setGroup
  intro g' hg'
  rw [hg] at hg'
  cases hg'
  exact h.deliver_le g now count

theorem Accounted.claimed (h : Accounted v group acked) {g : ConsumerGroup}
    (hg : v.group group = some g) {now minIdle : Int} {attempts count : Nat} {e : StreamEntry}
    (he : e ∈ (claimScan v now minIdle attempts count g.pending).2) :
    e ∈ v.entries ∧ e.id ≤ g.lastDelivered := by
  obtain ⟨hm,p,hp,hid⟩ := claimScan_claimed now minIdle attempts count g.pending e he
  refine ⟨hm,?_⟩
  rw [← hid]
  exact (h.pending g hg p hp).1

end Accounting

end Redis
