import CsmsPlatform.Framework.Redis.Accounting

/-!
# The backlog of a consumer group

What a group has before it: the entries it has not delivered yet, and the delivered ones that are
still to be acknowledged. A read takes one from the first, and a claim whose entries are acknowledged
takes as many from the second as it may return.
-/

namespace Redis

namespace StreamValue

variable {v : StreamValue} {group : String}

/-- The group, which is at the start of the stream before it is created. -/
def groupState (v : StreamValue) (group : String) : ConsumerGroup := (v.group group).getD ⟨0,[]⟩

/-- How many entries up to an id the group has yet to deliver. -/
def backlog (v : StreamValue) (group : String) (id : Nat) : Nat :=
  (v.entries.filter fun e => (v.groupState group).lastDelivered < e.id).countP fun e => e.id ≤ id

def acknowledge (v : StreamValue) (group : String) (ids : List Nat) : StreamValue :=
  match v.group group with
  | none => v
  | some g => v.setGroup group { g with pending := g.pending.filter fun p => p.id ∉ ids }

theorem groupState_some {g : ConsumerGroup} (h : v.group group = some g) : v.groupState group = g := by
  rw [groupState,h]
  rfl

@[simp] theorem groupState_setGroup (v : StreamValue) (group : String) (g : ConsumerGroup) :
    (v.setGroup group g).groupState group = g :=
  groupState_some (setGroup_self v group g)

theorem groupState_append (v : StreamValue) (group : String) (maxLen evict : Nat)
    (fields : List (String × String)) :
    (v.append maxLen evict fields).groupState group = v.groupState group := rfl

@[simp] theorem setGroup_setGroup (v : StreamValue) (group : String) (g g' : ConsumerGroup) :
    (v.setGroup group g).setGroup group g' = v.setGroup group g' := by
  simp only [setGroup,mk.injEq,true_and]
  funext name
  by_cases hn : name = group
  · simp only [if_pos hn]
  · simp only [if_neg hn]

theorem group_acknowledge {g : ConsumerGroup} (h : v.group group = some g) (ids : List Nat) :
    v.acknowledge group ids =
      v.setGroup group { g with pending := g.pending.filter fun p => p.id ∉ ids } := by
  simp only [acknowledge,h]

theorem acknowledge_one {g : ConsumerGroup} (h : v.group group = some g) (id : Nat) :
    v.acknowledge group [id] =
      v.setGroup group { g with pending := g.pending.filter fun p => p.id ≠ id } := by
  simp only [group_acknowledge h,List.mem_singleton,ne_eq]

theorem acknowledge_nil {g : ConsumerGroup} (h : v.group group = some g) :
    v.acknowledge group [] = v := by
  have hsame : (fun name => if name = group then some g else v.group name) = v.group := by
    funext name
    by_cases hn : name = group
    · rw [if_pos hn,hn,h]
    · rw [if_neg hn]
  simp only [group_acknowledge h,setGroup,List.not_mem_nil,not_false_eq_true,decide_true,List.filter_true]
  rw [hsame]

theorem acknowledge_cons {g : ConsumerGroup} (h : v.group group = some g) (id : Nat) (ids : List Nat) :
    (v.acknowledge group [id]).acknowledge group ids = v.acknowledge group (id::ids) := by
  rw [group_acknowledge h,group_acknowledge (setGroup_self _ _ _),group_acknowledge h,setGroup_setGroup]
  have hfilter : (g.pending.filter fun p => p.id ∉ [id]).filter (fun p => p.id ∉ ids) =
      g.pending.filter fun p => p.id ∉ id::ids := by
    rw [List.filter_filter]
    apply List.filter_congr
    intro p _
    rw [← Bool.decide_and]
    apply decide_eq_decide.mpr
    simp only [List.mem_cons,List.not_mem_nil,or_false,not_or]
    exact and_comm
  rw [← hfilter]

end StreamValue

section Backlog

variable {v : StreamValue} {group : String} {acked : List Nat}

theorem Accounted.acknowledge (h : Accounted v group acked) {g : ConsumerGroup}
    (hg : v.group group = some g) {ids : List Nat} (hids : ∀ id ∈ ids, ∃ p ∈ g.pending, p.id = id) :
    Accounted (v.acknowledge group ids) group (ids ++ acked) := by
  rw [StreamValue.group_acknowledge hg]
  apply h.repend hg
  · intro q hq
    have hkept := List.mem_filter.mp hq
    refine ⟨q,hkept.1,rfl,?_⟩
    intro hm
    rcases List.mem_append.mp hm with hm | hm
    · exact of_decide_eq_true hkept.2 hm
    · exact (h.pending g hg q hkept.1).2.1 hm
  · intro id hid
    rcases List.mem_append.mp hid with hid | hid
    · exact .inr (hids id hid)
    · exact .inl hid
  · intro id hid
    exact List.mem_append_right _ hid
  · intro p hp
    by_cases hm : p.id ∈ ids
    · exact .inl (List.mem_append_left _ hm)
    · exact .inr ⟨p,List.mem_filter.mpr ⟨hp,decide_eq_true hm⟩,rfl⟩

section Reads

theorem backlog_append (maxLen : Nat) (fields : List (String × String)) {id : Nat}
    (hid : id ≤ v.lastId) :
    (v.append maxLen 0 fields).backlog group id = v.backlog group id := by
  have hlast : (v.append maxLen 0 fields).entries = v.entries ++ [⟨v.lastId+1,fields⟩] := by
    simp only [StreamValue.append,Nat.zero_min,List.drop_zero]
  have hnew : ¬v.lastId+1 ≤ id := by omega
  rw [StreamValue.backlog,StreamValue.groupState_append,hlast,List.filter_append,List.countP_append]
  have hzero : ([(⟨v.lastId+1,fields⟩ : StreamEntry)].filter fun e =>
      (v.groupState group).lastDelivered < e.id).countP (fun e => e.id ≤ id) = 0 := by
    apply List.countP_eq_zero.mpr
    intro e he
    have hmem := List.mem_singleton.mp (List.mem_filter.mp he).1
    rw [hmem]
    simpa using hnew
  rw [hzero,StreamValue.backlog]
  rfl

/-- The backlog gets no larger. -/
structure StreamValue.Shrinks (v w : StreamValue) (group : String) : Prop where
  entries : v.entries ⊆ w.entries
  lastId : v.lastId ≤ w.lastId
  pending : (w.groupState group).pending ⊆ (v.groupState group).pending
  length : (w.groupState group).pending.length ≤ (v.groupState group).pending.length
  backlog : ∀ id ≤ v.lastId, w.backlog group id ≤ v.backlog group id

theorem shrinks_refl (v : StreamValue) (group : String) : v.Shrinks v group where
  entries := List.Subset.refl _
  lastId := Nat.le_refl _
  pending := List.Subset.refl _
  length := Nat.le_refl _
  backlog _ _ := Nat.le_refl _

theorem StreamValue.Shrinks.trans {w x : StreamValue} (h : v.Shrinks w group) (h' : w.Shrinks x group) :
    v.Shrinks x group where
  entries := List.Subset.trans h.entries h'.entries
  lastId := h.lastId.trans h'.lastId
  pending := List.Subset.trans h'.pending h.pending
  length := h'.length.trans h.length
  backlog id hid := (h'.backlog id (hid.trans h.lastId)).trans (h.backlog id hid)

theorem shrinks_append (v : StreamValue) (group : String) (maxLen : Nat)
    (fields : List (String × String)) : v.Shrinks (v.append maxLen 0 fields) group where
  entries := (grows_append v group maxLen fields).1
  lastId := Nat.le_succ _
  pending := List.Subset.refl _
  length := Nat.le_refl _
  backlog _ hid := Nat.le_of_eq (backlog_append maxLen fields hid)

theorem backlog_zero {e : StreamEntry} (he : e ∈ v.entries) (h : v.backlog group e.id = 0) :
    e.id ≤ (v.groupState group).lastDelivered := by
  by_contra hlt
  have hmem : e ∈ v.entries.filter fun e => (v.groupState group).lastDelivered < e.id := by
    apply List.mem_filter.mpr
    exact ⟨he,decide_eq_true (by omega)⟩
  have hnot := List.countP_eq_zero.mp h e hmem
  simp at hnot

theorem undelivered_one {g : ConsumerGroup} (hg : v.group group = some g) :
    (v.undelivered g 1 = [] ∧ ∀ id, v.backlog group id = 0) ∨ ∃ x, v.undelivered g 1 = [x] := by
  unfold StreamValue.undelivered StreamValue.backlog
  rw [StreamValue.groupState_some hg]
  cases v.entries.filter fun e => g.lastDelivered < e.id with
  | nil => exact .inl ⟨rfl,fun _ => rfl⟩
  | cons x rest => exact .inr ⟨x,rfl⟩

theorem Accounted.undelivered_next (h : Accounted v group acked) {g : ConsumerGroup} {x : StreamEntry}
    (hx : v.undelivered g 1 = [x]) : v.entries.filter (fun e => g.lastDelivered < e.id) =
      x::v.entries.filter fun e => x.id < e.id := by
  have hhead : (v.entries.filter fun e => g.lastDelivered < e.id).take 1 = [x] := hx
  have hlast : g.lastDelivered < x.id := ((h.undelivered_spec g 1).1 x (hx ▸ List.mem_singleton_self x)).2
  cases hlist : v.entries.filter fun e => g.lastDelivered < e.id with
  | nil =>
    rw [hlist] at hhead
    cases hhead
  | cons y rest =>
    rw [hlist] at hhead
    cases hhead
    have hsorted : (x::rest).Pairwise fun a b => a.id < b.id := hlist ▸ h.sorted.filter _
    have hagain : v.entries.filter (fun e => x.id < e.id) = (x::rest).filter fun e => x.id < e.id := by
      rw [← hlist,List.filter_filter]
      apply List.filter_congr
      intro e _
      rw [← Bool.decide_and]
      apply decide_eq_decide.mpr
      omega
    have hrest : rest.filter (fun e => x.id < e.id) = rest := by
      apply List.filter_eq_self.mpr
      intro e he
      exact decide_eq_true ((List.pairwise_cons.mp hsorted).1 e he)
    rw [hagain,List.filter_cons_of_neg (by simp),hrest]

theorem Accounted.backlog_next (h : Accounted v group acked) {g : ConsumerGroup}
    (hg : v.group group = some g) {x : StreamEntry} (hx : v.undelivered g 1 = [x]) {w : StreamValue}
    (hentries : w.entries = v.entries) (hlast : (w.groupState group).lastDelivered = x.id) (id : Nat) :
    w.backlog group id = v.backlog group id-1 := by
  rw [StreamValue.backlog,hlast,hentries,StreamValue.backlog,StreamValue.groupState_some hg,
    h.undelivered_next hx,List.countP_cons]
  by_cases hle : x.id ≤ id
  · rw [if_pos (decide_eq_true hle),Nat.add_sub_cancel]
  · have hnone : (v.entries.filter fun e => x.id < e.id).countP (fun e => e.id ≤ id) = 0 := by
      apply List.countP_eq_zero.mpr
      intro e he
      have hgt := of_decide_eq_true (List.mem_filter.mp he).2
      simp only [decide_eq_true_eq]
      omega
    rw [hnone,if_neg (by simpa using hle)]

theorem Accounted.deliver_acknowledge (h : Accounted v group acked) {g : ConsumerGroup}
    (hg : v.group group = some g) {x : StreamEntry} (hx : v.undelivered g 1 = [x]) (now : Int) :
    ((v.setGroup group (g.deliver now [x])).acknowledge group [x.id]).groupState group =
      ⟨x.id,g.pending⟩ := by
  have hlast : g.lastDelivered < x.id := ((h.undelivered_spec g 1).1 x (hx ▸ List.mem_singleton_self x)).2
  have hnew : [(⟨x.id,now⟩ : PendingEntry)].filter (fun p => p.id ≠ x.id) = [] := by simp
  have hold : g.pending.filter (fun p => p.id ≠ x.id) = g.pending := by
    apply List.filter_eq_self.mpr
    intro p hp
    have hle := (h.pending g hg p hp).1
    apply decide_eq_true
    omega
  rw [StreamValue.acknowledge_one (setGroup_self _ _ _),StreamValue.groupState_setGroup]
  simp only [ConsumerGroup.deliver,List.map_cons,List.map_nil,List.filter_append,hnew,hold,List.append_nil]
  rfl

/-- A read of one entry that is then acknowledged goes on to the next one. -/
theorem Accounted.read_one (h : Accounted v group acked) {g : ConsumerGroup}
    (hg : v.group group = some g) {x : StreamEntry} (hx : v.undelivered g 1 = [x]) (now : Int) :
    let w := (v.setGroup group (g.deliver now [x])).acknowledge group [x.id]
    Accounted w group (x.id::acked) ∧ v.Shrinks w group ∧
      ∀ id, w.backlog group id = v.backlog group id-1 := by
  have hself := setGroup_self v group (g.deliver now [x])
  have hdelivered := h.deliver hg now 1
  rw [hx] at hdelivered
  have hpending : ∀ i ∈ [x.id], ∃ p ∈ (g.deliver now [x]).pending, p.id = i := by
    intro i hi
    rw [List.mem_singleton.mp hi]
    exact ⟨⟨x.id,now⟩,List.mem_append_right _ (List.mem_singleton_self _),rfl⟩
  have hstate := h.deliver_acknowledge hg hx now
  have hsame : ((v.setGroup group (g.deliver now [x])).acknowledge group [x.id]).entries = v.entries ∧
      ((v.setGroup group (g.deliver now [x])).acknowledge group [x.id]).lastId = v.lastId := by
    rw [StreamValue.group_acknowledge hself]
    exact ⟨rfl,rfl⟩
  have hbacklog := h.backlog_next hg hx hsame.1 (congrArg ConsumerGroup.lastDelivered hstate)
  refine ⟨hdelivered.acknowledge hself hpending,?_,hbacklog⟩
  exact {
    entries := fun e he => by rw [hsame.1]; exact he
    lastId := Nat.le_of_eq hsame.2.symm
    pending := fun p hp => by
      rw [hstate] at hp
      rw [StreamValue.groupState_some hg]
      exact hp
    length := by rw [hstate,StreamValue.groupState_some hg]
    backlog := fun id _ => by
      rw [hbacklog id]
      exact Nat.sub_le _ _ }

end Reads

section Claims

/-- What a claim leaves of the pending entries, once those it returned are acknowledged. -/
def unclaimed (v : StreamValue) (now minIdle : Int) (attempts count : Nat) (ps : List PendingEntry) :
    List PendingEntry :=
  (claimScan v now minIdle attempts count ps).1.filter fun q =>
    q.id ∉ (claimScan v now minIdle attempts count ps).2.map StreamEntry.id

private theorem id_of_find {p : PendingEntry} {x : StreamEntry}
    (h : v.entries.find? (fun e => e.id = p.id) = some x) : x.id = p.id := by
  have hx := List.find?_some h
  exact of_decide_eq_true hx

theorem claimScan_rest (now minIdle : Int) (attempts count : Nat) (ps : List PendingEntry) :
    ∀ q ∈ (claimScan v now minIdle attempts count ps).1,
      q ∈ ps ∨ q.id ∈ (claimScan v now minIdle attempts count ps).2.map StreamEntry.id := by
  induction attempts, count, ps using claimScan.induct v now minIdle with
  | case1 count ps => exact fun q hq => .inl hq
  | case2 attempts ps =>
    cases attempts <;> exact fun q hq => .inl hq
  | case3 attempts count => exact fun q hq => absurd hq List.not_mem_nil
  | case4 attempts count p ps hfind ih =>
    intro q hq
    simp only [claimScan,hfind] at hq ⊢
    exact (ih q hq).imp_left (List.mem_cons_of_mem p)
  | case5 attempts count p ps x hfind hidle rest claimed hpair ih =>
    intro q hq
    simp only [claimScan,hfind,if_pos hidle] at hq ⊢
    rcases List.mem_cons.mp hq with rfl | hq
    · exact .inl List.mem_cons_self
    · exact (ih q hq).imp_left (List.mem_cons_of_mem p)
  | case6 attempts count p ps x hfind hidle rest claimed hpair ih =>
    have hid := id_of_find hfind
    intro q hq
    simp only [claimScan,hfind,if_neg hidle,List.map_cons] at hq ⊢
    rcases List.mem_cons.mp hq with rfl | hq
    · exact .inr (hid ▸ List.mem_cons_self)
    · exact (ih q hq).imp (List.mem_cons_of_mem p) (List.mem_cons_of_mem _)

theorem mem_of_mem_unclaimed {now minIdle : Int} {attempts count : Nat} {ps : List PendingEntry}
    {q : PendingEntry} (h : q ∈ unclaimed v now minIdle attempts count ps) : q ∈ ps := by
  obtain ⟨hrest,hnot⟩ := List.mem_filter.mp h
  exact (claimScan_rest now minIdle attempts count ps q hrest).resolve_right (of_decide_eq_true hnot)

private theorem length_unclaimed_cons (q : PendingEntry) (x : StreamEntry) (rest : List PendingEntry)
    (claimed : List StreamEntry) (hid : x.id = q.id) :
    ((q::rest).filter fun r => r.id ∉ (x::claimed).map StreamEntry.id).length ≤
      (rest.filter fun r => r.id ∉ claimed.map StreamEntry.id).length := by
  rw [List.filter_cons_of_neg (by simp [hid])]
  apply List.Sublist.length_le
  apply List.monotone_filter_right
  intro r hr
  have hnot := of_decide_eq_true hr
  rw [List.map_cons,List.mem_cons,not_or] at hnot
  exact decide_eq_true hnot.2

theorem length_unclaimed_le (now minIdle : Int) (attempts count : Nat) (ps : List PendingEntry) :
    (unclaimed v now minIdle attempts count ps).length ≤ ps.length := by
  unfold unclaimed
  induction attempts, count, ps using claimScan.induct v now minIdle with
  | case1 count ps => exact List.length_filter_le _ _
  | case2 attempts ps => cases attempts <;> exact List.length_filter_le _ _
  | case3 attempts count => exact Nat.le_refl 0
  | case4 attempts count p ps hfind ih =>
    simp only [claimScan,hfind]
    exact ih.trans (Nat.le_succ _)
  | case5 attempts count p ps x hfind hidle rest claimed hpair ih =>
    simp only [claimScan,hfind,if_pos hidle,List.filter_cons]
    split
    · exact Nat.succ_le_succ ih
    · exact ih.trans (Nat.le_succ _)
  | case6 attempts count p ps x hfind hidle rest claimed hpair ih =>
    have hid := id_of_find hfind
    simp only [claimScan,hfind,if_neg hidle]
    have hcons := length_unclaimed_cons ⟨p.id,now⟩ x (claimScan v now minIdle attempts count ps).1
      (claimScan v now minIdle attempts count ps).2 hid
    exact hcons.trans (ih.trans (Nat.le_succ _))

theorem length_unclaimed_idle {now minIdle : Int} {attempts count : Nat} {ps : List PendingEntry}
    (hcount : count ≤ attempts) (hidle : ∀ p ∈ ps, p.deliveredAt+minIdle ≤ now) :
    (unclaimed v now minIdle attempts count ps).length ≤ ps.length-count := by
  unfold unclaimed
  induction attempts, count, ps using claimScan.induct v now minIdle with
  | case1 count ps =>
    rw [Nat.le_zero.mp hcount,Nat.sub_zero]
    exact List.length_filter_le _ _
  | case2 attempts ps =>
    rw [Nat.sub_zero]
    cases attempts <;> exact List.length_filter_le _ _
  | case3 attempts count => exact Nat.zero_le _
  | case4 attempts count p ps hfind ih =>
    have hrest := ih (Nat.le_of_succ_le_succ hcount) fun q hq => hidle q (List.mem_cons_of_mem p hq)
    simp only [claimScan,hfind]
    rw [List.length_cons,Nat.add_sub_add_right]
    exact hrest
  | case5 attempts count p ps x hfind hbusy rest claimed hpair ih =>
    have hp := hidle p List.mem_cons_self
    omega
  | case6 attempts count p ps x hfind hbusy rest claimed hpair ih =>
    have hid := id_of_find hfind
    have hrest := ih (Nat.le_of_succ_le_succ hcount) fun q hq => hidle q (List.mem_cons_of_mem p hq)
    simp only [claimScan,hfind,if_neg hbusy]
    rw [List.length_cons,Nat.add_sub_add_right]
    have hcons := length_unclaimed_cons ⟨p.id,now⟩ x (claimScan v now minIdle attempts count ps).1
      (claimScan v now minIdle attempts count ps).2 hid
    exact hcons.trans hrest

theorem Accounted.claim_acknowledge (h : Accounted v group acked) {g : ConsumerGroup}
    (hg : v.group group = some g) (now minIdle : Int) (attempts count : Nat) :
    let claimed := (claimScan v now minIdle attempts count g.pending).2
    let w := (v.setGroup group
      { g with pending := (claimScan v now minIdle attempts count g.pending).1 }).acknowledge group
      (claimed.map StreamEntry.id)
    Accounted w group (claimed.map StreamEntry.id ++ acked) ∧ v.Shrinks w group ∧
      (w.groupState group).pending = unclaimed v now minIdle attempts count g.pending := by
  have hself := setGroup_self v group
    { g with pending := (claimScan v now minIdle attempts count g.pending).1 }
  have hkept := (claimScan_pending (v := v) now minIdle attempts count g.pending).2
    fun p hp => (h.pending g hg p hp).2.2
  have hids : ∀ id ∈ (claimScan v now minIdle attempts count g.pending).2.map StreamEntry.id,
      ∃ p ∈ (claimScan v now minIdle attempts count g.pending).1, p.id = id := by
    intro id hid
    obtain ⟨e,he,rfl⟩ := List.mem_map.mp hid
    obtain ⟨p,hp,hpe⟩ := (claimScan_claimed now minIdle attempts count g.pending e he).2
    obtain ⟨q,hq,hqp⟩ := hkept p hp
    exact ⟨q,hq,hqp.trans hpe⟩
  have haccounted := (h.claim hg now minIdle attempts count).acknowledge hself hids
  intro claimed w
  have hw : w = v.setGroup group ⟨g.lastDelivered,unclaimed v now minIdle attempts count g.pending⟩ :=
    (StreamValue.group_acknowledge hself _).trans (StreamValue.setGroup_setGroup _ _ _ _)
  have hstate := StreamValue.groupState_some hg
  rw [hw]
  refine ⟨hw ▸ haccounted,?_,congrArg ConsumerGroup.pending (StreamValue.groupState_setGroup _ _ _)⟩
  exact {
    entries := List.Subset.refl _
    lastId := Nat.le_refl _
    pending := fun p hp => by
      rw [StreamValue.groupState_setGroup] at hp
      rw [hstate]
      exact mem_of_mem_unclaimed hp
    length := by
      rw [StreamValue.groupState_setGroup,hstate]
      exact length_unclaimed_le now minIdle attempts count g.pending
    backlog := fun id _ => by
      simp only [StreamValue.backlog,StreamValue.groupState_setGroup,hstate]
      exact Nat.le_refl _ }

end Claims

end Backlog

end Redis
