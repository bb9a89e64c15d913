import CsmsPlatform.Framework.Redis.Streams

/-!
# Footprints

A call is local to a set of keys when it writes nowhere else and when its reply and what it writes
depend on nothing else. Clients with disjoint sets of keys get from one server, in whatever order their
calls arrive, the replies that each would get from a server of its own.
-/

namespace Redis

def Keyspace.Agree (K : String → Prop) (ks ks' : Keyspace) : Prop := ∀ k, K k → ks k = ks' k

structure Local {α : Type} (K : String → Prop) (f : Int → Keyspace → α × Keyspace) : Prop where
  frame : ∀ now ks k, ¬K k → (f now ks).2 k = ks k
  reply : ∀ now ks ks', ks.Agree K ks' → (f now ks).1 = (f now ks').1
  writes : ∀ now ks ks', ks.Agree K ks' → (f now ks).2.Agree K (f now ks').2

/-- What a command does to its one key. -/
inductive Effect where
  | keep
  | put (item : Item)
  | remove

def Effect.apply (key : String) (ks : Keyspace) : Effect → Keyspace
  | .keep => ks
  | .put item => ks.set key item
  | .remove => ks.erase key

section Scripts

variable {α β : Type} {K : String → Prop} {key : String}

theorem Effect.apply_ne (e : Effect) (ks : Keyspace) {k : String} (h : k ≠ key) :
    e.apply key ks k = ks k := by
  cases e with
  | keep => rfl
  | put item => exact Keyspace.set_ne ks item h
  | remove => exact Keyspace.erase_ne ks h

theorem Effect.apply_agree (e : Effect) {ks ks' : Keyspace} (h : ks.Agree K ks') :
    (e.apply key ks).Agree K (e.apply key ks') := by
  intro k hk
  cases e with
  | keep => exact h k hk
  | put item => simp only [Effect.apply,Keyspace.set,h k hk]
  | remove => simp only [Effect.apply,Keyspace.erase,h k hk]

theorem local_of_live (hkey : K key) {f : Int → Keyspace → α × Keyspace}
    (h : ∀ now item, ∃ a e, ∀ ks : Keyspace, ks.live now key = item → f now ks = (a,Effect.apply key ks e)) :
    Local K f where
  frame now ks k hk := by
    obtain ⟨a,e,he⟩ := h now (ks.live now key)
    rw [he ks rfl]
    exact e.apply_ne ks fun hkk => hk (hkk ▸ hkey)
  reply now ks ks' hagree := by
    obtain ⟨a,e,he⟩ := h now (ks.live now key)
    have hlive : ks'.live now key = ks.live now key := by rw [Keyspace.live,Keyspace.live,hagree key hkey]
    rw [he ks rfl,he ks' hlive]
  writes now ks ks' hagree := by
    obtain ⟨a,e,he⟩ := h now (ks.live now key)
    have hlive : ks'.live now key = ks.live now key := by rw [Keyspace.live,Keyspace.live,hagree key hkey]
    rw [he ks rfl,he ks' hlive]
    exact e.apply_agree hagree

theorem local_pure (a : α) : Local K (fun _ ks => (a,ks)) where
  frame _ _ _ _ := rfl
  reply _ _ _ _ := rfl
  writes _ _ _ h := h

theorem local_of_eq {f : Int → Keyspace → α × Keyspace}
    (h : ∀ now, ∃ g : Int → Keyspace → α × Keyspace, Local K g ∧ ∀ ks, f now ks = g now ks) : Local K f where
  frame now ks k hk := by
    obtain ⟨g,hg,he⟩ := h now
    rw [he]
    exact hg.frame now ks k hk
  reply now ks ks' hagree := by
    obtain ⟨g,hg,he⟩ := h now
    rw [he,he]
    exact hg.reply now ks ks' hagree
  writes now ks ks' hagree := by
    obtain ⟨g,hg,he⟩ := h now
    rw [he,he]
    exact hg.writes now ks ks' hagree

theorem Local.seq {f : Int → Keyspace → α × Keyspace} (hf : Local K f) {f' : Int → Keyspace → β × Keyspace}
    (h : ∀ now reply, ∃ g : Int → Keyspace → β × Keyspace, Local K g ∧
      ∀ ks ks', f now ks = (reply,ks') → f' now ks = g now ks') : Local K f' where
  frame now ks k hk := by
    obtain ⟨g,hg,he⟩ := h now (f now ks).1
    rw [he ks _ rfl,hg.frame now _ k hk]
    exact hf.frame now ks k hk
  reply now ks ks' hagree := by
    obtain ⟨g,hg,he⟩ := h now (f now ks).1
    rw [he ks _ rfl,he ks' (f now ks').2 (by rw [hf.reply now ks ks' hagree])]
    exact hg.reply now _ _ (hf.writes now ks ks' hagree)
  writes now ks ks' hagree := by
    obtain ⟨g,hg,he⟩ := h now (f now ks).1
    rw [he ks _ rfl,he ks' (f now ks').2 (by rw [hf.reply now ks ks' hagree])]
    exact hg.writes now _ _ (hf.writes now ks ks' hagree)

theorem Local.map {f : Int → Keyspace → α × Keyspace} (hf : Local K f) {f' : Int → Keyspace → β × Keyspace}
    (h : ∀ now reply, ∃ b, ∀ ks ks', f now ks = (reply,ks') → f' now ks = (b,ks')) : Local K f' := by
  apply hf.seq
  intro now reply
  obtain ⟨b,hb⟩ := h now reply
  exact ⟨_,local_pure b,hb⟩

theorem Local.mapReply {f : Int → Keyspace → α × Keyspace} (hf : Local K f) (r : α → β) :
    Local K fun now ks => (r (f now ks).1,(f now ks).2) :=
  hf.map fun now reply => ⟨r reply,fun ks ks' h => by rw [h]⟩

theorem Local.bind {m : Script α} {f : α → Script β} (hm : Local K m) (hf : ∀ a, Local K (f a)) :
    Local K (m >>= f) := by
  apply hm.seq
  intro now reply
  cases reply with
  | ok a => exact ⟨_,hf a,fun ks ks' h => Script.bind_ok h⟩
  | error e => exact ⟨_,local_pure (.error e),fun ks ks' h => Script.bind_error h⟩

theorem Local.ignore {m : Script α} (hm : Local K m) : Local K m.ignore :=
  hm.bind fun _ => local_pure _

theorem transaction_local {ms : List (Script Unit)} (hms : ∀ m ∈ ms, Local K m) :
    Local K (transaction ms) := by
  induction ms with
  | nil => exact local_pure _
  | cons m ms ih =>
    have hm := hms m List.mem_cons_self
    have hrest := ih fun m' hm' => hms m' (List.mem_cons_of_mem _ hm')
    apply hm.seq
    intro now reply
    cases reply with
    | ok a => exact ⟨_,hrest,fun ks ks' h => by simp only [transaction,h]⟩
    | error e =>
      have herror : Local K fun now ks => ((.error e : Except Fault Unit),(transaction ms now ks).2) :=
        hrest.map fun now reply => ⟨_,fun ks ks' h => by rw [h]⟩
      exact ⟨_,herror,fun ks ks' h => by simp only [transaction,h]⟩

end Scripts

/-! ## The commands -/

section Commands

variable {K : String → Prop} {key : String} (hkey : K key)
include hkey

theorem keyExists_local : Local K (keyExists key) :=
  local_of_live hkey fun now item => ⟨_,.keep,fun ks h => by simp only [keyExists,h]; rfl⟩

theorem hget_local (field : String) : Local K (hget key field) := by
  refine local_of_live hkey fun now item => ?_
  rcases item with _ | ⟨value,e⟩
  · exact ⟨_,.keep,fun ks h => by simp only [hget,h]; rfl⟩
  · cases value <;> exact ⟨_,.keep,fun ks h => by simp only [hget,h]; rfl⟩

theorem hmget_local (fields : List String) : Local K (hmget key fields) := by
  refine local_of_live hkey fun now item => ?_
  rcases item with _ | ⟨value,e⟩
  · exact ⟨_,.keep,fun ks h => by simp only [hmget,h]; rfl⟩
  · cases value <;> exact ⟨_,.keep,fun ks h => by simp only [hmget,h]; rfl⟩

theorem hset_local (fields : List (String × String)) : Local K (hset key fields) := by
  refine local_of_live hkey fun now item => ?_
  rcases item with _ | ⟨value,e⟩
  · exact ⟨_,.put _,fun ks h => by simp only [hset,h]; rfl⟩
  · cases value with
    | hash f => exact ⟨_,.put _,fun ks h => by simp only [hset,h]; rfl⟩
    | string | list | stream => exact ⟨_,.keep,fun ks h => by simp only [hset,h]; rfl⟩

theorem incr_local : Local K (incr key) := by
  refine local_of_live hkey fun now item => ?_
  rcases item with _ | ⟨value,e⟩
  · exact ⟨_,.put _,fun ks h => by simp only [incr,h]; rfl⟩
  · cases value with
    | string text =>
      cases ht : integerText text with
      | none => exact ⟨_,.keep,fun ks h => by simp only [incr,h,ht]; rfl⟩
      | some n =>
        by_cases hn : n+1 < 2^63
        · exact ⟨_,.put _,fun ks h => by simp only [incr,h,ht,if_pos hn]; rfl⟩
        · exact ⟨_,.keep,fun ks h => by simp only [incr,h,ht,if_neg hn]; rfl⟩
    | hash | list | stream => exact ⟨_,.keep,fun ks h => by simp only [incr,h]; rfl⟩

theorem pexpire_local (ms : Int) : Local K (pexpire key ms) := by
  refine local_of_live hkey fun now item => ?_
  cases item with
  | none => exact ⟨_,.keep,fun ks h => by simp only [pexpire,h]; rfl⟩
  | some item =>
    by_cases hms : ms ≤ 0
    · exact ⟨_,.remove,fun ks h => by simp only [pexpire,h,if_pos hms]; rfl⟩
    · exact ⟨_,.put _,fun ks h => by simp only [pexpire,h,if_neg hms]; rfl⟩

theorem expire_local (ttl : Int) : Local K (expire key ttl) := by
  refine local_of_live hkey fun now item => ?_
  cases item with
  | none => exact ⟨_,.keep,fun ks h => by simp only [expire,h]; rfl⟩
  | some item =>
    by_cases httl : ttl ≤ 0
    · exact ⟨_,.remove,fun ks h => by simp only [expire,h,if_pos httl]; rfl⟩
    · exact ⟨_,.put _,fun ks h => by simp only [expire,h,if_neg httl]; rfl⟩

theorem pttl_local : Local K (pttl key) := by
  refine local_of_live hkey fun now item => ?_
  rcases item with _ | ⟨value,_ | t⟩
  · exact ⟨_,.keep,fun ks h => by simp only [pttl,h]; rfl⟩
  · exact ⟨_,.keep,fun ks h => by simp only [pttl,h]; rfl⟩
  · exact ⟨_,.keep,fun ks h => by simp only [pttl,h]; rfl⟩

theorem del_local : Local K (del key) := by
  refine local_of_live hkey fun now item => ?_
  cases item with
  | none => exact ⟨.ok 0,.keep,fun ks h => by simp [del,h,Effect.apply]⟩
  | some item => exact ⟨.ok 1,.remove,fun ks h => by simp [del,h,Effect.apply]⟩

theorem get_local : Local K (get key) := by
  refine local_of_live hkey fun now item => ?_
  rcases item with _ | ⟨value,e⟩
  · exact ⟨_,.keep,fun ks h => by simp only [get,h]; rfl⟩
  · cases value <;> exact ⟨_,.keep,fun ks h => by simp only [get,h]; rfl⟩

theorem setEx_local (text : String) (ttl : Int) : Local K (setEx key text ttl) :=
  local_of_live hkey fun now item => ⟨_,.put _,fun ks h => by simp only [setEx]; rfl⟩

theorem lpush_local (element : String) : Local K (lpush key element) := by
  refine local_of_live hkey fun now item => ?_
  rcases item with _ | ⟨value,e⟩
  · exact ⟨_,.put _,fun ks h => by simp only [lpush,h]; rfl⟩
  · cases value with
    | list xs => exact ⟨_,.put _,fun ks h => by simp only [lpush,h]; rfl⟩
    | string | hash | stream => exact ⟨_,.keep,fun ks h => by simp only [lpush,h]; rfl⟩

theorem rpop_local : Local K (rpop key) := by
  refine local_of_live hkey fun now item => ?_
  rcases item with _ | ⟨value,e⟩
  · exact ⟨_,.keep,fun ks h => by simp only [rpop,h]; rfl⟩
  · cases value with
    | list xs =>
      cases hx : xs.getLast? with
      | none => exact ⟨_,.keep,fun ks h => by simp only [rpop,h,hx]; rfl⟩
      | some x =>
        by_cases hd : xs.dropLast = []
        · exact ⟨_,.remove,fun ks h => by simp only [rpop,h,hx,if_pos hd]; rfl⟩
        · exact ⟨_,.put _,fun ks h => by simp only [rpop,h,hx,if_neg hd]; rfl⟩
    | string | hash | stream => exact ⟨_,.keep,fun ks h => by simp only [rpop,h]; rfl⟩

theorem xadd_local (maxLen evict : Nat) (fields : List (String × String)) :
    Local K (xadd key maxLen evict fields) := by
  refine local_of_live hkey fun now item => ?_
  rcases item with _ | ⟨value,e⟩
  · exact ⟨_,.put _,fun ks h => by simp only [xadd,h]; rfl⟩
  · cases value with
    | stream v => exact ⟨_,.put _,fun ks h => by simp only [xadd,h]; rfl⟩
    | string | hash | list => exact ⟨_,.keep,fun ks h => by simp only [xadd,h]; rfl⟩

theorem xgroupCreate_local (group : String) : Local K (xgroupCreate key group) := by
  refine local_of_live hkey fun now item => ?_
  rcases item with _ | ⟨value,e⟩
  · exact ⟨_,.put _,fun ks h => by simp only [xgroupCreate,h]; rfl⟩
  · cases value with
    | stream v =>
      cases hg : v.group group with
      | none => exact ⟨_,.put _,fun ks h => by simp only [xgroupCreate,h,hg]; rfl⟩
      | some g => exact ⟨_,.keep,fun ks h => by simp only [xgroupCreate,h,hg]; rfl⟩
    | string | hash | list => exact ⟨_,.keep,fun ks h => by simp only [xgroupCreate,h]; rfl⟩

theorem xreadGroup_local (group : String) (count : Nat) : Local K (xreadGroup key group count) := by
  refine local_of_live hkey fun now item => ?_
  rcases item with _ | ⟨value,e⟩
  · exact ⟨_,.keep,fun ks h => by simp only [xreadGroup,h]; rfl⟩
  · cases value with
    | stream v =>
      cases hg : v.group group with
      | none => exact ⟨_,.keep,fun ks h => by simp only [xreadGroup,h,hg]; rfl⟩
      | some g =>
        cases hu : v.undelivered g count with
        | nil => exact ⟨_,.keep,fun ks h => by simp only [xreadGroup,h,hg,hu]; rfl⟩
        | cons x xs => exact ⟨_,.put _,fun ks h => by simp only [xreadGroup,h,hg,hu]; rfl⟩
    | string | hash | list => exact ⟨_,.keep,fun ks h => by simp only [xreadGroup,h]; rfl⟩

theorem xautoclaim_local (group : String) (minIdle : Int) (count : Nat) :
    Local K (xautoclaim key group minIdle count) := by
  refine local_of_live hkey fun now item => ?_
  rcases item with _ | ⟨value,e⟩
  · exact ⟨_,.keep,fun ks h => by simp only [xautoclaim,h]; rfl⟩
  · cases value with
    | stream v =>
      cases hg : v.group group with
      | none => exact ⟨_,.keep,fun ks h => by simp only [xautoclaim,h,hg]; rfl⟩
      | some g => exact ⟨_,.put _,fun ks h => by simp only [xautoclaim,h,hg]; rfl⟩
    | string | hash | list => exact ⟨_,.keep,fun ks h => by simp only [xautoclaim,h]; rfl⟩

theorem xack_local (group : String) (id : Nat) : Local K (xack key group id) := by
  refine local_of_live hkey fun now item => ?_
  rcases item with _ | ⟨value,e⟩
  · exact ⟨_,.keep,fun ks h => by simp only [xack,h]; rfl⟩
  · cases value with
    | stream v =>
      cases hg : v.group group with
      | none => exact ⟨_,.keep,fun ks h => by simp only [xack,h,hg]; rfl⟩
      | some g => exact ⟨_,.put _,fun ks h => by simp only [xack,h,hg]; rfl⟩
    | string | hash | list => exact ⟨_,.keep,fun ks h => by simp only [xack,h]; rfl⟩

end Commands

/-! ## Clients of one server -/

section Clients

variable {ι : Type} {ρ : ι → Type}

/-- A client's call, given the replies that it has had, latest first. -/
def Client (α : Type) := List α → Int → Keyspace → α × Keyspace

def Client.run {α : Type} (client : Client α) : List Int → List α × Keyspace → List α × Keyspace
  | [], s => s
  | now::times, (replies,ks) =>
    client.run times ((client replies now ks).1::replies,(client replies now ks).2)

structure Shared (ρ : ι → Type) where
  replies : ∀ i, List (ρ i)
  redis : Keyspace

variable [DecidableEq ι]

def Shared.step (clients : ∀ i, Client (ρ i)) (s : Shared ρ) (turn : Int × ι) : Shared ρ :=
  let (reply,ks) := clients turn.2 (s.replies turn.2) turn.1 s.redis
  ⟨Function.update s.replies turn.2 (reply::s.replies turn.2),ks⟩

/-- The calls of all clients arrive at one server, in this order. -/
def Shared.run (clients : ∀ i, Client (ρ i)) (s : Shared ρ) (turns : List (Int × ι)) : Shared ρ :=
  turns.foldl (Shared.step clients) s

def timesOf (i : ι) (turns : List (Int × ι)) : List Int :=
  (turns.filter fun turn => turn.2 = i).map Prod.fst

variable {K : ι → String → Prop} {clients : ∀ i, Client (ρ i)}

theorem Shared.run_keeps {P : Keyspace → Prop} {turns : List (Int × ι)}
    (hcalls : ∀ turn ∈ turns, ∀ replies ks, P ks → P (clients turn.2 replies turn.1 ks).2)
    {s : Shared ρ} (hs : P s.redis) : P (s.run clients turns).redis := by
  induction turns generalizing s with
  | nil => exact hs
  | cons turn turns ih =>
    apply ih fun turn' hturn => hcalls turn' (List.mem_cons_of_mem _ hturn)
    exact hcalls turn List.mem_cons_self _ _ hs

/-- What the others do is not seen by a client. -/
theorem Shared.run_alone (hdisjoint : ∀ i j k, K i k → K j k → i = j)
    (hlocal : ∀ i replies, Local (K i) (clients i replies)) (i : ι) (turns : List (Int × ι))
    (s : Shared ρ) {ks : Keyspace} (hks : s.redis.Agree (K i) ks) :
    (s.run clients turns).replies i = ((clients i).run (timesOf i turns) (s.replies i,ks)).1 ∧
      (s.run clients turns).redis.Agree (K i) ((clients i).run (timesOf i turns) (s.replies i,ks)).2 := by
  induction turns generalizing s ks with
  | nil => exact ⟨rfl,hks⟩
  | cons turn turns ih =>
    obtain ⟨now,j⟩ := turn
    have hcall := hlocal j (s.replies j)
    by_cases hij : j = i
    · subst hij
      have htimes : timesOf j ((now,j)::turns) = now::timesOf j turns := by simp [timesOf]
      have hstep : (s.step clients (now,j)).replies j =
          (clients j (s.replies j) now ks).1::s.replies j := by
        simp [Shared.step,hcall.reply now _ _ hks]
      rw [htimes,Client.run,← hstep]
      exact ih (s.step clients (now,j)) (hcall.writes now _ _ hks)
    · have htimes : timesOf i ((now,j)::turns) = timesOf i turns := by simp [timesOf,hij]
      have hstep : (s.step clients (now,j)).replies i = s.replies i := by
        simp [Shared.step,Function.update_of_ne (Ne.symm hij)]
      rw [htimes,← hstep]
      apply ih (s.step clients (now,j))
      intro k hk
      rw [← hks k hk]
      exact hcall.frame now s.redis k fun hkj => hij (hdisjoint j i k hkj hk)

end Clients

end Redis
