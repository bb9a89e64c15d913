import CsmsPlatform.Framework.Redis.Commands

/-!
# Redis streams and transactions

A stream is an append-only list of entries with growing ids, less what trimming took off its front.
A consumer group remembers the last id it delivered and the delivered entries that were not
acknowledged. Ids are numbered in the order of the entries; the names of the consumers inside a group
decide nothing here.
-/

namespace Redis

def Script.ignore {α : Type} (m : Script α) : Script Unit := m >>= fun _ => pure ()

/-- The commands between `MULTI` and `EXEC` all run, and the first error is the client's. -/
def transaction : List (Script Unit) → Script Unit
  | [], _, ks => (.ok (),ks)
  | m::ms, now, ks =>
    match m now ks with
    | (.ok _,ks') => transaction ms now ks'
    | (.error e,ks') => (.error e,(transaction ms now ks').2)

def StreamValue.new : StreamValue := ⟨[],0,fun _ => none⟩

/-- `XADD` with an approximate `MAXLEN`: Redis takes as many of the oldest entries off as it sees fit,
but leaves the maximal length. -/
def StreamValue.append (v : StreamValue) (maxLen evict : Nat) (fields : List (String × String)) :
    StreamValue :=
  { v with
    entries := (v.entries ++ [(⟨v.lastId+1,fields⟩ : StreamEntry)]).drop (min evict (v.entries.length+1-maxLen))
    lastId := v.lastId+1 }

def xadd (key : String) (maxLen evict : Nat) (fields : List (String × String)) : Script Nat :=
  fun now ks =>
    match ks.live now key with
    | none => (.ok 1,ks.set key ⟨.stream (StreamValue.new.append maxLen evict fields),none⟩)
    | some ⟨.stream v,e⟩ =>
      (.ok (v.lastId+1),ks.set key ⟨.stream (v.append maxLen evict fields),e⟩)
    | some _ => (.error .wrongType,ks)

def StreamValue.setGroup (v : StreamValue) (group : String) (g : ConsumerGroup) : StreamValue :=
  { v with group := fun name => if name = group then some g else v.group name }

/-- `XGROUP CREATE` from the start of the stream, which `MKSTREAM` creates. -/
def xgroupCreate (key group : String) : Script Unit := fun now ks =>
  match ks.live now key with
  | none => (.ok (),ks.set key ⟨.stream (StreamValue.new.setGroup group ⟨0,[]⟩),none⟩)
  | some ⟨.stream v,e⟩ =>
    match v.group group with
    | some _ => (.error .busyGroup,ks)
    | none => (.ok (),ks.set key ⟨.stream (v.setGroup group ⟨0,[]⟩),e⟩)
  | some _ => (.error .wrongType,ks)

def StreamValue.undelivered (v : StreamValue) (g : ConsumerGroup) (count : Nat) : List StreamEntry :=
  (v.entries.filter fun e => g.lastDelivered < e.id).take count

def ConsumerGroup.deliver (g : ConsumerGroup) (now : Int) (es : List StreamEntry) : ConsumerGroup :=
  ⟨(es.getLast?.map StreamEntry.id).getD g.lastDelivered,g.pending ++ es.map fun e => ⟨e.id,now⟩⟩

/-- `XREADGROUP` of new entries. With none, the reply is nil once the blocking time is over. -/
def xreadGroup (key group : String) (count : Nat) : Script (Option (List StreamEntry)) :=
  fun now ks =>
    match ks.live now key with
    | none => (.error .noGroup,ks)
    | some ⟨.stream v,e⟩ =>
      match v.group group with
      | none => (.error .noGroup,ks)
      | some g =>
        match v.undelivered g count with
        | [] => (.ok none,ks)
        | x::xs =>
          (.ok (some (x::xs)),ks.set key ⟨.stream (v.setGroup group (g.deliver now (x::xs))),e⟩)
    | some _ => (.error .wrongType,ks)

/-- The scan of `XAUTOCLAIM` over the pending entries: what stays pending, and what was claimed. An
entry that trimming took is dropped; one that is not idle for long enough is passed over. -/
def claimScan (v : StreamValue) (now minIdle : Int) :
    Nat → Nat → List PendingEntry → List PendingEntry × List StreamEntry
  | 0, _, ps => (ps,[])
  | _, 0, ps => (ps,[])
  | _+1, _+1, [] => ([],[])
  | attempts+1, count+1, p::ps =>
    match v.entries.find? fun e => e.id = p.id with
    | none => claimScan v now minIdle attempts count ps
    | some e =>
      if now-p.deliveredAt < minIdle then
        let (rest,claimed) := claimScan v now minIdle attempts (count+1) ps
        (p::rest,claimed)
      else
        let (rest,claimed) := claimScan v now minIdle attempts count ps
        (⟨p.id,now⟩::rest,e::claimed)

def xautoclaim (key group : String) (minIdle : Int) (count : Nat) : Script (List StreamEntry) :=
  fun now ks =>
    match ks.live now key with
    | none => (.error .noGroup,ks)
    | some ⟨.stream v,e⟩ =>
      match v.group group with
      | none => (.error .noGroup,ks)
      | some g =>
        let (pending,claimed) := claimScan v now minIdle (10*count) count g.pending
        (.ok claimed,ks.set key ⟨.stream (v.setGroup group { g with pending := pending }),e⟩)
    | some _ => (.error .wrongType,ks)

def xack (key group : String) (id : Nat) : Script Nat := fun now ks =>
  match ks.live now key with
  | none => (.ok 0,ks)
  | some ⟨.stream v,e⟩ =>
    match v.group group with
    | none => (.ok 0,ks)
    | some g =>
      (.ok (g.pending.countP fun p => p.id = id),
        ks.set key ⟨.stream (v.setGroup group
          { g with pending := g.pending.filter fun p => p.id ≠ id }),e⟩)
  | some _ => (.error .wrongType,ks)

namespace Keyspace

def stream (ks : Keyspace) (key : String) : Option StreamValue :=
  match ks key with
  | some ⟨.stream v,_⟩ => some v
  | _ => none

def putStream (ks : Keyspace) (key : String) (v : StreamValue) : Keyspace :=
  ks.set key ⟨.stream v,none⟩

/-- Nothing but a stream without an expiry is under the key. -/
def HoldsStream (ks : Keyspace) (key : String) : Prop :=
  ∀ item, ks key = some item → ∃ v, item = ⟨.stream v,none⟩

@[simp] theorem stream_putStream (ks : Keyspace) (key : String) (v : StreamValue) :
    (ks.putStream key v).stream key = some v := by
  simp [stream,putStream,set]

theorem stream_congr {ks ks' : Keyspace} {key : String} (h : ks' key = ks key) :
    ks'.stream key = ks.stream key := by
  simp only [stream,h]

theorem HoldsStream.live {ks : Keyspace} {key : String} (h : ks.HoldsStream key) (now : Int) :
    ks.live now key = (ks.stream key).map fun v => ⟨.stream v,none⟩ := by
  cases hk : ks key with
  | none => simp [Keyspace.live,stream,hk]
  | some item =>
    obtain ⟨v,rfl⟩ := h item hk
    simp [Keyspace.live,stream,hk,Option.filter,Item.liveAt]

end Keyspace

section Streams

variable {ks : Keyspace} {key group : String} (h : ks.HoldsStream key) (now : Int)

include h

theorem xadd_stream (maxLen evict : Nat) (fields : List (String × String)) :
    let v := (ks.stream key).getD .new
    xadd key maxLen evict fields now ks =
      (.ok (v.lastId+1),ks.putStream key (v.append maxLen evict fields)) := by
  simp only [xadd,h.live now]
  cases ks.stream key <;> rfl

theorem xgroupCreate_stream :
    let v := (ks.stream key).getD .new
    xgroupCreate key group now ks =
      if v.group group = none then (.ok (),ks.putStream key (v.setGroup group ⟨0,[]⟩))
      else (.error .busyGroup,ks) := by
  simp only [xgroupCreate,h.live now]
  cases ks.stream key with
  | none => rfl
  | some v =>
    simp only [Option.map_some,Option.getD_some]
    cases v.group group <;> rfl

theorem xreadGroup_stream (count : Nat) :
    (((ks.stream key).bind fun v => v.group group) = none ∧
      xreadGroup key group count now ks = (.error .noGroup,ks)) ∨
    ∃ v g, ks.stream key = some v ∧ v.group group = some g ∧
      xreadGroup key group count now ks =
        if v.undelivered g count = [] then (.ok none,ks)
        else (.ok (some (v.undelivered g count)),
          ks.putStream key (v.setGroup group (g.deliver now (v.undelivered g count)))) := by
  simp only [xreadGroup,h.live now]
  cases ks.stream key with
  | none => exact .inl ⟨rfl,rfl⟩
  | some v =>
    simp only [Option.map_some,Option.bind_some]
    cases hg : v.group group with
    | none => exact .inl ⟨rfl,rfl⟩
    | some g =>
      refine .inr ⟨v,g,rfl,hg,?_⟩
      dsimp only
      cases v.undelivered g count with
      | nil => rfl
      | cons x xs => simp [Keyspace.putStream]

theorem xautoclaim_stream (minIdle : Int) (count : Nat) :
    (((ks.stream key).bind fun v => v.group group) = none ∧
      xautoclaim key group minIdle count now ks = (.error .noGroup,ks)) ∨
    ∃ v g, ks.stream key = some v ∧ v.group group = some g ∧
      xautoclaim key group minIdle count now ks =
        (.ok (claimScan v now minIdle (10*count) count g.pending).2,
          ks.putStream key (v.setGroup group
            { g with pending := (claimScan v now minIdle (10*count) count g.pending).1 })) := by
  simp only [xautoclaim,h.live now]
  cases ks.stream key with
  | none => exact .inl ⟨rfl,rfl⟩
  | some v =>
    simp only [Option.map_some,Option.bind_some]
    cases hg : v.group group with
    | none => exact .inl ⟨rfl,rfl⟩
    | some g => exact .inr ⟨v,g,rfl,hg,rfl⟩

theorem xack_stream (id : Nat) :
    (((ks.stream key).bind fun v => v.group group) = none ∧ xack key group id now ks = (.ok 0,ks)) ∨
    ∃ v g, ks.stream key = some v ∧ v.group group = some g ∧
      xack key group id now ks =
        (.ok (g.pending.countP fun p => p.id = id),ks.putStream key (v.setGroup group
          { g with pending := g.pending.filter fun p => p.id ≠ id })) := by
  simp only [xack,h.live now]
  cases ks.stream key with
  | none => exact .inl ⟨rfl,rfl⟩
  | some v =>
    simp only [Option.map_some,Option.bind_some]
    cases hg : v.group group with
    | none => exact .inl ⟨rfl,rfl⟩
    | some g => exact .inr ⟨v,g,rfl,hg,rfl⟩

end Streams

end Redis
