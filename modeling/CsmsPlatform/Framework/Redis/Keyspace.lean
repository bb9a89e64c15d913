import CsmsPlatform.Framework.Decimal

/-!
# Redis keyspace and scripts

A keyspace maps each key to a typed value with an optional expiry. A key whose expiry has been
reached is absent to every command. A script is a sequence of commands at one instant; a command
that answers with an error ends the script and keeps the effects of the commands before it.
Instants are nanoseconds since the Unix epoch, on the one clock of the server and its clients.
-/

namespace Redis

structure StreamEntry where
  id : Nat
  fields : List (String × String)
deriving DecidableEq, Repr

structure PendingEntry where
  id : Nat
  deliveredAt : Int
deriving DecidableEq, Repr

structure ConsumerGroup where
  lastDelivered : Nat
  pending : List PendingEntry
deriving DecidableEq, Repr

structure StreamValue where
  entries : List StreamEntry
  lastId : Nat
  group : String → Option ConsumerGroup

inductive Value where
  | string (text : String)
  | hash (field : String → Option String)
  | list (elements : List String)
  | stream (value : StreamValue)

structure Item where
  value : Value
  expiresAt : Option Int

def Item.liveAt (item : Item) (now : Int) : Bool :=
  match item.expiresAt with
  | none => true
  | some t => decide (now < t)

def Keyspace := String → Option Item

namespace Keyspace

def empty : Keyspace := fun _ => none

def live (ks : Keyspace) (now : Int) (key : String) : Option Item :=
  (ks key).filter (fun item => item.liveAt now)

def set (ks : Keyspace) (key : String) (item : Item) : Keyspace :=
  fun k => if k = key then some item else ks k

def erase (ks : Keyspace) (key : String) : Keyspace :=
  fun k => if k = key then none else ks k

@[simp] theorem live_empty (now : Int) (key : String) : empty.live now key = none := rfl

theorem live_set_self (ks : Keyspace) (now : Int) (key : String) (item : Item) :
    (ks.set key item).live now key = if item.liveAt now then some item else none := by
  simp [live,set,Option.filter]

@[simp] theorem live_set_ne (ks : Keyspace) (now : Int) {key k : String} (item : Item)
    (h : k ≠ key) : (ks.set key item).live now k = ks.live now k := by
  simp [live,set,h]

@[simp] theorem live_erase_self (ks : Keyspace) (now : Int) (key : String) :
    (ks.erase key).live now key = none := by
  simp [live,erase]

@[simp] theorem live_erase_ne (ks : Keyspace) (now : Int) {key k : String}
    (h : k ≠ key) : (ks.erase key).live now k = ks.live now k := by
  simp [live,erase,h]

@[simp] theorem set_ne (ks : Keyspace) {key k : String} (item : Item) (h : k ≠ key) :
    ks.set key item k = ks k := by
  simp [set,h]

@[simp] theorem erase_ne (ks : Keyspace) {key k : String} (h : k ≠ key) :
    ks.erase key k = ks k := by
  simp [erase,h]

@[simp] theorem set_set (ks : Keyspace) (key : String) (a b : Item) :
    (ks.set key a).set key b = ks.set key b := by
  funext k
  by_cases h : k = key <;> simp [set,h]

theorem live_eq_some {ks : Keyspace} {now : Int} {key : String} {item : Item} :
    ks.live now key = some item ↔ ks key = some item ∧ item.liveAt now = true := by
  simp [live,Option.filter_eq_some_iff]

/-- Time only takes keys away. -/
theorem live_later {ks : Keyspace} {now later : Int} (h : now ≤ later) (key : String) :
    ks.live later key = (ks.live now key).filter (fun item => item.liveAt later) := by
  have hmono (item : Item) (hl : item.liveAt later = true) : item.liveAt now = true := by
    unfold Item.liveAt at hl ⊢
    split at hl
    · rfl
    · simp only [decide_eq_true_eq] at hl ⊢
      omega
  unfold live
  cases hk : ks key with
  | none => rfl
  | some item =>
    by_cases hl : item.liveAt later = true
    · simp [Option.filter,hl,hmono item hl]
    · by_cases hn : item.liveAt now = true <;> simp [Option.filter,hl,hn]

end Keyspace

inductive Fault where
  | wrongType
  | notInteger
  | overflow
  | busyGroup
  | noGroup
deriving DecidableEq, Repr

def Fault.message : Fault → String
  | .wrongType => "WRONGTYPE Operation against a key holding the wrong kind of value"
  | .notInteger => "ERR value is not an integer or out of range"
  | .overflow => "ERR increment or decrement would overflow"
  | .busyGroup => "BUSYGROUP Consumer Group name already exists"
  | .noGroup => "NOGROUP No such key or consumer group"

def Script (α : Type) := Int → Keyspace → Except Fault α × Keyspace

namespace Script

def andThen {α β : Type} (m : Script α) (f : α → Script β) : Script β := fun now ks =>
  match m now ks with
  | (.ok a, ks') => f a now ks'
  | (.error e, ks') => (.error e, ks')

instance : Monad Script where
  pure a := fun _ ks => (.ok a, ks)
  bind := andThen

@[simp] theorem pure_apply {α : Type} (a : α) (now : Int) (ks : Keyspace) :
    (pure a : Script α) now ks = (.ok a, ks) := rfl

theorem bind_apply {α β : Type} (m : Script α) (f : α → Script β) (now : Int) (ks : Keyspace) :
    (m >>= f) now ks =
      match m now ks with
      | (.ok a, ks') => f a now ks'
      | (.error e, ks') => (.error e, ks') := rfl

theorem bind_ok {α β : Type} {m : Script α} {f : α → Script β} {now : Int}
    {ks ks' : Keyspace} {a : α} (h : m now ks = (.ok a, ks')) :
    (m >>= f) now ks = f a now ks' := by
  rw [bind_apply,h]

theorem bind_error {α β : Type} {m : Script α} {f : α → Script β} {now : Int}
    {ks ks' : Keyspace} {e : Fault} (h : m now ks = (.error e, ks')) :
    (m >>= f) now ks = (.error e, ks') := by
  rw [bind_apply,h]

theorem bind_eq_ok {α β : Type} {m : Script α} {f : α → Script β} {now : Int}
    {ks ks' : Keyspace} {b : β} (h : (m >>= f) now ks = (.ok b, ks')) :
    ∃ a mid, m now ks = (.ok a, mid) ∧ f a now mid = (.ok b, ks') := by
  rw [bind_apply] at h
  split at h
  · next a mid hm => exact ⟨a,mid,hm,h⟩
  · cases h

/-- A script that leaves every keyspace as it found it. -/
def ReadOnly {α : Type} (m : Script α) : Prop := ∀ now ks, (m now ks).2 = ks

/-- A script that writes no key but those given. -/
def WritesOnly {α : Type} (keys : List String) (m : Script α) : Prop :=
  ∀ now ks key, key ∉ keys → (m now ks).2 key = ks key

variable {α β : Type} {keys : List String}

theorem ReadOnly.writesOnly {m : Script α} (h : m.ReadOnly) : m.WritesOnly keys := by
  intro now ks key _
  rw [h now ks]

theorem writesOnly_pure (a : α) : (pure a : Script α).WritesOnly keys := fun _ _ _ _ => rfl

theorem WritesOnly.bind {m : Script α} {f : α → Script β} (hm : m.WritesOnly keys)
    (hf : ∀ a, (f a).WritesOnly keys) : (m >>= f).WritesOnly keys := by
  intro now ks key hk
  have hfirst := hm now ks key hk
  rw [bind_apply]
  generalize m now ks = outcome at hfirst
  obtain ⟨result,ks'⟩ := outcome
  cases result with
  | error e => exact hfirst
  | ok a => exact (hf a now ks' key hk).trans hfirst

end Script

end Redis
