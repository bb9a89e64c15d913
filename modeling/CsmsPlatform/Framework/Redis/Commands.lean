import CsmsPlatform.Framework.Redis.Keyspace

/-!
# Redis commands on strings, hashes, lists and expiries

Each command reads at most one live key. An integer string is the canonical decimal text of a
signed 64-bit number. Durations are given in nanoseconds except where the command counts
milliseconds.
-/

namespace Redis

def keyExists (key : String) : Script Bool := fun now ks =>
  (.ok (ks.live now key).isSome, ks)

def hget (key field : String) : Script (Option String) := fun now ks =>
  match ks.live now key with
  | none => (.ok none, ks)
  | some ⟨.hash f, _⟩ => (.ok (f field), ks)
  | some _ => (.error .wrongType, ks)

def hmget (key : String) (fields : List String) : Script (List (Option String)) := fun now ks =>
  match ks.live now key with
  | none => (.ok (fields.map fun _ => none), ks)
  | some ⟨.hash f, _⟩ => (.ok (fields.map f), ks)
  | some _ => (.error .wrongType, ks)

def assignFields : List (String × String) → (String → Option String) → String → Option String
  | [], f => f
  | (name,value)::rest, f => assignFields rest (fun x => if x = name then some value else f x)

/-- The number of new fields that Redis replies with is never read by a caller here. -/
def hset (key : String) (fields : List (String × String)) : Script Unit := fun now ks =>
  match ks.live now key with
  | none => (.ok (), ks.set key ⟨.hash (assignFields fields fun _ => none),none⟩)
  | some ⟨.hash f, e⟩ => (.ok (), ks.set key ⟨.hash (assignFields fields f),e⟩)
  | some _ => (.error .wrongType, ks)

/-- The integer a string value holds, when its text is the canonical one. -/
def integerText (text : String) : Option Int :=
  (Decimal.parseInt text).filter (fun n => toString n = text)

theorem integerText_toString (i : Int) (hlo : -2^63 ≤ i) (hhi : i < 2^63) :
    integerText (toString i) = some i := by
  rw [integerText,Decimal.parseInt_toString i hlo hhi]
  simp [Option.filter]

def incr (key : String) : Script Int := fun now ks =>
  match ks.live now key with
  | none => (.ok 1, ks.set key ⟨.string (toString (1 : Int)),none⟩)
  | some ⟨.string text, e⟩ =>
    match integerText text with
    | none => (.error .notInteger, ks)
    | some n =>
      if n+1 < 2^63 then (.ok (n+1), ks.set key ⟨.string (toString (n+1)),e⟩)
      else (.error .overflow, ks)
  | some _ => (.error .wrongType, ks)

def millisecond : Int := 1000000

/-- A nonpositive timeout deletes the key at once. -/
def pexpire (key : String) (ms : Int) : Script Int := fun now ks =>
  match ks.live now key with
  | none => (.ok 0, ks)
  | some item =>
    if ms ≤ 0 then (.ok 1, ks.erase key)
    else (.ok 1, ks.set key { item with expiresAt := some (now + ms*millisecond) })

def pttl (key : String) : Script Int := fun now ks =>
  match ks.live now key with
  | none => (.ok (-2), ks)
  | some ⟨_, none⟩ => (.ok (-1), ks)
  | some ⟨_, some t⟩ => (.ok ((t-now)/millisecond), ks)

def del (key : String) : Script Int := fun now ks =>
  if (ks.live now key).isSome then (.ok 1, ks.erase key) else (.ok 0, ks)

def get (key : String) : Script (Option String) := fun now ks =>
  match ks.live now key with
  | none => (.ok none, ks)
  | some ⟨.string text, _⟩ => (.ok (some text), ks)
  | some _ => (.error .wrongType, ks)

def setEx (key text : String) (ttl : Int) : Script Unit := fun now ks =>
  (.ok (), ks.set key ⟨.string text,some (now+ttl)⟩)

def lpush (key element : String) : Script Nat := fun now ks =>
  match ks.live now key with
  | none => (.ok 1, ks.set key ⟨.list [element],none⟩)
  | some ⟨.list xs, e⟩ => (.ok (xs.length+1), ks.set key ⟨.list (element::xs),e⟩)
  | some _ => (.error .wrongType, ks)

/-- Taking the last element removes the key. -/
def rpop (key : String) : Script (Option String) := fun now ks =>
  match ks.live now key with
  | none => (.ok none, ks)
  | some ⟨.list xs, e⟩ =>
    match xs.getLast? with
    | none => (.ok none, ks)
    | some x =>
      if xs.dropLast = [] then (.ok (some x), ks.erase key)
      else (.ok (some x), ks.set key ⟨.list xs.dropLast,e⟩)
  | some _ => (.error .wrongType, ks)

def expire (key : String) (ttl : Int) : Script Int := fun now ks =>
  match ks.live now key with
  | none => (.ok 0, ks)
  | some item =>
    if ttl ≤ 0 then (.ok 1, ks.erase key)
    else (.ok 1, ks.set key { item with expiresAt := some (now+ttl) })

theorem keyExists_readOnly (key : String) : (keyExists key).ReadOnly := fun _ _ => rfl

theorem hget_readOnly (key field : String) : (hget key field).ReadOnly := by
  intro now ks
  unfold hget
  split <;> rfl

theorem hmget_readOnly (key : String) (fields : List String) : (hmget key fields).ReadOnly := by
  intro now ks
  unfold hmget
  split <;> rfl

theorem pttl_readOnly (key : String) : (pttl key).ReadOnly := by
  intro now ks
  unfold pttl
  split <;> rfl

section Writes

variable {key : String} {keys : List String} (hkey : key ∈ keys)
include hkey

private theorem ne_written {k : String} (hk : k ∉ keys) : k ≠ key := fun h => hk (h ▸ hkey)

theorem incr_writesOnly : (incr key).WritesOnly keys := by
  intro now ks k hk
  have hne := ne_written hkey hk
  unfold incr
  split
  · exact Keyspace.set_ne _ _ hne
  · split
    · rfl
    · split
      · exact Keyspace.set_ne _ _ hne
      · rfl
  · rfl

theorem hset_writesOnly (fields : List (String × String)) : (hset key fields).WritesOnly keys := by
  intro now ks k hk
  have hne := ne_written hkey hk
  unfold hset
  split
  · exact Keyspace.set_ne _ _ hne
  · exact Keyspace.set_ne _ _ hne
  · rfl

theorem pexpire_writesOnly (ms : Int) : (pexpire key ms).WritesOnly keys := by
  intro now ks k hk
  have hne := ne_written hkey hk
  unfold pexpire
  split
  · rfl
  · split
    · exact Keyspace.erase_ne _ hne
    · exact Keyspace.set_ne _ _ hne

end Writes

section Runs

variable {ks : Keyspace} {now : Int} {key : String}

@[simp] theorem keyExists_apply :
    keyExists key now ks = (.ok (ks.live now key).isSome, ks) := rfl

theorem hget_absent (h : ks.live now key = none) (field : String) :
    hget key field now ks = (.ok none, ks) := by
  simp [hget,h]

theorem hget_hash {f : String → Option String} {e : Option Int}
    (h : ks.live now key = some ⟨.hash f,e⟩) (field : String) :
    hget key field now ks = (.ok (f field), ks) := by
  simp [hget,h]

theorem hget_string {text : String} {e : Option Int}
    (h : ks.live now key = some ⟨.string text,e⟩) (field : String) :
    hget key field now ks = (.error .wrongType, ks) := by
  simp [hget,h]

theorem hmget_absent (h : ks.live now key = none) (fields : List String) :
    hmget key fields now ks = (.ok (fields.map fun _ => none), ks) := by
  simp [hmget,h]

theorem hmget_hash {f : String → Option String} {e : Option Int}
    (h : ks.live now key = some ⟨.hash f,e⟩) (fields : List String) :
    hmget key fields now ks = (.ok (fields.map f), ks) := by
  simp [hmget,h]

theorem hset_absent (h : ks.live now key = none) (fields : List (String × String)) :
    hset key fields now ks =
      (.ok (), ks.set key ⟨.hash (assignFields fields fun _ => none),none⟩) := by
  simp [hset,h]

theorem hset_string {text : String} {e : Option Int}
    (h : ks.live now key = some ⟨.string text,e⟩) (fields : List (String × String)) :
    hset key fields now ks = (.error .wrongType, ks) := by
  simp [hset,h]

theorem hset_ok {ks' : Keyspace} {fields : List (String × String)} {u : Unit}
    (h : hset key fields now ks = (.ok u,ks')) :
    ∃ f e, ks'.live now key = some ⟨.hash (assignFields fields f),e⟩ := by
  unfold hset at h
  split at h
  · cases h
    exact ⟨_,none,by rw [Keyspace.live_set_self]; rfl⟩
  · next f e hlive =>
    cases h
    have hl : Item.liveAt ⟨.hash (assignFields fields f),e⟩ now = true := (Keyspace.live_eq_some.mp hlive).2
    exact ⟨f,e,by rw [Keyspace.live_set_self,if_pos hl]⟩
  · cases h

theorem incr_absent (h : ks.live now key = none) :
    incr key now ks = (.ok 1, ks.set key ⟨.string (toString (1 : Int)),none⟩) := by
  simp [incr,h]

theorem incr_integer {n : Int} {e : Option Int}
    (h : ks.live now key = some ⟨.string (toString n),e⟩) (hlo : -2^63 ≤ n) (hhi : n < 2^63) :
    incr key now ks =
      if n+1 < 2^63 then (.ok (n+1), ks.set key ⟨.string (toString (n+1)),e⟩)
      else (.error .overflow, ks) := by
  simp only [incr,h,integerText_toString n hlo hhi]

theorem incr_cases (key : String) (now : Int) (ks : Keyspace) :
    (∃ n text e, incr key now ks = (.ok n,ks.set key ⟨.string text,e⟩) ∧
      Item.liveAt ⟨.string text,e⟩ now = true) ∨ ∃ fault, incr key now ks = (.error fault,ks) := by
  unfold incr
  split
  · exact .inl ⟨_,_,none,rfl,rfl⟩
  · next text e hlive =>
    have hnow : Item.liveAt ⟨.string text,e⟩ now = true := (Keyspace.live_eq_some.mp hlive).2
    split
    · exact .inr ⟨_,rfl⟩
    · split
      · exact .inl ⟨_,_,e,rfl,hnow⟩
      · exact .inr ⟨_,rfl⟩
  · exact .inr ⟨_,rfl⟩

theorem incr_hash {f : String → Option String} {e : Option Int}
    (h : ks.live now key = some ⟨.hash f,e⟩) : incr key now ks = (.error .wrongType,ks) := by
  simp [incr,h]

theorem pexpire_live {item : Item} (h : ks.live now key = some item) (ms : Int) :
    pexpire key ms now ks =
      if ms ≤ 0 then (.ok 1, ks.erase key)
      else (.ok 1, ks.set key { item with expiresAt := some (now + ms*millisecond) }) := by
  simp only [pexpire,h]

theorem del_live {item : Item} (h : ks.live now key = some item) :
    del key now ks = (.ok 1, ks.erase key) := by
  simp [del,h]

theorem pttl_absent (h : ks.live now key = none) : pttl key now ks = (.ok (-2), ks) := by
  simp [pttl,h]

theorem pttl_live {v : Value} {t : Int} (h : ks.live now key = some ⟨v,some t⟩) :
    pttl key now ks = (.ok ((t-now)/millisecond), ks) := by
  simp [pttl,h]

end Runs

end Redis
