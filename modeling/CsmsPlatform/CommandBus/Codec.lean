import CsmsPlatform.CommandBus.Keys

/-!
# Commands as stream entries

`Publish` writes a command as a map of texts and `decodeCommand` reads it back. A time is the
nanoseconds since the Unix epoch of its instant; the zero time, which stands for an absent one, is
the first instant of year one. A field that an entry lacks reads as nil.
-/

namespace CsmsPlatform

def zeroTime : Int := -62135596800*1000000000

structure Command where
  id : String
  stationIdentity : String
  ownerID : String
  ownerGeneration : UInt64
  action : String
  payload : String
  createdAt : Int
  deadline : Int
deriving DecidableEq, Repr

inductive CodecError where
  | invalidCommand (detail : String)
  | ownerGeneration
  | timestamp
deriving DecidableEq, Repr

def CodecError.message : CodecError → String
  | .invalidCommand detail => "invalid command: " ++ detail
  | .ownerGeneration => "decode Redis command owner generation"
  | .timestamp => "decode Redis command timestamp"

def validateCommand (command : Command) : Except CodecError Unit := do
  if command.id = "" ∨ command.stationIdentity = "" ∨ command.ownerID = "" ∨
      command.ownerGeneration = 0 ∨ command.action = "" ∨ command.createdAt = zeroTime then
    throw (.invalidCommand
      "ID, station identity, owner ID, owner generation, action and creation time are required")
  if command.deadline ≠ zeroTime ∧ ¬command.createdAt < command.deadline then
    throw (.invalidCommand "deadline must be after creation time")

/-- `time.Time.UnixNano`, which wraps outside the range of its 64-bit result. -/
def timeUnixNano (time : Int) : Int64 := Int64.ofInt time

def timestamp (value : Int) : Int64 :=
  if value = zeroTime then 0 else timeUnixNano value

def commandFields (command : Command) : List (String × String) :=
  [("id",command.id),("station_identity",command.stationIdentity),("owner_id",command.ownerID),
    ("owner_generation",toString command.ownerGeneration),("action",command.action),
    ("payload",command.payload),("created_at",toString (timeUnixNano command.createdAt)),
    ("deadline",toString (timestamp command.deadline))]

/-- The client builds a map of an entry's fields, so a later value replaces an earlier one. -/
def fieldValue (values : List (String × String)) (key : String) : Option String :=
  values.reverse.lookup key

def sprintField (value : Option String) : String := value.getD "<nil>"

def stringField (values : List (String × String)) (key : String) : String :=
  match fieldValue values key with
  | none => ""
  | some raw => raw

def decodeGeneration (value : Option String) : Except CodecError Int := do
  let some generation := Decimal.parseInt (sprintField value) | throw .ownerGeneration
  if generation < 0 then throw .ownerGeneration
  return generation

def unixNano (value : Option String) : Except CodecError Int := do
  let some nanoseconds := Decimal.parseInt (sprintField value) | throw .timestamp
  if nanoseconds = 0 then return zeroTime
  return nanoseconds

def decodeCommand (values : List (String × String)) : Except CodecError Command := do
  let generation ← decodeGeneration (fieldValue values "owner_generation")
  let createdAt ← unixNano (fieldValue values "created_at")
  let deadline ← unixNano (fieldValue values "deadline")
  let command : Command := ⟨stringField values "id",stringField values "station_identity",
    stringField values "owner_id",UInt64.ofInt generation,stringField values "action",
    stringField values "payload",createdAt,deadline⟩
  validateCommand command
  return command

theorem validateCommand_ok_iff (c : Command) : validateCommand c = .ok () ↔
    (c.id ≠ "" ∧ c.stationIdentity ≠ "" ∧ c.ownerID ≠ "" ∧ c.ownerGeneration ≠ 0 ∧ c.action ≠ "" ∧
      c.createdAt ≠ zeroTime) ∧ (c.deadline = zeroTime ∨ c.createdAt < c.deadline) := by
  unfold validateCommand
  by_cases h1 : c.id = "" ∨ c.stationIdentity = "" ∨ c.ownerID = "" ∨ c.ownerGeneration = 0 ∨
      c.action = "" ∨ c.createdAt = zeroTime
  · simp only [if_pos h1]
    constructor
    · intro h
      cases h
    · intro ⟨h,_⟩
      simp [h] at h1
  · simp only [if_neg h1]
    simp only [not_or] at h1
    by_cases h2 : c.deadline ≠ zeroTime ∧ ¬c.createdAt < c.deadline
    · simp only [if_pos h2]
      constructor
      · intro h
        cases h
      · intro ⟨_,h⟩
        simp [h2] at h
    · simp only [if_neg h2]
      constructor
      · intro _
        refine ⟨h1,?_⟩
        by_contra hn
        exact h2 (not_or.mp hn)
      · intro _
        rfl

/-- An instant that `UnixNano` and `time.Unix` carry through 64 bits, other than the epoch, whose
number means an absent time. -/
def Carried (time : Int) : Prop := -2^63 ≤ time ∧ time < 2^63 ∧ time ≠ 0

instance (time : Int) : Decidable (Carried time) := inferInstanceAs (Decidable (_ ∧ _ ∧ _))

theorem decodeGeneration_text (g : UInt64) :
    decodeGeneration (some (toString g)) =
      if g.toNat < 2^63 then .ok (g.toNat : Int) else .error .ownerGeneration := by
  have hparse := Decimal.parseInt_toString_nat g.toNat
  change Decimal.parseInt (toString g) = _ at hparse
  simp only [decodeGeneration,sprintField,Option.getD_some,hparse]
  by_cases hg : g.toNat < 2^63
  · have hpos : ¬(g.toNat : Int) < 0 := by omega
    simp only [if_pos hg,if_neg hpos]
    rfl
  · simp only [if_neg hg]
    rfl

theorem unixNano_text (t : Int64) :
    unixNano (some (toString t)) = .ok (if t.toInt = 0 then zeroTime else t.toInt) := by
  have hparse : Decimal.parseInt (toString t) = some t.toInt :=
    Decimal.parseInt_toString t.toInt t.le_toInt t.toInt_lt
  simp only [unixNano,sprintField,Option.getD_some,hparse]
  by_cases ht : t.toInt = 0
  · simp only [if_pos ht]
    rfl
  · simp only [if_neg ht]
    rfl

/-- The instant that comes back for a time written as its 64-bit number. -/
def recovered (t : Int64) : Int := if t.toInt = 0 then zeroTime else t.toInt

theorem decodeCommand_fields (c : Command) :
    decodeCommand (commandFields c) =
      if c.ownerGeneration.toNat < 2^63 then do
        let c' : Command := { c with
          createdAt := recovered (timeUnixNano c.createdAt)
          deadline := recovered (timestamp c.deadline) }
        validateCommand c'
        return c'
      else .error .ownerGeneration := by
  have hgen : fieldValue (commandFields c) "owner_generation" = some (toString c.ownerGeneration) := rfl
  have hcreated : fieldValue (commandFields c) "created_at" =
    some (toString (timeUnixNano c.createdAt)) := rfl
  have hdeadline : fieldValue (commandFields c) "deadline" = some (toString (timestamp c.deadline)) := rfl
  have huint : UInt64.ofInt (c.ownerGeneration.toNat : Int) = c.ownerGeneration := by
    apply UInt64.toNat_inj.mp
    have hlt := c.ownerGeneration.toNat_lt
    rw [UInt64.ofInt,UInt64.toNat_ofNat']
    omega
  unfold decodeCommand
  rw [hgen,hcreated,hdeadline,decodeGeneration_text,unixNano_text,unixNano_text]
  by_cases hg : c.ownerGeneration.toNat < 2^63
  · simp only [if_pos hg]
    change (do
      let command : Command := ⟨c.id,c.stationIdentity,c.ownerID,
        UInt64.ofInt (c.ownerGeneration.toNat : Int),c.action,c.payload,
        recovered (timeUnixNano c.createdAt),recovered (timestamp c.deadline)⟩
      validateCommand command
      return command) = _
    rw [huint]
  · simp only [if_neg hg]
    rfl

theorem validated_ok_iff {c c' : Command} :
    (do validateCommand c'; return c') = Except.ok (ε := CodecError) c ↔
      validateCommand c' = .ok () ∧ c' = c := by
  cases hv : validateCommand c' with
  | error e =>
    constructor
    · intro h
      cases h
    · rintro ⟨h,_⟩
      cases h
  | ok u =>
    constructor
    · intro h
      cases h
      exact ⟨rfl,rfl⟩
    · rintro ⟨_,rfl⟩
      rfl

/-- What comes back of a published command differs from it in its times at most. -/
theorem decodeCommand_fields_ok {c command : Command}
    (h : decodeCommand (commandFields c) = .ok command) :
    command = { c with
      createdAt := recovered (timeUnixNano c.createdAt)
      deadline := recovered (timestamp c.deadline) } := by
  rw [decodeCommand_fields] at h
  split at h
  · exact (validated_ok_iff.mp h).2.symm
  · cases h

theorem decodeCommand_valid {values : List (String × String)} {command : Command}
    (h : decodeCommand values = .ok command) : validateCommand command = .ok () := by
  unfold decodeCommand at h
  cases hg : decodeGeneration (fieldValue values "owner_generation") with
  | error e =>
    rw [hg] at h
    cases h
  | ok generation =>
    cases hc : unixNano (fieldValue values "created_at") with
    | error e =>
      rw [hg,hc] at h
      cases h
    | ok createdAt =>
      cases hd : unixNano (fieldValue values "deadline") with
      | error e =>
        rw [hg,hc,hd] at h
        cases h
      | ok deadline =>
        rw [hg,hc,hd] at h
        obtain ⟨hv,rfl⟩ := validated_ok_iff.mp h
        exact hv

theorem recovered_timeUnixNano (t : Int) (ht : t ≠ zeroTime) :
    recovered (timeUnixNano t) = t ↔ Carried t := by
  unfold recovered timeUnixNano Carried
  rw [Int64.toInt_ofInt]
  have hz : zeroTime = -62135596800*1000000000 := rfl
  constructor
  · intro h
    split at h
    · exact absurd h.symm ht
    · have hlo := Int.le_bmod (x := t) (m := Int64.size) (by decide)
      have hhi := Int.bmod_lt (x := t) (m := Int64.size) (by decide)
      simp only [Int64.size] at *
      omega
  · intro ⟨hlo,hhi,hne⟩
    have hmod : t.bmod Int64.size = t := by
      apply Int.bmod_eq_of_le_mul_two <;> simp only [Int64.size] <;> omega
    rw [hmod,if_neg hne]

theorem recovered_timestamp (t : Int) :
    recovered (timestamp t) = t ↔ t = zeroTime ∨ Carried t := by
  by_cases hz : t = zeroTime
  · simp [timestamp,hz,recovered]
  · simp [timestamp,hz,recovered_timeUnixNano t hz]

/-- For every command that `Publish` accepts, the entry it writes decodes to that command if and only
if its generation fits a signed 64-bit number and its creation time and its deadline, where it has
one, are instants that the 64-bit nanoseconds carry, other than the epoch itself. -/
theorem decodeCommand_roundTrip_iff (c : Command) (h : validateCommand c = .ok ()) :
    decodeCommand (commandFields c) = .ok c ↔
      c.ownerGeneration.toNat < 2^63 ∧ Carried c.createdAt ∧
        (c.deadline = zeroTime ∨ Carried c.deadline) := by
  have hcreated : c.createdAt ≠ zeroTime := ((validateCommand_ok_iff c).mp h).1.2.2.2.2.2
  rw [decodeCommand_fields,← recovered_timeUnixNano c.createdAt hcreated,← recovered_timestamp]
  by_cases hg : c.ownerGeneration.toNat < 2^63
  · simp only [hg,true_and]
    constructor
    · intro hok
      obtain ⟨_,hc⟩ := validated_ok_iff.mp hok
      exact ⟨congrArg Command.createdAt hc,congrArg Command.deadline hc⟩
    · intro ⟨h1,h2⟩
      simp only [h1,h2]
      rw [h]
      rfl
  · rw [if_neg hg]
    constructor
    · intro hok
      cases hok
    · intro ⟨hlt,_⟩
      exact absurd hlt hg

theorem decodeCommand_roundTrip_reset :
    let c : Command := ⟨"4f1e","station-1","runtime-a",3,"Reset","\x7b\"type\":\"OnIdle\"\x7d",
      1767225600000000000,1767225630000000000⟩
    validateCommand c = .ok () ∧ decodeCommand (commandFields c) = .ok c := by
  refine ⟨by decide,?_⟩
  exact (decodeCommand_roundTrip_iff _ (by decide)).mpr ⟨by decide,by decide,.inr (by decide)⟩

/-- A valid command of the first generation beyond the signed range is rejected by the reader. -/
theorem decodeCommand_largeGeneration :
    let c : Command := ⟨"4f1e","station-1","runtime-a",9223372036854775808,"Reset",
      "\x7b\"type\":\"OnIdle\"\x7d",1767225600000000000,1767225630000000000⟩
    validateCommand c = .ok () ∧ decodeCommand (commandFields c) = .error .ownerGeneration := by
  refine ⟨by decide,?_⟩
  rw [decodeCommand_fields]
  decide

end CsmsPlatform
