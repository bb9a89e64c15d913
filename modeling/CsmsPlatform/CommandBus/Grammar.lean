import CsmsPlatform.CommandBus.Codec

/-!
# The grammar of command entries

An entry is a map from field names to texts, where a field may be missing or nil. The decoder takes
exactly the entries that describe a command.
-/

namespace CsmsPlatform

/-- A field of an entry as an index expression reads it: nil for a missing one. -/
def entryField (values : String → Option (Option String)) (key : String) : Option String :=
  (values key).join

def entryText (values : String → Option (Option String)) (key : String) : String :=
  match values key with
  | none => ""
  | some none => ""
  | some (some raw) => raw

def decodeEntry (values : String → Option (Option String)) : Except CodecError Command := do
  let generation ← decodeGeneration (entryField values "owner_generation")
  let createdAt ← unixNano (entryField values "created_at")
  let deadline ← unixNano (entryField values "deadline")
  let command : Command := ⟨entryText values "id",entryText values "station_identity",
    entryText values "owner_id",UInt64.ofInt generation,entryText values "action",
    entryText values "payload",createdAt,deadline⟩
  validateCommand command
  return command

theorem decodeCommand_eq_decodeEntry (values : List (String × String)) :
    decodeCommand values = decodeEntry fun key => (fieldValue values key).map some := by
  have hfield (key : String) :
      entryField (fun key => (fieldValue values key).map some) key = fieldValue values key := by
    cases h : fieldValue values key <;> simp [entryField,h]
  have htext (key : String) :
      entryText (fun key => (fieldValue values key).map some) key = stringField values key := by
    cases h : fieldValue values key <;> simp [entryText,stringField,h]
  simp only [decodeCommand,decodeEntry,hfield,htext]

def HasText (values : String → Option (Option String)) (key text : String) : Prop :=
  values key = some (some text) ∧ text ≠ ""

def HasNumber (values : String → Option (Option String)) (key : String) (i : Int) : Prop :=
  ∃ text, values key = some (some text) ∧ Decimal.Spells text.toList i

/-- The entry spells the command: a deadline of zero is none, a missing payload is empty. -/
structure Describes (values : String → Option (Option String)) (command : Command) : Prop where
  id : HasText values "id" command.id
  stationIdentity : HasText values "station_identity" command.stationIdentity
  ownerID : HasText values "owner_id" command.ownerID
  action : HasText values "action" command.action
  payload : (entryField values "payload").getD "" = command.payload
  ownerGeneration : HasNumber values "owner_generation" command.ownerGeneration.toNat ∧
    1 ≤ command.ownerGeneration.toNat ∧ command.ownerGeneration.toNat < 2^63
  createdAt : HasNumber values "created_at" command.createdAt ∧
    command.createdAt ≠ 0 ∧ -2^63 ≤ command.createdAt ∧ command.createdAt < 2^63
  deadline : HasNumber values "deadline" 0 ∧ command.deadline = zeroTime ∨
    HasNumber values "deadline" command.deadline ∧ command.deadline ≠ 0 ∧ -2^63 ≤ command.deadline ∧
      command.deadline < 2^63 ∧ command.createdAt < command.deadline

section Fields

variable {values : String → Option (Option String)} {key : String}

theorem entryText_eq (values : String → Option (Option String)) (key : String) :
    entryText values key = (entryField values key).getD "" := by
  unfold entryText entryField
  cases values key with
  | none => rfl
  | some value => cases value <;> rfl

theorem entryField_eq_some {text : String} :
    entryField values key = some text ↔ values key = some (some text) := by
  unfold entryField
  cases values key with
  | none => simp
  | some value => simp

theorem hasText_iff {text : String} : HasText values key text ↔ entryText values key = text ∧ text ≠ "" := by
  unfold HasText
  rw [entryText_eq,← entryField_eq_some]
  cases entryField values key with
  | none =>
    simp only [Option.getD_none,reduceCtorEq,false_and,false_iff,not_and,not_not]
    exact fun h => h.symm
  | some raw => simp

theorem parseInt_sprintField {i : Int} : Decimal.parseInt (sprintField (entryField values key)) = some i ↔
    HasNumber values key i ∧ -2^63 ≤ i ∧ i < 2^63 := by
  unfold HasNumber
  cases hfield : entryField values key with
  | none =>
    have hnil : Decimal.parseInt "<nil>" = none := by decide
    have hnone (text : String) : values key ≠ some (some text) := by
      rw [ne_eq,← entryField_eq_some,hfield]
      simp
    simp [sprintField,hnil,hnone]
  | some text =>
    have hsome := entryField_eq_some.mp hfield
    simp [sprintField,Decimal.parseInt_eq_some_iff,hsome]

theorem decodeGeneration_eq_ok {raw : Option String} {i : Int} : decodeGeneration raw = .ok i ↔
    Decimal.parseInt (sprintField raw) = some i ∧ 0 ≤ i := by
  unfold decodeGeneration
  cases Decimal.parseInt (sprintField raw) with
  | none =>
    constructor
    · intro h
      cases h
    · rintro ⟨h,_⟩
      cases h
  | some n =>
    by_cases hneg : n < 0
    · simp only [hneg,if_true]
      constructor
      · intro h
        cases h
      · rintro ⟨h,hlo⟩
        cases h
        omega
    · simp only [hneg,if_false]
      constructor
      · intro h
        cases h
        exact ⟨rfl,by omega⟩
      · rintro ⟨h,_⟩
        cases h
        rfl

theorem decodeGeneration_ok_iff {i : Int} : decodeGeneration (entryField values key) = .ok i ↔
    HasNumber values key i ∧ 0 ≤ i ∧ i < 2^63 := by
  rw [decodeGeneration_eq_ok,parseInt_sprintField]
  constructor
  · rintro ⟨⟨hnumber,_,hhi⟩,hlo⟩
    exact ⟨hnumber,hlo,hhi⟩
  · rintro ⟨hnumber,hlo,hhi⟩
    exact ⟨⟨hnumber,by omega,hhi⟩,hlo⟩

theorem unixNano_eq_ok {raw : Option String} {time : Int} : unixNano raw = .ok time ↔
    Decimal.parseInt (sprintField raw) = some 0 ∧ time = zeroTime ∨
      Decimal.parseInt (sprintField raw) = some time ∧ time ≠ 0 := by
  unfold unixNano
  cases Decimal.parseInt (sprintField raw) with
  | none =>
    constructor
    · intro h
      cases h
    · rintro (⟨h,_⟩ | ⟨h,_⟩) <;> cases h
  | some n =>
    by_cases hzero : n = 0
    · subst hzero
      simp only [if_true]
      constructor
      · intro h
        cases h
        exact .inl ⟨trivial,rfl⟩
      · rintro (⟨_,rfl⟩ | ⟨h,hne⟩)
        · rfl
        · exact absurd (Option.some.inj h).symm hne
    · simp only [hzero,if_false]
      constructor
      · intro h
        cases h
        exact .inr ⟨rfl,hzero⟩
      · rintro (⟨h,_⟩ | ⟨h,_⟩)
        · exact absurd (Option.some.inj h) hzero
        · cases h
          rfl

theorem unixNano_ok_iff {time : Int} : unixNano (entryField values key) = .ok time ↔
    HasNumber values key 0 ∧ time = zeroTime ∨
      HasNumber values key time ∧ time ≠ 0 ∧ -2^63 ≤ time ∧ time < 2^63 := by
  rw [unixNano_eq_ok,parseInt_sprintField,parseInt_sprintField]
  constructor
  · rintro (⟨⟨hnumber,_⟩,htime⟩ | ⟨⟨hnumber,hrange⟩,hne⟩)
    · exact .inl ⟨hnumber,htime⟩
    · exact .inr ⟨hnumber,hne,hrange⟩
  · rintro (⟨hnumber,htime⟩ | ⟨hnumber,hne,hrange⟩)
    · exact .inl ⟨⟨hnumber,by decide,by decide⟩,htime⟩
    · exact .inr ⟨⟨hnumber,hrange⟩,hne⟩

theorem decodeEntry_ok_iff {command : Command} : decodeEntry values = .ok command ↔
    ∃ generation, decodeGeneration (entryField values "owner_generation") = .ok generation ∧
      command.ownerGeneration = UInt64.ofInt generation ∧
      unixNano (entryField values "created_at") = .ok command.createdAt ∧
      unixNano (entryField values "deadline") = .ok command.deadline ∧
      entryText values "id" = command.id ∧ entryText values "station_identity" = command.stationIdentity ∧
      entryText values "owner_id" = command.ownerID ∧ entryText values "action" = command.action ∧
      entryText values "payload" = command.payload ∧ validateCommand command = .ok () := by
  unfold decodeEntry
  cases decodeGeneration (entryField values "owner_generation") with
  | error err =>
    constructor
    · intro h
      cases h
    · rintro ⟨_,h,_⟩
      cases h
  | ok generation =>
    cases unixNano (entryField values "created_at") with
    | error err =>
      constructor
      · intro h
        cases h
      · rintro ⟨_,_,_,h,_⟩
        cases h
    | ok createdAt =>
      cases unixNano (entryField values "deadline") with
      | error err =>
        constructor
        · intro h
          cases h
        · rintro ⟨_,_,_,_,h,_⟩
          cases h
      | ok deadline =>
        constructor
        · intro h
          obtain ⟨hvalid,rfl⟩ := validated_ok_iff.mp h
          exact ⟨generation,rfl,rfl,rfl,rfl,rfl,rfl,rfl,rfl,rfl,hvalid⟩
        · obtain ⟨id,stationIdentity,ownerID,ownerGeneration,action,payload,created,ends⟩ := command
          rintro ⟨_,hgeneration,rfl,hcreated,hdeadline,rfl,rfl,rfl,rfl,rfl,hvalid⟩
          cases hgeneration
          cases hcreated
          cases hdeadline
          exact validated_ok_iff.mpr ⟨hvalid,rfl⟩

end Fields

theorem toNat_ofInt_of_range {i : Int} (hlo : 0 ≤ i) (hhi : i < 2^63) :
    ((UInt64.ofInt i).toNat : Int) = i := by
  rw [UInt64.ofInt,UInt64.toNat_ofNat']
  omega

theorem decodeEntry_describes (values : String → Option (Option String)) (command : Command) :
    decodeEntry values = .ok command ↔ Describes values command := by
  have hzero : zeroTime = -62135596800*1000000000 := rfl
  rw [decodeEntry_ok_iff,validateCommand_ok_iff,unixNano_ok_iff,unixNano_ok_iff]
  constructor
  · rintro ⟨generation,hgeneration,howner,hcreated,hdeadline,hid,hstation,hownerID,haction,hpayload,
      ⟨hidNe,hstationNe,hownerNe,hgenerationNe,hactionNe,hcreatedNe⟩,hafter⟩
    obtain ⟨hnumber,hlo,hhi⟩ := decodeGeneration_ok_iff.mp hgeneration
    have htoNat := toNat_ofInt_of_range hlo hhi
    rw [← howner] at htoNat
    have hcreated := hcreated.resolve_left fun h => hcreatedNe h.2
    constructor
    · exact hasText_iff.mpr ⟨hid,hidNe⟩
    · exact hasText_iff.mpr ⟨hstation,hstationNe⟩
    · exact hasText_iff.mpr ⟨hownerID,hownerNe⟩
    · exact hasText_iff.mpr ⟨haction,hactionNe⟩
    · rw [← entryText_eq,hpayload]
    · refine ⟨htoNat ▸ hnumber,?_,by omega⟩
      by_contra hsmall
      apply hgenerationNe
      rw [← UInt64.toNat_inj]
      exact Nat.lt_one_iff.mp (not_le.mp hsmall)
    · exact hcreated
    · rcases hdeadline with hnone | ⟨hdeadline,hne,hlo,hhi⟩
      · exact .inl hnone
      · exact .inr ⟨hdeadline,hne,hlo,hhi,hafter.resolve_left (by omega)⟩
  · rintro ⟨hid,hstation,hownerID,haction,hpayload,⟨hnumber,hpos,hbound⟩,hcreated,hdeadline⟩
    refine ⟨command.ownerGeneration.toNat,?_,?_,.inr hcreated,?_,(hasText_iff.mp hid).1,
      (hasText_iff.mp hstation).1,(hasText_iff.mp hownerID).1,(hasText_iff.mp haction).1,?_,
      ⟨hid.2,hstation.2,hownerID.2,?_,haction.2,by omega⟩,?_⟩
    · exact decodeGeneration_ok_iff.mpr ⟨hnumber,by omega,by omega⟩
    · apply UInt64.toNat_inj.mp
      have htoNat := toNat_ofInt_of_range (i := command.ownerGeneration.toNat) (by omega) (by omega)
      omega
    · rcases hdeadline with hnone | ⟨hdeadline,hne,hlo,hhi,_⟩
      · exact .inl hnone
      · exact .inr ⟨hdeadline,hne,hlo,hhi⟩
    · rw [entryText_eq,hpayload]
    · rintro hzero
      rw [hzero] at hpos
      exact absurd hpos (by decide)
    · rcases hdeadline with hnone | ⟨_,_,_,_,hafter⟩
      · exact .inl hnone.2
      · exact .inr hafter

/-- The decoder succeeds exactly on the entries that describe a command, and answers that command; so
does the one that reads the list of fields a stream entry has. -/
theorem decodeCommand_grammar (values : String → Option (Option String)) (fields : List (String × String))
    (command : Command) :
    (decodeEntry values = .ok command ↔ Describes values command) ∧
    (decodeCommand fields = .ok command ↔
      Describes (fun key => (fieldValue fields key).map some) command) := by
  refine ⟨decodeEntry_describes values command,?_⟩
  rw [decodeCommand_eq_decodeEntry]
  exact decodeEntry_describes _ command

end CsmsPlatform
