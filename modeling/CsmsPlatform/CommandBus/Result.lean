import CsmsPlatform.CommandBus.Codec
import CsmsPlatform.Framework.Json.Value
import CsmsPlatform.Framework.Rfc3339

/-!
# Results as JSON

What `json.Marshal` makes of a `Result` and what `json.Unmarshal` reads back. A raw payload is
written compactly and is read as the characters it stands in; a nil one is written as `null`.
-/

namespace CsmsPlatform

structure Result where
  commandID : String
  success : Bool
  payload : Option String
  errorCode : String
  errorDescription : String
  completedAt : Int
deriving DecidableEq, Repr

def zeroResult : Result := ⟨"",false,none,"","",zeroTime⟩

/-- `encoding/json` matches names up to the case folding of ASCII letters. -/
def foldChar (c : Char) : Char :=
  if 'a' ≤ c ∧ c ≤ 'z' then c.toUpper
  else if c = Char.ofNat 0x17f then 'S'
  else if c = Char.ofNat 0x212a then 'K'
  else c

def foldName (name : List Char) : List Char := name.map foldChar

def matchField {Field : Type} (fields : List (String × Field)) (key : List Json.Piece) : Option Field :=
  (fields.find? fun f => foldName f.1.toList = foldName (Json.unquote key)).map Prod.snd

def decodeString (old : String) : Json.Value → Option String
  | .null => some old
  | .string ps => some (String.ofList (Json.unquote ps))
  | _ => none

def decodeBool (old : Bool) : Json.Value → Option Bool
  | .null => some old
  | .bool b => some b
  | _ => none

/-- `time.Time.UnmarshalJSON`, which does not undo escapes. -/
def decodeTime (old : Int) : Json.Value → Option Int
  | .null => some old
  | .string ps => Rfc3339.parse (Json.stringText ps)
  | _ => none

/-- A struct from the members of an object, in their order; unknown members are passed over. -/
def decodeMembers {Field Struct : Type} (fields : List (String × Field))
    (assign : Field → Struct → Json.Member → Option Struct) :
    Struct → List Json.Member → Option Struct
  | s, [] => some s
  | s, m::ms =>
    match matchField fields m.key with
    | none => decodeMembers fields assign s ms
    | some field =>
      match assign field s m with
      | none => none
      | some s => decodeMembers fields assign s ms

def unmarshal {Field Struct : Type} (fields : List (String × Field))
    (assign : Field → Struct → Json.Member → Option Struct) (zero : Struct) (text : String) :
    Option Struct :=
  match Json.parse text.toList with
  | some .null => some zero
  | some (.object _) => (Json.parseObject text.toList).bind (decodeMembers fields assign zero)
  | _ => none

inductive ResultField where
  | commandID
  | success
  | payload
  | errorCode
  | errorDescription
  | completedAt
deriving DecidableEq, Repr

def resultFields : List (String × ResultField) :=
  [("CommandID",.commandID),("Success",.success),("Payload",.payload),("ErrorCode",.errorCode),
    ("ErrorDescription",.errorDescription),("CompletedAt",.completedAt)]

def assignResult : ResultField → Result → Json.Member → Option Result
  | .commandID, r, m => (decodeString r.commandID m.value).map fun s => { r with commandID := s }
  | .success, r, m => (decodeBool r.success m.value).map fun b => { r with success := b }
  | .payload, r, m => some { r with payload := some (String.ofList m.raw) }
  | .errorCode, r, m => (decodeString r.errorCode m.value).map fun s => { r with errorCode := s }
  | .errorDescription, r, m =>
    (decodeString r.errorDescription m.value).map fun s => { r with errorDescription := s }
  | .completedAt, r, m => (decodeTime r.completedAt m.value).map fun t => { r with completedAt := t }

def decodeResult (text : String) : Option Result :=
  unmarshal resultFields assignResult zeroResult text

def keyPieces (name : String) : List Json.Piece := Json.quote name.toList

def stringValue (s : String) : Json.Value := .string (Json.quote s.toList)

/-- `json.RawMessage.MarshalJSON` and the compaction after it. -/
def payloadValue : Option String → Option Json.Value
  | none => some .null
  | some text => (Json.parse text.toList).map Json.Value.escapeHTML

def timeValue (time : Int) : Option Json.Value :=
  (Rfc3339.format time).map fun text => .string (text.map .plain)

def resultMembers (r : Result) (payload time : Json.Value) : List (List Json.Piece × Json.Value) :=
  [(keyPieces "CommandID",stringValue r.commandID),(keyPieces "Success",.bool r.success),
    (keyPieces "Payload",payload),(keyPieces "ErrorCode",stringValue r.errorCode),
    (keyPieces "ErrorDescription",stringValue r.errorDescription),(keyPieces "CompletedAt",time)]

/-- It fails on a payload that is not JSON and on a year that RFC 3339 cannot write. -/
def encodeResult (r : Result) : Option String := do
  let payload ← payloadValue r.payload
  let time ← timeValue r.completedAt
  return String.ofList (Json.render (.object (resultMembers r payload time)))

/-- The result that comes back: its payload is the compact text of what was written. -/
def Result.stored (r : Result) : Result :=
  { r with payload := (payloadValue r.payload).map fun v => String.ofList (Json.render v) }

theorem quote_formed (cs : List Char) : ∀ p ∈ Json.quote cs, p.Formed := by
  intro p hp
  obtain ⟨c,_,rfl⟩ := List.mem_map.mp hp
  exact Json.quoteChar_formed c

theorem payloadValue_formed {payload : Option String} {v : Json.Value}
    (h : payloadValue payload = some v) : v.Formed := by
  cases payload with
  | none =>
    cases h
    trivial
  | some text =>
    obtain ⟨w,hw,rfl⟩ := Option.map_eq_some_iff.mp h
    exact w.escapeHTML_formed (Json.parse_formed hw)

theorem payloadValue_stored {payload : Option String} {v : Json.Value}
    (h : payloadValue payload = some v) : payloadValue (some (String.ofList (Json.render v))) = some v := by
  have hv := payloadValue_formed h
  have hfix : v.escapeHTML = v := by
    cases payload with
    | none =>
      cases h
      rfl
    | some text =>
      obtain ⟨w,_,rfl⟩ := Option.map_eq_some_iff.mp h
      exact w.escapeHTML_twice
  rw [payloadValue,String.toList_ofList,Json.parse_render v hv,Option.map_some,hfix]

theorem timeValue_eq_some {time : Int} {v : Json.Value} (h : timeValue time = some v) :
    v.Formed ∧ ∀ old, decodeTime old v = some time := by
  obtain ⟨text,ht,rfl⟩ := Option.map_eq_some_iff.mp h
  refine ⟨?_,?_⟩
  · intro p hp
    obtain ⟨c,hc,rfl⟩ := List.mem_map.mp hp
    have hplain : ∀ x ∈ ['-','T',':','.','Z'], (Json.Piece.plain x).Formed := by
      simp [Json.Piece.Formed]
    rcases Rfc3339.format_chars ht c hc with hd | hm
    · refine ⟨?_,?_,?_⟩
      · intro he
        subst he
        exact absurd hd (by decide)
      · intro he
        subst he
        exact absurd hd (by decide)
      · have hlow : 48 ≤ c.toNat := (Char.isDigit_iff_toNat.mp hd).1
        omega
    · exact hplain c hm
  · intro old
    have htext : Json.stringText (text.map .plain) = text := by
      simp [Json.stringText,List.flatMap_map,Json.Piece.text]
    rw [decodeTime,htext,Rfc3339.parse_format ht]

theorem matchField_key (name : String) {Field : Type} (fields : List (String × Field)) :
    matchField fields (keyPieces name) =
      (fields.find? fun f => foldName f.1.toList = foldName name.toList).map Prod.snd := by
  rw [matchField,keyPieces,Json.unquote_quote]

theorem decodeString_value (old s : String) : decodeString old (stringValue s) = some s := by
  rw [stringValue,decodeString,Json.unquote_quote,String.ofList_toList]

theorem resultMembers_formed (r : Result) {payload time : Json.Value} (hp : payload.Formed)
    (ht : time.Formed) : Json.FormedMembers (resultMembers r payload time) := by
  exact ⟨quote_formed _,quote_formed _,quote_formed _,trivial,quote_formed _,hp,quote_formed _,
    quote_formed _,quote_formed _,quote_formed _,quote_formed _,ht,trivial⟩

theorem decodeMembers_result (r : Result) {payload time : Json.Value}
    (ht : ∀ old, decodeTime old time = some r.completedAt) :
    decodeMembers resultFields assignResult zeroResult
      ((resultMembers r payload time).map Json.writtenMember) =
      some { r with payload := some (String.ofList (Json.render payload)) } := by
  have h1 : matchField resultFields (keyPieces "CommandID") = some .commandID := by
    rw [matchField_key]
    rfl
  have h2 : matchField resultFields (keyPieces "Success") = some .success := by
    rw [matchField_key]
    rfl
  have h3 : matchField resultFields (keyPieces "Payload") = some .payload := by
    rw [matchField_key]
    rfl
  have h4 : matchField resultFields (keyPieces "ErrorCode") = some .errorCode := by
    rw [matchField_key]
    rfl
  have h5 : matchField resultFields (keyPieces "ErrorDescription") = some .errorDescription := by
    rw [matchField_key]
    rfl
  have h6 : matchField resultFields (keyPieces "CompletedAt") = some .completedAt := by
    rw [matchField_key]
    rfl
  simp only [resultMembers,List.map_cons,List.map_nil,Json.writtenMember,decodeMembers,h1,h2,h3,h4,h5,
    h6,assignResult,decodeString_value,decodeBool,ht,Option.map_some]

/-- What was encoded decodes to the stored result, and the stored result encodes to the same text. -/
theorem encodeResult_stored {r : Result} {content : String} (h : encodeResult r = some content) :
    decodeResult content = some r.stored ∧ encodeResult r.stored = some content := by
  simp only [encodeResult,Option.bind_eq_bind,Option.pure_def] at h
  obtain ⟨payload,hp,h⟩ := Option.bind_eq_some_iff.mp h
  obtain ⟨time,ht,h⟩ := Option.bind_eq_some_iff.mp h
  cases h
  obtain ⟨hformed,hdecode⟩ := timeValue_eq_some ht
  have hm := resultMembers_formed r (payloadValue_formed hp) hformed
  have hobject : (Json.Value.object (resultMembers r payload time)).Formed := hm
  have hstored : r.stored = { r with payload := some (String.ofList (Json.render payload)) } := by
    rw [Result.stored,hp,Option.map_some]
  refine ⟨?_,?_⟩
  · rw [decodeResult,unmarshal,String.toList_ofList,Json.parse_render _ hobject]
    simp only [Json.parseObject_render _ hm,Option.bind_some]
    rw [decodeMembers_result r hdecode,hstored]
  · rw [hstored]
    simp only [encodeResult,payloadValue_stored hp,ht,Option.bind_eq_bind,Option.bind_some,
      Option.pure_def]
    rfl

theorem encodeResult_eq_stored {r : Result} {v : Json.Value} (h : payloadValue r.payload = some v) :
    encodeResult r.stored = encodeResult r := by
  have hpayload : payloadValue r.stored.payload = some v := by
    rw [Result.stored,h,Option.map_some]
    exact payloadValue_stored h
  have hmembers (time : Json.Value) : resultMembers r.stored v time = resultMembers r v time := rfl
  have htime : r.stored.completedAt = r.completedAt := rfl
  simp only [encodeResult,hpayload,h,htime,hmembers,Option.bind_eq_bind,Option.bind_some]

theorem encodeResult_payload {r : Result} {content : String} (h : encodeResult r = some content) :
    ∃ v, payloadValue r.payload = some v := by
  simp only [encodeResult,Option.bind_eq_bind,Option.pure_def] at h
  obtain ⟨v,hv,_⟩ := Option.bind_eq_some_iff.mp h
  exact ⟨v,hv⟩

end CsmsPlatform
