import CsmsPlatform.CommandBus.Result

/-!
# The command handler of a runtime

`handleCommand` answers a command itself or goes on to `callReset`, which sends the station an OCPP
request. What the two read of the runtime is the handler's view of it.
-/

namespace CsmsPlatform

def resetAction : String := "Reset"

structure ResetCommand where
  type : String
  evseID : Option Int
deriving DecidableEq, Repr

inductive ResetField where
  | type
  | evseID
deriving DecidableEq, Repr

def resetFields : List (String × ResetField) := [("type",.type),("evseId",.evseID)]

/-- An integer behind a pointer; a fraction or an exponent is refused. -/
def decodeIntPointer : Json.Value → Option (Option Int)
  | .null => some none
  | .number n => (Decimal.parseInt (String.ofList n.text)).map some
  | _ => none

def assignReset : ResetField → ResetCommand → Json.Member → Option ResetCommand
  | .type, r, m => (decodeString r.type m.value).map fun s => { r with type := s }
  | .evseID, r, m => (decodeIntPointer m.value).map fun i => { r with evseID := i }

def decodeReset (payload : String) : Option ResetCommand :=
  unmarshal resetFields assignReset ⟨"",none⟩ payload

def intValue (i : Int) : Json.Value := .number ⟨i < 0,Nat.toDigits 10 i.natAbs,[],none⟩

/-- `mustJSON` of a reset command: a nil EVSE is left out. -/
def encodeReset (r : ResetCommand) : String :=
  String.ofList (Json.render (.object ((keyPieces "type",stringValue r.type)::
    match r.evseID with
    | none => []
    | some i => [(keyPieces "evseId",intValue i)])))

inductive Version where
  | ocpp16
  | ocpp201
  | ocpp21
  | other (name : String)
deriving DecidableEq, Repr

inductive ResetRequest where
  | ocpp16 (hard : Bool)
  | ocpp201 (type : String) (evseID : Option Int)
  | ocpp21 (type : String) (evseID : Option Int)
deriving DecidableEq, Repr

/-- The texts of errors that come from outside: `encoding/json` on a payload, and `%q`. -/
structure ErrorTexts where
  invalidJSON : String → String
  quoted : String → String

def callReset (texts : ErrorTexts) (version : Version) (request : ResetCommand) :
    Except String ResetRequest :=
  match version with
  | .ocpp16 =>
    if request.type = "OnIdle" then .ok (.ocpp16 false)
    else if request.type ≠ "Immediate" then .error "reset type must be Immediate or OnIdle"
    else .ok (.ocpp16 true)
  | .ocpp201 =>
    if request.type ≠ "Immediate" ∧ request.type ≠ "OnIdle" then
      .error "reset type must be Immediate or OnIdle"
    else .ok (.ocpp201 request.type request.evseID)
  | .ocpp21 =>
    if request.type ≠ "Immediate" ∧ request.type ≠ "OnIdle" then
      .error "reset type must be Immediate or OnIdle"
    else .ok (.ocpp21 request.type request.evseID)
  | .other name => .error ("unsupported OCPP version " ++ texts.quoted name)

def ResetRequest.version : ResetRequest → Version
  | .ocpp16 _ => .ocpp16
  | .ocpp201 _ _ => .ocpp201
  | .ocpp21 _ _ => .ocpp21

/-- The request asks the station for the reset of a command. OCPP 1.6 knows no EVSE: the whole station is
reset, whichever was named. -/
def ResetRequest.AsksFor (sent : ResetRequest) (reset : ResetCommand) : Prop :=
  match sent with
  | .ocpp16 hard => reset.type = if hard then "Immediate" else "OnIdle"
  | .ocpp201 type evseID => type = reset.type ∧ evseID = reset.evseID
  | .ocpp21 type evseID => type = reset.type ∧ evseID = reset.evseID

theorem callReset_asksFor {texts : ErrorTexts} {version : Version} {request : ResetCommand}
    {sent : ResetRequest} (h : callReset texts version request = .ok sent) :
    sent.version = version ∧ sent.AsksFor request := by
  cases version with
  | ocpp16 =>
    by_cases hsoft : request.type = "OnIdle"
    · rw [callReset,if_pos hsoft] at h
      cases h
      exact ⟨rfl,hsoft⟩
    · rw [callReset,if_neg hsoft] at h
      by_cases hhard : request.type = "Immediate"
      · rw [if_neg (not_not_intro hhard)] at h
        cases h
        exact ⟨rfl,hhard⟩
      · rw [if_pos hhard] at h
        cases h
  | ocpp201 | ocpp21 =>
    unfold callReset at h
    dsimp only at h
    split at h
    · cases h
    · cases h
      exact ⟨rfl,rfl,rfl⟩
  | other name => cases h

structure OwnershipView where
  ownerID : String
  owns : String → UInt64 → Bool

/-- What the handler reads of its runtime: the ownership manager, if there is one, and the version
of the session a station is connected by. -/
structure RuntimeView where
  ownership : Option OwnershipView
  session : String → Option Version

def failed (code description : String) : Result :=
  { zeroResult with errorCode := code, errorDescription := description }

inductive Decision where
  | respond (result : Result)
  | callReset (version : Version) (request : ResetCommand)
deriving DecidableEq, Repr

def RuntimeView.isOwner (view : RuntimeView) (command : Command) : Bool :=
  match view.ownership with
  | none => false
  | some ownership => command.ownerID = ownership.ownerID ∧
    ownership.owns command.stationIdentity command.ownerGeneration = true

def handleCommand (texts : ErrorTexts) (ctxErr : Option String) (view : RuntimeView)
    (command : Command) : Decision :=
  match ctxErr with
  | some err => .respond (failed "Expired" err)
  | none =>
    if view.isOwner command = false then .respond (failed "NotOwner" "station ownership changed")
    else
      match view.session command.stationIdentity with
      | none =>
        .respond (failed "StationNotConnected" "station is not connected to this runtime")
      | some version =>
        if command.action ≠ resetAction then
          .respond (failed "UnsupportedAction"
            ("unsupported command action " ++ texts.quoted command.action))
        else
          match decodeReset command.payload with
          | none => .respond (failed "InvalidPayload" (texts.invalidJSON command.payload))
          | some request => .callReset version request

def resetResult : Except String String → Result
  | .error err => failed "OCPPCallFailed" err
  | .ok payload => { zeroResult with success := true, payload := some payload }

/-- The error of the context that `runHandler` gives the handler: that of the consumer's own context,
or the deadline's once it has passed. -/
def handlerContextErr (parent : Option String) (deadline now : Int) : Option String :=
  match parent with
  | some err => some err
  | none => if deadline ≠ zeroTime ∧ deadline ≤ now then some "context deadline exceeded" else none

theorem handleCommand_callReset {texts : ErrorTexts} {ctxErr : Option String} {view : RuntimeView}
    {command : Command} {version : Version} {request : ResetCommand}
    (h : handleCommand texts ctxErr view command = .callReset version request) :
    ctxErr = none ∧ view.isOwner command = true := by
  unfold handleCommand at h
  split at h
  · cases h
  · split at h
    · cases h
    · next hown => exact ⟨rfl,by simpa using hown⟩

theorem handleCommand_respond {texts : ErrorTexts} {ctxErr : Option String} {view : RuntimeView}
    {command : Command} {result : Result}
    (h : handleCommand texts ctxErr view command = .respond result) :
    ∃ code description, result = failed code description := by
  unfold handleCommand at h
  repeat' split at h
  all_goals cases h
  all_goals exact ⟨_,_,rfl⟩

example : decodeReset (encodeReset ⟨"OnIdle",some 2⟩) = some ⟨"OnIdle",some 2⟩ := by decide +kernel

end CsmsPlatform
