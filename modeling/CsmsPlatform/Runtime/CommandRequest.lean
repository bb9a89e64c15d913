import CsmsPlatform.CommandBus.Payload
import CsmsPlatform.Runtime.CommandApi
import CsmsPlatform.Framework.Program

/-!
# The command API

`serverCommandHandler` from the request to the response. What it asks of the limiter, the registry, the
bus, the clock and the random source are calls, to which any reply may come.
-/

namespace CsmsPlatform.Runtime

open Text

structure ApiRequest where
  method : String
  authorization : String
  path : String
  body : String
  remoteAddr : String
deriving DecidableEq, Repr

structure Api where
  apiKeys : List String
  ownership : Bool
  bus : Bool
  limiter : Bool
  sum256 : ByteArray → List UInt8
  texts : ErrorTexts

inductive ApiCall where
  | audit (level : LogLevel) (attributes : List (String × String))
  | allow (subject : String)
  | lookup (stationIdentity : String)
  | timeNow
  | newCommandID
  | publish (command : Command)
  | awaitResult (commandID : String) (deadline : Int)
deriving DecidableEq, Repr

def ApiCall.Reply : ApiCall → Type
  | .audit _ _ => Unit
  | .allow _ => Except String Bool
  | .lookup _ => Except RegistryError Lease
  | .timeNow => Int
  | .newCommandID => String
  | .publish _ => Except String Unit
  | .awaitResult _ _ => Except String Result

structure ApiResponse where
  status : Nat
  retryAfter : Option String
  body : String
deriving DecidableEq, Repr

def writeAPIError (status : Nat) (code description : String) : ApiResponse where
  status := status
  retryAfter := none
  body := String.ofList (Json.render (.object [(keyPieces "errorCode",stringValue code),
    (keyPieces "errorDescription",stringValue description)]) ++ ['\n'])

def writeResult (result : Result) : ApiResponse where
  status := if result.success then 200 else 409
  retryAfter := none
  body := match encodeResult result with
    | some content => content ++ "\n"
    | none => ""

/-! ## The body -/

def utf8Size (text : List Char) : Nat := (text.map Char.utf8Size).sum

def maxBody : Nat := 4096

def decodeKnown (members : List Json.Member) : Option ResetCommand :=
  -- `DisallowUnknownFields`
  if members.all fun m => (matchField resetFields m.key).isSome then
    decodeMembers resetFields assignReset ⟨"",none⟩ members
  else none

/-- `decoder.Decode` takes the first value of the body and leaves the rest. An object ends with its
brace, but the end of a literal shows only in what follows it. -/
def decodePayload (body : String) : Option ResetCommand :=
  match Json.parseValue (body.toList.length+1) body.toList with
  | none => none
  | some (value,rest) =>
    let text := body.toList.take (body.toList.length-rest.length)
    match value with
    -- a literal at the limit of the reader needs the end of the body behind it
    | .null =>
      if utf8Size text < maxBody ∨ utf8Size text = maxBody ∧ rest = [] then some ⟨"",none⟩ else none
    | .object _ => if utf8Size text ≤ maxBody then (Json.parseObject text).bind decodeKnown else none
    | _ => none

theorem decodePayload_inRange {body : String} {payload : ResetCommand}
    (h : decodePayload body = some payload) : payload.InRange := by
  have hzero : (⟨"",none⟩ : ResetCommand).InRange := nofun
  unfold decodePayload at h
  split at h
  · cases h
  · dsimp only at h
    split at h
    · split at h
      · cases h
        exact hzero
      · cases h
    · split at h
      · obtain ⟨members,_,hknown⟩ := Option.bind_eq_some_iff.mp h
        unfold decodeKnown at hknown
        split at hknown
        · exact decodeMembers_inRange hknown hzero
        · cases hknown
      · cases h
    · cases h

/-! ## The handler -/

abbrev ApiProgram := Program ApiCall ApiCall.Reply

section Calls

open Program (ask)

def audit (level : LogLevel) (attributes : List (String × String)) : ApiProgram Unit :=
  ask (ApiCall.audit level attributes)

def allow (subject : String) : ApiProgram (Except String Bool) := ask (ApiCall.allow subject)

def lookup (stationIdentity : String) : ApiProgram (Except RegistryError Lease) :=
  ask (ApiCall.lookup stationIdentity)

def timeNow : ApiProgram Int := ask ApiCall.timeNow

def newCommandID : ApiProgram String := ask ApiCall.newCommandID

def publish (command : Command) : ApiProgram (Except String Unit) := ask (ApiCall.publish command)

def awaitResult (commandID : String) (deadline : Int) : ApiProgram (Except String Result) :=
  ask (ApiCall.awaitResult commandID deadline)

end Calls

def lookupFailure (err : RegistryError) : ApiResponse :=
  match err with
  | .notFound => writeAPIError 409 "StationNotConnected" err.message
  | _ => writeAPIError 500 "RegistryFailure" err.message

def dispatch (keyID : String) (command : Command) : ApiProgram ApiResponse := do
  match ← publish command with
  | .error err =>
    audit .error [("outcome","publish_failed"),("command_id",command.id),
      ("identity",command.stationIdentity),("action",command.action),("credential_id",keyID),("error",err)]
    return writeAPIError 503 "CommandPublishFailed" err
  | .ok () =>
    audit .info [("outcome","published"),("command_id",command.id),
      ("identity",command.stationIdentity),("action",command.action),("owner_id",command.ownerID),
      ("owner_generation",toString command.ownerGeneration),("credential_id",keyID)]
    match ← awaitResult command.id command.deadline with
    | .error err =>
      audit .warn [("outcome","timeout"),("command_id",command.id),
        ("identity",command.stationIdentity),("action",command.action),("credential_id",keyID)]
      return writeAPIError 504 "CommandTimeout" err
    | .ok result =>
      audit .info [("outcome","completed"),("command_id",command.id),
        ("identity",command.stationIdentity),("action",command.action),("success",toString result.success),
        ("error_code",result.errorCode),("credential_id",keyID)]
      return writeResult result

def admitted (api : Api) (request : ApiRequest) (keyID : String) : ApiProgram ApiResponse :=
  match resetPathIdentity request.path with
  | (_,false) => return writeAPIError 404 "NotFound" "command endpoint was not found"
  | (identity,true) =>
    match decodePayload request.body with
    | none => return writeAPIError 400 "InvalidPayload" (api.texts.invalidJSON request.body)
    | some payload => do
      match ← lookup identity with
      | .error err => return lookupFailure err
      | .ok lease =>
        let now ← timeNow
        let id ← newCommandID
        dispatch keyID ⟨id,identity,lease.ownerID,lease.generation,resetAction,encodeReset payload,now,
          now+commandTimeout⟩

def serverCommandHandler (api : Api) (request : ApiRequest) : ApiProgram ApiResponse :=
  if request.method ≠ "POST" then return writeAPIError 405 "MethodNotAllowed" "POST is required"
  else if api.apiKeys = [] ∨ api.ownership = false ∨ api.bus = false ∨ api.limiter = false then
    return writeAPIError 503 "CommandAPIUnavailable" "command API is not configured"
  else
    match authenticateBearer api.sum256 request.authorization api.apiKeys with
    | (_,false) => do
      audit .warn [("outcome","unauthorized"),("remote_address",request.remoteAddr)]
      return writeAPIError 401 "Unauthorized" "valid bearer credentials are required"
    | (keyID,true) => do
      match ← allow keyID with
      | .error err =>
        audit .error [("outcome","rate_limit_failure"),("credential_id",keyID),("error",err)]
        return writeAPIError 503 "RateLimitUnavailable" "command admission is unavailable"
      | .ok false =>
        audit .warn [("outcome","rate_limited"),("credential_id",keyID)]
        return { writeAPIError 429 "RateLimited" "command rate limit exceeded" with retryAfter := some "60" }
      | .ok true => admitted api request keyID

/-! ## Its runs -/

abbrev Exchange := Sigma ApiCall.Reply

def Exchange.isAudit (e : Exchange) : Bool :=
  match e.1 with
  | .audit _ _ => true
  | _ => false

def exchanges (t : List Exchange) : List Exchange := t.filter fun e => !e.isAudit

def allowed (subject : String) (reply : Except String Bool) : Exchange := ⟨.allow subject,reply⟩

def found (identity : String) (reply : Except RegistryError Lease) : Exchange := ⟨.lookup identity,reply⟩

def stamped (now : Int) : Exchange := ⟨.timeNow,now⟩

def named (id : String) : Exchange := ⟨.newCommandID,id⟩

def sent (command : Command) (reply : Except String Unit) : Exchange := ⟨.publish command,reply⟩

def awaited (command : Command) (reply : Except String Result) : Exchange :=
  ⟨.awaitResult command.id command.deadline,reply⟩

inductive Dispatched (command : Command) : List Exchange → ApiResponse → Prop
  | unsent (err : String) :
    Dispatched command [sent command (.error err)] (writeAPIError 503 "CommandPublishFailed" err)
  | unanswered (err : String) :
    Dispatched command [sent command (.ok ()),awaited command (.error err)]
      (writeAPIError 504 "CommandTimeout" err)
  | answered (result : Result) :
    Dispatched command [sent command (.ok ()),awaited command (.ok result)] (writeResult result)

theorem dispatched_of_runs {keyID : String} {command : Command} {t : List Exchange}
    {response : ApiResponse} (h : (dispatch keyID command).Runs t response) :
    Dispatched command (exchanges t) response := by
  obtain ⟨reply,t1,rfl,h1⟩ := Program.runs_ask.mp h
  clear h
  change Except String Unit at reply
  cases reply with
  | error err =>
    obtain ⟨_,t2,rfl,h2⟩ := Program.runs_ask.mp h1
    obtain ⟨rfl,rfl⟩ := Program.runs_done.mp h2
    exact .unsent err
  | ok u =>
    obtain ⟨_,t2,rfl,h2⟩ := Program.runs_ask.mp h1
    clear h1
    obtain ⟨reply,t3,rfl,h3⟩ := Program.runs_ask.mp h2
    clear h2
    change Except String Result at reply
    cases reply with
    | error err =>
      obtain ⟨_,t4,rfl,h4⟩ := Program.runs_ask.mp h3
      obtain ⟨rfl,rfl⟩ := Program.runs_done.mp h4
      exact .unanswered err
    | ok result =>
      obtain ⟨_,t4,rfl,h4⟩ := Program.runs_ask.mp h3
      obtain ⟨rfl,rfl⟩ := Program.runs_done.mp h4
      exact .answered result

/-- The command of a request for the station, once the registry has named its owner. -/
structure CommandOf (request : ApiRequest) (lease : Lease) (now : Int) (id : String) (c : Command) : Prop where
  path : request.path = "/api/v1/stations/" ++ c.stationIdentity ++ "/commands/reset"
  identity : c.stationIdentity ≠ "" ∧ '/' ∉ c.stationIdentity.toList
  owner : c.ownerID = lease.ownerID ∧ c.ownerGeneration = lease.generation
  payload : ∃ payload, decodePayload request.body = some payload ∧ c.payload = encodeReset payload ∧
    decodeReset c.payload = some payload
  action : c.action = resetAction
  id : c.id = id
  times : c.createdAt = now ∧ c.deadline = now+commandTimeout

/-- A request that has been admitted: it is refused as it stands, its station has no owner, or it
becomes a command. -/
inductive Served (request : ApiRequest) : List Exchange → ApiResponse → Prop
  | refused {status : Nat} {code description : String} (hstatus : status = 404 ∨ status = 400) :
    Served request [] (writeAPIError status code description)
  | unowned (identity : String) (err : RegistryError) :
    Served request [found identity (.error err)] (lookupFailure err)
  | dispatched {lease : Lease} {now : Int} {id : String} {c : Command} {t : List Exchange}
    {response : ApiResponse} (hc : CommandOf request lease now id c) (hd : Dispatched c t response) :
    Served request (found c.stationIdentity (.ok lease)::stamped now::named id::t) response

theorem served_of_runs {api : Api} {request : ApiRequest} {keyID : String} {t : List Exchange}
    {response : ApiResponse} (h : (admitted api request keyID).Runs t response) :
    Served request (exchanges t) response := by
  unfold admitted at h
  rcases hpath : resetPathIdentity request.path with ⟨identity,accepted⟩
  rw [hpath] at h
  cases accepted with
  | false =>
    obtain ⟨rfl,rfl⟩ := Program.runs_done.mp h
    exact .refused (.inl rfl)
  | true =>
    dsimp only at h
    cases hbody : decodePayload request.body with
    | none =>
      rw [hbody] at h
      obtain ⟨rfl,rfl⟩ := Program.runs_done.mp h
      exact .refused (.inr rfl)
    | some payload =>
      rw [hbody] at h
      obtain ⟨reply,t1,rfl,h1⟩ := Program.runs_ask.mp h
      clear h
      change Except RegistryError Lease at reply
      cases reply with
      | error err =>
        obtain ⟨rfl,rfl⟩ := Program.runs_done.mp h1
        exact .unowned identity err
      | ok lease =>
        obtain ⟨now,t2,rfl,h2⟩ := Program.runs_ask.mp h1
        obtain ⟨id,t3,rfl,h3⟩ := Program.runs_ask.mp h2
        change Int at now
        obtain ⟨hp,hidentity⟩ := resetPath_of_accepted hpath
        exact .dispatched (c := ⟨id,identity,lease.ownerID,lease.generation,resetAction,
          encodeReset payload,now,now+commandTimeout⟩)
          ⟨hp,hidentity,⟨rfl,rfl⟩,⟨payload,hbody,rfl,decodeReset_encodeReset (decodePayload_inRange hbody)⟩,
            rfl,rfl,rfl,rfl⟩ (dispatched_of_runs h3)

def Api.credentialID (api : Api) (key : String) : String := encodeHex ((api.sum256 key.toUTF8).take 8)

theorem authenticateBearer_accepted {api : Api} {header keyID : String}
    (h : authenticateBearer api.sum256 header api.apiKeys = (keyID,true)) :
    ∃ key ∈ api.apiKeys, header = "Bearer " ++ key ∧ keyID = api.credentialID key := by
  have hok : (authenticateBearer api.sum256 header api.apiKeys).2 = true := by rw [h]
  obtain ⟨key,hkey,rfl⟩ := (authenticateBearer_ok_iff api.sum256).mp hok
  refine ⟨key,hkey,rfl,?_⟩
  rw [authenticateBearer_eq,trimPrefix_append,if_pos ⟨hasPrefix_append _ _,hkey⟩] at h
  injection h with h
  exact h.symm

theorem authenticateBearer_refused {api : Api} {header keyID : String}
    (h : authenticateBearer api.sum256 header api.apiKeys = (keyID,false)) :
    ∀ key ∈ api.apiKeys, header ≠ "Bearer " ++ key := by
  intro key hkey hheader
  have hok := (authenticateBearer_ok_iff api.sum256).mpr ⟨key,hkey,hheader⟩
  rw [h] at hok
  cases hok

/-- There are keys, and the components that a command needs. -/
def Api.Configured (api : Api) : Prop :=
  api.apiKeys ≠ [] ∧ api.ownership = true ∧ api.bus = true ∧ api.limiter = true

theorem Api.configured_iff (api : Api) : api.Configured ↔
    ¬(api.apiKeys = [] ∨ api.ownership = false ∨ api.bus = false ∨ api.limiter = false) := by
  simp [Api.Configured]

/-- Whatever replies come: a request that is not a `POST`, finds no configuration or has no valid
credentials reaches no other component. Any other is put to the limiter first and is served only if
admitted. It publishes one command at most, that of its own path and body for the owner that the registry
names, and is answered with the outcome of that command. -/
theorem serverCommandHandler_protocol (api : Api) (request : ApiRequest) {t : List Exchange}
    {response : ApiResponse} (h : (serverCommandHandler api request).Runs t response) :
    (exchanges t = [] ∧
      (request.method ≠ "POST" ∧ response.status = 405 ∨
      request.method = "POST" ∧ ¬api.Configured ∧ response.status = 503 ∨
      request.method = "POST" ∧ api.Configured ∧ response.status = 401 ∧
        ∀ key ∈ api.apiKeys, request.authorization ≠ "Bearer " ++ key)) ∨
    request.method = "POST" ∧ api.Configured ∧ ∃ key ∈ api.apiKeys, request.authorization = "Bearer " ++ key ∧
      ((∃ err, exchanges t = [allowed (api.credentialID key) (.error err)] ∧ response.status = 503) ∨
      (exchanges t = [allowed (api.credentialID key) (.ok false)] ∧ response.status = 429 ∧
        response.retryAfter = some "60") ∨
      ∃ t', exchanges t = allowed (api.credentialID key) (.ok true)::t' ∧ Served request t' response) := by
  unfold serverCommandHandler at h
  by_cases hmethod : request.method ≠ "POST"
  · rw [if_pos hmethod] at h
    obtain ⟨rfl,rfl⟩ := Program.runs_done.mp h
    exact .inl ⟨rfl,.inl ⟨hmethod,rfl⟩⟩
  · rw [if_neg hmethod] at h
    have hpost := not_not.mp hmethod
    by_cases hmissing : api.apiKeys = [] ∨ api.ownership = false ∨ api.bus = false ∨ api.limiter = false
    · rw [if_pos hmissing] at h
      obtain ⟨rfl,rfl⟩ := Program.runs_done.mp h
      exact .inl ⟨rfl,.inr (.inl ⟨hpost,fun hconfigured => api.configured_iff.mp hconfigured hmissing,rfl⟩)⟩
    · rw [if_neg hmissing] at h
      have hconfigured := api.configured_iff.mpr hmissing
      rcases hauth : authenticateBearer api.sum256 request.authorization api.apiKeys with ⟨keyID,accepted⟩
      rw [hauth] at h
      cases accepted with
      | false =>
        obtain ⟨_,t1,rfl,h1⟩ := Program.runs_ask.mp h
        obtain ⟨rfl,rfl⟩ := Program.runs_done.mp h1
        exact .inl ⟨rfl,.inr (.inr ⟨hpost,hconfigured,rfl,authenticateBearer_refused hauth⟩)⟩
      | true =>
        obtain ⟨key,hkey,hheader,rfl⟩ := authenticateBearer_accepted hauth
        refine .inr ⟨hpost,hconfigured,key,hkey,hheader,?_⟩
        obtain ⟨reply,t1,rfl,h1⟩ := Program.runs_ask.mp h
        clear h
        change Except String Bool at reply
        rcases reply with err | _ | _
        · obtain ⟨_,t2,rfl,h2⟩ := Program.runs_ask.mp h1
          obtain ⟨rfl,rfl⟩ := Program.runs_done.mp h2
          exact .inl ⟨err,rfl,rfl⟩
        · obtain ⟨_,t2,rfl,h2⟩ := Program.runs_ask.mp h1
          obtain ⟨rfl,rfl⟩ := Program.runs_done.mp h2
          exact .inr (.inl ⟨rfl,rfl,rfl⟩)
        · exact .inr (.inr ⟨exchanges t1,rfl,served_of_runs h1⟩)

def betaApi : Api := ⟨["alpha","beta"],true,true,true,betaDigest,⟨id,id⟩⟩

/-- What follows the object is not read. -/
def betaRequest : ApiRequest where
  method := "POST"
  authorization := "Bearer beta"
  path := "/api/v1/stations/station-1/commands/reset"
  body := "\x7b\"Type\": \"OnIdle\", \"evseId\": 2\x7d trailing"
  remoteAddr := "192.0.2.7:4711"

theorem serverCommandHandler_protocol_unowned :
    ∃ t, (serverCommandHandler betaApi betaRequest).Runs t
        (writeAPIError 409 "StationNotConnected" "station session owner was not found") ∧
      exchanges t = [allowed "f44e64e75f3948e9" (.ok true),found "station-1" (.error .notFound)] ∧
      Served betaRequest [found "station-1" (.error .notFound)]
        (writeAPIError 409 "StationNotConnected" "station session owner was not found") := by
  have hauth : authenticateBearer betaApi.sum256 betaRequest.authorization betaApi.apiKeys =
      ("f44e64e75f3948e9",true) := by decide +kernel
  have hpath : resetPathIdentity betaRequest.path = ("station-1",true) := by decide +kernel
  have hbody : decodePayload betaRequest.body = some ⟨"OnIdle",some 2⟩ := by decide +kernel
  have hmethod : ¬betaRequest.method ≠ "POST" := by decide
  have hconfigured : ¬(betaApi.apiKeys = [] ∨ betaApi.ownership = false ∨ betaApi.bus = false ∨
      betaApi.limiter = false) := by decide
  have hruns : (serverCommandHandler betaApi betaRequest).Runs
      [allowed "f44e64e75f3948e9" (.ok true),found "station-1" (.error .notFound)]
      (writeAPIError 409 "StationNotConnected" "station session owner was not found") := by
    rw [serverCommandHandler,if_neg hmethod,if_neg hconfigured,hauth]
    refine Program.runs_ask.mpr ⟨Except.ok true,_,rfl,?_⟩
    dsimp only
    rw [admitted,hpath]
    dsimp only
    rw [hbody]
    exact Program.runs_ask.mpr ⟨Except.error .notFound,_,rfl,Program.runs_done.mpr ⟨rfl,rfl⟩⟩
  refine ⟨_,hruns,rfl,?_⟩
  rcases serverCommandHandler_protocol betaApi betaRequest hruns with ⟨hnone,_⟩ | ⟨_,_,key,_,_,hserved⟩
  · cases hnone
  · rcases hserved with ⟨err,herr,_⟩ | ⟨hfalse,_⟩ | ⟨t',ht,hserved⟩
    · cases herr
    · cases hfalse
    · cases ht
      exact hserved

end CsmsPlatform.Runtime
